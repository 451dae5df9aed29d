import Mathlib.Order.Lattice
import Mathlib.Data.List.Basic
import Mathlib.Data.List.Perm.Basic
import Mathlib.Order.Defs.LinearOrder

/-!
# Selection from a list

`choose` filters a list and takes the first element that is preferred, or else the first one of the
sorted rest. `Wins` says the same pair by pair: an element is kept, and it stands before every other
element that is kept.

* `choose_stable_iff`: with a stable sort the choice is the element that `Wins`, earlier elements
  before later ones of the same rank.
* `head?_mergeSort_iff_best`: the first of the sorted list is the first of the best by rank
  (`IsBest`).
* `choose_conforming_iff`: with a sort that is only promised to be sorted, and only for a comparison
  that is an order, it is what every such sort chooses, so nothing else may be as good.
-/

namespace Lib.Selection

variable {α : Type}

def choose (keep prefers : α → Bool) (sort : List α → List α) (l : List α) : Option α :=
  ((l.filter keep).find? prefers).or (sort (l.filter keep)).head?

/-- The elements stand in the order of `pos`. -/
def Ordered (pos : α → Nat) (l : List α) : Prop := l.Pairwise fun a b => pos a < pos b

/-- `x` is kept and stands before every other element that is kept. -/
def Wins (keep prefers : α → Bool) (pos : α → Nat) (beats : α → α → Prop) (l : List α)
    (x : α) : Prop :=
  x ∈ l ∧ keep x = true ∧ ∀ y ∈ l, keep y = true → y ≠ x →
    (prefers x = true ∧ (prefers y = true → pos x < pos y)) ∨
      (prefers x = false ∧ prefers y = false ∧ beats x y)

theorem choose_eq_none_iff {keep prefers : α → Bool} {sort : List α → List α} {l : List α}
    (hp : ∀ c, (sort c).Perm c) :
    choose keep prefers sort l = none ↔ ∀ a ∈ l, keep a = false := by
  have hsort : (sort (l.filter keep)).head? = none ↔ l.filter keep = [] := by
    rw [List.head?_eq_none_iff]
    exact ⟨fun h => (List.nil_perm.1 (h ▸ hp _)), fun h => List.perm_nil.1 (h ▸ hp _)⟩
  unfold choose
  rw [Option.or_eq_none_iff, hsort]
  constructor
  · intro h a ha
    have hnil := h.2
    rw [List.filter_eq_nil_iff] at hnil
    simpa using hnil a ha
  · intro h
    have hnil : l.filter keep = [] := by
      rw [List.filter_eq_nil_iff]
      intro a ha
      simp [h a ha]
    rw [hnil]
    simp

theorem choose_empty {keep prefers : α → Bool} {sort : List α → List α} {l : List α}
    (hp : ∀ c, (sort c).Perm c) (h : l.filter keep = []) : choose keep prefers sort l = none := by
  have hs : sort [] = [] := List.perm_nil.1 (hp [])
  simp [choose, h, hs]

theorem choose_preferred {keep prefers : α → Bool} {sort : List α → List α} {l : List α} {x : α}
    (h : (l.filter keep).find? prefers = some x) : choose keep prefers sort l = some x := by
  simp only [choose, h, Option.some_or]

theorem choose_first {keep prefers : α → Bool} {sort : List α → List α} {l : List α}
    (h : (l.filter keep).find? prefers = none) :
    choose keep prefers sort l = (sort (l.filter keep)).head? := by
  simp only [choose, h, Option.none_or]

/-! ## The first preferred element -/

section
variable {pos : α → Nat} {l : List α}

theorem find?_iff (ho : Ordered pos l) {p : α → Bool} {x : α} :
    l.find? p = some x ↔
      x ∈ l ∧ p x = true ∧ ∀ y ∈ l, y ≠ x → p y = true → pos x < pos y := by
  have hfirst : ∀ {x}, l.find? p = some x →
      x ∈ l ∧ p x = true ∧ ∀ y ∈ l, y ≠ x → p y = true → pos x < pos y := by
    intro x h
    obtain ⟨hp, as, bs, rfl, has⟩ := List.find?_eq_some_iff_append.1 h
    refine ⟨by simp, hp, fun y hy hne hpy => ?_⟩
    rcases List.mem_append.1 hy with hy | hy
    · have hny := has y hy
      simp [hpy] at hny
    · rcases List.mem_cons.1 hy with rfl | hy
      · exact absurd rfl hne
      · have hpair := (List.pairwise_append.1 ho).2.1
        exact (List.pairwise_cons.1 hpair).1 y hy
  refine ⟨hfirst, fun ⟨hx, hp, hall⟩ => ?_⟩
  cases hf : l.find? p with
  | none =>
    rw [List.find?_eq_none] at hf
    exact absurd hp (hf x hx)
  | some x' =>
    obtain ⟨hx', hp', hall'⟩ := hfirst hf
    by_cases he : x = x'
    · rw [he]
    · have h₁ := hall x' hx' (Ne.symm he) hp'
      have h₂ := hall' x hx he hp
      omega

theorem Ordered.trichotomy (ho : Ordered pos l) {a b : α} (ha : a ∈ l) (hb : b ∈ l) :
    pos a < pos b ∨ a = b ∨ pos b < pos a := by
  induction l with
  | nil => cases ha
  | cons z l ih =>
    obtain ⟨hz, hl⟩ := List.pairwise_cons.1 ho
    rcases List.mem_cons.1 ha with rfl | hal
    · rcases List.mem_cons.1 hb with rfl | hbl
      · exact .inr (.inl rfl)
      · exact .inl (hz b hbl)
    · rcases List.mem_cons.1 hb with rfl | hbl
      · exact .inr (.inr (hz a hal))
      · exact ih hl hal hbl

theorem Ordered.nodup (ho : Ordered pos l) : l.Nodup :=
  ho.imp fun hlt he => by
    rw [he] at hlt
    omega

/-- An element that stands before another one does so in every list they are taken from. -/
theorem Ordered.pair_sublist (ho : Ordered pos l) {a b : α} (ha : a ∈ l) (hb : b ∈ l)
    (hab : pos a < pos b) : [a, b].Sublist l := by
  obtain ⟨s, t, rfl⟩ := List.append_of_mem ha
  have hbt : b ∈ t := by
    rcases List.mem_append.1 hb with hs | hs
    · have := (List.pairwise_append.1 ho).2.2 b hs a (by simp)
      omega
    · rcases List.mem_cons.1 hs with rfl | hs
      · omega
      · exact hs
  have hcons : [a, b].Sublist (a :: t) := by simpa using hbt
  exact hcons.trans (List.sublist_append_right s (a :: t))

/-! ## A stable sort -/

/-- `x` stands before `y` after a stable sort by `le`. -/
def Before (le : α → α → Bool) (pos : α → Nat) (x y : α) : Prop :=
  le x y = true ∧ (le y x = true → pos x < pos y)

theorem head?_mergeSort_iff (ho : Ordered pos l) {le : α → α → Bool}
    (trans : ∀ a b c, le a b = true → le b c = true → le a c = true)
    (total : ∀ a b, (le a b || le b a) = true) {x : α} :
    (l.mergeSort le).head? = some x ↔ x ∈ l ∧ ∀ y ∈ l, y ≠ x → Before le pos x y := by
  have hfirst : ∀ {x}, (l.mergeSort le).head? = some x →
      x ∈ l ∧ ∀ y ∈ l, y ≠ x → Before le pos x y := by
    intro x h
    obtain ⟨t, ht⟩ : ∃ t, l.mergeSort le = x :: t := by
      cases hs : l.mergeSort le with
      | nil => simp [hs] at h
      | cons z t =>
        rw [hs] at h
        exact ⟨t, by rw [Option.some.inj h]⟩
    have hx : x ∈ l := List.mem_mergeSort.1 (by rw [ht]; simp)
    have hsorted := List.pairwise_mergeSort trans total l
    rw [ht] at hsorted
    refine ⟨hx, fun y hy hne => ?_⟩
    have hyt : y ∈ t := by
      have hm : y ∈ x :: t := ht ▸ List.mem_mergeSort.2 hy
      rcases List.mem_cons.1 hm with rfl | hm
      · exact absurd rfl hne
      · exact hm
    refine ⟨(List.pairwise_cons.1 hsorted).1 y hyt, fun hle => ?_⟩
    rcases ho.trichotomy hx hy with hlt | heq | hlt
    · exact hlt
    · exact absurd heq.symm hne
    · -- `y` does not rank lower and stood before `x`, so a stable sort keeps it there
      have hsub := List.pair_sublist_mergeSort trans total hle (ho.pair_sublist hy hx hlt)
      rw [ht] at hsub
      have hnd : (x :: t).Nodup := ht ▸ (List.mergeSort_perm l le).nodup_iff.2 ho.nodup
      cases hsub with
      | cons _ hsub =>
        have hxt : x ∈ t := hsub.subset (by simp)
        exact absurd hxt (List.nodup_cons.1 hnd).1
      | cons_cons _ _ => exact absurd rfl hne
  refine ⟨hfirst, fun ⟨hx, hall⟩ => ?_⟩
  cases hs : (l.mergeSort le).head? with
  | none =>
    rw [List.head?_eq_none_iff] at hs
    have hm : x ∈ l.mergeSort le := List.mem_mergeSort.2 hx
    rw [hs] at hm
    cases hm
  | some x' =>
    obtain ⟨hx', hall'⟩ := hfirst hs
    by_cases he : x = x'
    · rw [he]
    · have h₁ := hall x' hx' (Ne.symm he)
      have h₂ := hall' x hx he
      have hlt₁ := h₁.2 h₂.1
      have hlt₂ := h₂.2 h₁.1
      omega

/-- With a stable sort the choice is the element that wins, the earlier one of two of the same
rank. -/
theorem Ordered.filter (ho : Ordered pos l) (keep : α → Bool) : Ordered pos (l.filter keep) :=
  List.Pairwise.sublist List.filter_sublist ho

/-- Where a kept element is preferred, the first of these wins, before anything is sorted. -/
theorem wins_iff_of_find? (ho : Ordered pos l) {keep prefers : α → Bool} {beats : α → α → Prop}
    {x z : α} (hf : (l.filter keep).find? prefers = some z) :
    Wins keep prefers pos beats l x ↔ z = x := by
  obtain ⟨hz, hpz, hall⟩ := (find?_iff (ho.filter keep)).1 hf
  obtain ⟨hzl, hzk⟩ := List.mem_filter.1 hz
  constructor
  · intro h
    obtain ⟨hxl, hxk, hwin⟩ := h
    by_contra hne
    rcases hwin z hzl hzk hne with ⟨hpx, hlt⟩ | ⟨-, hpz', -⟩
    · have h₁ := hall x (List.mem_filter.2 ⟨hxl, hxk⟩) (Ne.symm hne) hpx
      have h₂ := hlt hpz
      omega
    · rw [hpz] at hpz'
      cases hpz'
  · intro he
    subst he
    refine ⟨hzl, hzk, fun y hy hk hne => .inl ⟨hpz, fun hp => ?_⟩⟩
    exact hall y (List.mem_filter.2 ⟨hy, hk⟩) hne hp

/-- Where no kept element is preferred, the one that beats all others wins. -/
theorem wins_iff_of_find?_none {keep prefers : α → Bool} {beats : α → α → Prop} {x : α}
    (hf : (l.filter keep).find? prefers = none) :
    Wins keep prefers pos beats l x ↔
      x ∈ l.filter keep ∧ ∀ y ∈ l.filter keep, y ≠ x → beats x y := by
  have hnone : ∀ y ∈ l, keep y = true → prefers y = false := by
    intro y hy hk
    have := List.find?_eq_none.1 hf y (List.mem_filter.2 ⟨hy, hk⟩)
    simpa using this
  simp only [Wins, List.mem_filter]
  constructor
  · intro h
    obtain ⟨hxl, hxk, hwin⟩ := h
    refine ⟨⟨hxl, hxk⟩, fun y hy hne => ?_⟩
    rcases hwin y hy.1 hy.2 hne with ⟨hpx, -⟩ | ⟨-, -, hb⟩
    · rw [hnone x hxl hxk] at hpx
      cases hpx
    · exact hb
  · intro h
    obtain ⟨⟨hxl, hxk⟩, hall⟩ := h
    exact ⟨hxl, hxk, fun y hy hk hne =>
      .inr ⟨hnone x hxl hxk, hnone y hy hk, hall y ⟨hy, hk⟩ hne⟩⟩

theorem choose_stable_iff (ho : Ordered pos l) {keep prefers : α → Bool} {le : α → α → Bool}
    (trans : ∀ a b c, le a b = true → le b c = true → le a c = true)
    (total : ∀ a b, (le a b || le b a) = true) {x : α} :
    choose keep prefers (·.mergeSort le) l = some x ↔
      Wins keep prefers pos (Before le pos) l x := by
  unfold choose
  cases hf : (l.filter keep).find? prefers with
  | some z => rw [Option.some_or, Option.some.injEq, wins_iff_of_find? ho hf]
  | none =>
    rw [Option.none_or, head?_mergeSort_iff (ho.filter keep) trans total,
      wins_iff_of_find?_none hf]

/-! ## The first of the best -/

/-- `x` is the first element of `l` with `p`. -/
def IsFirst (p : α → Prop) (l : List α) (x : α) : Prop :=
  ∃ before after, l = before ++ x :: after ∧ p x ∧ ∀ y ∈ before, ¬ p y

/-- `x` has the largest rank in `l`, and is the first that has it. -/
def IsBest {β : Type} [Preorder β] (rank : α → β) (l : List α) (x : α) : Prop :=
  ∃ before after, l = before ++ x :: after ∧ (∀ y ∈ before, rank y < rank x) ∧
    ∀ y ∈ after, rank y ≤ rank x

theorem find?_iff_isFirst {p : α → Bool} {l : List α} {x : α} :
    l.find? p = some x ↔ IsFirst (p · = true) l x := by
  rw [List.find?_eq_some_iff_append]
  constructor
  · intro h
    obtain ⟨hp, before, after, hl, hb⟩ := h
    exact ⟨before, after, hl, hp, fun y hy => by simpa using hb y hy⟩
  · intro h
    obtain ⟨before, after, hl, hp, hb⟩ := h
    exact ⟨hp, before, after, hl, fun y hy => by simpa using hb y hy⟩

theorem findSome?_iff_isFirst {β : Type} {f : α → Option β} {l : List α} {b : β} :
    l.findSome? f = some b ↔ ∃ x, IsFirst (fun y => (f y).isSome = true) l x ∧ f x = some b := by
  rw [List.findSome?_eq_some_iff]
  constructor
  · intro h
    obtain ⟨before, x, after, hl, hx, hbefore⟩ := h
    exact ⟨x, ⟨before, after, hl, by simp [hx], fun y hy => by simp [hbefore y hy]⟩, hx⟩
  · intro h
    obtain ⟨x, ⟨before, after, hl, -, hbefore⟩, hx⟩ := h
    exact ⟨before, x, after, hl, hx, fun y hy => by simpa using hbefore y hy⟩

section
variable {le : α → α → Bool}

/-- An insertion in front takes the first place unless it is worse than what has it. -/
theorem head?_mergeSort_cons (trans : ∀ a b c, le a b = true → le b c = true → le a c = true)
    (total : ∀ a b, (le a b || le b a) = true) (a : α) (l : List α) :
    ((a :: l).mergeSort le).head? =
      some (match (l.mergeSort le).head? with
        | none => a
        | some b => if le a b then a else b) := by
  obtain ⟨l₁, l₂, hcons, hl, hlt⟩ := List.mergeSort_cons trans total a l
  rw [hcons, hl]
  cases l₁ with
  | cons b l₁ =>
    have hab : le a b = false := by simpa using hlt b (by simp)
    simp [hab]
  | nil =>
    cases l₂ with
    | nil => rfl
    | cons b l₂ =>
      have hsorted := List.pairwise_mergeSort trans total (a :: l)
      rw [hcons] at hsorted
      have hab : le a b = true := (List.pairwise_cons.1 hsorted).1 b (by simp)
      simp [hab]

theorem head?_mergeSort_iff_best {β : Type} [LinearOrder β] {rank : α → β}
    (hle : ∀ a b, le a b = true ↔ rank b ≤ rank a) {l : List α} {x : α} :
    (l.mergeSort le).head? = some x ↔ IsBest rank l x := by
  have trans : ∀ a b c, le a b = true → le b c = true → le a c = true := by
    intro a b c hab hbc
    rw [hle] at hab hbc ⊢
    exact le_trans hbc hab
  have total : ∀ a b, (le a b || le b a) = true := by
    intro a b
    rw [Bool.or_eq_true, hle, hle]
    exact le_total _ _
  induction l generalizing x with
  | nil => simp [IsBest]
  | cons a l ih =>
    rw [head?_mergeSort_cons trans total, Option.some.injEq]
    constructor
    · -- the head of the sorted tail is the best of it
      intro h
      cases hb : (l.mergeSort le).head? with
      | none =>
        have hl : l = [] := by
          rw [List.head?_eq_none_iff] at hb
          exact List.nil_perm.1 (hb ▸ List.mergeSort_perm l le)
        simp only [hb] at h
        subst hl h
        exact ⟨[], [], rfl, by simp, by simp⟩
      | some b =>
        obtain ⟨before, after, hl, hbefore, hafter⟩ := ih.1 hb
        simp only [hb] at h
        by_cases hab : le a b = true
        · rw [if_pos hab] at h
          subst h
          -- the new element stands first, also among equals
          refine ⟨[], l, rfl, by simp, fun y hy => ?_⟩
          have hba := (hle a b).1 hab
          rw [hl, List.mem_append, List.mem_cons] at hy
          rcases hy with hy | rfl | hy
          · exact le_trans (le_of_lt (hbefore y hy)) hba
          · exact hba
          · exact le_trans (hafter y hy) hba
        · rw [if_neg hab] at h
          subst h
          rw [hle, not_le] at hab
          -- the best of the tail is strictly better
          refine ⟨a :: before, after, by rw [hl]; rfl, fun y hy => ?_, hafter⟩
          rcases List.mem_cons.1 hy with rfl | hy
          · exact hab
          · exact hbefore y hy
    · intro h
      obtain ⟨before, after, hl, hbefore, hafter⟩ := h
      cases before with
      | nil =>
        obtain ⟨rfl, rfl⟩ := List.cons.inj hl
        cases hb : (l.mergeSort le).head? with
        | none => rfl
        | some b =>
          have hm : b ∈ l := List.mem_mergeSort.1 (List.mem_of_head? hb)
          exact if_pos ((hle a b).2 (hafter b hm))
      | cons z before =>
        obtain ⟨rfl, rfl⟩ := List.cons.inj hl
        have hlt := hbefore a (by simp)
        rw [ih.2 ⟨before, after, rfl, fun y hy => hbefore y (by simp [hy]), hafter⟩]
        exact if_neg fun hax => absurd ((hle a x).1 hax) (not_le.2 hlt)

end

/-- Where all ranks differ, an element of the largest rank is the best one in every order. -/
theorem isBest_of_max {β : Type} [LinearOrder β] {rank : α → β} {l : List α} {x : α} (hx : x ∈ l)
    (hmax : ∀ y ∈ l, rank y ≤ rank x) (hne : l.Pairwise fun a b => rank a ≠ rank b) :
    IsBest rank l x := by
  obtain ⟨before, after, rfl⟩ := List.append_of_mem hx
  refine ⟨before, after, rfl, fun y hy => ?_, fun y hy => hmax y (by simp [hy])⟩
  have hle := hmax y (by simp [hy])
  exact lt_of_le_of_ne hle ((List.pairwise_append.1 hne).2.2 y hy x (by simp))

theorem IsBest.mem {β : Type} [Preorder β] {rank : α → β} {l : List α} {x : α}
    (h : IsBest rank l x) : x ∈ l := by
  obtain ⟨before, after, rfl, -, -⟩ := h
  simp

theorem IsBest.max {β : Type} [LinearOrder β] {rank : α → β} {l : List α} {x : α}
    (h : IsBest rank l x) : ∀ y ∈ l, rank y ≤ rank x := by
  obtain ⟨before, after, rfl, hbefore, hafter⟩ := h
  intro y hy
  rw [List.mem_append, List.mem_cons] at hy
  rcases hy with hy | rfl | hy
  · exact le_of_lt (hbefore y hy)
  · exact le_rfl
  · exact hafter y hy

/-! ## A sort without promises about ties -/

/-- On the elements of `l`, `cmp` is the comparison of an order. -/
def Consistent (cmp : α → α → Int) (l : List α) : Prop :=
  (∀ x ∈ l, ∀ y ∈ l, cmp x y ≤ 0 ↔ 0 ≤ cmp y x) ∧
    ∀ x ∈ l, ∀ y ∈ l, ∀ z ∈ l, cmp x y ≤ 0 → cmp y z ≤ 0 → cmp x z ≤ 0

/-- A sort may order what compares as equal in any way, and anything where `cmp` is no order. -/
structure Conforms (sort : (α → α → Int) → List α → List α) : Prop where
  perm : ∀ cmp l, (sort cmp l).Perm l
  sorted : ∀ cmp l, Consistent cmp l → (sort cmp l).Pairwise fun a b => cmp a b ≤ 0

end

section
variable [DecidableEq α]

/-- The elements of `l` in the order of `cmp`, where it is one. -/
def localSort (cmp : α → α → Int) (l : List α) : List α :=
  (l.attach.mergeSort fun a b => decide (cmp a.1 b.1 ≤ 0)).map Subtype.val

omit [DecidableEq α] in
theorem localSort_conforms : Conforms (localSort (α := α)) where
  perm := fun cmp l => by
    have h := (List.mergeSort_perm l.attach fun a b => decide (cmp a.1 b.1 ≤ 0)).map Subtype.val
    rwa [List.attach_map_subtype_val] at h
  sorted := fun cmp l hc => by
    have hs : (l.attach.mergeSort fun a b => decide (cmp a.1 b.1 ≤ 0)).Pairwise
        fun a b => decide (cmp a.1 b.1 ≤ 0) = true := List.pairwise_mergeSort
      (fun a b c hab hbc => by
        simp only [decide_eq_true_eq] at hab hbc ⊢
        exact hc.2 a.1 a.2 b.1 b.2 c.1 c.2 hab hbc)
      (fun a b => by
        have := hc.1 a.1 a.2 b.1 b.2
        simp only [Bool.or_eq_true, decide_eq_true_eq]
        omega) l.attach
    refine List.pairwise_map.2 (hs.imp fun h => ?_)
    simpa using h

open Classical in
/-- The sort that puts `x` first wherever it may stand there. -/
noncomputable def sortFirst (x : α) (cmp : α → α → Int) (l : List α) : List α :=
  if x ∈ l ∧ (Consistent cmp l → ∀ y ∈ l, cmp x y ≤ 0) then x :: (localSort cmp l).erase x
  else localSort cmp l

theorem sortFirst_conforms (x : α) : Conforms (sortFirst x) where
  perm := fun cmp l => by
    have hp := localSort_conforms.perm cmp l
    unfold sortFirst
    split
    · rename_i h
      exact (List.perm_cons_erase (hp.mem_iff.2 h.1)).symm.trans hp
    · exact hp
  sorted := fun cmp l hc => by
    have hs := localSort_conforms.sorted cmp l hc
    unfold sortFirst
    split
    · rename_i h
      refine List.pairwise_cons.2 ⟨fun y hy => ?_, hs.sublist List.erase_sublist⟩
      have hm := (localSort_conforms.perm cmp l).mem_iff.1 (List.mem_of_mem_erase hy)
      exact h.2 hc y hm
    · exact hs

theorem head?_sortFirst {x : α} {cmp : α → α → Int} {l : List α} (hx : x ∈ l)
    (h : Consistent cmp l → ∀ y ∈ l, cmp x y ≤ 0) : (sortFirst x cmp l).head? = some x := by
  unfold sortFirst
  rw [if_pos ⟨hx, h⟩]
  rfl

/-- What every conforming sort puts first. -/
theorem head?_conforming_iff {cmp : α → α → Int} (hself : ∀ x, cmp x x = 0) {l : List α} {x : α} :
    (∀ sort, Conforms sort → (sort cmp l).head? = some x) ↔
      x ∈ l ∧ (∀ y ∈ l, y ≠ x → cmp x y < 0) ∧ Consistent cmp l := by
  constructor
  · intro h
    have hx : x ∈ l := by
      have hm := List.mem_of_head? (h _ localSort_conforms)
      exact (localSort_conforms.perm cmp l).mem_iff.1 hm
    have hfirst : ∀ y ∈ l, (Consistent cmp l → ∀ z ∈ l, cmp y z ≤ 0) → y = x := by
      intro y hy hle
      have hs := h _ (sortFirst_conforms y)
      rw [head?_sortFirst hy hle] at hs
      exact Option.some.inj hs
    have hcons : Consistent cmp l := by
      by_contra hn
      have hall : ∀ y ∈ l, y = x := fun y hy => hfirst y hy fun hc => absurd hc hn
      refine hn ⟨fun a ha b hb => ?_, fun a ha b hb c hc _ _ => ?_⟩
      · rw [hall a ha, hall b hb, hself]
      · exact Int.le_of_eq (by rw [hall a ha, hall c hc, hself])
    have hle : ∀ y ∈ l, cmp x y ≤ 0 := by
      intro y hy
      have hs := localSort_conforms.sorted cmp l hcons
      have hh := h _ localSort_conforms
      have hm := (localSort_conforms.perm cmp l).mem_iff.2 hy
      cases ht : localSort cmp l with
      | nil => simp [ht] at hh
      | cons z t =>
        rw [ht] at hs hh hm
        have hz : z = x := Option.some.inj hh
        subst hz
        rcases List.mem_cons.1 hm with rfl | hm
        · exact Int.le_of_eq (hself y)
        · exact (List.pairwise_cons.1 hs).1 y hm
    refine ⟨hx, fun y hy hne => ?_, hcons⟩
    by_contra hlt
    -- an element as good as `x` may stand first as well
    have hxy := hle y hy
    have hyx : cmp y x ≤ 0 := by
      have := hcons.1 y hy x hx
      omega
    exact hne (hfirst y hy fun _ z hz => hcons.2 y hy x hx z hz hyx (hle z hz))
  · intro h sort hconf
    obtain ⟨hx, hlt, hcons⟩ := h
    have hs := hconf.sorted cmp l hcons
    have hp := hconf.perm cmp l
    have hm := hp.mem_iff.2 hx
    cases ht : sort cmp l with
    | nil =>
      rw [ht] at hm
      cases hm
    | cons z t =>
      rw [ht] at hs hm
      have hz : z ∈ l := hp.mem_iff.1 (by rw [ht]; simp)
      by_contra hne
      have hzx : z ≠ x := fun he => hne (by rw [he]; rfl)
      have hxt : x ∈ t := by
        rcases List.mem_cons.1 hm with he | hm
        · exact absurd he.symm hzx
        · exact hm
      have h₁ := (List.pairwise_cons.1 hs).1 x hxt
      have h₂ := hlt z hz hzx
      have h₃ := hcons.1 z hz x hx
      omega

/-- What is chosen whichever conforming sort is used. -/
theorem choose_conforming_iff {pos : α → Nat} {l : List α} (ho : Ordered pos l)
    {keep prefers : α → Bool} {cmp : α → α → Int} (hself : ∀ x, cmp x x = 0) {x : α} :
    (∀ sort, Conforms sort → choose keep prefers (sort cmp) l = some x) ↔
      Wins keep prefers pos (fun x y => cmp x y < 0) l x ∧
        (prefers x = true ∨ Consistent cmp (l.filter keep)) := by
  unfold choose
  cases hf : (l.filter keep).find? prefers with
  | some z =>
    have hpz : prefers z = true := List.find?_some hf
    simp only [Option.some_or, Option.some.injEq]
    rw [wins_iff_of_find? ho hf]
    constructor
    · intro h
      have he := h _ localSort_conforms
      exact ⟨he, .inl (he ▸ hpz)⟩
    · intro h _ _
      exact h.1
  | none =>
    -- nothing is preferred, so the sort decides
    simp only [Option.none_or]
    rw [head?_conforming_iff hself, wins_iff_of_find?_none hf, and_assoc]
    refine and_congr_right fun hx => and_congr_right fun _ => ⟨.inr, fun hside => ?_⟩
    rcases hside with hpx | hcons
    · exact absurd hpx (List.find?_eq_none.1 hf x hx)
    · exact hcons

end

end Lib.Selection
