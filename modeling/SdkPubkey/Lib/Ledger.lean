import Mathlib.Data.List.Basic
import Mathlib.Logic.Function.Basic

/-!
# Ledgers

Entries with a number and a key, of which each names the key of the one before (`Linking`). Writers
share `Slots`: `put` fills the slot of a number unless it is taken, and `swap` moves the head from
one key to the next entry. A writer first puts the entry that follows the head it has read and then
swaps, and others may do the same between any two of its steps.

* `Holds`: the entries that have been the head are a chain, all slots are theirs but one that may be
  above;
* `Holds.put`, `Holds.swap`: the two steps keep it, `swap` by making the entry above the head;
* `Later`: what a state has of an earlier one. What is above the head is the next head
  (`Later.next`).
-/

namespace Lib

/-- Entries as they are numbered and linked; among the good ones the key names the entry. -/
structure Linking (α κ : Type) where
  Good : α → Prop
  number : α → Nat
  key : α → κ
  parent : α → Option κ
  key_inj : ∀ {a b}, Good a → Good b → key a = key b → a = b

structure Slots (α κ : Type) where
  slot : Int → Option α
  head : Option (Int × κ)

namespace Slots

variable {α κ : Type}

/-- Whether the slot has the entry now. -/
def put [DecidableEq α] (s : Slots α κ) (n : Int) (a : α) : Bool × Slots α κ :=
  match s.slot n with
  | none => (true, { s with slot := Function.update s.slot n (some a) })
  | some b => (b = a, s)

def swap [DecidableEq κ] (s : Slots α κ) (next : Int × κ) (expected : Option κ) :
    Bool × Slots α κ :=
  if s.head.map Prod.snd = expected then (true, { s with head := some next }) else (false, s)

section
variable [DecidableEq α] {s : Slots α κ} {n : Int} {a b : α}

theorem put_vacant (h : s.slot n = none) :
    s.put n a = (true, { s with slot := Function.update s.slot n (some a) }) := by
  unfold put
  rw [h]

theorem put_taken (h : s.slot n = some b) : s.put n a = (decide (b = a), s) := by
  unfold put
  rw [h]

end

end Slots

namespace Ledger

variable {α κ : Type} (E : Linking α κ)

def pointer (a : α) : Int × κ := (E.number a, E.key a)

/-! ## Chains -/

/-- The entries follow one another, the first of them the number `n` and the key `p`. -/
def Follows (n : Nat) (p : Option κ) : List α → Prop
  | [] => True
  | a :: as => E.Good a ∧ E.number a = n + 1 ∧ E.parent a = p ∧ Follows (n + 1) (some (E.key a)) as

section
variable {E} {n k i : Nat} {p : Option κ} {as : List α} {a b : α}

theorem Follows.getElem? (h : Follows E n p as) :
    as[i]? = some a ↔ a ∈ as ∧ E.number a = n + i + 1 := by
  induction as generalizing n p i a with
  | nil => simp
  | cons c as ih =>
    obtain ⟨-, hn, -, hf⟩ := h
    have hlow : ∀ b ∈ as, n + 1 < E.number b := by
      intro b hb
      obtain ⟨j, hj⟩ := List.getElem?_of_mem hb
      have hnum := ((ih hf).1 hj).2
      omega
    cases i with
    | zero =>
      rw [List.getElem?_cons_zero, Option.some.injEq]
      constructor
      · intro hc
        subst hc
        exact ⟨List.mem_cons_self, hn⟩
      · intro hc
        obtain ⟨hm, hnum⟩ := hc
        rcases List.mem_cons.1 hm with rfl | hm
        · rfl
        · have hlt := hlow a hm
          omega
    | succ i =>
      rw [List.getElem?_cons_succ, ih hf, List.mem_cons]
      constructor
      · intro hc
        exact ⟨.inr hc.1, by omega⟩
      · intro hc
        obtain ⟨rfl | hm, hnum⟩ := hc
        · omega
        · exact ⟨hm, by omega⟩

theorem Follows.number (h : Follows E n p as) (ha : a ∈ as) :
    n < E.number a ∧ E.number a ≤ n + as.length := by
  obtain ⟨i, hi⟩ := List.getElem?_of_mem ha
  have hnum := (h.getElem?.1 hi).2
  have hlt : i < as.length := (List.getElem?_eq_some_iff.1 hi).1
  omega

theorem Follows.exists (h : Follows E n p as) (hk : n < k) (hle : k ≤ n + as.length) :
    ∃ a ∈ as, E.number a = k := by
  obtain ⟨i, hi⟩ : ∃ i, k = n + i + 1 := ⟨k - n - 1, by omega⟩
  have hlt : i < as.length := by omega
  have hm := h.getElem?.1 (List.getElem?_eq_getElem hlt)
  exact ⟨as[i], hm.1, by omega⟩

theorem Follows.unique (h : Follows E n p as) (ha : a ∈ as) (hb : b ∈ as)
    (he : E.number a = E.number b) : a = b := by
  obtain ⟨i, hi⟩ := List.getElem?_of_mem ha
  have hnum := (h.getElem?.1 hi).2
  have hi' : as[i]? = some b := h.getElem?.2 ⟨hb, by omega⟩
  exact Option.some.inj (hi.symm.trans hi')

theorem follows_append {bs : List α} : Follows E n p (as ++ bs) ↔
    Follows E n p as ∧ Follows E (n + as.length) ((as.getLast?.map E.key).or p) bs := by
  induction as generalizing n p with
  | nil => simp [Follows]
  | cons c as ih =>
    have hlast : ((c :: as).getLast?.map E.key).or p =
        (as.getLast?.map E.key).or (some (E.key c)) := by
      rw [List.getLast?_cons]
      cases as.getLast? <;> rfl
    rw [List.cons_append, Follows, Follows, ih, hlast, List.length_cons]
    have hlen : n + 1 + as.length = n + (as.length + 1) := by omega
    rw [hlen]
    simp only [and_assoc]

section
variable {R : α → α → Prop} (ht : ∀ {a b c}, R a b → R b c → R a c)
  (hs : ∀ {a b}, E.Good a → E.Good b → E.parent b = some (E.key a) → R a b)
include ht hs

/-- What holds from an entry to the next holds to all later ones. -/
theorem Follows.after (ha : E.Good a) (h : Follows E n (some (E.key a)) as) : ∀ b ∈ as, R a b := by
  induction as generalizing n a with
  | nil =>
    intro b hb
    cases hb
  | cons c as ih =>
    obtain ⟨hc, -, hparent, hf⟩ := h
    have hac : R a c := hs ha hc hparent
    intro b hb
    rcases List.mem_cons.1 hb with rfl | hb
    · exact hac
    · exact ht hac (ih hc hf b hb)

theorem Follows.pairwise (h : Follows E n p as) : as.Pairwise R := by
  induction as generalizing n p with
  | nil => exact .nil
  | cons c as ih =>
    obtain ⟨hc, -, -, hf⟩ := h
    exact .cons (hf.after ht hs hc) (ih hf)

end

/-- An entry is the first one, or it follows another. -/
theorem Follows.before (h : Follows E n p as) (ha : a ∈ as) :
    (E.number a = n + 1 ∧ E.parent a = p) ∨
    ∃ b ∈ as, E.parent a = some (E.key b) ∧ E.number a = E.number b + 1 := by
  induction as generalizing n p with
  | nil => cases ha
  | cons c as ih =>
    obtain ⟨-, hn, hp, hf⟩ := h
    rcases List.mem_cons.1 ha with rfl | ha
    · exact .inl ⟨hn, hp⟩
    · rcases ih hf ha with ⟨hn', hp'⟩ | ⟨b, hb, hp', hn'⟩
      · exact .inr ⟨c, List.mem_cons_self, hp', by omega⟩
      · exact .inr ⟨b, List.mem_cons_of_mem _ hb, hp', hn'⟩

theorem Follows.good (h : Follows E n p as) (ha : a ∈ as) : E.Good a := by
  induction as generalizing n p with
  | nil => cases ha
  | cons c as ih =>
    rcases List.mem_cons.1 ha with rfl | ha
    · exact h.1
    · exact ih h.2.2.2 ha

end

/-! ## What the slots hold -/

/-- `chain` are the entries that have been the head, the last one is it, and `above` the one entry
that stands in a slot and has not been. -/
structure Holds (s : Slots α κ) (chain : List α) (above : Option α) : Prop where
  follows : Follows E 0 none (chain ++ above.toList)
  slot : ∀ n a, s.slot n = some a ↔ a ∈ chain ++ above.toList ∧ (E.number a : Int) = n
  head : s.head = chain.getLast?.map (pointer E)

/-- An entry that has been the head. -/
def Installed (s : Slots α κ) (a : α) : Prop := ∃ chain above, Holds E s chain above ∧ a ∈ chain

/-- `a` follows an entry that has been the head, or is the first one. -/
def Extends (s : Slots α κ) (a : α) : Prop :=
  E.Good a ∧ ((E.number a = 1 ∧ E.parent a = none) ∨
    ∃ b, Installed E s b ∧ E.parent a = some (E.key b) ∧ E.number a = E.number b + 1)

section
variable {E} {s s' s'' : Slots α κ} {chain chain' : List α} {above above' : Option α}
    {a b : α} {i : Nat}

theorem holds_empty : Holds E ⟨fun _ => none, none⟩ [] none :=
  ⟨trivial, fun n a => by simp, rfl⟩

theorem Holds.chain_follows (h : Holds E s chain above) : Follows E 0 none chain :=
  (follows_append.1 h.follows).1

theorem Holds.number (h : Holds E s chain above) (ha : a ∈ chain) :
    0 < E.number a ∧ E.number a ≤ chain.length := by
  have hn := h.chain_follows.number ha
  omega

theorem Holds.getElem? (h : Holds E s chain above) (hi : i < chain.length) :
    chain[i]? = s.slot (i + 1 : Nat) := by
  have hm := h.chain_follows.getElem?.1 (List.getElem?_eq_getElem hi)
  rw [List.getElem?_eq_getElem hi]
  exact ((h.slot _ _).2 ⟨List.mem_append_left _ hm.1, by omega⟩).symm

/-- The head's entry is the last one. -/
theorem Holds.last (h : Holds E s chain above) {l : α} (hl : chain.getLast? = some l) :
    l ∈ chain ∧ E.number l = chain.length := by
  have hm := List.mem_of_getLast? hl
  rw [List.getLast?_eq_getElem?] at hl
  have hn := (h.chain_follows.getElem?.1 hl).2
  have hpos := List.length_pos_of_mem hm
  exact ⟨hm, by omega⟩

theorem Holds.length (h : Holds E s chain above) :
    (chain.length : Int) = (s.head.map Prod.fst).getD 0 := by
  rw [h.head]
  cases hl : chain.getLast? with
  | none =>
    rw [List.getLast?_eq_none_iff.1 hl]
    rfl
  | some l =>
    have hn := (h.last hl).2
    simp [pointer, hn]

/-- The slots determine the chain. -/
theorem Holds.unique (h : Holds E s chain above) (h' : Holds E s chain' above') :
    chain = chain' := by
  have hlen : chain.length = chain'.length := by
    have hl := h.length
    rw [← h'.length] at hl
    omega
  refine List.ext_getElem? fun i => ?_
  by_cases hi : i < chain.length
  · rw [h.getElem? hi, h'.getElem? (by omega)]
  · rw [List.getElem?_eq_none (by omega), List.getElem?_eq_none (by omega)]

/-- What stands above the head is in the slot of the next number. -/
theorem Holds.above_eq (h : Holds E s chain above) : s.slot (chain.length + 1 : Nat) = above := by
  cases hn : s.slot (chain.length + 1 : Nat) with
  | none =>
    cases above with
    | none => rfl
    | some b =>
      obtain ⟨-, -, hnum, -⟩ := follows_append.1 h.follows
      have hb := (h.slot (chain.length + 1 : Nat) b).2 ⟨by simp, by omega⟩
      rw [hn] at hb
      cases hb
  | some b =>
    obtain ⟨hm, hnum⟩ := (h.slot _ _).1 hn
    rcases List.mem_append.1 hm with hm | hm
    · have hle := h.number hm
      omega
    · exact (Option.mem_toList.1 hm).symm

theorem Holds.installed (h : Holds E s chain above) : Installed E s a ↔ a ∈ chain := by
  constructor
  · intro hi
    obtain ⟨chain', above', h', hm⟩ := hi
    rw [h.unique h']
    exact hm
  · intro hm
    exact ⟨chain, above, h, hm⟩

theorem Installed.good (h : Installed E s a) : E.Good a := by
  obtain ⟨chain, above, h, hm⟩ := h
  exact h.chain_follows.good hm

/-- What has been the head extends what was before it. -/
theorem Installed.extends (h : Installed E s a) : Extends E s a := by
  obtain ⟨chain, above, h, hm⟩ := h
  refine ⟨h.chain_follows.good hm, ?_⟩
  rcases h.chain_follows.before hm with ⟨hn, hp⟩ | ⟨b, hb, hp, hn⟩
  · exact .inl ⟨by omega, hp⟩
  · exact .inr ⟨b, ⟨chain, above, h, hb⟩, hp, hn⟩

theorem Installed.slot (h : Installed E s a) : s.slot (E.number a) = some a := by
  obtain ⟨chain, above, h, hm⟩ := h
  exact (h.slot _ _).2 ⟨List.mem_append_left _ hm, rfl⟩

theorem Installed.number_pos (h : Installed E s a) : 0 < E.number a := by
  obtain ⟨chain, above, h, hm⟩ := h
  exact (h.number hm).1

/-- No installed entry is above the head. -/
theorem Installed.le_head (h : Installed E s a) : ∃ p, s.head = some p ∧
    (E.number a : Int) ≤ p.1 := by
  obtain ⟨chain, above, h, hm⟩ := h
  have hn := (h.number hm).2
  have hlen := h.length
  cases hp : s.head with
  | none =>
    rw [hp, Option.map_none, Option.getD_none] at hlen
    have hpos := List.length_pos_of_mem hm
    omega
  | some p =>
    rw [hp, Option.map_some, Option.getD_some] at hlen
    exact ⟨p, rfl, by omega⟩

theorem Holds.head_installed (h : Holds E s chain above) {p : Int × κ} (hp : s.head = some p) :
    ∃ a, Installed E s a ∧ pointer E a = p := by
  rw [h.head] at hp
  obtain ⟨l, hl, hp⟩ := Option.map_eq_some_iff.1 hp
  exact ⟨l, h.installed.2 (List.mem_of_getLast? hl), hp⟩

/-- The entry that extends the chain is at most the next one, and the next one names the head. -/
theorem Holds.extends (h : Holds E s chain above) (ha : Extends E s a) :
    0 < E.number a ∧ E.number a ≤ chain.length + 1 ∧
      (E.number a = chain.length + 1 ↔ E.parent a = chain.getLast?.map E.key) := by
  obtain ⟨-, ⟨hone, hnone⟩ | ⟨b, hb, hparent, hnum⟩⟩ := ha
  · refine ⟨by omega, by omega, ?_⟩
    rw [hone, hnone]
    cases hl : chain.getLast? with
    | none =>
      rw [List.getLast?_eq_none_iff.1 hl]
      simp
    | some l =>
      have hpos := List.length_pos_of_mem (List.mem_of_getLast? hl)
      simp only [Option.map_some, reduceCtorEq, iff_false]
      omega
  · have hm := h.installed.1 hb
    have hn := h.number hm
    refine ⟨by omega, by omega, ?_⟩
    rw [hparent]
    cases hl : chain.getLast? with
    | none =>
      rw [List.getLast?_eq_none_iff.1 hl] at hm
      cases hm
    | some l =>
      obtain ⟨hlm, hln⟩ := h.last hl
      rw [Option.map_some, Option.some.injEq]
      constructor
      · intro he
        rw [h.chain_follows.unique hm hlm (by omega)]
      · intro he
        have hsame : b = l := E.key_inj (h.chain_follows.good hm) (h.chain_follows.good hlm) he
        subst hsame
        omega

/-! ## The steps -/

/-- What stands in the slot of an entry that is refused: one that has been the head since, or the
one above. -/
theorem Holds.taken (h : Holds E s chain above) {n : Int} (hb : s.slot n = some b) :
    Installed E s b ∨ above = some b := by
  obtain ⟨hm, -⟩ := (h.slot _ _).1 hb
  rcases List.mem_append.1 hm with hm | hm
  · exact .inl (h.installed.2 hm)
  · exact .inr (Option.mem_toList.1 hm)

/-- The free slot of an entry that extends the chain is the one above the head. -/
theorem Holds.vacant (h : Holds E s chain above) (ha : Extends E s a)
    (hn : s.slot (E.number a) = none) : above = none ∧ E.number a = chain.length + 1 := by
  obtain ⟨hpos, hle, -⟩ := h.extends ha
  have hbig : (chain ++ above.toList).length < E.number a := by
    by_contra hlt
    obtain ⟨b, hb, hnum⟩ := h.follows.exists (k := E.number a) hpos (by omega)
    have hslot := (h.slot (E.number a) b).2 ⟨hb, by omega⟩
    rw [hn] at hslot
    cases hslot
  rw [List.length_append] at hbig
  cases above with
  | none =>
    simp at hbig
    exact ⟨rfl, by omega⟩
  | some b =>
    simp at hbig
    omega

theorem Holds.put [DecidableEq α] (h : Holds E s chain above) (ha : Extends E s a) :
    ∃ above', Holds E (s.put (E.number a) a).2 chain above' := by
  cases hn : s.slot (E.number a) with
  | some b =>
    rw [Slots.put_taken hn]
    exact ⟨above, h⟩
  | none =>
    rw [Slots.put_vacant hn]
    obtain ⟨hab, hnum⟩ := h.vacant ha hn
    subst hab
    have hfollows : Follows E 0 none (chain ++ [a]) := by
      refine follows_append.2 ⟨h.chain_follows, ha.1, by omega, ?_, trivial⟩
      rw [Option.or_none]
      exact (h.extends ha).2.2.1 hnum
    refine ⟨some a, hfollows, fun n b => ?_, h.head⟩
    dsimp only
    rw [Option.toList_some]
    by_cases hk : n = E.number a
    · subst hk
      rw [Function.update_self, Option.some.injEq]
      constructor
      · intro hb
        subst hb
        exact ⟨by simp, rfl⟩
      · intro hb
        exact (hfollows.unique hb.1 (by simp) (by omega)).symm
    · rw [Function.update_of_ne hk, h.slot, Option.toList_none, List.append_nil]
      constructor
      · intro hb
        exact ⟨List.mem_append_left _ hb.1, hb.2⟩
      · intro hb
        obtain ⟨hm, hnum'⟩ := hb
        rcases List.mem_append.1 hm with hm | hm
        · exact ⟨hm, hnum'⟩
        · rw [List.mem_singleton.1 hm] at hnum'
          exact absurd hnum'.symm hk

/-- An entry in its slot that the head is moved to was the one above. -/
theorem Holds.swap [DecidableEq κ] (h : Holds E s chain above) (ha : Extends E s a)
    (hslot : s.slot (E.number a) = some a)
    (hs : (s.swap (pointer E a) (E.parent a)).1 = true) :
    above = some a ∧ Holds E (s.swap (pointer E a) (E.parent a)).2 (chain ++ [a]) none := by
  unfold Slots.swap at hs ⊢
  by_cases hc : s.head.map Prod.snd = E.parent a
  · rw [if_pos hc]
    have hparent : E.parent a = chain.getLast?.map E.key := by
      rw [← hc, h.head, Option.map_map]
      rfl
    have hnum := (h.extends ha).2.2.2 hparent
    have hab : above = some a := by
      rcases h.taken hslot with hi | hab
      · have hle := h.number (h.installed.1 hi)
        omega
      · exact hab
    subst hab
    refine ⟨rfl, ?_, ?_, ?_⟩
    · rw [Option.toList_none, List.append_nil]
      exact h.follows
    · rw [Option.toList_none, List.append_nil]
      exact h.slot
    · rw [List.getLast?_concat]
      rfl
  · rw [if_neg hc] at hs
    cases hs

/-! ## Later states -/

variable (E) in
/-- Slots stay as they are, and the chain only grows. -/
structure Later (s s' : Slots α κ) : Prop where
  slot : ∀ n a, s.slot n = some a → s'.slot n = some a
  chain : ∀ chain above, Holds E s chain above → ∃ more above', Holds E s' (chain ++ more) above'

theorem Later.refl (s : Slots α κ) : Later E s s :=
  ⟨fun _ _ h => h, fun chain above h => ⟨[], above, by rwa [List.append_nil]⟩⟩

theorem Later.trans (h : Later E s s') (h' : Later E s' s'') : Later E s s'' := by
  refine ⟨fun n a ha => h'.slot n a (h.slot n a ha), fun chain above hh => ?_⟩
  obtain ⟨more, above', hh⟩ := h.chain _ _ hh
  obtain ⟨more', above'', hh⟩ := h'.chain _ _ hh
  exact ⟨more ++ more', above'', by rwa [← List.append_assoc]⟩

theorem Installed.mono (h : Installed E s a) (hl : Later E s s') : Installed E s' a := by
  obtain ⟨chain, above, h, hm⟩ := h
  obtain ⟨more, above', h'⟩ := hl.chain _ _ h
  exact h'.installed.2 (List.mem_append_left _ hm)

theorem Extends.mono (h : Extends E s a) (hl : Later E s s') : Extends E s' a := by
  obtain ⟨hg, hone | ⟨b, hb, hparent, hnum⟩⟩ := h
  · exact ⟨hg, .inl hone⟩
  · exact ⟨hg, .inr ⟨b, hb.mono hl, hparent, hnum⟩⟩

/-- **What stands above the head is the next head**, whoever swaps. -/
theorem Later.next (hl : Later E s s') (h : Holds E s chain (some a)) :
    Holds E s' chain (some a) ∨ ∃ more above', Holds E s' (chain ++ a :: more) above' := by
  have hslot : s.slot (E.number a) = some a := (h.slot _ _).2 ⟨by simp, rfl⟩
  have hnum : E.number a = chain.length + 1 := by
    obtain ⟨-, -, hnum, -⟩ := follows_append.1 h.follows
    omega
  obtain ⟨more, above', h'⟩ := hl.chain _ _ h
  obtain ⟨hm, -⟩ := (h'.slot _ _).1 (hl.slot _ _ hslot)
  have hget : (chain ++ more ++ above'.toList)[chain.length]? = some a :=
    h'.follows.getElem?.2 ⟨hm, by omega⟩
  rw [List.append_assoc, List.getElem?_append_right (Nat.le_refl _), Nat.sub_self] at hget
  cases more with
  | nil =>
    left
    cases above' with
    | none => simp at hget
    | some b =>
      have hb : b = a := by simpa using hget
      subst hb
      rwa [List.append_nil] at h'
  | cons m more =>
    right
    have hma : m = a := by simpa using hget
    subst hma
    exact ⟨more, above', h'⟩

theorem later_put [DecidableEq α] (ha : Extends E s a) :
    Later E s (s.put (E.number a) a).2 := by
  refine ⟨fun n b hb => ?_, fun chain above h => ?_⟩
  · cases hn : s.slot (E.number a) with
    | some c =>
      rw [Slots.put_taken hn]
      exact hb
    | none =>
      rw [Slots.put_vacant hn]
      have hne : n ≠ E.number a := by
        intro he
        rw [he, hn] at hb
        cases hb
      exact (Function.update_of_ne hne ..).trans hb
  · obtain ⟨above', h'⟩ := h.put ha
    exact ⟨[], above', by rwa [List.append_nil]⟩

theorem later_swap [DecidableEq κ] (ha : Extends E s a)
    (hslot : s.slot (E.number a) = some a) :
    Later E s (s.swap (pointer E a) (E.parent a)).2 := by
  have hkeep : (s.swap (pointer E a) (E.parent a)).2.slot = s.slot := by
    unfold Slots.swap
    split <;> rfl
  refine ⟨fun n b hb => by rwa [hkeep], fun chain above h => ?_⟩
  by_cases hs : (s.swap (pointer E a) (E.parent a)).1 = true
  · exact ⟨[a], none, (h.swap ha hslot hs).2⟩
  · have hsame : (s.swap (pointer E a) (E.parent a)).2 = s := by
      unfold Slots.swap at hs ⊢
      split
      · rename_i hc
        rw [if_pos hc] at hs
        exact absurd rfl hs
      · rfl
    rw [hsame]
    exact ⟨[], above, by rwa [List.append_nil]⟩

theorem installed_swap [DecidableEq κ] (h : Holds E s chain above) (ha : Extends E s a)
    (hslot : s.slot (E.number a) = some a) (hs : (s.swap (pointer E a) (E.parent a)).1 = true) :
    Installed E (s.swap (pointer E a) (E.parent a)).2 a :=
  (h.swap ha hslot hs).2.installed.2 (by simp)

end

end Ledger

end Lib
