import SdkPubkey.Lib.Lines

/-!
# Searching in a text

`find p text` is the first place where the pattern `p` starts in `text`. A pattern that does not
overlap itself is found behind a text that it is not in (`find_borderless`), and a pattern of a
delimiter and a character is found behind lines that do not begin with the character
(`find_terminated`).
-/

namespace Lib

variable {α : Type}

/-! ## Occurrences -/

/-- A pattern without the delimiter is on one side of it. -/
theorem infix_of_delimited {d : α} {p a b : List α} (hd : d ∉ p) (h : p <:+: a ++ d :: b) :
    p <:+: a ∨ p <:+: b := by
  obtain ⟨s, t, he⟩ := h
  rcases List.append_eq_append_iff.1 he with ⟨a', ha, -⟩ | ⟨c, hsp, hdb⟩
  · exact .inl ⟨s, a', ha.symm⟩
  · cases c with
    | nil =>
      rw [List.append_nil] at hsp
      exact .inl ⟨s, [], by rw [hsp, List.append_nil]⟩
    | cons e c =>
      obtain ⟨rfl, hb⟩ := List.cons.inj hdb
      rcases List.append_eq_append_iff.1 hsp with ⟨a', -, hp⟩ | ⟨s', -, hp⟩
      · exact absurd (by rw [hp]; simp) hd
      · cases s' with
        | nil => exact absurd (by rw [← List.nil_append p, ← hp]; simp) hd
        | cons e s' =>
          obtain ⟨-, hc⟩ := List.cons.inj hp
          exact .inr ⟨s', t, by rw [hb, hc]; rfl⟩

theorem not_infix_terminated {d : α} {p last : List α} (hd : d ∉ p) {ls : List (List α)}
    (hls : ∀ l ∈ ls, ¬ p <:+: l) (hlast : ¬ p <:+: last) :
    ¬ p <:+: Lines.terminated d ls ++ last := by
  induction ls with
  | nil => exact hlast
  | cons l ls ih =>
    intro h
    rw [Lines.terminated, List.append_assoc, List.cons_append] at h
    rcases infix_of_delimited hd h with h | h
    · exact hls l (by simp) h
    · exact ih (fun m hm => hls m (by simp [hm])) h

/-- Among delimited parts, a pattern without the delimiter is in one of them. -/
theorem infix_started_iff {d : α} {p : List α} (hd : d ∉ p) (first : List α) (ls : List (List α)) :
    p <:+: first ++ Lines.started d ls ↔ ∃ l ∈ first :: ls, p <:+: l := by
  induction ls generalizing first with
  | nil => simp [Lines.started]
  | cons l ls ih =>
    have hsplit : first ++ Lines.started d (l :: ls) = first ++ d ::
        (l ++ Lines.started d ls) := rfl
    rw [hsplit]
    constructor
    · intro h
      rcases infix_of_delimited hd h with h | h
      · exact ⟨first, by simp, h⟩
      · obtain ⟨m, hm, hi⟩ := (ih l).1 h
        exact ⟨m, List.mem_cons_of_mem first hm, hi⟩
    · intro h
      obtain ⟨m, hm, hi⟩ := h
      rcases List.mem_cons.1 hm with rfl | hm
      · exact hi.trans (List.prefix_append _ _).isInfix
      · have hrest := (ih l).2 ⟨m, hm, hi⟩
        refine hrest.trans (List.suffix_append_of_suffix ?_).isInfix
        exact List.suffix_cons d _

/-- A pattern is not in what does not have its first member. -/
theorem infix_append_of_not_mem {a : α} {p xs ys : List α} (h : a ∉ xs) :
    a :: p <:+: xs ++ ys ↔ a :: p <:+: ys := by
  induction xs with
  | nil => rfl
  | cons x xs ih =>
    have hne : ¬ a :: p <+: x :: (xs ++ ys) := by
      intro hs
      obtain ⟨rfl, -⟩ := List.cons_prefix_cons.1 hs
      exact h (by simp)
    rw [List.cons_append, List.infix_cons_iff, or_iff_right hne]
    exact ih fun hm => h (by simp [hm])

/-! ## The search -/

variable [DecidableEq α]

def find (p : List α) : List α → Option Nat
  | [] => if p = [] then some 0 else none
  | c :: text => if p.isPrefixOf (c :: text) then some 0 else (find p text).map (· + 1)

theorem find_prefix (p rest : List α) : find p (p ++ rest) = some 0 := by
  cases h : p ++ rest with
  | nil =>
    obtain ⟨rfl, -⟩ := List.append_eq_nil_iff.1 h
    rfl
  | cons c text => rw [find, ← h, if_pos (List.isPrefixOf_iff_prefix.2 (List.prefix_append p rest))]

/-- Where no occurrence starts, the search goes on behind. -/
theorem find_skip {p before rest : List α} (h : ∀ s, s ≠ [] → s <:+ before → ¬ p <+: s ++ rest) :
    find p (before ++ rest) = (find p rest).map (· + before.length) := by
  induction before with
  | nil => simp
  | cons c before ih =>
    have hc : ¬ p.isPrefixOf (c :: (before ++ rest)) = true := fun hp =>
      h (c :: before) (by simp) (List.suffix_refl _) (List.isPrefixOf_iff_prefix.1 hp)
    have hrest := ih fun s hne hs => h s hne (hs.trans (List.suffix_cons c before))
    rw [List.cons_append, find, if_neg hc, hrest, Option.map_map]
    congr 1

theorem find_of_not_mem {c : α} {p before : List α} (h : c ∉ before) (rest : List α) :
    find (c :: p) (before ++ rest) = (find (c :: p) rest).map (· + before.length) := by
  refine find_skip fun s hne hs hp => ?_
  cases s with
  | nil => exact hne rfl
  | cons d s =>
    obtain ⟨t, ht⟩ := hp
    obtain rfl : c = d := (List.cons.inj ht).1
    exact h (hs.subset (by simp))

/-! ## Patterns that do not overlap themselves -/

/-- No end of the pattern is a beginning of it. -/
def Borderless (p : List α) : Prop := ∀ k < p.length, 0 < k → ¬ p.drop k <+: p

theorem find_borderless {p before : List α} (hb : Borderless p) (h : ¬ p <:+: before)
    (after : List α) :
    find p (before ++ (p ++ after)) = some before.length := by
  have hskip : ∀ s, s ≠ [] → s <:+ before → ¬ p <+: s ++ (p ++ after) := by
    intro s hne hs hp
    by_cases hlen : p.length ≤ s.length
    · have hps : p <+: s := List.prefix_of_prefix_length_le hp (List.prefix_append _ _) hlen
      exact h (hps.isInfix.trans hs.isInfix)
    · have hdrop : p.drop s.length <+: p ++ after := by
        obtain ⟨t, ht⟩ := hp
        have hd := congrArg (List.drop s.length) ht
        rw [List.drop_append_of_le_length (by omega), List.drop_left] at hd
        exact ⟨t, hd⟩
      have hself : p.drop s.length <+: p := by
        refine List.prefix_of_prefix_length_le hdrop (List.prefix_append _ _) ?_
        rw [List.length_drop]
        omega
      exact hb s.length (by omega) (List.length_pos_iff.2 hne) hself
  rw [find_skip hskip, find_prefix]
  simp

/-- The first occurrence. -/
theorem exists_first {p text : List α} (hp : p ≠ []) (h : p <:+: text) :
    ∃ before after, text = before ++ (p ++ after) ∧ ¬ p <:+: before := by
  induction text with
  | nil => exact absurd (List.infix_nil.1 h) hp
  | cons c text ih =>
    by_cases hstarts : p <+: c :: text
    · obtain ⟨after, ha⟩ := hstarts
      exact ⟨[], after, ha.symm, fun hn => hp (List.infix_nil.1 hn)⟩
    · have htext : p <:+: text := (List.infix_cons_iff.1 h).resolve_left hstarts
      obtain ⟨before, after, he, hnot⟩ := ih htext
      refine ⟨c :: before, after, by rw [he, List.cons_append], fun hn => ?_⟩
      rcases List.infix_cons_iff.1 hn with hn | hn
      · refine hstarts (hn.trans ?_)
        rw [he]
        exact List.prefix_append (c :: before) _
      · exact hnot hn

/-! ## Lines -/

theorem find_delimiter (d c : α) (tail : List α) :
    find [d, c] (d :: tail) =
      if tail.head? = some c then some 0 else (find [d, c] tail).map (· + 1) := by
  have hstarts : [d, c].isPrefixOf (d :: tail) = true ↔ tail.head? = some c := by
    cases tail with
    | nil => simp
    | cons x tail => simp [eq_comm (a := c)]
  rw [find]
  by_cases h : tail.head? = some c
  · rw [if_pos h, if_pos (hstarts.2 h)]
  · rw [if_neg h, if_neg (fun hp => h (hstarts.1 hp))]

/-- The delimiter and `c` are found behind lines of which none but the first begins with `c`. -/
theorem find_terminated {d c : α} {l : List α} {ls : List (List α)} (h : ∀ m ∈ l :: ls, d ∉ m)
    (hc : ∀ m ∈ ls, (m ++ [d]).head? ≠ some c) (tail : List α) :
    find [d, c] (Lines.terminated d (l :: ls) ++ tail) =
      if tail.head? = some c then some ((Lines.terminated d (l :: ls)).length - 1)
      else (find [d, c] tail).map (· + (Lines.terminated d (l :: ls)).length) := by
  induction ls generalizing l with
  | nil =>
    rw [Lines.terminated, Lines.terminated, List.append_assoc, find_of_not_mem (h l (by simp)),
      List.singleton_append, find_delimiter]
    split
    · simp
    · rw [Option.map_map]
      congr 1
      funext n
      simp
      omega
  | cons m ls ih =>
    have hm := hc m (by simp)
    have hrest := ih (l := m) (fun k hk => h k (List.mem_cons_of_mem l hk)) fun k hk =>
      hc k (by simp [hk])
    have hhead : (Lines.terminated d (m :: ls) ++ tail).head? ≠ some c := by
      rw [Lines.terminated, List.append_assoc]
      cases m with
      | nil => exact hm
      | cons x m => exact hm
    rw [Lines.terminated, List.append_assoc, List.cons_append, find_of_not_mem (h l (by simp)),
      find_delimiter, if_neg hhead, hrest, List.length_append, List.length_cons]
    have hpos : 0 < (Lines.terminated d (m :: ls)).length := by
      rw [Lines.terminated, List.length_append, List.length_cons]
      omega
    split
    · simp only [Option.map_some, Option.some.injEq]
      omega
    · rw [Option.map_map, Option.map_map]
      congr 1
      funext n
      simp only [Function.comp]
      omega

end Lib
