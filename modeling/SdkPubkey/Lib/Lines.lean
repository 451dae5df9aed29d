import Mathlib.Data.List.Induction
import Std.Data.String.ToInt

/-!
# Lines

A text of lines is unambiguous as long as its lines have no delimiter in them: `Lines.cons_inj` and
`Lines.terminated_inj` read it from the front, `Lines.started_inj` from the end, which also takes a
text apart whose first part may hold anything.

The digits of a number are neither a newline nor a slash (`not_mem_repr`).
-/

namespace Lib

namespace Lines

variable {α : Type} {d : α}

/-- Each line and the delimiter after it. -/
def terminated (d : α) : List (List α) → List α
  | [] => []
  | l :: ls => l ++ d :: terminated d ls

/-- Each line and the delimiter before it. -/
def started (d : α) (ls : List (List α)) : List α := ls.flatMap (d :: ·)

theorem terminated_append (ls ms : List (List α)) :
    terminated d (ls ++ ms) = terminated d ls ++ terminated d ms := by
  induction ls with
  | nil => rfl
  | cons l ls ih => rw [List.cons_append, terminated, terminated, ih, List.append_assoc,
      List.cons_append]

/-! ## From the front -/

theorem cons_inj {a b s t : List α} (ha : d ∉ a) (hb : d ∉ b) (h : a ++ d :: s = b ++ d :: t) :
    a = b ∧ s = t := by
  induction a generalizing b with
  | nil =>
    cases b with
    | nil => exact ⟨rfl, (List.cons.inj h).2⟩
    | cons y b =>
      have hy : d = y := (List.cons.inj h).1
      exact absurd hb (by simp [hy])
  | cons x a ih =>
    cases b with
    | nil =>
      have hx : x = d := (List.cons.inj h).1
      exact absurd ha (by simp [hx])
    | cons y b =>
      obtain ⟨hxy, htl⟩ := List.cons.inj h
      obtain ⟨hab, hst⟩ := ih (fun hm => ha (.tail _ hm)) (fun hm => hb (.tail _ hm)) htl
      exact ⟨by rw [hxy, hab], hst⟩

theorem terminated_inj {ls ms : List (List α)} (hl : ∀ l ∈ ls, d ∉ l) (hm : ∀ m ∈ ms, d ∉ m)
    (h : terminated d ls = terminated d ms) : ls = ms := by
  induction ls generalizing ms with
  | nil => cases ms <;> simp_all [terminated]
  | cons l ls ih =>
    cases ms with
    | nil => simp [terminated] at h
    | cons m ms =>
      obtain ⟨hlm, htl⟩ := cons_inj (hl l (by simp)) (hm m (by simp)) h
      have hls := ih (fun x hx => hl x (by simp [hx])) (fun x hx => hm x (by simp [hx])) htl
      rw [hlm, hls]

/-! ## From the end -/

theorem last_inj {a b s t : List α} (ha : d ∉ a) (hb : d ∉ b) (h : s ++ d :: a = t ++ d :: b) :
    s = t ∧ a = b := by
  have hr : a.reverse ++ d :: s.reverse = b.reverse ++ d :: t.reverse := by
    have := congrArg List.reverse h
    simpa using this
  obtain ⟨hab, hst⟩ := cons_inj (by simpa using ha) (by simpa using hb) hr
  exact ⟨List.reverse_inj.1 hst, List.reverse_inj.1 hab⟩

/-- The last lines of a text, whatever stands before them. -/
theorem started_inj {p q : List α} {ls ms : List (List α)} (hl : ∀ l ∈ ls, d ∉ l)
    (hm : ∀ m ∈ ms, d ∉ m) (hn : ls.length = ms.length)
    (h : p ++ started d ls = q ++ started d ms) : p = q ∧ ls = ms := by
  induction ls using List.reverseRecOn generalizing ms with
  | nil =>
    have hms : ms = [] := List.length_eq_zero_iff.1 hn.symm
    subst hms
    exact ⟨by simpa [started] using h, rfl⟩
  | append_singleton ls l ih =>
    rcases List.eq_nil_or_concat ms with rfl | ⟨ms, m, rfl⟩
    · simp at hn
    · have h' : (p ++ started d ls) ++ d :: l = (q ++ started d ms) ++ d :: m := by
        simpa [started] using h
      obtain ⟨hpq, hlm⟩ := last_inj (hl l (by simp)) (hm m (by simp)) h'
      obtain ⟨hp, hls⟩ := ih (fun x hx => hl x (by simp [hx])) (fun x hx => hm x (by simp [hx]))
        (by simpa using hn) hpq
      exact ⟨hp, by rw [hls, hlm, List.concat_eq_append]⟩

/-! ## Splitting -/

theorem not_mem_of_mem_splitOn [BEq α] [LawfulBEq α] {l text : List α} (h : l ∈ text.splitOn d) :
    d ∉ l := by
  rw [List.splitOn_eq_splitOnP] at h
  induction text generalizing l with
  | nil =>
    rw [List.splitOnP_nil, List.mem_singleton] at h
    simp [h]
  | cons x text ih =>
    rw [List.splitOnP_cons_eq_if_modifyHead] at h
    by_cases hx : (x == d) = true
    · rw [if_pos hx] at h
      rcases List.mem_cons.1 h with rfl | h
      · simp
      · exact ih h
    · rw [if_neg hx] at h
      cases hs : text.splitOnP (· == d) with
      | nil => exact absurd hs (List.splitOnP_ne_nil _ _)
      | cons l' ls =>
        rw [hs, List.modifyHead_cons] at h
        rcases List.mem_cons.1 h with rfl | h
        · have hl' : d ∉ l' := ih (by rw [hs]; simp)
          have hne : d ≠ x := fun he => hx (by simp [he])
          simp [hne, hl']
        · exact ih (by rw [hs]; simp [h])

theorem of_mem_intercalate {x : α} {ls : List (List α)} (h : x ∈ [d].intercalate ls) :
    x = d ∨ ∃ l ∈ ls, x ∈ l := by
  induction ls with
  | nil => simp at h
  | cons l ls ih =>
    cases ls with
    | nil => exact .inr ⟨l, by simp, by simpa using h⟩
    | cons m ms =>
      rw [List.intercalate_cons_cons, List.mem_append, List.mem_append, List.mem_singleton] at h
      rcases h with (h | h) | h
      · exact .inr ⟨l, by simp, h⟩
      · exact .inl h
      · rcases ih h with hx | ⟨l', hl', hx⟩
        · exact .inl hx
        · exact .inr ⟨l', by simp [hl'], hx⟩

theorem mem_intercalate_of_mem {x : α} {l : List α} {ls : List (List α)} (hl : l ∈ ls)
    (hx : x ∈ l) :
    x ∈ [d].intercalate ls := by
  induction ls with
  | nil => cases hl
  | cons m ms ih =>
    cases ms with
    | nil =>
      obtain rfl := List.mem_singleton.1 hl
      simpa using hx
    | cons m' ms =>
      rw [List.intercalate_cons_cons, List.mem_append, List.mem_append]
      rcases List.mem_cons.1 hl with rfl | hl
      · exact .inl (.inl hx)
      · exact .inr (ih hl)

theorem mem_of_mem_splitOn [BEq α] [LawfulBEq α] {l text : List α} {x : α} (h : l ∈ text.splitOn d)
    (hx : x ∈ l) : x ∈ text := by
  have hm := mem_intercalate_of_mem (d := d) h hx
  rwa [List.intercalate_splitOn] at hm

theorem terminated_eq_intercalate {ls : List (List α)} (h : ls ≠ []) :
    terminated d ls = [d].intercalate ls ++ [d] := by
  induction ls with
  | nil => exact absurd rfl h
  | cons l ls ih =>
    cases ls with
    | nil => simp [terminated]
    | cons m ms =>
      rw [terminated, ih (by simp), List.intercalate_cons_cons]
      simp

/-- The lines that a terminated text is split into. -/
theorem splitOn_terminated [BEq α] [LawfulBEq α] {ls : List (List α)} (hne : ls ≠ [])
    (hl : ∀ l ∈ ls, d ∉ l) : (terminated d ls).dropLast.splitOn d = ls := by
  rw [terminated_eq_intercalate hne, List.dropLast_concat]
  exact List.splitOn_intercalate d hl hne

theorem getLast?_terminated {ls : List (List α)} (hne : ls ≠ []) :
    (terminated d ls).getLast? = some d := by
  rw [terminated_eq_intercalate hne]
  simp

/-- A text that ends with the delimiter is the lines it is split into. -/
theorem terminated_splitOn [BEq α] [LawfulBEq α] {text : List α} (h : text.getLast? = some d) :
    terminated d (text.dropLast.splitOn d) = text := by
  obtain ⟨body, rfl⟩ := List.getLast?_eq_some_iff.1 h
  rw [terminated_eq_intercalate (List.splitOn_ne_nil d _), List.intercalate_splitOn,
    List.dropLast_concat]

end Lines

/-! ## Numbers -/

theorem not_mem_repr {c : Char} (hc : c.isDigit = false) (n : Nat) : c ∉ n.repr.toList := by
  intro h
  have hm : c ∈ Nat.toDigits 10 n := by simpa [Nat.repr] using h
  have hd := Nat.isDigit_of_mem_toDigits (by decide) (by decide) hm
  rw [hc] at hd
  cases hd

theorem not_mem_repr_int {c : Char} (hc : c.isDigit = false) (hm : c ≠ '-') (i : Int) :
    c ∉ i.repr.toList := by
  intro h
  rcases i with n | n
  · exact not_mem_repr hc n h
  · have h' : c ∈ '-' :: (n + 1).repr.toList := by simpa [Int.repr] using h
    rcases List.mem_cons.1 h' with rfl | h'
    · exact hm rfl
    · exact not_mem_repr hc _ h'

end Lib
