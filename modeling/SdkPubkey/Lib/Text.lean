import Mathlib.Data.List.DropRight
import SdkPubkey.Lib.Lines
import SdkPubkey.Lib.Search

/-!
# Splitting and stripping strings

`split`, `splitOnce` and `stripPrefix` are the standard library's, with the equations that say which
strings they take apart. `lines` is a text of lines, each with a newline after it (`split_lines`,
`lines_split`), and `joined` is a text of words with a character between them.
-/

namespace Lib.Text

theorem append_toList (s t : String) : (s ++ t).toList = s.toList ++ t.toList :=
  String.toList_append

/-! ## Prefixes -/

/-- What is left of `s` behind `p`. -/
def stripPrefix (p s : String) : Option String :=
  if p.toList.isPrefixOf s.toList
      then some (String.ofList (s.toList.drop p.toList.length)) else none

theorem stripPrefix_eq_some_iff {p s rest : String} :
    stripPrefix p s = some rest ↔ s = p ++ rest := by
  unfold stripPrefix
  rw [← String.toList_inj, append_toList]
  constructor
  · intro h
    split at h
    · rename_i hp
      obtain ⟨t, ht⟩ := List.isPrefixOf_iff_prefix.1 hp
      rw [← ht, List.drop_left, Option.some.injEq] at h
      rw [← ht, ← h, String.toList_ofList]
    · cases h
  · intro h
    rw [h, if_pos (List.isPrefixOf_iff_prefix.2 (List.prefix_append _ _)), List.drop_left,
      String.ofList_toList]

/-! ## Trimming -/

def trim (space : Char → Bool) (s : String) : String :=
  String.ofList ((s.toList.dropWhile space).rdropWhile space)

theorem rdropWhile_append (p : Char → Bool) (a b : List Char) :
    (a ++ b).rdropWhile p = if b.rdropWhile p = [] then a.rdropWhile p else a ++
    b.rdropWhile p := by
  unfold List.rdropWhile
  rw [List.reverse_append, List.dropWhile_append]
  cases b.reverse.dropWhile p <;> simp

/-- Trimming removes the space before a text, and the space after it. -/
theorem toList_trim {space : Char → Bool} {s : String} (before text : List Char)
    (hs : s.toList = before ++ text) (hbefore : ∀ c ∈ before, space c = true)
    (htext : ∀ c, text.head? = some c → space c = false) :
    (trim space s).toList = text.rdropWhile space := by
  have hdrop : text.dropWhile space = text := by
    cases text with
    | nil => rfl
    | cons c text => rw [List.dropWhile_cons_of_neg (by simp [htext c rfl])]
  rw [trim, String.toList_ofList, hs, List.dropWhile_append_of_pos hbefore, hdrop]

/-! ## Splitting -/

def split (sep : Char) (s : String) : List String := (s.toList.splitOn sep).map String.ofList

/-- The words with `sep` between them. -/
def joined (sep : Char) (words : List String) : String :=
  String.ofList ([sep].intercalate (words.map String.toList))

theorem map_toList_split (sep : Char) (s : String) :
    (split sep s).map String.toList = s.toList.splitOn sep := by
  simp [split, Function.comp_def]

theorem split_ne_nil (sep : Char) (s : String) : split sep s ≠ [] := by
  simp [split, List.splitOn_ne_nil]

theorem not_mem_of_mem_split {sep : Char} {s w : String} (h : w ∈ split sep s) :
    sep ∉ w.toList := by
  obtain ⟨l, hl, rfl⟩ := List.mem_map.1 h
  rw [String.toList_ofList]
  exact Lines.not_mem_of_mem_splitOn hl

theorem joined_split (sep : Char) (s : String) : joined sep (split sep s) = s := by
  unfold joined
  rw [map_toList_split, List.intercalate_splitOn, String.ofList_toList]

theorem split_joined {sep : Char} {words : List String} (hne : words ≠ [])
    (h : ∀ w ∈ words, sep ∉ w.toList) : split sep (joined sep words) = words := by
  unfold joined split
  rw [String.toList_ofList, List.splitOn_intercalate sep (by simpa using h) (by simpa using hne)]
  simp [Function.comp_def]

/-- A word, and more words with `sep` before each of them. -/
theorem toList_joined_cons (sep : Char) (w : String) (words : List String) :
    (joined sep (w :: words)).toList = w.toList ++ Lines.started sep (words.map String.toList) := by
  rw [joined, String.toList_ofList]
  induction words generalizing w with
  | nil => simp [Lines.started]
  | cons v words ih =>
    have hv := ih v
    rw [List.map_cons] at hv
    rw [List.map_cons, List.map_cons, List.intercalate_cons_of_ne_nil (by simp), hv]
    simp [Lines.started]

/-- Among joined words, a pattern without the separator is in one of them. -/
theorem infix_joined_iff {sep : Char} {p : List Char} (hp : sep ∉ p) {words : List String}
    (hne : words ≠ []) : p <:+: (joined sep words).toList ↔ ∃ w ∈ words, p <:+: w.toList := by
  cases words with
  | nil => exact absurd rfl hne
  | cons w words =>
    rw [toList_joined_cons, infix_started_iff hp, ← List.map_cons]
    simp

/-- The parts before and after the first `sep`. -/
def splitOnce (sep : Char) (s : String) : Option (String × String) :=
  match s.toList.dropWhile (· != sep) with
  | [] => none
  | _ :: after => some (String.ofList (s.toList.takeWhile (· != sep)), String.ofList after)

theorem eq_of_dropWhile_cons {sep c : Char} {cs after : List Char}
    (h : cs.dropWhile (· != sep) = c :: after) : c = sep := by
  have hhead := List.head_dropWhile_not (p := (· != sep)) (l := cs) (by simp [h])
  simpa [h] using hhead

theorem splitOnce_eq_some_iff {sep : Char} {s a b : String} :
    splitOnce sep s = some (a, b) ↔ s.toList = a.toList ++ sep :: b.toList ∧ sep ∉ a.toList := by
  have hjoin := List.takeWhile_append_dropWhile (p := (· != sep)) (l := s.toList)
  unfold splitOnce
  constructor
  · intro h
    cases hd : s.toList.dropWhile (· != sep) with
    | nil =>
      rw [hd] at h
      cases h
    | cons c after =>
      rw [hd] at h hjoin
      obtain ⟨rfl, rfl⟩ := Prod.mk.inj (Option.some.inj h)
      have hc : c = sep := eq_of_dropWhile_cons hd
      rw [hc] at hjoin
      rw [String.toList_ofList, String.toList_ofList]
      refine ⟨hjoin.symm, fun hmem => ?_⟩
      have hne := List.mem_takeWhile_imp hmem
      simp at hne
  · intro h
    obtain ⟨hs, ha⟩ := h
    have hall : ∀ c ∈ a.toList, (c != sep) = true := fun c hc => by
      rw [bne_iff_ne]
      rintro rfl
      exact ha hc
    rw [hs, List.dropWhile_append_of_pos hall, List.takeWhile_append_of_pos hall,
      List.dropWhile_cons_of_neg (by simp), List.takeWhile_cons_of_neg (by simp)]
    simp

theorem splitOnce_eq_none_iff {sep : Char} {s : String} : splitOnce sep s = none ↔
    sep ∉ s.toList := by
  unfold splitOnce
  cases hd : s.toList.dropWhile (· != sep) with
  | nil =>
    rw [List.dropWhile_eq_nil_iff] at hd
    refine ⟨fun _ hmem => ?_, fun _ => rfl⟩
    have hne := hd sep hmem
    simp at hne
  | cons c after =>
    refine ⟨fun h => (by cases h), fun h => ?_⟩
    have hmem : c ∈ s.toList := (List.dropWhile_suffix _).subset
        (by rw [hd]; exact List.mem_cons_self)
    rw [eq_of_dropWhile_cons hd] at hmem
    exact absurd hmem h

/-- The parts before and after the last `sep`. -/
def rsplitOnce (sep : Char) (s : String) : Option (String × String) :=
  match s.toList.reverse.dropWhile (· != sep) with
  | [] => none
  | _ :: before =>
    some (String.ofList before.reverse,
      String.ofList (s.toList.reverse.takeWhile (· != sep)).reverse)

/-! ## Lines -/

def lines : List String → String
  | [] => ""
  | l :: ls => l ++ "\n" ++ lines ls

theorem toList_lines (ls : List String) :
    (lines ls).toList = Lines.terminated '\n' (ls.map String.toList) := by
  induction ls with
  | nil => rfl
  | cons l ls ih => simp [lines, Lines.terminated, ih]

/-- The lines of a text that ends with a newline. -/
def linesOf (text : String) : List String := split '\n' (String.ofList text.toList.dropLast)

theorem linesOf_lines {ls : List String} (hne : ls ≠ []) (h : ∀ l ∈ ls, '\n' ∉ l.toList) :
    linesOf (lines ls) = ls := by
  unfold linesOf split
  rw [String.toList_ofList, toList_lines,
    Lines.splitOn_terminated (by simpa using hne) (by simpa using h)]
  simp [Function.comp_def]

theorem getLast?_lines {ls : List String} (hne : ls ≠ []) : (lines ls).toList.getLast? =
    some '\n' := by
  rw [toList_lines]
  exact Lines.getLast?_terminated (by simpa using hne)

theorem lines_linesOf {text : String} (h : text.toList.getLast? = some '\n') :
    lines (linesOf text) = text := by
  rw [← String.toList_inj, toList_lines]
  unfold linesOf
  rw [map_toList_split, String.toList_ofList]
  exact Lines.terminated_splitOn h

end Lib.Text
