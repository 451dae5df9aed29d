import Mathlib.Data.Bool.AllAny
import SdkPubkey.Discovery.Grant
import SdkPubkey.Discovery.Value
import SdkPubkey.Lib.Text

/-!
# JSON values as texts

What `value_to_string` of Rust (`crates/discovery/src/document.rs`) and `toString()` of Dart make of
a JSON value. Both print the value: a `Format` says how they join what they print, and what they
print for a string and for a number. `serde_json` quotes strings and writes no blanks; Dart quotes
nothing.

* `valueToString_eq_toString_iff`: the values of which both make the same text.
-/

namespace Discovery

open Lib Lib.Text

/-! ## Numbers -/

def isNumeral (c : Char) : Bool := c.isDigit || c ∈ ['+', '-', '.', 'e']

/-- The text of a number. -/
structure Plain (s : String) : Prop where
  ne_empty : s ≠ ""
  numeral : ∀ c ∈ s.toList, isNumeral c = true

/-- How doubles are printed: by Rust those of JSON, by Dart the number where it is no 64-bit
integer. Dart prints a point or an exponent. -/
structure NumberTexts where
  rust : BitVec 64 → String
  dart : Number → String
  rust_plain : ∀ bits, Plain (rust bits)
  dart_plain : ∀ n, Plain (dart n)
  dart_double : ∀ n, '.' ∈ (dart n).toList ∨ 'e' ∈ (dart n).toList

/-! ## Printing -/

structure Format where
  comma : List Char
  colon : List Char
  string : String → List Char
  number : Number → String
  plain : ∀ n, Plain (number n)

namespace Format

mutual
def print (f : Format) : Value → List Char
  | .null => "null".toList
  | .bool b => (if b then "true" else "false").toList
  | .number n => (f.number n).toList
  | .string s => f.string s
  | .array xs => '[' :: (f.comma.intercalate (elements f xs) ++ [']'])
  | .object m => '{' :: (f.comma.intercalate (members f m) ++ ['}'])
def elements (f : Format) : List Value → List (List Char)
  | [] => []
  | x :: xs => print f x :: elements f xs
def members (f : Format) : List (String × Value) → List (List Char)
  | [] => []
  | (k, v) :: m => (f.string k ++ f.colon ++ print f v) :: members f m
end

/-- The text of a value: a string is its own. -/
def text (f : Format) : Value → String
  | .string s => s
  | v => String.ofList (f.print v)

end Format

theorem plain_toString (n : Int) : Plain (toString n) := by
  obtain ⟨sign, digits, hs, hne, hall, hsign⟩ := Grant.spells_toString n
  constructor
  · intro h
    rw [h] at hs
    exact hne (List.append_eq_nil_iff.1 hs.symm).2
  · intro c hc
    rw [hs] at hc
    rcases List.mem_append.1 hc with hc | hc
    · rcases hsign with ⟨rfl | rfl, -⟩ | ⟨rfl, -⟩
      · cases hc
      · obtain rfl := List.mem_singleton.1 hc
        decide
      · obtain rfl := List.mem_singleton.1 hc
        decide
    · have hdigit := List.all_eq_true.1 hall c hc
      simp [isNumeral, hdigit]

/-! ## Rust -/

namespace Rust

/-- The escapes of `serde_json`. -/
def escapeChar (c : Char) : List Char :=
  if c = '"' then ['\\', '"']
  else if c = '\\' then ['\\', '\\']
  else if c = '\n' then ['\\', 'n']
  else if c = '\r' then ['\\', 'r']
  else if c = '\t' then ['\\', 't']
  else if c.toNat = 8 then ['\\', 'b']
  else if c.toNat = 12 then ['\\', 'f']
  else if c.toNat < 32 then
    ['\\', 'u', '0', '0', Nat.digitChar (c.toNat / 16), Nat.digitChar (c.toNat % 16)]
  else [c]

def escape (cs : List Char) : List Char := cs.flatMap escapeChar

def quoted (s : String) : List Char := '"' :: (escape s.toList ++ ['"'])

def numberText (t : NumberTexts) : Number → String
  | .posInt n => toString (n.1 : Int)
  | .negInt n => toString n.1
  | .float bits => t.rust bits

/-- `Display` of a value. -/
def display (t : NumberTexts) : Format where
  comma := [',']
  colon := [':']
  string := quoted
  number := numberText t
  plain n := by
    cases n with
    | posInt n => exact plain_toString _
    | negInt n => exact plain_toString _
    | float bits => exact t.rust_plain bits

def valueToString (t : NumberTexts) : Value → String
  | .string s => s
  | other => trim (· == '"') (String.ofList ((display t).print other))

end Rust

/-! ## Dart -/

namespace Dart

/-- A number of JSON is an `int` where it is one of 64 bits, and else a `double`. -/
def numberText (t : NumberTexts) (n : Number) : String :=
  match n.asI64 with
  | some i => toString i
  | none => t.dart n

def display (t : NumberTexts) : Format where
  comma := [',', ' ']
  colon := [':', ' ']
  string := String.toList
  number := numberText t
  plain n := by
    unfold numberText
    split
    · exact plain_toString _
    · exact t.dart_plain n

def toString (t : NumberTexts) (v : Value) : String := String.ofList ((display t).print v)

end Dart

/-! ## What prints alike -/

/-- The values, inside others, that both print alike. -/
inductive PrintsAlike (t : NumberTexts) : Value → Prop
  | null : PrintsAlike t .null
  | bool (b : Bool) : PrintsAlike t (.bool b)
  | int {n : Number} {i : Int} : n.asI64 = some i → PrintsAlike t (.number n)
  | float {bits : BitVec 64} : t.rust bits = t.dart (.float bits) →
      PrintsAlike t (.number (.float bits))
  | empty : PrintsAlike t (.array [])
  | single {x : Value} : PrintsAlike t x → PrintsAlike t (.array [x])
  | emptyObject : PrintsAlike t (.object [])

/-- The values that have the same text. -/
def Alike (t : NumberTexts) (v : Value) : Prop := (∃ s, v = .string s) ∨ PrintsAlike t v

/-- What is left after a value: a delimiter comes next. -/
def Delimited (rest : List Char) : Prop := ∃ c cs, rest = c :: cs ∧ c ∈ [',', ']', '}']

/-- The first character of a value that is no string. -/
def Opens (c : Char) : Prop := c ∈ ['n', 't', 'f', '[', '{'] ∨ isNumeral c = true

instance : DecidablePred Opens :=
  fun c => inferInstanceAs (Decidable (c ∈ ['n', 't', 'f', '[', '{'] ∨ isNumeral c = true))

/-- The last one. -/
def Closes (c : Char) : Prop := c ∈ ['l', 'e', ']', '}'] ∨ isNumeral c = true

theorem Plain.opens {s : String} (h : Plain s) : ∃ c cs, s.toList = c :: cs ∧ Opens c := by
  cases hs : s.toList with
  | nil => exact absurd (String.toList_eq_nil_iff.1 hs) h.ne_empty
  | cons c cs => exact ⟨c, cs, rfl, .inr (h.numeral c (by simp [hs]))⟩

theorem Plain.closes {s : String} (h : Plain s) : ∃ cs c, s.toList = cs ++ [c] ∧ Closes c := by
  rcases List.eq_nil_or_concat' s.toList with hs | ⟨cs, c, hs⟩
  · exact absurd (String.toList_eq_nil_iff.1 hs) h.ne_empty
  · exact ⟨cs, c, hs, .inr (h.numeral c (by simp [hs]))⟩

theorem Format.print_opens (f : Format) {v : Value} (hv : ∀ s, v ≠ .string s) :
    ∃ c cs, f.print v = c :: cs ∧ Opens c := by
  cases v with
  | null => exact ⟨'n', _, rfl, .inl (by decide)⟩
  | bool b =>
    cases b
    · exact ⟨'f', _, rfl, .inl (by decide)⟩
    · exact ⟨'t', _, rfl, .inl (by decide)⟩
  | number n => exact (f.plain n).opens
  | string s => exact absurd rfl (hv s)
  | array xs => exact ⟨'[', _, rfl, .inl (by decide)⟩
  | object m => exact ⟨'{', _, rfl, .inl (by decide)⟩

theorem Format.print_closes (f : Format) {v : Value} (hv : ∀ s, v ≠ .string s) :
    ∃ cs c, f.print v = cs ++ [c] ∧ Closes c := by
  cases v with
  | null => exact ⟨['n', 'u', 'l'], 'l', rfl, .inl (by decide)⟩
  | bool b =>
    cases b
    · exact ⟨['f', 'a', 'l', 's'], 'e', rfl, .inl (by decide)⟩
    · exact ⟨['t', 'r', 'u'], 'e', rfl, .inl (by decide)⟩
  | number n => exact (f.plain n).closes
  | string s => exact absurd rfl (hv s)
  | array xs => exact ⟨'[' :: f.comma.intercalate (f.elements xs), ']', rfl, .inl (by decide)⟩
  | object m => exact ⟨'{' :: f.comma.intercalate (f.members m), '}', rfl, .inl (by decide)⟩

theorem Format.print_single (f : Format) (x : Value) :
    f.print (.array [x]) = '[' :: (f.print x ++ [']']) := by
  simp [Format.print, Format.elements]

theorem Format.text_of_ne (f : Format) {v : Value} (hv : ∀ s, v ≠ .string s) :
    f.text v = String.ofList (f.print v) := by
  cases v with
  | string s => exact absurd rfl (hv s)
  | _ => rfl

/-- A text that no other value can have is that of the string. -/
theorem Format.text_eq_iff (f : Format) {s : String} (hs : ∀ c, s.toList.head? = some c → ¬ Opens c)
    {v : Value} : f.text v = s ↔ v = .string s := by
  constructor
  · intro h
    by_cases hv : ∃ s', v = .string s'
    · obtain ⟨s', rfl⟩ := hv
      exact congrArg _ h
    · have hne : ∀ s', v ≠ .string s' := fun s' he => hv ⟨s', he⟩
      obtain ⟨c, cs, hprint, hopens⟩ := f.print_opens hne
      refine absurd hopens (hs c ?_)
      rw [← h, f.text_of_ne hne, String.toList_ofList, hprint]
      rfl
  · intro h
    rw [h]
    rfl

theorem Rust.valueToString_eq (t : NumberTexts) (v : Value) :
    Rust.valueToString t v = (Rust.display t).text v := by
  by_cases hv : ∃ s, v = .string s
  · obtain ⟨s, rfl⟩ := hv
    rfl
  · have hne : ∀ s, v ≠ .string s := fun s he => hv ⟨s, he⟩
    obtain ⟨c, cs, hopen, hopens⟩ := (Rust.display t).print_opens hne
    obtain ⟨ds, d, hclose, hcloses⟩ := (Rust.display t).print_closes hne
    have hc : (c == '"') = false := by
      rw [beq_eq_false_iff_ne]
      intro he
      subst he
      rcases hopens with h | h <;> revert h <;> decide
    have hd : (d == '"') = false := by
      rw [beq_eq_false_iff_ne]
      intro he
      subst he
      rcases hcloses with h | h <;> revert h <;> decide
    have htrim : trim (· == '"') (String.ofList ((Rust.display t).print v)) =
        String.ofList ((Rust.display t).print v) := by
      rw [← String.toList_inj, String.toList_ofList]
      rw [toList_trim [] ((Rust.display t).print v) (by simp) (by simp), hclose]
      · rw [List.rdropWhile_concat_neg]
        simp [hd]
      · intro c' hc'
        rw [hopen, List.head?_cons, Option.some.injEq] at hc'
        rw [← hc']
        exact hc
    cases v with
    | string s => exact absurd ⟨s, rfl⟩ hv
    | _ => exact htrim

theorem Dart.toString_eq (t : NumberTexts) (v : Value) : Dart.toString t v =
    (Dart.display t).text v := by
  cases v with
  | string s => exact String.ofList_toList
  | _ => rfl

/-! ## Reading it back -/

/-- A text with a quote or a backslash before it keeps them: each character that is the one in front
is escaped, and so two are in front of the rest. -/
theorem escaped_ne (ahead : List Char) (hne : ahead ≠ []) (hahead : ∀ c ∈ ahead, c = '"' ∨ c = '\\')
    (cs rest rest' : List Char) (hrest : ∀ c, rest'.head? = some c → c ≠ '"' ∧ c ≠ '\\') :
    ahead ++ Rust.escape cs ++ rest ≠ cs ++ rest' := by
  induction cs generalizing ahead with
  | nil =>
    intro h
    obtain ⟨d, ahead, rfl⟩ := List.exists_cons_of_ne_nil hne
    have hhead : rest'.head? = some d := by
      rw [← List.nil_append rest', ← h]
      rfl
    rcases hahead d (by simp) with hd | hd
    · exact (hrest d hhead).1 hd
    · exact (hrest d hhead).2 hd
  | cons c cs ih =>
    intro h
    obtain ⟨d, ahead, rfl⟩ := List.exists_cons_of_ne_nil hne
    have hcons : d :: (ahead ++ (Rust.escapeChar c ++ Rust.escape cs) ++ rest) = c ::
        (cs ++ rest') := h
    obtain ⟨rfl, htail⟩ := List.cons.inj hcons
    have hd := hahead d (by simp)
    have hescape : Rust.escapeChar d = ['\\', d] := by
      rcases hd with rfl | rfl <;> rfl
    rw [hescape, ← List.append_assoc] at htail
    refine ih _ (by simp) (fun c hc => ?_) htail
    rcases List.mem_append.1 hc with hc | hc
    · exact hahead c (List.mem_cons_of_mem _ hc)
    · rcases List.mem_cons.1 hc with rfl | hc
      · exact .inr rfl
      · obtain rfl := List.mem_singleton.1 hc
        exact hd

/-- A quoted text is no plain one. -/
theorem quoted_ne (s : String) {rest rest' : List Char}
    (hrest : ∀ c, rest'.head? = some c → c ≠ '"' ∧ c ≠ '\\') :
    Rust.quoted s ++ rest ≠ s.toList ++ rest' := by
  intro h
  refine escaped_ne ['"'] (by simp) (by simp) s.toList ('"' :: rest) rest' hrest ?_
  rw [← h]
  simp [Rust.quoted]

theorem Delimited.head {rest : List Char} (h : Delimited rest) :
    ∀ c, rest.head? = some c → c ≠ '"' ∧ c ≠ '\\' := by
  intro c hc
  obtain ⟨d, cs, rfl, hd⟩ := h
  obtain rfl := Option.some.inj hc
  have hdelimiters : ∀ d ∈ [',', ']', '}'], d ≠ '"' ∧ d ≠ '\\' :=
    List.all_iff_forall_prop.1 (by decide)
  exact hdelimiters d hd

/-- Numbers end at a delimiter. -/
theorem plain_append_inj {s s' : String} (hs : Plain s) (hs' : Plain s') {rest rest' : List Char}
    (hrest : Delimited rest) (hrest' : Delimited rest')
    (h : s.toList ++ rest = s'.toList ++ rest') :
    s = s' ∧ rest = rest' := by
  have hend : ∀ {u : String} {r : List Char}, Plain u → Delimited r →
      (u.toList ++ r).takeWhile isNumeral = u.toList := by
    intro u r hu hr
    obtain ⟨c, cs, rfl, hc⟩ := hr
    have hdelimiter : isNumeral c = false := by
      have hall : ∀ d ∈ [',', ']', '}'], isNumeral d = false :=
        List.all_iff_forall_prop.1 (by decide)
      exact hall c hc
    rw [List.takeWhile_append_of_pos hu.numeral, List.takeWhile_cons_of_neg (by simp [hdelimiter]),
      List.append_nil]
  have heq : s.toList = s'.toList := by
    rw [← hend hs hrest, h, hend hs' hrest']
  rw [heq] at h
  exact ⟨String.toList_inj.1 heq, List.append_cancel_left h⟩

theorem numberText_eq_iff (t : NumberTexts) (n : Number) :
    Rust.numberText t n = Dart.numberText t n ↔ PrintsAlike t (.number n) := by
  have hdart : ∀ i, n.asI64 = some i → Dart.numberText t n = toString i := by
    intro i hi
    simp [Dart.numberText, hi]
  have hdouble : n.asI64 = none → Dart.numberText t n = t.dart n := by
    intro hn
    simp [Dart.numberText, hn]
  cases n with
  | posInt n =>
    by_cases hn : n.1 < 2 ^ 63
    · have hi : (Number.posInt n).asI64 = some (n.1 : Int) := if_pos hn
      exact ⟨fun _ => .int hi, fun _ => (hdart _ hi).symm⟩
    · have hi : (Number.posInt n).asI64 = none := if_neg hn
      rw [hdouble hi]
      constructor
      · intro h
        -- the digits of an integer have no point and no exponent
        have hspell := Grant.spells_toString (n.1 : Int)
        have hnot : ∀ c : Char, c.isDigit = false → c ≠ '+' → c ≠ '-' →
            c ∉ (t.dart (.posInt n)).toList := by
          intro c hd hp hm
          rw [← h]
          exact hspell.not_mem hd hp hm
        rcases t.dart_double (.posInt n) with hc | hc
        · exact absurd hc (hnot '.' (by decide) (by decide) (by decide))
        · exact absurd hc (hnot 'e' (by decide) (by decide) (by decide))
      · intro h
        cases h with
        | int hi' =>
          rw [hi] at hi'
          cases hi'
  | negInt n => exact ⟨fun _ => .int rfl, fun _ => (hdart _ rfl).symm⟩
  | float bits =>
    rw [hdouble rfl]
    constructor
    · intro h
      exact .float h
    · intro h
      cases h with
      | int hi => cases hi
      | float h => exact h

theorem PrintsAlike.print_eq {t : NumberTexts} {v : Value} (h : PrintsAlike t v) :
    (Rust.display t).print v = (Dart.display t).print v := by
  induction h with
  | null => rfl
  | bool b => rfl
  | int hi => exact congrArg String.toList ((numberText_eq_iff t _).2 (.int hi))
  | float h => exact congrArg String.toList ((numberText_eq_iff t _).2 (.float h))
  | empty => rfl
  | single _ ih => rw [Format.print_single, Format.print_single, ih]
  | emptyObject => rfl

/-- The first character that Rust prints is no blank. -/
theorem head_print_ne_blank (t : NumberTexts) (v : Value) (rest : List Char) :
    ((Rust.display t).print v ++ rest).head? ≠ some ' ' := by
  by_cases hv : ∃ s, v = .string s
  · obtain ⟨s, rfl⟩ := hv
    simp [Format.print, Rust.display, Rust.quoted]
  · obtain ⟨c, cs, hprint, hopens⟩ := (Rust.display t).print_opens fun s he => hv ⟨s, he⟩
    rw [hprint]
    intro h
    obtain rfl : c = ' ' := Option.some.inj h
    rcases hopens with h | h <;> revert h <;> decide

/-- Up to the next delimiter, only what prints alike is the same text. -/
theorem print_append_inj (t : NumberTexts) : ∀ (v : Value) {rest rest' : List Char},
    Delimited rest → Delimited rest' →
    (Rust.display t).print v ++ rest = (Dart.display t).print v ++ rest' →
    PrintsAlike t v ∧ rest = rest'
  | .null, _, _, _, _, h => ⟨.null, List.append_cancel_left h⟩
  | .bool b, _, _, _, _, h => ⟨.bool b, List.append_cancel_left h⟩
  | .number n, _, _, hrest, hrest', h => by
    have hrust := (Rust.display t).plain n
    have hdart := (Dart.display t).plain n
    obtain ⟨htext, heq⟩ := plain_append_inj hrust hdart hrest hrest' h
    exact ⟨(numberText_eq_iff t n).1 htext, heq⟩
  | .string s, _, _, _, hrest', h => absurd h (quoted_ne s hrest'.head)
  | .array [], _, _, _, _, h => ⟨.empty, List.append_cancel_left h⟩
  | .array [x], rest, rest', hrest, hrest', h => by
    rw [Format.print_single, Format.print_single, List.cons_append, List.cons_append,
      List.append_assoc, List.append_assoc] at h
    obtain ⟨hx, heq⟩ := print_append_inj t x ⟨']', rest, rfl, by decide⟩ ⟨']', rest',
        rfl, by decide⟩
      (List.cons.inj h).2
    exact ⟨.single hx, (List.cons.inj heq).2⟩
  | .array (x :: y :: xs), rest, rest', hrest, hrest', h => by
    have hprint : ∀ (f : Format) (r : List Char), ∃ r', f.print (.array (x :: y :: xs)) ++ r =
        '[' :: (f.print x ++ (f.comma ++ (f.print y ++ r'))) := by
      intro f r
      cases xs <;> simp [Format.print, Format.elements]
    obtain ⟨r, hr⟩ := hprint (Rust.display t) rest
    obtain ⟨r', hr'⟩ := hprint (Dart.display t) rest'
    rw [hr, hr'] at h
    -- behind the comma Dart has a blank
    obtain ⟨-, heq⟩ := print_append_inj t x ⟨',', _, rfl, by decide⟩ ⟨',', _, rfl, by decide⟩
      (List.cons.inj h).2
    have hblank : (Rust.display t).print y ++ r = ' ' :: ((Dart.display t).print y ++ r') :=
      (List.cons.inj heq).2
    refine absurd ?_ (head_print_ne_blank t y r)
    rw [hblank]
    rfl
  | .object [], _, _, _, _, h => ⟨.emptyObject, List.append_cancel_left h⟩
  | .object ((k, v) :: m), rest, rest', hrest, hrest', h => by
    have hprint : ∀ (f : Format) (r : List Char), ∃ r', f.print (.object ((k, v) :: m)) ++ r =
        '{' :: (f.string k ++ (f.colon ++ r')) := by
      intro f r
      cases m <;> simp [Format.print, Format.members]
    obtain ⟨r, hr⟩ := hprint (Rust.display t) rest
    obtain ⟨r', hr'⟩ := hprint (Dart.display t) rest'
    rw [hr, hr'] at h
    refine absurd (List.cons.inj h).2 (quoted_ne k fun c hc => ?_)
    obtain rfl : ':' = c := Option.some.inj hc
    decide

theorem print_eq_iff (t : NumberTexts) (v : Value) :
    (Rust.display t).print v = (Dart.display t).print v ↔ PrintsAlike t v := by
  refine ⟨fun h => ?_, PrintsAlike.print_eq⟩
  have hdelimited : Delimited [','] := ⟨',', [], rfl, by decide⟩
  exact (print_append_inj t v hdelimited hdelimited (congrArg (· ++ [',']) h)).1

/-- **The values of which Rust and Dart make the same text.** -/
theorem valueToString_eq_toString_iff (t : NumberTexts) (v : Value) :
    Rust.valueToString t v = Dart.toString t v ↔ Alike t v := by
  rw [Rust.valueToString_eq, Dart.toString_eq]
  unfold Alike
  by_cases hv : ∃ s, v = .string s
  · obtain ⟨s, rfl⟩ := hv
    exact ⟨fun _ => .inl ⟨s, rfl⟩, fun _ => rfl⟩
  · have hne : ∀ s, v ≠ .string s := fun s he => hv ⟨s, he⟩
    rw [Format.text_of_ne _ hne, Format.text_of_ne _ hne, String.ofList_inj, print_eq_iff,
        or_iff_right hv]

end Discovery
