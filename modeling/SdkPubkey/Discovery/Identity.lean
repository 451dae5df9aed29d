import Mathlib.Algebra.GroupWithZero.Nat
import SdkPubkey.Discovery.Http
import SdkPubkey.Lib.Text

/-!
# Mailbox identities

`crates/discovery/src/identity.rs` and `lib/src/identity.dart`: the canonical form of a mailbox
address and its checks. `Unicode` is what the standard libraries provide. The two differ in what
they count as the length of the last label (`Rust.len`, `Dart.len`) and in the digits of a regular
expression.

* `identities_agree_iff`: when both accept a string with one canonical address, or both reject it.
-/

namespace Discovery.Identity

open Lib Lib.Text

/-! ## The code -/

structure Unicode where
  trim : String → String
  nfc : String → String
  lowercase : String → String
  /-- `\p{L}`. -/
  letter : Char → Bool
  /-- `\p{N}`. -/
  number : Char → Bool
  /-- `\p{M}`. -/
  mark : Char → Bool
  /-- `[\s\p{Cc}\p{Cf}]`. -/
  disallowed : Char → Bool
  /-- `\p{Nd}`. -/
  decimal : Char → Bool
  letter_not_digit : ∀ c, letter c = true → decimal c = false ∧ c.isDigit = false
  /-- In hex. -/
  sha256 : String → String

def maxEmailOctets : Nat := 254
def maxLocalOctets : Nat := 64
def maxDomainOctets : Nat := 255
def maxLabelOctets : Nat := 63

def utf8ByteLength (value : String) : Nat := value.utf8ByteSize

section
variable (U : Unicode)

def foldUtf8 (value : String) : String := U.nfc (U.lowercase value)

def normalizeEmail (email : String) : String :=
  let trimmed := U.nfc (U.trim email)
  match rsplitOnce '@' trimmed with
  | none => foldUtf8 U trimmed
  | some (local_, domain) =>
    if local_ = "" ∨ domain = "" then foldUtf8 U trimmed
    else foldUtf8 U local_ ++ "@" ++ foldUtf8 U domain

def isDomainLabelChar (c : Char) : Bool := U.letter c || U.number c || U.mark c || c == '-'

def isLocalChar (c : Char) : Bool :=
  U.letter c || U.number c || U.mark c || "!#$%&'*+/=?^_`\x7b|\x7d~.-".toList.contains c

def isValidLocalPart (local_ : String) : Bool :=
  if local_ = "" ∨ local_.toList.head? = some '.' ∨ local_.toList.getLast? = some '.' ∨
      hasText local_ ".." = true then false
  else local_.toList.all (isLocalChar U)

def isValidLabel (label : String) : Bool :=
  !(label == "" || decide (maxLabelOctets < utf8ByteLength label) ||
    label.toList.head? == some '-' || label.toList.getLast? == some '-' ||
    !label.toList.all (isDomainLabelChar U))

/-- `len` is the length of a string, and `digit` is `\d`. -/
def isValidDomain (len : String → Nat) (digit : Char → Bool) (domain : String) : Bool :=
  if domain.toList.head? = some '[' ∨ domain.toList.getLast? = some ']' ∨
      domain.toList.head? = some '.' ∨ domain.toList.getLast? = some '.' ∨
      hasText domain ".." = true then false
  else
    let labels := split '.' domain
    if labels.length < 2 then false
    else if labels.any (fun label => !isValidLabel U label) then false
    else
      let tld := labels.getLast?.getD ""
      if len tld < 2 ∨ (tld ≠ "" ∧ tld.toList.all digit = true) ∨
          tld.toList.any U.letter = false then
        false
      else true

def isValidEmail (validDomain : String → Bool) (email : String) : Bool :=
  if email = "" then false
  else if email.toList.any U.disallowed = true ∨ '\x00' ∈ email.toList then false
  else
    match splitOnce '@' email with
    | none => false
    | some (local_, domain) =>
      if local_ = "" ∨ splitOnce '@' email ≠ rsplitOnce '@' email ∨ domain = "" then false
      else if maxEmailOctets < utf8ByteLength email ∨ maxLocalOctets < utf8ByteLength local_ ∨
          maxDomainOctets < utf8ByteLength domain then false
      else isValidLocalPart U local_ && validDomain domain

def invalidEmail : PubkeyError := { code := "invalid_email", message := "Valid email is required" }

def emailNotCanonical : PubkeyError :=
  { code := "email_not_canonical", message := "Email must be sent in canonical form" }

def requireCanonicalEmail (validEmail : String → Bool) (email : String) :
    Except PubkeyError String :=
  if email = "" then .error invalidEmail
  else
    let canonical := normalizeEmail U email
    if email ≠ canonical then .error emailNotCanonical
    else if validEmail canonical = false then .error invalidEmail
    else .ok canonical

def emailSha256Hex (require : String → Except PubkeyError String) (email : String) :
    Except PubkeyError String := do
  let canonical ← require (normalizeEmail U email)
  pure (U.sha256 canonical)

namespace Rust

/-- `str::len`: octets. -/
def len (s : String) : Nat := s.utf8ByteSize

def isValidDomain : String → Bool := Identity.isValidDomain U len U.decimal
def isValidEmail : String → Bool := Identity.isValidEmail U (isValidDomain U)
def requireCanonicalEmail : String → Except PubkeyError String :=
  Identity.requireCanonicalEmail U (isValidEmail U)
def emailSha256Hex : String → Except PubkeyError String :=
  Identity.emailSha256Hex U (requireCanonicalEmail U)

end Rust

namespace Dart

/-- `String.length`: UTF-16 units. -/
def len (s : String) : Nat := (s.toList.map fun c => if c.toNat < 0x10000 then 1 else 2).sum

def isValidDomain : String → Bool := Identity.isValidDomain U len Char.isDigit
def isValidEmail : String → Bool := Identity.isValidEmail U (isValidDomain U)
def requireCanonicalEmail : String → Except PubkeyError String :=
  Identity.requireCanonicalEmail U (isValidEmail U)
def emailSha256Hex : String → Except PubkeyError String :=
  Identity.emailSha256Hex U (requireCanonicalEmail U)

end Dart

end

/-! ## The last label -/

def tld (domain : String) : String := (split '.' domain).getLast?.getD ""

/-- The last label of the domain of an address. -/
def tldOf (email : String) : String := tld (((splitOnce '@' email).map Prod.snd).getD "")

section
variable (U : Unicode)

/-- The checks of an address without the length of its last label. -/
def passesRest : String → Bool :=
  isValidEmail U (isValidDomain U (fun _ => 2) fun _ => false)

/-- Digits only are not refused where a letter is asked for. -/
theorem isValidDomain_eq (len : String → Nat) {digit : Char → Bool}
    (hd : ∀ c, U.letter c = true → digit c = false) (domain : String) :
    isValidDomain U len digit domain =
      (isValidDomain U (fun _ => 2) (fun _ => false) domain && decide (2 ≤ len (tld domain))) := by
  have hdigits : ∀ p : Char → Bool, (∀ c, U.letter c = true → p c = false) → ∀ s : String,
      s.toList.any U.letter = true → ¬ (s ≠ "" ∧ s.toList.all p = true) := by
    intro p hp s hs h
    obtain ⟨c, hc, hl⟩ := List.any_eq_true.1 hs
    have hall := List.all_eq_true.1 h.2 c hc
    rw [hp c hl] at hall
    cases hall
  unfold isValidDomain
  dsimp only
  split
  · rfl
  split
  · rfl
  split
  · rfl
  rw [show (split '.' domain).getLast?.getD "" = tld domain from rfl]
  by_cases hletter : (tld domain).toList.any U.letter = true
  · by_cases hlen : len (tld domain) < 2
    · rw [if_pos (.inl hlen), decide_eq_false (by omega), Bool.and_false]
    · rw [if_neg, if_neg, decide_eq_true (by omega), Bool.and_true]
      · exact not_or.2
            ⟨by omega, not_or.2 ⟨hdigits _ (fun _ _ => rfl) _ hletter, by simp [hletter]⟩⟩
      · exact not_or.2 ⟨hlen, not_or.2 ⟨hdigits digit hd _ hletter, by simp [hletter]⟩⟩
  · rw [Bool.not_eq_true] at hletter
    rw [if_pos (.inr (.inr hletter)), if_pos (.inr (.inr hletter)), Bool.false_and]

theorem isValidEmail_eq (len : String → Nat) {digit : Char → Bool}
    (hd : ∀ c, U.letter c = true → digit c = false) (email : String) :
    isValidEmail U (isValidDomain U len digit) email =
      (passesRest U email && decide (2 ≤ len (tldOf email))) := by
  unfold passesRest isValidEmail tldOf
  split
  · rfl
  split
  · rfl
  cases splitOnce '@' email with
  | none => rfl
  | some parts =>
    dsimp only
    split
    · rfl
    split
    · rfl
    rw [isValidDomain_eq U len hd, Option.map_some, Option.getD_some, Bool.and_assoc]

/-- An accepted address has a letter in its last label. -/
theorem tldOf_ne_empty {email : String} (h : passesRest U email = true) :
    (tldOf email).toList ≠ [] := by
  intro hnil
  unfold passesRest isValidEmail at h
  split at h
  · cases h
  split at h
  · cases h
  cases hs : splitOnce '@' email with
  | none => simp [hs] at h
  | some parts =>
    rw [hs] at h
    dsimp only at h
    split at h
    · cases h
    split at h
    · cases h
    have hdom := (Bool.and_eq_true_iff.1 h).2
    unfold isValidDomain at hdom
    dsimp only at hdom
    split at hdom
    · cases hdom
    split at hdom
    · cases hdom
    split at hdom
    · cases hdom
    have ht : tldOf email = tld parts.2 := by
      unfold tldOf
      rw [hs, Option.map_some, Option.getD_some]
    rw [ht] at hnil
    rw [show (split '.' parts.2).getLast?.getD "" = tld parts.2 from rfl, hnil] at hdom
    simp at hdom

end

/-! ## The two lengths -/

theorem utf8ByteSize_cons (c : Char) (cs : List Char) :
    (String.ofList (c :: cs)).utf8ByteSize = c.utf8Size + (String.ofList cs).utf8ByteSize := by
  have hs : String.ofList (c :: cs) = String.singleton c ++ String.ofList cs := by
    rw [← String.toList_inj]
    simp
  rw [hs, String.utf8ByteSize_append, String.utf8ByteSize_singleton]

theorem one_lt_utf8Size_iff (c : Char) : 1 < c.utf8Size ↔ 0x80 ≤ c.toNat := by
  have hle : c.val ≤ 0x7f ↔ c.toNat ≤ 0x7f := UInt32.le_iff_toNat_le
  unfold Char.utf8Size
  dsimp only
  split
  · rename_i h
    have := hle.1 h
    omega
  · rename_i h
    have hgt : ¬ c.toNat ≤ 0x7f := fun hc => h (hle.2 hc)
    split
    · omega
    split <;> omega

/-- A single unit of UTF-16 of more than one octet of UTF-8. -/
def OneUnit (label : String) : Prop :=
  ∃ c, label.toList = [c] ∧ 0x80 ≤ c.toNat ∧ c.toNat < 0x10000

theorem lens_agree_iff {s : String} (h : s.toList ≠ []) :
    (2 ≤ Rust.len s ↔ 2 ≤ Dart.len s) ↔ ¬ OneUnit s := by
  rw [← String.ofList_toList (s := s)] at *
  generalize s.toList = cs at *
  unfold Rust.len Dart.len OneUnit
  rw [String.toList_ofList] at *
  match cs, h with
  | [c], _ =>
    rw [utf8ByteSize_cons]
    have hone := one_lt_utf8Size_iff c
    have hpos := c.utf8Size_pos
    simp only [String.ofList_nil, String.utf8ByteSize_empty, List.map_cons, List.map_nil,
      List.sum_cons, List.sum_nil, List.cons.injEq, and_true, exists_eq_left']
    split <;> omega
  | c :: d :: cs, _ =>
    have hc := c.utf8Size_pos
    have hd := d.utf8Size_pos
    have hrust : 2 ≤ (String.ofList (c :: d :: cs)).utf8ByteSize := by
      rw [utf8ByteSize_cons, utf8ByteSize_cons]
      omega
    have hdart : 2 ≤ ((c :: d :: cs).map fun c => if c.toNat < 0x10000 then 1 else 2).sum := by
      rw [List.map_cons, List.map_cons, List.sum_cons, List.sum_cons]
      split <;> split <;> omega
    have hlong : ¬ ∃ e, c :: d :: cs = [e] ∧ 0x80 ≤ e.toNat ∧ e.toNat < 0x10000 := by simp
    exact iff_of_true (iff_of_true hrust hdart) hlong

/-! ## Agreement -/

/-- Both reject, or both return one address. -/
def Agree (rust dart : Except PubkeyError String) : Prop := rust.toOption = dart.toOption

section
variable (U : Unicode)

/-- The canonical form of `s` passes every other check, and its last label is a single unit. -/
def OneUnitTld (s : String) : Prop :=
  normalizeEmail U (normalizeEmail U s) = normalizeEmail U s ∧
    passesRest U (normalizeEmail U s) = true ∧ OneUnit (tldOf (normalizeEmail U s))

theorem Rust.isValidEmail_eq (email : String) :
    Rust.isValidEmail U email = (passesRest U email && decide (2 ≤ Rust.len (tldOf email))) :=
  Identity.isValidEmail_eq U Rust.len (fun c h => (U.letter_not_digit c h).1) email

theorem Dart.isValidEmail_eq (email : String) :
    Dart.isValidEmail U email = (passesRest U email && decide (2 ≤ Dart.len (tldOf email))) :=
  Identity.isValidEmail_eq U Dart.len (fun c h => (U.letter_not_digit c h).2) email

theorem valid_agree_iff {email : String} (h : passesRest U email = true) :
    Rust.isValidEmail U email = Dart.isValidEmail U email ↔ ¬ OneUnit (tldOf email) := by
  rw [Rust.isValidEmail_eq, Dart.isValidEmail_eq, h, Bool.true_and, Bool.true_and,
    ← lens_agree_iff (tldOf_ne_empty U h), decide_eq_decide]

theorem requires_eq {s : String} (h : ¬ OneUnitTld U s) :
    Rust.requireCanonicalEmail U (normalizeEmail U s) =
      Dart.requireCanonicalEmail U (normalizeEmail U s) := by
  unfold Rust.requireCanonicalEmail Dart.requireCanonicalEmail requireCanonicalEmail
  split
  · rfl
  dsimp only
  split
  · rfl
  · rename_i he
    rw [not_not] at he
    rw [← he]
    have hvalid : Rust.isValidEmail U (normalizeEmail U s) = Dart.isValidEmail U
        (normalizeEmail U s) := by
      by_cases hp : passesRest U (normalizeEmail U s) = true
      · exact (valid_agree_iff U hp).2 fun hone => h ⟨he.symm, hp, hone⟩
      · rw [Bool.not_eq_true] at hp
        rw [Rust.isValidEmail_eq, Dart.isValidEmail_eq, hp, Bool.false_and, Bool.false_and]
    rw [hvalid]

/-- Where only the length of the last label decides, one of the two accepts the address. -/
theorem not_agree {s : String} (h : OneUnitTld U s) :
    ¬ Agree (Rust.requireCanonicalEmail U (normalizeEmail U s))
      (Dart.requireCanonicalEmail U (normalizeEmail U s)) := by
  obtain ⟨hcanon, hp, hone⟩ := h
  have hne : normalizeEmail U s ≠ "" := by
    intro he
    rw [he] at hp
    cases hp
  have hvalid := mt (valid_agree_iff U hp).1 (not_not.2 hone)
  unfold Agree Rust.requireCanonicalEmail Dart.requireCanonicalEmail requireCanonicalEmail
  rw [if_neg hne, if_neg hne]
  simp only [hcanon, ne_eq, not_true_eq_false, if_false]
  cases hr : Rust.isValidEmail U (normalizeEmail U s) with
  | true =>
    cases hd : Dart.isValidEmail U (normalizeEmail U s) with
    | true => exact absurd (hr.trans hd.symm) hvalid
    | false => simp [Except.toOption]
  | false =>
    cases hd : Dart.isValidEmail U (normalizeEmail U s) with
    | true => simp [Except.toOption]
    | false => exact absurd (hr.trans hd.symm) hvalid

/-- **The identities agree** exactly when the last label of the address, where that passes all other
checks, is no single letter outside ASCII; and then so do their digests. -/
theorem identities_agree_iff (s : String) :
    (Agree (Rust.requireCanonicalEmail U (normalizeEmail U s))
        (Dart.requireCanonicalEmail U (normalizeEmail U s)) ↔ ¬ OneUnitTld U s) ∧
      (¬ OneUnitTld U s → Rust.emailSha256Hex U s = Dart.emailSha256Hex U s) := by
  refine ⟨⟨fun h hone => not_agree U hone h, fun h => ?_⟩, fun h => ?_⟩
  · rw [requires_eq U h]
    rfl
  · unfold Rust.emailSha256Hex Dart.emailSha256Hex emailSha256Hex
    rw [requires_eq U h]

end

/-- What the libraries do on ASCII and on `é`, which has no lower case and is one letter. -/
def latin : Unicode where
  trim := id
  nfc := id
  lowercase s := String.ofList (s.toList.map Char.toLower)
  letter c := c.isAlpha || c == 'é'
  number := Char.isDigit
  mark _ := false
  disallowed c := isWhitespace c || c.toNat < 0x20 || c.toNat == 0x7f
  decimal := Char.isDigit
  letter_not_digit := by
    intro c hc
    have hdigit : c.isDigit = false := by
      rw [Bool.or_eq_true, beq_iff_eq] at hc
      rcases hc with hc | rfl
      · have hletter : (decide (65 ≤ c.val ∧ c.val ≤ 90) || 97 ≤ c.val && c.val ≤ 122) = true := hc
        simp only [Bool.or_eq_true, Bool.and_eq_true, decide_eq_true_eq,
            UInt32.le_iff_toNat_le] at hletter
        simp only [Char.isDigit, ge_iff_le, Bool.and_eq_false_iff, decide_eq_false_iff_not,
          UInt32.le_iff_toNat_le]
        simp only [UInt32.reduceToNat, Char.reduceVal] at *
        omega
      · decide
    exact ⟨hdigit, hdigit⟩
  sha256 := id

/-- An address that only Rust accepts. -/
theorem identities_differ :
    Rust.requireCanonicalEmail latin (normalizeEmail latin "a@b.é") = .ok "a@b.é" ∧
      Dart.requireCanonicalEmail latin (normalizeEmail latin "a@b.é") = .error invalidEmail := by
  decide +kernel

end Discovery.Identity
