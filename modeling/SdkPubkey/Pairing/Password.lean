import Mathlib.Logic.Relation
import SdkPubkey.Discovery.Http
import SdkPubkey.Lib.Outcome
import SdkPubkey.Lib.Percent
import SdkPubkey.Lib.Radix
import SdkPubkey.Lib.Text
import SdkPubkey.Pairing.Protocol

/-!
# Typed passwords

`generate_typed_password` and `typed_password_bytes` of
`crates/scomm-vault/src/pairing/pairing_protocol.rs`. The random bytes are an argument. The access
to a byte bounds its index, so the increment behind it does not overflow.

* `Carries`: the invariant of the loop, over the accumulator of `Lib.Radix`.
* `typedPassword_lossless`: the characters are the number of the bytes in the base 32, and the other
  device reads them in any case.
-/

namespace Pairing

open Ckvf Discovery Lib Lib.Outcome Lib.Radix Lib.Text Vault

/-! ## The code -/

def pairingTypedPasswordLength : Nat := 16

def crockford : List UInt8 := "0123456789ABCDEFGHJKMNPQRSTVWXYZ".toList.map asciiByte

structure TypedState where
  acc : Nat
  bits : Nat
  i : Nat
  out : String

def TypedState.start : TypedState := ⟨0, 0, 0, ""⟩

/-- A byte behind the bits of the accumulator, of which 16 are kept. -/
def shiftIn (acc : Nat) (b : UInt8) : Nat := (acc <<< 8 % 2 ^ 32 ||| b.toNat) &&& 0xffff

def refill (bytes : Bytes) (s : TypedState) : Outcome TypedState :=
  if s.bits < 5 then do
    let b ← index bytes s.i
    let bits ← Outcome.add .w32 s.bits 8
    .ok { s with acc := shiftIn s.acc b, bits := bits, i := s.i + 1 }
  else .ok s

/-- The shift of a `u32`, which faults from the width on. -/
def shr (a n : Nat) : Outcome Nat := if n < 32 then .ok (a >>> n) else .fault

def typedTurn (bytes : Bytes) (s : TypedState) : Outcome (TypedState ⊕ String) :=
  if s.out.utf8ByteSize < pairingTypedPasswordLength then do
    let s ← refill bytes s
    let bits ← Outcome.sub s.bits 5
    let shifted ← shr s.acc bits
    let c ← index crockford (shifted &&& 0x1f)
    .ok (.inl { s with bits := bits, out := s.out.push (Char.ofNat c.toNat) })
  else .ok (.inr s.out)

/-- 16 Crockford Base32 characters (80 bits) for typing on the other device. -/
def generateTypedPassword (bytes : Random 10) : Outcome String :=
  loop (typedTurn bytes.val) (pairingTypedPasswordLength + 1) .start

def toAsciiUppercase (s : String) : String := s.map Char.toUpper

def typedPasswordBytes (typed : String) : Except VaultClientError Bytes :=
  let normalized := utf8 (toAsciiUppercase (trim isWhitespace typed))
  if normalized.length ≠ pairingTypedPasswordLength ∨
      (normalized.any fun c => !crockford.contains c) then
    .error (.msg "pairing_password_mismatch"
        "Typed pairing password must be 16 Crockford characters")
  else .ok normalized

/-- The states at the head of the loop. -/
def Reached (bytes : Bytes) : TypedState → Prop :=
  Relation.ReflTransGen (fun s t => typedTurn bytes s = .ok (.inl t)) .start

/-! ## Digits -/

/-- The character of a digit in the base 32. -/
def digitChar (d : Nat) : Char := Char.ofNat (crockford.getD d 0).toNat

theorem crockford_length : crockford.length = 32 := by decide

/-- What holds of every digit, tried one after another. -/
theorem digit_all {P : Nat → Prop} (h : ∀ d : Fin 32, P d) {d : Nat} (hd : d < 32) :
    P d := h ⟨d, hd⟩

theorem digitChar_spec {d : Nat} (hd : d < 32) :
    ((digitChar d).toNat < 128 ∧ isWhitespace (digitChar d) = false) ∧
      (digitChar d).toUpper = digitChar d ∧ asciiByte (digitChar d) ∈ crockford :=
  digit_all (P := fun d => ((digitChar d).toNat < 128 ∧ isWhitespace (digitChar d) = false) ∧
    (digitChar d).toUpper = digitChar d ∧ asciiByte (digitChar d) ∈ crockford)
    (by decide +kernel) hd

theorem digitChar_lt {d : Nat} (hd : d < 32) : (digitChar d).toNat < 128 := (digitChar_spec hd).1.1

theorem digitChar_not_space {d : Nat} (hd : d < 32) : isWhitespace (digitChar d) = false :=
  (digitChar_spec hd).1.2

theorem digitChar_toUpper {d : Nat} (hd : d < 32) : (digitChar d).toUpper = digitChar d :=
  (digitChar_spec hd).2.1

theorem asciiByte_digitChar_mem {d : Nat} (hd : d < 32) : asciiByte (digitChar d) ∈ crockford :=
  (digitChar_spec hd).2.2

theorem digitChar_inj {d e : Nat} (hd : d < 32) (he : e < 32)
    (h : digitChar d = digitChar e) : d = e := by
  have hall : ∀ d e : Fin 32, digitChar d = digitChar e → d = e := by decide +kernel
  exact congrArg Fin.val (hall ⟨d, hd⟩ ⟨e, he⟩ h)

theorem index_crockford {d : Nat} (hd : d < 32) :
    ∃ c, index crockford d = .ok c ∧ Char.ofNat c.toNat = digitChar d := by
  have hlt : d < crockford.length := by
    rw [crockford_length]
    exact hd
  exact ⟨crockford[d], index_eq hlt, by rw [digitChar, List.getD_eq_getElem _ _ hlt]⟩

theorem digitChar_size {d : Nat} (hd : d < 32) : (digitChar d).utf8Size = 1 := by
  rw [← String.length_utf8EncodeChar, utf8EncodeChar_ascii (digitChar_lt hd), List.length_singleton]

/-! ## The loop -/

/-- What has been written are digits, and with the low bits of the accumulator they are the number
of the bytes that have been read. -/
structure Carries (bytes : Bytes) (s : TypedState) (digits : List Nat) : Prop where
  out : s.out.toList = digits.map digitChar
  size : s.out.utf8ByteSize = digits.length
  digit : ∀ d ∈ digits, d < 32
  read : 8 * s.i = 5 * digits.length + s.bits
  bits : s.bits ≤ 7
  acc : s.acc < 2 ^ 16
  buffers : Buffers 5 (os2ip (bytes.take s.i)) digits s.acc s.bits
  few : digits.length ≤ pairingTypedPasswordLength

theorem Carries.start (bytes : Bytes) : Carries bytes .start [] :=
  ⟨rfl, rfl, by simp, rfl, by decide, by decide, Buffers.start 5, by decide⟩

/-- The mask keeps the byte and the bits of the accumulator that have not been written. -/
theorem shiftIn_testBit {acc bits : Nat} (hacc : acc < 2 ^ 16) (b : UInt8) (hbits : bits < 5) :
    ∀ j < bits + 8, (shiftIn acc b).testBit j = (acc <<< 8 ||| b.toNat).testBit j := by
  intro j hj
  have hwidth : acc <<< 8 % 2 ^ 32 = acc <<< 8 := by
    rw [Nat.shiftLeft_eq]
    omega
  have hmask : (0xffff : Nat).testBit j = true := by
    rw [show (0xffff : Nat) = 2 ^ 16 - 1 by rfl, Nat.testBit_two_pow_sub_one,
        decide_eq_true (by omega)]
  rw [shiftIn, hwidth, Nat.testBit_and, hmask, Bool.and_true]

theorem shiftIn_lt (acc : Nat) (b : UInt8) : shiftIn acc b < 2 ^ 16 := by
  have hle : shiftIn acc b ≤ 0xffff := Nat.and_le_right
  omega

section
variable {bytes : Bytes} {s : TypedState} {digits : List Nat}

/-- There is a byte left when the accumulator needs one. -/
theorem Carries.index_lt (h : Carries bytes s digits) (hb : bytes.length = 10)
    (hd : digits.length < pairingTypedPasswordLength) (hs : s.bits < 5) : s.i < bytes.length := by
  have hread := h.read
  unfold pairingTypedPasswordLength at hd
  omega

/-- With a digit left to write, the accumulator has enough bits behind a refill. -/
theorem Carries.refill (h : Carries bytes s digits) (hb : bytes.length = 10)
    (hd : digits.length < pairingTypedPasswordLength) :
    ∃ t, Pairing.refill bytes s = .ok t ∧ t.out = s.out ∧ 5 ≤ t.bits ∧ t.bits ≤ 12 ∧
      8 * t.i = 5 * digits.length + t.bits ∧ t.acc < 2 ^ 16 ∧
      Buffers 5 (os2ip (bytes.take t.i)) digits t.acc t.bits := by
  have hread := h.read
  have hbits := h.bits
  unfold Pairing.refill
  by_cases hs : s.bits < 5
  · have hlt := h.index_lt hb hd hs
    have hnext : os2ip (bytes.take (s.i + 1)) = os2ip (bytes.take s.i) * 2 ^ 8 +
        bytes[s.i].toNat := by
      rw [List.take_succ_eq_append_getElem hlt, os2ip_concat]
      norm_num
    have hbuffers := h.buffers.refill (w := 8) (bytes[s.i]).toNat_lt
    rw [← hnext] at hbuffers
    rw [if_pos hs, index_eq hlt, Outcome.ok_bind, Outcome.add_eq (lt_bits .w32 (by omega)),
        Outcome.ok_bind]
    refine ⟨_, rfl, rfl, ?_, ?_, ?_, shiftIn_lt _ _, hbuffers.keep (shiftIn_testBit h.acc _ hs)⟩
    · dsimp only
      omega
    · dsimp only
      omega
    · dsimp only
      omega
  · rw [if_neg hs]
    exact ⟨s, rfl, rfl, by omega, by omega, hread, h.acc, h.buffers⟩

/-- A turn writes one digit. -/
theorem Carries.turn (h : Carries bytes s digits) (hb : bytes.length = 10)
    (hd : digits.length < pairingTypedPasswordLength) :
    ∃ t d, typedTurn bytes s = .ok (.inl t) ∧ Carries bytes t (digits ++ [d]) := by
  obtain ⟨r, hr, hout, hge, hle, hread, hacc, hbuffers⟩ := h.refill hb hd
  obtain ⟨bits, hbits⟩ : ∃ bits, r.bits = bits + 5 := ⟨r.bits - 5, by omega⟩
  rw [hbits] at hbuffers
  have hemit := hbuffers.emit
  have hdigit : (r.acc >>> bits) &&& 0x1f < 32 := by
    have hmask : (r.acc >>> bits) &&& 0x1f ≤ 0x1f := Nat.and_le_right
    omega
  obtain ⟨c, hc, hchar⟩ := index_crockford hdigit
  have hsize : (s.out.push (digitChar ((r.acc >>> bits) &&& 0x1f))).utf8ByteSize =
      digits.length + 1 := by
    rw [String.utf8ByteSize_push, h.size, digitChar_size hdigit]
  refine ⟨{ r with bits := bits, out := s.out.push (digitChar ((r.acc >>> bits) &&& 0x1f)) },
    (r.acc >>> bits) &&& 0x1f, ?_, ?_⟩
  · unfold typedTurn shr
    rw [if_pos (by rw [h.size]; exact hd), hr, Outcome.ok_bind, Outcome.sub_eq hge,
      Outcome.ok_bind, hbits, Nat.add_sub_cancel, if_pos (by omega), Outcome.ok_bind, hc,
      Outcome.ok_bind, hchar, hout]
  · constructor
    · rw [String.toList_push, h.out, List.map_append, List.map_singleton]
    · rw [hsize, List.length_append, List.length_singleton]
    · intro d hmem
      rcases List.mem_append.1 hmem with hmem | hmem
      · exact h.digit d hmem
      · rw [List.mem_singleton.1 hmem]
        exact hdigit
    · rw [List.length_append, List.length_singleton]
      dsimp only
      omega
    · dsimp only
      omega
    · exact hacc
    · exact hemit
    · rw [List.length_append, List.length_singleton]
      omega

theorem Carries.turn_done (h : Carries bytes s digits)
    (hd : digits.length = pairingTypedPasswordLength) :
    typedTurn bytes s = .ok (.inr s.out) := by
  unfold typedTurn
  rw [h.size, hd, if_neg (Nat.lt_irrefl _)]

/-- Every byte has been read when the last digit is written, and no bit is left. -/
theorem Carries.number (h : Carries bytes s digits) (hb : bytes.length = 10)
    (hd : digits.length = pairingTypedPasswordLength) : numeral 32 digits = os2ip bytes := by
  have hread := h.read
  have hbits := h.bits
  have hbuffers := h.buffers
  unfold pairingTypedPasswordLength at hd
  have hi : s.i = bytes.length := by omega
  have hzero : s.bits = 0 := by omega
  rw [hzero, hi, List.take_length] at hbuffers
  exact hbuffers.done

/-- The invariant holds at the head of the loop. -/
theorem Reached.carries (hb : bytes.length = 10) (h : Reached bytes s) : ∃ digits,
    Carries bytes s digits := by
  induction h with
  | refl => exact ⟨[], Carries.start bytes⟩
  | @tail s t _ hturn ih =>
    obtain ⟨digits, hs⟩ := ih
    rcases Nat.lt_or_eq_of_le hs.few with hd | hd
    · obtain ⟨t', d, ht', hcarries⟩ := hs.turn hb hd
      rw [ht'] at hturn
      cases hturn
      exact ⟨_, hcarries⟩
    · rw [hs.turn_done hd] at hturn
      cases hturn

end

/-- The loop ends, with 16 digits of the number. -/
theorem generateTypedPassword_eq (bytes : Random 10) :
    ∃ digits : List Nat, digits.length = pairingTypedPasswordLength ∧ (∀ d ∈ digits, d < 32) ∧
      numeral 32 digits = os2ip bytes.val ∧
      generateTypedPassword bytes = .ok (String.ofList (digits.map digitChar)) := by
  have hmeets : ∀ s, (∃ digits, Carries bytes.val s digits) →
      TurnMeets (fun s => ∃ digits, Carries bytes.val s digits)
        (fun s => pairingTypedPasswordLength - s.out.utf8ByteSize)
        (fun _ r => ∃ digits : List Nat, digits.length = pairingTypedPasswordLength ∧
        (∀ d ∈ digits, d < 32) ∧
          numeral 32 digits = os2ip bytes.val ∧ r = .ok (String.ofList (digits.map digitChar))) s
        (typedTurn bytes.val s) := by
    intro s hs
    obtain ⟨digits, hs⟩ := hs
    rcases Nat.lt_or_eq_of_le hs.few with hd | hd
    · obtain ⟨t, d, ht, hcarries⟩ := hs.turn bytes.property hd
      have hsize := hcarries.size
      rw [List.length_append, List.length_singleton] at hsize
      rw [ht]
      refine ⟨⟨_, hcarries⟩, ?_, fun r hr => hr⟩
      dsimp only
      rw [hsize, hs.size]
      omega
    · rw [hs.turn_done hd]
      refine ⟨digits, hd, hs.digit, hs.number bytes.property hd, ?_⟩
      rw [← hs.out, String.ofList_toList]
  exact loop_rule hmeets (pairingTypedPasswordLength + 1) .start ⟨[], Carries.start _⟩ (by decide)

/-! ## The other device -/

theorem toList_toAsciiUppercase (s : String) : (toAsciiUppercase s).toList =
    s.toList.map Char.toUpper :=
  String.toList_map

/-- White space has no case. -/
theorem toUpper_of_isWhitespace {c : Char} (h : isWhitespace c = true) : c.toUpper = c := by
  have hn : c.toNat < 97 ∨ 122 < c.toNat := by
    simp only [isWhitespace, Bool.or_eq_true, Bool.and_eq_true, decide_eq_true_eq, beq_iff_eq] at h
    omega
  unfold Char.toUpper
  rw [dif_neg]
  intro hc
  have hge : 97 ≤ c.toNat := hc.1
  have hle : c.toNat ≤ 122 := hc.2
  omega

section
variable {digits : List Nat}

/-- Digits in any case are not white space. -/
theorem not_isWhitespace_of_map_toUpper (hlt : ∀ d ∈ digits, d < 32) {variant : List Char}
    (hcase : variant.map Char.toUpper = digits.map digitChar) : ∀ c ∈ variant,
    isWhitespace c = false := by
  intro c hc
  have hmem : c.toUpper ∈ digits.map digitChar := by
    rw [← hcase]
    exact List.mem_map_of_mem hc
  obtain ⟨d, hd, hchar⟩ := List.mem_map.1 hmem
  cases hspace : isWhitespace c with
  | false => rfl
  | true =>
    rw [toUpper_of_isWhitespace hspace] at hchar
    rw [← hchar, digitChar_not_space (hlt d hd)] at hspace
    exact absurd hspace (by simp)

theorem utf8_digits (hlt : ∀ d ∈ digits, d < 32) :
    utf8 (String.ofList (digits.map digitChar)) = digits.map fun d => asciiByte (digitChar d) := by
  rw [utf8_eq_flatMap, String.toList_ofList]
  induction digits with
  | nil => rfl
  | cons d digits ih =>
    rw [List.map_cons, List.flatMap_cons, utf8EncodeChar_ascii (digitChar_lt (hlt d (by simp))),
      ih fun e he => hlt e (by simp [he])]
    rfl

theorem digits_toUpper (hlt : ∀ d ∈ digits, d < 32) :
    (digits.map digitChar).map Char.toUpper = digits.map digitChar := by
  rw [List.map_map]
  apply List.map_congr_left
  intro d hd
  exact digitChar_toUpper (hlt d hd)

/-- Sixteen digits are accepted in any case and between white space. -/
theorem typedPasswordBytes_digits (hlen : digits.length = pairingTypedPasswordLength)
    (hlt : ∀ d ∈ digits, d < 32) {typed before variant after : String}
    (htyped : typed = before ++ variant ++ after)
    (hbefore : ∀ c ∈ before.toList, isWhitespace c = true)
    (hafter : ∀ c ∈ after.toList, isWhitespace c = true)
    (hcase : toAsciiUppercase variant = toAsciiUppercase (String.ofList (digits.map digitChar))) :
    typedPasswordBytes typed = .ok (utf8 (String.ofList (digits.map digitChar))) := by
  have hupper : variant.toList.map Char.toUpper = digits.map digitChar := by
    rw [← toList_toAsciiUppercase, hcase, toList_toAsciiUppercase, String.toList_ofList,
        digits_toUpper hlt]
  have hspace := not_isWhitespace_of_map_toUpper hlt hupper
  -- a digit is no blank in either case, so the blanks around are all that is trimmed
  have htrim : trim isWhitespace typed = variant := by
    have hne : variant.toList ≠ [] := by
      intro he
      rw [he] at hupper
      have hl := congrArg List.length hupper
      rw [List.map_nil, List.length_nil, List.length_map, hlen] at hl
      cases hl
    have hhead : ∀ c, (variant.toList ++ after.toList).head? = some c → isWhitespace c = false := by
      intro c hc
      rw [List.head?_append_of_ne_nil _ hne] at hc
      exact hspace c (List.mem_of_head? hc)
    have hstop : variant.toList.rdropWhile isWhitespace = variant.toList := by
      rw [List.rdropWhile_eq_self_iff]
      intro hl
      rw [hspace _ (List.getLast_mem hl)]
      simp
    have hnil : after.toList.rdropWhile isWhitespace = [] := List.rdropWhile_eq_nil_iff.2 hafter
    apply String.toList_inj.1
    rw [toList_trim before.toList (variant.toList ++ after.toList) (by rw [htyped]; simp)
      hbefore hhead, rdropWhile_append, if_pos hnil, hstop]
  have hnorm : toAsciiUppercase (trim isWhitespace typed) = String.ofList
      (digits.map digitChar) := by
    rw [htrim, hcase]
    apply String.toList_inj.1
    rw [toList_toAsciiUppercase, String.toList_ofList, digits_toUpper hlt]
  unfold typedPasswordBytes
  rw [hnorm, utf8_digits hlt]
  have hlength : (digits.map fun d => asciiByte (digitChar d)).length =
      pairingTypedPasswordLength := by
    rw [List.length_map, hlen]
  have hany : ((digits.map fun d => asciiByte (digitChar d)).any fun c =>
      !crockford.contains c) = false := by
    rw [List.any_eq_false]
    intro c hc
    obtain ⟨d, hd, rfl⟩ := List.mem_map.1 hc
    simpa using asciiByte_digitChar_mem (hlt d hd)
  refine if_neg ?_
  rw [hlength, hany]
  simp

end

/-! ## Both sides -/

theorem generateTypedPassword_inj {bytes bytes' : Random 10}
    (h : generateTypedPassword bytes = generateTypedPassword bytes') : bytes = bytes' := by
  obtain ⟨ds, hlen, hlt, hnum, hout⟩ := generateTypedPassword_eq bytes
  obtain ⟨es, helen, helt, henum, heout⟩ := generateTypedPassword_eq bytes'
  rw [hout, heout] at h
  injection h with h
  have hchars : ds.map digitChar = es.map digitChar := by
    simpa using congrArg String.toList h
  have hdigits : ds = es := by
    apply List.ext_getElem (by rw [hlen, helen])
    intro i hi hi'
    apply digitChar_inj (hlt _ (List.getElem_mem hi)) (helt _ (List.getElem_mem hi'))
    have hget := congrArg (·[i]?) hchars
    simpa [List.getElem?_eq_getElem hi, List.getElem?_eq_getElem hi'] using hget
  have hnumber : os2ip bytes.val = os2ip bytes'.val := by rw [← hnum, ← henum, hdigits]
  apply Subtype.ext
  rw [← i2osp_os2ip bytes.val, ← i2osp_os2ip bytes'.val, hnumber, bytes.property, bytes'.property]

/-- The 80 bits are written without loss. The loop ends without a fault, the mask removes no bit
that is still to be written, the characters are the digits of the number, and the other device reads
them back. -/
theorem typedPassword_lossless (bytes : Random 10) :
    (∀ s, Reached bytes.val s → s.out.utf8ByteSize < pairingTypedPasswordLength → s.bits < 5 →
      5 * (pairingTypedPasswordLength - s.out.utf8ByteSize) = s.bits + 8 * (10 - s.i) ∧
        ∃ b, bytes.val[s.i]? = some b ∧
          ∀ j < s.bits + 8, (shiftIn s.acc b).testBit j = (s.acc <<< 8 ||| b.toNat).testBit j) ∧
    (∃ out, generateTypedPassword bytes = .ok out ∧
      (∃ digits : List Nat, digits.length = 16 ∧ (∀ d ∈ digits, d < 32) ∧
        numeral 32 digits = os2ip bytes.val ∧ out.toList = digits.map digitChar) ∧
      ∀ typed before variant after : String, typed = before ++ variant ++ after →
        (∀ c ∈ before.toList, isWhitespace c = true) → (∀ c ∈ after.toList, isWhitespace c = true) →
        toAsciiUppercase variant = toAsciiUppercase out → typedPasswordBytes typed =
            .ok (utf8 out)) ∧
    ∀ bytes' : Random 10, generateTypedPassword bytes = generateTypedPassword bytes' →
        bytes = bytes' := by
  refine ⟨?_, ?_, fun bytes' h => generateTypedPassword_inj h⟩
  · intro s hs hsize hbits
    obtain ⟨digits, h⟩ := hs.carries bytes.property
    have hread := h.read
    have hd : digits.length < pairingTypedPasswordLength := by
      rw [← h.size]
      exact hsize
    have hi := h.index_lt bytes.property hd hbits
    refine ⟨?_, bytes.val[s.i], List.getElem?_eq_getElem hi, shiftIn_testBit h.acc _ hbits⟩
    rw [bytes.property] at hi
    rw [h.size]
    unfold pairingTypedPasswordLength at hd ⊢
    omega
  · obtain ⟨digits, hlen, hlt, hnum, hout⟩ := generateTypedPassword_eq bytes
    refine ⟨_, hout, ⟨digits, hlen, hlt, hnum, String.toList_ofList⟩, ?_⟩
    intro typed before variant after htyped hbefore hafter hcase
    exact typedPasswordBytes_digits hlen hlt htyped hbefore hafter hcase

end Pairing
