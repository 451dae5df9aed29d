import Mathlib.Data.Bool.AllAny
import Mathlib.Data.List.Infix
import SdkPubkey.Lib.Framing
import SdkPubkey.Lib.Search

/-!
# Percent encoding

`percentEncode` writes a text with the unreserved characters of RFC 3986, its other bytes as `%XX`,
and `percentDecode` reads such bytes back (`percentDecode_percentEncode`). `fromUtf8Lossy` makes a
text of any bytes and is a left inverse of `utf8` (`fromUtf8Lossy_utf8`).
-/

namespace Lib

/-! ## UTF-8 -/

/-- The character that the bytes start with. -/
def decodeChar (bytes : List UInt8) : Option Char := bytes.toByteArray.utf8DecodeChar? 0

/-- Whether a character of three or four bytes can start with these two. -/
def startsChar (first second : UInt8) : Bool :=
  if first = 0xe0 then 0xa0 ≤ second && second ≤ 0xbf
  else if first = 0xed then 0x80 ≤ second && second ≤ 0x9f
  else if first = 0xf0 then 0x90 ≤ second && second ≤ 0xbf
  else if first = 0xf4 then 0x80 ≤ second && second ≤ 0x8f
  else 0xe1 ≤ first && first ≤ 0xf3 && second &&& 0xc0 == 0x80

/-- The bytes that one replacement character stands for: as many as a character could start with. -/
def brokenSize (first : UInt8) : List UInt8 → Nat
  | [] => 1
  | [second] => if startsChar first second then 2 else 1
  | second :: third :: _ =>
    if startsChar first second then
      if 0xf0 ≤ first ∧ third &&& 0xc0 = 0x80 then 3 else 2
    else 1

def lossyChars : Nat → List UInt8 → List Char
  | 0, _ => []
  | _, [] => []
  | n + 1, first :: rest =>
    match decodeChar (first :: rest) with
    | some c => c :: lossyChars n ((first :: rest).drop c.utf8Size)
    | none => '\uFFFD' :: lossyChars n ((first :: rest).drop (brokenSize first rest))

/-- `String::from_utf8_lossy`. -/
def fromUtf8Lossy (bytes : List UInt8) : String := String.ofList (lossyChars bytes.length bytes)

example : fromUtf8Lossy [0x61, 0xe2, 0x82, 0x62, 0xc3, 0xa9, 0xff] = "a\uFFFDbé\uFFFD" := by
  decide +kernel

theorem decodeChar_append (c : Char) (rest : List UInt8) :
    decodeChar (String.utf8EncodeChar c ++ rest) = some c := by
  rw [decodeChar, List.toByteArray_append, ByteArray.utf8DecodeChar?_utf8EncodeChar_append]

theorem lossyChars_utf8 {n : Nat} {cs : List Char}
    (hn : (cs.flatMap String.utf8EncodeChar).length ≤ n) :
    lossyChars n (cs.flatMap String.utf8EncodeChar) = cs := by
  induction cs generalizing n with
  | nil => cases n <;> rfl
  | cons c cs ih =>
    have hsize := String.length_utf8EncodeChar c
    have hpos := c.utf8Size_pos
    rw [List.flatMap_cons, List.length_append] at hn
    rw [List.flatMap_cons]
    have hdecode := decodeChar_append c (cs.flatMap String.utf8EncodeChar)
    have hdrop : (String.utf8EncodeChar c ++ cs.flatMap String.utf8EncodeChar).drop c.utf8Size =
        cs.flatMap String.utf8EncodeChar := List.drop_left' hsize
    cases n with
    | zero => omega
    | succ n =>
      cases hbytes : String.utf8EncodeChar c ++ cs.flatMap String.utf8EncodeChar with
      | nil =>
        have hlen := congrArg List.length hbytes
        rw [List.length_append, List.length_nil] at hlen
        omega
      | cons first rest =>
        rw [hbytes] at hdecode hdrop
        simp only [lossyChars, hdecode, hdrop]
        rw [ih (by omega)]

theorem fromUtf8Lossy_utf8 (s : String) : fromUtf8Lossy (utf8 s) = s := by
  rw [fromUtf8Lossy, utf8_eq_flatMap, lossyChars_utf8 (Nat.le_refl _), String.ofList_toList]

/-! ## ASCII in UTF-8 -/

def asciiByte (c : Char) : UInt8 := UInt8.ofNat c.toNat

theorem utf8EncodeChar_ascii {c : Char} (h : c.toNat < 128) : String.utf8EncodeChar c =
    [asciiByte c] := by
  unfold String.utf8EncodeChar
  rw [if_pos (show c.val.toNat ≤ 0x7f from Nat.le_of_lt_succ h)]
  rfl

/-- Other characters have no byte of ASCII. -/
theorem le_of_mem_utf8EncodeChar {c : Char} (h : 128 ≤ c.toNat) {b : UInt8}
    (hb : b ∈ String.utf8EncodeChar c) : 128 ≤ b.toNat := by
  have hv : ¬ c.val.toNat ≤ 0x7f := Nat.not_le.2 h
  unfold String.utf8EncodeChar at hb
  dsimp only at hb
  rw [if_neg hv] at hb
  generalize c.val.toNat = v at hb
  have hbyte : ∀ n, 128 ≤ n → n < 256 → 128 ≤ (UInt8.ofNat n).toNat := by
    intro n hge hlt
    rw [UInt8.toNat_ofNat']
    omega
  split at hb
  · simp only [List.mem_cons, List.not_mem_nil, or_false] at hb
    rcases hb with rfl | rfl <;> exact hbyte _ (by omega) (by omega)
  · split at hb
    · simp only [List.mem_cons, List.not_mem_nil, or_false] at hb
      rcases hb with rfl | rfl | rfl <;> exact hbyte _ (by omega) (by omega)
    · simp only [List.mem_cons, List.not_mem_nil, or_false] at hb
      rcases hb with rfl | rfl | rfl | rfl <;> exact hbyte _ (by omega) (by omega)

theorem asciiByte_toNat {c : Char} (h : c.toNat < 128) : (asciiByte c).toNat = c.toNat := by
  rw [asciiByte, UInt8.toNat_ofNat']
  omega

theorem asciiByte_inj {c d : Char} (hc : c.toNat < 128) (hd : d.toNat < 128)
    (h : asciiByte c = asciiByte d) : c = d := by
  have hn := congrArg UInt8.toNat h
  rw [asciiByte_toNat hc, asciiByte_toNat hd] at hn
  exact Char.toNat_inj.1 hn

theorem asciiByte_prefix_iff {p : List Char} (hp : ∀ c ∈ p, c.toNat < 128) {cs : List Char} :
    p.map asciiByte <+: cs.flatMap String.utf8EncodeChar ↔ p <+: cs := by
  induction p generalizing cs with
  | nil => simp
  | cons a p ih =>
    have ha := hp a (by simp)
    have hrest : ∀ ds : List Char, p.map asciiByte <+:
        ds.flatMap String.utf8EncodeChar ↔ p <+: ds :=
      fun ds => ih fun c hc => hp c (by simp [hc])
    cases cs with
    | nil => simp
    | cons c cs =>
      rw [List.map_cons, List.flatMap_cons, List.cons_prefix_cons]
      by_cases hc : c.toNat < 128
      · rw [utf8EncodeChar_ascii hc, List.singleton_append, List.cons_prefix_cons, hrest]
        exact and_congr_left fun _ => ⟨asciiByte_inj ha hc, congrArg asciiByte⟩
      · constructor
        · intro h
          exfalso
          cases hb : String.utf8EncodeChar c with
          | nil =>
            have hpos := c.utf8Size_pos
            rw [← String.length_utf8EncodeChar, hb, List.length_nil] at hpos
            omega
          | cons b bs =>
            rw [hb, List.cons_append] at h
            have hge := le_of_mem_utf8EncodeChar (Nat.not_lt.1 hc) (b := b) (by rw [hb]; simp)
            rw [← (List.cons_prefix_cons.1 h).1, asciiByte_toNat ha] at hge
            omega
        · intro h
          rw [h.1] at ha
          exact absurd ha hc

/-- A text of ASCII is in the bytes of a text exactly if it is in the text. -/
theorem asciiByte_infix_iff {p : List Char} (hne : p ≠ []) (hp : ∀ c ∈ p, c.toNat < 128)
    (s : String) :
    p.map asciiByte <:+: utf8 s ↔ p <:+: s.toList := by
  rw [utf8_eq_flatMap]
  generalize s.toList = cs
  induction cs with
  | nil => simp [hne]
  | cons c cs ih =>
    rw [List.infix_cons_iff, ← asciiByte_prefix_iff hp, ← ih]
    by_cases hc : c.toNat < 128
    · rw [List.flatMap_cons, utf8EncodeChar_ascii hc, List.singleton_append, List.infix_cons_iff]
    · cases p with
      | nil => exact absurd rfl hne
      | cons a p =>
        have ha := hp a (by simp)
        have hnot : asciiByte a ∉ String.utf8EncodeChar c := by
          intro hmem
          have hge := le_of_mem_utf8EncodeChar (Nat.not_lt.1 hc) hmem
          rw [asciiByte_toNat ha] at hge
          omega
        have hstart : ¬ (a :: p).map asciiByte <+: (c :: cs).flatMap String.utf8EncodeChar := by
          rw [asciiByte_prefix_iff hp]
          intro h
          rw [(List.cons_prefix_cons.1 h).1] at ha
          exact hc ha
        rw [or_iff_right hstart, List.flatMap_cons, List.map_cons, infix_append_of_not_mem hnot]

theorem asciiByte_mem {c : Char} (hc : c.toNat < 128) (s : String) :
    asciiByte c ∈ utf8 s ↔ c ∈ s.toList := by
  have h := asciiByte_infix_iff (p := [c]) (by simp) (by simpa using hc) s
  simpa only [List.map_cons, List.map_nil, List.singleton_infix_iff] using h

/-! ## Encoding -/

def isUnreserved (b : UInt8) : Bool :=
  (0x41 ≤ b && b ≤ 0x5a) || (0x61 ≤ b && b ≤ 0x7a) || (0x30 ≤ b && b ≤ 0x39) ||
    b == 0x2d || b == 0x5f || b == 0x2e || b == 0x7e

/-- `{:X}` of four bits. -/
def upperHex (n : Nat) : Char := "0123456789ABCDEF".toList.getD n '0'

def percentEncodeByte (b : UInt8) : List Char :=
  if isUnreserved b then [Char.ofNat b.toNat]
      else ['%', upperHex (b.toNat / 16), upperHex (b.toNat % 16)]

def percentEncode (s : String) : String := String.ofList ((utf8 s).flatMap percentEncodeByte)

theorem mem_percentEncodeByte (b : UInt8) :
    ∀ c ∈ percentEncodeByte b, c = '%' ∨ isUnreserved (UInt8.ofNat c.toNat) = true ∧
        c.toNat < 128 := by
  have hall : ∀ b : UInt8, (percentEncodeByte b).all
      (fun c => c = '%' ∨ isUnreserved (UInt8.ofNat c.toNat) = true ∧ c.toNat < 128) = true := by
    apply uint8_all
    decide +kernel
  exact List.all_iff_forall_prop.1 (hall b)

/-- An encoded text has only unreserved characters and `%`. -/
theorem not_mem_percentEncode {c : Char} (s : String) (hc : c ≠ '%')
    (hreserved : isUnreserved (UInt8.ofNat c.toNat) = false ∨ 128 ≤ c.toNat) :
    c ∉ (percentEncode s).toList := by
  intro hmem
  rw [percentEncode, String.toList_ofList] at hmem
  obtain ⟨b, -, hb⟩ := List.mem_flatMap.1 hmem
  rcases mem_percentEncodeByte b c hb with h | ⟨h, hlt⟩
  · exact hc h
  · rcases hreserved with hr | hr
    · rw [hr] at h
      cases h
    · omega

/-! ## Decoding -/

def fromHex (b : UInt8) : Option UInt8 :=
  if 0x30 ≤ b ∧ b ≤ 0x39 then some (b - 0x30)
  else if 0x61 ≤ b ∧ b ≤ 0x66 then some (b - 0x61 + 10)
  else if 0x41 ≤ b ∧ b ≤ 0x46 then some (b - 0x41 + 10)
  else none

/-- The byte of two hexadecimal digits. -/
def hexByte (h l : UInt8) : Option UInt8 :=
  match fromHex h, fromHex l with
  | some h, some l => some (h <<< 4 ||| l)
  | _, _ => none

/-- The byte of an escape at the front of the bytes. -/
def escapeAt : List UInt8 → Option UInt8
  | b :: h :: l :: _ => if b = 0x25 then hexByte h l else none
  | _ => none

/-- The bytes with each escape replaced by its byte, and `plain` of the others. -/
def percentDecode (plain : UInt8 → UInt8) : List UInt8 → List UInt8
  | [] => []
  | [a] => [plain a]
  | [a, b] => [plain a, plain b]
  | a :: b :: c :: rest =>
    match escapeAt (a :: b :: c :: rest) with
    | some octet => octet :: percentDecode plain rest
    | none => plain a :: percentDecode plain (b :: c :: rest)

section
variable {plain : UInt8 → UInt8}

theorem percentDecode_escape {bytes : List UInt8} {octet : UInt8}
    (h : escapeAt bytes = some octet) :
    percentDecode plain bytes = octet :: percentDecode plain (bytes.drop 3) := by
  match bytes with
  | [] => cases h
  | [_] => cases h
  | [_, _] => cases h
  | _ :: _ :: _ :: _ =>
    rw [percentDecode, h]
    rfl

theorem percentDecode_plain {b : UInt8} {rest : List UInt8} (h : escapeAt (b :: rest) = none) :
    percentDecode plain (b :: rest) = plain b :: percentDecode plain rest := by
  match rest with
  | [] => rfl
  | [_] => rfl
  | _ :: _ :: _ => rw [percentDecode, h]

theorem escapeAt_of_ne {b : UInt8} (h : b ≠ 0x25) (rest : List UInt8) :
    escapeAt (b :: rest) = none := by
  match rest with
  | [] => rfl
  | [_] => rfl
  | _ :: _ :: _ => rw [escapeAt, if_neg h]

/-- What the encoding of a byte is: itself, or an escape. -/
theorem percentEncodeByte_cases (b : UInt8) :
    (isUnreserved b = true ∧ (percentEncodeByte b).flatMap String.utf8EncodeChar = [b] ∧ b ≠ 0x25) ∨
      (isUnreserved b = false ∧ ∃ h l,
        (percentEncodeByte b).flatMap String.utf8EncodeChar = [0x25, h, l] ∧
        hexByte h l = some b) := by
  have hcases : ∀ b : UInt8, if isUnreserved b then
      (percentEncodeByte b).flatMap String.utf8EncodeChar = [b] ∧ b ≠ 0x25
    else
      (percentEncodeByte b).flatMap String.utf8EncodeChar =
        [0x25, ((percentEncodeByte b).flatMap String.utf8EncodeChar).getD 1 0,
          ((percentEncodeByte b).flatMap String.utf8EncodeChar).getD 2 0] ∧
      hexByte (((percentEncodeByte b).flatMap String.utf8EncodeChar).getD 1 0)
        (((percentEncodeByte b).flatMap String.utf8EncodeChar).getD 2 0) = some b := by
    apply uint8_all
    decide +kernel
  have hb := hcases b
  cases hu : isUnreserved b with
  | true =>
    rw [hu, if_pos rfl] at hb
    exact .inl ⟨rfl, hb⟩
  | false =>
    rw [hu, if_neg (by simp)] at hb
    exact .inr ⟨rfl, _, _, hb⟩

theorem percentDecode_encodeByte (hplain : ∀ b, isUnreserved b = true → plain b = b) (b : UInt8)
    (rest : List UInt8) :
    percentDecode plain ((percentEncodeByte b).flatMap String.utf8EncodeChar ++ rest) =
      b :: percentDecode plain rest := by
  rcases percentEncodeByte_cases b with ⟨hu, he, hne⟩ | ⟨-, h, l, he, hb⟩
  · rw [he, List.singleton_append, percentDecode_plain (escapeAt_of_ne hne rest), hplain b hu]
  · have hescape : escapeAt (0x25 :: h :: l :: rest) = some b := by
      rw [escapeAt, if_pos rfl, hb]
    rw [he, List.cons_append, List.cons_append, List.cons_append, List.nil_append,
      percentDecode_escape hescape]
    rfl

/-- Decoding reads an encoded text back, if it keeps the unreserved characters. -/
theorem percentDecode_percentEncode (hplain : ∀ b, isUnreserved b = true → plain b = b)
    (s : String) :
    percentDecode plain (utf8 (percentEncode s)) = utf8 s := by
  rw [utf8_eq_flatMap (percentEncode s), percentEncode, String.toList_ofList]
  generalize utf8 s = bytes
  induction bytes with
  | nil => rfl
  | cons b bytes ih =>
    rw [List.flatMap_cons, List.flatMap_append, percentDecode_encodeByte hplain, ih]

end

/-! ## Escapes of `@` -/

theorem fromHex_at (b : UInt8) : (fromHex b).isSome = true → b ≠ 0x25 ∧ b ≠ 0x40 := by
  intro h
  refine ⟨fun hb => ?_, fun hb => ?_⟩
  · subst hb
    cases h
  · subst hb
    cases h

theorem fromHex_lt (b : UInt8) : ∀ x, fromHex b = some x → x < 16 := by
  intro x h
  unfold fromHex at h
  grind

theorem fromHex_four (b : UInt8) : fromHex b = some 4 ↔ b = 0x34 := by
  unfold fromHex
  grind

theorem fromHex_zero (b : UInt8) : fromHex b = some 0 ↔ b = 0x30 := by
  unfold fromHex
  grind

theorem nibbles_at : ∀ x y : Fin 16,
    UInt8.ofNat x.1 <<< 4 ||| UInt8.ofNat y.1 = 0x40 ↔ x = 4 ∧ y = 0 := by
  decide +kernel

/-- `@` has one escape, since its digits are no letters. -/
theorem hexByte_at (h l : UInt8) : hexByte h l = some 0x40 ↔ h = 0x34 ∧ l = 0x30 := by
  rw [← fromHex_four, ← fromHex_zero]
  unfold hexByte
  cases hh : fromHex h with
  | none => simp
  | some x =>
    cases hl : fromHex l with
    | none => simp
    | some y =>
      have hx : x.toNat < 16 := fromHex_lt h x hh
      have hy : y.toNat < 16 := fromHex_lt l y hl
      have hxy := nibbles_at ⟨x.toNat, hx⟩ ⟨y.toNat, hy⟩
      simp only [UInt8.ofNat_toNat, Fin.ext_iff] at hxy
      simp only [Option.some.injEq]
      rw [hxy, ← UInt8.toNat_inj, ← UInt8.toNat_inj]
      rfl

/-- Decoding gives an `@` for an `@` and for its escape. -/
theorem at_mem_percentDecode (bytes : List UInt8) :
    0x40 ∈ percentDecode id bytes ↔ 0x40 ∈ bytes ∨ [0x25, 0x34, 0x30] <:+: bytes := by
  generalize hn : bytes.length = n
  induction n using Nat.strongRecOn generalizing bytes with
  | _ n ih =>
    cases he : escapeAt bytes with
    | some octet =>
      rw [percentDecode_escape he]
      match bytes with
      | [] => cases he
      | [_] => cases he
      | [_, _] => cases he
      | b :: h :: l :: rest =>
        rw [escapeAt] at he
        split at he
        · rename_i hb
          -- an escape is three characters, which are decoded to one
          have hdigits : (fromHex h).isSome = true ∧ (fromHex l).isSome = true := by
            unfold hexByte at he
            cases hh : fromHex h <;> cases hl : fromHex l <;> simp_all
          obtain ⟨hh, hh'⟩ := fromHex_at h hdigits.1
          obtain ⟨hl, hl'⟩ := fromHex_at l hdigits.2
          have hrest := ih rest.length (by rw [← hn]; simp; omega) rest rfl
          have hoctet : (0x40 : UInt8) = octet ↔ h = 0x34 ∧ l = 0x30 := by
            rw [← hexByte_at, he, Option.some.injEq, eq_comm]
          rw [List.drop_succ_cons, List.drop_succ_cons, List.drop_succ_cons, List.drop_zero,
            List.mem_cons, hrest, hoctet]
          have hpercent : (0x40 : UInt8) ≠ 0x25 := by decide
          simp only [List.mem_cons, List.infix_cons_iff, List.cons_prefix_cons,
            List.nil_prefix, hb, hpercent, Ne.symm hh, Ne.symm hh', Ne.symm hl, Ne.symm hl',
            false_and, false_or, true_and, and_true, eq_comm (a := h), eq_comm (a := l)]
          exact or_left_comm
        · cases he
    | none =>
      cases bytes with
      | nil => simp [percentDecode]
      | cons b rest =>
        have hrest := ih rest.length (by rw [← hn]; simp) rest rfl
        -- without an escape here, `%40` can only come later
        have hstart : ¬ [0x25, 0x34, 0x30] <+: b :: rest := by
          intro hs
          obtain ⟨t, ht⟩ := hs
          rw [← ht] at he
          cases he
        rw [percentDecode_plain he, List.mem_cons, hrest, List.mem_cons, List.infix_cons_iff,
          or_iff_right hstart, or_assoc]
        rfl

theorem at_mem_decoded (s : String) :
    0x40 ∈ percentDecode id (utf8 s) ↔ '@' ∈ s.toList ∨ "%40".toList <:+: s.toList := by
  have hat := asciiByte_mem (c := '@') (by decide) s
  have hescape := asciiByte_infix_iff (p := "%40".toList) (by decide)
      (List.all_iff_forall_prop.1 (by decide)) s
  rw [at_mem_percentDecode, ← hat, ← hescape]
  rfl

/-- The escape is in an encoded text where the text has an `@`. -/
theorem escape_infix_percentEncode (s : String) :
    "%40".toList <:+: (percentEncode s).toList ↔ '@' ∈ s.toList := by
  have hnot : '@' ∉ (percentEncode s).toList := not_mem_percentEncode s (by decide)
      (.inl (by decide))
  have hdecoded := at_mem_decoded (percentEncode s)
  have hid : ∀ b, isUnreserved b = true → id b = b := fun _ _ => rfl
  rw [percentDecode_percentEncode hid, or_iff_right hnot] at hdecoded
  rw [← hdecoded, ← asciiByte_mem (by decide) s]
  rfl

end Lib
