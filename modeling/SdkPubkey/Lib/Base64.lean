import Mathlib.Data.List.TakeWhile
import SdkPubkey.Lib.Base64url

/-!
# Decoding base 64

`sextets` are the numbers of six bits that bytes are written as, and `octets` reads them back
(`octets_sextets`). `base64` is the encoding of RFC 4648, section 4, with padding, which
`base64Decode` reads back (`base64Decode_base64`), and `base64urlDecode` reads back `base64url`.
-/

namespace Lib

/-! ## Six bits at a time -/

def sextets : List UInt8 → List Nat
  | [] => []
  | [a] => [a.toNat / 4, a.toNat % 4 * 16]
  | [a, b] => [a.toNat / 4, a.toNat % 4 * 16 + b.toNat / 16, b.toNat % 16 * 4]
  | a :: b :: c :: bytes =>
    a.toNat / 4 :: (a.toNat % 4 * 16 + b.toNat / 16) :: (b.toNat % 16 * 4 + c.toNat / 64) ::
      c.toNat % 64 :: sextets bytes

/-- The bits that are left over have to be zero. -/
def octets : List Nat → Option (List UInt8)
  | [] => some []
  | [_] => none
  | [x, y] => if y % 16 = 0 then some [UInt8.ofNat (x * 4 + y / 16)] else none
  | [x, y, z] =>
    if z % 4 = 0 then some [UInt8.ofNat (x * 4 + y / 16), UInt8.ofNat (y % 16 * 16 + z / 4)]
    else none
  | x :: y :: z :: w :: ns =>
    (octets ns).map fun bytes =>
      UInt8.ofNat (x * 4 + y / 16) :: UInt8.ofNat (y % 16 * 16 + z / 4) ::
          UInt8.ofNat (z % 4 * 64 + w) ::
        bytes

theorem sextets_lt {bytes : List UInt8} {n : Nat} (h : n ∈ sextets bytes) : n < 64 := by
  induction bytes using sextets.induct with
  | case1 => cases h
  | case2 a =>
    have ha := a.toNat_lt
    simp only [sextets, List.mem_cons, List.not_mem_nil, or_false] at h
    omega
  | case3 a b =>
    have ha := a.toNat_lt
    have hb := b.toNat_lt
    simp only [sextets, List.mem_cons, List.not_mem_nil, or_false] at h
    omega
  | case4 a b c bytes ih =>
    have ha := a.toNat_lt
    have hb := b.toNat_lt
    have hc := c.toNat_lt
    simp only [sextets, List.mem_cons] at h
    rcases h with h | h | h | h | h
    · omega
    · omega
    · omega
    · omega
    · exact ih h

theorem octets_sextets (bytes : List UInt8) : octets (sextets bytes) = some bytes := by
  induction bytes using sextets.induct with
  | case1 => rfl
  | case2 a =>
    have ha := a.toNat_lt
    have hbits : a.toNat % 4 * 16 % 16 = 0 := by omega
    have hbyte : a.toNat / 4 * 4 + a.toNat % 4 * 16 / 16 = a.toNat := by omega
    rw [sextets, octets, if_pos hbits, hbyte, UInt8.ofNat_toNat]
  | case3 a b =>
    have hb := b.toNat_lt
    have hbits : b.toNat % 16 * 4 % 4 = 0 := by omega
    have hfst : a.toNat / 4 * 4 + (a.toNat % 4 * 16 + b.toNat / 16) / 16 = a.toNat := by omega
    have hsnd : (a.toNat % 4 * 16 + b.toNat / 16) % 16 * 16 + b.toNat % 16 * 4 / 4 =
        b.toNat := by omega
    rw [sextets, octets, if_pos hbits, hfst, hsnd, UInt8.ofNat_toNat, UInt8.ofNat_toNat]
  | case4 a b c bytes ih =>
    have hb := b.toNat_lt
    have hc := c.toNat_lt
    have hfst : a.toNat / 4 * 4 + (a.toNat % 4 * 16 + b.toNat / 16) / 16 = a.toNat := by omega
    have hsnd : (a.toNat % 4 * 16 + b.toNat / 16) % 16 * 16 +
        (b.toNat % 16 * 4 + c.toNat / 64) / 4 = b.toNat := by omega
    have hthd : (b.toNat % 16 * 4 + c.toNat / 64) % 4 * 64 + c.toNat % 64 = c.toNat := by omega
    rw [sextets, octets, ih, hfst, hsnd, hthd, UInt8.ofNat_toNat, UInt8.ofNat_toNat,
        UInt8.ofNat_toNat]
    rfl

theorem mapM_sextets {value : Char → Option Nat} {digit : Nat → Char}
    (h : ∀ n < 64, value (digit n) = some n) (bytes : List UInt8) :
    ((sextets bytes).map digit).mapM value = some (sextets bytes) := by
  have hlt : ∀ n ∈ sextets bytes, n < 64 := fun n hn => sextets_lt hn
  revert hlt
  generalize sextets bytes = ns
  intro hlt
  induction ns with
  | nil => rfl
  | cons n ns ih =>
    rw [List.map_cons, List.mapM_cons, h n (hlt n (by simp)), ih fun m hm => hlt m (by simp [hm])]
    rfl

/-! ## Without padding -/

theorem base64urlChars_eq (bytes : List UInt8) : base64urlChars bytes =
    (sextets bytes).map sextet := by
  induction bytes using sextets.induct with
  | case1 => rfl
  | case2 a => rfl
  | case3 a b => rfl
  | case4 a b c bytes ih =>
    rw [base64urlChars, sextets, ih, List.map_cons, List.map_cons, List.map_cons, List.map_cons]

def base64urlValue (c : Char) : Option Nat := base64urlAlphabet.idxOf? c

def base64urlDecode (s : String) : Option (List UInt8) := (s.toList.mapM base64urlValue).bind octets

theorem base64urlDecode_base64url (bytes : List UInt8) : base64urlDecode (base64url bytes) =
    some bytes := by
  have hvalue : ∀ n < 64, base64urlValue (sextet n) = some n := by decide
  rw [base64urlDecode, base64url, String.toList_ofList, base64urlChars_eq, mapM_sextets hvalue,
    Option.bind_some, octets_sextets]

/-! ## With padding -/

def base64Alphabet : List Char :=
  "ABCDEFGHIJKLMNOPQRSTUVWXYZabcdefghijklmnopqrstuvwxyz0123456789+/".toList

def base64Char (n : Nat) : Char := base64Alphabet.getD (n % 64) 'A'

/-- How many characters are missing from the last four. -/
def missing (length : Nat) : Nat := (4 - length % 4) % 4

def base64 (bytes : List UInt8) : List Char :=
  (sextets bytes).map base64Char ++ List.replicate (missing (sextets bytes).length) '='

/-- The characters of either alphabet. -/
def base64Value (c : Char) : Option Nat :=
  if c = '-' then some 62
  else if c = '_' then some 63
  else base64Alphabet.idxOf? c

/-- Padding characters, which may be escaped as in a URI. -/
def isPadding : Nat → List Char → Bool
  | 0, [] => true
  | n + 1, '=' :: cs => isPadding n cs
  | n + 1, '%' :: '3' :: d :: cs => (d == 'D' || d == 'd') && isPadding n cs
  | _, _ => false

/-- `base64Decode` of `dart:convert`. -/
def base64Decode (cs : List Char) : Option (List UInt8) :=
  let data := cs.takeWhile fun c => (base64Value c).isSome
  if isPadding (missing data.length) (cs.dropWhile fun c => (base64Value c).isSome) then
    (data.mapM base64Value).bind octets
  else none

example : base64Decode "-_8Bqg==".toList = some [251, 255, 1, 170] := by decide

theorem base64Value_base64Char : ∀ n < 64, base64Value (base64Char n) = some n := by
  decide +kernel

theorem isPadding_replicate (n : Nat) : isPadding n (List.replicate n '=') = true := by
  induction n with
  | zero => rfl
  | succ n ih => exact ih

theorem base64Decode_base64 (bytes : List UInt8) : base64Decode (base64 bytes) = some bytes := by
  have hdata : ∀ c ∈ (sextets bytes).map base64Char, (base64Value c).isSome = true := by
    intro c hc
    obtain ⟨n, hn, rfl⟩ := List.mem_map.1 hc
    rw [base64Value_base64Char n (sextets_lt hn)]
    rfl
  have hpad : ∀ n, (List.replicate n '=').takeWhile (fun c => (base64Value c).isSome) = [] ∧
      (List.replicate n '=').dropWhile (fun c => (base64Value c).isSome) =
      List.replicate n '=' := by
    intro n
    cases n with
    | zero => exact ⟨rfl, rfl⟩
    | succ n =>
      rw [List.replicate_succ]
      exact ⟨List.takeWhile_cons_of_neg (by decide), List.dropWhile_cons_of_neg (by decide)⟩
  unfold base64Decode base64
  dsimp only
  rw [List.takeWhile_append_of_pos hdata, List.dropWhile_append_of_pos hdata,
    (hpad _).1, (hpad _).2, List.append_nil, List.length_map, if_pos (isPadding_replicate _),
    mapM_sextets base64Value_base64Char, Option.bind_some, octets_sextets]

theorem base64_ne_nil {bytes : List UInt8} (h : bytes ≠ []) : base64 bytes ≠ [] := by
  intro hnil
  have hdecode := base64Decode_base64 bytes
  rw [hnil] at hdecode
  exact h (Option.some.inj hdecode).symm

theorem mem_isPadding {n : Nat} {cs : List Char} (h : isPadding n cs = true) :
    ∀ c ∈ cs, c ∈ ['=', '%', '3', 'D', 'd'] := by
  induction n, cs using isPadding.induct with
  | case1 => simp
  | case2 n cs ih =>
    intro c hc
    rcases List.mem_cons.1 hc with rfl | hc
    · decide
    · exact ih h c hc
  | case3 n d cs ih =>
    simp only [isPadding, Bool.and_eq_true, Bool.or_eq_true, beq_iff_eq] at h
    intro c hc
    simp only [List.mem_cons] at hc
    rcases hc with rfl | rfl | rfl | hc
    · decide
    · decide
    · rcases h.1 with rfl | rfl <;> decide
    · exact ih h.2 c hc
  | case4 n cs h1 h2 h3 =>
    rw [isPadding] at h
    · cases h
    all_goals assumption

/-- Text with a character that is neither data nor padding is not decoded. -/
theorem base64Decode_eq_none {c : Char} {cs : List Char} (hc : c ∈ cs)
    (hvalue : base64Value c = none)
    (hpad : c ∉ ['=', '%', '3', 'D', 'd']) : base64Decode cs = none := by
  have hrest : c ∈ cs.dropWhile fun c => (base64Value c).isSome := by
    rw [← List.takeWhile_append_dropWhile (p := fun c => (base64Value c).isSome) (l := cs)] at hc
    refine (List.mem_append.1 hc).resolve_left fun hd => ?_
    have hsome := List.mem_takeWhile_imp hd
    rw [hvalue] at hsome
    cases hsome
  unfold base64Decode
  dsimp only
  rw [if_neg]
  intro h
  exact hpad (mem_isPadding h c hrest)

theorem base64Char_mem (n : Nat) : base64Char n ∈ base64Alphabet := by
  have hn : n % 64 < base64Alphabet.length := Nat.mod_lt _ (by decide)
  rw [base64Char, List.getD_eq_getElem _ _ hn]
  exact List.getElem_mem hn

theorem mem_base64 {bytes : List UInt8} {c : Char} (h : c ∈ base64 bytes) :
    c ∈ base64Alphabet ∨ c = '=' := by
  rcases List.mem_append.1 h with h | h
  · obtain ⟨n, -, rfl⟩ := List.mem_map.1 h
    exact .inl (base64Char_mem n)
  · exact .inr (List.mem_replicate.1 h).2

/-- Padding does not begin at a multiple of four. -/
theorem base64_at_multiple (bytes : List UInt8) (k : Nat) : (base64 bytes)[4 * k]? ≠ some '=' := by
  intro h
  unfold base64 at h
  have hlen : ((sextets bytes).map base64Char).length = (sextets bytes).length := List.length_map _
  by_cases hk : 4 * k < (sextets bytes).length
  · rw [List.getElem?_append_left (by omega)] at h
    obtain ⟨n, -, hn⟩ := List.mem_map.1 (List.mem_of_getElem? h)
    have hmem := base64Char_mem n
    rw [hn] at hmem
    exact absurd hmem (by decide)
  · rw [List.getElem?_append_right (by omega)] at h
    obtain ⟨hlt, -⟩ := List.getElem?_eq_some_iff.1 h
    rw [List.length_replicate, missing] at hlt
    omega

end Lib
