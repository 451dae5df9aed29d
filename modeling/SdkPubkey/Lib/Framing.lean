import Mathlib.Data.List.Induction
import SdkPubkey.Lib.EncodedGroup

/-!
# Length-prefixed fields

`framed w x` is the byte string `x` behind its length in `w` bytes. As long as the length fits, the
field can be read back from whatever it begins (`framed_append_inj`), so a concatenation of fields
determines them (`flatMap_framed_inj`). A length that does not fit is written modulo `256 ^ w`, and
then only the number of bytes is left to tell two readings apart (`framed_append_inj_of_length`).
-/

namespace Lib

/-! ## Numbers -/

/-- What holds of every byte, tried one after another. -/
theorem uint8_all {P : UInt8 → Prop} (h : ∀ n : Fin 256, P (UInt8.ofFin n)) (b : UInt8) :
    P b := h b.toFin

/-- The number whose digits are the bytes, the most significant first. -/
def os2ip : List UInt8 → Nat := List.foldl (fun n b => n * 256 + b.toNat) 0

theorem os2ip_concat (bs : List UInt8) (b : UInt8) : os2ip (bs ++ [b]) =
    os2ip bs * 256 + b.toNat := by
  simp [os2ip]

theorem i2osp_length (v n : Nat) : (i2osp v n).length = n := by
  induction n generalizing v with
  | zero => rfl
  | succ n ih => simp [i2osp, ih]

/-- What is written is the number modulo the size of the field. -/
theorem os2ip_i2osp (v n : Nat) : os2ip (i2osp v n) = v % 256 ^ n := by
  induction n generalizing v with
  | zero => simp [i2osp, os2ip, Nat.mod_one]
  | succ n ih =>
    have hb : (UInt8.ofNat (v % 256)).toNat = v % 256 := by
      rw [UInt8.toNat_ofNat']
      omega
    rw [i2osp, os2ip_concat, ih, hb, Nat.pow_succ', Nat.mod_mul]
    omega

theorem os2ip_lt (bs : List UInt8) : os2ip bs < 256 ^ bs.length := by
  induction bs using List.reverseRecOn with
  | nil => simp [os2ip]
  | append_singleton bs b ih =>
    have hb := b.toNat_lt
    rw [os2ip_concat, List.length_append, List.length_singleton, Nat.pow_succ]
    omega

/-- The digits of a number are those it was read from. -/
theorem i2osp_os2ip (bs : List UInt8) : i2osp (os2ip bs) bs.length = bs := by
  induction bs using List.reverseRecOn with
  | nil => rfl
  | append_singleton bs b ih =>
    have hb := b.toNat_lt
    have hdiv : (os2ip bs * 256 + b.toNat) / 256 = os2ip bs := by omega
    have hmod : (os2ip bs * 256 + b.toNat) % 256 = b.toNat := by omega
    rw [os2ip_concat, List.length_append, List.length_singleton, i2osp, hdiv, hmod, ih]
    simp

theorem i2osp_mod_inj {v w n : Nat} (h : i2osp v n = i2osp w n) : v % 256 ^ n = w % 256 ^ n := by
  rw [← os2ip_i2osp, ← os2ip_i2osp, h]

/-! ## Fields -/

/-- The field `x` behind its length. -/
def framed (w : Nat) (x : List UInt8) : List UInt8 := i2osp x.length w ++ x

theorem framed_length (w : Nat) (x : List UInt8) : (framed w x).length = w + x.length := by
  rw [framed, List.length_append, i2osp_length]

/-- Two readings of one text have the same length prefix. -/
theorem framed_mod {w : Nat} {x y s t : List UInt8} (h : framed w x ++ s = framed w y ++ t) :
    x.length % 256 ^ w = y.length % 256 ^ w := by
  simp only [framed, List.append_assoc] at h
  exact i2osp_mod_inj (List.append_inj h (by rw [i2osp_length, i2osp_length])).1

theorem framed_append_inj_of_length {w : Nat} {x y s t : List UInt8} (hl : x.length = y.length)
    (h : framed w x ++ s = framed w y ++ t) : x = y ∧ s = t := by
  obtain ⟨hf, hs⟩ := List.append_inj h (by rw [framed_length, framed_length, hl])
  exact ⟨(List.append_inj hf (by rw [i2osp_length, i2osp_length])).2, hs⟩

/-- **A field whose length fits is read back**, whatever follows it. -/
theorem framed_append_inj {w : Nat} {x y s t : List UInt8} (hx : x.length < 256 ^ w)
    (hy : y.length < 256 ^ w) (h : framed w x ++ s = framed w y ++ t) : x = y ∧ s = t := by
  have hm := framed_mod h
  rw [Nat.mod_eq_of_lt hx, Nat.mod_eq_of_lt hy] at hm
  exact framed_append_inj_of_length hm h

/-- Parts that tell where they end determine the list of them, one after another. -/
theorem flatMap_inj {φ : Type} {encode : φ → List UInt8} {P : φ → Prop} (hne : ∀ f, encode f ≠ [])
    (hcut : ∀ {f g s t}, P f → P g → encode f ++ s = encode g ++ t → f = g ∧ s = t) {xs ys : List φ}
    (hx : ∀ x ∈ xs, P x) (hy : ∀ y ∈ ys, P y) (h : xs.flatMap encode = ys.flatMap encode) :
    xs = ys := by
  induction xs generalizing ys with
  | nil =>
    cases ys with
    | nil => rfl
    | cons y ys =>
      rw [List.flatMap_nil, List.flatMap_cons] at h
      exact absurd (List.append_eq_nil_iff.1 h.symm).1 (hne y)
  | cons x xs ih =>
    cases ys with
    | nil =>
      rw [List.flatMap_nil, List.flatMap_cons] at h
      exact absurd (List.append_eq_nil_iff.1 h).1 (hne x)
    | cons y ys =>
      rw [List.flatMap_cons, List.flatMap_cons] at h
      obtain ⟨hxy, hrest⟩ := hcut (hx x List.mem_cons_self) (hy y List.mem_cons_self) h
      have hxs := ih (fun z hz => hx z (List.mem_cons_of_mem _ hz))
        (fun z hz => hy z (List.mem_cons_of_mem _ hz)) hrest
      rw [hxy, hxs]

/-- Fields one after another determine the list of them. -/
theorem flatMap_framed_inj {w : Nat} (hw : 0 < w) {xs ys : List (List UInt8)}
    (hx : ∀ x ∈ xs, x.length < 256 ^ w) (hy : ∀ y ∈ ys, y.length < 256 ^ w)
    (h : xs.flatMap (framed w) = ys.flatMap (framed w)) : xs = ys := by
  refine flatMap_inj (fun z he => ?_) framed_append_inj hx hy h
  have hl := congrArg List.length he
  rw [framed_length, List.length_nil] at hl
  omega

/-! ## Texts -/

theorem utf8_eq_flatMap (s : String) : utf8 s = s.toList.flatMap String.utf8EncodeChar := by
  have h : s.toByteArray = s.toList.utf8Encode := by
    rw [← String.toByteArray_ofList, String.ofList_toList]
  show s.toByteArray.data.toList = _
  rw [h, List.utf8Encode]
  simp

/-- A text of one-byte characters has one byte for each of them. -/
theorem utf8_length {s : String} (h : ∀ c ∈ s.toList, c.utf8Size = 1) :
    (utf8 s).length = s.toList.length := by
  rw [utf8_eq_flatMap, List.length_flatMap]
  have hm : s.toList.map (fun c => (String.utf8EncodeChar c).length) = s.toList.map fun _ => 1 := by
    apply List.map_congr_left
    intro c hc
    rw [String.length_utf8EncodeChar, h c hc]
  rw [hm, List.map_const', List.sum_replicate_nat, Nat.mul_one]

end Lib
