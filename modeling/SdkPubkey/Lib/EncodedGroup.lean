import Mathlib.Algebra.Field.Basic
import Mathlib.Algebra.Module.Torsion.Field

/-!
# Groups with encodings

Bytes (`utf8`, `i2osp`) and an abstract group of prime order as a protocol's code sees it
(`EncodedGroup`): elements `E`, scalars `F`, and the encodings of both. `EncodedGroup.Lawful` says
that encodings decode to what was encoded. The group itself is a module `E` over the field `F`.

`response_smul` is the completeness of a proof of equal discrete logarithms: what the verifier
recomputes from an honest response is what the prover committed to. `log_of_responses` is its
special soundness: responses to two challenges for one commitment give the logarithm.
-/

namespace Lib

/-! ## Bytes -/

def utf8 (s : String) : List UInt8 := s.toUTF8.data.toList

theorem utf8_inj {s t : String} (h : utf8 s = utf8 t) : s = t := by
  have hd : s.toUTF8.data = t.toUTF8.data := Array.toList_inj.1 h
  exact String.toByteArray_inj.1 (ByteArray.ext hd)

/-- The last `length` bytes of `value`, the most significant first. -/
def i2osp (value : Nat) : (length : Nat) → List UInt8
  | 0 => []
  | n + 1 => i2osp (value / 256) n ++ [UInt8.ofNat (value % 256)]

/-! ## Groups -/

/-- The operations on encodings of a group's elements `E` and scalars `F`. -/
structure EncodedGroup (F E : Type) where
  basepoint : E
  compress : E → List UInt8
  decompress : List UInt8 → Option E
  toBytes : F → List UInt8
  fromCanonicalBytes : List UInt8 → Option F
  /-- The map from uniform bytes to an element. -/
  fromUniformBytes : List UInt8 → E
  /-- The scalar that bytes of any value reduce to. -/
  fromBytesModOrderWide : List UInt8 → F

namespace EncodedGroup

/-- Both encodings have 32 bytes and decode to what was encoded. -/
structure Lawful {F E : Type} [Zero E] (R : EncodedGroup F E) : Prop where
  basepoint_ne : R.basepoint ≠ 0
  compress_length : ∀ e, (R.compress e).length = 32
  decompress_compress : ∀ e, R.decompress (R.compress e) = some e
  toBytes_length : ∀ s, (R.toBytes s).length = 32
  fromCanonicalBytes_toBytes : ∀ s, R.fromCanonicalBytes (R.toBytes s) = some s

end EncodedGroup

section
variable {F E : Type} [Field F] [AddCommGroup E] [Module F E]

/-- The response `r - c * k` to the challenge `c` takes back to the commitment `r • g`. -/
theorem response_smul (r c k : F) (g : E) : (r - c * k) • g + c • k • g = r • g := by
  rw [sub_smul, mul_smul, sub_add_cancel]

/-- Two responses to different challenges with one commitment give the logarithm of `y`. -/
theorem log_of_responses {c₁ c₂ s₁ s₂ : F} {g y : E} (hne : c₁ ≠ c₂)
    (h : s₁ • g + c₁ • y = s₂ • g + c₂ • y) : y = ((s₁ - s₂) / (c₂ - c₁)) • g := by
  have hc : c₂ - c₁ ≠ 0 := sub_ne_zero.2 hne.symm
  have hy : (c₂ - c₁) • y = (s₁ - s₂) • g := by
    rw [sub_smul, sub_smul, sub_eq_sub_iff_add_eq_add, add_comm, ← h, add_comm]
  rw [div_eq_inv_mul, mul_smul, ← hy, inv_smul_smul₀ hc]

end

end Lib
