import SdkPubkey.Oprf.Framing

/-!
# What an accepted proof shows

The proofs that `verify_proof` checks (`crates/scomm-vault/src/oprf/rfc9497.rs`) have special
soundness: when two challenges have responses with the same commitments, the public key `b` and the
composite `z` have one logarithm (`sameLog_of_responses`), whatever the mode and the order in which
a caller passes the two elements.
-/

namespace Oprf

open Ckvf Lib Vault

variable {F E : Type} [Field F] [AddCommGroup E] [Module F E] [DecidableEq F] [DecidableEq E]
  (S : Suite F E)

/-! ## The parts of a check -/

/-- The scalar `di` of `composites`. -/
def compositeScalar (mode : UInt8) (b c d : E) : Except VaultClientError F :=
  hashToScalar S (compositeInput S (S.sha512 (seedInput S mode b)) c d) mode

/-- `t2` and `t3` as `verify_proof` computes them from the challenge `cs` and the response `ss`. -/
def commitments (b m z : E) (cs ss : F) : E × E :=
  (ss • S.basepoint + cs • b, ss • m + cs • z)

/-- The public key `b` and the composite `z` have one logarithm, and so has `d` unless the composite
scalar is zero. -/
def SameLog (mode : UInt8) (b c d m z : E) : Prop :=
  ∃ k : F, b = k • S.basepoint ∧ z = k • m ∧
    ∀ di, compositeScalar S mode b c d = .ok di → di ≠ 0 → d = k • c

/-- The challenge of `proof` is recomputed from its commitments, and a response to any other
challenge for these commitments shows one logarithm. -/
def Binds (mode : UInt8) (b c d : E) (proof : Bytes) : Prop :=
  ∃ cs ss m z, decodeScalar S (proof.take 32) = .ok cs ∧ decodeScalar S (proof.drop 32) = .ok ss ∧
    composites S mode b c d none = .ok (m, z) ∧
    challenge S mode b m z (commitments S b m z cs ss).1 (commitments S b m z cs ss).2 = .ok cs ∧
    ∀ cs' ss', cs' ≠ cs → commitments S b m z cs' ss' = commitments S b m z cs ss →
      SameLog S mode b c d m z

variable {S}

omit [DecidableEq F] [DecidableEq E] in
theorem composites_none {mode : UInt8} {b c d m z : E} {di : F}
    (h : composites S mode b c d none = .ok (m, z)) (hdi : compositeScalar S mode b c d = .ok di) :
    m = di • c ∧ z = di • d := by
  obtain ⟨di', hdi', h⟩ := ok_of_bind h
  obtain rfl : di' = di := Except.ok.inj (hdi'.symm.trans hdi)
  cases h
  exact ⟨rfl, rfl⟩

omit [DecidableEq F] [DecidableEq E] in
/-- **Special soundness**: two responses with the same commitments give the logarithm. -/
theorem sameLog_of_responses {mode : UInt8} {b c d m z : E} {c₁ s₁ c₂ s₂ : F}
    (h : composites S mode b c d none = .ok (m, z)) (hne : c₁ ≠ c₂)
    (ht : commitments S b m z c₁ s₁ = commitments S b m z c₂ s₂) : SameLog S mode b c d m z := by
  obtain ⟨ht₂, ht₃⟩ := Prod.mk.inj ht
  have hb := log_of_responses hne ht₂
  have hz := log_of_responses hne ht₃
  refine ⟨_, hb, hz, fun di hdi hd => ?_⟩
  obtain ⟨rfl, rfl⟩ := composites_none h hdi
  -- the composite scalar is cancelled on both sides of `z = k • m`
  rw [smul_comm] at hz
  exact smul_right_injective E hd hz

omit [DecidableEq E] in
theorem binds_of_verify {mode : UInt8} {b c d : E} {proof : Bytes}
    (h : verifyProof S mode b c d proof = true) : Binds S mode b c d proof := by
  unfold verifyProof at h
  split at h
  · cases hc : checkProof S mode b c d proof with
    | error e =>
      rw [hc] at h
      cases h
    | ok v =>
      rw [hc] at h
      obtain rfl : v = true := h
      obtain ⟨cs, hcs, hc⟩ := ok_of_bind hc
      obtain ⟨ss, hss, hc⟩ := ok_of_bind hc
      obtain ⟨⟨m, z⟩, hmz, hc⟩ := ok_of_bind hc
      obtain ⟨expected, he, hc⟩ := ok_of_bind hc
      have hex : expected = cs := of_decide_eq_true (Except.ok.inj hc)
      rw [hex] at he
      exact ⟨cs, ss, m, z, hcs, hss, hmz, he,
        fun cs' ss' hne ht => sameLog_of_responses hmz hne ht⟩
  · cases h

/-! ## The two callers -/

theorem poprfFinalize_binds {state : PoprfBlindState} {evaluated proof output : Bytes}
    (h : poprfFinalize S state evaluated proof = .ok output) :
    ∃ tweaked ev blinded, decodeElement S state.tweakedKey = .ok tweaked ∧
      decodeElement S evaluated = .ok ev ∧ decodeElement S state.blinded = .ok blinded ∧
      Binds S modePoprf tweaked ev blinded proof := by
  obtain ⟨ev, hev, h⟩ := ok_of_bind h
  obtain ⟨tweaked, ht, h⟩ := ok_of_bind h
  obtain ⟨blinded, hb, h⟩ := ok_of_bind h
  split at h
  · rename_i hv
    exact ⟨tweaked, ev, blinded, ht, hev, hb, binds_of_verify hv⟩
  · cases h

theorem identityFinalize_binds {state : IdentityBlindState}
    {evaluated proof publicKey output : Bytes}
    (h : identityFinalize S state evaluated proof publicKey = .ok output) :
    ∃ key blinded ev, decodeElement S publicKey = .ok key ∧
      decodeElement S state.blinded = .ok blinded ∧ decodeElement S evaluated = .ok ev ∧
      Binds S modeVoprf key blinded ev proof := by
  obtain ⟨ev, hev, h⟩ := ok_of_bind h
  obtain ⟨key, hk, h⟩ := ok_of_bind h
  obtain ⟨blinded, hb, h⟩ := ok_of_bind h
  split at h
  · rename_i hv
    exact ⟨key, blinded, ev, hk, hb, hev, binds_of_verify hv⟩
  · cases h

variable (S)

/-- **Special soundness of the proofs, and what it says about the two callers**: the POPRF passes
the evaluation first, the VOPRF the blinded element. -/
theorem dleq_special_soundness :
    (∀ mode (b c d m z : E) (c₁ s₁ c₂ s₂ : F), composites S mode b c d none = .ok (m, z) → c₁ ≠ c₂ →
      commitments S b m z c₁ s₁ = commitments S b m z c₂ s₂ → SameLog S mode b c d m z) ∧
    (∀ state evaluated proof output, poprfFinalize S state evaluated proof = .ok output →
      ∃ tweaked ev blinded, decodeElement S state.tweakedKey = .ok tweaked ∧
        decodeElement S evaluated = .ok ev ∧ decodeElement S state.blinded = .ok blinded ∧
        Binds S modePoprf tweaked ev blinded proof) ∧
    (∀ state evaluated proof publicKey output,
      identityFinalize S state evaluated proof publicKey = .ok output →
      ∃ key blinded ev, decodeElement S publicKey = .ok key ∧
        decodeElement S state.blinded = .ok blinded ∧ decodeElement S evaluated = .ok ev ∧
        Binds S modeVoprf key blinded ev proof) := by
  refine ⟨?_, ?_, ?_⟩
  · intro mode b c d m z c₁ s₁ c₂ s₂ h hne ht
    exact sameLog_of_responses h hne ht
  · intro state evaluated proof output h
    exact poprfFinalize_binds h
  · intro state evaluated proof publicKey output h
    exact identityFinalize_binds h

theorem dleq_special_soundness_seven :
    ∃ m z, composites seven modePoprf 6 1 2 none = .ok (m, z) ∧
      commitments seven 6 m z 0 6 = commitments seven 6 m z 1 4 ∧
      SameLog seven modePoprf 6 1 2 m z :=
  ⟨_, _, rfl, by decide, (dleq_special_soundness seven).1 modePoprf 6 1 2 _ _ 0 6 1 4
    rfl (by decide) (by decide)⟩

end Oprf
