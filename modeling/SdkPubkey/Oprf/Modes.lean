import SdkPubkey.Oprf.Rfc9497
import Mathlib.Algebra.Field.ZMod

/-!
# Pepper POPRF and identity VOPRF

`crates/scomm-vault/src/oprf/poprf.rs` and `identity_voprf.rs`: what the client does before and
after the host's evaluation, and the host's evaluation.

`oprf_correct` is the result: with an honest host the client gets the hash of the evaluated input,
so its output depends neither on the blind nor on the randomness of the proof.
-/

namespace Oprf

open Ckvf Lib Vault

/-- `info = "CKVF-pepper-v1" || 0x00 || vault_id || 0x00 || slot_id`. -/
def pepperInfo (vaultId slotId : String) : Bytes :=
  utf8 "CKVF-pepper-v1" ++ [0] ++ utf8 vaultId ++ [0] ++ utf8 slotId

structure PoprfBlindState where
  input : Bytes
  info : Bytes
  /-- Stays on the device. -/
  blind : Bytes
  /-- Sent to the host. -/
  blinded : Bytes
  tweakedKey : Bytes

structure IdentityBlindState where
  input : Bytes
  blind : Bytes
  blinded : Bytes

section
variable {F E : Type} [Field F] [AddCommGroup E] [Module F E] [DecidableEq F] [DecidableEq E]
  (S : Suite F E)

/-! ## The client -/

/-- The blind that is given, or a random one. -/
def blindScalar (drawn : Except String Bytes) : (blind : Option Bytes) → Except VaultClientError F
  | some b => decodeScalar S b
  | none => randomScalar S drawn none

def infoScalar (info : Bytes) : Except VaultClientError F :=
  hashToScalar S (utf8 "Info" ++ lp info) modePoprf

def poprfBlind (drawn : Except String Bytes) (input info publicKey : Bytes) (blind : Option Bytes) :
    Except VaultClientError PoprfBlindState := do
  let m ← infoScalar S info
  let key ← decodeElement S publicKey
  let tweaked := mulGen S m + key
  if tweaked = 0 then .error (.msg "oprf_failed" "tweaked key is the identity")
  else
    let r ← blindScalar S drawn blind
    let point ← hashToGroup S input modePoprf
    if point = 0 then .error (.msg "oprf_failed" "input maps to the identity")
    else
      pure ⟨input, info, encScalar S r, enc S (r • point), enc S tweaked⟩

def poprfFinalize (state : PoprfBlindState) (evaluated proof : Bytes) :
    Except VaultClientError Bytes := do
  let ev ← decodeElement S evaluated
  let tweaked ← decodeElement S state.tweakedKey
  let blinded ← decodeElement S state.blinded
  if verifyProof S modePoprf tweaked ev blinded proof then
    let r ← decodeScalar S state.blind
    pure (finalizeHash S state.input (r⁻¹ • ev) (some state.info))
  else
    .error (.msg "invalid_evaluation"
      "the vault host returned a pepper evaluation that does not verify")

def identityBlind (drawn : Except String Bytes) (input : Bytes) (blind : Option Bytes) :
    Except VaultClientError IdentityBlindState := do
  let r ← blindScalar S drawn blind
  let point ← hashToGroup S input modeOprf
  if point = 0 then .error (.msg "oprf_failed" "input maps to the identity")
  else pure ⟨input, encScalar S r, enc S (r • point)⟩

def identityFinalize (state : IdentityBlindState) (evaluated proof publicKey : Bytes) :
    Except VaultClientError Bytes := do
  let ev ← decodeElement S evaluated
  let key ← decodeElement S publicKey
  let blinded ← decodeElement S state.blinded
  if verifyProof S modeVoprf key blinded ev proof then
    let r ← decodeScalar S state.blind
    pure (finalizeHash S state.input (r⁻¹ • ev) none)
  else
    .error (.msg "invalid_evaluation"
      "the vault host returned an identity evaluation that does not verify")

/-! ## The host -/

def poprfBlindEvaluate (drawn : Except String Bytes) (secretKey info blinded : Bytes)
    (random64 : Option Bytes) : Except VaultClientError (Bytes × Bytes) := do
  let k ← decodeScalar S secretKey
  let m ← infoScalar S info
  let t := k + m
  if t = 0 then .error (.msg "oprf_failed" "inverse error")
  else
    let d ← decodeElement S blinded
    let c := t⁻¹ • d
    let proof ← generateProof S drawn modePoprf t (mulGen S t) c d random64
    pure (enc S c, proof)

def identityBlindEvaluateForTests (drawn : Except String Bytes) (secretKey blinded : Bytes)
    (random64 : Option Bytes) : Except VaultClientError (Bytes × Bytes) := do
  let k ← decodeScalar S secretKey
  let c ← decodeElement S blinded
  let d := k • c
  let proof ← generateProof S drawn modeVoprf k (mulGen S k) c d random64
  pure (enc S d, proof)

/-- Public key for a 32-byte secret scalar. -/
def oprfPublicKey (secretKey : Bytes) : Except VaultClientError Bytes := do
  let k ← decodeScalar S secretKey
  pure (enc S (mulGen S k))

/-! ## A client and an honest host -/

/-- The pepper output of a client whose blinded input is evaluated under `secretKey`. -/
def poprfOutput (drawn hostDrawn : Except String Bytes) (input info secretKey : Bytes)
    (blind random64 : Option Bytes) : Except VaultClientError Bytes := do
  let publicKey ← oprfPublicKey S secretKey
  let state ← poprfBlind S drawn input info publicKey blind
  let (evaluated, proof) ← poprfBlindEvaluate S hostDrawn secretKey info state.blinded random64
  poprfFinalize S state evaluated proof

def identityOutput (drawn hostDrawn : Except String Bytes) (input secretKey : Bytes)
    (blind random64 : Option Bytes) : Except VaultClientError Bytes := do
  let publicKey ← oprfPublicKey S secretKey
  let state ← identityBlind S drawn input blind
  let (evaluated, proof) ← identityBlindEvaluateForTests S hostDrawn secretKey
      state.blinded random64
  identityFinalize S state evaluated proof publicKey

/-! ## Correctness -/

section
variable {S} (hS : S.Lawful)

omit [DecidableEq F] [DecidableEq E] in
theorem oprfPublicKey_eq {secretKey : Bytes} {k : F} (hk : decodeScalar S secretKey = .ok k) :
    oprfPublicKey S secretKey = .ok (enc S (mulGen S k)) := by
  simp only [oprfPublicKey, hk, ok_bind]
  rfl

omit [DecidableEq F] [DecidableEq E] in
/-- The blind `r` is removed from an evaluation of `r • h`. -/
theorem unblind {r : F} (hr : r ≠ 0) (s : F) (h : E) : r⁻¹ • s • r • h = s • h := by
  rw [smul_comm s r, inv_smul_smul₀ hr]

include hS

theorem poprfBlind_eq {drawn : Except String Bytes} {input info : Bytes} {blind : Option Bytes}
    {k m r : F} {h : E} (hk : k ≠ 0) (hm : infoScalar S info = .ok m) (ht : k + m ≠ 0)
    (hr : blindScalar S drawn blind = .ok r) (hh : hashToGroup S input modePoprf = .ok h)
    (h0 : h ≠ 0) :
    poprfBlind S drawn input info (enc S (mulGen S k)) blind =
      .ok ⟨input, info, encScalar S r, enc S (r • h), enc S (mulGen S (k + m))⟩ := by
  have htw : mulGen S m + mulGen S k = mulGen S (k + m) := by
    rw [mulGen, mulGen, mulGen, add_comm, add_smul]
  simp only [poprfBlind, hm, decodeElement_enc hS (smul_basepoint_ne hS hk), ok_bind, htw,
    if_neg (smul_basepoint_ne hS ht), hr, hh, if_neg h0]
  rfl

theorem poprfBlindEvaluate_eq {drawn : Except String Bytes} {secretKey info : Bytes}
    {random64 : Option Bytes} {k m ρ : F} {d : E} (hk : decodeScalar S secretKey = .ok k)
    (hm : infoScalar S info = .ok m) (ht : k + m ≠ 0)
    (hρ : randomScalar S drawn random64 = .ok ρ) (hd : d ≠ 0) :
    ∃ proof, poprfBlindEvaluate S drawn secretKey info (enc S d) random64 =
        .ok (enc S ((k + m)⁻¹ • d), proof) ∧
      verifyProof S modePoprf (mulGen S (k + m)) ((k + m)⁻¹ • d) d proof = true := by
  obtain ⟨proof, hp, hv⟩ := verifyProof_generateProof hS hρ modePoprf (k + m) ((k + m)⁻¹ • d)
  rw [smul_inv_smul₀ ht] at hp hv
  refine ⟨proof, ?_, hv⟩
  simp only [poprfBlindEvaluate, hk, hm, ok_bind, if_neg ht, decodeElement_enc hS hd, hp]
  rfl

theorem identityBlindEvaluate_eq {drawn : Except String Bytes} {secretKey : Bytes}
    {random64 : Option Bytes} {k ρ : F} {c : E} (hk : decodeScalar S secretKey = .ok k)
    (hρ : randomScalar S drawn random64 = .ok ρ) (hc : c ≠ 0) :
    ∃ proof, identityBlindEvaluateForTests S drawn secretKey (enc S c) random64 =
        .ok (enc S (k • c), proof) ∧
      verifyProof S modeVoprf (mulGen S k) c (k • c) proof = true := by
  obtain ⟨proof, hp, hv⟩ := verifyProof_generateProof hS hρ modeVoprf k c
  refine ⟨proof, ?_, hv⟩
  simp only [identityBlindEvaluateForTests, hk, ok_bind, decodeElement_enc hS hc, hp]
  rfl

theorem poprf_correct {drawn hostDrawn : Except String Bytes} {input info secretKey : Bytes}
    {blind random64 : Option Bytes} {k m r ρ : F} {h : E}
    (hk : decodeScalar S secretKey = .ok k) (hk0 : k ≠ 0) (hm : infoScalar S info = .ok m)
    (ht : k + m ≠ 0) (hh : hashToGroup S input modePoprf = .ok h) (h0 : h ≠ 0)
    (hr : blindScalar S drawn blind = .ok r) (hr0 : r ≠ 0)
    (hρ : randomScalar S hostDrawn random64 = .ok ρ) :
    poprfOutput S drawn hostDrawn input info secretKey blind random64 =
      .ok (finalizeHash S input ((k + m)⁻¹ • h) (some info)) := by
  have hd : r • h ≠ 0 := smul_ne_zero hr0 h0
  have hc : (k + m)⁻¹ • r • h ≠ 0 := smul_ne_zero (inv_ne_zero ht) hd
  obtain ⟨proof, he, hv⟩ := poprfBlindEvaluate_eq hS hk hm ht hρ hd
  simp only [poprfOutput, oprfPublicKey_eq hk, ok_bind, poprfBlind_eq hS hk0 hm ht hr hh h0, he]
  simp only [poprfFinalize, decodeElement_enc hS hc, decodeElement_enc hS (smul_basepoint_ne hS ht),
    decodeElement_enc hS hd, ok_bind, hv, ↓reduceIte, decodeScalar_encScalar hS]
  rw [unblind hr0]
  rfl

theorem identity_correct {drawn hostDrawn : Except String Bytes} {input secretKey : Bytes}
    {blind random64 : Option Bytes} {k r ρ : F} {h : E}
    (hk : decodeScalar S secretKey = .ok k) (hk0 : k ≠ 0)
    (hh : hashToGroup S input modeOprf = .ok h) (h0 : h ≠ 0)
    (hr : blindScalar S drawn blind = .ok r) (hr0 : r ≠ 0)
    (hρ : randomScalar S hostDrawn random64 = .ok ρ) :
    identityOutput S drawn hostDrawn input secretKey blind random64 =
      .ok (finalizeHash S input (k • h) none) := by
  have hc : r • h ≠ 0 := smul_ne_zero hr0 h0
  have hd : k • r • h ≠ 0 := smul_ne_zero hk0 hc
  have hb : identityBlind S drawn input blind = .ok ⟨input, encScalar S r, enc S (r • h)⟩ := by
    simp only [identityBlind, hr, hh, ok_bind, if_neg h0]
    rfl
  obtain ⟨proof, he, hv⟩ := identityBlindEvaluate_eq hS hk hρ hc
  simp only [identityOutput, oprfPublicKey_eq hk, ok_bind, hb, he]
  simp only [identityFinalize, decodeElement_enc hS hd,
    decodeElement_enc hS (smul_basepoint_ne hS hk0), decodeElement_enc hS hc, ok_bind, hv,
    ↓reduceIte, decodeScalar_encScalar hS]
  rw [unblind hr0]
  rfl

/-- **With an honest host the client gets the hash of its evaluated input**, whatever the blind `r`
and the randomness `ρ` of the proof. -/
theorem oprf_correct {drawn hostDrawn : Except String Bytes} {input secretKey : Bytes}
    {blind random64 : Option Bytes} {k r ρ : F}
    (hk : decodeScalar S secretKey = .ok k) (hk0 : k ≠ 0)
    (hr : blindScalar S drawn blind = .ok r) (hr0 : r ≠ 0)
    (hρ : randomScalar S hostDrawn random64 = .ok ρ) :
    (∀ info m h, infoScalar S info = .ok m → k + m ≠ 0 →
      hashToGroup S input modePoprf = .ok h → h ≠ 0 →
      poprfOutput S drawn hostDrawn input info secretKey blind random64 =
        .ok (finalizeHash S input ((k + m)⁻¹ • h) (some info))) ∧
    (∀ h, hashToGroup S input modeOprf = .ok h → h ≠ 0 →
      identityOutput S drawn hostDrawn input secretKey blind random64 =
        .ok (finalizeHash S input (k • h) none)) :=
  ⟨fun _ _ _ hm ht hh h0 => poprf_correct hS hk hk0 hm ht hh h0 hr hr0 hρ,
    fun _ hh h0 => identity_correct hS hk hk0 hh h0 hr hr0 hρ⟩

end

end

/-! ## A group of seven elements -/

instance fact_prime_seven : Fact (Nat.Prime 7) := ⟨by decide⟩

/-- 32 bytes, the first of them the value. -/
def seven.encode (z : ZMod 7) : Bytes := UInt8.ofNat z.val :: List.replicate 31 0

def seven.decode (b : Bytes) : Option (ZMod 7) :=
  let z : ZMod 7 := ((b.headD 0).toNat : ZMod 7)
  if seven.encode z = b then some z else none

/-- The integers modulo 7, and a hash that only counts bytes. -/
def seven : Suite (ZMod 7) (ZMod 7) where
  basepoint := 3
  compress := seven.encode
  decompress := seven.decode
  toBytes := seven.encode
  fromCanonicalBytes := seven.decode
  fromUniformBytes b := 1 + ((b.headD 0).toNat % 6 : Nat)
  fromBytesModOrderWide b := ((b.headD 0).toNat : Nat)
  sha512 b := List.replicate 64 (UInt8.ofNat b.length)

theorem seven_lawful : seven.Lawful where
  basepoint_ne := by decide
  compress_length _ := by simp [seven, seven.encode]
  decompress_compress := by decide
  toBytes_length _ := by simp [seven, seven.encode]
  fromCanonicalBytes_toBytes := by decide

theorem oprf_correct_seven :
    poprfOutput seven (.error "") (.error "") (utf8 "word") (pepperInfo "v" "s") (seven.encode 2)
        (some (seven.encode 5)) (some (List.replicate 64 4)) =
      .ok (finalizeHash seven (utf8 "word") ((2 + 2 : ZMod 7)⁻¹ • (5 : ZMod 7))
        (some (pepperInfo "v" "s"))) ∧
    identityOutput seven (.error "") (.error "") (utf8 "word") (seven.encode 2)
        (some (seven.encode 5)) (some (List.replicate 64 4)) =
      .ok (finalizeHash seven (utf8 "word") ((2 : ZMod 7) • (5 : ZMod 7)) none) :=
  have hk : decodeScalar seven (seven.encode 2) = .ok 2 := rfl
  have hr : blindScalar seven (.error "") (some (seven.encode 5)) = .ok 5 := rfl
  have hρ : randomScalar seven (.error "") (some (List.replicate 64 4)) = .ok 4 := rfl
  ⟨(oprf_correct seven_lawful hk (by decide) hr (by decide) hρ).1 (pepperInfo "v" "s") 2 5 rfl
    (by decide) rfl (by decide),
    (oprf_correct seven_lawful hk (by decide) hr (by decide) hρ).2 5 rfl (by decide)⟩

/-- The key 0 has the identity for its public key, which `poprf_blind` refuses to decode. -/
theorem poprfOutput_zero_key :
    decodeScalar seven (seven.encode 0) = .ok 0 ∧
    infoScalar seven (pepperInfo "v" "s") = .ok 2 ∧ (0 + 2 : ZMod 7) ≠ 0 ∧
    hashToGroup seven (utf8 "word") modePoprf = .ok 5 ∧
    blindScalar seven (.error "") (some (seven.encode 5)) = .ok 5 ∧
    randomScalar seven (.error "") (some (List.replicate 64 4)) = .ok 4 ∧
    poprfOutput seven (.error "") (.error "") (utf8 "word") (pepperInfo "v" "s") (seven.encode 0)
        (some (seven.encode 5)) (some (List.replicate 64 4)) =
      .error (.msg "invalid_evaluation" "identity element") :=
  ⟨rfl, rfl, by decide, rfl, rfl, rfl, rfl⟩

end Oprf
