import SdkPubkey.Ckvf.Format
import SdkPubkey.Lib.EncodedGroup
import SdkPubkey.Vault.Calls

/-!
# RFC 9497 building blocks for `ristretto255-SHA512`

`crates/scomm-vault/src/oprf/rfc9497.rs`. The group and SHA-512 are a `Suite`; a random scalar is
reduced from `seed64`, or from `drawn` when there is none.

* `hashToScalar_total`: the parameters of the hash are in range.
* `verifyProof_generateProof`: the host's proof verifies.
-/

namespace Oprf

open Ckvf Lib Vault

/-- The group of ristretto255 and SHA-512. -/
structure Suite (F E : Type) extends EncodedGroup F E where
  sha512 : Bytes → Bytes

def oprfSuite : String := "ristretto255-SHA512"
def modeOprf : UInt8 := 0x00
def modeVoprf : UInt8 := 0x01
def modePoprf : UInt8 := 0x02

def contextString (mode : UInt8) : Bytes := utf8 "OPRFV1-" ++ [mode] ++ utf8 "-" ++ utf8 oprfSuite

/-- `I2OSP(len(x), 2) || x`. -/
def lp (x : Bytes) : Bytes := i2osp x.length 2 ++ x

/-! ## Hashing -/

/-- The blocks after the first: each hashes the XOR of `b0` with the one before. -/
def expandBlocks (sha512 : Bytes → Bytes) (b0 dstPrime : Bytes) : (i n : Nat) →
    (prev : Bytes) → Bytes
  | _, 0, _ => []
  | i, n + 1, prev =>
    let x := List.zipWith (· ^^^ ·) b0 prev
    let next := sha512 (x ++ [UInt8.ofNat i] ++ dstPrime)
    next ++ expandBlocks sha512 b0 dstPrime (i + 1) n next

/-- `expand_message_xmd` with SHA-512. -/
def expandMessageXmdSha512 (sha512 : Bytes → Bytes) (msg dst : Bytes) (len : Nat) :
    Except VaultClientError Bytes :=
  if len = 0 ∨ len > 255 * 64 ∨ dst.length > 255 then
    .error (.msg "oprf_failed" "expand_message_xmd parameters out of range")
  else
    let ell := (len + 64 - 1) / 64
    let dstPrime := dst ++ [UInt8.ofNat dst.length]
    let b0 := sha512 (List.replicate 128 0 ++ msg ++ i2osp len 2 ++ [0] ++ dstPrime)
    let prev := sha512 (b0 ++ [1] ++ dstPrime)
    .ok ((prev ++ expandBlocks sha512 b0 dstPrime 2 (ell - 1) prev).take len)

section
variable {F E : Type} (S : Suite F E)

def hashToGroup (input : Bytes) (mode : UInt8) : Except VaultClientError E := do
  let dst := utf8 "HashToGroup-" ++ contextString mode
  let uniform ← expandMessageXmdSha512 S.sha512 input dst 64
  pure (S.fromUniformBytes uniform)

def hashToScalar (input : Bytes) (mode : UInt8) : Except VaultClientError F := do
  let dst := utf8 "HashToScalar-" ++ contextString mode
  let uniform ← expandMessageXmdSha512 S.sha512 input dst 64
  pure (S.fromBytesModOrderWide uniform)

theorem contextString_length (mode : UInt8) : (contextString mode).length = 28 := by
  simp only [contextString, List.length_append, List.length_singleton]
  decide

theorem expandMessage_total (msg dst : Bytes) (h : dst.length ≤ 255) :
    ∃ b, expandMessageXmdSha512 S.sha512 msg dst 64 = .ok b := by
  unfold expandMessageXmdSha512
  rw [if_neg (by omega)]
  exact ⟨_, rfl⟩

theorem hashToScalar_total (input : Bytes) (mode : UInt8) :
    ∃ s, hashToScalar S input mode = .ok s := by
  have hl : (utf8 "HashToScalar-" ++ contextString mode).length = 41 := by
    rw [List.length_append, contextString_length]
    decide
  obtain ⟨b, hb⟩ := expandMessage_total S input (utf8 "HashToScalar-" ++ contextString mode)
    (by omega)
  refine ⟨S.fromBytesModOrderWide b, ?_⟩
  simp only [hashToScalar, hb]
  rfl

end

/-! ## Scalars and elements -/

section
variable {F E : Type} [Field F] [AddCommGroup E] [Module F E] [DecidableEq F] [DecidableEq E]
  (S : Suite F E)

/-- `seed64`, or the 64 bytes the system draws. -/
def seedBytes (drawn : Except String Bytes) : (seed64 : Option Bytes) →
    Except VaultClientError Bytes
  | some s => if s.length = 64 then .ok s else .error (.msg "oprf_failed" "seed must be 64 bytes")
  | none => drawn.mapError (.msg "oprf_failed")

def randomScalar (drawn : Except String Bytes) (seed64 : Option Bytes) :
    Except VaultClientError F := do
  let bytes ← seedBytes drawn seed64
  let s := S.fromBytesModOrderWide bytes
  if s = 0 then .error (.msg "oprf_failed" "sampled a zero scalar") else pure s

def decodeScalar (bytes : Bytes) : Except VaultClientError F :=
  if bytes.length = 32 then
    match S.fromCanonicalBytes bytes with
    | some s => .ok s
    | none => .error (.msg "invalid_evaluation" "non-canonical scalar")
  else .error (.msg "invalid_evaluation" "scalar must be 32 bytes")

/-- Canonical, non-identity ristretto255 element. -/
def decodeElement (bytes : Bytes) : Except VaultClientError E :=
  if bytes.length = 32 then
    match S.decompress bytes with
    | some e =>
      if e = 0 then .error (.msg "invalid_evaluation" "identity element") else .ok e
    | none => .error (.msg "invalid_evaluation" "non-canonical element")
  else .error (.msg "invalid_evaluation" "element must be 32 bytes")

def enc (e : E) : Bytes := S.compress e
def encScalar (s : F) : Bytes := S.toBytes s
def mulGen (s : F) : E := s • S.basepoint

/-! ## Proofs -/

/-- `m` and `z` of a pair `c`, `d`; the host, who has the key `k`, gets `z` from `m`. -/
def composites (mode : UInt8) (b c d : E) (k : Option F) : Except VaultClientError (E × E) := do
  let seedDst := utf8 "Seed-" ++ contextString mode
  let seed := S.sha512 (lp (enc S b) ++ lp seedDst)
  let diInput := lp seed ++ i2osp 0 2 ++ lp (enc S c) ++ lp (enc S d) ++ utf8 "Composite"
  let di ← hashToScalar S diInput mode
  let m := di • c
  let z := match k with
    | some k => k • m
    | none => di • d
  pure (m, z)

def challenge (mode : UInt8) (b m z t2 t3 : E) : Except VaultClientError F :=
  hashToScalar S (lp (enc S b) ++ lp (enc S m) ++ lp (enc S z) ++ lp (enc S t2) ++ lp (enc S t3) ++
    utf8 "Challenge") mode

/-- The check of `verify_proof`, where an error of a part is a failed check. -/
def checkProof (mode : UInt8) (b c d : E) (proof : Bytes) : Except VaultClientError Bool := do
  let cs ← decodeScalar S (proof.take 32)
  let ss ← decodeScalar S (proof.drop 32)
  let (m, z) ← composites S mode b c d none
  let t2 := ss • S.basepoint + cs • b
  let t3 := ss • m + cs • z
  let expected ← challenge S mode b m z t2 t3
  pure (decide (expected = cs))

/-- `VerifyProof` for one element, with the generator as A. -/
def verifyProof (mode : UInt8) (b c d : E) (proof : Bytes) : Bool :=
  if proof.length = 64 then
    match checkProof S mode b c d proof with
    | .ok v => v
    | .error _ => false
  else false

/-- `GenerateProof` for one element. -/
def generateProof (drawn : Except String Bytes) (mode : UInt8) (k : F) (b c d : E)
    (random64 : Option Bytes) : Except VaultClientError Bytes := do
  let (m, z) ← composites S mode b c d (some k)
  let r ← randomScalar S drawn random64
  let t2 := mulGen S r
  let t3 := r • m
  let cs ← challenge S mode b m z t2 t3
  let ss := r - cs * k
  pure (encScalar S cs ++ encScalar S ss)

/-- `Hash(I2OSP(len(input),2) || input || [info] || I2OSP(len(N),2) || N || "Finalize")`. -/
def finalizeHash (input : Bytes) (unblinded : E) (info : Option Bytes) : Bytes :=
  let data := lp input ++ (match info with
    | some info => lp info
    | none => [])
  S.sha512 (data ++ lp (enc S unblinded) ++ utf8 "Finalize")

/-! ## Decoding what was encoded -/

section
variable {S} (hS : S.Lawful)
include hS

omit [Field F] [Module F E] [DecidableEq F] [DecidableEq E] in
theorem decodeScalar_encScalar (s : F) :
    decodeScalar S (encScalar S s) = .ok s := by
  unfold decodeScalar encScalar
  rw [if_pos (hS.toBytes_length s), hS.fromCanonicalBytes_toBytes]

omit [Field F] [Module F E] [DecidableEq F] in
theorem decodeElement_enc {e : E} (he : e ≠ 0) : decodeElement S (enc S e) = .ok e := by
  unfold decodeElement enc
  rw [if_pos (hS.compress_length e), hS.decompress_compress]
  exact if_neg he

omit [DecidableEq F] [DecidableEq E] in
theorem smul_basepoint_ne {s : F} (hs : s ≠ 0) : mulGen S s ≠ 0 :=
  smul_ne_zero hs hS.basepoint_ne

/-! ## The proof verifies -/

omit hS [DecidableEq E] [DecidableEq F] in
/-- Prover and verifier get the same composites when `d` is `k • c`. -/
theorem composites_eq (mode : UInt8) (b c : E) (k : F) :
    composites S mode b c (k • c) (some k) = composites S mode b c (k • c) none := by
  unfold composites
  obtain ⟨di, hdi⟩ := hashToScalar_total S (lp (S.sha512 (lp (enc S b) ++
    lp (utf8 "Seed-" ++ contextString mode))) ++ i2osp 0 2 ++ lp (enc S c) ++ lp (enc S (k • c)) ++
    utf8 "Composite") mode
  dsimp only
  rw [hdi]
  show Except.ok (di • c, k • di • c) = Except.ok (di • c, di • k • c)
  rw [smul_comm]

omit hS [DecidableEq E] [DecidableEq F] in
theorem composites_smul {mode : UInt8} {b c : E} {k : F} {m z : E}
    (h : composites S mode b c (k • c) (some k) = .ok (m, z)) : z = k • m := by
  obtain ⟨di, -, h⟩ := ok_of_bind h
  cases h
  rfl

omit [DecidableEq E] in
/-- **The host's proof verifies**: `generate_proof` succeeds, and `verify_proof` accepts. -/
theorem verifyProof_generateProof {drawn : Except String Bytes} {random64 : Option Bytes} {r : F}
    (hr : randomScalar S drawn random64 = .ok r) (mode : UInt8) (k : F) (c : E) :
    ∃ proof, generateProof S drawn mode k (mulGen S k) c (k • c) random64 = .ok proof ∧
      verifyProof S mode (mulGen S k) c (k • c) proof = true := by
  have hmz : ∃ m z, composites S mode (mulGen S k) c (k • c) (some k) = .ok (m, z) := by
    obtain ⟨di, hdi⟩ := hashToScalar_total S _ mode
    refine ⟨di • c, k • di • c, ?_⟩
    unfold composites
    dsimp only
    rw [hdi]
    rfl
  obtain ⟨m, z, hp⟩ := hmz
  obtain rfl := composites_smul hp
  have hv := hp
  rw [composites_eq] at hv
  obtain ⟨cs, hc⟩ : ∃ cs, challenge S mode (mulGen S k) m (k • m) (mulGen S r) (r • m) = .ok cs :=
    hashToScalar_total S _ mode
  refine ⟨encScalar S cs ++ encScalar S (r - cs * k), ?_, ?_⟩
  · simp only [generateProof, hp, hr, ok_bind, hc]
    rfl
  · have hlen : (encScalar S cs).length = 32 := hS.toBytes_length cs
    have hlen' : (encScalar S (r - cs * k)).length = 32 := hS.toBytes_length _
    have ht2 : (r - cs * k) • S.basepoint + cs • mulGen S k = mulGen S r :=
      response_smul r cs k S.basepoint
    have ht3 : (r - cs * k) • m + cs • k • m = r • m := response_smul r cs k m
    have hcheck : checkProof S mode (mulGen S k) c (k • c)
        (encScalar S cs ++ encScalar S (r - cs * k)) = .ok true := by
      unfold checkProof
      rw [List.take_left' hlen, List.drop_left' hlen, decodeScalar_encScalar hS,
        decodeScalar_encScalar hS, hv]
      show (challenge S mode (mulGen S k) m (k • m)
        ((r - cs * k) • S.basepoint + cs • mulGen S k) ((r - cs * k) • m + cs • k • m) >>=
          fun expected => pure (decide (expected = cs))) = _
      rw [ht2, ht3, hc]
      show Except.ok (decide (cs = cs)) = _
      rw [decide_eq_true rfl]
    unfold verifyProof
    rw [if_pos (by rw [List.length_append, hlen, hlen']), hcheck]

end

end

end Oprf
