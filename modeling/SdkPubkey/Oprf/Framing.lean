import SdkPubkey.Lib.Framing
import SdkPubkey.Oprf.Modes

/-!
# The framing of the hash inputs

What `crates/scomm-vault/src/oprf/` hashes is a concatenation of fields behind two-byte lengths
(`lp`). No function checks the length of an input or of an `info`, and `i2osp` writes a length
modulo `2 ^ 16`. The bytes say what was hashed exactly when these fields are shorter than that
(`hash_inputs_framed`).
-/

namespace Oprf

open Ckvf Lib Vault

section
variable {F E : Type} (S : Suite F E)

/-! ## What is hashed -/

def finalizeInput (input : Bytes) (unblinded : E) (info : Option Bytes) : Bytes :=
  lp input ++ (match info with
    | some info => lp info
    | none => []) ++ lp (enc S unblinded) ++ utf8 "Finalize"

def infoInput (info : Bytes) : Bytes := utf8 "Info" ++ lp info

def seedInput (mode : UInt8) (b : E) : Bytes :=
  lp (enc S b) ++ lp (utf8 "Seed-" ++ contextString mode)

def compositeInput (seed : Bytes) (c d : E) : Bytes :=
  lp seed ++ i2osp 0 2 ++ lp (enc S c) ++ lp (enc S d) ++ utf8 "Composite"

def challengeInput (b m z t2 t3 : E) : Bytes :=
  lp (enc S b) ++ lp (enc S m) ++ lp (enc S z) ++ lp (enc S t2) ++ lp (enc S t3) ++ utf8 "Challenge"

theorem finalizeHash_eq (input : Bytes) (unblinded : E) (info : Option Bytes) :
    finalizeHash S input unblinded info = S.sha512 (finalizeInput S input unblinded info) := rfl

theorem infoScalar_eq (info : Bytes) :
    infoScalar S info = hashToScalar S (infoInput info) modePoprf := rfl

theorem challenge_eq (mode : UInt8) (b m z t2 t3 : E) :
    challenge S mode b m z t2 t3 = hashToScalar S (challengeInput S b m z t2 t3) mode := rfl

theorem composites_eq_hash [Field F] [AddCommGroup E] [Module F E] (mode : UInt8) (b c d : E)
    (k : Option F) : composites S mode b c d k = (do
      let di ← hashToScalar S (compositeInput S (S.sha512 (seedInput S mode b)) c d) mode
      let m := di • c
      pure (m, match k with
        | some k => k • m
        | none => di • d)) := rfl

/-! ## Being unambiguous -/

/-- The two bytes in front of `x` are the length of `x`. -/
def LengthEncoded (x : Bytes) : Prop := os2ip ((lp x).take 2) = x.length

/-- The lengths are encoded, and no other arguments of this mode have these bytes: a mode always has
an `info`, or never. -/
structure FinalizeFramed (input : Bytes) (unblinded : E) (info : Option Bytes) : Prop where
  inputLength : LengthEncoded input
  infoLength : ∀ i, info = some i → LengthEncoded i
  elementLength : LengthEncoded (enc S unblinded)
  determined : ∀ input' unblinded' info', info'.isSome = info.isSome →
    finalizeInput S input' unblinded' info' = finalizeInput S input unblinded info →
    input' = input ∧ unblinded' = unblinded ∧ info' = info

structure InfoFramed (info : Bytes) : Prop where
  length : LengthEncoded info
  determined : ∀ info', infoInput info' = infoInput info → info' = info

structure CompositesFramed (mode : UInt8) (b c d : E) : Prop where
  lengths : LengthEncoded (enc S b) ∧ LengthEncoded (utf8 "Seed-" ++ contextString mode) ∧
    LengthEncoded (S.sha512 (seedInput S mode b)) ∧ LengthEncoded (enc S c) ∧
        LengthEncoded (enc S d)
  determined : ∀ b' c' d', seedInput S mode b' = seedInput S mode b →
    compositeInput S (S.sha512 (seedInput S mode b')) c' d' =
      compositeInput S (S.sha512 (seedInput S mode b)) c d → b' = b ∧ c' = c ∧ d' = d

structure ChallengeFramed (b m z t2 t3 : E) : Prop where
  lengths : ∀ e ∈ [b, m, z, t2, t3], LengthEncoded (enc S e)
  determined : ∀ b' m' z' t2' t3', challengeInput S b' m' z' t2' t3' =
      challengeInput S b m z t2 t3 →
    b' = b ∧ m' = m ∧ z' = z ∧ t2' = t2 ∧ t3' = t3

/-- The bound of RFC 9497 on inputs. -/
def Fits (x : Bytes) : Prop := x.length < 2 ^ 16

/-! ## Fields -/

theorem lengthEncoded_iff {x : Bytes} : LengthEncoded x ↔ Fits x := by
  have htake : (lp x).take 2 = i2osp x.length 2 := List.take_left' (i2osp_length _ 2)
  unfold LengthEncoded Fits
  rw [htake, os2ip_i2osp]
  show x.length % 65536 = x.length ↔ x.length < 65536
  omega

/-- A field is read back when the lengths are right, or when both fields are as long. -/
theorem lp_inj {x y s t : Bytes} (hl : x.length = y.length) (h : lp x ++ s = lp y ++ t) :
    x = y ∧ s = t :=
  framed_append_inj_of_length (w := 2) hl h

theorem lp_mod {x y s t : Bytes} (h : lp x ++ s = lp y ++ t) :
    x.length % 65536 = y.length % 65536 :=
  framed_mod (w := 2) h

theorem lp_length (x : Bytes) : (lp x).length = 2 + x.length := framed_length 2 x

end

section
variable {F E : Type} [Field F] [AddCommGroup E] [Module F E] {S : Suite F E} (hS : S.Lawful)
include hS

omit [Field F] [Module F E] in
theorem enc_inj {e e' : E} (h : enc S e = enc S e') : e = e' := by
  have hd := congrArg S.decompress h
  unfold enc at hd
  rw [hS.decompress_compress, hS.decompress_compress] at hd
  exact Option.some.inj hd

omit [Field F] [Module F E] in
theorem enc_length (e : E) : (enc S e).length = 32 := hS.compress_length e

omit [Field F] [Module F E] in
theorem lengthEncoded_enc (e : E) : LengthEncoded (enc S e) := by
  rw [lengthEncoded_iff, Fits, enc_length hS]
  decide

omit [Field F] [Module F E] in
/-- An element is read back, whatever follows it. -/
theorem lp_enc_inj {e e' : E} {s t : Bytes} (h : lp (enc S e) ++ s = lp (enc S e') ++ t) :
    e = e' ∧ s = t := by
  obtain ⟨he, hst⟩ := lp_inj (by rw [enc_length hS, enc_length hS]) h
  exact ⟨enc_inj hS he, hst⟩

/-! ## The call sites -/

omit [Field F] [Module F E] in
/-- What stands after the `info`, or after the input, has a fixed length. -/
theorem finalizeInput_length (input : Bytes) (unblinded : E) (info : Option Bytes) :
    (finalizeInput S input unblinded info).length = 44 + input.length +
      (match info with
        | some i => 2 + i.length
        | none => 0) := by
  have hf : (utf8 "Finalize").length = 8 := by decide
  cases info with
  | none =>
    simp only [finalizeInput, List.length_append, lp_length, enc_length hS, hf, List.length_nil]
    omega
  | some i =>
    simp only [finalizeInput, List.length_append, lp_length, enc_length hS, hf]
    omega

omit [Field F] [Module F E] in
theorem finalizeInput_determined {input input' : Bytes} {e e' : E} {info info' : Option Bytes}
    (hi : Fits input) (hj : ∀ i, info = some i → Fits i) (hp : info'.isSome = info.isSome)
    (h : finalizeInput S input' e' info' = finalizeInput S input e info) :
    input' = input ∧ e' = e ∧ info' = info := by
  have hlen := congrArg List.length h
  rw [finalizeInput_length hS, finalizeInput_length hS] at hlen
  unfold Fits at hi
  cases info with
  | none =>
    cases info' with
    | some j' => cases hp
    | none =>
      simp only [finalizeInput, List.append_nil, List.append_assoc] at h
      obtain ⟨hin, h⟩ := lp_inj (by dsimp only at hlen; omega) h
      obtain ⟨he, -⟩ := lp_enc_inj hS h
      exact ⟨hin, he, rfl⟩
  | some j =>
    cases info' with
    | none => cases hp
    | some j' =>
      have hj := hj j rfl
      unfold Fits at hj
      simp only [finalizeInput, List.append_assoc] at h
      -- the prefixes agree modulo `2 ^ 16`, and the rest of the bytes cannot make up for the
      -- difference
      have hmod := lp_mod h
      dsimp only at hlen
      obtain ⟨hin, h⟩ := lp_inj (by omega) h
      obtain ⟨hinfo, h⟩ := lp_inj (by rw [hin] at hlen; omega) h
      obtain ⟨he, -⟩ := lp_enc_inj hS h
      exact ⟨hin, he, by rw [hinfo]⟩

omit [Field F] [Module F E] in
theorem finalizeFramed_iff (input : Bytes) (e : E) (info : Option Bytes) :
    FinalizeFramed S input e info ↔ Fits input ∧ ∀ i, info = some i → Fits i := by
  constructor
  · intro h
    exact ⟨lengthEncoded_iff.1 h.inputLength, fun i hi => lengthEncoded_iff.1 (h.infoLength i hi)⟩
  · intro hx
    obtain ⟨hi, hj⟩ := hx
    exact ⟨lengthEncoded_iff.2 hi, fun i h => lengthEncoded_iff.2 (hj i h), lengthEncoded_enc hS e,
      fun input' e' info' hp h => finalizeInput_determined hS hi hj hp h⟩

omit [Field F] [Module F E] in
/-- Whether there is an `info` is determined when the fields fit. -/
theorem finalizeInput_presence {input input' : Bytes} {e e' : E} {info info' : Option Bytes}
    (hi : Fits input) (hj : ∀ i, info = some i → Fits i) (hi' : Fits input')
    (hj' : ∀ i, info' = some i → Fits i)
    (h : finalizeInput S input' e' info' = finalizeInput S input e info) :
    info'.isSome = info.isSome := by
  have hlen := congrArg List.length h
  rw [finalizeInput_length hS, finalizeInput_length hS] at hlen
  have hmod : input'.length % 65536 = input.length % 65536 := by
    simp only [finalizeInput, List.append_assoc] at h
    exact lp_mod h
  unfold Fits at hi hi'
  cases info with
  | none =>
    cases info' with
    | none => rfl
    | some j' =>
      dsimp only at hlen
      omega
  | some j =>
    cases info' with
    | none =>
      dsimp only at hlen
      omega
    | some j' => rfl

omit hS [Field F] [AddCommGroup E] [Module F E] in
theorem infoFramed_iff (info : Bytes) : InfoFramed info ↔ Fits info := by
  constructor
  · intro h
    exact lengthEncoded_iff.1 h.length
  · intro h
    refine ⟨lengthEncoded_iff.2 h, fun info' he => ?_⟩
    have hlp := List.append_cancel_left he
    have hlen := congrArg List.length hlp
    rw [lp_length, lp_length] at hlen
    exact (List.append_inj hlp (by rw [i2osp_length, i2osp_length])).2

omit [Field F] [Module F E] in
theorem compositesFramed (hsha : ∀ b, (S.sha512 b).length = 64) (mode : UInt8) (b c d : E) :
    CompositesFramed S mode b c d := by
  have hdst : (utf8 "Seed-" ++ contextString mode).length = 33 := by
    rw [List.length_append, contextString_length]
    decide
  constructor
  · refine ⟨lengthEncoded_enc hS b, lengthEncoded_iff.2 ?_, lengthEncoded_iff.2 ?_,
      lengthEncoded_enc hS c, lengthEncoded_enc hS d⟩
    · rw [Fits, hdst]
      decide
    · rw [Fits, hsha]
      decide
  · intro b' c' d' hb h
    obtain ⟨rfl, -⟩ := lp_enc_inj hS hb
    simp only [compositeInput, List.append_assoc] at h
    have h := List.append_cancel_left (List.append_cancel_left h)
    obtain ⟨hc, h⟩ := lp_enc_inj hS h
    obtain ⟨hd, -⟩ := lp_enc_inj hS h
    exact ⟨rfl, hc, hd⟩

omit [Field F] [Module F E] in
theorem challengeFramed (b m z t2 t3 : E) : ChallengeFramed S b m z t2 t3 := by
  refine ⟨fun e _ => lengthEncoded_enc hS e, fun b' m' z' t2' t3' h => ?_⟩
  simp only [challengeInput, List.append_assoc] at h
  obtain ⟨hb, h⟩ := lp_enc_inj hS h
  obtain ⟨hm, h⟩ := lp_enc_inj hS h
  obtain ⟨hz, h⟩ := lp_enc_inj hS h
  obtain ⟨h2, h⟩ := lp_enc_inj hS h
  obtain ⟨h3, -⟩ := lp_enc_inj hS h
  exact ⟨hb, hm, hz, h2, h3⟩

/-- **When the bytes that are hashed say what they are**: always for the proofs, and for an input
and an `info` exactly when they have at most 65535 bytes. The first four parts say which bytes each
function hashes. -/
theorem hash_inputs_framed (hsha : ∀ b, (S.sha512 b).length = 64) :
    (∀ input e info, finalizeHash S input e info = S.sha512 (finalizeInput S input e info)) ∧
    (∀ info, infoScalar S info = hashToScalar S (infoInput info) modePoprf) ∧
    (∀ mode b c d k, composites S mode b c d k = (do
      let di ← hashToScalar S (compositeInput S (S.sha512 (seedInput S mode b)) c d) mode
      let m := di • c
      pure (m, match k with
        | some k => k • m
        | none => di • d))) ∧
    (∀ mode b m z t2 t3,
      challenge S mode b m z t2 t3 = hashToScalar S (challengeInput S b m z t2 t3) mode) ∧
    (∀ input e info, FinalizeFramed S input e info ↔ Fits input ∧ ∀ i, info = some i → Fits i) ∧
    (∀ input (e : E) info input' e' info', (Fits input ∧ ∀ i, info = some i → Fits i) →
      (Fits input' ∧ ∀ i, info' = some i → Fits i) →
      finalizeInput S input' e' info' = finalizeInput S input e info → info'.isSome = info.isSome) ∧
    (∀ info, InfoFramed info ↔ Fits info) ∧
    (∀ mode b c d, CompositesFramed S mode b c d) ∧
    (∀ b m z t2 t3, ChallengeFramed S b m z t2 t3) := by
  refine ⟨?_, ?_, ?_, ?_, ?_, ?_, ?_, ?_, ?_⟩
  · intro input e info
    exact finalizeHash_eq S input e info
  · intro info
    exact infoScalar_eq S info
  · intro mode b c d k
    exact composites_eq_hash S mode b c d k
  · intro mode b m z t2 t3
    exact challenge_eq S mode b m z t2 t3
  · intro input e info
    exact finalizeFramed_iff hS input e info
  · intro input e info input' e' info' hb hb' h
    exact finalizeInput_presence hS hb.1 hb.2 hb'.1 hb'.2 h
  · intro info
    exact infoFramed_iff info
  · intro mode b c d
    exact compositesFramed hS hsha mode b c d
  · intro b m z t2 t3
    exact challengeFramed hS b m z t2 t3

end

theorem hash_inputs_framed_seven :
    FinalizeFramed seven (utf8 "word") 5 (some (pepperInfo "v" "s")) ∧
      finalizeHash seven (utf8 "word") 5 (some (pepperInfo "v" "s")) =
        seven.sha512 (finalizeInput seven (utf8 "word") 5 (some (pepperInfo "v" "s"))) ∧
      CompositesFramed seven modePoprf 6 1 2 := by
  obtain ⟨hfin, -, -, -, hf, -, -, hc, -⟩ := hash_inputs_framed seven_lawful (by simp [seven])
  refine ⟨(hf _ _ _).2 ⟨?_, ?_⟩, hfin _ _ _, hc modePoprf 6 1 2⟩
  · unfold Fits
    decide
  · intro i h
    obtain ⟨rfl⟩ := h
    unfold Fits
    decide

/-- An input of 65536 zeros without an `info` and an `info` of 65536 zeros without an input are
hashed alike. -/
theorem finalizeHash_collides :
    finalizeInput seven (List.replicate 65536 0) 1 (some []) =
        finalizeInput seven [] 1 (some (List.replicate 65536 0)) ∧
      finalizeHash seven (List.replicate 65536 0) 1 (some []) =
        finalizeHash seven [] 1 (some (List.replicate 65536 0)) ∧
      ¬ FinalizeFramed seven [] 1 (some (List.replicate 65536 0)) ∧
      ¬ LengthEncoded (List.replicate 65536 0) := by
  have hz : lp (List.replicate 65536 0) = List.replicate 65538 0 := by
    have hi : i2osp 65536 2 = List.replicate 2 0 := rfl
    unfold lp
    rw [List.length_replicate, hi, List.replicate_append_replicate]
  have he : lp [] = List.replicate 2 0 := rfl
  have hbytes : finalizeInput seven (List.replicate 65536 0) 1 (some []) =
      finalizeInput seven [] 1 (some (List.replicate 65536 0)) := by
    simp only [finalizeInput, hz, he, List.replicate_append_replicate]
  have hlong : ¬ Fits (List.replicate 65536 0) := by
    unfold Fits
    rw [List.length_replicate]
    decide
  have hhash : finalizeHash seven (List.replicate 65536 0) 1 (some []) =
      finalizeHash seven [] 1 (some (List.replicate 65536 0)) := by
    rw [finalizeHash_eq, finalizeHash_eq, hbytes]
  refine ⟨hbytes, hhash, fun h => ?_, fun h => hlong (lengthEncoded_iff.1 h)⟩
  obtain ⟨hin, -⟩ := h.determined _ 1 (some []) rfl hbytes
  have hl := congrArg List.length hin
  rw [List.length_replicate] at hl
  cases hl

end Oprf
