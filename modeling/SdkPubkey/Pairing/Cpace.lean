import SdkPubkey.Oprf.Rfc9497

/-!
# CPace-Ristretto255-SHA512

`crates/scomm-vault/src/pairing/cpace.rs`.

`cpace_agree`: with one password, one channel and one session both sides compute the same key.
-/

namespace Pairing

open Ckvf Lib Vault Oprf

structure CPaceInitiator where
  scalar : Bytes
  /-- Public element sent to the responder. -/
  ya : Bytes
  sid : Bytes
  ci : Bytes

structure CPaceResponse where
  yb : Bytes
  isk : Bytes

def dsi : Bytes := utf8 "CPaceRistretto255"
def dsiIsk : Bytes := utf8 "CPaceRistretto255_ISK"

def fail (message : String) : VaultClientError := .msg "pairing_protocol_error" message

def cpaceLvCat : List Bytes → Except VaultClientError Bytes
  | [] => .ok []
  | part :: parts => do
    if part.length > 255 then .error (fail "CPace lv_cat field longer than 255 bytes")
    else
      let rest ← cpaceLvCat parts
      pure (UInt8.ofNat part.length :: part ++ rest)

section
variable {F E : Type} [Field F] [AddCommGroup E] [Module F E] [DecidableEq F] [DecidableEq E]
  (S : Suite F E)

/-! ## The functions -/

def generator (prs ci sid : Bytes) : Except VaultClientError E := do
  let zpad := 128 - 1 - (1 + prs.length) - (1 + dsi.length)
  let genStr ← cpaceLvCat [dsi, prs, List.replicate zpad 0, ci, sid]
  pure (S.fromUniformBytes (S.sha512 genStr))

def scalarFromSeed (random64 : Bytes) : Except VaultClientError F :=
  if random64.length = 64 then
    let s := S.fromBytesModOrderWide random64
    if s = 0 then .error (fail "CPace sampled a zero scalar") else .ok s
  else .error (fail "CPace scalar seed must be 64 bytes")

def decode (bytes : Bytes) : Except VaultClientError E :=
  if bytes.length = 32 then
    match S.decompress bytes with
    | some e => .ok e
    | none => .error (fail "CPace element is not a valid ristretto255 encoding")
  else .error (fail "CPace element must be 32 bytes")

def isk (sid k ya yb : Bytes) : Except VaultClientError Bytes := do
  let pre ← cpaceLvCat [dsiIsk, sid, k]
  let a ← cpaceLvCat [ya, []]
  let b ← cpaceLvCat [yb, []]
  pure (S.sha512 (pre ++ a ++ b))

def shared (s : F) (peer : E) : Except VaultClientError E :=
  let k := s • peer
  if k = 0 then .error (fail "CPace shared element is identity") else .ok k

def cpaceStart (password sid ci random64 : Bytes) : Except VaultClientError CPaceInitiator := do
  let s ← scalarFromSeed S random64
  let g ← generator S password ci sid
  pure ⟨S.toBytes s, S.compress (s • g), sid, ci⟩

def cpaceRespond (password sid ci peerYa random64 : Bytes) :
    Except VaultClientError CPaceResponse := do
  let s ← scalarFromSeed S random64
  let g ← generator S password ci sid
  let yb := S.compress (s • g)
  let peer ← decode S peerYa
  let k ← shared s peer
  let isk ← isk S sid (S.compress k) peerYa yb
  pure ⟨yb, isk⟩

def cpaceFinish (state : CPaceInitiator) (peerYb : Bytes) : Except VaultClientError Bytes := do
  let s ← match S.fromCanonicalBytes state.scalar with
    | some s => .ok s
    | none => .error (fail "CPace scalar is not canonical")
  let peer ← decode S peerYb
  let k ← shared s peer
  isk S state.sid (S.compress k) state.ya peerYb

/-! ## Agreement -/

theorem cpaceLvCat_ok (parts : List Bytes) (h : ∀ p ∈ parts, p.length ≤ 255) :
    ∃ b, cpaceLvCat parts = .ok b := by
  induction parts with
  | nil => exact ⟨[], rfl⟩
  | cons p parts ih =>
    obtain ⟨b, hb⟩ := ih fun q hq => h q (List.mem_cons_of_mem _ hq)
    have hp : ¬ p.length > 255 := by have := h p List.mem_cons_self; omega
    refine ⟨UInt8.ofNat p.length :: p ++ b, ?_⟩
    rw [cpaceLvCat, if_neg hp, hb]
    rfl

omit [Field F] [AddCommGroup E] [Module F E] [DecidableEq F] [DecidableEq E] in
theorem generator_ok {prs ci sid : Bytes} (hp : prs.length ≤ 255) (hc : ci.length ≤ 255)
    (hs : sid.length ≤ 255) : ∃ g, generator S prs ci sid = .ok g := by
  have hd : dsi.length = 17 := by decide
  obtain ⟨b, hb⟩ := cpaceLvCat_ok [dsi, prs,
    List.replicate (128 - 1 - (1 + prs.length) - (1 + dsi.length)) 0, ci, sid] (by
      simp only [List.mem_cons, List.not_mem_nil, or_false, forall_eq_or_imp, forall_eq,
        List.length_replicate]
      omega)
  refine ⟨S.fromUniformBytes (S.sha512 b), ?_⟩
  simp only [generator, hb, ok_bind]
  rfl

omit [Field F] [AddCommGroup E] [Module F E] [DecidableEq F] [DecidableEq E] in
theorem isk_ok {sid k ya yb : Bytes} (hs : sid.length ≤ 255) (hk : k.length = 32)
    (ha : ya.length = 32) (hb : yb.length = 32) : ∃ i, isk S sid k ya yb = .ok i := by
  have hd : dsiIsk.length = 21 := by decide
  obtain ⟨p, hp⟩ := cpaceLvCat_ok [dsiIsk, sid, k] (by
    simp only [List.mem_cons, List.not_mem_nil, or_false, forall_eq_or_imp, forall_eq]
    omega)
  obtain ⟨a, hya⟩ := cpaceLvCat_ok [ya, []] (by simp [ha])
  obtain ⟨b, hyb⟩ := cpaceLvCat_ok [yb, []] (by simp [hb])
  refine ⟨S.sha512 (p ++ a ++ b), ?_⟩
  simp only [isk, hp, hya, hyb, ok_bind]
  rfl

section
variable {S} (hS : S.Lawful)
include hS

omit [Field F] [Module F E] [DecidableEq F] [DecidableEq E] in
theorem decode_compress (e : E) : decode S (S.compress e) = .ok e := by
  unfold decode
  rw [if_pos (hS.compress_length e), hS.decompress_compress]

/-- **Both sides compute the same key**: `a` and `b` are the scalars, `g` the generator. -/
theorem cpace_agree {password sid ci seedA seedB : Bytes} {a b : F} {g : E}
    (hs : sid.length ≤ 255) (ha : scalarFromSeed S seedA = .ok a) (ha0 : a ≠ 0)
    (hb : scalarFromSeed S seedB = .ok b) (hb0 : b ≠ 0)
    (hg : generator S password ci sid = .ok g) (hg0 : g ≠ 0) :
    ∃ key, cpaceStart S password sid ci seedA =
        .ok ⟨S.toBytes a, S.compress (a • g), sid, ci⟩ ∧
      cpaceRespond S password sid ci (S.compress (a • g)) seedB =
        .ok ⟨S.compress (b • g), key⟩ ∧
      cpaceFinish S ⟨S.toBytes a, S.compress (a • g), sid, ci⟩ (S.compress (b • g)) = .ok key := by
  have hk0 : b • a • g ≠ 0 := smul_ne_zero hb0 (smul_ne_zero ha0 hg0)
  have hcomm : a • b • g = b • a • g := smul_comm a b g
  obtain ⟨key, hkey⟩ := isk_ok S hs (hS.compress_length (b • a • g)) (hS.compress_length (a • g))
    (hS.compress_length (b • g))
  refine ⟨key, ?_, ?_, ?_⟩
  · simp only [cpaceStart, ha, hg, ok_bind]
    rfl
  · simp only [cpaceRespond, hb, hg, ok_bind, decode_compress hS, shared, if_neg hk0, hkey]
    rfl
  · simp only [cpaceFinish, hS.fromCanonicalBytes_toBytes, ok_bind, decode_compress hS, shared,
      hcomm, if_neg hk0, hkey]

end

end

end Pairing
