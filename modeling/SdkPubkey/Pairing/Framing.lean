import SdkPubkey.Lib.Framing
import SdkPubkey.Pairing.Protocol

/-!
# The framing of the key schedule

What pairing hashes (`crates/scomm-vault/src/pairing/cpace.rs` and `pairing_protocol.rs`) is framed
in four ways: fields behind one-byte lengths with and without a pad, fields between zero bytes, and
fields without anything between them. In each the bytes determine the fields
(`key_schedule_framing`), so two sessions share no key.
-/

namespace Pairing

open Ckvf Lib Vault Oprf

/-! ## What is hashed -/

/-- The zero bytes that fill the first block. -/
def generatorPad (prs : Bytes) : Bytes :=
  List.replicate (128 - 1 - (1 + prs.length) - (1 + dsi.length)) 0

def generatorInput (prs ci sid : Bytes) : Except VaultClientError Bytes :=
  cpaceLvCat [dsi, prs, generatorPad prs, ci, sid]

def iskInput (sid k ya yb : Bytes) : Except VaultClientError Bytes := do
  let pre ← cpaceLvCat [dsiIsk, sid, k]
  let a ← cpaceLvCat [ya, []]
  let b ← cpaceLvCat [yb, []]
  pure (pre ++ a ++ b)

def sidInput (sessionId identityId : String) : Bytes :=
  utf8 pairingCpaceSidInfo ++ [0] ++ utf8 sessionId ++ [0] ++ utf8 identityId ++ [0] ++
    utf8 pairingTier

def tekInfo (sessionId : String) (ya yb : Bytes) (identityId : String) : Bytes :=
  utf8 pairingTekHkdfInfo ++ utf8 sessionId ++ ya ++ yb ++ utf8 identityId ++ utf8 pairingTier ++
    utf8 "v2"

theorem generator_eq {F E : Type} (S : Suite F E) (prs ci sid : Bytes) :
    generator S prs ci sid =
      (generatorInput prs ci sid).map fun b => S.fromUniformBytes (S.sha512 b) := by
  show (generatorInput prs ci sid >>= fun b => pure (S.fromUniformBytes (S.sha512 b))) = _
  cases generatorInput prs ci sid <;> rfl

theorem isk_eq {F E : Type} (S : Suite F E) (sid k ya yb : Bytes) :
    isk S sid k ya yb = (iskInput sid k ya yb).map S.sha512 := by
  unfold isk iskInput
  cases cpaceLvCat [dsiIsk, sid, k] <;> cases cpaceLvCat [ya, []] <;> cases cpaceLvCat
      [yb, []] <;> rfl

section
variable {H B W : Type} (P : PairingPackage H B W)

theorem sid_eq (sessionId identityId : String) :
    sid P sessionId identityId = P.sha256 (sidInput sessionId identityId) := rfl

theorem tek_eq (isk : Bytes) (sessionId : String) (ya yb : Bytes) (identityId : String) :
    tek P isk sessionId ya yb identityId =
      hkdfSha256 P isk (tekInfo sessionId ya yb identityId) 32 none := rfl

end

def isHexDigit (c : Char) : Bool :=
  c.isDigit || ('a' ≤ c && c ≤ 'f') || ('A' ≤ c && c ≤ 'F')

/-- An identity id: 64 hexadecimal digits. -/
def IsIdentityId (s : String) : Prop := s.toList.length = 64 ∧ ∀ c ∈ s.toList, isHexDigit c = true

/-! ## Fields behind one-byte lengths -/

theorem lengthByte (n : Nat) : i2osp n 1 = [UInt8.ofNat n] := by
  show [UInt8.ofNat (n % 256)] = [UInt8.ofNat n]
  have h : UInt8.ofNat (n % 256) = UInt8.ofNat n := by
    apply UInt8.toNat.inj
    rw [UInt8.toNat_ofNat', UInt8.toNat_ofNat']
    omega
  rw [h]

/-- `cpace_lv_cat` takes fields of up to 255 bytes, and puts each behind its length. -/
theorem cpaceLvCat_iff {parts : List Bytes} {b : Bytes} :
    cpaceLvCat parts = .ok b ↔ (∀ p ∈ parts, p.length ≤ 255) ∧ b = parts.flatMap (framed 1) := by
  induction parts generalizing b with
  | nil =>
    constructor
    · intro h
      cases h
      exact ⟨by simp, rfl⟩
    · intro hx
      obtain ⟨-, rfl⟩ := hx
      rfl
  | cons p parts ih =>
    rw [cpaceLvCat]
    constructor
    · intro h
      split at h
      · cases h
      · rename_i hp
        obtain ⟨rest, hrest, h⟩ := ok_of_bind h
        obtain ⟨hl, rfl⟩ := ih.1 hrest
        cases h
        refine ⟨?_, ?_⟩
        · intro q hq
          rcases List.mem_cons.1 hq with rfl | hq
          · omega
          · exact hl q hq
        · rw [List.flatMap_cons, framed, lengthByte]
          rfl
    · intro hx
      obtain ⟨hl, rfl⟩ := hx
      have hp : ¬ p.length > 255 := by
        have := hl p List.mem_cons_self
        omega
      rw [if_neg hp, ih.2 ⟨fun q hq => hl q (List.mem_cons_of_mem _ hq), rfl⟩,
        List.flatMap_cons, framed, lengthByte]
      rfl

/-- **The bytes determine the fields.** -/
theorem cpaceLvCat_inj {ps qs : List Bytes} {b : Bytes} (hp : cpaceLvCat ps = .ok b)
    (hq : cpaceLvCat qs = .ok b) : ps = qs := by
  obtain ⟨hlp, rfl⟩ := cpaceLvCat_iff.1 hp
  obtain ⟨hlq, he⟩ := cpaceLvCat_iff.1 hq
  apply flatMap_framed_inj (w := 1) (by omega) ?_ ?_ he
  · intro p h
    have := hlp p h
    omega
  · intro q h
    have := hlq q h
    omega

theorem generatorInput_inj {prs ci sid prs' ci' sid' b : Bytes}
    (h : generatorInput prs ci sid = .ok b) (h' : generatorInput prs' ci' sid' = .ok b) :
    prs = prs' ∧ ci = ci' ∧ sid = sid' := by
  have he := cpaceLvCat_inj h h'
  simp only [List.cons.injEq] at he
  exact ⟨he.2.1, he.2.2.2.1, he.2.2.2.2.1⟩

/-- The fields of the ISK input, two of them empty. -/
theorem iskInput_eq {sid k ya yb b : Bytes} (h : iskInput sid k ya yb = .ok b) :
    cpaceLvCat [dsiIsk, sid, k, ya, [], yb, []] = .ok b := by
  obtain ⟨pre, hp, h⟩ := ok_of_bind h
  obtain ⟨a, ha, h⟩ := ok_of_bind h
  obtain ⟨c, hc, h⟩ := ok_of_bind h
  cases h
  obtain ⟨hlp, rfl⟩ := cpaceLvCat_iff.1 hp
  obtain ⟨hla, rfl⟩ := cpaceLvCat_iff.1 ha
  obtain ⟨hlc, rfl⟩ := cpaceLvCat_iff.1 hc
  refine cpaceLvCat_iff.2 ⟨?_, ?_⟩
  · intro p hm
    have hsplit : p ∈ [dsiIsk, sid, k] ∨ p ∈ [ya, []] ∨ p ∈ [yb, []] := by
      simp only [List.mem_cons, List.not_mem_nil, or_false] at hm ⊢
      tauto
    rcases hsplit with hm | hm | hm
    · exact hlp p hm
    · exact hla p hm
    · exact hlc p hm
  · rw [← List.flatMap_append, ← List.flatMap_append]
    rfl

theorem iskInput_inj {sid k ya yb sid' k' ya' yb' b : Bytes} (h : iskInput sid k ya yb = .ok b)
    (h' : iskInput sid' k' ya' yb' = .ok b) : sid = sid' ∧ k = k' ∧ ya = ya' ∧ yb = yb' := by
  have he := cpaceLvCat_inj (iskInput_eq h) (iskInput_eq h')
  simp only [List.cons.injEq] at he
  exact ⟨he.2.1, he.2.2.1, he.2.2.2.1, he.2.2.2.2.2.1⟩

/-- The DSI, the password and the pad fill a block of 128 bytes, and no more when the password
leaves room for them. -/
structure FillsBlock (prs : Bytes) : Prop where
  pad : (generatorPad prs).length ≤ 255
  block : ∃ head, cpaceLvCat [dsi, prs, generatorPad prs] = .ok head ∧ 128 ≤ head.length ∧
    (head.length = 128 ↔ prs.length ≤ 108) ∧
    ∀ ci sid b, generatorInput prs ci sid = .ok b → ∃ rest, b = head ++ rest

theorem fillsBlock {prs : Bytes} (h : prs.length ≤ 255) : FillsBlock prs := by
  have hd : dsi.length = 17 := by decide
  have hpad : (generatorPad prs).length = 108 - prs.length := by
    rw [generatorPad, List.length_replicate]
    omega
  have hl : ∀ p ∈ [dsi, prs, generatorPad prs], p.length ≤ 255 := by
    simp only [List.mem_cons, List.not_mem_nil, or_false, forall_eq_or_imp, forall_eq]
    omega
  have hlen : ([dsi, prs, generatorPad prs].flatMap (framed 1)).length =
      20 + prs.length + (108 - prs.length) := by
    simp only [List.flatMap_cons, List.flatMap_nil, List.append_nil, List.length_append,
        framed_length]
    omega
  refine ⟨by omega, _, cpaceLvCat_iff.2 ⟨hl, rfl⟩, by omega, by omega, ?_⟩
  intro ci sid b hb
  obtain ⟨-, rfl⟩ := cpaceLvCat_iff.1 hb
  refine ⟨[ci, sid].flatMap (framed 1), ?_⟩
  rw [← List.flatMap_append]
  rfl

/-! ## Fields without lengths -/

theorem utf8_identityId {s : String} (h : IsIdentityId s) : (utf8 s).length = 64 := by
  rw [utf8_length, h.1]
  intro c hc
  have hx := h.2 c hc
  simp only [isHexDigit, Char.isDigit, Bool.or_eq_true, Bool.and_eq_true, decide_eq_true_eq,
    Char.le_def, ge_iff_le] at hx
  have hv : c.val ≤ 127 := by
    rcases hx with (⟨-, h⟩ | ⟨-, h⟩) | ⟨-, h⟩
    · exact UInt32.le_trans h (by decide)
    · exact UInt32.le_trans h (by decide)
    · exact UInt32.le_trans h (by decide)
  exact if_pos hv

theorem sidInput_inj {s i s' i' : String} (hi : IsIdentityId i) (hi' : IsIdentityId i')
    (h : sidInput s i = sidInput s' i') : s = s' ∧ i = i' := by
  unfold sidInput at h
  have h := List.append_cancel_right h
  obtain ⟨h, -⟩ := List.append_inj' h rfl
  obtain ⟨h, hid⟩ := List.append_inj' h (by rw [utf8_identityId hi, utf8_identityId hi'])
  obtain ⟨h, -⟩ := List.append_inj' h rfl
  exact ⟨utf8_inj (List.append_cancel_left h), utf8_inj hid⟩

theorem tekInfo_inj {s s' i i' : String} {ya yb ya' yb' : Bytes} (hi : IsIdentityId i)
    (hi' : IsIdentityId i') (ha : ya.length = ya'.length) (hb : yb.length = yb'.length)
    (h : tekInfo s ya yb i = tekInfo s' ya' yb' i') : s = s' ∧ ya = ya' ∧ yb = yb' ∧ i = i' := by
  unfold tekInfo at h
  have h := List.append_cancel_right (List.append_cancel_right h)
  obtain ⟨h, hid⟩ := List.append_inj' h (by rw [utf8_identityId hi, utf8_identityId hi'])
  obtain ⟨h, hyb⟩ := List.append_inj' h hb
  obtain ⟨h, hya⟩ := List.append_inj' h ha
  exact ⟨utf8_inj (List.append_cancel_left h), hya, hyb, utf8_inj hid⟩

/-- **The bytes that pairing hashes determine what they are made of.** The first four parts say
which bytes each function hashes. -/
theorem key_schedule_framing :
    (∀ {F E : Type} (S : Suite F E) prs ci sid, generator S prs ci sid =
      (generatorInput prs ci sid).map fun b => S.fromUniformBytes (S.sha512 b)) ∧
    (∀ {F E : Type} (S : Suite F E) sid k ya yb,
      isk S sid k ya yb = (iskInput sid k ya yb).map S.sha512) ∧
    (∀ {H B W : Type} (P : PairingPackage H B W) s i, sid P s i = P.sha256 (sidInput s i)) ∧
    (∀ {H B W : Type} (P : PairingPackage H B W) key s ya yb i,
      tek P key s ya yb i = hkdfSha256 P key (tekInfo s ya yb i) 32 none) ∧
    (∀ ps, (∃ b, cpaceLvCat ps = .ok b) ↔ ∀ p ∈ ps, p.length ≤ 255) ∧
    (∀ ps qs b, cpaceLvCat ps = .ok b → cpaceLvCat qs = .ok b → ps = qs) ∧
    (∀ prs ci sid prs' ci' sid' b, generatorInput prs ci sid = .ok b →
      generatorInput prs' ci' sid' = .ok b → prs = prs' ∧ ci = ci' ∧ sid = sid') ∧
    (∀ prs : Bytes, prs.length ≤ 255 → FillsBlock prs) ∧
    (∀ sid k ya yb sid' k' ya' yb' b, iskInput sid k ya yb = .ok b →
      iskInput sid' k' ya' yb' = .ok b → sid = sid' ∧ k = k' ∧ ya = ya' ∧ yb = yb') ∧
    (∀ s i s' i', IsIdentityId i → IsIdentityId i' → sidInput s i = sidInput s' i' →
      s = s' ∧ i = i') ∧
    (∀ s i s' i' (ya yb ya' yb' : Bytes), IsIdentityId i → IsIdentityId i' → ya.length = 32 →
      yb.length = 32 → ya'.length = 32 → yb'.length = 32 →
      tekInfo s ya yb i = tekInfo s' ya' yb' i' → s = s' ∧ ya = ya' ∧ yb = yb' ∧ i = i') := by
  refine ⟨?_, ?_, ?_, ?_, ?_, ?_, ?_, ?_, ?_, ?_, ?_⟩
  · intro F E S prs ci sid
    exact generator_eq S prs ci sid
  · intro F E S sid k ya yb
    exact isk_eq S sid k ya yb
  · intro H B W P s i
    exact sid_eq P s i
  · intro H B W P key s ya yb i
    exact tek_eq P key s ya yb i
  · intro ps
    constructor
    · intro hx
      obtain ⟨b, h⟩ := hx
      exact (cpaceLvCat_iff.1 h).1
    · intro h
      exact cpaceLvCat_ok ps h
  · intro ps qs b hp hq
    exact cpaceLvCat_inj hp hq
  · intro prs ci sid prs' ci' sid' b h h'
    exact generatorInput_inj h h'
  · intro prs h
    exact fillsBlock h
  · intro sid k ya yb sid' k' ya' yb' b h h'
    exact iskInput_inj h h'
  · intro s i s' i' hi hi' h
    exact sidInput_inj hi hi' h
  · intro s i s' i' ya yb ya' yb' hi hi' ha hb ha' hb' h
    exact tekInfo_inj hi hi' (ha.trans ha'.symm) (hb.trans hb'.symm) h

end Pairing
