import SdkPubkey.Ckvf.Symbolic
import SdkPubkey.Oprf.Modes
import SdkPubkey.Pairing.Flow

/-!
# Honest pairing

An honest exchange (`Exchange`): the new device and the approver use one session, identity and
password, the mailbox delivers what they send, and the host has, or is sent, a record that the
approver's VEK opens. Both sides then agree (`Answer.Honest.agrees`).

The programs run against `pairingEnv` while the other side changes the mailbox: `ApproverStep` is
what the approver does to the session, `DeviceStep` what the new device does. `safe_awaitResponse`
says what the new device comes to, whatever the approver does meanwhile, and `safe_approvePairing`
what the approver comes to.
-/

namespace Pairing

open Ckvf Lib Lib.Protocol Vault Oprf

variable {H B W : Type}

/-! ## The exchange -/

/-- What the two sides bring, and what the host stores. -/
structure Exchange (H B W : Type) where
  sessionId : String
  deviceName : String
  deviceId : String
  password : Bytes
  /-- The seed of the new device's scalar. -/
  random64 : Bytes
  expiresInSeconds : Nat
  binding : VaultHostBinding
  /-- The approver's open vault, and the seed of its MSK. -/
  vault : UnlockedVault H B W
  mskSeed : Bytes
  /-- The host's record, and the vault that the approver's VEK opens it to. -/
  record : VaultRecord H B W
  opened : UnlockedVault H B W

/-- What the approver sends. -/
structure Answer where
  response : CPaceResponse
  tag : PairingBox
  vekBox : PairingBox
  sig : Bytes

section
variable {F E : Type} [Field F] [AddCommGroup E] [Module F E] [DecidableEq F] [DecidableEq E]
  (S : Suite F E) (L : Ckvf H B W) (P : PairingPackage H B W) (x : Exchange H B W)

namespace Exchange

def identityId : String := x.binding.identityId

def sid : Bytes := Pairing.sid P x.sessionId x.identityId

/-- The new device's side of CPace. -/
def start : Except VaultClientError CPaceInitiator :=
  cpaceStart S x.password (x.sid P) (ci x.identityId) x.random64

/-- The inputs are in range, and the host's record is one that the approver's MSK signed and that
its VEK opens. -/
structure Honest : Prop where
  identity : (utf8 x.identityId).length ≤ 255
  password : x.password.length ≤ 255
  scalar : ∃ a, scalarFromSeed S x.random64 = .ok a
  generator : ∀ g, generator S x.password (ci x.identityId) (x.sid P) = .ok g → g ≠ 0
  mskSeed : Rust.mskSeed L x.vault = .ok x.mskSeed
  mskSeed_length : x.mskSeed.length = 32
  opens : P.openVaultWith x.record.container x.vault.vek = .ok x.opened
  msk : L.base64urlDecode x.opened.payload.msk.current.publicKey =
    .ok (P.ed25519PublicFromSeed x.mskSeed)
  signed : P.ed25519Sign x.mskSeed (vaultRecordsSigningText x.identityId x.record.container.vaultId
    x.record.generation (L.hashText x.record.generationHash)) = .ok x.record.mskSignature

/-- The key TEK for an ISK and the approver's element. -/
def tek (st : CPaceInitiator) (isk yb : Bytes) : Bytes :=
  Pairing.tek P isk x.sessionId st.ya yb x.identityId

/-- The text that is signed. -/
def transcript (st : CPaceInitiator) (yb : Bytes) (tag : PairingBox) : String :=
  Pairing.transcript L.base64urlEncode x.sessionId x.identityId st.ya yb tag

end Exchange

variable (st : CPaceInitiator)

/-- The approver computed `a` from the new device's element, with some seed and IVs. -/
structure Answer.Honest (a : Answer) : Prop where
  response : ∃ seed, cpaceRespond S x.password (x.sid P) (ci x.identityId) st.ya seed =
    .ok a.response
  tag : ∃ iv, sealBox P iv (x.tek P st a.response.isk a.response.yb)
    (utf8 pairingConfirmPlaintext) = .ok a.tag
  vekBox : ∃ iv, sealBox P iv (x.tek P st a.response.isk a.response.yb) x.vault.vek = .ok a.vekBox
  sig : P.ed25519Sign x.mskSeed (x.transcript L st a.response.yb a.tag) = .ok a.sig

/-- The new device comes to the approver's keys, its boxes open, and its signature is one of the
text that the new device makes. -/
structure Agrees (a : Answer) : Prop where
  isk : cpaceFinish S st a.response.yb = .ok a.response.isk
  tag : openBox P (x.tek P st a.response.isk a.response.yb) a.tag =
    .ok (utf8 pairingConfirmPlaintext)
  vek : openBox P (x.tek P st a.response.isk a.response.yb) a.vekBox = .ok x.vault.vek
  yb_length : a.response.yb.length = 32
  sig_length : a.sig.length = 64
  verifies : L.ed25519Verify (P.ed25519PublicFromSeed x.mskSeed)
    (x.transcript L st a.response.yb a.tag) a.sig = true

end

/-! ## Agreement of the values -/

section
variable {F E : Type} [Field F] [AddCommGroup E] [Module F E] [DecidableEq F] [DecidableEq E]
  {S : Suite F E} {L : Ckvf H B W} {P : PairingPackage H B W} {x : Exchange H B W}
  {st : CPaceInitiator}

omit [AddCommGroup E] [Module F E] [DecidableEq E] in
theorem scalarFromSeed_ok {seed : Bytes} {a : F} (h : scalarFromSeed S seed = .ok a) : a ≠ 0 := by
  unfold scalarFromSeed at h
  split at h
  · dsimp only at h
    split at h
    · cases h
    · rename_i hs
      cases h
      exact hs
  · cases h

variable (hS : S.Lawful) (hP : PairingLaws L P) (hx : x.Honest S L P)
include hS hP hx

/-- The new device's side starts, with an element of 32 bytes. -/
theorem Exchange.Honest.start : ∃ st, x.start S P = .ok st ∧ st.ya.length = 32 := by
  obtain ⟨a, ha⟩ := hx.scalar
  have hsid : (x.sid P).length = 32 := sid_length hP _ _
  obtain ⟨g, hg⟩ := generator_ok S hx.password hx.identity
    (show (x.sid P).length ≤ 255 by omega)
  obtain ⟨key, hstart, -⟩ := cpace_agree hS (by omega) ha (scalarFromSeed_ok ha) ha
    (scalarFromSeed_ok ha) hg (hx.generator g hg)
  exact ⟨_, hstart, hS.compress_length _⟩

/-- The approver's side of CPace answers, and the new device comes to the same key. -/
theorem Exchange.Honest.respond (hst : x.start S P = .ok st) {seed : Bytes} {b : F}
    (hb : scalarFromSeed S seed = .ok b) :
    ∃ r, cpaceRespond S x.password (x.sid P) (ci x.identityId) st.ya seed = .ok r ∧
      r.yb.length = 32 ∧ cpaceFinish S st r.yb = .ok r.isk := by
  obtain ⟨a, ha⟩ := hx.scalar
  have hsid : (x.sid P).length = 32 := sid_length hP _ _
  obtain ⟨g, hg⟩ := generator_ok S hx.password hx.identity
    (show (x.sid P).length ≤ 255 by omega)
  obtain ⟨key, hstart, hresp, hfin⟩ := cpace_agree hS (by omega) ha (scalarFromSeed_ok ha) hb
    (scalarFromSeed_ok hb) hg (hx.generator g hg)
  have he : st = ⟨S.toBytes a, S.compress (a • g), x.sid P, ci x.identityId⟩ :=
    Except.ok.inj (hst.symm.trans hstart)
  subst he
  exact ⟨_, hresp, hS.compress_length _, hfin⟩

/-- **What an honest approver sends agrees with what the new device computes.** -/
theorem Answer.Honest.agrees (hst : x.start S P = .ok st) {a : Answer}
    (ha : a.Honest S L P x st) : Agrees S L P x st a := by
  obtain ⟨seed, hr⟩ := ha.response
  obtain ⟨b, hb⟩ : ∃ b, scalarFromSeed S seed = .ok b := by
    obtain ⟨b, hb, -⟩ := ok_of_bind hr
    exact ⟨b, hb⟩
  obtain ⟨r, hr', hl, hfin⟩ := hx.respond hS hP hst hb
  obtain rfl : r = a.response := Except.ok.inj (hr'.symm.trans hr)
  have hk : (x.tek P st a.response.isk a.response.yb).length = 32 := tek_length hP _ _ _ _ _
  have hopen : ∀ {iv : Random 12} {plaintext : Bytes} {box : PairingBox},
      sealBox P iv (x.tek P st a.response.isk a.response.yb) plaintext = .ok box →
        openBox P (x.tek P st a.response.isk a.response.yb) box = .ok plaintext := by
    intro iv plaintext box hseal
    obtain ⟨box', hseal', ho⟩ := open_seal hP hk iv plaintext
    obtain rfl : box' = box := Except.ok.inj (hseal'.symm.trans hseal)
    exact ho
  obtain ⟨iv, htag⟩ := ha.tag
  obtain ⟨iv', hvek⟩ := ha.vekBox
  obtain ⟨sig, hsig, hsl, hver⟩ := hP.sign (x.transcript L st a.response.yb a.tag)
    hx.mskSeed_length
  obtain rfl : sig = a.sig := Except.ok.inj (hsig.symm.trans ha.sig)
  exact ⟨hfin, hopen htag, hopen hvek, hl, hsl, hver⟩

end

/-! ## The session in the mailbox -/

section
variable {F E : Type} [Field F] [AddCommGroup E] [Module F E] [DecidableEq F] [DecidableEq E]
  (S : Suite F E) (L : Ckvf H B W) (P : PairingPackage H B W) (x : Exchange H B W)
  (st : CPaceInitiator)

/-- What the new device posts, as the host keeps it. -/
def Exchange.pendingRow : Json.Obj :=
  Json.Obj.insert (pendingFields L x.identityId x.deviceName x.deviceId st.ya x.expiresInSeconds)
    "state" (.str "PENDING")

/-- The session with the approver's answer. -/
def Exchange.answeredRow (a : Answer) : Json.Obj :=
  Json.Obj.insert (Mailbox.withFields (x.pendingRow L st)
    (.obj (responseFields L x.identityId a.response.yb a.vekBox a.tag a.sig)))
    "state" (.str "RESPONDED")

/-- The session after the new device has collected the answer. -/
def Exchange.collectedRow (a : Answer) : Json.Obj :=
  (x.answeredRow L st a).insert "state" (.str "COMPLETED")

def Pending (m : Mailbox H B W) : Prop := m.pairings x.sessionId = some (x.pendingRow L st)

def Stored (m : Mailbox H B W) : Prop := m.records.getLast? = some x.record

/-- The record that the approver uploads. -/
def Exchange.uploaded (recordSignature : RecordSignature H B W) : VaultRecord H B W :=
  ⟨x.vault.container, recordSignature x.identityId x.vault.container x.mskSeed⟩

/-- The approver's vault is open, and a push leaves the record of the exchange at the host's head:
the device knows that it is there, or it uploads it to a host that has it there or that it
extends. -/
structure Ready (recordSignature : RecordSignature H B W) (d : Device H B W) (m : Mailbox H B W) :
    Prop where
  vault : d.vault = some x.vault
  head : (d.store.syncedHash = some x.vault.container.generationHash ∧ Stored x m) ∨
    (d.store.syncedHash ≠ some x.vault.container.generationHash ∧
      x.record = x.uploaded recordSignature ∧
      (Stored x m ∨ (¬ m.records.Stores x.vault.container ∧ m.records.Extends x.vault.container)))

/-- The approver's device after a push. -/
structure Pushed (d : Device H B W) : Prop where
  vault : d.vault = some x.vault
  synced : d.store.syncedHash = some x.vault.container.generationHash

def Answered (m : Mailbox H B W) : Prop :=
  ∃ a, a.Honest S L P x st ∧ m.pairings x.sessionId = some (x.answeredRow L st a) ∧ Stored x m

def Collected (m : Mailbox H B W) : Prop :=
  ∃ a, a.Honest S L P x st ∧ m.pairings x.sessionId = some (x.collectedRow L st a)

/-- The session is not approved in time: nothing is said yet, or it has expired. -/
def Unapproved {α : Type} (r : Except VaultClientError (Option α)) : Prop :=
  r = .ok none ∨ ∃ e, r = .error e ∧ e.code = "pairing_session_expired"

/-- How the new device's wait ends: it has collected the answer and has the vault, or it leaves the
session as it was. -/
def Waited (r : Except VaultClientError (Option (UnlockedVault H B W)))
    (m : Mailbox H B W) : Prop :=
  (r = .ok (some x.opened) ∧ Collected S L P x st m) ∨
    (Unapproved r ∧ (Pending L x st m ∨ Answered S L P x st m))

/-- How the approver's wait ends: the answer is in the mailbox, and where the approver has a result
the new device has collected it. -/
def Approved (r : Except VaultClientError (Option Unit)) (m : Mailbox H B W) : Prop :=
  (Answered S L P x st m ∨ Collected S L P x st m) ∧
    (r = .ok (some ()) ∧ Collected S L P x st m ∨ Unapproved r)

/-- What the approver does while the new device waits: it answers the session at most once, and by
then its vault is stored. -/
structure ApproverStep (m m' : Mailbox H B W) : Prop where
  session : m'.pairings x.sessionId = m.pairings x.sessionId ∨
    (Pending L x st m ∧ Answered S L P x st m')
  stored : Stored x m → Stored x m'
  tokens : m.readTokens ⊆ m'.readTokens

/-- What the new device does: it collects the answer, and stores nothing. -/
structure DeviceStep (m m' : Mailbox H B W) : Prop where
  session : m'.pairings x.sessionId = m.pairings x.sessionId ∨
    (Answered S L P x st m ∧ Collected S L P x st m')
  records : m'.records = m.records

end

section
variable {F E : Type} [Field F] [AddCommGroup E] [Module F E] [DecidableEq F] [DecidableEq E]
  {S : Suite F E} {L : Ckvf H B W} {P : PairingPackage H B W} {x : Exchange H B W}
  {st : CPaceInitiator} {m m' : Mailbox H B W} {a : Answer}

theorem ApproverStep.refl (m : Mailbox H B W) : ApproverStep S L P x st m m :=
  ⟨.inl rfl, id, fun _ h => h⟩

theorem Ready.of_records {recordSignature : RecordSignature H B W} {d : Device H B W}
    (h : Ready x recordSignature d m) (he : m'.records = m.records) :
    Ready x recordSignature d m' := by
  refine ⟨h.vault, ?_⟩
  unfold Stored
  rw [he]
  exact h.head

theorem DeviceStep.refl (m : Mailbox H B W) : DeviceStep S L P x st m m := ⟨.inl rfl, rfl⟩

theorem DeviceStep.stored (h : DeviceStep S L P x st m m') (hr : Stored x m) : Stored x m' := by
  unfold Stored at hr ⊢
  rw [h.records, hr]

omit [AddCommGroup E] [Module F E] [DecidableEq F] [DecidableEq E] [Field F] in
theorem get?_pendingRow {k : String} (hk : k ≠ "state") : (x.pendingRow L st).get? k =
    Json.Obj.get? (pendingFields L x.identityId x.deviceName x.deviceId st.ya
        x.expiresInSeconds) k := by
  unfold Exchange.pendingRow
  rw [Json.Obj.get?_insert, if_neg (Ne.symm hk)]

omit [AddCommGroup E] [Module F E] [DecidableEq F] [DecidableEq E] [Field F] in
theorem get?_answeredRow {k : String} (hk : k ≠ "state") : (x.answeredRow L st a).get? k =
    (Json.Obj.get? (responseFields L x.identityId a.response.yb a.vekBox a.tag a.sig) k).or
      (Json.Obj.get? (pendingFields L x.identityId x.deviceName x.deviceId st.ya
        x.expiresInSeconds) k) := by
  unfold Exchange.answeredRow Mailbox.withFields
  rw [Json.Obj.get?_insert, if_neg (Ne.symm hk), Json.Obj.get?_union, get?_pendingRow hk]

omit [AddCommGroup E] [Module F E] [DecidableEq F] [DecidableEq E] [Field F] in
theorem stateOf_pending : Mailbox.stateOf (x.pendingRow L st) = "PENDING" := by
  simp [Mailbox.stateOf, Exchange.pendingRow, Json.Obj.get?_insert, Json.asString]

omit [AddCommGroup E] [Module F E] [DecidableEq F] [DecidableEq E] [Field F] in
theorem stateOf_answered : Mailbox.stateOf (x.answeredRow L st a) = "RESPONDED" := by
  simp [Mailbox.stateOf, Exchange.answeredRow, Json.Obj.get?_insert, Json.asString]

omit [AddCommGroup E] [Module F E] [DecidableEq F] [DecidableEq E] [Field F] in
theorem stateOf_collected : Mailbox.stateOf (x.collectedRow L st a) = "COMPLETED" := by
  simp [Mailbox.stateOf, Exchange.collectedRow, Json.Obj.get?_insert, Json.asString]

theorem not_answered_of_pending (h : Pending L x st m) : ¬ Answered S L P x st m := by
  intro hx
  obtain ⟨a, -, h1, -⟩ := hx
  have he : x.pendingRow L st = x.answeredRow L st a := Option.some.inj (h.symm.trans h1)
  have hstate := congrArg Mailbox.stateOf he
  rw [stateOf_pending, stateOf_answered] at hstate
  exact absurd hstate (by decide)

theorem not_collected_of_pending (h : Pending L x st m) : ¬ Collected S L P x st m := by
  intro hx
  obtain ⟨a, -, h1⟩ := hx
  have he : x.pendingRow L st = x.collectedRow L st a := Option.some.inj (h.symm.trans h1)
  have hstate := congrArg Mailbox.stateOf he
  rw [stateOf_pending, stateOf_collected] at hstate
  exact absurd hstate (by decide)

theorem not_collected_of_answered (h : Answered S L P x st m) : ¬ Collected S L P x st m := by
  obtain ⟨a, -, h, -⟩ := h
  intro hx
  obtain ⟨b, -, h1⟩ := hx
  have he : x.answeredRow L st a = x.collectedRow L st b := Option.some.inj (h.symm.trans h1)
  have hstate := congrArg Mailbox.stateOf he
  rw [stateOf_answered, stateOf_collected] at hstate
  exact absurd hstate (by decide)

theorem Answered.step (h : Answered S L P x st m) (hs : ApproverStep S L P x st m m') :
    Answered S L P x st m' := by
  rcases hs.session with h1 | ⟨h1, -⟩
  · obtain ⟨a, ha, hm, hr⟩ := h
    exact ⟨a, ha, h1.trans hm, hs.stored hr⟩
  · exact absurd h (not_answered_of_pending h1)

theorem ApproverStep.trans {m'' : Mailbox H B W} (h : ApproverStep S L P x st m m')
    (h' : ApproverStep S L P x st m' m'') : ApproverStep S L P x st m m'' := by
  refine ⟨?_, fun hr => h'.stored (h.stored hr), fun t ht => h'.tokens (h.tokens ht)⟩
  rcases h.session with h1 | ⟨h1, h2⟩
  · rcases h'.session with h3 | ⟨h3, h4⟩
    · exact .inl (h3.trans h1)
    · exact .inr ⟨h1.symm.trans h3, h4⟩
  · exact .inr ⟨h1, h2.step h'⟩

/-- The approver's calls one after another. -/
theorem ApproverStep.of_steps {s s' : Device H B W × Mailbox H B W}
    (h : Relation.ReflTransGen (fun s s' => ApproverStep S L P x st s.2 s'.2) s s') :
    ApproverStep S L P x st s.2 s'.2 := by
  induction h with
  | refl => exact .refl _
  | tail _ hs ih => exact ih.trans hs

theorem DeviceStep.trans {m'' : Mailbox H B W} (h : DeviceStep S L P x st m m')
    (h' : DeviceStep S L P x st m' m'') : DeviceStep S L P x st m m'' := by
  refine ⟨?_, h'.records.trans h.records⟩
  rcases h.session with h1 | ⟨h1, h2⟩
  · rcases h'.session with h3 | ⟨⟨a, ha, h3, hr⟩, h4⟩
    · exact .inl (h3.trans h1)
    · refine .inr ⟨⟨a, ha, h1.symm.trans h3, ?_⟩, h4⟩
      unfold Stored at hr ⊢
      rw [← h.records, hr]
  · rcases h'.session with h3 | ⟨h3, -⟩
    · obtain ⟨a, ha, hm⟩ := h2
      exact .inr ⟨h1, a, ha, h3.trans hm⟩
    · exact absurd h2 (not_collected_of_answered h3)

theorem waiting_step (h : Pending L x st m ∨ Answered S L P x st m)
    (hs : ApproverStep S L P x st m m') : Pending L x st m' ∨ Answered S L P x st m' := by
  rcases h with h | h
  · rcases hs.session with h1 | ⟨-, h1⟩
    · exact .inl (h1.trans h)
    · exact .inr h1
  · exact .inr (h.step hs)

theorem Pending.step (h : Pending L x st m) (hs : DeviceStep S L P x st m m') :
    Pending L x st m' := by
  rcases hs.session with h1 | ⟨h1, -⟩
  · exact h1.trans h
  · exact absurd h1 (not_answered_of_pending h)

theorem Collected.step (h : Collected S L P x st m) (hs : DeviceStep S L P x st m m') :
    Collected S L P x st m' := by
  rcases hs.session with h1 | ⟨-, h1⟩
  · obtain ⟨a, ha, hm⟩ := h
    exact ⟨a, ha, h1.trans hm⟩
  · exact h1

/-- The approver does nothing to a session that is collected. -/
theorem Collected.kept (h : Collected S L P x st m) (hs : ApproverStep S L P x st m m') :
    Collected S L P x st m' := by
  rcases hs.session with h1 | ⟨h1, -⟩
  · obtain ⟨a, ha, hm⟩ := h
    exact ⟨a, ha, h1.trans hm⟩
  · exact absurd h (not_collected_of_pending h1)

/-- An answer stays, or is collected. -/
theorem settled_step (h : Answered S L P x st m ∨ Collected S L P x st m)
    (hs : DeviceStep S L P x st m m') : Answered S L P x st m' ∨ Collected S L P x st m' := by
  rcases hs.session with h1 | ⟨-, h1⟩
  · rcases h with ⟨a, ha, hm, hr⟩ | ⟨a, ha, hm⟩
    · exact .inl ⟨a, ha, h1.trans hm, hs.stored hr⟩
    · exact .inr ⟨a, ha, h1.trans hm⟩
  · exact .inr h1

/-! ## What the host shows -/

/-- The pending session, as the host shows it. -/
def pendingBody (L : Ckvf H B W) (x : Exchange H B W) (st : CPaceInitiator) : Json :=
  .obj [("session_id", .str x.sessionId), ("state", .str "PENDING"),
    ("device_name", .str x.deviceName), ("device_id", .str x.deviceId),
    ("b_pake_element", .str (L.base64urlEncode st.ya))]

/-- The answer, as the host gives it to the device that waits for it. -/
def answeredBody (L : Ckvf H B W) (x : Exchange H B W) (a : Answer) : Json :=
  .obj [("session_id", .str x.sessionId), ("state", .str "RESPONDED"),
    ("a_pake_element", .str (L.base64urlEncode a.response.yb)),
    ("vek_envelope", a.vekBox.toJson L), ("confirmation_tag", a.tag.toJson L),
    ("msk_signature", .str (L.base64urlEncode a.sig)),
    ("vault_id", .str x.record.container.vaultId),
    ("pairing_read_token", .str (Mailbox.token x.sessionId))]

theorem getPairing_pending (h : Pending L x st m) (retriever : Option String) :
    m.getPairing x.sessionId retriever = (.ok (pendingBody L x st), m) := by
  unfold Pending at h
  have h1 : (x.pendingRow L st).get? "device_name" = some (.str x.deviceName) :=
    get?_pendingRow (by decide)
  have h2 : (x.pendingRow L st).get? "device_id" = some (.str x.deviceId) :=
    get?_pendingRow (by decide)
  have h3 : (x.pendingRow L st).get? "b_pake_element" = some (.str (L.base64urlEncode st.ya)) :=
    get?_pendingRow (by decide)
  simp only [Mailbox.getPairing, h, stateOf_pending, if_true, h1, h2, h3, Mailbox.orNull,
    Option.getD_some]
  rfl

omit [AddCommGroup E] [Module F E] [DecidableEq F] [DecidableEq E] [Field F] in
theorem deviceId_answered :
    ((x.answeredRow L st a).get? "device_id").bind Json.asString = some x.deviceId := by
  rw [get?_answeredRow (by decide)]
  rfl

theorem getPairing_answered (h : m.pairings x.sessionId = some (x.answeredRow L st a))
    (hr : Stored x m) : m.getPairing x.sessionId (some x.deviceId) =
      (.ok (answeredBody L x a),
        { m.update x.sessionId (x.collectedRow L st a) with
          readTokens := Mailbox.token x.sessionId :: m.readTokens }) := by
  unfold Stored at hr
  have h1 : (x.answeredRow L st a).get? "a_pake_element" =
      some (.str (L.base64urlEncode a.response.yb)) := get?_answeredRow (by decide)
  have h2 : (x.answeredRow L st a).get? "vek_envelope" = some (a.vekBox.toJson L) :=
    get?_answeredRow (by decide)
  have h3 : (x.answeredRow L st a).get? "confirmation_tag" = some (a.tag.toJson L) :=
    get?_answeredRow (by decide)
  have h4 : (x.answeredRow L st a).get? "msk_signature" = some (.str (L.base64urlEncode a.sig)) :=
    get?_answeredRow (by decide)
  have hne : ¬ "RESPONDED" = "PENDING" := by decide
  simp only [Mailbox.getPairing, h, stateOf_answered, hne, if_false, deviceId_answered, and_self,
    if_true, h1, h2, h3, h4, hr, Mailbox.orNull, Option.getD_some, Option.map_some]
  rfl

/-- Whoever is not the new device sees only that the session is answered. -/
theorem getPairing_other (h : Answered S L P x st m) : m.getPairing x.sessionId none =
    (.ok (.obj [("session_id", .str x.sessionId), ("state", .str "RESPONDED")]), m) := by
  obtain ⟨a, -, h, -⟩ := h
  simp [Mailbox.getPairing, h, stateOf_answered, deviceId_answered]

theorem getPairing_collected (h : Collected S L P x st m) : m.getPairing x.sessionId none =
    (.ok (.obj [("session_id", .str x.sessionId), ("state", .str "COMPLETED")]), m) := by
  obtain ⟨a, -, h⟩ := h
  simp [Mailbox.getPairing, h, stateOf_collected]

/-- The host takes the approver's record, which then is the head. -/
theorem put_uploaded {recordSignature : RecordSignature H B W} [DecidableEq H]
    (hu : x.record = x.uploaded recordSignature) (h : Stored x m ∨
      (¬ m.records.Stores x.vault.container ∧ m.records.Extends x.vault.container)) :
    (m.records.put L (x.uploaded recordSignature)).1 = .ok () ∧
      (m.records.put L (x.uploaded recordSignature)).2.getLast? = some x.record := by
  have hc : x.record.container = x.vault.container := by rw [hu, Exchange.uploaded]
  rcases h with h | ⟨hs, he⟩
  · have hs : m.records.Stores (x.uploaded recordSignature).container :=
      ⟨x.record, List.mem_of_getLast? h, congrArg VaultContainer.generation hc,
        congrArg VaultContainer.generationHash hc⟩
    simp only [Host.put, if_pos hs, true_and]
    exact h
  · have hs' : ¬ m.records.Stores (x.uploaded recordSignature).container := hs
    have he' : m.records.Extends (x.uploaded recordSignature).container := he
    simp only [Host.put, if_neg hs', if_pos he', true_and, List.getLast?_append,
      List.getLast?_singleton, Option.some_or, hu]

end

/-! ## Rules for the calls -/

section
variable {F E : Type} [Field F] [DecidableEq F] [DecidableEq H] (S : Suite F E) (L : Ckvf H B W)
  (recordSignature : RecordSignature H B W)

/-- The 64 bytes that are drawn give a scalar other than zero, the device's store answers, and an
upload reaches the host and is answered as the host answers it. -/
def Works : (c : (pairingIface H B W).Call) → Device H B W × Mailbox H B W →
    (pairingIface H B W).Ans c → Device H B W × Mailbox H B W → Prop
  | .randomBytes n, _, a, _ => n = 64 → ∃ b, scalarFromSeed S a.1 = .ok b
  | .vault (.read _), _, a, _ => ∃ v, a = .ok v
  | .vault (.write _ _), _, a, _ => a = .ok ()
  | .vault (.putRecord identityId c signer _), s, a, _ =>
    a = (s.2.records.put L ⟨c, recordSignature identityId c signer⟩).1
  | _, _, _, _ => True

/-- The steps of `pairingEnv` that work. -/
abbrev pairingTrans := (pairingEnv L recordSignature).Allowed (Works S L recordSignature)

variable {S L recordSignature} {α : Type} {Rely : Mailbox H B W → Mailbox H B W → Prop}
  {G : Device H B W × Mailbox H B W → Device H B W × Mailbox H B W → Prop}
  {Q : Except VaultClientError α → Device H B W × Mailbox H B W → Prop} {d : Device H B W}
  {m : Mailbox H B W}

/-- A request that the mailbox answers. -/
theorem safe_served {c : (pairingIface H B W).Call}
    {K : (pairingIface H B W).Ans c → PairingProg H B W α}
    (serve : Mailbox H B W → (pairingIface H B W).Ans c × Mailbox H B W)
    (hc : ∀ {d m ev a s'}, (pairingEnv L recordSignature).step c ev (d, m) = some (a, s') →
      a = (serve m).1 ∧ s' = (d, (serve m).2))
    (h : ∀ m', Rely m m' → G (d, m') (d, (serve m').2) ∧
      Safe (pairingTrans S L recordSignature) (Interfere Rely) G Q (K (serve m').1)
        (d, (serve m').2)) :
    Safe (pairingTrans S L recordSignature) (Interfere Rely) G Q (.call c K) (d, m) := by
  intro s hi a s' ht
  obtain ⟨d', m'⟩ := s
  obtain ⟨rfl, hr⟩ := hi
  obtain ⟨⟨ev, hs⟩, -⟩ := ht
  obtain ⟨rfl, rfl⟩ := hc hs
  exact h m' hr

theorem safe_getPairing {f : Json → PairingProg H B W α} {sessionId : String}
    {retriever : Option String} (h : ∀ m', Rely m m' →
      G (d, m') (d, (m'.getPairing sessionId retriever).2) ∧
      Safe (pairingTrans S L recordSignature) (Interfere Rely) G Q
        (.ofExcept (m'.getPairing sessionId retriever).1 >>= f)
        (d, (m'.getPairing sessionId retriever).2)) :
    Safe (pairingTrans S L recordSignature) (Interfere Rely) G Q
      (getPairing sessionId retriever >>= f) (d, m) :=
  safe_served (fun m => m.getPairing sessionId retriever) (by
    intro d m ev a s' hs
    cases ev <;> simp [pairingEnv] at hs
    exact ⟨hs.1.symm, hs.2.symm⟩) h

theorem safe_createPairing {f : Json → PairingProg H B W α} {sessionId : String} {body : Json}
    (h : ∀ m', Rely m m' → G (d, m') (d, (m'.createPairing sessionId body).2) ∧
      Safe (pairingTrans S L recordSignature) (Interfere Rely) G Q
        (.ofExcept (m'.createPairing sessionId body).1 >>= f)
        (d, (m'.createPairing sessionId body).2)) :
    Safe (pairingTrans S L recordSignature) (Interfere Rely) G Q
      (createPairing sessionId body >>= f) (d, m) :=
  safe_served (fun m => m.createPairing sessionId body) (by
    intro d m ev a s' hs
    cases ev <;> simp [pairingEnv] at hs
    exact ⟨hs.1.symm, hs.2.symm⟩) h

theorem safe_respondPairing {f : Json → PairingProg H B W α} {sessionId : String} {body : Json}
    (h : ∀ m', Rely m m' → G (d, m') (d, (m'.respondPairing sessionId body).2) ∧
      Safe (pairingTrans S L recordSignature) (Interfere Rely) G Q
        (.ofExcept (m'.respondPairing sessionId body).1 >>= f)
        (d, (m'.respondPairing sessionId body).2)) :
    Safe (pairingTrans S L recordSignature) (Interfere Rely) G Q
      (respondPairing sessionId body >>= f) (d, m) :=
  safe_served (fun m => m.respondPairing sessionId body) (by
    intro d m ev a s' hs
    cases ev <;> simp [pairingEnv] at hs
    exact ⟨hs.1.symm, hs.2.symm⟩) h

theorem safe_currentRecord {f : VaultRead H B W → PairingProg H B W α} {vaultId token : String}
    (h : ∀ m', Rely m m' → G (d, m') (d, (m'.currentRecord token).2) ∧
      Safe (pairingTrans S L recordSignature) (Interfere Rely) G Q
        (.ofExcept (m'.currentRecord token).1 >>= f) (d, (m'.currentRecord token).2)) :
    Safe (pairingTrans S L recordSignature) (Interfere Rely) G Q
      (currentRecord vaultId token >>= f) (d, m) :=
  safe_served (fun m => m.currentRecord token) (by
    intro d m ev a s' hs
    cases ev <;> simp [pairingEnv] at hs
    exact ⟨hs.1.symm, hs.2.symm⟩) h

theorem safe_write {k : LocalKey} {v : Option (k.Val H B W)} {f : Unit → PairingProg H B W α}
    (hw : ∀ m', G (d, m') (d.set k v, m')) (h : ∀ m', Rely m m' →
      Safe (pairingTrans S L recordSignature) (Interfere Rely) G Q (f ()) (d.set k v, m')) :
    Safe (pairingTrans S L recordSignature) (Interfere Rely) G Q
      (liftVault (Rust.write k v) >>= f) (d, m) := by
  intro s hi a s' ht
  obtain ⟨d', m'⟩ := s
  obtain ⟨rfl, hr⟩ := hi
  obtain ⟨⟨ev, hs⟩, rfl⟩ := ht
  cases ev with
  | vault ev =>
    rcases ev with lev | hev
    · cases lev <;> simp [pairingEnv, localStep] at hs
      obtain rfl := hs
      exact ⟨hw _, h m' hr⟩
    · simp [pairingEnv, VaultCall.isRequest] at hs
  | bytes b => simp [pairingEnv] at hs
  | serve => simp [pairingEnv] at hs
  | time t => simp [pairingEnv] at hs

/-- An upload, which the host takes or refuses. -/
theorem safe_putRecord {identityId : String} {c : VaultContainer H B W} {signer : Bytes}
    {device : Option String} {f : Except VaultClientError Unit → PairingProg H B W α}
    (h : ∀ m', Rely m m' → ∀ r, m'.records.put L ⟨c, recordSignature identityId c signer⟩ = r →
      G (d, m') (d, { m' with records := r.2 }) ∧
        Safe (pairingTrans S L recordSignature) (Interfere Rely) G Q (f r.1)
          (d, { m' with records := r.2 })) :
    Safe (pairingTrans S L recordSignature) (Interfere Rely) G Q
      (liftVault (Rust.putRecord identityId c signer device) >>= f) (d, m) := by
  intro u hi a s' ht
  obtain ⟨d', m'⟩ := u
  obtain ⟨rfl, hr⟩ := hi
  obtain ⟨⟨ev, hs⟩, ha⟩ := ht
  obtain ⟨r, hput⟩ : ∃ r, m'.records.put L ⟨c, recordSignature identityId c signer⟩ = r := ⟨_, rfl⟩
  have ha : a = r.1 := hput ▸ ha
  -- an answer that is the host's comes of a request that the host has taken
  suffices hs' : s' = (d', { m' with records := r.2 }) by
    subst ha hs'
    exact h m' hr r hput
  cases ev with
  | vault ev =>
    rcases ev with lev | hev
    · cases lev <;> simp [pairingEnv, localStep] at hs
    · cases hev with
      | drop e =>
        simp [pairingEnv, VaultCall.isRequest, hostAnswer] at hs
        have hkept : r.2 = m'.records := hput ▸ Host.put_error (hput ▸ ha ▸ hs.1.symm)
        rw [hkept]
        exact hs.2.symm
      | _ =>
        simp [pairingEnv, VaultCall.isRequest, hostAnswer, hput] at hs
        exact hs.2.symm
  | bytes b => simp [pairingEnv] at hs
  | serve => simp [pairingEnv] at hs
  | time t => simp [pairingEnv] at hs

variable (hG : ∀ s, G s s)
include hG

theorem safe_nowMs {f : Int → PairingProg H B W α} (h : ∀ m' t, Rely m m' →
      Safe (pairingTrans S L recordSignature) (Interfere Rely) G Q (f t) (d, m')) :
    Safe (pairingTrans S L recordSignature) (Interfere Rely) G Q (nowMs >>= f) (d, m) := by
  intro s hi a s' ht
  obtain ⟨d', m'⟩ := s
  obtain ⟨rfl, hr⟩ := hi
  obtain ⟨⟨ev, hs⟩, -⟩ := ht
  cases ev <;> simp [pairingEnv] at hs
  obtain ⟨rfl, rfl⟩ := hs
  exact ⟨hG _, h m' _ hr⟩

theorem safe_sleep {f : Unit → PairingProg H B W α} (h : ∀ m', Rely m m' →
      Safe (pairingTrans S L recordSignature) (Interfere Rely) G Q (f ()) (d, m')) :
    Safe (pairingTrans S L recordSignature) (Interfere Rely) G Q (sleep >>= f) (d, m) := by
  intro s hi a s' ht
  obtain ⟨d', m'⟩ := s
  obtain ⟨rfl, hr⟩ := hi
  obtain ⟨⟨ev, hs⟩, -⟩ := ht
  cases ev <;> simp [pairingEnv] at hs
  obtain rfl := hs
  exact ⟨hG _, h m' hr⟩

theorem safe_randomBytes {n : Nat} {f : Random n → PairingProg H B W α}
    (h : ∀ m' (b : Random n), Rely m m' → (n = 64 → ∃ s, scalarFromSeed S b.1 = .ok s) →
      Safe (pairingTrans S L recordSignature) (Interfere Rely) G Q (f b) (d, m')) :
    Safe (pairingTrans S L recordSignature) (Interfere Rely) G Q (randomBytes n >>= f) (d, m) := by
  intro t hi a s' ht
  obtain ⟨d', m'⟩ := t
  obtain ⟨rfl, hr⟩ := hi
  obtain ⟨⟨ev, hs⟩, hok⟩ := ht
  cases ev <;> simp [pairingEnv] at hs
  obtain ⟨hl, rfl, rfl⟩ := hs
  exact ⟨hG _, h m' _ hr hok⟩

/-- The approver's open vault. -/
theorem safe_getVault {v : UnlockedVault H B W} (hv : d.vault = some v)
    {f : Option (UnlockedVault H B W) → PairingProg H B W α}
    (h : ∀ m', Rely m m' →
      Safe (pairingTrans S L recordSignature) (Interfere Rely) G Q (f (some v)) (d, m')) :
    Safe (pairingTrans S L recordSignature) (Interfere Rely) G Q
      (.call (.vault .getVault) f) (d, m) := by
  intro s hi a s' ht
  obtain ⟨d', m'⟩ := s
  obtain ⟨rfl, hr⟩ := hi
  obtain ⟨⟨ev, hs⟩, -⟩ := ht
  cases ev with
  | vault ev =>
    rcases ev with lev | hev
    · cases lev <;> simp [pairingEnv, localStep] at hs
      obtain ⟨rfl, rfl⟩ := hs
      exact ⟨hG _, hv ▸ h m' hr⟩
    · simp [pairingEnv, VaultCall.isRequest] at hs
  | bytes b => simp [pairingEnv] at hs
  | serve => simp [pairingEnv] at hs
  | time t => simp [pairingEnv] at hs

theorem safe_vault {v : UnlockedVault H B W} (hv : d.vault = some v)
    {f : UnlockedVault H B W → PairingProg H B W α}
    (h : ∀ m', Rely m m' →
      Safe (pairingTrans S L recordSignature) (Interfere Rely) G Q (f v) (d, m')) :
    Safe (pairingTrans S L recordSignature) (Interfere Rely) G Q
      (liftVault Rust.vault >>= f) (d, m) :=
  safe_getVault hG hv h

theorem safe_read {k : LocalKey} {f : Option (k.Val H B W) → PairingProg H B W α}
    (h : ∀ m', Rely m m' →
      Safe (pairingTrans S L recordSignature) (Interfere Rely) G Q (f (d.store.get k)) (d, m')) :
    Safe (pairingTrans S L recordSignature) (Interfere Rely) G Q
      (liftVault (Rust.read k) >>= f) (d, m) := by
  intro s hi a s' ht
  obtain ⟨d', m'⟩ := s
  obtain ⟨rfl, hr⟩ := hi
  obtain ⟨⟨ev, hs⟩, v, rfl⟩ := ht
  cases ev with
  | vault ev =>
    rcases ev with lev | hev
    · cases lev <;> simp [pairingEnv, localStep] at hs
      obtain ⟨rfl, rfl⟩ := hs
      exact ⟨hG _, h m' hr⟩
    · simp [pairingEnv, VaultCall.isRequest] at hs
  | bytes b => simp [pairingEnv] at hs
  | serve => simp [pairingEnv] at hs
  | time t => simp [pairingEnv] at hs

theorem safe_signer {v : UnlockedVault H B W} (hv : d.vault = some v) {seed : Bytes}
    (hs : Rust.mskSeed L v = .ok seed) (hl : seed.length = 32) {f : Bytes → PairingProg H B W α}
    (h : ∀ m', Rely m m' →
      Safe (pairingTrans S L recordSignature) (Interfere Rely) G Q (f seed) (d, m')) :
    Safe (pairingTrans S L recordSignature) (Interfere Rely) G Q
      (liftVault (Rust.signer L) >>= f) (d, m) := by
  have hprog : liftVault ((.ofExcept (Rust.mskSeed L v) : Rust.RProg H B W Bytes) >>= fun seed =>
      if seed.length = 32 then pure seed
      else .raise (.msg "bad_response" "seed must be 32 bytes")) >>= f = f seed := by
    rw [hs]
    simp only [Prog.ofExcept_ok, Prog.ret_bind, hl, if_true]
    rfl
  refine safe_getVault hG hv fun m' hr => ?_
  exact (congrArg (fun p => Safe (pairingTrans S L recordSignature) (Interfere Rely) G Q p (d, m'))
    hprog).mpr (h m' hr)

end

/-! ## The new device -/

section
variable {F E : Type} [Field F] [AddCommGroup E] [Module F E] [DecidableEq F] [DecidableEq E]
  [DecidableEq H] {S : Suite F E} {L : Ckvf H B W} {P : PairingPackage H B W} {x : Exchange H B W}
  {st : CPaceInitiator} {recordSignature : RecordSignature H B W} {d : Device H B W}
  {m : Mailbox H B W} {a : Answer}

omit [DecidableEq H] in
theorem decodeLen_encode (hP : PairingLaws L P) {b : Bytes} {n : Nat} (h : b.length = n) :
    decodeLen L (L.base64urlEncode b) n = .ok b := by
  simp only [decodeLen, hP.decode_encode, Except.mapError, ok_bind, if_pos h]
  rfl

omit [DecidableEq H] [DecidableEq F] in
theorem readResponse_answered (hP : PairingLaws L P) (ha : Agrees S L P x st a) :
    readResponse L (answeredBody L x a) = .ok ⟨a.response.yb, a.tag.toJson L, a.vekBox.toJson L,
      L.base64urlEncode a.sig, x.record.container.vaultId, Mailbox.token x.sessionId⟩ := by
  have hyb := decodeLen_encode hP ha.yb_length
  have h1 : (answeredBody L x a).stringField? "a_pake_element" =
      some (L.base64urlEncode a.response.yb) := rfl
  have h2 : (answeredBody L x a).field? "confirmation_tag" = some (a.tag.toJson L) := rfl
  have h3 : (answeredBody L x a).field? "vek_envelope" = some (a.vekBox.toJson L) := rfl
  have h4 : (answeredBody L x a).stringField? "msk_signature" =
      some (L.base64urlEncode a.sig) := rfl
  have h5 : (answeredBody L x a).stringField? "vault_id" =
      some x.record.container.vaultId := rfl
  have h6 : (answeredBody L x a).stringField? "pairing_read_token" =
      some (Mailbox.token x.sessionId) := rfl
  simp only [readResponse, h1, h2, h3, h4, h5, h6, Option.getD_some, hyb, v2Field, tokenField,
    require, ok_bind]
  rfl

omit [DecidableEq H] [DecidableEq F] in
theorem openResponse_answered (hP : PairingLaws L P) (ha : Agrees S L P x st a)
    {sig vaultId token} :
    openResponse S L P st x.sessionId x.identityId ⟨a.response.yb, a.tag.toJson L,
      a.vekBox.toJson L, sig, vaultId, token⟩ = .ok (a.tag, x.vault.vek) := by
  have htag := ha.tag
  have hvek := ha.vek
  unfold Exchange.tek at htag hvek
  simp only [openResponse, fromJson_toJson hP, ha.isk, htag, hvek, Except.mapError, ok_bind]
  rfl

omit [DecidableEq H] [Module F E] [DecidableEq E] in
/-- The record verifies with the approver's MSK. -/
theorem verifyRecord_stored (hP : PairingLaws L P) (hx : x.Honest S L P) :
    Rust.verifyRecordSignature L x.record x.opened x.identityId = .ok () := by
  obtain ⟨sig, hs, -, hv⟩ := hP.sign (vaultRecordsSigningText x.identityId
    x.record.container.vaultId x.record.generation (L.hashText x.record.generationHash))
    hx.mskSeed_length
  obtain rfl : sig = x.record.mskSignature := Except.ok.inj (hs.symm.trans hx.signed)
  unfold Rust.verifyRecordSignature
  dsimp only
  rw [Rust.verifyAny, hx.msk]
  dsimp only
  rw [if_pos hv]

omit [DecidableEq H] in
theorem openPaired_stored (hP : PairingLaws L P) (hx : x.Honest S L P)
    (ha : Agrees S L P x st a) :
    openPaired L P x.record x.vault.vek x.identityId
      (transcript L.base64urlEncode x.sessionId x.identityId st.ya a.response.yb a.tag)
      (L.base64urlEncode a.sig) = .ok x.opened := by
  have hver := ha.verifies
  unfold Exchange.transcript at hver
  simp only [openPaired, hx.opens, hx.msk, verifyRecord_stored hP hx, decodeLen_encode hP
    ha.sig_length, Except.mapError, ok_bind, if_pos hver]
  rfl

variable (hS : S.Lawful) (hP : PairingLaws L P) (hx : x.Honest S L P)
  (hst : x.start S P = .ok st)

/-- The mailbox with the offer of the new device. -/
def Exchange.offer (x : Exchange H B W) (L : Ckvf H B W) (st : CPaceInitiator) (m : Mailbox H B W) :
    Mailbox H B W :=
  m.update x.sessionId (x.pendingRow L st)

omit [DecidableEq E] in
include hst in
/-- `startPairing` comes to the state of the exchange, and what holds of the offer from then on
holds when it returns. -/
theorem safe_startPairing {Rely : Mailbox H B W → Mailbox H B W → Prop} {J : Mailbox H B W → Prop}
    (hoffer : ∀ m', Rely m m' → J (x.offer L st m')) (hkept : ∀ {m m'}, J m → Rely m m' → J m') :
    Safe (pairingTrans S L recordSignature) (Interfere Rely) (fun _ _ => True)
      (fun r s => ∃ e, r = .ok (st, e) ∧ J s.2)
      (startPairing S L P x.sessionId x.identityId x.deviceName x.deviceId x.password x.random64
        x.expiresInSeconds) (d, m) := by
  have hstart : cpaceStart S x.password (sid P x.sessionId x.identityId) (ci x.identityId)
      x.random64 = .ok st := hst
  unfold startPairing
  rw [hstart]
  refine safe_createPairing fun m₁ h₁ => ⟨trivial, ?_⟩
  have hp : J (m₁.createPairing x.sessionId (.obj (pendingFields L x.identityId
      x.deviceName x.deviceId st.ya x.expiresInSeconds))).2 := hoffer m₁ h₁
  refine safe_nowMs (fun _ => trivial) fun m₂ t h₂ => ?_
  intro u hi
  obtain ⟨d', m₃⟩ := u
  obtain ⟨rfl, h₃⟩ := hi
  exact ⟨_, rfl, hkept (hkept hp h₂) h₃⟩

/-- How the polls end. -/
def PollsTo (S : Suite F E) (L : Ckvf H B W) (P : PairingPackage H B W) (x : Exchange H B W)
    (st : CPaceInitiator) (r : Except VaultClientError (Option Json))
    (s : Device H B W × Mailbox H B W) : Prop :=
  ∃ a, a.Honest S L P x st ∧ r = .ok (some (answeredBody L x a)) ∧
    Mailbox.token x.sessionId ∈ s.2.readTokens ∧ Stored x s.2 ∧ Collected S L P x st s.2

/-- A poll of an answered session collects the answer. -/
theorem safe_poll_answered (h : Answered S L P x st m) (expiresAtMs : Int) (n : Nat) :
    Safe (pairingTrans S L recordSignature) (Interfere (ApproverStep S L P x st))
      (fun s s' => DeviceStep S L P x st s.2 s'.2) (PollsTo S L P x st)
      (awaitPolls x.sessionId x.deviceId expiresAtMs (n + 1)) (d, m) := by
  unfold awaitPolls
  refine safe_getPairing fun m₁ h₁ => ?_
  obtain ⟨a, ha, hm, hr⟩ := h.step h₁
  rw [getPairing_answered hm hr]
  refine ⟨⟨.inr ⟨⟨a, ha, hm, hr⟩, a, ha, by simp [Mailbox.update]⟩, rfl⟩, ?_⟩
  have hv1 : refuseV1 (answeredBody L x a) = .ok () := by
    simp [refuseV1, answeredBody]
  have hstate : ((answeredBody L x a).stringField? "state").getD "" = "RESPONDED" := by
    simp [answeredBody, Json.stringField?, Json.asString]
  have hpake : ((answeredBody L x a).stringField? "a_pake_element").isSome = true := by
    simp [answeredBody, Json.stringField?, Json.asString]
  simp only [Prog.ofExcept_ok, Prog.ret_bind, hv1, hstate, hpake, and_self, if_true]
  intro t hi
  obtain ⟨d', m₂⟩ := t
  obtain ⟨rfl, h₂⟩ := hi
  exact ⟨a, ha, rfl, h₂.tokens (by simp), h₂.stored hr,
    Collected.kept ⟨a, ha, by simp [Mailbox.update]⟩ h₂⟩

theorem safe_awaitPolls (h : Pending L x st m ∨ Answered S L P x st m) (expiresAtMs : Int)
    (n : Nat) :
    Safe (pairingTrans S L recordSignature) (Interfere (ApproverStep S L P x st))
      (fun s s' => DeviceStep S L P x st s.2 s'.2)
      (fun r s => PollsTo S L P x st r s ∨
        Unapproved r ∧ (Pending L x st s.2 ∨ Answered S L P x st s.2))
      (awaitPolls x.sessionId x.deviceId expiresAtMs n) (d, m) := by
  induction n generalizing m with
  | zero => exact fun _ hr => .inr ⟨.inl rfl, waiting_step h hr.2⟩
  | succ n ih =>
    rcases h with h | h
    · unfold awaitPolls
      refine safe_getPairing fun m₁ h₁ => ?_
      rcases waiting_step (.inl h) h₁ with hp | hp
      · rw [getPairing_pending hp]
        refine ⟨.refl _, ?_⟩
        have hv1 : refuseV1 (pendingBody L x st) = .ok () := by
          simp [refuseV1, pendingBody]
        have hstate : ((pendingBody L x st).stringField? "state").getD "" = "PENDING" := by
          simp [pendingBody, Json.stringField?, Json.asString]
        simp only [Prog.ofExcept_ok, Prog.ret_bind, hv1, hstate]
        rw [if_neg (by simp), if_neg (by simp)]
        refine safe_nowMs (fun _ => .refl _) fun m₂ t h₂ => ?_
        split
        · exact fun _ hr => .inr ⟨.inr ⟨_, rfl, rfl⟩,
            waiting_step (waiting_step (.inl hp) h₂) hr.2⟩
        · refine safe_sleep (fun _ => .refl _) fun m₃ h₃ => ?_
          exact ih (waiting_step (waiting_step (.inl hp) h₂) h₃)
      · -- the approver has answered before this poll
        have hpoll : Safe (pairingTrans S L recordSignature)
            (Interfere (ApproverStep S L P x st)) (fun s s' => DeviceStep S L P x st s.2 s'.2)
            (PollsTo S L P x st) (awaitPolls x.sessionId x.deviceId expiresAtMs (n + 1)) (d, m₁) :=
          safe_poll_answered hp expiresAtMs n
        unfold awaitPolls at hpoll
        obtain ⟨hg, hs⟩ := hpoll (d, m₁) ⟨rfl, .refl _⟩ _ _ ⟨⟨.serve, rfl⟩, trivial⟩
        exact ⟨hg, hs.imp fun r s hq => .inl hq⟩
    · exact (safe_poll_answered h expiresAtMs n).imp fun r s hq => .inl hq

include hS hP hx hst in
/-- The answer gives the vault of the host's record. -/
theorem safe_collectResponse (ha : a.Honest S L P x st)
    (ht : Mailbox.token x.sessionId ∈ m.readTokens) (hr : Stored x m)
    (hc : Collected S L P x st m) :
    Safe (pairingTrans S L recordSignature) (Interfere (ApproverStep S L P x st))
      (fun s s' => DeviceStep S L P x st s.2 s'.2)
      (fun r s => r = .ok x.opened ∧ Collected S L P x st s.2)
      (collectResponse S L P st x.sessionId x.identityId (answeredBody L x a)) (d, m) := by
  have hag := ha.agrees hS hP hx hst
  unfold collectResponse
  rw [readResponse_answered hP hag]
  simp only [Prog.ofExcept_ok, Prog.ret_bind, openResponse_answered hP hag]
  refine safe_currentRecord fun m₁ h₁ => ?_
  have hread : m₁.currentRecord (Mailbox.token x.sessionId) = (.ok ⟨some x.record⟩,
      { m₁ with readTokens := m₁.readTokens.filter (· ≠ Mailbox.token x.sessionId) }) := by
    have hr₁ := h₁.stored hr
    unfold Stored at hr₁
    simp only [Mailbox.currentRecord, if_pos (h₁.tokens ht), hr₁]
  rw [hread]
  refine ⟨⟨.inl rfl, rfl⟩, ?_⟩
  simp only [Prog.ofExcept_ok, Prog.ret_bind, openPaired_stored hP hx hag]
  have hc₁ : Collected S L P x st
      { m₁ with readTokens := m₁.readTokens.filter (· ≠ Mailbox.token x.sessionId) } := by
    obtain ⟨b, hb, hm⟩ := hc.kept h₁
    exact ⟨b, hb, hm⟩
  exact fun _ hr => ⟨rfl, hc₁.kept hr.2⟩

include hS hP hx hst in
theorem safe_awaitResponse (h : Pending L x st m ∨ Answered S L P x st m) (expiresAtMs : Int)
    (n : Nat) :
    Safe (pairingTrans S L recordSignature) (Interfere (ApproverStep S L P x st))
      (fun s s' => DeviceStep S L P x st s.2 s'.2)
      (fun r s => Waited S L P x st r s.2)
      (awaitResponse S L P n x.sessionId x.identityId x.deviceId st expiresAtMs) (d, m) := by
  unfold awaitResponse
  refine safe_bind (fun _ => ⟨rfl, .refl _⟩)
    ((safe_awaitPolls h expiresAtMs n).imp fun r s hr => ?_)
  rcases hr with ⟨a, ha, rfl, ht, hm, hc⟩ | ⟨rfl | ⟨e, rfl, he⟩, hw⟩
  · refine safe_bind (fun _ => ⟨rfl, .refl _⟩)
      ((safe_collectResponse hS hP hx hst ha ht hm hc).imp fun r s hr => ?_)
    obtain ⟨rfl, hc⟩ := hr
    exact fun _ hr => .inl ⟨rfl, hc.kept hr.2⟩
  · exact fun _ hr => .inr ⟨.inl rfl, waiting_step hw hr.2⟩
  · exact .inr ⟨.inr ⟨e, rfl, he⟩, hw⟩

include hS hP hx hst in
/-- Once the approver has answered, the next poll brings the vault. -/
theorem safe_awaitResponse_answered (h : Answered S L P x st m) (expiresAtMs : Int) (n : Nat) :
    Safe (pairingTrans S L recordSignature) (Interfere (ApproverStep S L P x st))
      (fun s s' => DeviceStep S L P x st s.2 s'.2)
      (fun r s => r = .ok (some x.opened) ∧ Collected S L P x st s.2)
      (awaitResponse S L P (n + 1) x.sessionId x.identityId x.deviceId st expiresAtMs) (d, m) := by
  unfold awaitResponse
  refine safe_bind (fun _ => ⟨rfl, .refl _⟩)
    ((safe_poll_answered h expiresAtMs n).imp fun r s hr => ?_)
  obtain ⟨a, ha, rfl, ht, hm, hc⟩ := hr
  refine safe_bind (fun _ => ⟨rfl, .refl _⟩)
    ((safe_collectResponse hS hP hx hst ha ht hm hc).imp fun r s hr => ?_)
  obtain ⟨rfl, hc⟩ := hr
  exact fun _ hr => ⟨rfl, hc.kept hr.2⟩

/-! ## The approver -/

include hS hP hx hst in
/-- The approver reads the request that the new device has made. -/
theorem safe_fetchPairingRequest (h : Pending L x st m) :
    Safe (pairingTrans S L recordSignature) (Interfere (DeviceStep S L P x st))
      (fun s s' => ApproverStep S L P x st s.2 s'.2)
      (fun r s => r = .ok ⟨x.sessionId, x.deviceName, x.deviceId, st.ya⟩ ∧ s.1 = d ∧
        Pending L x st s.2 ∧ s.2.records = m.records)
      (fetchPairingRequest L x.sessionId) (d, m) := by
  unfold fetchPairingRequest
  refine safe_getPairing fun m₁ h₁ => ?_
  have hp := h.step h₁
  rw [getPairing_pending hp]
  obtain ⟨st', hst', hl⟩ := hx.start hS hP
  obtain rfl : st' = st := Except.ok.inj (hst'.symm.trans hst)
  have hya := decodeLen_encode hP hl
  have hread : readPending L x.sessionId (pendingBody L x st') =
      .ok ⟨x.sessionId, x.deviceName, x.deviceId, st'.ya⟩ := by
    simp [readPending, refuseV1, pendingBody, Json.stringField?, Json.asString, require, hya,
      ok_bind]
  simp only [Prog.ofExcept_ok, Prog.ret_bind, hread]
  refine ⟨.refl _, ?_⟩
  intro t hi
  obtain ⟨d', m₂⟩ := t
  obtain ⟨rfl, h₂⟩ := hi
  exact ⟨rfl, rfl, hp.step h₂, h₂.records.trans h₁.records⟩

include hS hP hx hst in
/-- The approver's answer is an honest one, from whatever good seed it draws. -/
theorem safe_answer (hv : d.vault = some x.vault) (h : Pending L x st m) (hr : Stored x m) :
    Safe (pairingTrans S L recordSignature) (Interfere (DeviceStep S L P x st))
      (fun s s' => ApproverStep S L P x st s.2 s'.2)
      (fun r s => r = .ok () ∧ s.1 = d ∧ (Answered S L P x st s.2 ∨ Collected S L P x st s.2))
      (answer S L P x.binding ⟨x.sessionId, x.deviceName, x.deviceId, st.ya⟩ x.password)
      (d, m) := by
  have hsame : ∀ s : Device H B W × Mailbox H B W, ApproverStep S L P x st s.2 s.2 :=
    fun s => .refl s.2
  unfold answer
  refine safe_randomBytes hsame fun m₁ seed h₁ hseed => ?_
  obtain ⟨b, hb⟩ := hseed rfl
  obtain ⟨r, hresp, -, -⟩ := hx.respond hS hP hst hb
  have hresp' : cpaceRespond S x.password (sid P x.sessionId x.binding.identityId)
      (ci x.binding.identityId) st.ya seed.1 = .ok r := hresp
  simp only [hresp', Prog.ofExcept_ok, Prog.ret_bind]
  have hk : (x.tek P st r.isk r.yb).length = 32 := tek_length hP _ _ _ _ _
  refine safe_randomBytes hsame fun m₂ iv h₂ _ => ?_
  obtain ⟨tag, htag, -⟩ := open_seal hP hk iv (utf8 pairingConfirmPlaintext)
  have htag' : sealBox P iv (tek P r.isk x.sessionId st.ya r.yb x.binding.identityId)
      (utf8 pairingConfirmPlaintext) = .ok tag := htag
  simp only [htag', Prog.ofExcept_ok, Prog.ret_bind]
  refine safe_vault hsame hv fun m₃ h₃ => ?_
  refine safe_randomBytes hsame fun m₄ iv' h₄ _ => ?_
  obtain ⟨vekBox, hvek, -⟩ := open_seal hP hk iv' x.vault.vek
  have hvek' : sealBox P iv' (tek P r.isk x.sessionId st.ya r.yb x.binding.identityId)
      x.vault.vek = .ok vekBox := hvek
  simp only [hvek', Prog.ofExcept_ok, Prog.ret_bind]
  refine safe_signer hsame hv hx.mskSeed hx.mskSeed_length fun m₅ h₅ => ?_
  obtain ⟨sig, hsig, -, -⟩ := hP.sign (x.transcript L st r.yb tag) hx.mskSeed_length
  have hsig' : P.ed25519Sign x.mskSeed (transcript L.base64urlEncode x.sessionId
      x.binding.identityId st.ya r.yb tag) = .ok sig := hsig
  simp only [hsig', Except.mapError, Prog.ofExcept_ok, Prog.ret_bind]
  -- the mailbox takes the answer
  refine safe_respondPairing fun m₆ h₆ => ?_
  have hp : Pending L x st m₆ :=
    (((((h.step h₁).step h₂).step h₃).step h₄).step h₅).step h₆
  have hs : Stored x m₆ :=
    h₆.stored (h₅.stored (h₄.stored (h₃.stored (h₂.stored (h₁.stored hr)))))
  have ha : Answer.Honest S L P x st ⟨r, tag, vekBox, sig⟩ :=
    ⟨⟨seed.1, hresp⟩, ⟨iv, htag⟩, ⟨iv', hvek⟩, hsig⟩
  have hpost : m₆.respondPairing x.sessionId (.obj (responseFields L x.binding.identityId r.yb
      vekBox tag sig)) =
          (.ok (.obj [("session_id", .str x.sessionId), ("state", .str "RESPONDED")]),
        m₆.update x.sessionId (x.answeredRow L st ⟨r, tag, vekBox, sig⟩)) := by
    unfold Pending at hp
    simp only [Mailbox.respondPairing, hp, stateOf_pending, ne_eq, not_true_eq_false, if_false]
    rfl
  rw [hpost]
  have hans : Answered S L P x st
      (m₆.update x.sessionId (x.answeredRow L st ⟨r, tag, vekBox, sig⟩)) :=
    ⟨_, ha, by simp [Mailbox.update], hs⟩
  refine ⟨⟨.inr ⟨hp, hans⟩, fun _ => hs, fun _ ht => ht⟩, ?_⟩
  intro t hi
  obtain ⟨d', m₇⟩ := t
  obtain ⟨rfl, h₇⟩ := hi
  exact ⟨rfl, rfl, settled_step (.inl hans) h₇⟩

/-- Once the answer is collected, the next poll of the approver tells it so. -/
theorem safe_approvePolls_collected (h : Collected S L P x st m) (deadline : Int) (n : Nat) :
    Safe (pairingTrans S L recordSignature) (Interfere (DeviceStep S L P x st))
      (fun s s' => ApproverStep S L P x st s.2 s'.2)
      (fun r s => r = .ok (some ()) ∧ s.1 = d ∧ Collected S L P x st s.2)
      (approvePolls x.sessionId deadline (n + 1)) (d, m) := by
  unfold approvePolls
  refine safe_getPairing fun m₁ h₁ => ?_
  have hc := h.step h₁
  rw [getPairing_collected hc]
  refine ⟨.refl _, ?_⟩
  intro t hi
  obtain ⟨d', m₂⟩ := t
  obtain ⟨rfl, h₂⟩ := hi
  exact ⟨rfl, rfl, hc.step h₂⟩

/-- The approver waits until the new device has collected the answer. -/
theorem safe_approvePolls (h : Answered S L P x st m ∨ Collected S L P x st m) (deadline : Int)
    (n : Nat) :
    Safe (pairingTrans S L recordSignature) (Interfere (DeviceStep S L P x st))
      (fun s s' => ApproverStep S L P x st s.2 s'.2)
      (fun r s => Approved S L P x st r s.2 ∧ s.1 = d)
      (approvePolls x.sessionId deadline n) (d, m) := by
  induction n generalizing m with
  | zero => exact fun _ hr => ⟨⟨settled_step h hr.2, .inr (.inl rfl)⟩, hr.1⟩
  | succ n ih =>
    rcases h with h | h
    · unfold approvePolls
      refine safe_getPairing fun m₁ h₁ => ?_
      rcases settled_step (.inl h) h₁ with ha | hc
      · rw [getPairing_other ha]
        refine ⟨.refl _, ?_⟩
        refine safe_nowMs (fun _ => .refl _) fun m₂ t h₂ => ?_
        split
        · exact fun _ hr => ⟨⟨settled_step (settled_step (.inl ha) h₂) hr.2,
            .inr (.inr ⟨_, rfl, rfl⟩)⟩, hr.1⟩
        · refine safe_sleep (fun _ => .refl _) fun m₃ h₃ => ?_
          exact ih (settled_step (settled_step (.inl ha) h₂) h₃)
      · -- the new device has collected the answer before this poll
        rw [getPairing_collected hc]
        refine ⟨.refl _, ?_⟩
        exact fun _ hr => ⟨⟨settled_step (.inr hc) hr.2, .inl ⟨rfl, hc.step hr.2⟩⟩, hr.1⟩
    · exact (safe_approvePolls_collected h deadline n).imp fun r s hq =>
        ⟨⟨.inr hq.2.2, .inl ⟨hq.1, hq.2.2⟩⟩, hq.2.1⟩

omit [DecidableEq H] in
theorem liftVault_bind {α β : Type} (p : Rust.RProg H B W α) (f : α → Rust.RProg H B W β) :
    liftVault (p >>= f) = liftVault p >>= fun a => liftVault (f a) := by
  induction p with
  | ret a => rfl
  | raise e => rfl
  | call c k ih =>
    have h : (fun a : c.Ans => liftVault (k a >>= f)) =
        fun a => liftVault (k a) >>= fun b => liftVault (f b) := funext ih
    exact congrArg (Prog.call (I := pairingIface H B W) (.vault c)) h

include hx in
/-- The push of a vault that the host has or takes: the record is the head, and the device knows
it. -/
theorem safe_push (hd : Ready x recordSignature d m) (h : Pending L x st m) :
    Safe (pairingTrans S L recordSignature) (Interfere (DeviceStep S L P x st))
      (fun s s' => ApproverStep S L P x st s.2 s'.2)
      (fun r s => r = .ok () ∧ Pushed x s.1 ∧ Pending L x st s.2 ∧ Stored x s.2)
      (liftVault (Rust.push L (some x.binding))) (d, m) := by
  have hsame : ∀ s : Device H B W × Mailbox H B W, ApproverStep S L P x st s.2 s.2 :=
    fun s => .refl s.2
  unfold Rust.push Rust.pushRounds
  simp only [liftVault_bind]
  refine safe_vault hsame hd.vault fun m₁ h₁ => ?_
  refine safe_read hsame fun m₂ h₂ => ?_
  rcases hd.head with ⟨hs, hr⟩ | ⟨hs, hu, hr⟩
  · have hs' : d.store.get .syncedHash = some x.vault.container.generationHash := hs
    simp only [hs', if_true]
    intro t hi
    obtain ⟨d', m₃⟩ := t
    obtain ⟨rfl, h₃⟩ := hi
    exact ⟨rfl, ⟨hd.vault, hs⟩, ((h.step h₁).step h₂).step h₃, h₃.stored (h₂.stored (h₁.stored hr))⟩
  · have hs' : ¬ d.store.get .syncedHash = some x.vault.container.generationHash := hs
    simp only [if_neg hs', liftVault_bind]
    refine safe_signer hsame hd.vault hx.mskSeed hx.mskSeed_length fun m₃ h₃ => ?_
    refine safe_putRecord fun m₄ h₄ r hput => ?_
    -- the new device has stored nothing meanwhile
    have hkept : m₄.records = m.records := by
      rw [h₄.records, h₃.records, h₂.records, h₁.records]
    have hr₄ : Stored x m₄ ∨ (¬ m₄.records.Stores x.vault.container ∧
        m₄.records.Extends x.vault.container) := by
      unfold Stored at hr ⊢
      rwa [hkept]
    obtain ⟨hok, hlast⟩ := put_uploaded (L := L) hu hr₄
    have hput : m₄.records.put L (x.uploaded recordSignature) = r := hput
    rw [hput] at hok hlast
    have hp₄ : Pending L x st m₄ := (((h.step h₁).step h₂).step h₃).step h₄
    have hp : Pending L x st { m₄ with records := r.2 } := hp₄
    refine ⟨⟨.inl rfl, fun _ => hlast, fun _ ht => ht⟩, ?_⟩
    rw [hok, ← Prog.bind_ret (liftVault _)]
    refine safe_write (fun _ => .refl _) fun m₅ h₅ => ?_
    intro t hi
    obtain ⟨d', m₆⟩ := t
    obtain ⟨rfl, h₆⟩ := hi
    exact ⟨rfl, ⟨hd.vault, rfl⟩, (hp.step h₅).step h₆, h₆.stored (h₅.stored hlast)⟩

include hS hP hx hst in
/-- The approver pushes and answers. -/
theorem safe_respond (hd : Ready x recordSignature d m) (h : Pending L x st m) :
    Safe (pairingTrans S L recordSignature) (Interfere (DeviceStep S L P x st))
      (fun s s' => ApproverStep S L P x st s.2 s'.2)
      (fun r s => (r = .ok () ∧ Pushed x s.1 ∧
        (Answered S L P x st s.2 ∨ Collected S L P x st s.2)) ∧ Stored x s.2)
      (respond S L P x.binding ⟨x.sessionId, x.deviceName, x.deviceId, st.ya⟩ x.password)
      (d, m) := by
  have hrefl : ∀ s : Device H B W × Mailbox H B W, Interfere (DeviceStep S L P x st) s s :=
    fun _ => ⟨rfl, .refl _⟩
  unfold respond
  refine safe_bind hrefl ((safe_push hx hd h).imp fun r s hs => ?_)
  obtain ⟨rfl, hd', hp, hr⟩ := hs
  refine ((safe_answer hS hP hx hst hd'.vault hp hr).imp ?_).keeps (J := fun s => Stored x s.2)
    (fun hi => hi.2.stored) (fun hg => hg.stored) hr
  intro r s' hh
  obtain ⟨rfl, hd'', ha⟩ := hh
  exact ⟨rfl, hd'' ▸ hd', ha⟩

include hS hP hx hst in
theorem safe_approvePairing (hd : Ready x recordSignature d m) (h : Pending L x st m)
    (polls : Nat) (timeoutMs : Int) :
    Safe (pairingTrans S L recordSignature) (Interfere (DeviceStep S L P x st))
      (fun s s' => ApproverStep S L P x st s.2 s'.2)
      (fun r s => (Approved S L P x st r s.2 ∧ Pushed x s.1) ∧ Stored x s.2)
      (approvePairing S L P polls (some x.binding)
        ⟨x.sessionId, x.deviceName, x.deviceId, st.ya⟩ x.password timeoutMs) (d, m) := by
  have hrefl : ∀ s : Device H B W × Mailbox H B W, Interfere (DeviceStep S L P x st) s s :=
    fun _ => ⟨rfl, .refl _⟩
  unfold approvePairing
  refine safe_bind hrefl ((safe_respond hS hP hx hst hd h).imp fun r s hs => ?_)
  obtain ⟨⟨rfl, hd', hs⟩, hr⟩ := hs
  refine safe_nowMs (fun _ => .refl _) fun m₁ t h₁ => ?_
  refine ((safe_approvePolls (settled_step hs h₁) _ _).imp ?_).keeps (J := fun s => Stored x s.2)
    (fun hi => hi.2.stored) (fun hg => hg.stored) (h₁.stored hr)
  intro r s' hh
  obtain ⟨ha, hd''⟩ := hh
  exact ⟨ha, hd'' ▸ hd'⟩

end

end Pairing
