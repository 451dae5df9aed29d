import SdkPubkey.Pairing.Protocol
import SdkPubkey.Vault.Host
import SdkPubkey.Vault.Rust

/-!
# Pairing through the vault host's mailbox

`crates/scomm-vault/src/pairing/pairing_flow.rs`, as programs whose calls are the requests to the
mailbox, the approver's `KeyVault`, the clock and random bytes. The session id, the password and the
64 bytes of the new device's scalar are arguments of `startPairing`. A loop that polls is given the
number of polls that are looked at; `none` is the result while it still polls.

`Mailbox` is the host's side: the sessions, the stored generations and the read tokens, as in the
test host of the Rust client (`crates/scomm-vault/tests/common/mod.rs`).
-/

namespace Pairing

open Ckvf Lib Vault Oprf

variable {H B W : Type}

/-! ## Calls -/

inductive PairingCall (H B W : Type) where
  /-- A call of the approver's `KeyVault`. -/
  | vault (c : VaultCall H B W)
  | randomBytes (n : Nat)
  | createPairing (sessionId : String) (body : Json)
  | getPairing (sessionId : String) (retriever : Option String)
  | respondPairing (sessionId : String) (body : Json)
  /-- A read of the current generation under a pairing token. -/
  | currentRecord (vaultId token : String)
  | now
  | sleep

@[reducible] def PairingCall.Ans {H B W : Type} : PairingCall H B W → Type
  | .vault c => c.Ans
  | .randomBytes n => Random n
  | .createPairing _ _ => Except VaultClientError Json
  | .getPairing _ _ => Except VaultClientError Json
  | .respondPairing _ _ => Except VaultClientError Json
  | .currentRecord _ _ => Except VaultClientError (VaultRead H B W)
  | .now => Int
  | .sleep => Unit

@[reducible] def pairingIface (H B W : Type) : Iface := ⟨PairingCall H B W, PairingCall.Ans⟩

abbrev PairingProg (H B W : Type) := Prog (pairingIface H B W) VaultClientError

def liftVault {α : Type} : Rust.RProg H B W α → PairingProg H B W α
  | .ret a => .ret a
  | .raise e => .raise e
  | .call c k => .call (.vault c) fun (a : c.Ans) => liftVault (k a)

def randomBytes (n : Nat) : PairingProg H B W (Random n) :=
  .call (.randomBytes n) fun (b : Random n) => .ret b

def createPairing (sessionId : String) (body : Json) : PairingProg H B W Json :=
  .call (.createPairing sessionId body) fun (r : Except VaultClientError Json) => .ofExcept r

def getPairing (sessionId : String) (retriever : Option String) : PairingProg H B W Json :=
  .call (.getPairing sessionId retriever) fun (r : Except VaultClientError Json) => .ofExcept r

def respondPairing (sessionId : String) (body : Json) : PairingProg H B W Json :=
  .call (.respondPairing sessionId body) fun (r : Except VaultClientError Json) => .ofExcept r

def currentRecord (vaultId token : String) : PairingProg H B W (VaultRead H B W) :=
  .call (.currentRecord vaultId token)
    fun (r : Except VaultClientError (VaultRead H B W)) => .ofExcept r

def nowMs : PairingProg H B W Int := .call .now fun (t : Int) => .ret t

def sleep : PairingProg H B W Unit := .call .sleep fun (_ : Unit) => .ret ()

/-! ## The new device -/

def refuseV1 (body : Json) : Except VaultClientError Unit :=
  if (body.field? "b_ephemeral_public_key").isSome ∨
      (body.field? "a_ephemeral_public_key").isSome then
    .error (.msg "pairing_protocol_unsupported"
      "the pairing mailbox spoke v1 ECDH; CPace v2 is required")
  else .ok ()

def require {α : Type} (x : Option α) (code message : String) : Except VaultClientError α :=
  match x with
  | some a => .ok a
  | none => .error (.msg code message)

/-- An entry of the response that CPace v2 needs. -/
def v2Field {α : Type} (x : Option α) : Except VaultClientError α :=
  require x "pairing_protocol_unsupported" "the pairing response is missing CPace v2 fields"

/-- An entry of the response that gives access to the stored vault. -/
def tokenField {α : Type} (x : Option α) : Except VaultClientError α :=
  require x "pairing_read_token_invalid"
    "the pairing response has no vault_id and pairing_read_token"

def decodeLen (L : Ckvf H B W) (s : String) (len : Nat) : Except VaultClientError Bytes := do
  let b ← (L.base64urlDecode s).mapError fun e => .msg "bad_response" e.code
  if b.length = len then pure b
  else .error (.msg "bad_response" ("expected " ++ toString len ++ " bytes"))

section
variable {F E : Type} [Field F] [AddCommGroup E] [Module F E] [DecidableEq F] [DecidableEq E]
  (S : Suite F E) (L : Ckvf H B W) (P : PairingPackage H B W)

def pendingFields (identityId deviceName deviceId : String) (ya : Bytes) (expiresInSeconds : Nat) :
    Json.Obj :=
  [("identity_id", .str identityId), ("device_name", .str deviceName),
    ("requested_tier", .str pairingTier), ("b_pake_element", .str (L.base64urlEncode ya)),
    ("device_id", .str deviceId), ("expires_in", .num expiresInSeconds)]

/-- Opens the mailbox; the state of the exchange and when it expires. -/
def startPairing (sessionId identityId deviceName deviceId : String) (password random64 : Bytes)
    (expiresInSeconds : Nat) : PairingProg H B W (CPaceInitiator × Int) := do
  let state ← .ofExcept
    (cpaceStart S password (sid P sessionId identityId) (ci identityId) random64)
  let _ ← createPairing sessionId
    (.obj (pendingFields L identityId deviceName deviceId state.ya expiresInSeconds))
  let now ← nowMs
  pure (state, now + expiresInSeconds * 1000)

/-- The polls of `await_response`. -/
def awaitPolls (sessionId deviceId : String) (expiresAtMs : Int) :
    Nat → PairingProg H B W (Option Json)
  | 0 => pure none
  | n + 1 => do
    let body ← getPairing sessionId (some deviceId)
    .ofExcept (refuseV1 body)
    let s := (body.stringField? "state").getD ""
    if s = "RESPONDED" ∧ (body.stringField? "a_pake_element").isSome then pure (some body)
    else if s = "COMPLETED" ∨ s = "RESPONDED" then
      .raise (.msg "pairing_session_already_responded"
        "the pairing response was already retrieved")
    else
      let now ← nowMs
      if now > expiresAtMs then
        .raise (.msg "pairing_session_expired" "the other device did not approve in time")
      else
        sleep
        awaitPolls sessionId deviceId expiresAtMs n

/-- What the new device takes out of a response. -/
structure Response where
  yb : Bytes
  tag : Json
  vekBox : Json
  sig : String
  vaultId : String
  token : String

def readResponse (body : Json) : Except VaultClientError Response := do
  let yb ← decodeLen L ((body.stringField? "a_pake_element").getD "") 32
  let tag ← v2Field (body.field? "confirmation_tag")
  let vekBox ← v2Field (body.field? "vek_envelope")
  let sig ← v2Field (body.stringField? "msk_signature")
  let vaultId ← tokenField (body.stringField? "vault_id")
  let token ← tokenField (body.stringField? "pairing_read_token")
  pure ⟨yb, tag, vekBox, sig, vaultId, token⟩

/-- The confirmation tag and the VEK of a response. -/
def openResponse (state : CPaceInitiator) (sessionId identityId : String) (r : Response) :
    Except VaultClientError (PairingBox × Bytes) := do
  let confirmation ← PairingBox.fromJson L r.tag
  let key ← cpaceFinish S state r.yb
  let tek := tek P key sessionId state.ya r.yb identityId
  let _ ← (openBox P tek confirmation).mapError fun e =>
    if e.code = "pairing_password_mismatch" then e
    else .msg "pairing_password_mismatch" "the confirmation failed: wrong password or tampering"
  let vekBox ← PairingBox.fromJson L r.vekBox
  let vek ← openBox P tek vekBox
  pure (confirmation, vek)

/-- The vault of the stored record, when its MSK signed the record and the transcript. -/
def openPaired (record : VaultRecord H B W) (vek : Bytes) (identityId transcript sig : String) :
    Except VaultClientError (UnlockedVault H B W) := do
  let opened ← (P.openVaultWith record.container vek).mapError .ofCkvf
  Rust.verifyRecordSignature L record opened identityId
  let pk ← (L.base64urlDecode opened.payload.msk.current.publicKey).mapError
    fun e => .msg "bad_response" e.code
  let signature ← decodeLen L sig 64
  if L.ed25519Verify pk transcript signature then pure opened
  else .error (.msg "pairing_signature_invalid"
    "the pairing transcript is not signed by the vault MSK")

def collectResponse (state : CPaceInitiator) (sessionId identityId : String) (body : Json) :
    PairingProg H B W (UnlockedVault H B W) := do
  let r ← .ofExcept (readResponse L body)
  let (confirmation, vek) ← .ofExcept (openResponse S L P state sessionId identityId r)
  let read ← currentRecord r.vaultId r.token
  match read.record with
  | none =>
    .raise (.msg "vault_not_synced" "the other device has not stored its vault on the host yet")
  | some record =>
    .ofExcept (openPaired L P record vek identityId
      (transcript L.base64urlEncode sessionId identityId state.ya r.yb confirmation) r.sig)

def awaitResponse (polls : Nat) (sessionId identityId deviceId : String) (state : CPaceInitiator)
    (expiresAtMs : Int) : PairingProg H B W (Option (UnlockedVault H B W)) := do
  match ← awaitPolls sessionId deviceId expiresAtMs polls with
  | none => pure none
  | some body =>
    let opened ← collectResponse S L P state sessionId identityId body
    pure (some opened)

/-! ## The approving device -/

structure PendingPairing where
  sessionId : String
  deviceName : String
  deviceId : String
  ya : Bytes

def readPending (sessionId : String) (body : Json) : Except VaultClientError PendingPairing := do
  refuseV1 body
  if body.stringField? "state" ≠ some "PENDING" then
    .error (.msg "pairing_session_already_responded"
      ("the pairing session is not awaiting approval (" ++
      (body.stringField? "state").getD "" ++ ")"))
  else
    let ya ← require (body.stringField? "b_pake_element") "pairing_protocol_unsupported"
      "the pending pairing session has no CPace element"
    let ya ← decodeLen L ya 32
    pure ⟨sessionId, (body.stringField? "device_name").getD "",
      (body.stringField? "device_id").getD "", ya⟩

def fetchPairingRequest (sessionId : String) : PairingProg H B W PendingPairing := do
  let body ← getPairing sessionId none
  .ofExcept (readPending L sessionId body)

def responseFields (identityId : String) (yb : Bytes) (vekBox tag : PairingBox) (sig : Bytes) :
    Json.Obj :=
  [("identity_id", .str identityId), ("a_pake_element", .str (L.base64urlEncode yb)),
    ("vek_envelope", vekBox.toJson L), ("confirmation_tag", tag.toJson L),
    ("msk_signature", .str (L.base64urlEncode sig))]

def approvePolls (sessionId : String) (deadline : Int) : Nat → PairingProg H B W (Option Unit)
  | 0 => pure none
  | n + 1 => do
    let body ← getPairing sessionId none
    if body.stringField? "state" = some "COMPLETED" then pure (some ())
    else
      let now ← nowMs
      if now > deadline then
        .raise (.msg "pairing_session_expired"
          "the new device did not collect the pairing response")
      else
        sleep
        approvePolls sessionId deadline n

/-- The answer to the request: the VEK under the TEK, and the signed transcript. -/
def answer (b : VaultHostBinding) (request : PendingPairing) (password : Bytes) :
    PairingProg H B W Unit := do
  let random64 ← randomBytes 64
  let responded ← .ofExcept (cpaceRespond S password (sid P request.sessionId b.identityId)
    (ci b.identityId) request.ya random64.1)
  let tek := tek P responded.isk request.sessionId request.ya responded.yb b.identityId
  let iv ← randomBytes 12
  let tag ← .ofExcept (sealBox P iv tek (utf8 pairingConfirmPlaintext))
  let unlocked ← liftVault Rust.vault
  let iv' ← randomBytes 12
  let vekBox ← .ofExcept (sealBox P iv' tek unlocked.vek)
  let text := transcript L.base64urlEncode request.sessionId b.identityId request.ya
      responded.yb tag
  let seed ← liftVault (Rust.signer L)
  let sig ← .ofExcept ((P.ed25519Sign seed text).mapError .ofCkvf)
  let _ ← respondPairing request.sessionId
    (.obj (responseFields L b.identityId responded.yb vekBox tag sig))

/-- The vault is pushed before the request is answered. -/
def respond [DecidableEq H] (b : VaultHostBinding) (request : PendingPairing) (password : Bytes) :
    PairingProg H B W Unit := do
  liftVault (Rust.push L (some b))
  answer S L P b request password

def approvePairing [DecidableEq H] (polls : Nat) (binding : Option VaultHostBinding)
    (request : PendingPairing) (password : Bytes) (timeoutMs : Int) :
    PairingProg H B W (Option Unit) := do
  match binding with
  | none => .raise (.msg "not_bound" "no vault host binding")
  | some b =>
    respond S L P b request password
    let now ← nowMs
    approvePolls request.sessionId (now + timeoutMs) polls

end

/-! ## The host -/

/-- The pairing sessions, the generations of the vault and the read tokens. -/
structure Mailbox (H B W : Type) where
  pairings : String → Option Json.Obj
  records : Host H B W
  readTokens : List String

namespace Mailbox

variable (m : Mailbox H B W)

def stateOf (row : Json.Obj) : String := ((row.get? "state").bind Json.asString).getD ""

/-- An entry as `json!` writes an `Option`. -/
def orNull (v : Option Json) : Json := v.getD .null

def update (sessionId : String) (row : Json.Obj) : Mailbox H B W :=
  { m with pairings := fun s => if s = sessionId then some row else m.pairings s }

def createPairing (sessionId : String) (body : Json) :
    Except VaultClientError Json × Mailbox H B W :=
  match body with
  | .obj row =>
    (.ok (.obj [("session_id", .str sessionId), ("state", .str "PENDING")]),
      m.update sessionId (Json.Obj.insert row "state" (.str "PENDING")))
  | _ => (.error (.msg "invalid_request" "pairing"), m)

def token (sessionId : String) : String := "token-" ++ sessionId

/-- A pending session is shown to whoever asks; the response once, to the device that waits for
it. -/
def getPairing (sessionId : String) (retriever : Option String) :
    Except VaultClientError Json × Mailbox H B W :=
  match m.pairings sessionId with
  | none => (.error (.msg "not_found" "pairing"), m)
  | some row =>
    if stateOf row = "PENDING" then
      (.ok (.obj [("session_id", .str sessionId), ("state", .str "PENDING"),
        ("device_name", orNull (row.get? "device_name")),
        ("device_id", orNull (row.get? "device_id")),
        ("b_pake_element", orNull (row.get? "b_pake_element"))]), m)
    else if stateOf row = "RESPONDED" ∧ retriever = (row.get? "device_id").bind Json.asString then
      (.ok (.obj [("session_id", .str sessionId), ("state", .str "RESPONDED"),
          ("a_pake_element", orNull (row.get? "a_pake_element")),
          ("vek_envelope", orNull (row.get? "vek_envelope")),
          ("confirmation_tag", orNull (row.get? "confirmation_tag")),
          ("msk_signature", orNull (row.get? "msk_signature")),
          ("vault_id", orNull (m.records.getLast?.map fun r => .str r.container.vaultId)),
          ("pairing_read_token", .str (token sessionId))]),
        { m.update sessionId (row.insert "state" (.str "COMPLETED")) with
          readTokens := token sessionId :: m.readTokens })
    else
      (.ok (.obj [("session_id", .str sessionId), ("state", .str (stateOf row))]), m)

/-- The row with the entries of the body. -/
def withFields (row : Json.Obj) : (body : Json) → Json.Obj
  | .obj b => row.union b
  | _ => row

def respondPairing (sessionId : String) (body : Json) :
    Except VaultClientError Json × Mailbox H B W :=
  match m.pairings sessionId with
  | none => (.error (.msg "not_found" "pairing"), m)
  | some row =>
    if stateOf row ≠ "PENDING" then
      (.error { code := "pairing_session_already_responded", status := some 409 }, m)
    else
      let row := withFields row body
      (.ok (.obj [("session_id", .str sessionId), ("state", .str "RESPONDED")]),
        m.update sessionId (row.insert "state" (.str "RESPONDED")))

/-- A read under a pairing token, which is used up. -/
def currentRecord (token : String) :
    Except VaultClientError (VaultRead H B W) × Mailbox H B W :=
  if token ∈ m.readTokens then
    (.ok ⟨m.records.getLast?⟩, { m with readTokens := m.readTokens.filter (· ≠ token) })
  else (.error { code := "pairing_read_token_invalid", status := some 401 }, m)

end Mailbox

/-! ## The environment -/

inductive PairingEv where
  | vault (ev : LocalEv ⊕ HostEv)
  | bytes (b : Bytes)
  | serve
  | time (t : Int)

/-- A device and the mailbox, when no message is lost or changed. -/
def pairingEnv [DecidableEq H] (L : Ckvf H B W) (recordSignature : RecordSignature H B W) :
    Env (pairingIface H B W) (Device H B W × Mailbox H B W) where
  Ev := PairingEv
  step
    | .vault c, .vault ev, (d, m) =>
      ((vaultEnv (hostRemote L recordSignature)).step c ev (d, m.records)).map
        fun (a, d', records) => (a, d', { m with records := records })
    | .randomBytes n, .bytes b, s => if h : b.length = n then some (⟨b, h⟩, s) else none
    | .createPairing sessionId body, .serve, (d, m) =>
      some ((m.createPairing sessionId body).1, d, (m.createPairing sessionId body).2)
    | .getPairing sessionId retriever, .serve, (d, m) =>
      some ((m.getPairing sessionId retriever).1, d, (m.getPairing sessionId retriever).2)
    | .respondPairing sessionId body, .serve, (d, m) =>
      some ((m.respondPairing sessionId body).1, d, (m.respondPairing sessionId body).2)
    | .currentRecord _ token, .serve, (d, m) =>
      some ((m.currentRecord token).1, d, (m.currentRecord token).2)
    | .now, .time t, s => some (t, s)
    | .sleep, .serve, s => some ((), s)
    | _, _, _ => none

end Pairing
