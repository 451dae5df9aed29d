import SdkPubkey.Pairing.Framing
import SdkPubkey.Sync.Folder
import SdkPubkey.Vault.Dart

/-!
# Pairing through a file of a shared folder

`packages/scomm_vault_client/lib/src/pairing/folder_pairing.dart`: the new device and the approvers
read one session file and replace it whole. Each of these accesses is one call of a program
(`folderPairing`), so those of any number of approvers interleave. CPace, the boxes' contents and
the transcript are those of the Rust client (`Pairing.Cpace`, `Pairing.Protocol`), for `cpace.dart`
and `pairing_protocol.dart` compute the same.

The session id, the password and the 64 bytes of the new device's scalar are arguments. A loop that
polls is given the number of polls that are looked at, and comes to a call without an answer after
them.
-/

namespace Pairing

open Ckvf Lib Vault Oprf Sync Vault.Dart

variable {H B W Txt : Type}

/-! ## Calls -/

inductive SessionCall (H B W Txt : Type) where
  | randomBytes (n : Nat)
  | fileExists
  | readFile
  /-- The temporary file, renamed onto the session file. -/
  | replaceFile (text : Txt)
  | now
  | delay
  /-- The vault of the approver's `KeyVault`. -/
  | getVault
  /-- `sign` of the approver's `MskSigner`. -/
  | sign (message : String)
  /-- A poll that is not looked at any more; it has no answer. -/
  | polling

@[reducible] def SessionCall.Ans {H B W Txt : Type} : SessionCall H B W Txt → Type
  | .randomBytes n => Random n
  | .fileExists => Bool
  | .readFile => Except VaultClientError Txt
  | .replaceFile _ => Except VaultClientError Unit
  | .now => Int
  | .delay => Unit
  | .getVault => Option (UnlockedVault H B W)
  | .sign _ => Except VaultException Bytes
  | .polling => Empty

@[reducible] def sessionIface (H B W Txt : Type) : Iface := ⟨SessionCall H B W Txt, SessionCall.Ans⟩

/-- What the file system throws is in `VaultException.store`. -/
abbrev SessionProg (H B W Txt : Type) := Prog (sessionIface H B W Txt) VaultException

namespace Folder

def randomBytes (n : Nat) : SessionProg H B W Txt (Random n) :=
  .call (.randomBytes n) fun (b : Random n) => .ret b

/-- Microseconds. -/
def now : SessionProg H B W Txt Int := .call .now fun (t : Int) => .ret t

def delay : SessionProg H B W Txt Unit := .call .delay fun (_ : Unit) => .ret ()

def polling {α : Type} : SessionProg H B W Txt α := .call .polling fun (x : Empty) => x.elim

def getVault : SessionProg H B W Txt (Option (UnlockedVault H B W)) :=
  .call .getVault fun (v : Option (UnlockedVault H B W)) => .ret v

def vault : SessionProg H B W Txt (UnlockedVault H B W) := do
  match ← getVault with
  | some v => pure v
  | none => .raise (.state "KeyVault is not open")

def sign (message : String) : SessionProg H B W Txt Bytes :=
  .call (.sign message) fun (r : Except VaultException Bytes) => .ofExcept r

/-! ## The session file -/

/-- `^[0-9a-fA-F]{16,64}$`. -/
def validSession (sessionId : String) : Bool :=
  16 ≤ sessionId.toList.length && sessionId.toList.length ≤ 64 && sessionId.toList.all isHexDigit

def sessionFile (sessionId : String) : Except VaultException Unit :=
  if validSession sessionId then .ok () else .error (.msg "pairing_session" "session id")

section
variable (J : JsonText Txt)

/-- The object in the file. -/
def parseSession (text : Txt) : Except VaultException Json.Obj :=
  match J.decode text with
  | none => .error (.store formatException)
  | some (.obj m) => .ok m
  | some _ => .error (.msg "pairing_session" "session file")

/-- `_read`. -/
def readSession (sessionId : String) : SessionProg H B W Txt (Option Json.Obj) := do
  .ofExcept (sessionFile sessionId)
  let found ← .call .fileExists fun (b : Bool) => .ret b
  if found then
    let text ← .call .readFile fun (r : Except VaultClientError Txt) =>
      .ofExcept (r.mapError .store)
    let m ← .ofExcept (parseSession J text)
    pure (some m)
  else pure none

/-- `_write`. -/
def writeSession (sessionId : String) (body : Json) : SessionProg H B W Txt Unit := do
  .ofExcept (sessionFile sessionId)
  .call (.replaceFile (J.encode body)) fun (r : Except VaultClientError Unit) =>
    .ofExcept (r.mapError .store)

end

def stateOf (body : Json.Obj) : Option String := (body.get? "state").bind Json.asString

/-! ## Values -/

mutual
/-- The text that interpolation makes of a JSON value. -/
def interpolated : Json → String
  | .null => "null"
  | .bool b => toString b
  | .num n => toString n
  | .str s => s
  | .arr xs => "[" ++ ", ".intercalate (interpolatedList xs) ++ "]"
  | .obj m => "\x7b" ++ ", ".intercalate (interpolatedEntries m) ++ "\x7d"
def interpolatedList : List Json → List String
  | [] => []
  | x :: xs => interpolated x :: interpolatedList xs
def interpolatedEntries : List (String × Json) → List String
  | [] => []
  | (k, x) :: m => (k ++ ": " ++ interpolated x) :: interpolatedEntries m
end

/-- `'${body[key]}'`. -/
def field (body : Json.Obj) (key : String) : String :=
  match body.get? key with
  | some x => interpolated x
  | none => "null"

/-- `'${body[key] ?? other}'`. -/
def fieldOr (body : Json.Obj) (key other : String) : String :=
  match body.get? key with
  | some .null | none => other
  | some x => interpolated x

/-- The text of a container, and of a time. -/
structure SessionTexts (H B W : Type) where
  containerText : VaultContainer H B W → String
  parseContainer : String → Except CkvfError (VaultContainer H B W)
  iso8601 : Int → String

section
variable (L : Ckvf H B W) (P : PairingPackage H B W)

def boxFromJson (json : Json.Obj) : Except VaultException PairingBox := do
  let iv ← (L.base64urlToBytes (field json "iv") (some 12)).mapError .ckvf
  let ciphertext ← (L.base64urlToBytes (field json "ciphertext") none).mapError .ckvf
  if h : iv.length = 12 then pure ⟨iv, ciphertext, h⟩
  else .error (.ckvf ⟨"ERR_LENGTH", none⟩)

theorem iv_length (iv : Random 12) : iv.1.length = 12 := iv.2

/-- `PairingProtocol.seal`. -/
def sealBox (iv : Random 12) (key plaintext : Bytes) : Except VaultException PairingBox := do
  let (ciphertext, tag) ← (P.aes256gcmEncrypt key iv.1 plaintext []).mapError .ckvf
  pure ⟨iv.1, ciphertext ++ tag, iv_length iv⟩

/-- `PairingProtocol.open`. -/
def openBox (key : Bytes) (box : PairingBox) : Except VaultException Bytes :=
  let n := box.ciphertext.length
  if n < 16 then .error (.msg "pairing_protocol_error" "box is truncated")
  else
    (P.aes256gcmDecrypt key box.iv (box.ciphertext.take (n - 16)) (box.ciphertext.drop (n - 16))
      []).mapError .ckvf

/-- What is no `VaultClientException` becomes one. -/
def asMismatch : VaultException → VaultException
  | .client e => .client e
  | _ => .msg "pairing_password_mismatch" "the confirmation failed: wrong password or tampering"

end

/-! ## The new device -/

/-- The arguments of `startFolderPairing`, and what it draws. -/
structure NewDevice where
  sessionId : String
  identityId : String
  deviceName : String
  deviceId : String
  requestedTier : String
  password : Bytes
  random64 : Bytes
  expiresInSeconds : Nat

/-- The entries of a response. -/
structure FolderResponse where
  yb : String
  tag : Json.Obj
  vekBox : Json.Obj
  sig : String
  container : String

def readResponse (body : Json.Obj) : Except VaultException FolderResponse :=
  match body.get? "a_pake_element", body.get? "confirmation_tag", body.get? "vek_envelope",
    body.get? "msk_signature", body.get? "container" with
  | some (.str yb), some (.obj tag), some (.obj vekBox), some (.str sig), some (.str container) =>
    .ok ⟨yb, tag, vekBox, sig, container⟩
  | _, _, _, _, _ => .error (.msg "pairing_protocol_unsupported"
      "the pairing response is missing CPace fields or the container")

def completedBody : Json := .obj [("state", .str "COMPLETED")]

section
variable {F E : Type} [Field F] [AddCommGroup E] [Module F E] [DecidableEq F] [DecidableEq E]
  (S : Suite F E) (L : Ckvf H B W) (P : PairingPackage H B W) (K : SessionTexts H B W)
      (J : JsonText Txt)

def pendingBody (N : NewDevice) (ya : Bytes) (expiresAt : Int) : Json :=
  .obj [("state", .str "PENDING"), ("identity_id", .str N.identityId),
    ("device_name", .str N.deviceName), ("device_id", .str N.deviceId),
    ("requested_tier", .str N.requestedTier), ("b_pake_element", .str (L.base64urlEncode ya)),
    ("expires_at", .str (K.iso8601 expiresAt))]

def initiator (N : NewDevice) : Except VaultException CPaceInitiator :=
  (cpaceStart S N.password (sid P N.sessionId N.identityId)
      (ci N.identityId) N.random64).mapError .client

/-- The state of the exchange, and when it expires. -/
def startFolderPairing (N : NewDevice) : SessionProg H B W Txt (CPaceInitiator × Int) := do
  let state ← .ofExcept (initiator S P N)
  let t ← now
  let expiresAt := t + N.expiresInSeconds * 1000000
  writeSession J N.sessionId (pendingBody L K N state.ya expiresAt)
  pure (state, expiresAt)

/-- The polls of `_awaitFolderResponse`. -/
def awaitPolls (sessionId : String) (expiresAt : Int) : Nat → SessionProg H B W Txt Json.Obj
  | 0 => polling
  | n + 1 => do
    let read ← readSession J sessionId
    match read.bind stateOf, read with
    | some "RESPONDED", some body => pure body
    | some "COMPLETED", _ =>
      .raise (.msg "pairing_session_already_responded" "the pairing response was already retrieved")
    | _, _ =>
      let t ← now
      if t > expiresAt then
        .raise (.msg "pairing_session_expired" "the other device did not approve in time")
      else
        delay
        awaitPolls sessionId expiresAt n

/-- The vault of a response, when it opens and its MSK signed the transcript. -/
def openResponse (sessionId identityId : String) (state : CPaceInitiator) (body : Json.Obj) :
    Except VaultException (UnlockedVault H B W) := do
  let r ← readResponse body
  let yb ← (L.base64urlToBytes r.yb (some 32)).mapError .ckvf
  let confirmation ← boxFromJson L r.tag
  let key ← (cpaceFinish S state yb).mapError .client
  let tek := tek P key sessionId state.ya yb identityId
  let vek ← Except.mapError asMismatch do
    let _ ← openBox P tek confirmation
    let vekBox ← boxFromJson L r.vekBox
    openBox P tek vekBox
  let container ← (K.parseContainer r.container).mapError .ckvf
  let opened ← (P.openVaultWith container vek).mapError .ckvf
  if opened.payload.identity.identityId ≠ identityId then
    .error (.msg "identity_mismatch" "the paired vault is for another identity")
  else
    let text := transcript L.base64urlEncode sessionId identityId state.ya yb confirmation
    let pk ← (L.base64urlToBytes opened.payload.msk.current.publicKey none).mapError .ckvf
    let sig ← (L.base64urlToBytes r.sig none).mapError .ckvf
    if verifyArmedMsk L pk text sig then pure opened
    else .error (.msg "pairing_signature_invalid"
      "the pairing transcript is not signed by the vault MSK")

def awaitFolderResponse (polls : Nat) (sessionId identityId : String) (state : CPaceInitiator)
    (expiresAt : Int) : SessionProg H B W Txt (UnlockedVault H B W) := do
  let body ← awaitPolls J sessionId expiresAt polls
  let opened ← .ofExcept (openResponse S L P K sessionId identityId state body)
  writeSession J sessionId completedBody
  pure opened

/-! ## The approving device -/

structure FolderPairingRequest where
  sessionId : String
  deviceName : String
  deviceId : String
  requestedTier : String
  identityId : String
  ya : Bytes

def readRequest (sessionId : String) (body : Json.Obj) :
    Except VaultException FolderPairingRequest :=
  if stateOf body ≠ some "PENDING" then
    .error (.msg "pairing_session_already_responded"
      ("the pairing session is not awaiting approval (" ++ field body "state" ++ ")"))
  else
    match body.get? "b_pake_element" with
    | some (.str ya) => do
      let ya ← (L.base64urlToBytes ya (some 32)).mapError .ckvf
      pure ⟨sessionId, fieldOr body "device_name" "", fieldOr body "device_id" "",
        fieldOr body "requested_tier" pairingTier, fieldOr body "identity_id" "", ya⟩
    | _ => .error (.msg "pairing_protocol_unsupported"
        "the pending pairing session has no CPace element")

def fetchFolderPairing (sessionId : String) : SessionProg H B W Txt FolderPairingRequest := do
  match ← readSession J sessionId with
  | none => .raise (.msg "pairing_session_not_found" "no pairing request in the sync folder")
  | some body => .ofExcept (readRequest L sessionId body)

def respondedBody (identityId : String) (yb : Bytes) (vekBox tag : PairingBox) (sig : Bytes)
    (container : String) : Json :=
  .obj [("state", .str "RESPONDED"), ("identity_id", .str identityId),
    ("a_pake_element", .str (L.base64urlEncode yb)), ("vek_envelope", vekBox.toJson L),
    ("confirmation_tag", tag.toJson L), ("msk_signature", .str (L.base64urlEncode sig)),
    ("container", .str container)]

/-- The polls of `approveFolderPairing`. -/
def approvePolls (sessionId : String) (deadline : Int) : Nat → SessionProg H B W Txt Unit
  | 0 => polling
  | n + 1 => do
    let read ← readSession J sessionId
    if read.bind stateOf = some "COMPLETED" then pure ()
    else
      let t ← now
      if t > deadline then
        .raise (.msg "pairing_session_expired"
            "the new device did not collect the pairing response")
      else
        delay
        approvePolls sessionId deadline n

/-- The response that `approveFolderPairing` writes. -/
def response (request : FolderPairingRequest) (password : Bytes) : SessionProg H B W Txt Json := do
  match ← getVault with
  | none => .raise (.msg "vault_locked" "vault locked")
  | some v =>
    let identityId := v.payload.identity.identityId
    if request.identityId ≠ identityId then
      .raise (.msg "identity_mismatch" "the pairing request is for another identity")
    else
      let random64 ← randomBytes 64
      let responded ← .ofExcept ((cpaceRespond S password (sid P request.sessionId identityId)
        (ci identityId) request.ya random64.1).mapError .client)
      let tek := tek P responded.isk request.sessionId request.ya responded.yb identityId
      let iv ← randomBytes 12
      let tag ← .ofExcept (sealBox P iv tek (utf8 pairingConfirmPlaintext))
      let unlocked ← vault
      let iv' ← randomBytes 12
      let vekBox ← .ofExcept (sealBox P iv' tek unlocked.vek)
      let sig ← sign
          (transcript L.base64urlEncode request.sessionId identityId request.ya responded.yb tag)
      let unlocked ← vault
      let c ← .ofExcept ((L.serializeContainer unlocked.container).mapError .ckvf)
      pure (respondedBody L identityId responded.yb vekBox tag sig (K.containerText c))

def approveFolderPairing (polls : Nat) (request : FolderPairingRequest) (password : Bytes)
    (timeout : Int) : SessionProg H B W Txt Unit := do
  let body ← response S L P K request password
  writeSession J request.sessionId body
  let t ← now
  approvePolls J request.sessionId (t + timeout) polls

end

end Folder

/-! ## The parties of a session -/

inductive FolderRole (ι : Type) where
  | device
  | approver (i : ι)
deriving DecidableEq

/-- What a party last read in the session file, and what it last wrote there. -/
structure FolderParty (Txt : Type) where
  read : Option Txt := none
  wrote : Option Txt := none
deriving DecidableEq

inductive SessionEv (H B W : Type) where
  | ok
  /-- The file system throws. -/
  | fails (e : VaultClientError)
  | bytes (b : Bytes)
  | time (t : Int)
  | vault (v : Option (UnlockedVault H B W))
  | signed (r : Except VaultException Bytes)

/-- A party and the session file: the texts it has had, the last one first. -/
def sessionEnv (H B W Txt : Type) :
    Env (sessionIface H B W Txt) (FolderParty Txt × List Txt) where
  Ev := SessionEv H B W
  step
    | .randomBytes n, .bytes b, s => if h : b.length = n then some (⟨b, h⟩, s) else none
    | .fileExists, .ok, s => some (!s.2.isEmpty, s)
    | .readFile, .ok, (d, texts) =>
      match texts with
      | text :: _ => some (.ok text, { d with read := some text }, texts)
      | [] => some (.error (ioError "not found"), d, texts)
    | .readFile, .fails e, s => some (.error e, s)
    | .replaceFile text, .ok, (d, texts) =>
      some (.ok (), { d with wrote := some text }, text :: texts)
    | .replaceFile _, .fails e, s => some (.error e, s)
    | .now, .time t, s => some (t, s)
    | .delay, .ok, s => some ((), s)
    | .getVault, .vault v, s => some (v, s)
    | .sign _, .signed r, s => some (r, s)
    | _, _, _ => none

inductive SessionOp where
  /-- `startFolderPairing`, and what it leaves to be awaited. -/
  | start (polls : Nat)
  /-- `fetchFolderPairing` and then `approveFolderPairing`. -/
  | approve (password : Bytes) (timeout : Int) (polls : Nat)

section
variable {F E : Type} [Field F] [AddCommGroup E] [Module F E] [DecidableEq F] [DecidableEq E]
  (S : Suite F E) (L : Ckvf H B W) (P : PairingPackage H B W) (K : Folder.SessionTexts H B W)
  (J : JsonText Txt) (N : Folder.NewDevice)

def SessionOp.prog : SessionOp → SessionProg H B W Txt Unit
  | .start polls => do
    let (state, expiresAt) ← Folder.startFolderPairing S L P K J N
    let _ ← Folder.awaitFolderResponse S L P K J polls N.sessionId N.identityId state expiresAt
    pure ()
  | .approve password timeout polls => do
    let request ← Folder.fetchFolderPairing L J N.sessionId
    Folder.approveFolderPairing S L P K J polls request password timeout

/-- The session of the new device `N`. -/
def folderPairing :
    Protocol (FolderParty Txt) (List Txt) SessionOp (sessionIface H B W Txt) VaultException where
  env := sessionEnv H B W Txt
  prog := SessionOp.prog S L P K J N
  reset := id

end

abbrev FolderSession (ι H B W Txt : Type) :=
  World (FolderRole ι) (FolderParty Txt) (List Txt) SessionOp (sessionIface H B W Txt)
      VaultException

end Pairing
