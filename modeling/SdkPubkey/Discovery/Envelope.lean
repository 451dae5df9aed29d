import SdkPubkey.Discovery.Device
import SdkPubkey.Discovery.Identity
import SdkPubkey.Discovery.Wire
import SdkPubkey.Lib.Base64
import SdkPubkey.Signing.Texts

/-!
# Signed envelopes of the discovery client

`set_signing_key_with_proof`, `sign_operation` and `sign_device_authorization` of
`crates/discovery/src/pubkey_client.rs`, with `canonical.rs`. The clock, the random bytes and the
signers are arguments. Beside what a function sends, it gives the bytes that it had signed.

* `signedBytesOf`, `popBytesOf`: the bytes that a receiver computes from an envelope.
* `envelopes_verify`: when the functions succeed, and that these are then the bytes that were
  signed.
-/

namespace Discovery.Envelope

open Ckvf Lib Wire
open Pairing (Random)
open Signing (hexEncode)

/-! ## The code -/

abbrev I64 := { n : Int // inInt64 n = true }

/-- The functions of other packages. -/
structure Package where
  canonicalizeJson : Value → Except String String
  sha256 : Bytes → Bytes
  urlSafeNoPadEncode : Bytes → String
  urlSafeNoPadDecode : String → Except String Bytes
  standardDecode : String → Except String Bytes

structure MskSigner where
  algorithm : String
  sign : (message : Bytes) → Except PubkeyError Bytes

/-- What signing reads of the client. -/
structure Client where
  writeBaseUrl : String
  sdkName : String
  sdkVersion : String

def protocolVersion : I64 := ⟨1, rfl⟩
def artifactPopOperation : String := "artifact_pop"
def setSigningKey : String := "set_signing_key"
def authorizeDevice : String := "authorize_device"
def purposeSigning : String := "signing"
def purposeVerify : String := "verify"

def insert : Map → String → Value → Map
  | [], k, v => [(k, v)]
  | (l, w) :: m, k, v => if l = k then (k, v) :: m else (l, w) :: insert m k v

/-- `json!` of an optional value. -/
def json (v : Option Value) : Value := v.getD .null

section
variable (P : Package)

def payloadSha256Hex (payload : Value) : Except String String := do
  let jcs ← P.canonicalizeJson payload
  pure (hexEncode (P.sha256 (utf8 jcs)))

/-- Canonical UTF-8 string covered by an MSK signature. -/
def canonicalSignedUtf8 (protocolVersion : Int) (operation principal : String) (timestamp : Int)
    (nonce : String) (payload : Value) : Except String String := do
  let payloadHash ← payloadSha256Hex P payload
  pure (Signing.Discovery.canonicalText protocolVersion operation principal timestamp
      nonce payloadHash)

def canonicalSignedBytes (protocolVersion : Int) (operation principal : String) (timestamp : Int)
    (nonce : String) (payload : Value) : Except String Bytes := do
  let text ← canonicalSignedUtf8 P protocolVersion operation principal timestamp nonce payload
  pure (utf8 text)

def toUrlSafe (c : Char) : Char := if c = '+' then '-' else if c = '/' then '_' else c

/-- Decode base64url (tolerates standard alphabet and padding). -/
def decodeBase64url (value : String) : Except String Bytes :=
  let normalized := String.ofList ((value.toList.map toUrlSafe).filter (· ≠ '='))
  match P.urlSafeNoPadDecode normalized with
  | .ok bytes => .ok bytes
  | .error _ => P.standardDecode value

def randomNonce (random : Except String (Random 16)) : Except PubkeyError String :=
  match random with
  | .ok bytes => .ok (P.urlSafeNoPadEncode bytes.1)
  | .error message => .error { code := "provider_unavailable", message := message }

/-- The envelope, and the bytes that were signed. -/
def signOperationWith (client : Client) (operation principal : String) (payload : Value)
    (msk : MskSigner)
    (timestamp : I64) (nonce : String) (version : I64) : Except PubkeyError (Value × Bytes) := do
  let bytes ← (canonicalSignedBytes P version.1 operation principal timestamp.1 nonce
      payload).mapError
    invalidRequest
  let signature ← msk.sign bytes
  pure (.object [
    ("protocol_version", .number (.ofI64 version.1)),
    ("sdk", .object [("name", .string client.sdkName), ("version", .string client.sdkVersion)]),
    ("principal", .string principal),
    ("operation", .string operation),
    ("timestamp", .number (.ofI64 timestamp.1)),
    ("nonce", .string nonce),
    ("payload", payload),
    ("signature", .object [
      ("algorithm", .string msk.algorithm),
      ("value", .string (P.urlSafeNoPadEncode signature))])], bytes)

/-- Build a signed operation envelope. -/
def signOperation (client : Client) (operation principal : String) (payload : Value)
    (msk : MskSigner)
    (timestamp version : Option I64) (clock : I64) (random : Except String (Random 16)) :
    Except PubkeyError (Value × Bytes) := do
  let nonce ← randomNonce P random
  signOperationWith P client operation principal payload msk (timestamp.getD clock) nonce
    (version.getD protocolVersion)

/-- The artifact with its purpose under the name of the wire. -/
def withWirePurpose (artifact : Map) : Map :=
  match Map.str? artifact "purpose" with
  | some wp =>
    if wp = purposeSigning ∨ wp = "signing" ∨ wp = "verification" then
      insert artifact "purpose" (.string purposeVerify)
    else artifact
  | none => artifact

def publicMaterial (artifact : Map) : Except String Bytes :=
  decodeBase64url P ((Map.str? artifact "public_material").getD "")

def popPayload (artifact : Map) (material : Bytes) : Value :=
  .object [
    ("algorithm", json (Map.get? artifact "algorithm")),
    ("family", json (Map.get? artifact "family")),
    ("purpose", json (Map.get? artifact "purpose")),
    ("public_material_sha256", .string (hexEncode (P.sha256 material)))]

/-- A request, and the bytes that the content key and the MSK signed for it. -/
structure Upload where
  request : WireRequest
  popSigned : Bytes
  signed : Bytes

/-- Upload signing artifact with proof-of-possession. -/
def setSigningKeyWithProof (U : Identity.Unicode) (client : Client) (email : String)
    (artifact : Map)
    (msk : MskSigner) (contentSigner : Option MskSigner) (clock : I64)
    (random : Except String (Random 16)) :
    Except PubkeyError Upload :=
  match contentSigner with
  | none => .error (invalidRequest "contentSigningKey or compositePopSigner is required")
  | some contentSigner => do
    let artifact := withWirePurpose artifact
    let principal ← Identity.Rust.emailSha256Hex U email
    let nonce ← randomNonce P random
    let material ← (publicMaterial P artifact).mapError invalidRequest
    let popBytes ←
        (canonicalSignedBytes P protocolVersion.1 artifactPopOperation principal clock.1 nonce
      (popPayload P artifact material)).mapError invalidRequest
    let sig ← contentSigner.sign popBytes
    let selfSignature := Value.object [
      ("algorithm", json (Map.get? artifact "algorithm")),
      ("value", .string (P.urlSafeNoPadEncode sig))]
    let artifact := insert artifact "self_signature" selfSignature
    let payload := Value.object [("artifacts", .array [.object artifact])]
    let (envelope, signed) ←
      signOperationWith P client setSigningKey principal payload msk clock nonce protocolVersion
    pure {
      request := {
        method := "POST", url := joinUrl client.writeBaseUrl "/v1/keys/signing", body :=
          some envelope,
        reconcile := true }
      popSigned := popBytes
      signed := signed }

/-- UUID v8 from the last 16 bytes of a SHA-256 digest (RFC 9562 version + variant). -/
def sha256ToUuidV8 (sha256 : Bytes) : Except String String :=
  if sha256.length ≠ 32 then .error "sha256 must be a 32-byte SHA-256 digest"
  else
    let bytes := (sha256.drop 16).modify 6 fun b => (b &&& 0x0f) ||| 0x80
    let bytes := bytes.modify 8 fun b => (b &&& 0x3f) ||| 0x80
    let hex := (hexEncode bytes).toList
    let part (start stop : Nat) := String.ofList ((hex.take stop).drop start)
    .ok (part 0 8 ++ "-" ++ part 8 12 ++ "-" ++ part 12 16 ++ "-" ++ part 16 20 ++
        "-" ++ part 20 32)

/-- A number as `as_u64() as u8`. -/
def asByte : Value → Option UInt8
  | .number (.posInt n) => some (UInt8.ofNat n.1)
  | _ => none

/-- The public key in a description of a device. -/
def devicePublicKeyOf (device : Value) : Except PubkeyError Bytes :=
  match (device.get? "devicePublicKey").bind Value.asStr with
  | some s => (decodeBase64url P s).mapError invalidRequest
  | none =>
    match (device.get? "publicKey").bind Value.asArray with
    | some arr => .ok (arr.filterMap asByte)
    | none => .ok []

def principalOf (U : Identity.Unicode) (emailOrPrincipal : String)
    (principalOverride : Option String) :
    Except PubkeyError String :=
  match principalOverride with
  | some p => .ok p
  | none => Identity.Rust.emailSha256Hex U emailOrPrincipal

/-- `createdAt` and `clock` are two readings of the clock, and there are two draws. -/
def signDeviceAuthorization (U : Identity.Unicode) (client : Client) (emailOrPrincipal : String)
    (msk : MskSigner) (device : Value) (principalOverride : Option String) (version : Option I64)
    (createdAt clock : I64) (random random' : Except String (Random 16)) :
    Except PubkeyError (Value × Bytes) := do
  let principal ← principalOf U emailOrPrincipal principalOverride
  let devicePublicKey ← devicePublicKeyOf P device
  let deviceId ← (sha256ToUuidV8 (P.sha256 devicePublicKey)).mapError invalidRequest
  let nonce ← randomNonce P random
  let payload ← deviceAuthorizationPayload principal deviceId
      (P.urlSafeNoPadEncode devicePublicKey) createdAt.1
    nonce ((device.get? "name").bind Value.asStr)
  let (envelope, signed) ← signOperation P client authorizeDevice principal payload msk none
      version clock random'
  match envelope with
  | .object obj => pure (.object (insert obj "payload" payload), signed)
  | other => pure (other, signed)

/-! ## The receiver -/

/-- The bytes that the fields of an envelope say are signed. -/
def signedBytesOf (envelope : Value) : Option (Except String Bytes) := do
  let version ← (envelope.get? "protocol_version").bind Value.asI64
  let operation ← (envelope.get? "operation").bind Value.asStr
  let principal ← (envelope.get? "principal").bind Value.asStr
  let timestamp ← (envelope.get? "timestamp").bind Value.asI64
  let nonce ← (envelope.get? "nonce").bind Value.asStr
  let payload ← envelope.get? "payload"
  pure (canonicalSignedBytes P version operation principal timestamp nonce payload)

def sentArtifact (envelope : Value) : Option Map := do
  let artifacts ← ((← envelope.get? "payload").get? "artifacts").bind Value.asArray
  artifacts.head?.bind Value.asObject

/-- What a proof of possession is for: three members of the artifact, null where one is missing, and
the hash of its material. -/
def popFieldsOf (sent : Map) (material : Bytes) : Value :=
  .object [
    ("algorithm", (Map.get? sent "algorithm").getD .null),
    ("family", (Map.get? sent "family").getD .null),
    ("purpose", (Map.get? sent "purpose").getD .null),
    ("public_material_sha256", .string (hexEncode (P.sha256 material)))]

/-- The bytes of the proof of possession, from the artifact that was sent and the fields of its
envelope. -/
def popBytesOf (envelope : Value) : Option (Except String Bytes) := do
  let sent ← sentArtifact envelope
  let principal ← (envelope.get? "principal").bind Value.asStr
  let timestamp ← (envelope.get? "timestamp").bind Value.asI64
  let nonce ← (envelope.get? "nonce").bind Value.asStr
  pure do
    let material ← decodeBase64url P ((Map.str? sent "public_material").getD "")
    canonicalSignedBytes P 1 "artifact_pop" principal timestamp nonce (popFieldsOf P sent material)

/-- The text of the signature in a value. -/
def signatureValue (v : Option Value) : Option String := (v.bind (·.get? "value")).bind Value.asStr

/-- What was signed is what the envelope says, and it carries the signature. -/
def Verifies (msk : MskSigner) (envelope : Value) (signed : Bytes) : Prop :=
  signedBytesOf P envelope = some (.ok signed) ∧
    ∃ signature, msk.sign signed = .ok signature ∧
      signatureValue (envelope.get? "signature") = some (P.urlSafeNoPadEncode signature)

/-- The fields have canonical bytes, and the signer signs them. -/
def Signs (msk : MskSigner) (version : Int) (operation principal : String) (timestamp : Int)
    (nonce : String) (payload : Value) : Prop :=
  ∃ bytes signature,
    canonicalSignedBytes P version operation principal timestamp nonce payload = .ok bytes ∧
      msk.sign bytes = .ok signature

end

/-- What is sent for an artifact: its purpose has the name of the wire, and a signature is added. -/
structure SentFor (artifact sent : Map) : Prop where
  verify : ∀ given ∈ ["signing", "verification"], Map.str? artifact "purpose" = some given →
    Map.get? sent "purpose" = some (.string "verify")
  purpose : (∀ given ∈ ["signing", "verification"], Map.str? artifact "purpose" ≠ some given) →
    Map.get? sent "purpose" = Map.get? artifact "purpose"
  rest : ∀ k, k ≠ "purpose" → k ≠ "self_signature" → Map.get? sent k = Map.get? artifact k

/-! ## Maps -/

theorem get?_insert (m : Map) (k : String) (v : Value) (l : String) :
    Map.get? (insert m k v) l = if k = l then some v else Map.get? m l := by
  induction m with
  | nil => rfl
  | cons e m ih =>
    obtain ⟨j, w⟩ := e
    unfold insert
    by_cases hj : j = k
    · subst hj
      rw [if_pos rfl, Map.get?_cons, Map.get?_cons]
      by_cases hl : j = l
      · rw [if_pos hl, if_pos hl]
      · rw [if_neg hl, if_neg hl, if_neg hl]
    · rw [if_neg hj, Map.get?_cons, Map.get?_cons, ih]
      by_cases hl : j = l
      · rw [if_pos hl, if_pos hl, if_neg (fun he => hj (hl.trans he.symm))]
      · rw [if_neg hl, if_neg hl]

/-- A member that is there already is put in its own place. -/
theorem insert_eq_self {m : Map} {k : String} {v : Value} (h : Map.get? m k = some v) :
    insert m k v = m := by
  induction m with
  | nil => cases h
  | cons e m ih =>
    obtain ⟨j, w⟩ := e
    rw [Map.get?_cons] at h
    unfold insert
    by_cases hj : j = k
    · rw [if_pos hj, Option.some.injEq] at h
      rw [if_pos hj, hj, h]
    · rw [if_neg hj] at h
      rw [if_neg hj, ih h]

/-! ## Envelopes -/

/-- The fields of an envelope. -/
structure Sends (envelope : Value) (version : Int) (operation principal : String) (timestamp : Int)
    (nonce : String) (payload : Value) : Prop where
  version : (envelope.get? "protocol_version").bind Value.asI64 = some version
  operation : (envelope.get? "operation").bind Value.asStr = some operation
  principal : (envelope.get? "principal").bind Value.asStr = some principal
  timestamp : (envelope.get? "timestamp").bind Value.asI64 = some timestamp
  nonce : (envelope.get? "nonce").bind Value.asStr = some nonce
  payload : envelope.get? "payload" = some payload

section
variable {P : Package} {client : Client} {operation principal nonce : String}
    {payload envelope : Value}
  {msk : MskSigner} {timestamp version : I64} {signed : Bytes}

theorem Sends.signedBytesOf {version timestamp : Int}
    (h : Sends envelope version operation principal timestamp nonce payload) :
    Envelope.signedBytesOf P envelope =
      some (canonicalSignedBytes P version operation principal timestamp nonce payload) := by
  unfold Envelope.signedBytesOf
  rw [h.version, h.operation, h.principal, h.timestamp, h.nonce, h.payload]
  rfl

/-- What `sign_operation_with` sends and signs. -/
theorem signOperationWith_spec
    (h : signOperationWith P client operation principal payload msk timestamp nonce version =
      .ok (envelope, signed)) :
    Sends envelope version.1 operation principal timestamp.1 nonce payload ∧
        Verifies P msk envelope signed := by
  unfold signOperationWith at h
  obtain ⟨bytes, hbytes, h⟩ := ok_of_bind h
  obtain ⟨signature, hsignature, h⟩ := ok_of_bind h
  obtain ⟨henvelope, rfl⟩ := Prod.mk.inj (Except.ok.inj h)
  have hsends : Sends envelope version.1 operation principal timestamp.1 nonce payload := by
    rw [← henvelope]
    exact ⟨asI64_ofI64 version.2, rfl, rfl, asI64_ofI64 timestamp.2, rfl, rfl⟩
  have hvalue : signatureValue (envelope.get? "signature") =
      some (P.urlSafeNoPadEncode signature) := by
    rw [← henvelope]
    rfl
  refine ⟨hsends, ?_, signature, hsignature, hvalue⟩
  rw [hsends.signedBytesOf, ok_of_mapError hbytes]

theorem signOperationWith_ok_iff :
    (∃ sent, signOperationWith P client operation principal payload msk timestamp nonce
    version = .ok sent) ↔ Signs P msk version.1 operation principal timestamp.1 nonce payload := by
  unfold signOperationWith
  constructor
  · intro h
    obtain ⟨sent, h⟩ := h
    obtain ⟨bytes, hbytes, h⟩ := ok_of_bind h
    obtain ⟨signature, hsignature, -⟩ := ok_of_bind h
    exact ⟨bytes, signature, ok_of_mapError hbytes, hsignature⟩
  · intro h
    obtain ⟨bytes, signature, hbytes, hsignature⟩ := h
    rw [hbytes]
    simp only [Except.mapError, ok_bind, hsignature]
    exact ⟨_, rfl⟩

theorem randomNonce_eq_ok_iff {random : Except String (Random 16)} :
    randomNonce P random = .ok nonce ↔
      ∃ draw : Random 16, random = .ok draw ∧ nonce = P.urlSafeNoPadEncode draw.1 := by
  cases random with
  | error message => simp [randomNonce]
  | ok draw => simp [randomNonce, eq_comm]

theorem signOperation_ok_iff {timestamp version : Option I64} {clock : I64}
    {random : Except String (Random 16)} :
    (∃ sent, signOperation P client operation principal payload msk timestamp version clock random =
        .ok sent) ↔
      ∃ draw : Random 16, random = .ok draw ∧ Signs P msk (version.getD protocolVersion).1
          operation principal
        (timestamp.getD clock).1 (P.urlSafeNoPadEncode draw.1) payload := by
  unfold signOperation
  constructor
  · intro h
    obtain ⟨sent, h⟩ := h
    obtain ⟨nonce, hnonce, h⟩ := ok_of_bind h
    obtain ⟨draw, hdraw, rfl⟩ := randomNonce_eq_ok_iff.1 hnonce
    exact ⟨draw, hdraw, signOperationWith_ok_iff.1 ⟨sent, h⟩⟩
  · intro h
    obtain ⟨draw, hdraw, hsigns⟩ := h
    rw [randomNonce_eq_ok_iff.2 ⟨draw, hdraw, rfl⟩]
    exact signOperationWith_ok_iff.2 hsigns

theorem signOperation_spec {timestamp version : Option I64} {clock : I64}
    {random : Except String (Random 16)}
    (h : signOperation P client operation principal payload msk timestamp version clock random =
      .ok (envelope, signed)) :
    Verifies P msk envelope signed ∧ envelope.get? "payload" = some payload := by
  unfold signOperation at h
  obtain ⟨nonce, -, h⟩ := ok_of_bind h
  obtain ⟨hsends, hverifies⟩ := signOperationWith_spec h
  exact ⟨hverifies, hsends.payload⟩

/-- The payload that is put into the envelope is the one that was signed. -/
theorem signDeviceAuthorization_spec {U : Identity.Unicode} {emailOrPrincipal : String}
    {device : Value}
    {principalOverride : Option String} {version : Option I64} {createdAt clock : I64}
    {random random' : Except String (Random 16)}
    (h : signDeviceAuthorization P U client emailOrPrincipal msk device principalOverride version
    createdAt clock random random' = .ok (envelope, signed)) :
    Verifies P msk envelope signed := by
  unfold signDeviceAuthorization at h
  obtain ⟨principal, -, h⟩ := ok_of_bind h
  obtain ⟨devicePublicKey, -, h⟩ := ok_of_bind h
  obtain ⟨deviceId, -, h⟩ := ok_of_bind h
  obtain ⟨nonce, -, h⟩ := ok_of_bind h
  obtain ⟨payload, -, h⟩ := ok_of_bind h
  obtain ⟨⟨before, bytes⟩, hsigned, h⟩ := ok_of_bind h
  obtain ⟨hverifies, hpayload⟩ := signOperation_spec hsigned
  cases before with
  | object obj =>
    have hself : insert obj "payload" payload = obj := insert_eq_self hpayload
    dsimp only at h
    rw [hself] at h
    cases h
    exact hverifies
  | _ => cases hpayload

theorem signDeviceAuthorization_ok_iff {U : Identity.Unicode} {emailOrPrincipal : String}
    {device : Value}
    {principalOverride : Option String} {version : Option I64} {createdAt clock : I64}
    {random random' : Except String (Random 16)} :
    (∃ sent, signDeviceAuthorization P U client emailOrPrincipal msk device principalOverride
    version createdAt clock random random' = .ok sent) ↔
      ∃ principal devicePublicKey deviceId, ∃ draw draw' : Random 16,
        principalOf U emailOrPrincipal principalOverride = .ok principal ∧
        devicePublicKeyOf P device = .ok devicePublicKey ∧
        sha256ToUuidV8 (P.sha256 devicePublicKey) = .ok deviceId ∧ random = .ok draw ∧
            random' = .ok draw' ∧
        Signs P msk (version.getD protocolVersion).1 "authorize_device" principal clock.1
          (P.urlSafeNoPadEncode draw'.1) (.object (payloadMembers 1 principal deviceId
            (P.urlSafeNoPadEncode devicePublicKey) "ed25519" createdAt.1
            (P.urlSafeNoPadEncode draw.1) ((device.get? "name").bind Value.asStr))) := by
  unfold signDeviceAuthorization
  constructor
  · -- every call of the function has succeeded
    intro h
    obtain ⟨sent, h⟩ := h
    obtain ⟨principal, hprincipal, h⟩ := ok_of_bind h
    obtain ⟨devicePublicKey, hkey, h⟩ := ok_of_bind h
    obtain ⟨deviceId, hid, h⟩ := ok_of_bind h
    obtain ⟨nonce, hnonce, h⟩ := ok_of_bind h
    obtain ⟨draw, hdraw, rfl⟩ := randomNonce_eq_ok_iff.1 hnonce
    obtain ⟨payload, hpayload, h⟩ := ok_of_bind h
    cases hpayload
    obtain ⟨before, hsigned, -⟩ := ok_of_bind h
    obtain ⟨draw', hdraw', hsigns⟩ := signOperation_ok_iff.1 ⟨before, hsigned⟩
    exact ⟨principal, devicePublicKey, deviceId, draw, draw', hprincipal, hkey, ok_of_mapError hid,
      hdraw, hdraw', hsigns⟩
  · -- every call of the function succeeds
    intro h
    obtain ⟨principal, devicePublicKey, deviceId, draw, draw', hprincipal, hkey, hid, hdraw,
        hdraw', hsigns⟩ := h
    have hsent : ∃ sent, signOperation P client authorizeDevice principal
        (.object (payloadMembers deviceAuthorizationVersion principal deviceId
          (P.urlSafeNoPadEncode devicePublicKey) deviceKeyAlgorithm createdAt.1
          (P.urlSafeNoPadEncode draw.1)
          ((device.get? "name").bind Value.asStr))) msk none version clock random' = .ok sent :=
      signOperation_ok_iff.2 ⟨draw', hdraw', hsigns⟩
    obtain ⟨⟨envelope, signed⟩, hsigned⟩ := hsent
    rw [hprincipal, ok_bind, hkey, ok_bind, hid]
    simp only [Except.mapError, ok_bind]
    rw [randomNonce_eq_ok_iff.2 ⟨draw, hdraw, rfl⟩]
    show ∃ sent, (signOperation P client authorizeDevice principal _ msk none version clock
        random' >>= _) = _
    rw [hsigned]
    cases envelope with
    | object obj => exact ⟨_, rfl⟩
    | _ => exact ⟨_, rfl⟩

/-! ## The proof of possession -/

/-- The proof of possession reads no member that the last insertion writes. -/
theorem popFieldsOf_insert (artifact : Map) (v : Value) (material : Bytes) :
    popFieldsOf P (insert artifact "self_signature" v) material =
        popPayload P artifact material := by
  unfold popFieldsOf popPayload
  rw [get?_insert, get?_insert, get?_insert, if_neg (by decide), if_neg (by decide),
      if_neg (by decide)]
  rfl

theorem publicMaterial_insert (artifact : Map) (v : Value) :
    publicMaterial P (insert artifact "self_signature" v) = publicMaterial P artifact := by
  unfold publicMaterial Map.str?
  rw [get?_insert, if_neg (by decide)]

theorem sentFor (artifact : Map) (v : Value) :
    SentFor artifact (insert (withWirePurpose artifact) "self_signature" v) := by
  have hpurpose : ∀ k, k ≠ "self_signature" →
      Map.get? (insert (withWirePurpose artifact) "self_signature" v) k =
        Map.get? (withWirePurpose artifact) k := by
    intro k hk
    rw [get?_insert, if_neg (Ne.symm hk)]
  constructor
  · intro given hgiven hp
    rw [hpurpose _ (by decide)]
    unfold withWirePurpose
    rw [hp]
    -- the three spellings of the signing purpose become one
    have hname : given = purposeSigning ∨ given = "signing" ∨ given = "verification" := by
      simpa [purposeSigning] using hgiven
    dsimp only
    rw [if_pos hname, get?_insert, if_pos rfl]
    rfl
  · intro hnot
    rw [hpurpose _ (by decide)]
    unfold withWirePurpose
    cases hp : Map.str? artifact "purpose" with
    | none => rfl
    | some wp =>
      -- every other purpose stays as it is
      have hname : ¬ (wp = purposeSigning ∨ wp = "signing" ∨ wp = "verification") := by
        intro h
        have hin : wp ∈ ["signing", "verification"] := by
          simpa [purposeSigning] using h
        exact hnot wp hin hp
      dsimp only
      rw [if_neg hname]
  · intro k hk hs
    rw [hpurpose k hs]
    unfold withWirePurpose
    cases Map.str? artifact "purpose" with
    | none => rfl
    | some wp =>
      dsimp only
      split
      · rw [get?_insert, if_neg (Ne.symm hk)]
      · rfl

/-- The artifact that is sent when the content key gives `signature`. -/
def sentWith (P : Package) (artifact : Map) (signature : Bytes) : Map :=
  insert (withWirePurpose artifact) "self_signature" (.object [
    ("algorithm", json (Map.get? (withWirePurpose artifact) "algorithm")),
    ("value", .string (P.urlSafeNoPadEncode signature))])

/-- When `set_signing_key_with_proof` sends something: the address, the draw and the material are
good, the content key signs the proof of possession, and the MSK what it is sent in. -/
theorem setSigningKeyWithProof_ok_iff {U : Identity.Unicode} {email : String} {artifact : Map}
    {contentSigner : Option MskSigner} {clock : I64} {random : Except String (Random 16)} :
    (∃ upload, setSigningKeyWithProof P U client email artifact msk contentSigner clock
    random = .ok upload) ↔ ∃ content principal, ∃ draw : Random 16, ∃ material popBytes signature,
        contentSigner = some content ∧ Identity.Rust.emailSha256Hex U email = .ok principal ∧
        random = .ok draw ∧
        decodeBase64url P ((Map.str? (withWirePurpose artifact) "public_material").getD "") =
            .ok material ∧
        canonicalSignedBytes P 1 "artifact_pop" principal clock.1 (P.urlSafeNoPadEncode draw.1)
          (popFieldsOf P (withWirePurpose artifact) material) = .ok popBytes ∧
        content.sign popBytes = .ok signature ∧
        Signs P msk 1 "set_signing_key" principal clock.1 (P.urlSafeNoPadEncode draw.1)
          (.object [("artifacts", .array [.object (sentWith P artifact signature)])]) := by
  unfold setSigningKeyWithProof
  constructor
  · -- every call of the function has succeeded
    intro h
    obtain ⟨upload, h⟩ := h
    cases contentSigner with
    | none => cases h
    | some content =>
      dsimp only at h
      obtain ⟨principal, hprincipal, h⟩ := ok_of_bind h
      obtain ⟨nonce, hnonce, h⟩ := ok_of_bind h
      obtain ⟨draw, hdraw, rfl⟩ := randomNonce_eq_ok_iff.1 hnonce
      obtain ⟨material, hmaterial, h⟩ := ok_of_bind h
      obtain ⟨popBytes, hpop, h⟩ := ok_of_bind h
      obtain ⟨signature, hsignature, h⟩ := ok_of_bind h
      obtain ⟨sent, hsigned, -⟩ := ok_of_bind h
      have hsigns := signOperationWith_ok_iff.1 ⟨sent, hsigned⟩
      exact ⟨content, principal, draw, material, popBytes, signature, rfl, hprincipal, hdraw,
        ok_of_mapError hmaterial, ok_of_mapError hpop, hsignature, hsigns⟩
  · -- every call of the function succeeds
    intro h
    obtain ⟨content, principal, draw, material, popBytes, signature, rfl, hprincipal, hdraw,
      hmaterial, hpop, hsignature, hsigns⟩ := h
    have hsent : ∃ sent, signOperationWith P client setSigningKey principal
        (.object [("artifacts", .array [.object (sentWith P artifact signature)])]) msk clock
        (P.urlSafeNoPadEncode draw.1) protocolVersion = .ok sent :=
      signOperationWith_ok_iff.2 hsigns
    obtain ⟨⟨envelope, signed⟩, hsigned⟩ := hsent
    have hmaterial : publicMaterial P (withWirePurpose artifact) = .ok material := hmaterial
    have hpop : canonicalSignedBytes P protocolVersion.1 artifactPopOperation principal clock.1
        (P.urlSafeNoPadEncode draw.1) (popPayload P (withWirePurpose artifact) material) =
        .ok popBytes := hpop
    dsimp only
    rw [hprincipal, ok_bind, randomNonce_eq_ok_iff.2 ⟨draw, hdraw, rfl⟩, ok_bind, hmaterial]
    simp only [Except.mapError, ok_bind, hpop, hsignature]
    show ∃ upload, (signOperationWith P client setSigningKey principal
      (.object [("artifacts", .array [.object (sentWith P artifact signature)])]) msk clock
      (P.urlSafeNoPadEncode draw.1) protocolVersion >>= _) = _
    rw [hsigned]
    exact ⟨_, rfl⟩

/-- What `set_signing_key_with_proof` sends, and what the two keys signed for it. -/
theorem setSigningKeyWithProof_spec {U : Identity.Unicode} {email : String} {artifact : Map}
    {contentSigner : Option MskSigner} {clock : I64} {random : Except String (Random 16)}
    {upload : Upload}
    (h : setSigningKeyWithProof P U client email artifact msk contentSigner clock
    random = .ok upload) :
    ∃ envelope content sent, upload.request.body = some envelope ∧ contentSigner = some content ∧
      Verifies P msk envelope upload.signed ∧ sentArtifact envelope = some sent ∧
          SentFor artifact sent ∧
      popBytesOf P envelope = some (.ok upload.popSigned) ∧
      ∃ signature, content.sign upload.popSigned = .ok signature ∧
        signatureValue (Map.get? sent "self_signature") =
            some (P.urlSafeNoPadEncode signature) := by
  unfold setSigningKeyWithProof at h
  cases contentSigner with
  | none => cases h
  | some content =>
    dsimp only at h
    obtain ⟨principal, -, h⟩ := ok_of_bind h
    obtain ⟨nonce, -, h⟩ := ok_of_bind h
    obtain ⟨material, hmaterial, h⟩ := ok_of_bind h
    obtain ⟨popBytes, hpop, h⟩ := ok_of_bind h
    obtain ⟨signature, hsignature, h⟩ := ok_of_bind h
    obtain ⟨⟨envelope, signed⟩, hsigned, h⟩ := ok_of_bind h
    cases h
    obtain ⟨hsends, hverifies⟩ := signOperationWith_spec hsigned
    have hsent : sentArtifact envelope = some (sentWith P artifact signature) := by
      unfold sentArtifact
      rw [hsends.payload]
      rfl
    refine ⟨envelope, content, _, rfl, rfl, hverifies, hsent, sentFor artifact _, ?_, signature,
        hsignature, ?_⟩
    · unfold popBytesOf
      rw [hsent, hsends.principal, hsends.timestamp, hsends.nonce]
      show some (publicMaterial P (sentWith P artifact signature) >>= _) = _
      rw [sentWith, publicMaterial_insert, ok_of_mapError hmaterial]
      show some (canonicalSignedBytes P _ _ _ _ _ (popFieldsOf P _ _)) = _
      rw [popFieldsOf_insert]
      exact congrArg some (ok_of_mapError hpop)
    · rw [sentWith, get?_insert, if_pos rfl]
      rfl

end

/-- **Envelopes verify from their own content**: when each function sends an envelope, and that it
verifies. -/
theorem envelopes_verify (P : Package) (U : Identity.Unicode) (client : Client) (msk : MskSigner) :
    (∀ operation principal payload timestamp version clock random,
      ((∃ sent, signOperation P client operation principal payload msk timestamp version
      clock random = .ok sent) ↔
        ∃ draw : Random 16, random = .ok draw ∧ Signs P msk (version.getD protocolVersion).1
            operation principal
          (timestamp.getD clock).1 (P.urlSafeNoPadEncode draw.1) payload) ∧
      ∀ envelope signed,
        signOperation P client operation principal payload msk timestamp version clock random =
          .ok (envelope, signed) → Verifies P msk envelope signed) ∧
    (∀ emailOrPrincipal device principalOverride version createdAt clock random random',
      ((∃ sent, signDeviceAuthorization P U client emailOrPrincipal msk device
      principalOverride version createdAt clock random random' = .ok sent) ↔
        ∃ principal devicePublicKey deviceId, ∃ draw draw' : Random 16,
          principalOf U emailOrPrincipal principalOverride = .ok principal ∧
          devicePublicKeyOf P device = .ok devicePublicKey ∧
          sha256ToUuidV8 (P.sha256 devicePublicKey) = .ok deviceId ∧ random = .ok draw ∧
          random' = .ok draw' ∧
          Signs P msk (version.getD protocolVersion).1 "authorize_device" principal clock.1
            (P.urlSafeNoPadEncode draw'.1) (.object (payloadMembers 1 principal deviceId
              (P.urlSafeNoPadEncode devicePublicKey) "ed25519" createdAt.1
              (P.urlSafeNoPadEncode draw.1) ((device.get? "name").bind Value.asStr)))) ∧
      ∀ envelope signed,
        signDeviceAuthorization P U client emailOrPrincipal msk device principalOverride version
            createdAt clock
          random random' = .ok (envelope, signed) → Verifies P msk envelope signed) ∧
    ∀ email artifact contentSigner clock random,
      ((∃ upload, setSigningKeyWithProof P U client email artifact msk contentSigner clock random =
          .ok upload) ↔
        ∃ content principal, ∃ draw : Random 16, ∃ material popBytes signature,
          contentSigner = some content ∧ Identity.Rust.emailSha256Hex U email = .ok principal ∧
          random = .ok draw ∧
          decodeBase64url P ((Map.str? (withWirePurpose artifact) "public_material").getD "") =
              .ok material ∧
          canonicalSignedBytes P 1 "artifact_pop" principal clock.1 (P.urlSafeNoPadEncode draw.1)
            (popFieldsOf P (withWirePurpose artifact) material) = .ok popBytes ∧
          content.sign popBytes = .ok signature ∧
          Signs P msk 1 "set_signing_key" principal clock.1 (P.urlSafeNoPadEncode draw.1)
            (.object [("artifacts", .array [.object (sentWith P artifact signature)])])) ∧
      ∀ upload, setSigningKeyWithProof P U client email artifact msk contentSigner clock
          random = .ok upload →
        ∃ envelope content sent, upload.request.body = some envelope ∧ contentSigner =
            some content ∧
          Verifies P msk envelope upload.signed ∧ sentArtifact envelope = some sent ∧
              SentFor artifact sent ∧
          popBytesOf P envelope = some (.ok upload.popSigned) ∧
          ∃ signature, content.sign upload.popSigned = .ok signature ∧
            signatureValue (Map.get? sent "self_signature") =
                some (P.urlSafeNoPadEncode signature) := by
  refine ⟨?_, ?_, ?_⟩
  · intro operation principal payload timestamp version clock random
    refine ⟨signOperation_ok_iff, fun envelope signed h => ?_⟩
    exact (signOperation_spec h).1
  · intro emailOrPrincipal device principalOverride version createdAt clock random random'
    refine ⟨signDeviceAuthorization_ok_iff, fun envelope signed h => ?_⟩
    exact signDeviceAuthorization_spec h
  · intro email artifact contentSigner clock random
    refine ⟨setSigningKeyWithProof_ok_iff, fun upload h => ?_⟩
    exact setSigningKeyWithProof_spec h

mutual
/-- The members of every object in the order of their keys. -/
def sortKeys : Value → Value
  | .array xs => .array (sortElements xs)
  | .object m => .object (sortMembers (sortEntries m))
  | v => v
def sortElements : List Value → List Value
  | [] => []
  | x :: xs => sortKeys x :: sortElements xs
def sortEntries : Map → Map
  | [] => []
  | (k, v) :: m => (k, sortKeys v) :: sortEntries m
end

/-- RFC 8785 on values without doubles, base64 as it is, and the first 32 bytes for a hash. -/
def samplePackage : Package where
  canonicalizeJson v := .ok (String.ofList ((Rust.display zeroTexts).print (sortKeys v)))
  sha256 bytes := (bytes ++ List.replicate 32 0).take 32
  urlSafeNoPadEncode := Lib.base64url
  urlSafeNoPadDecode s := (Lib.base64urlDecode s).elim (.error "invalid base64url") .ok
  standardDecode s := (base64Decode s.toList).elim (.error "invalid base64") .ok

/-- The signature is the hash. -/
def sampleSigner : MskSigner := ⟨"ed25519", fun message => .ok (samplePackage.sha256 message)⟩

/-- An artifact for signing, without a family. -/
def sampleArtifact : Map :=
  [("algorithm", .string "ed25519"), ("purpose", .string "signing"),
      ("public_material", .string "-_8BAg==")]

theorem envelopes_verify_sample : ∃ upload envelope sent,
    setSigningKeyWithProof samplePackage Identity.latin ⟨"https://keys.test", "sdk", "1"⟩
        "ada@example.org"
        sampleArtifact sampleSigner (some sampleSigner) ⟨1700000000000, rfl⟩
            (.ok ⟨List.replicate 16 7, rfl⟩) =
      .ok upload ∧
      upload.request.body = some envelope ∧ Verifies samplePackage sampleSigner envelope
          upload.signed ∧
      sentArtifact envelope = some sent ∧ Map.get? sent "purpose" = some (.string "verify") ∧
      popBytesOf samplePackage envelope = some (.ok upload.popSigned) := by
  obtain ⟨hok, hverifies⟩ :=
    (envelopes_verify samplePackage Identity.latin ⟨"https://keys.test", "sdk", "1"⟩
    sampleSigner).2.2 "ada@example.org" sampleArtifact (some sampleSigner) ⟨1700000000000, rfl⟩
      (.ok ⟨List.replicate 16 7, rfl⟩)
  have hprincipal : Identity.Rust.emailSha256Hex Identity.latin "ada@example.org" =
      .ok "ada@example.org" := by
    decide +kernel
  have hmaterial : decodeBase64url samplePackage
      ((Map.str? (withWirePurpose sampleArtifact) "public_material").getD "") =
      .ok [251, 255, 1, 2] := by
    decide +kernel
  obtain ⟨upload, hupload⟩ :=
    hok.2 ⟨sampleSigner, _, _, _, _, _, rfl, hprincipal, rfl, hmaterial, rfl, rfl, _, _, rfl, rfl⟩
  obtain ⟨envelope, content, sent, hbody, -, hsigned, hsent, hfor, hpop, -⟩ :=
    hverifies upload hupload
  exact ⟨upload, envelope, sent, hupload, hbody, hsigned, hsent, hfor.verify "signing"
      (by simp) rfl, hpop⟩

end Discovery.Envelope
