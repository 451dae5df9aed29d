import SdkPubkey.Pairing.Protocol

/-!
# The texts that keys sign

`crates/scomm-vault/src/signing.rs` and `crates/discovery/src/canonical.rs`: the envelopes of the
MSK, the device's authorization of a vault read, and the canonical text of a signed operation.
`SigningPackage` has the functions of other packages that they call. Random bytes, and the time when
the caller gives none, are arguments.
-/

namespace Signing

open Ckvf Lib Vault
open Pairing (Random)

/-- The functions of other packages that signing calls. -/
structure SigningPackage where
  /-- RFC 8785. -/
  canonicalize : Json → Except String String
  sha256 : Bytes → Bytes
  base64urlEncode : Bytes → String
  ed25519Sign : (seed : Bytes) → (message : String) → Except CkvfError Bytes
  /-- `serde_json::to_vec`. -/
  jsonToVec : Json → Except String Bytes

/-! ## Hashes -/

def hexDigits : List Char := "0123456789abcdef".toList

def hexChars : Bytes → List Char
  | [] => []
  | b :: bytes =>
    hexDigits.getD (b.toNat / 16) '0' :: hexDigits.getD (b.toNat % 16) '0' :: hexChars bytes

def hexEncode (bytes : Bytes) : String := String.ofList (hexChars bytes)

example : hexEncode [0, 171, 255] = "00abff" := by decide

/-- SHA-256 of the canonical payload, in hex. -/
def sha256Hex (S : SigningPackage) (payload : Json) : Except String String := do
  let jcs ← S.canonicalize payload
  pure (hexEncode (S.sha256 (utf8 jcs)))

/-! ## `scomm-vault` -/

section
variable (S : SigningPackage)

def payloadSha256Hex (payload : Json) : Except VaultClientError String :=
  (sha256Hex S payload).mapError (.msg "bad_response")

def nonce (random : Random 16) : String := S.base64urlEncode random.1

def nowMs (now : Option Int) (clock : Int) : Int := now.getD clock

/-- What `MskSigner::envelope` signs. -/
def envelopeText (operation principal : String) (timestamp : Int) (nonce payloadHash : String) :
    String :=
  domainSeparator operation ++ "\nprincipal=" ++ principal ++ "\ntimestamp=" ++
      toString timestamp ++
    "\nnonce=" ++ nonce ++ "\npayload_sha256=" ++ payloadHash ++ "\n"

/-- What `device_read_authorization` signs. -/
def deviceReadText (operation identityId vaultId : String) (timestamp : Int)
    (nonce payloadHash : String) : String :=
  domainSeparator operation ++ "\nprincipal=" ++ identityId ++ "\nvault_id=" ++ vaultId ++
    "\ntimestamp=" ++ toString timestamp ++ "\nnonce=" ++ nonce ++ "\npayload_sha256=" ++
    payloadHash ++ "\n"

def signatureJson (signature : Bytes) : Json :=
  .obj [("algorithm", .str "ed25519"), ("value", .str (S.base64urlEncode signature))]

/-- `MskSigner::envelope`; a signer is its seed. -/
def envelope (seed : Random 32) (principal operation : String) (payload : Json) (now : Option Int)
    (clock : Int) (random : Random 16) : Except VaultClientError Json := do
  let payloadHash ← payloadSha256Hex S payload
  let signature ← (S.ed25519Sign seed.1 (envelopeText operation principal (nowMs now clock)
    (nonce S random) payloadHash)).mapError .ofCkvf
  pure (.obj [("protocol_version", .num 1), ("principal", .str principal),
    ("operation", .str operation), ("timestamp", .num (nowMs now clock)),
    ("nonce", .str (nonce S random)), ("payload", payload),
    ("signature", signatureJson S signature)])

/-- `MskSigner::record_signature`. -/
def recordSignature (seed : Random 32) (identityId vaultId : String) (generation : Nat)
    (generationHash : String) : Except VaultClientError Json := do
  let signature ← (S.ed25519Sign seed.1
    (vaultRecordsSigningText identityId vaultId generation generationHash)).mapError .ofCkvf
  pure (signatureJson S signature)

/-- The header of a vault read, signed by an enrolled device key. -/
def deviceReadAuthorization (deviceSeed : Bytes) (identityId vaultId operation : String)
    (payload : Option Json) (now : Option Int) (clock : Int) (random : Random 16) :
    Except VaultClientError String := do
  if deviceSeed.length ≠ 32 then .error (.msg "bad_response" "device seed must be 32 bytes")
  else
    let payloadHash ← payloadSha256Hex S (payload.getD (.obj []))
    let signature ← (S.ed25519Sign deviceSeed (deviceReadText operation identityId vaultId
      (nowMs now clock) (nonce S random) payloadHash)).mapError .ofCkvf
    let bytes ← (S.jsonToVec (.obj [("protocol_version", .num 1), ("principal", .str identityId),
      ("vault_id", .str vaultId), ("operation", .str operation),
      ("timestamp", .num (nowMs now clock)), ("nonce", .str (nonce S random)),
      ("payload_sha256", .str payloadHash),
      ("signature", .str (S.base64urlEncode signature))])).mapError (.msg "bad_response")
    pure ("Device " ++ S.base64urlEncode bytes)

end

/-! ## `discovery` -/

namespace Discovery

def protocolName : String := "SComm/Pubkey"

def domainSeparator (version : Int) (operation : String) : String :=
  protocolName ++ "/" ++ toString version ++ "/" ++ operation

/-- `canonical_signed_utf8` with the hash of its payload. -/
def canonicalText (protocolVersion : Int) (operation principal : String) (timestamp : Int)
    (nonce payloadHash : String) : String :=
  domainSeparator protocolVersion operation ++ "\nprincipal=" ++ principal ++ "\ntimestamp=" ++
    toString timestamp ++ "\nnonce=" ++ nonce ++ "\npayload_sha256=" ++ payloadHash ++ "\n"

def canonicalSignedUtf8 (S : SigningPackage) (protocolVersion : Int) (operation principal : String)
    (timestamp : Int) (nonce : String) (payload : Json) : Except String String := do
  let payloadHash ← sha256Hex S payload
  pure (canonicalText protocolVersion operation principal timestamp nonce payloadHash)

end Discovery

end Signing
