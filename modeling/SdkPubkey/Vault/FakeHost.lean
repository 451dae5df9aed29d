import SdkPubkey.Lib.Text
import SdkPubkey.Signing.Texts
import SdkPubkey.Sync.Folder
import SdkPubkey.Vault.RustHost

/-!
# The in-memory host of the Rust tests

`FakeVaultHost` (`crates/scomm-vault/tests/common/mod.rs`) keeps records as JSON, and a read goes
through `VaultRead::from_json` (`crates/scomm-vault/src/vault_host_client.rs`) like one over HTTP.
`rustFake` has the devices of `rustHost` with this host for theirs. Its mailbox is
`Pairing.Mailbox`.
-/

namespace Vault

open Ckvf Lib Signing
open Pairing (Random)

variable {H B W : Type}

/-- The functions of the `ckvf` package that a host calls. -/
structure HostPackage (H B W : Type) where
  validate : VaultContainer H B W → Except CkvfError Unit
  /-- What the canonical text of a container parses to. -/
  containerJson : VaultContainer H B W → Json
  /-- `validate_container_shape` with the default limits. -/
  validateContainerShape : Json → Except CkvfError (VaultContainer H B W)
  ed25519PublicFromSeed : (seed : Bytes) → Bytes

/-! ## Reading a record -/

/-- `VaultRead` with what no `KeyVault` reads. -/
structure ParsedRead (H B W : Type) extends VaultRead H B W where
  createdAt : Option String := none
  mskPublicKey : Option Bytes := none
  archivedMskPublicKeys : List Bytes := []
  oprfToken : Option String := none

section
variable (L : Ckvf H B W)

def decodeLen (s : String) (len : Nat) : Except VaultClientError Bytes :=
  match L.base64urlDecode s with
  | .error _ => .error (.msg "bad_response" ("field must be " ++ toString len ++ " bytes"))
  | .ok b =>
    if b.length = len then .ok b
    else .error (.msg "bad_response" ("field must be " ++ toString len ++ " bytes"))

def required {α : Type} (x : Option α) (field : String) : Except VaultClientError α :=
  match x with
  | some a => .ok a
  | none => .error (.msg "bad_response" field)

def decodeKeys : List Json → Except VaultClientError (List Bytes)
  | [] => .ok []
  | k :: ks => do
    let key ← decodeLen L (k.asString.getD "") 32
    let keys ← decodeKeys ks
    pure (key :: keys)

variable (P : HostPackage H B W)

/-- The record of a read. -/
def recordFromJson (raw : Json) : Except VaultClientError (VaultRecord H B W) := do
  let value ← required ((raw.field? "msk_signature").bind (·.stringField? "value"))
      "record.msk_signature"
  let json ← required (raw.field? "container") "record.container"
  let container ← (P.validateContainerShape json).mapError .ofCkvf
  if (raw.field? "generation").any fun g => Sync.Rust.asU64 g ≠
      some (container.generation : Int) then
    .error (.msg "bad_response" "record.generation")
  else
    let signature ← decodeLen L value 64
    pure ⟨container, signature⟩

/-- `VaultRead::from_json`. -/
def fromJson (body : Json) : Except VaultClientError (ParsedRead H B W) := do
  -- a record that is no object counts as none
  let raw := (body.field? "record").filter (·.asObject.isSome)
  let record ← match raw with
    | some raw => do
      let record ← recordFromJson L P raw
      pure (some record)
    | none => pure none
  let mskPublicKey ← match body.stringField? "msk_public_key" with
    | some s => do
      let key ← decodeLen L s 32
      pure (some key)
    | none => pure none
  let archivedMskPublicKeys ← match body.field? "archived_msk_public_keys" with
    | some (.arr keys) => decodeKeys L keys
    | _ => pure []
  pure {
    record := record
    createdAt := raw.bind (·.stringField? "created_at")
    mskPublicKey := mskPublicKey
    archivedMskPublicKeys := archivedMskPublicKeys
    oprfToken := body.stringField? "oprf_token" }

end

/-! ## The host -/

structure FakeInner where
  records : List Json := []
  /-- A set; a token is in it until it is read with. -/
  readTokens : List String := []
  offline : Bool := false

namespace FakeInner

def online (s : FakeInner) : Except VaultClientError Unit :=
  if s.offline then .error (.msg "network_error" "offline") else .ok ()

def headGeneration (s : FakeInner) : Int :=
  ((s.records.getLast?.bind (·.field? "generation")).bind Sync.Rust.asU64).getD 0

def headHash (s : FakeInner) : Option String :=
  s.records.getLast?.bind (·.stringField? "generation_hash")

def tokenInvalid : VaultClientError := { code := "pairing_read_token_invalid", status := some 401 }

/-- A pairing's token is taken out of the set, whatever the read gives. -/
def useToken (authorization : String) (s : FakeInner) : Except VaultClientError Unit × FakeInner :=
  match Text.stripPrefix "PairingRead " authorization with
  | some token =>
    if token ∈ s.readTokens then (.ok (), { s with readTokens := s.readTokens.filter (· ≠ token) })
    else (.error tokenInvalid, s)
  | none => (.ok (), s)

section
variable (L : Ckvf H B W) (P : HostPackage H B W)

def lastRecord (s : FakeInner) : Except VaultClientError (VaultRead H B W) :=
  match s.records.getLast? with
  | none => .ok ⟨none⟩
  | some last => do
    let read ← fromJson L P (.obj [("record", last)])
    pure read.toVaultRead

def currentRecord (authorization : String) (s : FakeInner) :
    Except VaultClientError (VaultRead H B W) × FakeInner :=
  match s.online with
  | .error e => (.error e, s)
  | .ok () =>
    match useToken authorization s with
    | (.error e, s) => (.error e, s)
    | (.ok (), s) => (lastRecord L P s, s)

variable (S : SigningPackage)

def invalidSignature : VaultClientError := { code := "invalid_signature", status := some 401 }

/-- The signature that the signer gives for the container, which it must have made with its own
key. -/
def signed (identityId : String) (c : VaultContainer H B W) (signer : Random 32) :
    Except VaultClientError Json := do
  (P.validate c).mapError .ofCkvf
  let sig ← recordSignature S signer identityId c.vaultId c.generation (L.hashText c.generationHash)
  let value ← required (sig.stringField? "value") "signature"
  let bytes ← (L.base64urlDecode value).mapError fun e => .msg "bad_response" e.code
  if L.ed25519Verify (P.ed25519PublicFromSeed signer.1)
      (vaultRecordsSigningText identityId c.vaultId c.generation
      (L.hashText c.generationHash)) bytes then
    pure sig
  else .error invalidSignature

def conflict (c : VaultContainer H B W) (s : FakeInner) : VaultClientError where
  code := "generation_conflict"
  message := some "does not extend the head"
  status := some 409
  details := some [("generation", .num c.generation), ("head_generation", .num s.headGeneration),
    ("head_generation_hash", match s.headHash with
      | some h => .str h
      | none => .null)]

/-- The record after the head, or a conflict. -/
def extend (c : VaultContainer H B W) (sig : Json) (s : FakeInner) :
    Except VaultClientError Unit × FakeInner :=
  if (c.generation : Int) ≠ s.headGeneration + 1 ∨
      c.previousGenerationHash.map L.hashText ≠ s.headHash then
    (.error (conflict c s), s)
  else
    match L.serializeContainer c with
    | .error e => (.error (.ofCkvf e), s)
    | .ok c' =>
      (.ok (), { s with records := s.records ++ [.obj [("container", P.containerJson c'),
        ("generation", .num c.generation), ("generation_hash", .str (L.hashText c.generationHash)),
        ("msk_signature", sig)]] })

/-- `none` when `records[g - 1]` panics. -/
def putRecord (identityId : String) (c : VaultContainer H B W) (signer : Random 32)
    (s : FakeInner) :
    Option (Except VaultClientError Unit × FakeInner) :=
  match s.online.bind fun _ => signed L P S identityId c signer with
  | .error e => some (.error e, s)
  | .ok sig =>
    if (c.generation : Int) ≤ s.headGeneration then
      if c.generation = 0 then none
      else
        s.records[c.generation - 1]?.map fun stored =>
          if stored.stringField? "generation_hash" = some (L.hashText c.generationHash)
              then (.ok (), s)
          else extend L P c sig s
    else some (extend L P c sig s)

end

end FakeInner

/-! ## Devices on the host -/

/-- What happened between two requests: `set_offline`, and the tokens of pairings. -/
structure FakeEv where
  offline : Bool := false
  issued : List String := []

def FakeEv.apply (ev : FakeEv) (s : FakeInner) : FakeInner :=
  { s with offline := ev.offline, readTokens := ev.issued ++ s.readTokens }

section
variable (L : Ckvf H B W) (P : HostPackage H B W) (S : SigningPackage)

/-- An `MskSigner` has a seed of 32 bytes. -/
def fakeAnswer : (c : VaultCall H B W) → FakeInner → Option (c.Ans × FakeInner)
  | .currentRecord _ authorization, s => some (s.currentRecord L P authorization)
  | .putRecord identityId c signer _, s =>
    if h : signer.length = 32 then s.putRecord L P S identityId c ⟨signer, h⟩ else none
  | _, _ => none

@[reducible] def fakeRemote : Remote H B W FakeInner where
  Ev := FakeEv
  step c ev _ s := fakeAnswer L P S c (ev.apply s)

/-- The devices of `rustHost` and the fake host. -/
def rustFake [DecidableEq H] :
    Protocol (Device H B W) FakeInner (RustOp H B W) (vaultIface H B W) VaultClientError where
  env := vaultEnv (fakeRemote L P S)
  prog := RustOp.prog L
  reset := Device.reset

end

abbrev FakeWorld (ι H B W : Type) :=
  World ι (Device H B W) FakeInner (RustOp H B W) (vaultIface H B W) VaultClientError

/-- Empty stores and an empty host. -/
def FakeWorld.start {ι : Type} : FakeWorld ι H B W := ⟨{}, fun _ => {}, fun _ => none⟩

end Vault
