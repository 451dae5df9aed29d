import SdkPubkey.Vault.Calls

/-!
# `KeyVault` of the Rust client

`crates/scomm-vault/src/key_vault.rs`. A method that awaits is a program with one call for each
await and for each use of `self.vault`; `self.binding` is the argument `binding`, and a time stamp
(`rfc3339(now)`) the argument `ts`.
-/

namespace Vault.Rust

open Ckvf Lib

variable {H B W : Type}

/-- A method of the Rust `KeyVault`. -/
abbrev RProg (H B W : Type) := Prog (vaultIface H B W) VaultClientError

/-! ## Calls -/

def read (k : LocalKey) : RProg H B W (Option (k.Val H B W)) :=
  .call (.read k) fun (r : Except VaultClientError (Option (k.Val H B W))) => .ofExcept r

def write (k : LocalKey) (v : Option (k.Val H B W)) : RProg H B W Unit :=
  .call (.write k v) fun (r : Except VaultClientError Unit) => .ofExcept r

def setVault (v : Option (UnlockedVault H B W)) : RProg H B W Unit :=
  .call (.setVault v) fun (_ : Unit) => .ret ()

def randomBytes (n : Nat) : RProg H B W Bytes :=
  .call (.randomBytes n) fun (b : Bytes) => .ret b

def entropy : RProg H B W Seed := .call .entropy fun (s : Seed) => .ret s

def authorize (vaultId operation : String) : RProg H B W String :=
  .call (.authorize vaultId operation) fun (r : Except VaultClientError String) => .ofExcept r

def currentRecord (vaultId authorization : String) : RProg H B W (VaultRead H B W) :=
  .call (.currentRecord vaultId authorization)
    fun (r : Except VaultClientError (VaultRead H B W)) => .ofExcept r

/-- `put_record` as `push` matches on it: the host's error is a value. -/
def putRecord (identityId : String) (container : VaultContainer H B W) (signer : Bytes)
    (licenseDeviceId : Option String) : RProg H B W (Except VaultClientError Unit) :=
  .call (.putRecord identityId container signer licenseDeviceId)
    fun (r : Except VaultClientError Unit) => .ret r

/-- The result of the `ckvf` package, its error converted. -/
def ckvf {α : Type} (x : Except CkvfError α) : RProg H B W α :=
  .ofExcept (x.mapError .ofCkvf)

def notOpen : VaultClientError := .msg "bad_response" "KeyVault is not open"

def vault : RProg H B W (UnlockedVault H B W) :=
  .call .getVault fun (v : Option (UnlockedVault H B W)) =>
    match v with
    | some v => .ret v
    | none => .raise notOpen

/-- `self.vault.take()`, an error when there is none. -/
def takeVault : RProg H B W (UnlockedVault H B W) := do
  let v ← (.call .getVault fun (v : Option (UnlockedVault H B W)) => .ret v)
  setVault none
  match v with
  | some v => pure v
  | none => .raise notOpen

section
variable (L : Ckvf H B W)

/-! ## The device's slot -/

def deviceSlotId : RProg H B W String := do
  match ← read .deviceSlotId with
  | some id => pure id
  | none => .raise (.msg "device_removed" "no device slot on this device")

def deviceKek : RProg H B W Bytes := do
  match ← read .deviceKek with
  | some kek =>
    if kek.length = 32 then pure kek else .raise (.msg "bad_response" "device kek length")
  | none => .raise (.msg "device_removed" "no device key on this device")

def writeDevice (kek : Bytes) (slotId : String) : RProg H B W Unit := do
  write .deviceKek (some kek)
  write .deviceSlotId (some slotId)

def persist (v : UnlockedVault H B W) : RProg H B W Unit := do
  let json ← ckvf (L.serializeContainer v.container)
  write .container (some json)
  setVault (some v)

def openWithDeviceSlot (container : VaultContainer H B W) : RProg H B W (UnlockedVault H B W) := do
  let slotId ← deviceSlotId
  let kek ← deviceKek
  ckvf (L.openVaultWithDeviceKek container slotId kek)

/-! ## Records -/

/-- The current MSK, then its predecessors, until one verifies. -/
def verifyAny (text : String) (signature : Bytes) : List String → Except VaultClientError Unit
  | [] => .error (.msg "invalid_signature" "record msk_signature is invalid")
  | key :: keys =>
    match L.base64urlDecode key with
    | .error e => .error (.msg "bad_response" e.code)
    | .ok pk => if L.ed25519Verify pk text signature then .ok () else verifyAny text signature keys

def verifyRecordSignature (record : VaultRecord H B W) (opened : UnlockedVault H B W)
    (identityId : String) : Except VaultClientError Unit :=
  let text := vaultRecordsSigningText identityId record.container.vaultId record.generation
    (L.hashText record.generationHash)
  let msk := opened.payload.msk
  verifyAny L text record.mskSignature (msk.current.publicKey :: msk.history)

def openRecord (record : VaultRecord H B W) (identityId : String) :
    RProg H B W (UnlockedVault H B W) := do
  match ← (openWithDeviceSlot L record.container).attempt with
  | .ok head =>
    .ofExcept (verifyRecordSignature L record head identityId)
    pure head
  | .error e =>
    if e.code = "ERR_SLOT_ID" then
      .raise (.msg "device_removed" "this device no longer has a slot in the stored vault")
    else .raise e

def mskSeed (v : UnlockedVault H B W) : Except VaultClientError Bytes :=
  match v.payload.msk.current.privateKey.asString with
  | some key => (L.base64urlDecode key).mapError fun e => .msg "bad_response" e.code
  | none => .error (.msg "bad_response" "msk private key")

/-- The MSK signer of the open vault: its 32-byte seed. -/
def signer : RProg H B W Bytes := do
  let seed ← .ofExcept (mskSeed L (← vault))
  if seed.length = 32 then pure seed else .raise (.msg "bad_response" "seed must be 32 bytes")

/-! ## Changes -/

def setMeta (seed : Seed) (v : UnlockedVault H B W) (absoluteKeyId : String) (metadata : Json) :
    Except VaultClientError (UnlockedVault H B W) :=
  let c := absoluteKeyId.toUTF8.toList.head?.getD 0
  let id := keyMetaExtensionPrefix ++ String.ofList (Nat.toDigits 16 (c.toNat % 16))
  let payload := withExtensionEntry codePointLe v.payload id absoluteKeyId metadata
  (L.updateExtensions seed v payload.extensions).mapError .ofCkvf

def mergeNormalized (head loc : UnlockedVault H B W) : RProg H B W (UnlockedVault H B W) := do
  let ids := (scommIds head.payload loc.payload).insertionSort fun a b => codePointLe a b = true
  let sides := normalize codePointLe ids head.payload loc.payload
  let seed ← entropy
  ckvf (L.mergeOnto seed { head with payload := sides.1 } { loc with payload := sides.2 } none)

end

section
variable (L : Ckvf H B W) [DecidableEq H]

/-! ## Host sync -/

def pull (binding : Option VaultHostBinding) : RProg H B W Bool := do
  match binding with
  | none => pure false
  | some b =>
    let vaultId := (← vault).container.vaultId
    let auth ← authorize vaultId vaultGetCurrent
    let read' ← currentRecord vaultId auth
    match read'.record with
    | none => pure false
    | some record =>
      let loc ← vault
      if record.generationHash = loc.container.generationHash then
        write .syncedHash (some record.generationHash)
        pure false
      else
        let head ← openRecord L record b.identityId
        let synced ← read .syncedHash
        if synced = some loc.container.generationHash then
          write .syncedHash (some record.generationHash)
          persist L head
        else
          let merged ← mergeNormalized L head loc
          persist L merged
        pure true

/-- `details.head_generation` as a `u64`, its maximum when there is none. -/
def headGeneration (e : VaultClientError) : Nat :=
  match e.detail "head_generation" with
  | some (.num (.ofNat n)) => n
  | _ => 18446744073709551615

/-- `rechain` and `persist`. -/
def persistRechained (loc : UnlockedVault H B W) (generation : Nat) (previous : Option H) :
    RProg H B W Unit := do
  let seed ← entropy
  let next ← ckvf (L.rechain seed loc generation previous)
  persist L next

/-- The conflict arm of `push`: the local vault is made to extend the host's head. -/
def resolveConflict (b : VaultHostBinding) (loc : UnlockedVault H B W) (e : VaultClientError) :
    RProg H B W Unit := do
  if headGeneration e = 0 then
    persistRechained L loc 1 none
  else
    let vaultId := (← vault).container.vaultId
    let auth ← authorize vaultId vaultGetCurrent
    let read' ← currentRecord vaultId auth
    match read'.record with
    | none => persistRechained L loc 1 none
    | some record =>
      let synced ← read .syncedHash
      if some record.generationHash = synced then
        persistRechained L loc (record.generation + 1) (some record.generationHash)
      else
        let head ← openRecord L record b.identityId
        let merged ← mergeNormalized L head loc
        persist L merged

/-- The rounds of `push`, at most `n` of them. -/
def pushRounds (b : VaultHostBinding) : Nat → RProg H B W Unit
  | 0 => .raise (.msg "generation_conflict" "the host head kept moving; try again")
  | n + 1 => do
    let loc ← vault
    let hash := loc.container.generationHash
    let synced ← read .syncedHash
    if synced = some hash then
      pure ()
    else
      let signer ← signer L
      match ← putRecord b.identityId loc.container signer b.licenseDeviceId with
      | .ok _ => write .syncedHash (some hash)
      | .error e =>
        if e.code = "generation_conflict" then
          resolveConflict L b loc e
          pushRounds b n
        else .raise e

def push (binding : Option VaultHostBinding) : RProg H B W Unit :=
  match binding with
  | none => pure ()
  | some b => pushRounds L b 4

def pushQuietly (binding : Option VaultHostBinding) : RProg H B W Unit :=
  (push L binding).handle fun e => if e.code = "network_error" then pure () else .raise e

def sync (binding : Option VaultHostBinding) : RProg H B W Unit := do
  let _ ← pull L binding
  push L binding

/-! ## Local lifecycle -/

/-- Generation 1 with a device slot for this device. -/
def create (email : String) (device : VaultDevice) (mskSeed : Option Bytes) (ts : String) :
    RProg H B W Unit := do
  let kek ← randomBytes 32
  let slotId := L.base64urlEncode (← randomBytes 16)
  let seed ← entropy
  let v ← ckvf (L.createVault seed {
    identityType := "email"
    identityValue := email
    now := ts
    mskSeed := mskSeed
    extensions := [⟨devicesExtensionId, false, .obj [(slotId, deviceJson device ts)]⟩]
    slots := fun vaultId vek => do
      pure [← L.wrapDeviceSlot seed vaultId vek kek slotId (some ts)] })
  writeDevice kek slotId
  write .syncedHash none
  persist L v

/-- `open`: false when this device has no vault. -/
def openStored : RProg H B W Bool := do
  match ← read .container with
  | none => pure false
  | some json =>
    let v ← openWithDeviceSlot L json
    setVault (some v)
    pure true

/-- The vault `adopt` stores: `opened` with a slot and a devices entry for this device. -/
def withDevice (seed : Seed) (opened : UnlockedVault H B W) (device : VaultDevice) (kek : Bytes)
    (slotId ts : String) : Except CkvfError (UnlockedVault H B W) := do
  let slot ← L.wrapDeviceSlot seed opened.container.vaultId opened.vek kek slotId (some ts)
  let payload := withExtensionEntry codePointLe opened.payload devicesExtensionId slotId
    (deviceJson device ts)
  L.commitUnlockSlots seed { opened with payload := payload }
    (opened.container.unlockSlots ++ [slot])

def adopt (opened : UnlockedVault H B W) (device : VaultDevice) (storedOnHost : Bool)
    (ts : String) : RProg H B W Unit := do
  let kek ← randomBytes 32
  let slotId := L.base64urlEncode (← randomBytes 16)
  let seed ← entropy
  let v ← ckvf (withDevice L seed opened device kek slotId ts)
  writeDevice kek slotId
  write .syncedHash (if storedOnHost then some opened.container.generationHash else none)
  persist L v

def commit (binding : Option VaultHostBinding)
    (change : UnlockedVault H B W → Except VaultClientError (UnlockedVault H B W)) (push : Bool) :
    RProg H B W Unit := do
  let current ← takeVault
  let next ← .ofExcept (change current)
  persist L next
  if push then
    let _ ← (pushQuietly L binding).attempt

end

end Vault.Rust
