import SdkPubkey.Vault.Calls

/-!
# `KeyVault` of the Dart client

`packages/scomm_vault_client/lib/src/key_vault.dart`. A method is a program with one call for each
await and for each use of `_vault`; the fields `binding` and `syncStore` are the argument `cfg`, and
a time stamp (`rfc3339(now)`) the argument `ts`. The methods run one at a time (`_locked`).
-/

namespace Vault.Dart

open Ckvf Lib

variable {H B W : Type}

/-- What a method throws. -/
inductive VaultException where
  | client (e : VaultClientError)
  | ckvf (e : CkvfError)
  | state (message : String)
  /-- Whatever the local store throws. -/
  | store (e : VaultClientError)
deriving DecidableEq

namespace VaultException

def msg (code message : String) : VaultException := .client (.msg code message)

/-- The code of a client exception. -/
def code : VaultException → Option String
  | .client e => some e.code
  | _ => none

/-- The code of an exception of the `ckvf` package. -/
def ckvfCode : VaultException → Option String
  | .ckvf e => some e.code
  | _ => none

end VaultException

/-- The fields of a `KeyVault` that say what it syncs with. -/
structure Config where
  binding : Option VaultHostBinding
  syncStore : Bool

/-- A method of the Dart `KeyVault`. -/
abbrev DProg (H B W : Type) := Prog (vaultIface H B W) VaultException

/-! ## Calls -/

def read (k : LocalKey) : DProg H B W (Option (k.Val H B W)) :=
  .call (.read k) fun (r : Except VaultClientError (Option (k.Val H B W))) =>
    .ofExcept (r.mapError .store)

def write (k : LocalKey) (v : Option (k.Val H B W)) : DProg H B W Unit :=
  .call (.write k v) fun (r : Except VaultClientError Unit) => .ofExcept (r.mapError .store)

def setVault (v : Option (UnlockedVault H B W)) : DProg H B W Unit :=
  .call (.setVault v) fun (_ : Unit) => .ret ()

def randomBytes (n : Nat) : DProg H B W Bytes :=
  .call (.randomBytes n) fun (b : Bytes) => .ret b

def entropy : DProg H B W Seed := .call .entropy fun (s : Seed) => .ret s

def authorize (vaultId operation : String) : DProg H B W String :=
  .call (.authorize vaultId operation)
    fun (r : Except VaultClientError String) => .ofExcept (r.mapError .client)

def currentRecord (vaultId authorization : String) : DProg H B W (VaultRead H B W) :=
  .call (.currentRecord vaultId authorization)
    fun (r : Except VaultClientError (VaultRead H B W)) => .ofExcept (r.mapError .client)

def putRecord (identityId : String) (container : VaultContainer H B W) (signer : Bytes)
    (licenseDeviceId : Option String) : DProg H B W Unit :=
  .call (.putRecord identityId container signer licenseDeviceId)
    fun (r : Except VaultClientError Unit) => .ofExcept (r.mapError .client)

def getHead (vaultId : String) : DProg H B W (Option (VaultHead H)) :=
  .call (.getHead vaultId)
    fun (r : Except VaultClientError (Option (VaultHead H))) => .ofExcept (r.mapError .client)

def getGeneration (vaultId : String) (generation : Int) :
    DProg H B W (Option (VaultContainer H B W)) :=
  .call (.getGeneration vaultId generation)
    fun (r : Except VaultClientError (Option (VaultContainer H B W))) =>
      .ofExcept (r.mapError .client)

def putIfAbsent (vaultId : String) (generation : Int) (container : VaultContainer H B W) :
    DProg H B W Unit :=
  .call (.putIfAbsent vaultId generation container)
    fun (r : Except VaultClientError Unit) => .ofExcept (r.mapError .client)

def compareAndSwapHead (next : VaultHead H) (expectedHash : Option H) : DProg H B W Bool :=
  .call (.compareAndSwapHead next expectedHash)
    fun (r : Except VaultClientError Bool) => .ofExcept (r.mapError .client)

/-- The callback `replaceMsk` of `revokeDevice`. -/
def callReplaceMsk (publicKey : Bytes) : DProg H B W Unit :=
  .call (.replaceMsk publicKey)
    fun (r : Except VaultClientError Unit) => .ofExcept (r.mapError .client)

def ckvf {α : Type} (x : Except CkvfError α) : DProg H B W α := .ofExcept (x.mapError .ckvf)

def vault : DProg H B W (UnlockedVault H B W) :=
  .call .getVault fun (v : Option (UnlockedVault H B W)) =>
    match v with
    | some v => .ret v
    | none => .raise (.state "KeyVault is not open")

section
variable (L : Ckvf H B W)

/-! ## The device's slot -/

def deviceKek : DProg H B W Bytes := do
  match ← read .deviceKek with
  | some kek => if kek.length = 32 then pure kek else .raise (.ckvf ⟨"ERR_LENGTH", none⟩)
  | none => .raise (.msg "device_removed" "no device key on this device")

def deviceSlotId : DProg H B W String := do
  match ← read .deviceSlotId with
  | some id => pure id
  | none => .raise (.msg "device_removed" "no device slot on this device")

def writeDevice (kek : Bytes) (slotId : String) : DProg H B W Unit := do
  write .deviceKek (some kek)
  write .deviceSlotId (some slotId)

def persist (v : UnlockedVault H B W) : DProg H B W Unit := do
  write .container (some v.container)
  setVault (some v)

def openWithDeviceSlot (container : VaultContainer H B W) : DProg H B W (UnlockedVault H B W) := do
  let slotId ← deviceSlotId
  let kek ← deviceKek
  ckvf (L.openVaultWithDeviceKek container slotId kek)

/-! ## The synced markers -/

def syncedGeneration : DProg H B W Nat := do
  match ← read .syncedContainer with
  | some c => pure c.generation
  | none => pure 0

/-- The merge base: the synced container when this device's slot opens it. -/
def mergeBase : DProg H B W (Option (UnlockedVault H B W)) := do
  match ← read .syncedContainer with
  | none => pure none
  | some c =>
    match ← (openWithDeviceSlot L c).attempt with
    | .ok v => pure (some v)
    | .error _ => pure none

def markSynced (v : UnlockedVault H B W) : DProg H B W Unit := do
  write .syncedHash (some v.container.generationHash)
  write .syncedContainer (some v.container)
  write .pinnedMsk (some v.payload.msk.current.publicKey)

def acceptMsk (opened : UnlockedVault H B W) : DProg H B W Unit := do
  match ← read .pinnedMsk with
  | some pinned =>
    if pinned ≠ opened.payload.msk.current.publicKey then
      .raise (.msg "msk_changed"
        "the stored MSK changed; confirm it with Discovery before syncing")
    else pure ()
  | none => pure ()

/-! ## Records -/

/-- An Ed25519 or `mldsa65-ed25519` signature; a wrong length fails. -/
def verifyArmedMsk (publicKey : Bytes) (message : String) (signature : Bytes) : Bool :=
  if publicKey.length = 32 ∧ signature.length = 64 then
    L.ed25519Verify publicKey message signature
  else if publicKey.length ≠ 1984 ∨ signature.length ≠ 3373 then false
  else if L.mldsaVerify (publicKey.take 1952) message (signature.take 3309) then
    L.ed25519Verify (publicKey.drop 1952) message (signature.drop 3309)
  else false

/-- The record's signature under the current MSK of its payload. -/
def verifyRecordSignature (record : VaultRecord H B W) (opened : UnlockedVault H B W)
    (identityId : String) : Except VaultException Unit := do
  let text := vaultRecordsSigningText identityId record.container.vaultId record.generation
    (L.hashText record.generationHash)
  let pk ← (L.base64urlToBytes opened.payload.msk.current.publicKey none).mapError .ckvf
  if verifyArmedMsk L pk text record.mskSignature then pure ()
  else .error (.msg "invalid_signature" "record msk_signature is invalid")

def openRecord (record : VaultRecord H B W) (identityId : String) :
    DProg H B W (UnlockedVault H B W) := do
  match ← (openWithDeviceSlot L record.container).attempt with
  | .ok head =>
    .ofExcept (verifyRecordSignature L record head identityId)
    pure head
  | .error e =>
    if e.ckvfCode = some "ERR_SLOT_ID" then
      .raise (.msg "device_removed" "this device no longer has a slot in the stored vault")
    else .raise e

def entryText (m : Json.Obj) (k : String) : String :=
  match m.get? k with
  | some (.str s) => s
  | _ => "null"

def mskIsHybrid (v : UnlockedVault H B W) : Bool :=
  v.payload.msk.current.algorithm = "mldsa65-ed25519"

/-- The 32-byte Ed25519 seed, or the 64 bytes of both seeds. -/
def mskSeed (v : UnlockedVault H B W) : Except VaultException Bytes :=
  match v.payload.msk.current.privateKey with
  | .obj m => do
    let mldsa ← (L.base64urlToBytes (entryText m "mldsa65_seed") (some 32)).mapError .ckvf
    let ed ← (L.base64urlToBytes (entryText m "ed25519_seed") (some 32)).mapError .ckvf
    pure (mldsa ++ ed)
  | .str key => do
    let raw ← (L.base64urlToBytes key none).mapError .ckvf
    if mskIsHybrid v ∧ raw.length = 64 then pure raw
    else (L.base64urlToBytes key (some 32)).mapError .ckvf
  | _ => .error (.state "msk private key")

def signer : DProg H B W Bytes := do
  let seed ← .ofExcept (mskSeed L (← vault))
  if seed.length = 32 ∨ seed.length = 64 then pure seed
  else .raise (.state "must be 32 bytes (ed25519) or 64 bytes (mldsa65-ed25519)")

/-! ## Merging -/

def mergeNormalized (head loc : UnlockedVault H B W) (base : Option (UnlockedVault H B W)) :
    DProg H B W (UnlockedVault H B W) := do
  let sides := normalize utf16Le (scommIds head.payload loc.payload) head.payload loc.payload
  let seed ← entropy
  ckvf (L.mergeOnto seed { head with payload := sides.1 } { loc with payload := sides.2 } base)

/-- `mergeNormalized` with the merge base, persisted. -/
def mergeAndPersist (head loc : UnlockedVault H B W) : DProg H B W Unit := do
  let base ← mergeBase L
  let merged ← mergeNormalized L head loc base
  persist merged

/-- `rechain` and `_persist`. -/
def persistRechained (loc : UnlockedVault H B W) (generation : Int) (previous : Option H) :
    DProg H B W Unit := do
  let seed ← entropy
  let next ← ckvf (L.rechain seed loc generation previous)
  persist next

end

section
variable (L : Ckvf H B W) [DecidableEq H]

/-! ## Sync store -/

def pullSync : DProg H B W Bool := do
  let vaultId := (← vault).container.vaultId
  match ← getHead vaultId with
  | none => pure false
  | some head =>
    if head.vaultId ≠ vaultId then
      .raise (.msg "sync_head" "vault id mismatch")
    else
      let loc ← vault
      if head.generationHash = loc.container.generationHash then
        write .syncedHash (some head.generationHash)
        pure false
      else if head.generation < (← syncedGeneration) then
        .raise (.msg "generation_rollback" "sync storage returned an older generation")
      else
        match ← getGeneration vaultId head.generation with
        | none => .raise (.msg "sync_missing" "head generation is missing")
        | some raw =>
          let opened ← openWithDeviceSlot L raw
          if opened.container.generationHash ≠ head.generationHash then
            .raise (.msg "sync_tamper" "generation hash does not match the head")
          else
            let synced ← read .syncedHash
            if synced = some loc.container.generationHash then
              markSynced opened
              persist opened
            else
              mergeAndPersist L opened loc
            pure true

/-- The local generation written after the head it extends; false when the head has moved. -/
def extendHead (loc : UnlockedVault H B W) (head : Option (VaultHead H)) : DProg H B W Bool := do
  putIfAbsent loc.container.vaultId loc.container.generation loc.container
  let ok ← compareAndSwapHead
    ⟨loc.container.vaultId, loc.container.generation, loc.container.generationHash⟩
    (head.map (·.generationHash))
  if ok then
    markSynced loc
    pure true
  else pure false

/-- `_pushSync` where the local generation does not extend the head: it is made to. -/
def catchUp (loc : UnlockedVault H B W) (head : Option (VaultHead H)) : DProg H B W Unit := do
  match head with
  | none => persistRechained L loc 1 none
  | some head =>
    match ← getGeneration loc.container.vaultId head.generation with
    | none => .raise (.msg "sync_missing" "head generation is missing")
    | some raw =>
      if some head.generationHash = (← read .syncedHash) then
        persistRechained L loc (head.generation + 1) (some head.generationHash)
      else
        let opened ← openWithDeviceSlot L raw
        mergeAndPersist L opened loc

/-- Whether `loc` is the next generation after `head`. -/
def parentMatches (loc : UnlockedVault H B W) (head : Option (VaultHead H)) : Bool :=
  match head with
  | none => loc.container.generation = 1
  | some head => loc.container.previousGenerationHash = some head.generationHash

/-- One round of `_pushSync`: true when the local generation is stored. -/
def pushSyncRound : DProg H B W Bool := do
  let loc ← vault
  let hash := loc.container.generationHash
  let synced ← read .syncedHash
  if synced = some hash then
    pure true
  else
    let head ← getHead loc.container.vaultId
    if head.map (·.generationHash) = some hash then
      markSynced loc
      pure true
    else
      let rolledBack ← match head with
        | none => pure false
        | some head => do
          let bound ← syncedGeneration
          pure (decide (head.generation < bound ∧
            some head.generationHash ≠ loc.container.previousGenerationHash))
      if rolledBack then
        .raise (.msg "generation_rollback" "sync storage returned an older generation")
      else if parentMatches loc head then
        extendHead loc head
      else
        catchUp L loc head
        pure false

def pushSyncRounds : Nat → DProg H B W Unit
  | 0 => .raise (.msg "generation_conflict" "the sync head kept moving; try again")
  | n + 1 => do
    if ← pushSyncRound L then pure () else pushSyncRounds n

def pushSync : DProg H B W Unit := pushSyncRounds L 4

/-! ## Host sync -/

def pullHost (b : VaultHostBinding) : DProg H B W Bool := do
  let vaultId := (← vault).container.vaultId
  let auth ← authorize vaultId vaultGetCurrent
  let read' ← currentRecord vaultId auth
  match read'.record with
  | none => pure false
  | some record =>
    let loc ← vault
    if record.generationHash = loc.container.generationHash then
      write .syncedHash (some record.generationHash)
      pure false
    else if record.generation < (← syncedGeneration) then
      .raise (.msg "generation_rollback" "the host returned an older generation")
    else
      let head ← openRecord L record b.identityId
      acceptMsk head
      let synced ← read .syncedHash
      if synced = some loc.container.generationHash then
        markSynced head
        persist head
      else
        mergeAndPersist L head loc
      pure true

def pull (cfg : Config) : DProg H B W Bool :=
  if cfg.syncStore then pullSync L
  else
    match cfg.binding with
    | none => pure false
    | some b => pullHost L b

/-- The conflict branch of `push`: the local vault is made to extend the host's head. -/
def resolveConflict (b : VaultHostBinding) (loc : UnlockedVault H B W) (e : VaultClientError) :
    DProg H B W Unit := do
  if e.detail "head_generation" = some (.num 0) then
    persistRechained L loc 1 none
  else
    let vaultId := (← vault).container.vaultId
    let auth ← authorize vaultId vaultGetCurrent
    let read' ← currentRecord vaultId auth
    match read'.record with
    | none => persistRechained L loc 1 none
    | some record =>
      let synced ← read .syncedHash
      if some record.generationHash = synced then
        persistRechained L loc (record.generation + 1) (some record.generationHash)
      else if record.generation < (← syncedGeneration) then
        .raise (.msg "generation_rollback" "the host returned an older generation")
      else
        let head ← openRecord L record b.identityId
        acceptMsk head
        mergeAndPersist L head loc

/-- `putRecord` and `_markSynced`, as the `try` of `push` has them. -/
def putAndMark (b : VaultHostBinding) (loc : UnlockedVault H B W) : DProg H B W Unit := do
  let signer ← signer L
  putRecord b.identityId loc.container signer b.licenseDeviceId
  markSynced loc

/-- One round of `push`: true when the local generation is stored. -/
def pushRound (b : VaultHostBinding) : DProg H B W Bool := do
  let loc ← vault
  let hash := loc.container.generationHash
  let synced ← read .syncedHash
  if synced = some hash then
    pure true
  else
    match ← (putAndMark L b loc).attempt with
    | .ok _ => pure true
    | .error (.client e) =>
      if e.code ≠ "generation_conflict" then .raise (.client e)
      else
        resolveConflict L b loc e
        pure false
    | .error e => .raise e

def pushRounds (b : VaultHostBinding) : Nat → DProg H B W Unit
  | 0 => .raise (.msg "generation_conflict" "the host head kept moving; try again")
  | n + 1 => do
    if ← pushRound L b then pure () else pushRounds b n

def push (cfg : Config) : DProg H B W Unit :=
  if cfg.syncStore then pushSync L
  else
    match cfg.binding with
    | none => pure ()
    | some b => pushRounds L b 4

def sync (cfg : Config) : DProg H B W Unit := do
  let _ ← pull L cfg
  push L cfg

def pushQuietly (cfg : Config) : DProg H B W Unit :=
  if cfg.binding.isNone ∧ ¬ cfg.syncStore then pure ()
  else (push L cfg).handle fun e => if e.code = some "network_error" then pure () else .raise e

/-! ## Local lifecycle -/

/-- Generation 1 with a device slot for this device. -/
def create (email : String) (device : VaultDevice) (mskSeed : Option Bytes) (ts : String) :
    DProg H B W Unit := do
  let kek ← randomBytes 32
  let slotId := L.base64urlEncode (← randomBytes 16)
  let seed ← entropy
  let v ← ckvf (L.createVault seed {
    identityType := "email"
    identityValue := email
    now := ts
    mskSeed := mskSeed
    extensions := [⟨devicesExtensionId, false, .obj [(slotId, deviceJson device ts)]⟩]
    slots := fun vaultId vek => do
      pure [← L.wrapDeviceSlot seed vaultId vek kek slotId (some ts)] })
  writeDevice kek slotId
  write .syncedHash none
  persist v

/-- `open`: false when this device has no vault. -/
def openStored : DProg H B W Bool := do
  match ← read .container with
  | none => pure false
  | some json =>
    let v ← openWithDeviceSlot L json
    setVault (some v)
    pure true

/-- The vault `adopt` stores: `opened` with a slot and a devices entry for this device. -/
def withDevice (seed : Seed) (opened : UnlockedVault H B W) (device : VaultDevice) (kek : Bytes)
    (slotId ts : String) : Except CkvfError (UnlockedVault H B W) := do
  let slot ← L.wrapDeviceSlot seed opened.container.vaultId opened.vek kek slotId (some ts)
  let payload := withExtensionEntry utf16Le opened.payload devicesExtensionId slotId
    (deviceJson device ts)
  L.commitUnlockSlots seed { opened with payload := payload }
    (opened.container.unlockSlots ++ [slot])

def adopt (opened : UnlockedVault H B W) (device : VaultDevice) (storedOnHost : Bool)
    (ts : String) : DProg H B W Unit := do
  let kek ← randomBytes 32
  let slotId := L.base64urlEncode (← randomBytes 16)
  let seed ← entropy
  let v ← ckvf (withDevice L seed opened device kek slotId ts)
  writeDevice kek slotId
  write .syncedHash (if storedOnHost then some opened.container.generationHash else none)
  persist v

def rotateToHybridMsk (seeds publicKey : Bytes) : DProg H B W Unit := do
  let v ← vault
  if mskIsHybrid v then pure ()
  else
    let seed ← entropy
    let next ← ckvf (L.replaceMskHybrid seed v publicKey (seeds.take 32)
      ((seeds.drop 32).take 32))
    persist next

def clear : DProg H B W Unit := do
  write .container none
  write .deviceKek none
  write .deviceSlotId none
  write .syncedHash none
  write .syncedContainer none
  write .pinnedMsk none
  setVault none

def commit (cfg : Config) (change : UnlockedVault H B W → DProg H B W (UnlockedVault H B W))
    (push : Bool) : DProg H B W Unit := do
  let next ← change (← vault)
  persist next
  if push then pushQuietly L cfg else pure ()

/-! ## Keys and devices -/

def setMeta (seed : Seed) (v : UnlockedVault H B W) (absoluteKeyId : String)
    (metadata : Json.Obj) : Except VaultException (UnlockedVault H B W) :=
  match (absoluteKeyId.toList.flatMap utf16).head? with
  | none => .error (.state "RangeError")
  | some c =>
    let id := keyMetaExtensionPrefix ++ String.ofList (Nat.toDigits 16 (c % 16))
    let payload := withExtensionEntry utf16Le v.payload id absoluteKeyId (.obj metadata)
    (L.updateExtensions seed v payload.extensions).mapError .ckvf

def setSecurityIdentities (seed : Seed) (v : UnlockedVault H B W) (doc : Json.Obj) :
    Except VaultException (UnlockedVault H B W) :=
  (L.updateExtensions seed v
    (replaceExtension utf16Le v.payload.extensions securityIdentitiesExtensionId doc)).mapError
    .ckvf

/-- The change of `removeDevice`: without the slot and without its devices entry. -/
def removeDeviceChange (seed : Seed) (v : UnlockedVault H B W) (slotId : String) :
    Except CkvfError (UnlockedVault H B W) := do
  let next ← L.removeUnlockSlot seed v slotId
  let data := (extensionData next.payload devicesExtensionId).erase slotId
  L.updateExtensions seed next
    (replaceExtension utf16Le next.payload.extensions devicesExtensionId data)

def removeDevice (cfg : Config) (slotId : String) : DProg H B W Unit :=
  commit L cfg (fun v => do
    let seed ← entropy
    ckvf (removeDeviceChange L seed v slotId)) true

/-- The 32-byte `public_key` of a devices entry. -/
def deviceHpkePublicKey (entry : Option Json) : Option Bytes :=
  match entry with
  | some (.obj m) =>
    match Json.Obj.get? m "public_key" with
    | some (.str raw) =>
      if raw = "" then none
      else
        match L.base64urlToBytes raw (some 32) with
        | .ok pk => some pk
        | .error _ => none
    | _ => none
  | _ => none

/-- The slots made so far and the slot ids they are for. -/
abbrev Wrapped (W : Type) := List (UnlockSlot W) × List String

/-- Wraps the VEK to the public key of a devices entry, unless `slotId` is out or already
wrapped. -/
def wrapEntry (seed : Seed) (vaultId : String) (vek : Bytes) (slotId : String)
    (acc : Wrapped W) (id : String) (entry : Option Json) : Except CkvfError (Wrapped W) :=
  if id = slotId ∨ id ∈ acc.2 then pure acc
  else
    match deviceHpkePublicKey L entry with
    | none => pure acc
    | some pk => do
      let slot ← L.wrapDeviceHpkeSlot seed vaultId vek pk id
      pure (acc.1 ++ [slot], acc.2 ++ [id])

/-- The slots of `revokeDevice`'s new VEK. -/
def revokedSlots (seed : Seed) (v : UnlockedVault H B W) (mySlotId : String) (myKek : Bytes)
    (slotId vaultId : String) (vek : Bytes) : Except CkvfError (List (UnlockSlot W)) := do
  let deviceData := extensionData v.payload devicesExtensionId
  let own ← L.wrapDeviceSlot seed vaultId vek myKek mySlotId none
  let acc ← v.container.unlockSlots.foldlM (fun acc slot =>
    if slot.method = passwordOprfMethod ∨ slot.method = recoveryCodeOprfMethod then pure acc
    else wrapEntry L seed vaultId vek slotId acc slot.slotId (deviceData.get? slot.slotId))
    ([own], [mySlotId])
  let acc ← deviceData.foldlM (fun acc e =>
    wrapEntry L seed vaultId vek slotId acc e.1 (some e.2)) acc
  pure acc.1

/-- The vault `revokeDevice` stores: a new VEK, the entry gone, a new MSK. -/
def revokedVault (seed : Seed) (v : UnlockedVault H B W) (mySlotId : String) (myKek : Bytes)
    (slotId : String) : Except CkvfError (UnlockedVault H B W) := do
  let rotated ← L.rotateVek seed v (revokedSlots L seed v mySlotId myKek slotId)
  let data := (extensionData rotated.payload devicesExtensionId).erase slotId
  let withDevices ← L.updateExtensions seed rotated
    (replaceExtension utf16Le rotated.payload.extensions devicesExtensionId data)
  L.replaceMsk seed withDevices

/-- `revokeDevice`: the change is committed without a push, then the app is given the new MSK. -/
def revokeDevice (slotId : String) : DProg H B W Unit := do
  let v ← vault
  let mySlotId ← deviceSlotId
  let myKek ← deviceKek
  if slotId = mySlotId then
    .raise (.msg "device_removed" "cannot revoke this device slot; use forgetThisDevice")
  else
    let seed ← entropy
    let withMsk ← ckvf (revokedVault L seed v mySlotId myKek slotId)
    let newMskPublic ← ckvf (L.base64urlToBytes withMsk.payload.msk.current.publicKey (some 32))
    write .pinnedMsk (some withMsk.payload.msk.current.publicKey)
    persist withMsk
    callReplaceMsk newMskPublic

/-- The change of `rotateVekToThisDevice`: a new VEK and only this device's slot and entry. -/
def vekToThisDevice (seed : Seed) (v : UnlockedVault H B W) (kek : Bytes) (slotId : String) :
    Except CkvfError (UnlockedVault H B W) := do
  let rotated ← L.rotateVek seed v fun vaultId vek => do
    pure [← L.wrapDeviceSlot seed vaultId vek kek slotId none]
  let data := (extensionData rotated.payload devicesExtensionId).filter fun e => e.1 = slotId
  L.updateExtensions seed rotated
    (replaceExtension utf16Le rotated.payload.extensions devicesExtensionId data)

def rotateVekToThisDevice (cfg : Config) : DProg H B W Unit :=
  commit L cfg (fun v => do
    let kek ← deviceKek
    let slotId ← deviceSlotId
    let seed ← entropy
    ckvf (vekToThisDevice L seed v kek slotId)) true

end

end Vault.Dart
