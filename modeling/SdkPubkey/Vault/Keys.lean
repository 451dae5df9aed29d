import SdkPubkey.Ckvf.Keys
import SdkPubkey.Vault.Dart
import SdkPubkey.Vault.Rust

/-!
# Keys, devices and pepper slots

The methods of both clients that change a vault through `commit`. The random choices of a change are
its argument `seed`. `importChange` is the change of `import_key`; the two clients differ in their
errors and in what `set_meta` does (`importKeyChange`).
-/

namespace Vault

open Ckvf Lib

variable {H B W : Type}

/-- The status part of `import_key`: the requested status, where it is a later one. -/
def adjustStatus (K : KeyOps H B W) (seed : Seed) (v : UnlockedVault H B W) (id : String)
    (status : Option String) : Except CkvfError (UnlockedVault H B W) :=
  if status = some "retired" ∧ (K.getKey v id).map (·.status) = some "active" then
    K.retireKey seed v id
  else if status = some "revoked" ∧ (K.getKey v id).map (·.status) ≠ some "revoked" then
    K.revokeKey seed v id
  else .ok v

/-- The import of a key, or the id of the one that is there. No record after an import would be a
panic. -/
def importOrFind (K : KeyOps H B W) (seed : Seed) (v : UnlockedVault H B W) (a : KeyImport) :
    Except CkvfError (UnlockedVault H B W × String) :=
  match K.importPrivateKey seed v a with
  | .ok next =>
    match next.payload.keys.getLast? with
    | some r => .ok (next, r.absoluteKeyId)
    | none => .error ⟨"unwrap", none⟩
  | .error e =>
    if e.code = "ERR_KEY_ID" then (K.canonicalKeyId a).map fun id => (v, id) else .error e

/-- The change of `import_key`, with the id that it returns: `label` stores the metadata. -/
def importChange {ε : Type} (conv : CkvfError → ε) (K : KeyOps H B W) (seed : Seed) (a : KeyImport)
    (status : Option String) (label : UnlockedVault H B W → String → Except ε (UnlockedVault H B W))
    (v : UnlockedVault H B W) : Except ε (UnlockedVault H B W × String) := do
  let found ← (importOrFind K seed v a).mapError conv
  let v ← (adjustStatus K seed found.1 found.2 status).mapError conv
  let v ← label v found.2
  pure (v, found.2)

namespace Rust

section
variable (K : KeyOps H B W) (L : Ckvf H B W)

def importKeyChange (seed : Seed) (a : KeyImport) (metadata : Option Json)
    (status : Option String) :
    UnlockedVault H B W → Except VaultClientError (UnlockedVault H B W × String) :=
  importChange .ofCkvf K seed a status fun v id =>
    match metadata with
    | some metadata => setMeta L seed v id metadata
    | none => pure v

def removeDeviceChange (seed : Seed) (slotId : String) (v : UnlockedVault H B W) :
    Except VaultClientError (UnlockedVault H B W) :=
  Except.mapError .ofCkvf do
    let next ← L.removeUnlockSlot seed v slotId
    let data := (extensionData next.payload devicesExtensionId).erase slotId
    L.updateExtensions seed next
      (replaceExtension codePointLe next.payload.extensions devicesExtensionId data)

/-- The change of `replace_pepper_slot`: one slot of the method, for the secret. -/
def pepperSlotChange (seed : Seed) (method secret : String) (pepper : PepperOprf) (key : PepperKey)
    (v : UnlockedVault H B W) : Except VaultClientError (UnlockedVault H B W) :=
  Except.mapError .ofCkvf do
    let slot ← K.wrapPepperSlot seed v.container.vaultId v.vek method secret pepper key
    let slots := v.container.unlockSlots.filter (·.method ≠ method)
    L.commitUnlockSlots seed v (slots ++ [slot])

end

section
variable (K : KeyOps H B W) (L : Ckvf H B W) [DecidableEq H] (binding : Option VaultHostBinding)

/-- `commit` with a change that also sets a variable of the caller (the `id` of `import_key`). -/
def commitSetting {α : Type} (change : UnlockedVault H B W →
    Except VaultClientError (UnlockedVault H B W × α)) (push : Bool) : RProg H B W α := do
  let current ← takeVault
  let next ← .ofExcept (change current)
  persist L next.1
  if push then
    let _ ← (pushQuietly L binding).attempt
    pure next.2
  else pure next.2

def importKey (seed : Seed) (a : KeyImport) (metadata : Option Json) (status : Option String)
    (push : Bool) : RProg H B W String :=
  commitSetting L binding (importKeyChange K L seed a metadata status) push

def setKeyMeta (seed : Seed) (absoluteKeyId : String) (metadata : Json) : RProg H B W Unit :=
  commit L binding (fun v => setMeta L seed v absoluteKeyId metadata) true

def retire (seed : Seed) (absoluteKeyId : String) : RProg H B W Unit :=
  commit L binding (fun v => (K.retireKey seed v absoluteKeyId).mapError .ofCkvf) true

def revoke (seed : Seed) (absoluteKeyId : String) : RProg H B W Unit :=
  commit L binding (fun v => (K.revokeKey seed v absoluteKeyId).mapError .ofCkvf) true

def deletePrivate (seed : Seed) (absoluteKeyId reason : String) : RProg H B W Unit :=
  commit L binding (fun v => (K.deletePrivateKey seed v absoluteKeyId reason).mapError .ofCkvf) true

def setPreferred (seed : Seed) (family purpose : String) (absoluteKeyId : Option String) :
    RProg H B W Unit :=
  commit L binding
    (fun v => (K.setPreferredKey seed v family purpose absoluteKeyId).mapError .ofCkvf) true

def removeDevice (seed : Seed) (slotId : String) : RProg H B W Unit :=
  commit L binding (removeDeviceChange L seed slotId) true

def replacePepperSlot (seed : Seed) (method secret : String) (pepper : PepperOprf)
    (key : PepperKey) : RProg H B W Unit :=
  commit L binding (pepperSlotChange K L seed method secret pepper key) true

def addRecoveryCode (codeSeed seed : Seed) (pepper : PepperOprf) (key : PepperKey) :
    RProg H B W String := do
  let code := K.generateRecoveryCode codeSeed
  replacePepperSlot K L binding seed recoveryCodeOprfMethod code pepper key
  pure code

def setBackupPassword (seed : Seed) (password : String) (pepper : PepperOprf) (key : PepperKey) :
    RProg H B W Unit :=
  replacePepperSlot K L binding seed passwordOprfMethod password pepper key

/-! ## All of them -/

end

/-- A method that changes the vault through `commit`, with its arguments. -/
inductive Mutator (H B W : Type) where
  | commit (change : UnlockedVault H B W →
      Except VaultClientError (UnlockedVault H B W)) (push : Bool)
  | importKey (seed : Seed) (a : KeyImport) (metadata : Option Json) (status : Option String)
    (push : Bool)
  | setKeyMeta (seed : Seed) (absoluteKeyId : String) (metadata : Json)
  | retire (seed : Seed) (absoluteKeyId : String)
  | revoke (seed : Seed) (absoluteKeyId : String)
  | deletePrivate (seed : Seed) (absoluteKeyId reason : String)
  | setPreferred (seed : Seed) (family purpose : String) (absoluteKeyId : Option String)
  | removeDevice (seed : Seed) (slotId : String)
  | setBackupPassword (seed : Seed) (password : String) (pepper : PepperOprf) (key : PepperKey)
  | addRecoveryCode (codeSeed seed : Seed) (pepper : PepperOprf) (key : PepperKey)

section
variable (K : KeyOps H B W) (L : Ckvf H B W)

/-- The change of the method. -/
def Mutator.change (v : UnlockedVault H B W) : Mutator H B W →
    Except VaultClientError (UnlockedVault H B W)
  | commit change _ => change v
  | importKey seed a metadata status _ => (importKeyChange K L seed a metadata status v).map (·.1)
  | setKeyMeta seed id metadata => setMeta L seed v id metadata
  | retire seed id => (K.retireKey seed v id).mapError .ofCkvf
  | revoke seed id => (K.revokeKey seed v id).mapError .ofCkvf
  | deletePrivate seed id reason => (K.deletePrivateKey seed v id reason).mapError .ofCkvf
  | setPreferred seed family purpose id =>
    (K.setPreferredKey seed v family purpose id).mapError .ofCkvf
  | removeDevice seed slotId => removeDeviceChange L seed slotId v
  | setBackupPassword seed password pepper key =>
    pepperSlotChange K L seed passwordOprfMethod password pepper key v
  | addRecoveryCode codeSeed seed pepper key =>
    pepperSlotChange K L seed recoveryCodeOprfMethod (K.generateRecoveryCode codeSeed) pepper key v

variable [DecidableEq H] (binding : Option VaultHostBinding)

def Mutator.prog : Mutator H B W → RProg H B W Unit
  | commit change push => Rust.commit L binding change push
  | importKey seed a metadata status push => do
    let _ ← Rust.importKey K L binding seed a metadata status push
    pure ()
  | setKeyMeta seed id metadata => Rust.setKeyMeta L binding seed id metadata
  | retire seed id => Rust.retire K L binding seed id
  | revoke seed id => Rust.revoke K L binding seed id
  | deletePrivate seed id reason => Rust.deletePrivate K L binding seed id reason
  | setPreferred seed family purpose id => Rust.setPreferred K L binding seed family purpose id
  | removeDevice seed slotId => Rust.removeDevice L binding seed slotId
  | setBackupPassword seed password pepper key =>
    Rust.setBackupPassword K L binding seed password pepper key
  | addRecoveryCode codeSeed seed pepper key => do
    let _ ← Rust.addRecoveryCode K L binding codeSeed seed pepper key
    pure ()

end

end Rust

namespace Dart

section
variable (K : KeyOps H B W) (L : Ckvf H B W)

/-- The change of `importKey`. -/
def importKeyChange (seed : Seed) (a : KeyImport) (metadata : Option Json.Obj)
    (status : Option String) :
    UnlockedVault H B W → Except VaultException (UnlockedVault H B W × String) :=
  importChange .ckvf K seed a status fun v id =>
    match metadata with
    | some metadata => setMeta L seed v id metadata
    | none => pure v

variable [DecidableEq H]

/-- `importKey`, which does not take the private key for the public one. -/
def importKey (cfg : Config) (seed : Seed) (a : KeyImport) (metadata : Option Json.Obj)
    (status : Option String) (push : Bool) : DProg H B W String :=
  if (a.encoding = "pkcs8" ∨ a.encoding = "pkcs12") ∧ a.publicKey = a.privateKey then
    .raise (.msg "invalid_public_key" "public key must not be the private key")
  else do
    let next ← .ofExcept (importKeyChange K L seed a metadata status (← vault))
    persist next.1
    if push then
      pushQuietly L cfg
      pure next.2
    else pure next.2

end

end Dart

end Vault
