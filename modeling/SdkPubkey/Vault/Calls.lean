import SdkPubkey.Lib.Prog
import SdkPubkey.Vault.Extensions

/-!
# What a KeyVault calls

A `KeyVault` method is a program (`Lib.Prog`) that reads and writes the device's local store and its
open vault, draws random values, and sends requests to the vault host or to the sync store. This
file has the data of these calls (`VaultCall`, `vaultIface`), the local state of a device (`Device`)
and the errors.
-/

namespace Vault

open Ckvf Lib

/-! ## Errors -/

/-- A host error code or a client code, with the host's `error.details`. -/
structure VaultClientError where
  code : String
  message : Option String := none
  status : Option Nat := none
  details : Option Json.Obj := none
deriving DecidableEq

namespace VaultClientError

def msg (code message : String) : VaultClientError := { code, message := some message }

/-- The entry of `details`, if there is one. -/
def detail (e : VaultClientError) (k : String) : Option Json :=
  e.details.bind fun d => Json.Obj.get? d k

/-- `CkvfError` as a client error. -/
def ofCkvf (e : CkvfError) : VaultClientError := { code := e.code, message := e.message }

end VaultClientError

/-! ## Local state -/

/-- The keys of the local store. -/
inductive LocalKey where
  | container
  | deviceKek
  | deviceSlotId
  | syncedHash
  | syncedContainer
  | pinnedMsk
deriving DecidableEq

/-- What a key holds, decoded. -/
@[reducible] def LocalKey.Val (H B W : Type) : LocalKey → Type
  | container => VaultContainer H B W
  | deviceKek => Bytes
  | deviceSlotId => String
  | syncedHash => H
  | syncedContainer => VaultContainer H B W
  | pinnedMsk => String

structure LocalStore (H B W : Type) where
  container : Option (VaultContainer H B W) := none
  deviceKek : Option Bytes := none
  deviceSlotId : Option String := none
  syncedHash : Option H := none
  syncedContainer : Option (VaultContainer H B W) := none
  pinnedMsk : Option String := none
deriving DecidableEq

namespace LocalStore

variable {H B W : Type}

def get (s : LocalStore H B W) : (k : LocalKey) → Option (k.Val H B W)
  | .container => s.container
  | .deviceKek => s.deviceKek
  | .deviceSlotId => s.deviceSlotId
  | .syncedHash => s.syncedHash
  | .syncedContainer => s.syncedContainer
  | .pinnedMsk => s.pinnedMsk

def set (s : LocalStore H B W) : (k : LocalKey) → Option (k.Val H B W) → LocalStore H B W
  | .container, v => { s with container := v }
  | .deviceKek, v => { s with deviceKek := v }
  | .deviceSlotId, v => { s with deviceSlotId := v }
  | .syncedHash, v => { s with syncedHash := v }
  | .syncedContainer, v => { s with syncedContainer := v }
  | .pinnedMsk, v => { s with pinnedMsk := v }

end LocalStore

/-- A device: its store, and the vault its `KeyVault` has open. -/
structure Device (H B W : Type) where
  store : LocalStore H B W := {}
  vault : Option (UnlockedVault H B W) := none
deriving DecidableEq

namespace Device

variable {H B W : Type}

def set (d : Device H B W) (k : LocalKey) (v : Option (k.Val H B W)) : Device H B W :=
  { d with store := d.store.set k v }

section
variable (d : Device H B W) (h : Option H) (m : Option String)

@[simp] theorem set_syncedHash_vault : (d.set .syncedHash h).vault = d.vault := rfl
@[simp] theorem set_syncedHash_container :
    (d.set .syncedHash h).store.container = d.store.container := rfl
@[simp] theorem set_syncedHash_syncedHash : (d.set .syncedHash h).store.syncedHash = h := rfl
@[simp] theorem set_syncedHash_syncedContainer :
    (d.set .syncedHash h).store.syncedContainer = d.store.syncedContainer := rfl
@[simp] theorem set_syncedHash_pinnedMsk :
    (d.set .syncedHash h).store.pinnedMsk = d.store.pinnedMsk := rfl

@[simp] theorem set_pinnedMsk_vault : (d.set .pinnedMsk m).vault = d.vault := rfl
@[simp] theorem set_pinnedMsk_syncedHash :
    (d.set .pinnedMsk m).store.syncedHash = d.store.syncedHash := rfl
@[simp] theorem set_pinnedMsk_syncedContainer :
    (d.set .pinnedMsk m).store.syncedContainer = d.store.syncedContainer := rfl
@[simp] theorem set_pinnedMsk_pinnedMsk : (d.set .pinnedMsk m).store.pinnedMsk = m := rfl

end

/-- What the death of the process leaves. -/
def reset (d : Device H B W) : Device H B W := { d with vault := none }

end Device

/-! ## Remote data -/

/-- A generation stored on the host, with the signature it was put with. -/
structure VaultRecord (H B W : Type) where
  container : VaultContainer H B W
  mskSignature : Bytes
deriving DecidableEq

namespace VaultRecord

variable {H B W : Type}

def generation (r : VaultRecord H B W) : Nat := r.container.generation
def generationHash (r : VaultRecord H B W) : H := r.container.generationHash

end VaultRecord

/-- A read of the current generation; no record while the host stores none. -/
structure VaultRead (H B W : Type) where
  record : Option (VaultRecord H B W)
deriving DecidableEq

/-- The sync store's pointer at the generation to treat as current. -/
structure VaultHead (H : Type) where
  vaultId : String
  generation : Int
  generationHash : H
deriving DecidableEq

/-- As whom a `KeyVault` syncs with the host. -/
structure VaultHostBinding where
  identityId : String
  licenseDeviceId : Option String

structure VaultDevice where
  deviceId : String
  name : String
  addedAt : Option String := none

/-! ## Calls -/

inductive VaultCall (H B W : Type) where
  | read (k : LocalKey)
  | write (k : LocalKey) (v : Option (k.Val H B W))
  | getVault
  | setVault (v : Option (UnlockedVault H B W))
  | randomBytes (n : Nat)
  /-- The random choices of one call of the `ckvf` package. -/
  | entropy
  | authorize (vaultId operation : String)
  | currentRecord (vaultId authorization : String)
  | putRecord (identityId : String) (container : VaultContainer H B W) (signer : Bytes)
      (licenseDeviceId : Option String)
  | getHead (vaultId : String)
  | getGeneration (vaultId : String) (generation : Int)
  | putIfAbsent (vaultId : String) (generation : Int) (container : VaultContainer H B W)
  | compareAndSwapHead (next : VaultHead H) (expectedHash : Option H)
  /-- The app's callback of `revokeDevice`. -/
  | replaceMsk (publicKey : Bytes)

@[reducible] def VaultCall.Ans {H B W : Type} : VaultCall H B W → Type
  | .read k => Except VaultClientError (Option (k.Val H B W))
  | .write _ _ => Except VaultClientError Unit
  | .getVault => Option (UnlockedVault H B W)
  | .setVault _ => Unit
  | .randomBytes _ => Bytes
  | .entropy => Seed
  | .authorize _ _ => Except VaultClientError String
  | .currentRecord _ _ => Except VaultClientError (VaultRead H B W)
  | .putRecord .. => Except VaultClientError Unit
  | .getHead _ => Except VaultClientError (Option (VaultHead H))
  | .getGeneration _ _ => Except VaultClientError (Option (VaultContainer H B W))
  | .putIfAbsent .. => Except VaultClientError Unit
  | .compareAndSwapHead _ _ => Except VaultClientError Bool
  | .replaceMsk _ => Except VaultClientError Unit

@[reducible] def vaultIface (H B W : Type) : Iface := ⟨VaultCall H B W, VaultCall.Ans⟩

/-! ## Signing -/

def vaultGetCurrent : String := "vault_get_current"
def vaultRecordsPut : String := "vault_records_put"

def domainSeparator (operation : String) : String := "SComm/Pubkey/1/" ++ operation

/-- The text the MSK signs for a records upload. -/
def vaultRecordsSigningText (identityId vaultId : String) (generation : Nat)
    (generationHash : String) : String :=
  domainSeparator vaultRecordsPut ++ "\nprincipal=" ++ identityId ++ "\nvault_id=" ++ vaultId ++
    "\ngeneration=" ++ toString generation ++ "\ngeneration_hash=" ++ generationHash ++ "\n"

/-- The device's entry in `priv:scomm.devices`. -/
def deviceJson (device : VaultDevice) (ts : String) : Json :=
  .obj [("device_id", .str device.deviceId), ("name", .str device.name),
    ("added_at", .str (device.addedAt.getD ts))]

end Vault
