import SdkPubkey.Lib.Parties
import SdkPubkey.Vault.Host
import SdkPubkey.Vault.Rust

/-!
# Rust devices and a host

Any number of devices, each with its local store and one `KeyVault` method running at most, and one
host. The steps of the devices interleave at every await; a request can fail before or after it took
effect, a call to the store can fail, and a device can crash and open its stored vault again.
-/

namespace Vault

open Ckvf Lib

variable {H B W : Type}

/-- A method of the Rust `KeyVault` and its arguments; `sync` is `pull` and then `push`. -/
inductive RustOp (H B W : Type) where
  | create (email : String) (device : VaultDevice) (mskSeed : Option Bytes) (ts : String)
  | adopt (opened : UnlockedVault H B W) (device : VaultDevice) (storedOnHost : Bool) (ts : String)
  | openStored
  | commit (binding : Option VaultHostBinding)
    (change : UnlockedVault H B W → Except VaultClientError (UnlockedVault H B W)) (push : Bool)
  | pull (binding : Option VaultHostBinding)
  | push (binding : Option VaultHostBinding)

section
variable (L : Ckvf H B W) [DecidableEq H]

def RustOp.prog : RustOp H B W → Rust.RProg H B W Unit
  | create email device mskSeed ts => Rust.create L email device mskSeed ts
  | adopt opened device storedOnHost ts => Rust.adopt L opened device storedOnHost ts
  | openStored => do
    let _ ← Rust.openStored L
    pure ()
  | commit binding change andPush => Rust.commit L binding change andPush
  | pull binding => do
    let _ ← Rust.pull L binding
    pure ()
  | push binding => Rust.push L binding

/-- The devices and the host; after a crash a device has its store. -/
def rustHost (recordSignature : RecordSignature H B W) :
    Protocol (Device H B W) (Host H B W) (RustOp H B W) (vaultIface H B W) VaultClientError where
  env := vaultEnv (hostRemote L recordSignature)
  prog := RustOp.prog L
  reset := Device.reset

end

abbrev RustWorld (ι H B W : Type) :=
  World ι (Device H B W) (Host H B W) (RustOp H B W) (vaultIface H B W) VaultClientError

/-- Empty stores and an empty host. -/
def RustWorld.start {ι : Type} : RustWorld ι H B W := ⟨[], fun _ => {}, fun _ => none⟩

end Vault
