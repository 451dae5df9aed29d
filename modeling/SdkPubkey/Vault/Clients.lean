import SdkPubkey.Vault.Alone
import SdkPubkey.Vault.RustHost

/-!
# Rust and Dart devices on one host

The `KeyVault`s of both SDKs (`crates/scomm-vault/src/key_vault.rs` and
`packages/scomm_vault_client/lib/src/key_vault.dart`) sync with the same host. Any number of
devices, each with the `KeyVault` of one of the two, share the generations of one vault; their steps
interleave at every await.
-/

namespace Vault

open Ckvf Lib

variable {H B W : Type}

/-- The SDK of a device. -/
inductive Client where
  | rust
  | dart
deriving DecidableEq

/-- A method of one of the two `KeyVault`s. -/
inductive ClientOp (H B W : Type) where
  | rust (op : RustOp H B W)
  | dart (op : DartOp H B W)

def ClientOp.client : ClientOp H B W → Client
  | rust _ => .rust
  | dart _ => .dart

/-- What a method of one of the two fails with. -/
abbrev ClientError := VaultClientError ⊕ Dart.VaultException

section
variable (L : Ckvf H B W) [DecidableEq H]

def ClientOp.prog : ClientOp H B W → VProg H B W ClientError Unit
  | rust op => (op.prog L).mapError .inl
  | dart op => (op.prog L).mapError .inr

/-- The devices and the host; after a crash a device has its store. -/
def clientsHost (recordSignature : RecordSignature H B W) :
    Protocol (Device H B W) (Host H B W) (ClientOp H B W) (vaultIface H B W) ClientError where
  env := vaultEnv (hostRemote L recordSignature)
  prog := ClientOp.prog L
  reset := Device.reset

end

abbrev ClientsWorld (ι H B W : Type) :=
  World ι (Device H B W) (Host H B W) (ClientOp H B W) (vaultIface H B W) ClientError

/-- Empty stores and an empty host. -/
def ClientsWorld.start {ι : Type} : ClientsWorld ι H B W := ⟨[], fun _ => {}, fun _ => none⟩

/-- Every generation extends the ones before it. -/
def Host.Linked (g : Host H B W) : Prop := ∀ older r newer, g = older ++ r :: newer →
    Host.Extends older r.container

end Vault
