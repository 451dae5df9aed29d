import SdkPubkey.Ckvf.Json

/-!
# The CKVF interface

The data of a CKVF vault as the vault clients see it, and the operations of the external `ckvf`
package they call (`Ckvf`). A generation hash, a sealed payload and a wrapped key are types of that
package: `H`, `B` and `W`. Operations that draw random values inside (nonces, keys) take a `Seed`,
the choices of one call.

The canonical JSON text of a container is identified with the container it parses back to, so
`serializeContainer` only keeps its failure.
-/

namespace Ckvf

abbrev Bytes := List UInt8

/-- The random choices of one call of the package. -/
abbrev Seed := Nat

structure CkvfError where
  code : String
  message : Option String := none
deriving DecidableEq

structure Extension where
  id : String
  critical : Bool
  data : Json
deriving DecidableEq

structure MskKey where
  algorithm : String
  publicKey : String
  privateKey : Json
deriving DecidableEq

/-- The master signing key and the public keys of its predecessors. -/
structure Msk where
  current : MskKey
  history : List String
deriving DecidableEq

structure Identity where
  identityId : String
  data : Json
deriving DecidableEq

/-- A key record: what the clients read of it, and the rest. -/
structure KeyRecord where
  absoluteKeyId : String
  status : String
  material : Json
deriving DecidableEq

structure VaultPayload where
  identity : Identity
  msk : Msk
  keys : List KeyRecord
  preferredKeys : List (String × List (String × String))
  metadata : Json
  tombstones : List Json
  extensions : List Extension
  criticalExtensions : List String
deriving DecidableEq

structure UnlockSlot (W : Type) where
  slotId : String
  method : String
  wrap : W
deriving DecidableEq

/-- One generation of a vault, sealed. -/
structure VaultContainer (H B W : Type) where
  vaultId : String
  generation : Nat
  previousGenerationHash : Option H
  generationHash : H
  unlockSlots : List (UnlockSlot W)
  body : B
deriving DecidableEq

structure UnlockedVault (H B W : Type) where
  container : VaultContainer H B W
  payload : VaultPayload
  vek : Bytes
deriving DecidableEq

structure CreateVaultOptions (W : Type) where
  identityType : String
  identityValue : String
  now : String
  mskSeed : Option Bytes
  extensions : List Extension
  /-- The first slots, for the vault id and the VEK that are drawn. -/
  slots : String → Bytes → Except CkvfError (List (UnlockSlot W))

def passwordOprfMethod : String := "password-oprf-argon2id"
def recoveryCodeOprfMethod : String := "recovery-code-oprf-argon2id"

end Ckvf

open Ckvf

/-- The operations of the `ckvf` package that the vault clients call. -/
structure Ckvf (H B W : Type) where
  createVault : Seed → CreateVaultOptions W → Except CkvfError (UnlockedVault H B W)
  openVaultWithDeviceKek : VaultContainer H B W → (slotId : String) → (kek : Bytes) →
    Except CkvfError (UnlockedVault H B W)
  serializeContainer : VaultContainer H B W → Except CkvfError (VaultContainer H B W)
  wrapDeviceSlot : Seed → (vaultId : String) → (vek kek : Bytes) → (slotId : String) →
    (now : Option String) → Except CkvfError (UnlockSlot W)
  wrapDeviceHpkeSlot : Seed → (vaultId : String) → (vek recipientPublicKey : Bytes) →
    (slotId : String) → Except CkvfError (UnlockSlot W)
  commitUnlockSlots : Seed → UnlockedVault H B W → List (UnlockSlot W) →
    Except CkvfError (UnlockedVault H B W)
  removeUnlockSlot : Seed → UnlockedVault H B W → (slotId : String) →
    Except CkvfError (UnlockedVault H B W)
  updateExtensions : Seed → UnlockedVault H B W → List Extension →
    Except CkvfError (UnlockedVault H B W)
  rotateVek : Seed → UnlockedVault H B W →
    (String → Bytes → Except CkvfError (List (UnlockSlot W))) →
    Except CkvfError (UnlockedVault H B W)
  replaceMsk : Seed → UnlockedVault H B W → Except CkvfError (UnlockedVault H B W)
  replaceMskHybrid : Seed → UnlockedVault H B W → (publicKey mldsaSeed edSeed : Bytes) →
    Except CkvfError (UnlockedVault H B W)
  /-- The payload of a vault sealed again as generation `generation` after `previous`. -/
  rechain : Seed → UnlockedVault H B W → (generation : Int) → (previous : Option H) →
    Except CkvfError (UnlockedVault H B W)
  /-- The next generation after `head` with the changes of `loc` since `base`. -/
  mergeOnto : Seed → (head loc : UnlockedVault H B W) → (base : Option (UnlockedVault H B W)) →
    Except CkvfError (UnlockedVault H B W)
  base64urlEncode : Bytes → String
  base64urlDecode : String → Except CkvfError Bytes
  /-- `base64urlDecode` with the length checked, when one is given. -/
  base64urlToBytes : String → Option Nat → Except CkvfError Bytes
  ed25519Verify : (publicKey : Bytes) → (message : String) → (signature : Bytes) → Bool
  mldsaVerify : (publicKey : Bytes) → (message : String) → (signature : Bytes) → Bool
  /-- A generation hash as the text that is signed. -/
  hashText : H → String
