import SdkPubkey.Ckvf.Format

/-!
# What the clients rely on in the ckvf package

The assumptions about the external package, each group a structure of its own, so that a result
names the ones it uses. `Seal` says what a well-formed container is and what its payload is; the
package's operations are related to it by `Sealing` (every operation seals one well-formed
container) and by the laws of the payload's parts (`KeyLaws`, `ExtensionLaws`, `MskLaws`);
`SlotLaws` says what a device slot opens.
-/

namespace Ckvf

variable {H B W : Type}

/-- The edits of an open vault: the calls that seal its next generation. -/
inductive Edit (L : Ckvf H B W) (v v' : UnlockedVault H B W) : Prop
  | slots (seed : Seed) (slots : List (UnlockSlot W))
      (h : L.commitUnlockSlots seed v slots = .ok v')
  | removeSlot (seed : Seed) (slotId : String) (h : L.removeUnlockSlot seed v slotId = .ok v')
  | extensions (seed : Seed) (exts : List Extension) (h : L.updateExtensions seed v exts = .ok v')
  | vek (seed : Seed) (slots : String → Bytes → Except CkvfError (List (UnlockSlot W)))
      (h : L.rotateVek seed v slots = .ok v')
  | msk (seed : Seed) (h : L.replaceMsk seed v = .ok v')
  | hybrid (seed : Seed) (publicKey mldsaSeed edSeed : Bytes)
      (h : L.replaceMskHybrid seed v publicKey mldsaSeed edSeed = .ok v')

/-- The well-formed containers and their payloads. -/
structure Seal (H B W : Type) where
  Valid : VaultContainer H B W → Prop
  contents : VaultContainer H B W → VaultPayload

namespace Seal

variable (S : Seal H B W)

/-- An open vault that is what its container holds. -/
def Sealed (v : UnlockedVault H B W) : Prop :=
  S.Valid v.container ∧ v.payload = S.contents v.container

/-- `v'` is the generation after `v`. -/
structure Next (v v' : UnlockedVault H B W) : Prop where
  isSealed : S.Sealed v'
  vaultId : v'.container.vaultId = v.container.vaultId
  generation : v'.container.generation = v.container.generation + 1
  previous : v'.container.previousGenerationHash = some v.container.generationHash

end Seal

/-- Every operation seals one well-formed container, and a generation hash names one. -/
structure Sealing (L : Ckvf H B W) (S : Seal H B W) : Prop where
  hash_inj : ∀ {c c'}, S.Valid c → S.Valid c' → c.generationHash = c'.generationHash → c = c'
  serialized : ∀ {c}, S.Valid c → L.serializeContainer c = .ok c
  opened : ∀ {c slotId kek v}, L.openVaultWithDeviceKek c slotId kek = .ok v →
    v.container = c ∧ S.Sealed v
  created : ∀ {seed o v}, L.createVault seed o = .ok v →
    S.Sealed v ∧ v.container.generation = 1 ∧ v.container.previousGenerationHash = none
  edited : ∀ {v v'}, S.Valid v.container → Edit L v v' → S.Next v v'
  rechained : ∀ {seed v generation previous v'}, S.Valid v.container →
    L.rechain seed v generation previous = .ok v' →
    S.Sealed v' ∧ v'.container.vaultId = v.container.vaultId ∧
      (v'.container.generation : Int) = generation ∧ v'.container.previousGenerationHash = previous
  merged : ∀ {seed head loc base m}, S.Valid head.container → S.Valid loc.container →
    L.mergeOnto seed head loc base = .ok m → S.Next head m ∧
      m.container.vaultId = loc.container.vaultId

/-! ## Device slots -/

/-- A slot of the device `slotId`, which has the key `kek`. -/
def DeviceSlot (L : Ckvf H B W) (vaultId : String) (vek kek : Bytes) (slotId : String)
    (slot : UnlockSlot W) : Prop :=
  ∃ seed now, L.wrapDeviceSlot seed vaultId vek kek slotId now = .ok slot

/-- A device opens a vault with its slot: one it was created with or was given, and one that a
rechained or merged vault had before. -/
structure SlotLaws (L : Ckvf H B W) : Prop where
  opened : ∀ {c slotId kek v}, L.openVaultWithDeviceKek c slotId kek = .ok v →
    v.container = c ∧ L.serializeContainer c = .ok c
  created : ∀ {seed o v slotId kek},
    (∀ {vaultId vek slots}, o.slots vaultId vek = .ok slots →
      ∃ slot ∈ slots, DeviceSlot L vaultId vek kek slotId slot) →
    L.createVault seed o = .ok v → L.openVaultWithDeviceKek v.container slotId kek = .ok v
  added : ∀ {seed v slots slot v' slotId kek}, slot ∈ slots →
    DeviceSlot L v.container.vaultId v.vek kek slotId slot →
    L.commitUnlockSlots seed v slots = .ok v' →
    L.openVaultWithDeviceKek v'.container slotId kek = .ok v'
  rechained : ∀ {seed v generation previous v' slotId kek},
    L.openVaultWithDeviceKek v.container slotId kek = .ok v →
    L.rechain seed v generation previous = .ok v' →
    L.openVaultWithDeviceKek v'.container slotId kek = .ok v'
  merged : ∀ {seed head loc p p' base m slotId kek},
    L.openVaultWithDeviceKek head.container slotId kek = .ok head →
    L.openVaultWithDeviceKek loc.container slotId kek = .ok loc →
    L.mergeOnto seed { head with payload := p } { loc with payload := p' } base = .ok m →
    L.openVaultWithDeviceKek m.container slotId kek = .ok m

/-- The ids of the unlock slots. -/
def slotIdsOf (c : VaultContainer H B W) : List String := c.unlockSlots.map (·.slotId)

/-- What the calls that enrol a device make of the slots and of the payload. -/
structure EnrolLaws (L : Ckvf H B W) (S : Seal H B W) : Prop where
  wrapped : ∀ {seed vaultId vek kek slotId now slot},
    L.wrapDeviceSlot seed vaultId vek kek slotId now = .ok slot → slot.slotId = slotId
  committed : ∀ {seed v slots v'}, L.commitUnlockSlots seed v slots = .ok v' →
    v'.container.unlockSlots = slots ∧ v'.payload.extensions = v.payload.extensions ∧
      v'.payload.msk = v.payload.msk
  rechains : ∀ {seed v generation previous}, S.Sealed v → 0 < generation →
    ∃ v', L.rechain seed v generation previous = .ok v'
  rechained : ∀ {seed v generation previous v'}, L.rechain seed v generation previous = .ok v' →
    v'.container.unlockSlots = v.container.unlockSlots ∧ v'.payload = v.payload

/-! ## Keys -/

/-- The ids of the key records of a payload. -/
def keyIds (p : VaultPayload) : List String := p.keys.map (·.absoluteKeyId)

/-- Nothing but a change of the keys themselves drops a key record. -/
structure KeyLaws (L : Ckvf H B W) : Prop where
  edited : ∀ {v v'}, Edit L v v' → keyIds v.payload ⊆ keyIds v'.payload
  rechained : ∀ {seed v generation previous v'}, L.rechain seed v generation previous = .ok v' →
    keyIds v'.payload = keyIds v.payload
  merged : ∀ {seed head loc base m}, L.mergeOnto seed head loc base = .ok m →
    keyIds head.payload ⊆ keyIds m.payload ∧ keyIds loc.payload ⊆ keyIds m.payload

/-! ## Extensions -/

/-- The extensions a payload has under one id. -/
def extensionsOf (p : VaultPayload) (id : String) : List Extension :=
  p.extensions.filter (·.id = id)

/-- A merge keeps what both sides carry alike; the calls set the extensions they are given, or leave
them. -/
structure ExtensionLaws (L : Ckvf H B W) : Prop where
  merged : ∀ {seed head loc base m}, L.mergeOnto seed head loc base = .ok m →
    ∀ {id}, extensionsOf head.payload id = extensionsOf loc.payload id →
      extensionsOf m.payload id = extensionsOf head.payload id
  updated : ∀ {seed v exts v'}, L.updateExtensions seed v exts = .ok v' →
    v'.payload.extensions = exts
  removedSlot : ∀ {seed v slotId v'}, L.removeUnlockSlot seed v slotId = .ok v' →
    v'.payload.extensions = v.payload.extensions
  rotated : ∀ {seed v slots v'}, L.rotateVek seed v slots = .ok v' →
    v'.payload.extensions = v.payload.extensions
  replacedMsk : ∀ {seed v v'}, L.replaceMsk seed v = .ok v' →
    v'.payload.extensions = v.payload.extensions

/-! ## The MSK -/

def mskOf (p : VaultPayload) : String := p.msk.current.publicKey

/-- Only the calls that replace the MSK change it, and a replacement is another key. -/
structure MskLaws (L : Ckvf H B W) : Prop where
  slots : ∀ {seed v slots v'}, L.commitUnlockSlots seed v slots = .ok v' →
    mskOf v'.payload = mskOf v.payload
  rechained : ∀ {seed v generation previous v'}, L.rechain seed v generation previous = .ok v' →
    mskOf v'.payload = mskOf v.payload
  merged : ∀ {seed head loc base m}, L.mergeOnto seed head loc base = .ok m →
    mskOf m.payload = mskOf head.payload ∨ mskOf m.payload = mskOf loc.payload
  updated : ∀ {seed v exts v'}, L.updateExtensions seed v exts = .ok v' →
    mskOf v'.payload = mskOf v.payload
  rotated : ∀ {seed v slots v'}, L.rotateVek seed v slots = .ok v' →
    mskOf v'.payload = mskOf v.payload
  replaced : ∀ {seed v v'}, L.replaceMsk seed v = .ok v' → mskOf v'.payload ≠ mskOf v.payload

end Ckvf
