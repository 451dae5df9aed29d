import SdkPubkey.Ckvf.Keys
import SdkPubkey.Vault.Dart

/-!
# Offline exports

`exportWithPassword`, `openExport` and `importExport` of
`packages/scomm_vault_client/lib/src/key_vault.dart`: a container with a part of the keys under a
new VEK and a password, and its merge into another vault.
-/

namespace Vault.Dart

open Ckvf Lib

variable {H B W A : Type}

/-! ## The payload -/

/-- The key metadata of an extension, those of the keys `ids`. -/
def exportShard (ids : List String) (e : Extension) : Option Extension :=
  if startsWith e.id keyMetaExtensionPrefix then
    e.data.asObject.map fun m => ⟨e.id, false, .obj (m.filter fun x => x.1 ∈ ids)⟩
  else none

/-- The payload of an export; without `keyIds` it has every key. The families left empty are removed
either way, for a cascade comes after the conditional. -/
def exportPayload (keyIds : Option (List String)) (p : VaultPayload) : VaultPayload where
  identity := p.identity
  msk := p.msk
  keys := match keyIds with
    | none => p.keys
    | some ids => p.keys.filter fun k => k.absoluteKeyId ∈ ids
  preferredKeys :=
    let selected : List (String × List (String × String)) := match keyIds with
      | none => p.preferredKeys
      | some ids => p.preferredKeys.map fun f => (f.1, f.2.filter fun x => x.2 ∈ ids)
    selected.filter fun f => !f.2.isEmpty
  metadata := p.metadata
  tombstones := match keyIds with
    | none => p.tombstones
    | some _ => []
  extensions := match keyIds with
    | none => p.extensions
    | some ids => p.extensions.filterMap (exportShard ids)
  criticalExtensions := []

/-! ## The methods -/

section
variable (L : Ckvf H B W) (P : PasswordOps H B W A)

def exportWithPassword (password : String) (keyIds : Option (List String)) (kdf : A) :
    DProg H B W (VaultContainer H B W) := do
  let v ← vault
  let tempKek ← randomBytes 32
  let seed ← entropy
  let rotated ← ckvf (L.rotateVek seed v fun vaultId vek => do
    pure [← L.wrapDeviceSlot seed vaultId vek tempKek (P.slotId seed) none])
  match rotated.container.unlockSlots with
  | [tempSlot] =>
    let payload := exportPayload keyIds rotated.payload
    let seed ← entropy
    let withPassword ← ckvf (P.addUnlockSlot seed { rotated with payload } password kdf)
    let seed ← entropy
    let sealed ← ckvf (L.removeUnlockSlot seed withPassword tempSlot.slotId)
    ckvf (L.serializeContainer sealed.container)
  | _ => .raise (.state "single")

def openExport (container : VaultContainer H B W) (password : String) :
    DProg H B W (UnlockedVault H B W) := ckvf (P.openVault container password)

/-- The change of `importExport`. -/
def importExportChange (exported : UnlockedVault H B W) (v : UnlockedVault H B W) :
    DProg H B W (UnlockedVault H B W) :=
  if exported.payload.identity.identityId ≠ v.payload.identity.identityId then
    .raise (.msg "identity_mismatch" "export is for another identity")
  else mergeNormalized L v ⟨v.container, exported.payload, v.vek⟩ none

variable [DecidableEq H]

/-- `importExport`, without the conflicts it returns. -/
def importExport (cfg : Config) (exported : UnlockedVault H B W) : DProg H B W Unit :=
  commit L cfg (importExportChange L exported) true

end

end Vault.Dart
