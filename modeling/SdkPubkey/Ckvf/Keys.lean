import SdkPubkey.Ckvf.Laws

/-!
# The key operations of the ckvf package

The calls of the package that change keys and pepper slots (`KeyOps`) and those on password slots
(`PasswordOps`), beside those of `Ckvf`, and what the clients rely on in them (`ImportLaws`,
`ExportLaws`).
-/

namespace Ckvf

variable {H B W : Type}

/-- The key that `import_private_key` is given. -/
structure KeyImport where
  family : String
  encoding : String
  algorithm : String
  purpose : List String
  privateKey : Bytes
  publicKey : Bytes
  createdAt : Option String

/-- The evaluation key of a pepper slot. -/
structure PepperKey where
  kid : String
  publicKey : Bytes

/-- `PepperOprf`: the pepper of a secret, for a slot of a vault. -/
abbrev PepperOprf :=
  (vaultId slotId kid : String) → (publicKey secret : Bytes) → Except CkvfError Bytes

structure KeyOps (H B W : Type) where
  importPrivateKey : Seed → UnlockedVault H B W → KeyImport → Except CkvfError (UnlockedVault H B W)
  canonicalOpenpgpPublicKey : (publicKey privateKey : Bytes) → Except CkvfError Bytes
  /-- The absolute and the relative id of a canonical public key. -/
  keyIds : (publicKey : Bytes) → Except CkvfError (String × String)
  getKey : UnlockedVault H B W → (absoluteKeyId : String) → Option KeyRecord
  retireKey : Seed → UnlockedVault H B W → (absoluteKeyId : String) →
    Except CkvfError (UnlockedVault H B W)
  revokeKey : Seed → UnlockedVault H B W → (absoluteKeyId : String) →
    Except CkvfError (UnlockedVault H B W)
  deletePrivateKey : Seed → UnlockedVault H B W → (absoluteKeyId reason : String) →
    Except CkvfError (UnlockedVault H B W)
  setPreferredKey : Seed → UnlockedVault H B W → (family purpose : String) →
    (absoluteKeyId : Option String) → Except CkvfError (UnlockedVault H B W)
  wrapPepperSlot : Seed → (vaultId : String) → (vek : Bytes) → (method secret : String) →
    PepperOprf → PepperKey → Except CkvfError (UnlockSlot W)
  generateRecoveryCode : Seed → String

/-- The calls on password slots; `A` has the parameters of the key derivation. -/
structure PasswordOps (H B W A : Type) where
  /-- The id that a device slot gets when none is given. -/
  slotId : Seed → String
  addUnlockSlot : Seed → UnlockedVault H B W → (password : String) → (kdf : A) →
    Except CkvfError (UnlockedVault H B W)
  openVault : VaultContainer H B W → (password : String) → Except CkvfError (UnlockedVault H B W)

/-- The id of a key as a client computes it when the key is there already. -/
def KeyOps.canonicalKeyId (K : KeyOps H B W) (a : KeyImport) : Except CkvfError String := do
  let canonical ←
    if a.encoding = "openpgp-tsk" then K.canonicalOpenpgpPublicKey a.publicKey a.privateKey
    else pure a.publicKey
  let ids ← K.keyIds canonical
  pure ids.1

/-! ## Laws -/

/-- The records with another status in the record `id`, the one that a lookup finds. -/
def withStatus : List KeyRecord → (id status : String) → List KeyRecord
  | [], _, _ => []
  | r :: rs, id, status =>
    if r.absoluteKeyId = id then { r with status := status } :: rs
    else r :: withStatus rs id status

structure ImportLaws (K : KeyOps H B W) (L : Ckvf H B W) : Prop where
  imported : ∀ {seed v a v'}, K.importPrivateKey seed v a = .ok v' →
    ∃ r, K.canonicalKeyId a = .ok r.absoluteKeyId ∧ r.status = "active" ∧
      v'.payload.keys = v.payload.keys ++ [r]
  /-- The import is refused with this code for a key that is there, and for no other. -/
  present : ∀ {seed v a}, (∃ e, K.importPrivateKey seed v a = .error e ∧ e.code = "ERR_KEY_ID") ↔
    ∃ id, K.canonicalKeyId a = .ok id ∧ id ∈ keyIds v.payload
  found : ∀ {v id}, K.getKey v id = v.payload.keys.find? (·.absoluteKeyId = id)
  retired : ∀ {seed v id v'}, K.retireKey seed v id = .ok v' →
    v'.payload = { v.payload with keys := withStatus v.payload.keys id "retired" }
  revoked : ∀ {seed v id v'}, K.revokeKey seed v id = .ok v' →
    v'.payload = { v.payload with keys := withStatus v.payload.keys id "revoked" }
  updated : ∀ {seed v exts v'}, L.updateExtensions seed v exts = .ok v' →
    v'.payload = { v.payload with extensions := exts }

/-- `p` with another time of its last change, as the edits of slots leave a payload. -/
def Touched (p p' : VaultPayload) : Prop := p' = { p with metadata := p'.metadata }

/-- The edits of slots seal the payload they are given, and an opened container has its contents. A
key that only one side of a merge has is taken over with its record. -/
structure ExportLaws {A : Type} (L : Ckvf H B W) (P : PasswordOps H B W A)
    (S : Seal H B W) : Prop where
  rotated : ∀ {seed v slots v'}, L.rotateVek seed v slots = .ok v' → Touched v.payload v'.payload
  added : ∀ {seed v password kdf v'}, S.Valid v.container →
    P.addUnlockSlot seed v password kdf = .ok v' → S.Next v v' ∧ Touched v.payload v'.payload
  removedSlot : ∀ {seed v slotId v'}, L.removeUnlockSlot seed v slotId = .ok v' →
    Touched v.payload v'.payload
  opened : ∀ {c password v}, P.openVault c password = .ok v → v.container = c ∧ S.Sealed v
  merged : ∀ {seed head loc base m}, L.mergeOnto seed head loc base = .ok m →
    ∀ r ∈ loc.payload.keys, r.absoluteKeyId ∉ keyIds head.payload → r ∈ m.payload.keys

end Ckvf
