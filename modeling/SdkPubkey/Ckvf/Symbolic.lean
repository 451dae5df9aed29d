import SdkPubkey.Ckvf.Keys
import Mathlib.Data.List.Basic

/-!
# A symbolic ckvf package

Perfect cryptography as data: a generation hash (`Digest`) is the content it was made from, a sealed
payload carries the key that opens it, and a signature names its key. `symbolic` is the package over
these types, and it computes, so runs of the clients over it can be evaluated. It meets every law
the development assumes; `symbolicKeys` are the operations on keys.
-/

namespace Ckvf.Symbolic

inductive Wrap where
  | device (kek vek : Bytes)
  | hpke (publicKey vek : Bytes)
deriving DecidableEq

/-- A sealed payload. `removed` is what the merge knows of the slots removed before. -/
structure Body where
  vek : Bytes
  payload : VaultPayload
  iv : Seed
  removed : List String
deriving DecidableEq

structure Content where
  vaultId : String
  generation : Nat
  slots : List (UnlockSlot Wrap)
  body : Body
deriving DecidableEq

inductive Digest where
  | first (c : Content)
  | next (previous : Digest) (c : Content)
deriving DecidableEq

abbrev Container := VaultContainer Digest Body Wrap
abbrev Vault := UnlockedVault Digest Body Wrap

def digest (previous : Option Digest) (c : Content) : Digest :=
  match previous with
  | none => .first c
  | some p => .next p c

def contentOf (c : Container) : Content := ⟨c.vaultId, c.generation, c.unlockSlots, c.body⟩

def mkContainer (vaultId : String) (generation : Nat) (previous : Option Digest)
    (slots : List (UnlockSlot Wrap)) (body : Body) : Container :=
  ⟨vaultId, generation, previous, digest previous ⟨vaultId, generation, slots, body⟩, slots, body⟩

def valid (c : Container) : Prop :=
  c.generationHash = digest c.previousGenerationHash (contentOf c)

instance (c : Container) : Decidable (valid c) := inferInstanceAs (Decidable (_ = _))

def sealing : Seal Digest Body Wrap := ⟨valid, fun c => c.body.payload⟩

def openAs (c : Container) : Vault := ⟨c, c.body.payload, c.body.vek⟩

/-! ## Bytes and texts -/

/-- Each byte as one character. -/
def encode (b : Bytes) : String := String.ofList (b.map fun x => Char.ofNat x.toNat)

def decode (s : String) : Except CkvfError Bytes :=
  if s.toList.all (·.toNat < 256) then .ok (s.toList.map fun c => UInt8.ofNat c.toNat)
  else .error ⟨"ERR_BASE64URL", none⟩

theorem toNat_ofNat_lt {n : Nat} (h : n < 256) : (Char.ofNat n).toNat = n := by
  have hv : n.isValidChar := .inl (by omega)
  unfold Char.ofNat
  rw [dif_pos hv]
  rfl

theorem decode_encode (b : Bytes) : decode (encode b) = .ok b := by
  have hc : ∀ x : UInt8, (Char.ofNat x.toNat).toNat = x.toNat := fun x => toNat_ofNat_lt x.toNat_lt
  unfold decode encode
  rw [String.toList_ofList, if_pos]
  · rw [List.map_map]
    congr 1
    conv_rhs => rw [← List.map_id b]
    apply List.map_congr_left
    intro x _
    simp [hc]
  · rw [List.all_eq_true]
    intro c hm
    obtain ⟨x, -, rfl⟩ := List.mem_map.1 hm
    rw [hc]
    simpa using x.toNat_lt

def decodeLength (s : String) (length : Option Nat) : Except CkvfError Bytes :=
  match decode s with
  | .error e => .error e
  | .ok b => if length = none ∨ length = some b.length then .ok b else .error ⟨"ERR_LENGTH", none⟩

/-- The 32 bytes that a seed and a tag give. -/
def bytesOf (tag seed : Nat) : Bytes :=
  UInt8.ofNat tag :: UInt8.ofNat seed :: List.replicate 30 0

/-- A signature by the key with the public key `publicKey`. -/
def signatureOf (publicKey : Bytes) : Bytes := publicKey ++ publicKey

/-! ## Slots -/

def slotIds (slots : List (UnlockSlot Wrap)) : List String := slots.map (·.slotId)

/-- The ids of the slots that were removed and are not there again. -/
def gone (c : Container) : List String := c.body.removed.filter (· ∉ slotIds c.unlockSlots)

def nextContainer (seed : Seed) (v : Vault) (vek : Bytes) (slots : List (UnlockSlot Wrap))
    (payload : VaultPayload) : Container :=
  mkContainer v.container.vaultId (v.container.generation + 1) (some v.container.generationHash)
    slots ⟨vek, payload, seed, v.container.body.removed ++ slotIds v.container.unlockSlots⟩

/-! ## The operations -/

def edKey (tag seed : Nat) : MskKey :=
  ⟨"ed25519", encode (bytesOf tag seed), .str (encode (bytesOf tag seed))⟩

def createVault (seed : Seed) (o : CreateVaultOptions Wrap) : Except CkvfError Vault := do
  let vek := bytesOf 1 seed
  let key : MskKey := match o.mskSeed with
    | some s => ⟨"ed25519", encode s, .str (encode s)⟩
    | none => edKey 2 seed
  let slots ← o.slots "vault" vek
  pure (openAs (mkContainer "vault" 1 none slots
    ⟨vek, ⟨⟨o.identityValue, .str o.identityType⟩, ⟨key, []⟩, [], [], .str o.now, [],
      o.extensions, []⟩, seed, []⟩))

def openVaultWithDeviceKek (c : Container) (slotId : String) (kek : Bytes) :
    Except CkvfError Vault :=
  match c.unlockSlots.find? (·.slotId = slotId) with
  | none => .error ⟨"ERR_SLOT_ID", none⟩
  | some slot =>
    if slot.wrap = .device kek c.body.vek ∧ valid c then .ok (openAs c)
    else .error ⟨"ERR_WRAP_DECRYPT", none⟩

def commitUnlockSlots (seed : Seed) (v : Vault) (slots : List (UnlockSlot Wrap)) :
    Except CkvfError Vault :=
  .ok (openAs (nextContainer seed v v.vek slots v.payload))

def removeUnlockSlot (seed : Seed) (v : Vault) (slotId : String) : Except CkvfError Vault :=
  .ok (openAs (nextContainer seed v v.vek
    (v.container.unlockSlots.filter (·.slotId ≠ slotId)) v.payload))

def updateExtensions (seed : Seed) (v : Vault) (exts : List Extension) : Except CkvfError Vault :=
  .ok (openAs (nextContainer seed v v.vek v.container.unlockSlots
    { v.payload with extensions := exts }))

def rotateVek (seed : Seed) (v : Vault)
    (slots : String → Bytes → Except CkvfError (List (UnlockSlot Wrap))) :
    Except CkvfError Vault := do
  let vek := bytesOf 3 seed
  let slots ← slots v.container.vaultId vek
  pure (openAs (nextContainer seed v vek slots v.payload))

/-- A fresh key; the seed of its secret is another one where the first would repeat the old key. -/
def replaceMsk (seed : Seed) (v : Vault) : Except CkvfError Vault :=
  let key := if (edKey 4 seed).publicKey = v.payload.msk.current.publicKey then edKey 5 seed
    else edKey 4 seed
  .ok (openAs (nextContainer seed v v.vek v.container.unlockSlots
    { v.payload with msk := ⟨key, v.payload.msk.current.publicKey :: v.payload.msk.history⟩ }))

def replaceMskHybrid (seed : Seed) (v : Vault) (publicKey mldsaSeed edSeed : Bytes) :
    Except CkvfError Vault :=
  let key : MskKey := ⟨"mldsa65-ed25519", encode publicKey,
    .obj [("mldsa65_seed", .str (encode mldsaSeed)), ("ed25519_seed", .str (encode edSeed))]⟩
  .ok (openAs (nextContainer seed v v.vek v.container.unlockSlots
    { v.payload with msk := ⟨key, v.payload.msk.current.publicKey :: v.payload.msk.history⟩ }))

def rechain (seed : Seed) (v : Vault) (generation : Int) (previous : Option Digest) :
    Except CkvfError Vault :=
  if 0 < generation then
    .ok (openAs (mkContainer v.container.vaultId generation.toNat previous v.container.unlockSlots
      ⟨v.vek, v.payload, seed, v.container.body.removed⟩))
  else .error ⟨"ERR_GENERATION", none⟩

/-- The records of both; `loc`'s where both have one, for its changes are the later ones. -/
def mergeKeys (head loc : VaultPayload) : List KeyRecord :=
  head.keys.filter (fun k => k.absoluteKeyId ∉ keyIds loc) ++ loc.keys

/-- The extensions of `head`, and those of `loc` under the other ids. -/
def mergeExtensions (head loc : VaultPayload) : List Extension :=
  head.extensions ++ loc.extensions.filter fun e => e.id ∉ head.extensions.map (·.id)

/-- The MSK that replaced the other's. -/
def mergeMsk (head loc : VaultPayload) : Msk :=
  if head.msk.current.publicKey ∈ loc.msk.history then loc.msk else head.msk

def mergeSlots (head loc : Container) : List (UnlockSlot Wrap) :=
  head.unlockSlots.filter (·.slotId ∉ gone loc) ++
    loc.unlockSlots.filter fun s => s.slotId ∉ slotIds head.unlockSlots ∧ s.slotId ∉ gone head

def mergeOnto (seed : Seed) (head loc : Vault) (_base : Option Vault) : Except CkvfError Vault :=
  if head.container.vaultId = loc.container.vaultId then
    .ok (openAs (mkContainer head.container.vaultId (head.container.generation + 1)
      (some head.container.generationHash) (mergeSlots head.container loc.container)
      ⟨head.vek, { head.payload with
        keys := mergeKeys head.payload loc.payload
        extensions := mergeExtensions head.payload loc.payload
        msk := mergeMsk head.payload loc.payload }, seed,
        head.container.body.removed ++ loc.container.body.removed⟩))
  else .error ⟨"ERR_VAULT_ID", none⟩

end Ckvf.Symbolic

open Ckvf Ckvf.Symbolic

/-- The symbolic package. -/
def symbolic : Ckvf Digest Body Wrap where
  createVault := createVault
  openVaultWithDeviceKek := openVaultWithDeviceKek
  serializeContainer c := .ok c
  wrapDeviceSlot _ _ vek kek slotId _ := .ok ⟨slotId, "device", .device kek vek⟩
  wrapDeviceHpkeSlot _ _ vek publicKey slotId :=
    .ok ⟨slotId, "device-hpke-x25519", .hpke publicKey vek⟩
  commitUnlockSlots := commitUnlockSlots
  removeUnlockSlot := removeUnlockSlot
  updateExtensions := updateExtensions
  rotateVek := rotateVek
  replaceMsk := replaceMsk
  replaceMskHybrid := replaceMskHybrid
  rechain := rechain
  mergeOnto := mergeOnto
  base64urlEncode := encode
  base64urlDecode := decode
  base64urlToBytes := decodeLength
  ed25519Verify publicKey _ signature := signature = signatureOf publicKey
  mldsaVerify publicKey _ signature := signature = signatureOf publicKey
  hashText _ := "hash"

namespace Ckvf.Symbolic

/-! ## The laws -/

theorem valid_mkContainer (vaultId : String) (generation : Nat) (previous : Option Digest)
    (slots : List (UnlockSlot Wrap)) (body : Body) :
    valid (mkContainer vaultId generation previous slots body) := rfl

theorem valid_inj {c c' : Container} (h : valid c) (h' : valid c')
    (he : c.generationHash = c'.generationHash) : c = c' := by
  rw [h, h'] at he
  obtain ⟨vid, gen, prev, hash, slots, body⟩ := c
  obtain ⟨vid', gen', prev', hash', slots', body'⟩ := c'
  simp only [valid, contentOf] at h h'
  cases prev <;> cases prev' <;> simp_all [digest, contentOf]

theorem sealed_openAs {c : Container} (h : valid c) : sealing.Sealed (openAs c) := ⟨h, rfl⟩

theorem next_of {v v' : Vault} {seed : Seed} {vek : Bytes} {slots : List (UnlockSlot Wrap)}
    {payload : VaultPayload} (h : v' = openAs (nextContainer seed v vek slots payload)) :
    sealing.Next v v' := by
  subst h
  exact ⟨sealed_openAs (valid_mkContainer ..), rfl, rfl, rfl⟩

theorem rotated_eq {seed : Seed} {v v' : Vault}
    {slots : String → Bytes → Except CkvfError (List (UnlockSlot Wrap))}
    (h : symbolic.rotateVek seed v slots = .ok v') :
    ∃ new, slots v.container.vaultId (bytesOf 3 seed) = .ok new ∧
      v' = openAs (nextContainer seed v (bytesOf 3 seed) new v.payload) := by
  simp only [symbolic, rotateVek] at h
  cases hs : slots v.container.vaultId (bytesOf 3 seed) with
  | error e => rw [hs] at h; cases h
  | ok new =>
    rw [hs] at h
    cases h
    exact ⟨new, rfl, rfl⟩

/-- An edit seals a next generation, and keeps the key records. -/
theorem edit_eq {v v' : Vault} (h : Edit symbolic v v') :
    ∃ seed vek slots payload, payload.keys = v.payload.keys ∧
      v' = openAs (nextContainer seed v vek slots payload) := by
  cases h with
  | vek seed slots h =>
    obtain ⟨new, -, rfl⟩ := rotated_eq h
    exact ⟨_, _, _, _, rfl, rfl⟩
  | slots seed slots h | removeSlot seed slotId h | extensions seed exts h | msk seed h
  | hybrid seed pk ms es h =>
    cases h
    refine ⟨_, _, _, _, ?_, rfl⟩
    rfl

theorem merged_eq {seed : Seed} {head loc m : Vault} {base : Option Vault}
    (h : symbolic.mergeOnto seed head loc base = .ok m) :
    head.container.vaultId = loc.container.vaultId ∧
      m = openAs (mkContainer head.container.vaultId (head.container.generation + 1)
        (some head.container.generationHash) (mergeSlots head.container loc.container)
        ⟨head.vek, { head.payload with
          keys := mergeKeys head.payload loc.payload
          extensions := mergeExtensions head.payload loc.payload
          msk := mergeMsk head.payload loc.payload }, seed,
          head.container.body.removed ++ loc.container.body.removed⟩) := by
  simp only [symbolic, mergeOnto] at h
  split at h
  · rename_i hv
    exact ⟨hv, by cases h; rfl⟩
  · cases h

theorem rechained_eq {seed : Seed} {v v' : Vault} {generation : Int} {previous : Option Digest}
    (h : symbolic.rechain seed v generation previous = .ok v') :
    0 < generation ∧ v' = openAs (mkContainer v.container.vaultId generation.toNat previous
      v.container.unlockSlots ⟨v.vek, v.payload, seed, v.container.body.removed⟩) := by
  simp only [symbolic, rechain] at h
  split at h
  · rename_i hg
    exact ⟨hg, by cases h; rfl⟩
  · cases h

theorem opened_eq {c : Container} {slotId : String} {kek : Bytes} {v : Vault}
    (h : symbolic.openVaultWithDeviceKek c slotId kek = .ok v) : valid c ∧ v = openAs c := by
  simp only [symbolic, openVaultWithDeviceKek] at h
  split at h
  · cases h
  · split at h
    · rename_i hs
      exact ⟨hs.2, by cases h; rfl⟩
    · cases h

theorem created_eq {seed : Seed} {o : CreateVaultOptions Wrap} {v : Vault}
    (h : symbolic.createVault seed o = .ok v) :
    ∃ slots body, v = openAs (mkContainer "vault" 1 none slots body) := by
  simp only [symbolic, createVault] at h
  cases hs : o.slots "vault" (bytesOf 1 seed) with
  | error e => rw [hs] at h; cases h
  | ok slots =>
    rw [hs] at h
    cases h
    exact ⟨_, _, rfl⟩

theorem sealing_laws : Sealing symbolic sealing where
  hash_inj := valid_inj
  serialized _ := rfl
  opened h := by
    obtain ⟨hv, rfl⟩ := opened_eq h
    exact ⟨rfl, sealed_openAs hv⟩
  created h := by
    obtain ⟨slots, body, rfl⟩ := created_eq h
    exact ⟨sealed_openAs (valid_mkContainer ..), rfl, rfl⟩
  edited _ h := by
    obtain ⟨seed, vek, slots, payload, -, h⟩ := edit_eq h
    exact next_of h
  rechained _ h := by
    obtain ⟨hg, rfl⟩ := rechained_eq h
    exact ⟨sealed_openAs (valid_mkContainer ..), rfl, Int.toNat_of_nonneg (Int.le_of_lt hg), rfl⟩
  merged _ _ h := by
    obtain ⟨hv, rfl⟩ := merged_eq h
    exact ⟨⟨sealed_openAs (valid_mkContainer ..), rfl, rfl, rfl⟩, hv⟩

theorem enrol_laws : EnrolLaws symbolic sealing where
  wrapped h := by
    cases h
    rfl
  committed h := by
    cases h
    exact ⟨rfl, rfl, rfl⟩
  rechains _ hg := ⟨_, if_pos hg⟩
  rechained h := by
    obtain ⟨-, rfl⟩ := rechained_eq h
    exact ⟨rfl, rfl⟩

theorem key_laws : KeyLaws symbolic where
  edited h := by
    obtain ⟨seed, vek, slots, payload, hk, rfl⟩ := edit_eq h
    intro k hm
    simpa [openAs, nextContainer, mkContainer, keyIds, hk] using hm
  rechained h := by
    obtain ⟨-, rfl⟩ := rechained_eq h
    rfl
  merged {seed head loc base m} h := by
    obtain ⟨-, rfl⟩ := merged_eq h
    refine ⟨fun k hk => ?_, fun k hk => ?_⟩
    · by_cases hl : k ∈ keyIds loc.payload
      · simp only [keyIds, List.mem_map] at hl
        simpa [openAs, mkContainer, keyIds, mergeKeys] using .inr hl
      · obtain ⟨r, hr, rfl⟩ := List.mem_map.1 hk
        simp only [openAs, mkContainer, keyIds, mergeKeys, List.map_append, List.mem_append]
        exact .inl (List.mem_map.2 ⟨r, List.mem_filter.2 ⟨hr, decide_eq_true hl⟩, rfl⟩)
    · simp only [openAs, mkContainer, keyIds, mergeKeys, List.map_append, List.mem_append]
      exact .inr hk

theorem extension_laws : ExtensionLaws symbolic where
  merged {seed head loc base m} h id he := by
    obtain ⟨-, rfl⟩ := merged_eq h
    simp only [extensionsOf, openAs, mkContainer, mergeExtensions, List.filter_append] at he ⊢
    suffices hn : (loc.payload.extensions.filter fun e =>
        e.id ∉ head.payload.extensions.map (·.id)).filter (·.id = id) = [] by
      rw [hn, List.append_nil]
    -- under `id` the other side has only what `head` has
    rw [List.filter_eq_nil_iff]
    intro e hm hid
    obtain ⟨hm, hn⟩ := List.mem_filter.1 hm
    have hh : e ∈ head.payload.extensions.filter (·.id = id) := by
      rw [he]
      exact List.mem_filter.2 ⟨hm, hid⟩
    exact absurd (List.mem_map.2 ⟨e, (List.mem_filter.1 hh).1, rfl⟩) (by simpa using hn)
  updated h := by cases h; rfl
  removedSlot h := by cases h; rfl
  rotated h := by
    obtain ⟨new, -, rfl⟩ := rotated_eq h
    rfl
  replacedMsk h := by cases h; rfl

theorem encode_bytesOf_ne (seed : Nat) :
    (edKey 5 seed).publicKey ≠ (edKey 4 seed).publicKey := by
  intro h
  have h := congrArg String.toList h
  simp only [edKey, encode, bytesOf, String.toList_ofList, List.map_cons, List.cons.injEq] at h
  exact absurd h.1 (by decide)

theorem msk_laws : MskLaws symbolic where
  slots h := by cases h; rfl
  rechained h := by
    obtain ⟨-, rfl⟩ := rechained_eq h
    rfl
  merged {seed head loc base m} h := by
    obtain ⟨-, rfl⟩ := merged_eq h
    simp only [mskOf, openAs, mkContainer, mergeMsk]
    split
    · exact .inr rfl
    · exact .inl rfl
  updated h := by cases h; rfl
  rotated h := by
    obtain ⟨new, -, rfl⟩ := rotated_eq h
    rfl
  replaced {seed v v'} h := by
    cases h
    simp only [mskOf, openAs, nextContainer, mkContainer]
    split
    · rename_i he
      rw [← he]
      exact encode_bytesOf_ne seed
    · assumption

/-! ## Keys -/

def importPrivateKey (seed : Seed) (v : Vault) (a : KeyImport) : Except CkvfError Vault :=
  if encode a.publicKey ∈ keyIds v.payload then .error ⟨"ERR_KEY_ID", none⟩
  else .ok (openAs (nextContainer seed v v.vek v.container.unlockSlots
    { v.payload with keys := v.payload.keys ++ [⟨encode a.publicKey, "active", .null⟩] }))

def findKey (v : Vault) (id : String) : Option KeyRecord :=
  v.payload.keys.find? (·.absoluteKeyId = id)

/-- The record `id` with another status. -/
def changeStatus (status : String) (seed : Seed) (v : Vault) (id : String) :
    Except CkvfError Vault :=
  if (findKey v id).isSome then
    .ok (openAs (nextContainer seed v v.vek v.container.unlockSlots
      { v.payload with keys := withStatus v.payload.keys id status }))
  else .error ⟨"ERR_KEY_NOT_FOUND", none⟩

def setPreferredKey (seed : Seed) (v : Vault) (family purpose : String) (id : Option String) :
    Except CkvfError Vault :=
  let old := ((v.payload.preferredKeys.find? (·.1 = family)).map (·.2)).getD []
  let purposes := old.filter (·.1 ≠ purpose) ++ id.toList.map fun id => (purpose, id)
  let others := v.payload.preferredKeys.filter (·.1 ≠ family)
  .ok (openAs (nextContainer seed v v.vek v.container.unlockSlots
    { v.payload with preferredKeys := others ++ [(family, purposes)] }))

def wrapPepperSlot (seed : Seed) (vaultId : String) (vek : Bytes) (method secret : String)
    (pepper : PepperOprf) (key : PepperKey) : Except CkvfError (UnlockSlot Wrap) := do
  let slotId := encode (bytesOf 6 seed)
  let rwd ← pepper vaultId slotId key.kid key.publicKey secret.toUTF8.toList
  pure ⟨slotId, method, .device rwd vek⟩

/-- The symbolic key operations; the id of a key is its public key. -/
def symbolicKeys : KeyOps Digest Body Wrap where
  importPrivateKey := importPrivateKey
  canonicalOpenpgpPublicKey publicKey _ := .ok publicKey
  keyIds publicKey := .ok (encode publicKey, encode publicKey)
  getKey := findKey
  retireKey := changeStatus "retired"
  revokeKey := changeStatus "revoked"
  deletePrivateKey seed v id _ := changeStatus "destroyed" seed v id
  setPreferredKey := setPreferredKey
  wrapPepperSlot := wrapPepperSlot
  generateRecoveryCode seed := encode (bytesOf 7 seed)

theorem canonicalKeyId_symbolic (a : KeyImport) :
    symbolicKeys.canonicalKeyId a = .ok (encode a.publicKey) := by
  unfold KeyOps.canonicalKeyId
  split
  · rfl
  · rfl

theorem changeStatus_ok {status : String} {seed : Seed} {v v' : Vault} {id : String}
    (h : changeStatus status seed v id = .ok v') :
    v'.payload = { v.payload with keys := withStatus v.payload.keys id status } := by
  unfold changeStatus at h
  split at h
  · cases h
    rfl
  · cases h

theorem import_laws : ImportLaws symbolicKeys symbolic where
  imported {seed v a v'} h := by
    simp only [symbolicKeys, importPrivateKey] at h
    split at h
    · cases h
    · cases h
      exact ⟨⟨encode a.publicKey, "active", .null⟩, canonicalKeyId_symbolic a, rfl, rfl⟩
  present {seed v a} := by
    rw [canonicalKeyId_symbolic]
    simp only [symbolicKeys, importPrivateKey]
    constructor
    · intro ⟨e, he, hc⟩
      split at he
      · rename_i hm
        exact ⟨_, rfl, hm⟩
      · cases he
    · intro ⟨id, hid, hm⟩
      cases hid
      exact ⟨_, if_pos hm, rfl⟩
  found := rfl
  retired := changeStatus_ok
  revoked := changeStatus_ok
  updated h := by
    cases h
    rfl

/-! ## Passwords -/

def passwordSlot (password : String) (vek : Bytes) : UnlockSlot Wrap :=
  ⟨"password", "password-argon2id", .device password.toUTF8.toList vek⟩

def addUnlockSlot (seed : Seed) (v : Vault) (password : String) : Except CkvfError Vault :=
  .ok (openAs (nextContainer seed v v.vek
    (v.container.unlockSlots ++ [passwordSlot password v.vek]) v.payload))

def openWithPassword (c : Container) (password : String) : Except CkvfError Vault :=
  if passwordSlot password c.body.vek ∈ c.unlockSlots ∧ valid c then .ok (openAs c)
  else .error ⟨"ERR_WRAP_DECRYPT", none⟩

def symbolicPasswords : PasswordOps Digest Body Wrap Unit where
  slotId seed := encode (bytesOf 8 seed)
  addUnlockSlot seed v password _ := addUnlockSlot seed v password
  openVault := openWithPassword

theorem export_laws : ExportLaws symbolic symbolicPasswords sealing where
  rotated h := by
    obtain ⟨new, -, rfl⟩ := rotated_eq h
    rfl
  added _ h := by
    cases h
    exact ⟨next_of rfl, rfl⟩
  removedSlot h := by
    cases h
    rfl
  opened {c password v} h := by
    simp only [symbolicPasswords, openWithPassword] at h
    split at h
    · rename_i hs
      cases h
      exact ⟨rfl, sealed_openAs hs.2⟩
    · cases h
  merged {seed head loc base m} h r hr _ := by
    obtain ⟨-, rfl⟩ := merged_eq h
    exact List.mem_append_right _ hr

/-! ## Slots of one id

A slot id drawn twice makes two slots of one id, and `openVaultWithDeviceKek` tries the first
only. -/

def openAnySlot (c : Container) (slotId : String) (kek : Bytes) : Except CkvfError Vault :=
  if (∃ slot ∈ c.unlockSlots, slot.slotId = slotId ∧ slot.wrap = .device kek c.body.vek) ∧
      valid c then
    .ok (openAs c)
  else .error ⟨"ERR_SLOT_ID", none⟩

/-- The symbolic package, which tries every slot of the id. -/
def anySlot : Ckvf Digest Body Wrap := { symbolic with openVaultWithDeviceKek := openAnySlot }

theorem openedAny_eq {c : Container} {slotId : String} {kek : Bytes} {v : Vault}
    (h : anySlot.openVaultWithDeviceKek c slotId kek = .ok v) :
    (∃ slot ∈ c.unlockSlots, slot.slotId = slotId ∧ slot.wrap = .device kek c.body.vek) ∧ valid c ∧
      v = openAs c := by
  simp only [anySlot, openAnySlot] at h
  split at h
  · rename_i hs
    cases h
    exact ⟨hs.1, hs.2, rfl⟩
  · cases h

theorem openAny_ok {c : Container} {slotId : String} {kek : Bytes} {slot : UnlockSlot Wrap}
    (hc : valid c) (hm : slot ∈ c.unlockSlots) (hid : slot.slotId = slotId)
    (hw : slot.wrap = .device kek c.body.vek) :
    anySlot.openVaultWithDeviceKek c slotId kek = .ok (openAs c) :=
  if_pos ⟨⟨slot, hm, hid, hw⟩, hc⟩

theorem deviceSlot_eq {vaultId slotId : String} {vek kek : Bytes} {slot : UnlockSlot Wrap}
    (h : DeviceSlot anySlot vaultId vek kek slotId slot) : slot =
    ⟨slotId, "device", .device kek vek⟩ := by
  obtain ⟨seed, now, h⟩ := h
  cases h
  rfl

/-- A slot id that both sides have is in no list of removed ones. -/
theorem mem_mergeSlots {head loc : Container} {slot : UnlockSlot Wrap}
    (hm : slot ∈ head.unlockSlots)
    (hl : slot.slotId ∈ slotIds loc.unlockSlots) : slot ∈ mergeSlots head loc := by
  apply List.mem_append_left
  apply List.mem_filter.2
  refine ⟨hm, ?_⟩
  simp [gone, hl]

theorem slot_laws : SlotLaws anySlot where
  opened h := by
    obtain ⟨-, -, rfl⟩ := openedAny_eq h
    exact ⟨rfl, rfl⟩
  created {seed o v slotId kek} hs h := by
    have h : createVault seed o = .ok v := h
    simp only [createVault] at h
    cases ho : o.slots "vault" (bytesOf 1 seed) with
    | error e =>
      rw [ho] at h
      cases h
    | ok slots =>
      rw [ho] at h
      cases h
      obtain ⟨slot, hm, hd⟩ := hs ho
      have he := deviceSlot_eq hd
      subst he
      exact openAny_ok (valid_mkContainer ..) hm rfl rfl
  added hm hd h := by
    cases h
    have he := deviceSlot_eq hd
    subst he
    exact openAny_ok (valid_mkContainer ..) hm rfl rfl
  rechained {seed v generation previous v' slotId kek} ho h := by
    obtain ⟨⟨slot, hm, hid, hw⟩, -, hv⟩ := openedAny_eq ho
    obtain ⟨-, rfl⟩ := rechained_eq h
    have hvek : v.vek = v.container.body.vek := by rw [hv]; rfl
    refine openAny_ok (valid_mkContainer ..) hm hid ?_
    rw [hw, ← hvek]
    rfl
  merged {seed head loc p p' base m slotId kek} hh hl h := by
    obtain ⟨⟨slot, hm, hid, hw⟩, -, hv⟩ := openedAny_eq hh
    obtain ⟨⟨slot', hm', hid', -⟩, -, -⟩ := openedAny_eq hl
    have h : symbolic.mergeOnto seed _ _ base = .ok m := h
    obtain ⟨-, rfl⟩ := merged_eq h
    have hvek : head.vek = head.container.body.vek := by rw [hv]; rfl
    have hin : slot ∈ mergeSlots head.container loc.container := by
      apply mem_mergeSlots hm
      rw [hid, ← hid']
      exact List.mem_map_of_mem hm'
    refine openAny_ok (valid_mkContainer ..) hin hid ?_
    rw [hw, ← hvek]
    rfl

end Ckvf.Symbolic
