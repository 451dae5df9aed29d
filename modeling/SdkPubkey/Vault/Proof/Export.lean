import SdkPubkey.Vault.Alone
import SdkPubkey.Vault.Export
import SdkPubkey.Vault.Merge
import SdkPubkey.Vault.Proof.DartExec

/-!
# What an export tells

An export of some keys depends on the selected keys, their metadata and preferences, and on which
shards the vault has: a shard of other keys stays in it as an empty object (`partial_export_iff`). A
selected key is in the export with its metadata, and an import restores it (`Restores`).
-/

namespace Vault.Dart

open Ckvf Lib

/-! ## Entries of maps -/

section
variable {α β : Type}

theorem lookup_mem {l : List (String × α)} {k : String} {a : α} (h : l.lookup k = some a) :
    (k, a) ∈ l := by
  induction l with
  | nil => cases h
  | cons x l ih =>
    obtain ⟨k', a'⟩ := x
    rw [List.lookup_cons] at h
    by_cases hk : k == k'
    · rw [hk] at h
      cases h
      rw [eq_of_beq hk]
      exact List.mem_cons_self
    · rw [Bool.not_eq_true] at hk
      rw [hk] at h
      exact List.mem_cons_of_mem _ (ih h)

/-- Where each key is there once, an entry is what a lookup finds. -/
theorem lookup_of_mem {l : List (String × α)} (hl : (l.map (·.1)).Nodup) {k : String} {a : α}
    (h : (k, a) ∈ l) : l.lookup k = some a := by
  induction l with
  | nil => cases h
  | cons x l ih =>
    rw [List.map_cons, List.nodup_cons] at hl
    rcases List.mem_cons.1 h with rfl | hm
    · simp
    · have hne : k ≠ x.1 := by
        rintro rfl
        exact hl.1 (List.mem_map.2 ⟨_, hm, rfl⟩)
      obtain ⟨k', a'⟩ := x
      rw [List.lookup_cons, beq_false_of_ne hne]
      exact ih hl.2 hm

theorem nodup_filter {l : List (String × α)} (hl : (l.map (·.1)).Nodup) (f : String × α → Bool) :
    ((l.filter f).map (·.1)).Nodup :=
  (List.Sublist.map _ List.filter_sublist).nodup hl

theorem lookup_map (l : List (String × α)) (f : α → β) (k : String) :
    (l.map fun x => (x.1, f x.2)).lookup k = (l.lookup k).map f := by
  induction l with
  | nil => rfl
  | cons x l ih =>
    obtain ⟨k', a⟩ := x
    rw [List.map_cons, List.lookup_cons, List.lookup_cons]
    cases k == k' with
    | true => rfl
    | false => exact ih

/-- Lists of entries with the same keys in the same order, entry by entry. -/
theorem forall₂_of_keys {R : String × α → String × α → Prop} :
    ∀ {l l' : List (String × α)}, l.map (·.1) = l'.map (·.1) →
      (∀ k a b, (k, a) ∈ l → (k, b) ∈ l' → R (k, a) (k, b)) → List.Forall₂ R l l'
  | [], [], _, _ => .nil
  | [], _ :: _, h, _ => by cases h
  | _ :: _, [], h, _ => by cases h
  | (k, a) :: l, (k', b) :: l', h, hR => by
    rw [List.map_cons, List.map_cons] at h
    obtain ⟨hk, hl⟩ := List.cons.inj h
    have hk : k = k' := hk
    subst hk
    refine .cons (hR k a b List.mem_cons_self List.mem_cons_self) (forall₂_of_keys hl ?_)
    intro k a b ha hb
    exact hR k a b (List.mem_cons_of_mem _ ha) (List.mem_cons_of_mem _ hb)

end

theorem get?_filter (m : Json.Obj) (ids : List String) (k : String) :
    Json.Obj.get? (m.filter fun x => x.1 ∈ ids) k = if k ∈ ids then Json.Obj.get? m k
        else none := by
  induction m with
  | nil => simp
  | cons x m ih =>
    obtain ⟨l, v⟩ := x
    by_cases hl : l ∈ ids
    · rw [List.filter_cons_of_pos (by simpa using hl), Json.Obj.get?_cons, Json.Obj.get?_cons, ih]
      by_cases hk : l = k
      · rw [if_pos hk, if_pos hk, if_pos (hk ▸ hl)]
      · rw [if_neg hk, if_neg hk]
    · rw [List.filter_cons_of_neg (by simpa using hl), ih, Json.Obj.get?_cons]
      by_cases hk : l = k
      · rw [if_neg (hk ▸ hl), if_neg (hk ▸ hl)]
      · rw [if_neg hk]

/-! ## Shards -/

/-- The objects with key metadata in a payload, by the id of their extension. -/
def shards (p : VaultPayload) : List (String × Json.Obj) :=
  p.extensions.filterMap fun e =>
    if startsWith e.id keyMetaExtensionPrefix then e.data.asObject.map fun m => (e.id, m) else none

def shardIds (p : VaultPayload) : List String := (shards p).map (·.1)

theorem exportPayload_extensions (ids : List String) (p : VaultPayload) :
    (exportPayload (some ids) p).extensions =
      (shards p).map fun s => ⟨s.1, false, .obj (s.2.filter fun x => x.1 ∈ ids)⟩ := by
  show p.extensions.filterMap (exportShard ids) = _
  unfold shards
  rw [List.map_filterMap]
  apply List.filterMap_congr
  intro e _
  unfold exportShard
  split
  · rw [Option.map_map]
    rfl
  · rfl

/-- A lookup of key metadata reads the first shard. -/
theorem extensionData_shards (p : VaultPayload) {id : String}
    (hid : startsWith id keyMetaExtensionPrefix = true) :
    extensionData p id = ((shards p).lookup id).getD [] := by
  unfold extensionData shards
  congr 1
  induction p.extensions with
  | nil => rfl
  | cons e l ih =>
    rw [List.findSome?_cons]
    by_cases he : e.id = id
    · rw [if_pos he]
      cases hd : e.data.asObject with
      | none =>
        rw [List.filterMap_cons_none (by rw [hd]; split <;> rfl)]
        exact ih
      | some m =>
        rw [List.filterMap_cons_some (by rw [he, if_pos hid, hd]; rfl), ← he, List.lookup_cons_self]
    · rw [if_neg he]
      dsimp only
      rw [ih, List.filterMap_cons]
      split
      · rfl
      · rename_i x hx
        have hx1 : x.1 = e.id := by
          split at hx
          · obtain ⟨m, -, rfl⟩ := Option.map_eq_some_iff.1 hx
            rfl
          · cases hx
        obtain ⟨k, m⟩ := x
        rw [List.lookup_cons, beq_false_of_ne (fun h : id = k => he (hx1 ▸ h.symm))]

/-- An entry of a shard. -/
theorem entry_shards (p : VaultPayload) {id : String}
    (hid : startsWith id keyMetaExtensionPrefix = true) (key : String) :
    entry p id key = ((shards p).lookup id).bind fun m => Json.Obj.get? m key := by
  unfold entry
  rw [extensionData_shards p hid]
  cases (shards p).lookup id with
  | none => rfl
  | some m => rfl

theorem startsWith_shard {p : VaultPayload} {id : String} (h : id ∈ shardIds p) :
    startsWith id keyMetaExtensionPrefix = true := by
  obtain ⟨x, hx, rfl⟩ := List.mem_map.1 h
  obtain ⟨e, -, he⟩ := List.mem_filterMap.1 hx
  split at he
  · rename_i hid
    obtain ⟨m, -, rfl⟩ := Option.map_eq_some_iff.1 he
    exact hid
  · cases he

/-- The shards of an export: the entries of the selected keys in each. -/
theorem shards_export (ids : List String) (p : VaultPayload) :
    shards (exportPayload (some ids) p) =
      (shards p).map fun s => (s.1, s.2.filter fun x => x.1 ∈ ids) := by
  have hall : ∀ s ∈ shards p, startsWith s.1 keyMetaExtensionPrefix = true := fun s hs =>
    startsWith_shard (List.mem_map.2 ⟨s, hs, rfl⟩)
  rw [shards, exportPayload_extensions]
  generalize shards p = l at hall
  induction l with
  | nil => rfl
  | cons s l ih =>
    have hs := hall s List.mem_cons_self
    rw [List.map_cons, List.map_cons, List.filterMap_cons_some (b := (s.1, _))
      (by rw [if_pos hs]; rfl), ih fun s hm => hall s (List.mem_cons_of_mem _ hm)]

/-- **The metadata of a selected key are in the export.** -/
theorem entry_export {ids : List String} (p : VaultPayload) {id key : String}
    (hid : startsWith id keyMetaExtensionPrefix = true) (hkey : key ∈ ids) :
    entry (exportPayload (some ids) p) id key = entry p id key := by
  rw [entry_shards _ hid, entry_shards _ hid, shards_export, lookup_map]
  cases (shards p).lookup id with
  | none => rfl
  | some m =>
    show Json.Obj.get? (m.filter fun x => x.1 ∈ ids) key = Json.Obj.get? m key
    rw [get?_filter, if_pos hkey]

/-! ## Preferred keys -/

/-- `preferredKey`. -/
def preferredKey (p : VaultPayload) (family purpose : String) : Option String :=
  (p.preferredKeys.lookup family).bind fun m => m.lookup purpose

/-- Where a list stands for a map, it has each key once; and there is one extension for each
shard. -/
structure Maps (p : VaultPayload) : Prop where
  families : (p.preferredKeys.map (·.1)).Nodup
  purposes : ∀ f ∈ p.preferredKeys, (f.2.map (·.1)).Nodup
  shards : (shardIds p).Nodup

theorem preferredKey_iff {p : VaultPayload} (hf : (p.preferredKeys.map (·.1)).Nodup)
    (hu : ∀ f ∈ p.preferredKeys, (f.2.map (·.1)).Nodup) {family purpose id : String} :
    preferredKey p family purpose = some id ↔
      ∃ m, (family, m) ∈ p.preferredKeys ∧ (purpose, id) ∈ m := by
  unfold preferredKey
  constructor
  · intro h
    obtain ⟨m, hm, hid⟩ := Option.bind_eq_some_iff.1 h
    exact ⟨m, lookup_mem hm, lookup_mem hid⟩
  · intro hx
    obtain ⟨m, hm, hid⟩ := hx
    rw [lookup_of_mem hf hm]
    exact lookup_of_mem (hu _ hm) hid

theorem mem_preferred_export {ids : List String} {p : VaultPayload} {family : String}
    {m : List (String × String)} :
    (family, m) ∈ (exportPayload (some ids) p).preferredKeys ↔
      m ≠ [] ∧ ∃ m', (family, m') ∈ p.preferredKeys ∧ m = m'.filter fun x => x.2 ∈ ids := by
  show (family, m) ∈ (p.preferredKeys.map fun f => (f.1, f.2.filter fun x => x.2 ∈ ids)).filter
    (fun f => !f.2.isEmpty) ↔ _
  rw [List.mem_filter, List.mem_map]
  constructor
  · intro h
    obtain ⟨⟨f, hf, he⟩, hne⟩ := h
    cases he
    exact ⟨by simpa using hne, f.2, hf, rfl⟩
  · intro h
    obtain ⟨hne, m', hm', rfl⟩ := h
    exact ⟨⟨(family, m'), hm', rfl⟩, by simpa using hne⟩

theorem preferredKey_export {ids : List String} {p : VaultPayload} (hp : Maps p)
    {family purpose id : String} :
    preferredKey (exportPayload (some ids) p) family purpose = some id ↔
      id ∈ ids ∧ preferredKey p family purpose = some id := by
  have hfam : (p.preferredKeys.map fun f => (f.1, f.2.filter fun x => x.2 ∈ ids)).map (·.1) =
      p.preferredKeys.map (·.1) := by
    rw [List.map_map]
    rfl
  have hf : ((exportPayload (some ids) p).preferredKeys.map (·.1)).Nodup := by
    apply nodup_filter
    rw [hfam]
    exact hp.families
  have hu : ∀ f ∈ (exportPayload (some ids) p).preferredKeys, (f.2.map (·.1)).Nodup := by
    intro f hm
    obtain ⟨family, m⟩ := f
    obtain ⟨-, m', hm', rfl⟩ := mem_preferred_export.1 hm
    exact nodup_filter (hp.purposes _ hm') _
  rw [preferredKey_iff hf hu, preferredKey_iff hp.families hp.purposes]
  constructor
  · intro h
    obtain ⟨m, hm, hid⟩ := h
    obtain ⟨-, m', hm', rfl⟩ := mem_preferred_export.1 hm
    obtain ⟨hid, hsel⟩ := List.mem_filter.1 hid
    exact ⟨by simpa using hsel, m', hm', hid⟩
  · intro h
    obtain ⟨hsel, m', hm', hid⟩ := h
    have hin : (purpose, id) ∈ m'.filter fun x => x.2 ∈ ids :=
      List.mem_filter.2 ⟨hid, by simpa using hsel⟩
    exact ⟨_, mem_preferred_export.2 ⟨List.ne_nil_of_mem hin, m', hm', rfl⟩, hin⟩

/-- A family is in an export when one of its preferred keys is. -/
theorem family_export {ids : List String} {p : VaultPayload} (hp : Maps p) {family : String} :
    (∃ m, (family, m) ∈ (exportPayload (some ids) p).preferredKeys) ↔
      ∃ purpose, ∃ id ∈ ids, preferredKey p family purpose = some id := by
  constructor
  · intro hh
    obtain ⟨m, hm⟩ := hh
    obtain ⟨hne, m', hm', rfl⟩ := mem_preferred_export.1 hm
    obtain ⟨⟨purpose, id⟩, hx⟩ := List.exists_mem_of_ne_nil _ hne
    obtain ⟨hid, hsel⟩ := List.mem_filter.1 hx
    exact ⟨purpose, id, by simpa using hsel,
      (preferredKey_iff hp.families hp.purposes).2 ⟨m', hm', hid⟩⟩
  · intro hh
    obtain ⟨purpose, id, hsel, h⟩ := hh
    have hx := (preferredKey_export hp).2 ⟨hsel, h⟩
    obtain ⟨m, hm, -⟩ := Option.bind_eq_some_iff.1 hx
    exact ⟨m, lookup_mem hm⟩

/-! ## Two vaults -/

/-- Objects with the same entries. -/
def SameExtension (e e' : Extension) : Prop :=
  e.id = e'.id ∧ e.critical = e'.critical ∧ ∃ m m', e.data = .obj m ∧ e'.data = .obj m' ∧
    ∀ k, Json.Obj.get? m k = Json.Obj.get? m' k

/-- The same keys, preferred keys, tombstones and extensions; the order of the entries of a map
means nothing. -/
structure SameContents (p q : VaultPayload) : Prop where
  keys : p.keys = q.keys
  preferred : ∀ family purpose, preferredKey p family purpose = preferredKey q family purpose
  families : ∀ family, (∃ m, (family, m) ∈ p.preferredKeys) ↔ ∃ m, (family, m) ∈ q.preferredKeys
  tombstones : p.tombstones = q.tombstones
  extensions : List.Forall₂ SameExtension p.extensions q.extensions

/-- The two vaults are the same but for keys that are not in `ids`. -/
structure SameSelected (ids : List String) (p q : VaultPayload) : Prop where
  identity : p.identity = q.identity
  msk : p.msk = q.msk
  metadata : p.metadata = q.metadata
  keys : p.keys.filter (fun k => k.absoluteKeyId ∈ ids) = q.keys.filter fun k =>
    k.absoluteKeyId ∈ ids
  preferred : ∀ family purpose, ∀ id ∈ ids,
    preferredKey p family purpose = some id ↔ preferredKey q family purpose = some id
  keyMeta : ∀ shard, startsWith shard keyMetaExtensionPrefix = true → ∀ id ∈ ids,
    entry p shard id = entry q shard id

section
variable {ids : List String} {p q : VaultPayload}

/-- The shards that are in both vaults are exported alike. -/
theorem sameExtensions_export (hp : Maps p) (hq : Maps q) (h : SameSelected ids p q)
    (hids : shardIds p = shardIds q) :
    List.Forall₂ SameExtension (exportPayload (some ids) p).extensions
      (exportPayload (some ids) q).extensions := by
  rw [exportPayload_extensions, exportPayload_extensions, List.forall₂_map_left_iff,
    List.forall₂_map_right_iff]
  refine forall₂_of_keys hids fun id m m' hm hm' => ⟨rfl, rfl, _, _, rfl, rfl, fun k => ?_⟩
  dsimp only
  rw [get?_filter, get?_filter]
  by_cases hk : k ∈ ids
  · have hid := startsWith_shard (List.mem_map.2 ⟨_, hm, rfl⟩)
    have he := h.keyMeta id hid k hk
    rw [entry_shards _ hid, entry_shards _ hid, lookup_of_mem hp.shards hm,
      lookup_of_mem hq.shards hm'] at he
    rw [if_pos hk, if_pos hk]
    exact he
  · rw [if_neg hk, if_neg hk]

theorem shardIds_of_same
    (h : List.Forall₂ SameExtension (exportPayload (some ids) p).extensions
      (exportPayload (some ids) q).extensions) : shardIds p = shardIds q := by
  have hid : ∀ r : VaultPayload,
      (exportPayload (some ids) r).extensions.map (·.id) = shardIds r := by
    intro r
    rw [exportPayload_extensions, List.map_map]
    rfl
  rw [← hid, ← hid]
  generalize (exportPayload (some ids) p).extensions = l at h ⊢
  generalize (exportPayload (some ids) q).extensions = l' at h ⊢
  induction h with
  | nil => rfl
  | cons he _ ih => rw [List.map_cons, List.map_cons, he.1, ih]

/-- **What an export tells beside the selected keys**: which shards there are. -/
theorem sameContents_export (hp : Maps p) (hq : Maps q) (h : SameSelected ids p q) :
    SameContents (exportPayload (some ids) p) (exportPayload (some ids) q) ↔
      shardIds p = shardIds q := by
  constructor
  · intro hs
    exact shardIds_of_same hs.extensions
  · intro hids
    have hpref : ∀ family purpose id,
        preferredKey (exportPayload (some ids) p) family purpose = some id ↔
          preferredKey (exportPayload (some ids) q) family purpose = some id := by
      intro family purpose id
      rw [preferredKey_export hp, preferredKey_export hq]
      constructor
      · intro hh
        obtain ⟨hid, hx⟩ := hh
        exact ⟨hid, (h.preferred family purpose id hid).1 hx⟩
      · intro hh
        obtain ⟨hid, hx⟩ := hh
        exact ⟨hid, (h.preferred family purpose id hid).2 hx⟩
    refine ⟨h.keys, fun family purpose => Option.ext fun id => ?_, fun family => ?_, rfl,
      sameExtensions_export hp hq h hids⟩
    · exact hpref family purpose id
    · rw [family_export hp, family_export hq]
      constructor
      · intro hh
        obtain ⟨purpose, id, hid, hx⟩ := hh
        exact ⟨purpose, id, hid, (h.preferred family purpose id hid).1 hx⟩
      · intro hh
        obtain ⟨purpose, id, hid, hx⟩ := hh
        exact ⟨purpose, id, hid, (h.preferred family purpose id hid).2 hx⟩

end

/-! ## Runs -/

theorem Touched.trans {p q r : VaultPayload} (h : Touched p q) (h' : Touched q r) :
    Touched p r := by
  unfold Touched at h h' ⊢
  rw [h', h]

theorem exportPayload_touched {p p' : VaultPayload} (h : Touched p p')
    (keyIds : Option (List String)) :
    Touched (exportPayload keyIds p) (exportPayload keyIds p') := by
  unfold Touched at h ⊢
  rw [h]
  rfl

section
variable {H B W A γ : Type} {T : Trans H B W γ} {fails : VaultCall H B W → Device H B W × γ → Prop}
  (hT : Answers T fails) {d : Device H B W} {g : γ} {s : Device H B W × γ}
  {tr : List (Event (vaultIface H B W))} {L : Ckvf H B W} {P : PasswordOps H B W A}
  {S : Seal H B W} (hS : Sealing L S) (hX : ExportLaws L P S)
include hT hS hX

/-- What an export seals. -/
theorem exportWithPassword_spec {password : String} {keyIds : Option (List String)} {kdf : A}
    {v : UnlockedVault H B W} {c : VaultContainer H B W} (hv : d.vault = some v)
    (hvalid : S.Valid v.container)
    (h : Progress T (exportWithPassword L P password keyIds kdf) (d, g) tr (.ofExcept (.ok c)) s) :
    S.Valid c ∧ Touched (exportPayload keyIds v.payload) (S.contents c) := by
  unfold exportWithPassword at h
  obtain ⟨tr₁, h⟩ := of_vault hT hv h
  obtain ⟨tempKek, tr₂, h⟩ := of_randomBytes hT h
  obtain ⟨seed₁, tr₃, h⟩ := of_entropy hT h
  obtain ⟨rotated, hrot, h⟩ := of_ckvf h
  have hnext₁ := hS.edited hvalid (.vek _ _ hrot)
  split at h
  · rename_i tempSlot hslot
    obtain ⟨seed₂, tr₄, h⟩ := of_entropy hT h
    obtain ⟨withPassword, hadd, h⟩ := of_ckvf h
    obtain ⟨hnext₂, hadded⟩ := hX.added (by exact hnext₁.isSealed.1) hadd
    obtain ⟨seed₃, tr₅, h⟩ := of_entropy hT h
    obtain ⟨sealed, hrem, h⟩ := of_ckvf h
    have hnext₃ := hS.edited hnext₂.isSealed.1 (.removeSlot _ _ hrem)
    obtain ⟨hvalid₃, hpayload⟩ := hnext₃.isSealed
    rw [hS.serialized hvalid₃] at h
    obtain ⟨hc, -⟩ := Progress.of_ret h
    cases hc
    refine ⟨hvalid₃, ?_⟩
    have hkept := Touched.trans hadded (hX.removedSlot hrem)
    rw [hpayload] at hkept
    exact Touched.trans (exportPayload_touched (hX.rotated hrot) keyIds) hkept
  · obtain ⟨hr, -⟩ := Progress.of_raise h
    cases hr

omit hT hS hX in
theorem startsWith_scomm {id : String} (h : startsWith id keyMetaExtensionPrefix = true) :
    startsWith id "priv:scomm." = true := by
  unfold startsWith at h ⊢
  rw [List.isPrefixOf_iff_prefix] at h ⊢
  exact List.IsPrefix.trans (by decide) h

end

/-! ## Imports -/

section
variable {H B W γ : Type} {T : Trans H B W γ} {fails : VaultCall H B W → Device H B W × γ → Prop}
  (hT : Answers T fails) {d : Device H B W} {g : γ} {s : Device H B W × γ}
  {tr : List (Event (vaultIface H B W))} {L : Ckvf H B W}

/-- The package does not merge the two. -/
def MergeFails (L : Ckvf H B W) (head loc : UnlockedVault H B W) : Prop :=
  let sides := normalize utf16Le (scommIds head.payload loc.payload) head.payload loc.payload
  ∃ seed e, L.mergeOnto seed { head with payload := sides.1 } { loc with payload := sides.2 } none =
    .error e

/-- The export `exported` as a vault with the container of `v`. -/
def incoming (exported v : UnlockedVault H B W) : UnlockedVault H B W :=
  ⟨v.container, exported.payload, v.vek⟩

/-- The selected keys of `p` are in `m` with their metadata; `u` is the vault that `m` comes
from. -/
structure Restores (ids : List String) (p u m : VaultPayload) : Prop where
  keys : ∀ r ∈ p.keys, r.absoluteKeyId ∈ ids →
    r.absoluteKeyId ∈ keyIds m ∧ (r.absoluteKeyId ∉ keyIds u → r ∈ m.keys)
  keyMeta : ∀ shard, startsWith shard keyMetaExtensionPrefix = true → ∀ id ∈ ids,
    ∀ x, entry p shard id = some x → entry m shard id = some x

include hT

/-- A merge, or the error of the package. -/
theorem of_mergeNormalized {β : Type} {head loc : UnlockedVault H B W}
    {f : UnlockedVault H B W → DProg H B W β} {r : Except VaultException β} {s' : Device H B W × γ}
    (h : Progress T (mergeNormalized L head loc none >>= f) s tr (.ofExcept r) s') :
    ((∃ e, r = .error e) ∧ MergeFails L head loc) ∨
      ∃ m tr', Merged L head loc none m ∧ Progress T (f m) s tr' (.ofExcept r) s' := by
  unfold mergeNormalized at h
  obtain ⟨seed, tr₂, h⟩ := of_entropy hT h
  rcases of_ckvf_cases h with ⟨e, hm, hr⟩ | ⟨m, hm, h⟩
  · exact .inl ⟨⟨_, hr⟩, seed, e, hm⟩
  · exact .inr ⟨m, tr₂, ⟨utf16Le, _, seed, utf16Le_refl, fun _ => Iff.rfl, hm⟩, h⟩

/-- An import of the same identity commits the merge, unless the package or the store refuses it. -/
theorem importExport_spec [DecidableEq H] {cfg : Config} {exported u : UnlockedVault H B W}
    {r : Except VaultException Unit} (hu : d.vault = some u)
    (hid : exported.payload.identity.identityId = u.payload.identity.identityId)
    (h : Progress T (importExport L cfg exported) (d, g) tr (.ofExcept r) s) :
    ((∃ e, r = .error e) ∧ (MergeFails L u (incoming exported u) ∨
      ∃ c e s₁, T (.write .container (some c)) (d, g) (.error e) s₁)) ∨
    ∃ m tr', Merged L u (incoming exported u) none m ∧
      Progress T (pushQuietly L cfg) (installed d m, g) tr' (.ofExcept r) s := by
  unfold importExport commit at h
  obtain ⟨tr₁, h⟩ := of_vault hT hu h
  unfold importExportChange at h
  rw [if_neg (by simpa using hid)] at h
  rcases of_mergeNormalized hT h with ⟨hr, hm⟩ | ⟨m, tr₂, hm, h⟩
  · exact .inl ⟨hr, .inl hm⟩
  · rcases of_persist hT h with ⟨tr₃, h⟩ | ⟨hr, e, s₁, hw⟩
    · exact .inr ⟨m, tr₃, hm, h⟩
    · exact .inl ⟨hr, .inr ⟨_, e, s₁, hw⟩⟩

end

/-- A merge of an export restores the selected keys. -/
theorem restores_of_merged {H B W A : Type} {L : Ckvf H B W} {P : PasswordOps H B W A}
    {S : Seal H B W}
    (hX : ExportLaws L P S) (hK : KeyLaws L) (hE : ExtensionLaws L) {ids : List String}
    {p : VaultPayload} {exported u m : UnlockedVault H B W}
    (hp : Touched (exportPayload (some ids) p) exported.payload)
    (h : Merged L u (incoming exported u) none m) : Restores ids p u.payload m.payload := by
  have hkeys : exported.payload.keys = p.keys.filter fun k => k.absoluteKeyId ∈ ids := by
    rw [hp]
    rfl
  have hexts : exported.payload.extensions = (exportPayload (some ids) p).extensions := by
    rw [hp]
  constructor
  · intro r hr hid
    have hmem : r ∈ exported.payload.keys := by
      rw [hkeys]
      exact List.mem_filter.2 ⟨hr, by simpa using hid⟩
    refine ⟨(h.keys hK).2 (List.mem_map.2 ⟨r, hmem, rfl⟩), fun hnew => ?_⟩
    obtain ⟨le, idl, seed, -, -, hm⟩ := h
    obtain ⟨exts, exts', hn⟩ := normalize_other le idl u.payload (incoming exported u).payload
    rw [hn] at hm
    exact hX.merged hm r hmem hnew
  · intro shard hshard id hid x hx
    have hexp : entry exported.payload shard id = some x := by
      have hsame : extensionData exported.payload shard =
          extensionData (exportPayload (some ids) p) shard := by
        unfold extensionData
        rw [hexts]
      unfold entry
      rw [hsame]
      exact (entry_export p hshard hid).trans hx
    rw [h.entry hE (startsWith_scomm hshard)]
    show (entry exported.payload shard id).or _ = some x
    rw [hexp]
    rfl

/-! ## What an export tells -/

/-- A run of `exportWithPassword` with the keys `ids`, on a device whose open vault is `v`, gives
`c`. -/
def ExportsTo {H B W A γ : Type} (T : Trans H B W γ) (L : Ckvf H B W) (P : PasswordOps H B W A)
    (S : Seal H B W) (ids : List String) (v : UnlockedVault H B W)
    (c : VaultContainer H B W) : Prop :=
  S.Valid v.container ∧ ∃ password kdf s s', s.1.vault = some v ∧
    Runs T (exportWithPassword L P password (some ids) kdf) s (.ok c) s'

theorem sameContents_touched {p p' q q' : VaultPayload} (hp : Touched p p') (hq : Touched q q') :
    SameContents p' q' ↔ SameContents p q := by
  rw [hp, hq]
  constructor
  · intro h
    exact ⟨h.keys, h.preferred, h.families, h.tombstones, h.extensions⟩
  · intro h
    exact ⟨h.keys, h.preferred, h.families, h.tombstones, h.extensions⟩

section
variable {H B W A γ : Type} {R : Remote H B W γ} {ok : Trans H B W γ} {L : Ckvf H B W}
  {P : PasswordOps H B W A} {S : Seal H B W} {ids : List String} {v : UnlockedVault H B W}
  {c : VaultContainer H B W}

theorem exportsTo_contents (hS : Sealing L S) (hX : ExportLaws L P S)
    (h : ExportsTo ((vaultEnv R).Allowed ok) L P S ids v c) :
    Touched (exportPayload (some ids) v.payload) (S.contents c) := by
  obtain ⟨hvalid, password, kdf, s, s', hv, hrun⟩ := h
  obtain ⟨tr, hprog⟩ := hrun.progress
  have hT : Answers ((vaultEnv R).Allowed ok) fun _ _ => True :=
    answers_vaultEnv (fun _ => trivial) (fun _ => trivial)
  exact (exportWithPassword_spec hT hS hX hv hvalid hprog).2

/-- Opening an export asks nothing of the device. -/
theorem openExport_ok {T : Trans H B W γ} {password : String} {exported : UnlockedVault H B W}
    {s s' : Device H B W × γ} (h : Runs T (openExport P c password) s (.ok exported) s') :
    P.openVault c password = .ok exported := by
  unfold openExport ckvf at h
  cases hc : P.openVault c password with
  | ok v =>
    rw [hc] at h
    cases h
    rfl
  | error e =>
    rw [hc] at h
    cases h

/-- **What an export tells beside the selected keys**: two vaults that differ only in other keys
have the same export exactly when they have the same shards. A selected key is in the export with
its metadata, and the import into a vault of the identity restores it, unless the package or the
store refuses the import. -/
theorem partial_export_iff [DecidableEq H] (hS : Sealing L S) (hX : ExportLaws L P S)
    (hK : KeyLaws L)
    (hE : ExtensionLaws L) (h : ExportsTo ((vaultEnv R).Allowed ok) L P S ids v c) :
    (∀ w c', ExportsTo ((vaultEnv R).Allowed ok) L P S ids w c' → Maps v.payload → Maps w.payload →
      SameSelected ids v.payload w.payload →
        (SameContents (S.contents c) (S.contents c') ↔ shardIds v.payload = shardIds w.payload)) ∧
    (∀ r ∈ v.payload.keys, r.absoluteKeyId ∈ ids → r ∈ (S.contents c).keys) ∧
    (∀ shard, startsWith shard keyMetaExtensionPrefix = true → ∀ id ∈ ids,
      entry (S.contents c) shard id = entry v.payload shard id) ∧
    ∀ password exported s₀ s₁, Runs ((vaultEnv R).Allowed ok) (openExport P c password) s₀
      (.ok exported) s₁ → ∀ cfg u s r s', s.1.vault = some u →
      u.payload.identity.identityId = v.payload.identity.identityId →
      Runs ((vaultEnv R).Allowed ok) (importExport L cfg exported) s r s' →
        ((∃ e, r = .error e) ∧ (MergeFails L u (incoming exported u) ∨
          ∃ c e s₁, (vaultEnv R).Allowed ok (.write .container (some c)) s (.error e) s₁)) ∨
        ∃ m, Restores ids v.payload u.payload m.payload ∧
          Runs ((vaultEnv R).Allowed ok) (pushQuietly L cfg) (installed s.1 m, s.2) r s' := by
  have hT : Answers ((vaultEnv R).Allowed ok) fun _ _ => True :=
    answers_vaultEnv (fun _ => trivial) (fun _ => trivial)
  have hc := exportsTo_contents hS hX h
  refine ⟨?_, ?_, ?_, ?_⟩
  · intro w c' hw hv hw' hsame
    rw [sameContents_touched hc (exportsTo_contents hS hX hw), sameContents_export hv hw' hsame]
  · -- every selected key is in the container
    intro r hr hid
    rw [hc]
    exact List.mem_filter.2 ⟨hr, by simpa using hid⟩
  · -- so is its entry in every key shard
    intro shard hshard id hid
    rw [← entry_export v.payload hshard hid]
    have hexts : (S.contents c).extensions = (exportPayload (some ids) v.payload).extensions := by
      rw [hc]
    unfold entry extensionData
    rw [hexts]
  · -- whoever imports it either fails or restores it
    intro password exported s₀ s₁ hopen cfg u s r s' hu hid hrun
    obtain ⟨hcont, hsealed⟩ := hX.opened (openExport_ok hopen)
    have hpayload : Touched (exportPayload (some ids) v.payload) exported.payload := by
      rw [hsealed.2, hcont]
      exact hc
    have hident : exported.payload.identity.identityId = u.payload.identity.identityId := by
      rw [hid, hpayload]
      rfl
    obtain ⟨tr, hprog⟩ := hrun.progress
    rcases importExport_spec hT hu hident hprog with hfail | ⟨m, tr', hm, hpush⟩
    · exact .inl hfail
    · exact .inr ⟨m, restores_of_merged hX hK hE hpayload hm, hpush.runs⟩

end

/-! ## Two vaults that have one key in common -/

section
open Ckvf.Symbolic

def vaultOf (keys : List KeyRecord) (extensions : List Extension) : Symbolic.Vault :=
  openAs (mkContainer "vault" 1 none [] ⟨[1], ⟨⟨"me", .null⟩, ⟨edKey 0 0, []⟩, keys, [], .null, [],
    extensions, []⟩, 0, []⟩)

def labelOf (id : String) : Json.Obj := [(id, .str "label")]

/-- The key `"a"` with its metadata. -/
def oneKey : Symbolic.Vault :=
  vaultOf [⟨"a", "active", .null⟩] [⟨"priv:scomm.keys.1", false, .obj (labelOf "a")⟩]

/-- The same key, and `"b"` with its metadata in another shard. -/
def twoKeys : Symbolic.Vault :=
  vaultOf [⟨"a", "active", .null⟩, ⟨"b", "active", .null⟩]
    [⟨"priv:scomm.keys.1", false, .obj (labelOf "a")⟩,
      ⟨"priv:scomm.keys.2", false, .obj (labelOf "b")⟩]

def exportEvs : List (LocalEv ⊕ AnyEv Digest Body Wrap) :=
  [.inl .ok, .inl (.bytes (List.replicate 32 0)), .inl (.seed 1), .inl (.seed 2), .inl (.seed 3)]

def exportRun (v : Symbolic.Vault) :=
  (vaultEnv anyRemote).run exportEvs
    (exportWithPassword symbolic symbolicPasswords "word" (some ["a"]) ()) ({ vault := some v }, [])

theorem exportsTo_of {v : Symbolic.Vault} {c : Container}
    {s : Device Digest Body Wrap × List (Seen Digest Body Wrap)} (hv : valid v.container)
    (h : exportRun v = some (.ok c, s)) (hok : (vaultEnv anyRemote).RunOk (fun _ _ _ _ => True)
      exportEvs (exportWithPassword symbolic symbolicPasswords "word" (some ["a"]) ())
      ({ vault := some v }, [])) :
    ExportsTo ((vaultEnv anyRemote).Allowed fun _ _ _ _ => True) symbolic
        symbolicPasswords sealing ["a"]
      v c :=
  ⟨hv, "word", (), ({ vault := some v }, []), s, rfl, Env.run_sound (vaultEnv anyRemote) _ h hok⟩

theorem export_oneKey : ∃ c, ExportsTo ((vaultEnv anyRemote).Allowed fun _ _ _ _ => True) symbolic
    symbolicPasswords sealing ["a"] oneKey c ∧ c.body.payload.extensions.map (·.id) =
      ["priv:scomm.keys.1"] := by
  have hrun : ∃ c s, exportRun oneKey = some (.ok c, s) ∧
      c.body.payload.extensions.map (·.id) = ["priv:scomm.keys.1"] := ⟨_, _, rfl, rfl⟩
  obtain ⟨c, s, h, hids⟩ := hrun
  exact ⟨c, exportsTo_of rfl h (by decide), hids⟩

theorem export_twoKeys : ∃ c, ExportsTo ((vaultEnv anyRemote).Allowed fun _ _ _ _ => True) symbolic
    symbolicPasswords sealing ["a"] twoKeys c ∧ c.body.payload.extensions.map (·.id) =
      ["priv:scomm.keys.1", "priv:scomm.keys.2"] := by
  have hrun : ∃ c s, exportRun twoKeys = some (.ok c, s) ∧
      c.body.payload.extensions.map (·.id) = ["priv:scomm.keys.1", "priv:scomm.keys.2"] :=
    ⟨_, _, rfl, rfl⟩
  obtain ⟨c, s, h, hids⟩ := hrun
  exact ⟨c, exportsTo_of rfl h (by decide), hids⟩

theorem maps_oneKey : Maps oneKey.payload where
  families := List.nodup_nil
  purposes _ hf := absurd hf List.not_mem_nil
  shards := by decide

theorem maps_twoKeys : Maps twoKeys.payload where
  families := List.nodup_nil
  purposes _ hf := absurd hf List.not_mem_nil
  shards := by decide

theorem sameSelected_keys : SameSelected ["a"] twoKeys.payload oneKey.payload where
  identity := rfl
  msk := rfl
  metadata := rfl
  keys := by decide
  preferred _ _ _ _ := Iff.rfl
  keyMeta := by
    intro shard _ id hid
    have hid : id = "a" := by simpa using hid
    subst hid
    unfold entry extensionData
    show Json.Obj.get? ((List.findSome? _ [_, _]).getD []) _ =
      Json.Obj.get? ((List.findSome? _ [_]).getD []) _
    rw [List.findSome?_cons, List.findSome?_cons, List.findSome?_cons]
    by_cases h₁ : "priv:scomm.keys.1" = shard
    · rw [if_pos h₁]
      rfl
    · by_cases h₂ : "priv:scomm.keys.2" = shard
      · rw [if_neg h₁, if_pos h₂]
        rfl
      · rw [if_neg h₁, if_neg h₂]

/-- The export of `"a"` tells that there is a key whose metadata are in the shard `2`. -/
theorem export_leaks : ∃ c c',
    ExportsTo ((vaultEnv anyRemote).Allowed fun _ _ _ _ => True) symbolic
        symbolicPasswords sealing ["a"]
      twoKeys c ∧
    ExportsTo ((vaultEnv anyRemote).Allowed fun _ _ _ _ => True) symbolic
        symbolicPasswords sealing ["a"]
      oneKey c' ∧
    Maps twoKeys.payload ∧ Maps oneKey.payload ∧ SameSelected ["a"] twoKeys.payload oneKey.payload ∧
      ¬ SameContents (sealing.contents c) (sealing.contents c') := by
  obtain ⟨c, hc, hids⟩ := export_twoKeys
  obtain ⟨c', hc', hids'⟩ := export_oneKey
  refine ⟨c, c', hc, hc', maps_twoKeys, maps_oneKey, sameSelected_keys, fun hsame => ?_⟩
  have htwo : c.body.payload.extensions.length = 2 := by
    simpa using congrArg List.length hids
  have hone : c'.body.payload.extensions.length = 1 := by
    simpa using congrArg List.length hids'
  have hlen : c.body.payload.extensions.length = c'.body.payload.extensions.length :=
    hsame.extensions.length_eq
  omega

theorem partial_export_iff_oneKey : ∃ c,
    ExportsTo ((vaultEnv anyRemote).Allowed fun _ _ _ _ => True) symbolic
        symbolicPasswords sealing ["a"]
      oneKey c ∧
    (∀ w c', ExportsTo ((vaultEnv anyRemote).Allowed fun _ _ _ _ => True) symbolic symbolicPasswords
      sealing ["a"] w c' → Maps w.payload → SameSelected ["a"] oneKey.payload w.payload →
        (SameContents (sealing.contents c) (sealing.contents c') ↔
          shardIds oneKey.payload = shardIds w.payload)) ∧
    entry (sealing.contents c) "priv:scomm.keys.1" "a" = some (.str "label") := by
  obtain ⟨c, hc, -⟩ := export_oneKey
  obtain ⟨hiff, -, hmeta, -⟩ := partial_export_iff sealing_laws export_laws key_laws
      extension_laws hc
  refine ⟨c, hc, fun w c' hw hmaps hsame => hiff w c' hw maps_oneKey hmaps hsame, ?_⟩
  rw [hmeta "priv:scomm.keys.1" (by decide) "a" (by decide)]
  decide

end

end Vault.Dart
