import SdkPubkey.Ckvf.Symbolic
import SdkPubkey.Vault.Merge

/-!
# The payloads handed to `merge_onto`

`merge_normalized` of both clients rewrites the extensions of both payloads before the package
merges them (`Rust.handed`, `Dart.handed`). `Consistent` says what that should come to: one union
under each `priv:scomm.` id, alike on both sides, and nothing lost. It does exactly when all
`priv:scomm.` extensions are objects (`handed_consistent_iff`).
-/

namespace Vault

open Ckvf Lib

/-! ## What is handed over -/

def Rust.handed (head loc : VaultPayload) : VaultPayload × VaultPayload :=
  normalize codePointLe ((scommIds head loc).insertionSort fun a b => codePointLe a b =
      true) head loc

def Dart.handed (head loc : VaultPayload) : VaultPayload × VaultPayload :=
  normalize utf16Le (scommIds head loc) head loc

section
variable {H B W : Type} (L : Ckvf H B W)

/-- The merge by the package, of the payloads that are handed over. -/
def Rust.mergeSides (head loc : UnlockedVault H B W) (sides : VaultPayload × VaultPayload) :
    Rust.RProg H B W (UnlockedVault H B W) := do
  let seed ← Rust.entropy
  Rust.ckvf (L.mergeOnto seed { head with payload := sides.1 } { loc with payload := sides.2 } none)

def Dart.mergeSides (head loc : UnlockedVault H B W) (base : Option (UnlockedVault H B W))
    (sides : VaultPayload × VaultPayload) : Dart.DProg H B W (UnlockedVault H B W) := do
  let seed ← Dart.entropy
  Dart.ckvf (L.mergeOnto seed { head with payload := sides.1 } { loc with payload := sides.2 } base)

theorem Rust.mergeNormalized_eq (head loc : UnlockedVault H B W) : Rust.mergeNormalized L head loc =
    Rust.mergeSides L head loc (Rust.handed head.payload loc.payload) := rfl

theorem Dart.mergeNormalized_eq (head loc : UnlockedVault H B W)
    (base : Option (UnlockedVault H B W)) : Dart.mergeNormalized L head loc base =
      Dart.mergeSides L head loc base (Dart.handed head.payload loc.payload) := rfl

end

/-! ## Consistency -/

def UniqueIds (p : VaultPayload) : Prop := (p.extensions.map (·.id)).Nodup

/-- The extensions `id` of `p` have objects for their data. -/
def ObjectsAt (p : VaultPayload) (id : String) : Prop :=
  ∀ e ∈ p.extensions, e.id = id → ∃ m, e.data = .obj m

/-- An id whose entries are merged. -/
def MergedId (head loc : VaultPayload) (id : String) : Prop :=
  startsWith id "priv:scomm." = true ∧ ObjectsAt head id ∧ ObjectsAt loc id

/-- `p` has the extension `id` with the data `m`, or no such extension when `m` is empty. -/
def HasData (p : VaultPayload) (id : String) (m : Json.Obj) : Prop :=
  if m = [] then ∀ e ∈ p.extensions, e.id ≠ id else ∃ critical,
      ⟨id, critical, .obj m⟩ ∈ p.extensions

/-- The two sides are `head` and `loc` with the entries under each `priv:scomm.` id put together. -/
structure Consistent (head loc : VaultPayload) (sides : VaultPayload × VaultPayload) : Prop where
  union : ∀ id, MergedId head loc id → ∃ m : Json.Obj, HasData sides.1 id m ∧ HasData sides.2 id m ∧
    ∀ key, m.get? key = (entry loc id key).or (entry head id key)
  headKept : ∀ e ∈ head.extensions, ¬ MergedId head loc e.id → e ∈ sides.1.extensions
  locKept : ∀ e ∈ loc.extensions, ¬ MergedId head loc e.id → e ∈ sides.2.extensions
  kept : ∀ e, e ∈ head.extensions ∨ e ∈ loc.extensions →
    (∃ e', (e' ∈ sides.1.extensions ∨ e' ∈ sides.2.extensions) ∧ e'.id = e.id) ∨ e.data = .obj []
  unique : UniqueIds sides.1 ∧ UniqueIds sides.2
  fields : { sides.1 with extensions := head.extensions } = head ∧
    { sides.2 with extensions := loc.extensions } = loc

/-- All metadata of the apps are objects. -/
def ObjectMetadata (head loc : VaultPayload) : Prop :=
  ∀ e, e ∈ head.extensions ∨ e ∈ loc.extensions → startsWith e.id "priv:scomm." = true →
    ∃ m, e.data = .obj m

/-! ## Unique ids -/

theorem uniqueIds_iff {p : VaultPayload} :
    UniqueIds p ↔ ∀ id, (p.extensions.filter (·.id = id)).length ≤ 1 := by
  unfold UniqueIds
  rw [List.nodup_iff_count_le_one]
  refine forall_congr' fun id => ?_
  have hc : (p.extensions.map (·.id)).count id = (p.extensions.filter (·.id = id)).length := by
    rw [List.count, List.countP_map, List.countP_eq_length_filter]
    congr 1
  rw [hc]

/-- With unique ids the entries of an object are read from its own extension. -/
theorem extensionData_of_mem {p : VaultPayload} (hu : UniqueIds p) {e : Extension}
    (he : e ∈ p.extensions) {m : Json.Obj} (hm : e.data = .obj m) : extensionData p e.id = m := by
  have hl := uniqueIds_iff.1 hu e.id
  have hmem : e ∈ p.extensions.filter (·.id = e.id) := List.mem_filter.2 ⟨he, decide_eq_true rfl⟩
  have hf : p.extensions.filter (·.id = e.id) = [e] := by
    rcases hfe : p.extensions.filter (·.id = e.id) with - | ⟨a, - | ⟨b, l⟩⟩
    · rw [hfe] at hmem
      cases hmem
    · rw [hfe] at hmem
      obtain rfl := List.mem_singleton.1 hmem
      exact hfe
    · rw [hfe] at hl
      simp at hl
  rw [extensionData_filter, hf]
  simp [hm, Json.asObject]

theorem mem_of_filter_eq {l l' : List Extension} {e : Extension}
    (h : l'.filter (·.id = e.id) = l.filter (·.id = e.id)) (he : e ∈ l) : e ∈ l' := by
  have hm : e ∈ l'.filter (·.id = e.id) := by
    rw [h]
    exact List.mem_filter.2 ⟨he, decide_eq_true rfl⟩
  exact List.mem_of_mem_filter hm

/-! ## The loop -/

section
variable {le : String → String → Bool} (hle : ∀ s, le s s = true) {ids : List String}
  {head loc : VaultPayload} (hids : ∀ id, id ∈ ids ↔ id ∈ scommIds head loc)
include hle hids

/-- The extension that both sides get under an id of the loop. -/
def unionExtensions (head loc : VaultPayload) (id : String) : List Extension :=
  if ((extensionData head id).union (extensionData loc id)).isEmpty then []
  else [⟨id, false, .obj ((extensionData head id).union (extensionData loc id))⟩]

omit hids in
theorem normalize_in (head loc : VaultPayload) {id : String} (h : id ∈ ids) :
    (normalize le ids head loc).1.extensions.filter (·.id = id) = unionExtensions head loc id ∧
      (normalize le ids head loc).2.extensions.filter (·.id = id) =
      unionExtensions head loc id := by
  obtain ⟨h1, h2⟩ := normalize_filter hle ids head loc id
  rw [if_pos h] at h1 h2
  exact ⟨h1, h2⟩

omit hids in
theorem normalize_notIn (head loc : VaultPayload) {id : String} (h : id ∉ ids) :
    (normalize le ids head loc).1.extensions.filter (·.id = id) =
    head.extensions.filter (·.id = id) ∧
      (normalize le ids head loc).2.extensions.filter (·.id = id) =
        loc.extensions.filter (·.id = id) := by
  obtain ⟨h1, h2⟩ := normalize_filter hle ids head loc id
  rw [if_neg h] at h1 h2
  exact ⟨h1, h2⟩

omit hle hids in
theorem unionExtensions_length (head loc : VaultPayload) (id : String) :
    (unionExtensions head loc id).length ≤ 1 := by
  unfold unionExtensions
  split <;> simp

omit hle hids in
theorem hasData_of_filter {p : VaultPayload} {id : String}
    (h : p.extensions.filter (·.id = id) = unionExtensions head loc id) :
    HasData p id ((extensionData head id).union (extensionData loc id)) := by
  unfold HasData
  unfold unionExtensions at h
  split
  · rename_i hm
    rw [hm] at h
    intro e he hid
    have hmem : e ∈ p.extensions.filter (·.id = id) := List.mem_filter.2 ⟨he, decide_eq_true hid⟩
    rw [h] at hmem
    cases hmem
  · rename_i hm
    rw [if_neg (by simpa using hm)] at h
    refine ⟨false, ?_⟩
    have hmem : (⟨id, false, .obj ((extensionData head id).union (extensionData loc id))⟩
        : Extension) ∈ p.extensions.filter (·.id = id) := by
      rw [h]
      exact List.mem_singleton.2 rfl
    exact List.mem_of_mem_filter hmem

omit hle in
theorem mem_ids_iff {e : Extension} (he : e ∈ head.extensions ∨ e ∈ loc.extensions) :
    e.id ∈ ids ↔ startsWith e.id "priv:scomm." = true := by
  rw [hids, mem_scommIds]
  exact ⟨fun h => h.1, fun h => ⟨h, e, he, rfl⟩⟩

omit hids in
/-- Nothing stands under the id of an extension that is no object and yet in the loop. -/
theorem not_mem_normalize {e : Extension} (h : e.id ∈ ids) (hd : ∀ m, e.data ≠ .obj m) :
    e ∉ (normalize le ids head loc).1.extensions ∧
        e ∉ (normalize le ids head loc).2.extensions := by
  obtain ⟨h1, h2⟩ := normalize_in hle head loc h
  have hnot : e ∉ unionExtensions head loc e.id := by
    unfold unionExtensions
    split
    · simp
    · intro hm
      exact hd _ (congrArg Extension.data (List.mem_singleton.1 hm))
  refine ⟨fun hm => hnot ?_, fun hm => hnot ?_⟩
  · rw [← h1]
    exact List.mem_filter.2 ⟨hm, decide_eq_true rfl⟩
  · rw [← h2]
    exact List.mem_filter.2 ⟨hm, decide_eq_true rfl⟩

omit hle in
/-- Outside the loop a `priv:scomm.` id stands on no side. -/
theorem unionExtensions_notIn {id : String} (hid : startsWith id "priv:scomm." = true)
    (h : id ∉ ids) :
    head.extensions.filter (·.id = id) = unionExtensions head loc id ∧
      loc.extensions.filter (·.id = id) = unionExtensions head loc id := by
  have hno : ∀ e, e ∈ head.extensions ∨ e ∈ loc.extensions → e.id ≠ id := by
    intro e he heq
    exact h ((hids id).2 (mem_scommIds.2 ⟨hid, e, he, heq⟩))
  have hnil : ∀ l : List Extension, (∀ e ∈ l, e.id ≠ id) → l.filter (·.id = id) = [] := by
    intro l hl
    simpa [List.filter_eq_nil_iff] using hl
  have hh := extensionData_of_notMem fun e he => hno e (.inl he)
  have hl := extensionData_of_notMem fun e he => hno e (.inr he)
  have hu : unionExtensions head loc id = [] := by
    unfold unionExtensions
    rw [hh, hl]
    rfl
  rw [hu]
  exact ⟨hnil _ fun e he => hno e (.inl he), hnil _ fun e he => hno e (.inr he)⟩

omit hids in
theorem normalize_unique (hh : UniqueIds head) (hl : UniqueIds loc) :
    UniqueIds (normalize le ids head loc).1 ∧ UniqueIds (normalize le ids head loc).2 := by
  constructor
  · rw [uniqueIds_iff]
    intro id
    by_cases h : id ∈ ids
    · rw [(normalize_in hle head loc h).1]
      exact unionExtensions_length head loc id
    · rw [(normalize_notIn hle head loc h).1]
      exact uniqueIds_iff.1 hh id
  · rw [uniqueIds_iff]
    intro id
    by_cases h : id ∈ ids
    · rw [(normalize_in hle head loc h).2]
      exact unionExtensions_length head loc id
    · rw [(normalize_notIn hle head loc h).2]
      exact uniqueIds_iff.1 hl id

/-- An id is lost only where all its data were empty. -/
theorem normalize_kept (hh : UniqueIds head) (hl : UniqueIds loc) (ho : ObjectMetadata head loc)
    {e : Extension} (he : e ∈ head.extensions ∨ e ∈ loc.extensions) :
    (∃ e', (e' ∈ (normalize le ids head loc).1.extensions ∨
      e' ∈ (normalize le ids head loc).2.extensions) ∧ e'.id = e.id) ∨ e.data = .obj [] := by
  by_cases h : e.id ∈ ids
  · obtain ⟨m, hm⟩ := ho e he ((mem_ids_iff hids he).1 h)
    by_cases hu : (extensionData head e.id).union (extensionData loc e.id) = []
    · obtain ⟨hnh, hnl⟩ := Json.Obj.union_eq_nil.1 hu
      right
      rcases he with he | he
      · rw [hm, ← extensionData_of_mem hh he hm, hnh]
      · rw [hm, ← extensionData_of_mem hl he hm, hnl]
    · have hd := hasData_of_filter (normalize_in hle head loc h).1
      unfold HasData at hd
      rw [if_neg hu] at hd
      obtain ⟨critical, hc⟩ := hd
      exact .inl ⟨_, .inl hc, rfl⟩
  · obtain ⟨h1, h2⟩ := normalize_notIn hle head loc h
    rcases he with he | he
    · exact .inl ⟨e, .inl (mem_of_filter_eq h1 he), rfl⟩
    · exact .inl ⟨e, .inr (mem_of_filter_eq h2 he), rfl⟩

theorem normalize_consistent (hh : UniqueIds head) (hl : UniqueIds loc)
    (ho : ObjectMetadata head loc) :
    Consistent head loc (normalize le ids head loc) := by
  have hmerged : ∀ e, e ∈ head.extensions ∨ e ∈ loc.extensions → ¬ MergedId head loc e.id →
      e.id ∉ ids := by
    intro e he hn hin
    refine hn ⟨(mem_ids_iff hids he).1 hin, ?_, ?_⟩
    · intro e' he' hid
      exact ho e' (.inl he') (by rw [hid]; exact (mem_ids_iff hids he).1 hin)
    · intro e' he' hid
      exact ho e' (.inr he') (by rw [hid]; exact (mem_ids_iff hids he).1 hin)
  constructor
  · intro id hx
    obtain ⟨hid, -, -⟩ := hx
    refine ⟨(extensionData head id).union (extensionData loc id), ?_, ?_, fun key => ?_⟩
    · by_cases h : id ∈ ids
      · exact hasData_of_filter (normalize_in hle head loc h).1
      · exact hasData_of_filter ((normalize_notIn hle head loc h).1.trans
          (unionExtensions_notIn hids hid h).1)
    · by_cases h : id ∈ ids
      · exact hasData_of_filter (normalize_in hle head loc h).2
      · exact hasData_of_filter ((normalize_notIn hle head loc h).2.trans
          (unionExtensions_notIn hids hid h).2)
    · exact Json.Obj.get?_union _ _ key
  · intro e he hn
    exact mem_of_filter_eq (normalize_notIn hle head loc (hmerged e (.inl he) hn)).1 he
  · intro e he hn
    exact mem_of_filter_eq (normalize_notIn hle head loc (hmerged e (.inr he) hn)).2 he
  · intro e he
    exact normalize_kept hle hids hh hl ho he
  · exact normalize_unique hle hh hl
  · obtain ⟨exts, exts', h⟩ := normalize_other le ids head loc
    rw [h]
    exact ⟨rfl, rfl⟩

/-- **When the payloads are consistent**: exactly when the metadata are objects. -/
theorem normalize_consistent_iff (hh : UniqueIds head) (hl : UniqueIds loc) :
    Consistent head loc (normalize le ids head loc) ↔
      ObjectMetadata head loc := by
  constructor
  · intro hc e he hid
    apply Classical.byContradiction
    intro hd
    have hd : ∀ m, e.data ≠ .obj m := fun m hm => hd ⟨m, hm⟩
    obtain ⟨h1, h2⟩ := not_mem_normalize hle ((mem_ids_iff hids he).2 hid) hd
    have hn : ¬ MergedId head loc e.id := by
      intro h
      obtain ⟨-, hoh, hol⟩ := h
      rcases he with he | he
      · obtain ⟨m, hm⟩ := hoh e he rfl
        exact hd m hm
      · obtain ⟨m, hm⟩ := hol e he rfl
        exact hd m hm
    rcases he with he | he
    · exact h1 (hc.headKept e he hn)
    · exact h2 (hc.locKept e he hn)
  · intro ho
    exact normalize_consistent hle hids hh hl ho

end

/-- **When both clients hand over consistent payloads**: exactly when no `priv:scomm.` extension of
either side has data that are not an object. -/
theorem handed_consistent_iff {H B W : Type} (L : Ckvf H B W) {head loc : UnlockedVault H B W}
    (hh : UniqueIds head.payload) (hl : UniqueIds loc.payload) :
    (Rust.mergeNormalized L head loc =
        Rust.mergeSides L head loc (Rust.handed head.payload loc.payload) ∧
      (Consistent head.payload loc.payload (Rust.handed head.payload loc.payload) ↔
        ObjectMetadata head.payload loc.payload)) ∧
    (∀ base, Dart.mergeNormalized L head loc base =
        Dart.mergeSides L head loc base (Dart.handed head.payload loc.payload)) ∧
      (Consistent head.payload loc.payload (Dart.handed head.payload loc.payload) ↔
        ObjectMetadata head.payload loc.payload) := by
  refine ⟨⟨Rust.mergeNormalized_eq L head loc, ?_⟩, Dart.mergeNormalized_eq L head loc, ?_⟩
  · exact normalize_consistent_iff codePointLe_refl (fun id => List.mem_insertionSort _) hh hl
  · exact normalize_consistent_iff utf16Le_refl (fun id => Iff.rfl) hh hl

/-- A payload with one extension. -/
def payloadWith (e : Extension) : VaultPayload :=
  ⟨⟨"me", .null⟩, ⟨⟨"ed25519", "", .null⟩, []⟩, [], [], .null, [], [e], []⟩

theorem payloadWith_unique (e : Extension) : UniqueIds (payloadWith e) := List.nodup_singleton _

def oldLabel : VaultPayload := payloadWith ⟨"priv:scomm.keys.1", true, .obj [("a", .str "old")]⟩
def newLabel : VaultPayload := payloadWith ⟨"priv:scomm.keys.1", false, .obj [("a", .str "new")]⟩

def vaultWith (p : VaultPayload) : Symbolic.Vault :=
  Symbolic.openAs (Symbolic.mkContainer "vault" 1 none [] ⟨[], p, 0, []⟩)

theorem handed_consistent_labels :
    Rust.mergeNormalized symbolic (vaultWith oldLabel) (vaultWith newLabel) =
      Rust.mergeSides symbolic (vaultWith oldLabel) (vaultWith newLabel)
        (Rust.handed oldLabel newLabel) ∧
    Consistent oldLabel newLabel (Rust.handed oldLabel newLabel) := by
  have hhead : UniqueIds (vaultWith oldLabel).payload := payloadWith_unique _
  have hloc : UniqueIds (vaultWith newLabel).payload := payloadWith_unique _
  obtain ⟨⟨hmerge, hiff⟩, -⟩ := handed_consistent_iff symbolic hhead hloc
  refine ⟨hmerge, hiff.2 ?_⟩
  intro e he _
  rcases he with he | he
  · obtain rfl := List.mem_singleton.1 he
    exact ⟨_, rfl⟩
  · obtain rfl := List.mem_singleton.1 he
    exact ⟨_, rfl⟩

/-- A payload with metadata that are a list. -/
def listed : VaultPayload := payloadWith ⟨"priv:scomm.notes", true, .arr [.str "a"]⟩

/-- The list is lost on both sides. -/
theorem handed_drops_list :
    (Rust.handed listed oldLabel).1.extensions.map (·.id) = ["priv:scomm.keys.1"] ∧
      (Rust.handed listed oldLabel).2.extensions.map (·.id) = ["priv:scomm.keys.1"] ∧
      ¬ Consistent listed oldLabel (Rust.handed listed oldLabel) := by
  refine ⟨by decide, by decide, fun h => ?_⟩
  obtain ⟨m, hm⟩ := (normalize_consistent_iff codePointLe_refl (fun id => List.mem_insertionSort _)
    (payloadWith_unique _) (payloadWith_unique _)).1 h _
    (.inl (List.mem_singleton.2 rfl)) (by decide)
  cases hm

end Vault
