import SdkPubkey.Discovery.Document

/-!
# Members that are null

What `crates/discovery/src/document.rs` reads when JSON has members that are null, against the JSON
without them, and against `lib/src/discovery/document.dart`.

* `nullMembers_iff`: when a member that is null is read as one that is absent, and when both sides
  read alike.
-/

namespace Discovery

/-! ## Without nulls -/

namespace Map

/-- The members that are not null. -/
def withoutNulls (m : Map) : Map := m.filter fun e => !(get? m e.1).any Value.isNull

/-- `f` on the member `k`. -/
def update (k : String) (f : Value → Value) (m : Map) : Map :=
  m.map fun e => (e.1, if e.1 = k then f e.2 else e.2)

end Map

namespace Value

def inArray (f : Value → Value) : Value → Value
  | array xs => array (xs.map f)
  | v => v

end Value

/-- The capabilities, without the members of encryption keys that are null. -/
def keysWithoutNulls (capabilities : Map) : Map :=
  capabilities.update "crypto" (.inObject (Map.update "encryption" (.inObject
    (Map.update "keys" (.inArray (.inObject Map.withoutNulls))))))

/-- The JSON without the members that are null, at the top and in the encryption keys. -/
def nullsRemoved (json : Map) : Map :=
  (json.update "capabilities" (.inObject keysWithoutNulls)).withoutNulls

/-! ## Reading it -/

namespace Map

theorem get?_filter (p : String → Bool) (m : Map) (k : String) :
    Map.get? (m.filter fun e => p e.1) k = if p k then m.get? k else none := by
  induction m with
  | nil => simp
  | cons e m ih =>
    obtain ⟨l, v⟩ := e
    by_cases hl : l = k
    · subst hl
      cases hp : p l <;> simp [hp, ih]
    · cases hp : p l <;> simp [hp, hl, ih]

theorem get?_withoutNulls (m : Map) (k : String) : m.withoutNulls.get? k = m.nonNull? k := by
  have hfilter : m.withoutNulls.get? k = if !(m.get? k).any Value.isNull then m.get? k else none :=
    get?_filter (fun l => !(m.get? l).any Value.isNull) m k
  rw [hfilter, nonNull?]
  cases m.get? k with
  | none => rfl
  | some v =>
    cases hv : v.isNull with
    | false =>
      rw [Option.filter_some_pos (by simp [hv])]
      simp [hv]
    | true =>
      rw [Option.filter_some_neg (by simp [hv])]
      simp [hv]

theorem get?_update (m : Map) (k : String) (f : Value → Value) (l : String) :
    (m.update k f).get? l = if l = k then (m.get? l).map f else m.get? l := by
  unfold update
  induction m with
  | nil => simp
  | cons e m ih =>
    obtain ⟨l', v⟩ := e
    by_cases hl : l' = l
    · subst hl
      by_cases hk : l' = k <;> simp [hk]
    · simp [hl, ih]

theorem object?_update (m : Map) (k : String) (f : Map → Map) :
    (m.update k (.inObject f)).object? k = (m.object? k).map f := by
  unfold object?
  rw [get?_update, if_pos rfl]
  cases m.get? k with
  | none => rfl
  | some v => cases v <;> rfl

end Map

theorem get?_nullsRemoved (json : Map) {k : String} (hk : k ≠ "capabilities") :
    (nullsRemoved json).get? k = json.nonNull? k := by
  unfold nullsRemoved
  rw [Map.get?_withoutNulls, Map.nonNull?, Map.get?_update, if_neg hk]
  rfl

theorem object?_nullsRemoved (json : Map) :
    (nullsRemoved json).object? "capabilities" = (json.object? "capabilities").map
    keysWithoutNulls := by
  unfold nullsRemoved
  rw [← Map.object?_update, Map.object?, Map.get?_withoutNulls, Map.nonNull?_bind rfl]
  rfl

theorem encryptionKeys_keysWithoutNulls (d : DiscoveryDocument) :
    { d with capabilities := keysWithoutNulls d.capabilities }.encryptionKeys =
      d.encryptionKeys.map Map.withoutNulls := by
  unfold DiscoveryDocument.encryptionKeys keysWithoutNulls
  dsimp only
  rw [Map.object?_update]
  cases d.capabilities.object? "crypto" with
  | none => rfl
  | some crypto =>
    rw [Option.map_some, Option.bind_some, Option.bind_some, Map.object?_update]
    cases crypto.object? "encryption" with
    | none => rfl
    | some enc =>
      dsimp only [Option.map_some]
      rw [Map.get?_update, if_pos rfl]
      cases enc.get? "keys" with
      | none => rfl
      | some keys =>
        cases keys with
        | array xs =>
          have hobject : ∀ v : Value, (v.inObject Map.withoutNulls).asObject =
              v.asObject.map Map.withoutNulls := by
            intro v
            cases v <;> rfl
          show (xs.map (Value.inObject Map.withoutNulls)).filterMap Value.asObject =
            (xs.filterMap Value.asObject).map Map.withoutNulls
          rw [List.filterMap_map, List.map_filterMap]
          exact List.filterMap_congr fun v _ => hobject v
        | _ => rfl

/-! ## The selector -/

theorem get?_unpublished (m : Map) {k : String} (hk : k ≠ "published_key_id") :
    Map.get? (unpublished m) k = m.get? k := by
  have hfilter : Map.get? (unpublished m) k = if decide (k ≠ "published_key_id")
      then m.get? k else none :=
    Map.get?_filter (fun l => decide (l ≠ "published_key_id")) m k
  rw [hfilter, decide_eq_true hk, if_pos rfl]

/-- The selector does not read `published_key_id`. -/
theorem selectBestArtifact_unpublished (capabilities : Option Value)
    (preferences : Option SelectPreferences) (purpose : Option String) (artifacts : List Value) :
    (Values.selectBestArtifact capabilities preferences purpose artifacts).map unpublished =
      Values.selectBestArtifact capabilities preferences purpose
        (artifacts.map (Value.inObject unpublished)) := by
  -- none of the names that are read is one that is left out
  have hkeeps : Values.keeps capabilities purpose ∘ unpublished =
      Values.keeps capabilities purpose := by
    funext m
    simp (disch := decide) only [Function.comp_apply, Values.keeps, Values.algorithm, Map.str?,
      get?_unpublished]
  have hprefers : Values.prefers preferences ∘ unpublished = Values.prefers preferences := by
    funext m
    simp (disch := decide) only [Function.comp_apply, Values.prefers, Map.str?, get?_unpublished]
  have hcompare : ∀ a b, Values.compareArtifacts (unpublished a) (unpublished b) =
      Values.compareArtifacts a b := by
    intro a b
    simp (disch := decide) only [Values.compareArtifacts, Values.algorithm, Values.family, Map.str?,
      get?_unpublished]
    rfl
  have hobjects : (artifacts.map (Value.inObject unpublished)).filterMap Value.asObject =
      (artifacts.filterMap Value.asObject).map unpublished := by
    rw [List.filterMap_map, List.map_filterMap]
    refine List.filterMap_congr fun v _ => ?_
    cases v <;> rfl
  generalize hkept : (artifacts.filterMap Value.asObject).filter
      (Values.keeps capabilities purpose) = kept
  have hcandidates : ((artifacts.map (Value.inObject unpublished)).filterMap Value.asObject).filter
      (Values.keeps capabilities purpose) = kept.map unpublished := by
    rw [hobjects, List.filter_map, hkeeps, hkept]
  have hsort : (kept.mergeSort fun a b => (Values.compareArtifacts a b).isLE).map unpublished =
      (kept.map unpublished).mergeSort fun a b => (Values.compareArtifacts a b).isLE := by
    refine List.map_mergeSort fun a _ b _ => ?_
    rw [hcompare]
  unfold Values.selectBestArtifact
  rw [hcandidates, hkept]
  dsimp only
  rw [List.isEmpty_map]
  split
  · rfl
  · rw [List.find?_map, hprefers, ← hsort, List.head?_map]
    cases kept.find? (Values.prefers preferences) <;> rfl

/-! ## Null and absent -/

section
variable (t : NumberTexts) (json : Map)

/-- None of the members is null. -/
def NotNull (keys : List String) : Prop := ∀ k ∈ keys, json.get? k ≠ some .null

/-- None of the members is null, and Rust and Dart make the same texts of them. -/
def ReadAlike (keys : List String) : Prop :=
  ∀ k ∈ keys, ∀ v, json.get? k = some v → v ≠ .null ∧ Alike t v

/-- The reader of Rust, if it took null for absent. -/
def absentReader : Reader := { Rust.reader t with get := Map.nonNull? }

theorem text?_nullsRemoved {k : String} (hk : k ≠ "capabilities") :
    (Rust.reader t).text? (nullsRemoved json) k = (absentReader t).text? json k := by
  rw [Reader.text?, Reader.text?]
  exact congrArg _ (get?_nullsRemoved json hk)

theorem object_nullsRemoved {k : String} (hk : k ≠ "capabilities") :
    (Rust.reader t).object (nullsRemoved json) k = (absentReader t).object json k := by
  rw [Reader.object, Reader.object]
  have hget : (Rust.reader t).get (nullsRemoved json) k = (absentReader t).get json k :=
    get?_nullsRemoved json hk
  rw [hget]

theorem document_nullsRemoved :
    ((Rust.reader t).document (nullsRemoved json)).parsed =
    ((absentReader t).document json).parsed := by
  simp (disch := decide) only [Reader.document, DiscoveryDocument.parsed, text?_nullsRemoved,
    object_nullsRemoved]

theorem resource_nullsRemoved :
    ((Rust.reader t).resource (nullsRemoved json)).parsed =
    ((absentReader t).resource json).parsed := by
  simp (disch := decide) only [Reader.resource, DiscoveryResource.parsed, text?_nullsRemoved,
    object_nullsRemoved]

theorem challenge_nullsRemoved :
    ((Rust.reader t).challenge (nullsRemoved json)).parsed =
    ((absentReader t).challenge json).parsed := by
  have hattempts : (Rust.reader t).get (nullsRemoved json) "attemptsRemaining" =
      (absentReader t).get json "attemptsRemaining" := get?_nullsRemoved json (by decide)
  simp (disch := decide) only [Reader.challenge, DiscoveryChallenge.parsed,
      text?_nullsRemoved, hattempts]
  rfl

theorem sameText_self_iff {f : Value → String} {keys : List String} :
    (∀ k ∈ keys, SameText f f (json.get? k)) ↔ NotNull json keys := by
  unfold SameText NotNull
  constructor
  · intro h k hk he
    exact (h k hk _ he).1 rfl
  · intro h k hk v hv
    refine ⟨fun he => h k hk ?_, rfl⟩
    rw [hv, he]

theorem sameText_iff_alike {keys : List String} :
    (∀ k ∈ keys, SameText (Rust.reader t).text (Dart.reader t).text (json.get? k)) ↔
      ReadAlike t json keys := by
  unfold SameText ReadAlike
  refine forall₂_congr fun k _ => forall₂_congr fun v _ => and_congr_right fun _ => ?_
  exact valueToString_eq_toString_iff t v

theorem rustReader_get : (Rust.reader t).get = Map.get? := rfl
theorem absentReader_get : (absentReader t).get = Map.nonNull? := rfl

theorem rustReader_null : (Rust.reader t).text .null = "null" := by
  have htext : (Rust.reader t).text .null = (Rust.display t).text .null :=
    Rust.valueToString_eq t .null
  rw [htext]
  exact String.ofList_toList

theorem document_null_iff :
    (Rust.DiscoveryDocument.fromJson t (.object (nullsRemoved json))).parsed =
        (Rust.DiscoveryDocument.fromJson t (.object json)).parsed ↔ NotNull json documentTexts := by
  have hobject := object_eq (rustReader_get t) (absentReader_get t) json
  have hiff := document_eq_iff (rustReader_get t) (absentReader_get t) (rustReader_null t) json
  have hparsed : ((absentReader t).document json).parsed = ((Rust.reader t).document json).parsed ↔
      (Rust.reader t).document json = (absentReader t).document json := by
    rw [eq_comm]
    simp [Reader.document, DiscoveryDocument.parsed, hobject]
  exact ((document_nullsRemoved t json).congr_left.trans hparsed).trans
      (hiff.trans (sameText_self_iff json))

theorem resource_null_iff :
    (Rust.DiscoveryResource.fromJson t (.object (nullsRemoved json))).parsed =
        (Rust.DiscoveryResource.fromJson t (.object json)).parsed ↔ NotNull json resourceTexts := by
  have hobject := object_eq (rustReader_get t) (absentReader_get t) json
  have hiff := resource_eq_iff (rustReader_get t) (absentReader_get t) (rustReader_null t) json
  have hparsed : ((absentReader t).resource json).parsed = ((Rust.reader t).resource json).parsed ↔
      (Rust.reader t).resource json = (absentReader t).resource json := by
    rw [eq_comm]
    simp [Reader.resource, DiscoveryResource.parsed, hobject]
  exact ((resource_nullsRemoved t json).congr_left.trans hparsed).trans
      (hiff.trans (sameText_self_iff json))

theorem challenge_null_iff :
    (Rust.DiscoveryChallenge.fromJson t (.object (nullsRemoved json))).parsed =
        (Rust.DiscoveryChallenge.fromJson t (.object json)).parsed ↔
        NotNull json challengeTexts := by
  have hattempts : (Rust.reader t).attempts (json.get? "attemptsRemaining") =
      (absentReader t).attempts (json.nonNull? "attemptsRemaining") :=
        (Map.nonNull?_bind rfl json _).symm
  have hiff := challenge_eq_iff (rustReader_get t) (absentReader_get t) (rustReader_null t) json
  have hparsed : ((absentReader t).challenge json).parsed =
      ((Rust.reader t).challenge json).parsed ↔
      (Rust.reader t).challenge json = (absentReader t).challenge json := by
    rw [eq_comm]
    simp [Reader.challenge, DiscoveryChallenge.parsed]
  rw [and_iff_left hattempts] at hiff
  exact ((challenge_nullsRemoved t json).congr_left.trans hparsed).trans
      (hiff.trans (sameText_self_iff json))

/-! ## Artifacts of nulls -/

theorem rustReader_texts : TextsOfStrings (Rust.reader t).text := by
  have htext : (Rust.reader t).text = (Rust.display t).text := funext (Rust.valueToString_eq t)
  rw [htext]
  exact (Rust.display t).textsOfStrings

theorem dartReader_texts : TextsOfStrings (Dart.reader t).text := by
  have htext : (Dart.reader t).text = (Dart.display t).text := funext (Dart.toString_eq t)
  rw [htext]
  exact (Dart.display t).textsOfStrings

theorem rust_publishedKeyId (key : Map) : ∀ e ∈ Rust.publishedKeyId key, e.1 =
    "published_key_id" := by
  intro e he
  unfold Rust.publishedKeyId at he
  cases hk : key.get? "keyId" with
  | none => simp [hk] at he
  | some kid =>
    rw [hk, Option.map_some, Option.mem_toList, Option.some.injEq] at he
    rw [← he]

theorem dart_publishedKeyId (key : Map) : ∀ e ∈ Dart.publishedKeyId key, e.1 =
    "published_key_id" := by
  intro e he
  obtain rfl := List.mem_singleton.1 he
  rfl

theorem selectionKey?_withoutNulls (key : Map) :
    (Rust.reader t).selectionKey? key.withoutNulls = (absentReader t).selectionKey? key := by
  have htext : ∀ k, (Rust.reader t).text? key.withoutNulls k = (absentReader t).text? key k := by
    intro k
    rw [Reader.text?, Reader.text?]
    exact congrArg _ (Map.get?_withoutNulls key k)
  have hfirst : firstAlgorithm key.withoutNulls = firstAlgorithm key := by
    rw [firstAlgorithm, Map.get?_withoutNulls, Map.nonNull?_bind rfl]
    rfl
  rw [Reader.selectionKey?, htext, htext, hfirst]
  rfl

theorem encryptionKeys_nullsRemoved :
    (Rust.DiscoveryDocument.fromJson t (.object (nullsRemoved json))).encryptionKeys =
      (Rust.DiscoveryDocument.fromJson t (.object json)).encryptionKeys.map Map.withoutNulls := by
  rw [← encryptionKeys_keysWithoutNulls]
  have hcapabilities :
      (Rust.DiscoveryDocument.fromJson t (.object (nullsRemoved json))).capabilities =
      keysWithoutNulls (Rust.DiscoveryDocument.fromJson t (.object json)).capabilities := by
    show ((nullsRemoved json).object? "capabilities").getD [] =
      keysWithoutNulls ((json.object? "capabilities").getD [])
    rw [object?_nullsRemoved]
    cases json.object? "capabilities" <;> rfl
  unfold DiscoveryDocument.encryptionKeys
  rw [hcapabilities]

/-- The artifacts that are not those of the JSON without nulls. -/
theorem artifacts_null_iff :
    SameArtifacts
        (Rust.encryptionArtifactsForSelection t
          (Rust.DiscoveryDocument.fromJson t (.object (nullsRemoved json))))
        (Rust.encryptionArtifactsForSelection t
          (Rust.DiscoveryDocument.fromJson t (.object json))) ↔
      ∀ key ∈ (Rust.DiscoveryDocument.fromJson t (.object json)).encryptionKeys,
        ∀ family a m, Projects Map.get? key family a m → m ≠ .null := by
  unfold Rust.encryptionArtifactsForSelection
  rw [sameArtifacts_iff rust_publishedKeyId rust_publishedKeyId, encryptionKeys_nullsRemoved,
    List.filterMap_map]
  generalize (Rust.DiscoveryDocument.fromJson t (.object json)).encryptionKeys = keys
  have hcomp : (Rust.reader t).selectionKey? ∘ Map.withoutNulls = (absentReader t).selectionKey? :=
    funext (selectionKey?_withoutNulls t)
  rw [hcomp, filterMap_eq_iff fun key _ => selectionKey?_none (rustReader_get t)
    (absentReader_get t) (rustReader_texts t) (rustReader_texts t)]
  refine forall₂_congr fun key _ => ?_
  rw [selectionKey?_eq_iff (rustReader_get t) (absentReader_get t) (rustReader_texts t)
      (rustReader_texts t)]
  exact ⟨fun h family a m hp => (h family a m hp).1, fun h family a m hp =>
    ⟨h family a m hp, rfl, rfl⟩⟩

/-- Without nulls there are the same artifacts, and the selector picks the same. -/
def SameSelection (d d' : DiscoveryDocument) : Prop :=
  SameArtifacts (Rust.encryptionArtifactsForSelection t d)
      (Rust.encryptionArtifactsForSelection t d') ∧
    ∀ capabilities preferences,
        (Rust.selectBestEncryptionKey t d capabilities preferences).map unpublished =
      (Rust.selectBestEncryptionKey t d' capabilities preferences).map unpublished

theorem sameSelection_iff (d d' : DiscoveryDocument) :
    SameSelection t d d' ↔ SameArtifacts (Rust.encryptionArtifactsForSelection t d)
      (Rust.encryptionArtifactsForSelection t d') := by
  refine ⟨fun h => h.1, fun h => ⟨h, fun capabilities preferences => ?_⟩⟩
  unfold Rust.selectBestEncryptionKey
  rw [selectBestArtifact_unpublished, selectBestArtifact_unpublished, h]

/-- A null makes no text: no proof, no expiry, and no artifact with a key or an algorithm. -/
structure NullsAbsent : Prop where
  proof : json.get? "proof" = some .null →
      (Rust.DiscoveryChallenge.fromJson t (.object json)).proof = none
  expiresAt : json.get? "expiresAt" = some .null →
    (Rust.DiscoveryChallenge.fromJson t (.object json)).expiresAt = none
  keys : ∀ key ∈ (Rust.DiscoveryDocument.fromJson t (.object json)).encryptionKeys,
    key.get? "publicKey" = some .null ∨ key.get? "algorithms" = some .null ∨
        firstAlgorithm key = some .null →
      (Rust.reader t).selectionKey? key = none

theorem nullsAbsent_iff :
    NullsAbsent t json ↔ NotNull json ["expiresAt", "proof"] ∧
      ∀ key ∈ (Rust.DiscoveryDocument.fromJson t (.object json)).encryptionKeys,
        ∀ family a m, Projects Map.get? key family a m → a ≠ .null ∧ m ≠ .null := by
  have htext : ∀ {k}, json.get? k = some .null → (Rust.reader t).text? json k ≠ none := by
    intro k hk
    rw [Reader.text?, rustReader_get, hk]
    simp
  have hsome := Reader.selectionKey?_eq_some_iff (rustReader_texts t)
  rw [rustReader_get] at hsome
  constructor
  · intro h
    refine ⟨fun k hk he => ?_, fun key hkey family a m hp => ?_⟩
    · rcases List.mem_cons.1 hk with rfl | hk
      · exact htext he (h.expiresAt he)
      · obtain rfl := List.mem_singleton.1 hk
        exact htext he (h.proof he)
    · have hselected := (hsome key _).2 ⟨family, a, m, hp, rfl⟩
      constructor
      · intro ha
        rw [h.keys key hkey (.inr (.inr (ha ▸ hp.algorithm)))] at hselected
        cases hselected
      · intro hm
        rw [h.keys key hkey (.inl (hm ▸ hp.material))] at hselected
        cases hselected
  · intro h
    obtain ⟨hnot, hkeys⟩ := h
    refine ⟨fun he => absurd he (hnot _ (by simp)), fun he => absurd he (hnot _ (by simp)), ?_⟩
    intro key hkey hnull
    cases hs : (Rust.reader t).selectionKey? key with
    | none => rfl
    | some selected =>
      obtain ⟨family, a, m, hp, -⟩ := (hsome key selected).1 hs
      obtain ⟨ha, hm⟩ := hkeys key hkey family a m hp
      rcases hnull with he | he | he
      · exact absurd (Option.some.inj (hp.material.symm.trans he)) hm
      · -- without a list there is no first algorithm
        have hfirst := hp.algorithm
        rw [firstAlgorithm, he] at hfirst
        cases hfirst
      · exact absurd (Option.some.inj (hp.algorithm.symm.trans he)) ha

/-! ## Rust and Dart -/

theorem dartReader_get : (Dart.reader t).get = Map.nonNull? := rfl

theorem documents_alike_iff :
    Rust.DiscoveryDocument.fromJson t (.object json) = Dart.DiscoveryDocument.fromJson t json ↔
      ReadAlike t json documentTexts :=
  (document_eq_iff (rustReader_get t) (dartReader_get t) (rustReader_null t) json).trans
    (sameText_iff_alike t json)

theorem resources_alike_iff :
    Rust.DiscoveryResource.fromJson t (.object json) = Dart.DiscoveryResource.fromJson t json ↔
      ReadAlike t json resourceTexts :=
  (resource_eq_iff (rustReader_get t) (dartReader_get t) (rustReader_null t) json).trans
    (sameText_iff_alike t json)

theorem challenges_alike_iff :
    Rust.DiscoveryChallenge.fromJson t (.object json) = Dart.DiscoveryChallenge.fromJson t json ↔
      ReadAlike t json challengeTexts ∧
        ∀ s, json.get? "attemptsRemaining" = some (.string s) → CountsAlike s :=
  (challenge_eq_iff (rustReader_get t) (dartReader_get t) (rustReader_null t) json).trans
    (and_congr (sameText_iff_alike t json) (attemptsRemaining_eq_iff t json _))

theorem artifacts_alike_iff :
    SameArtifacts
        (Dart.encryptionArtifactsForSelection t (Dart.DiscoveryDocument.fromJson t json))
        (Rust.encryptionArtifactsForSelection t
          (Rust.DiscoveryDocument.fromJson t (.object json))) ↔
      ∀ key ∈ (Rust.DiscoveryDocument.fromJson t (.object json)).encryptionKeys,
        ∀ family a m, Projects Map.get? key family a m → m ≠ .null ∧ Alike t a ∧ Alike t m := by
  have hkeys : (Dart.DiscoveryDocument.fromJson t json).encryptionKeys =
      (Rust.DiscoveryDocument.fromJson t (.object json)).encryptionKeys := by
    have hobject := object_eq (rustReader_get t) (dartReader_get t) json "capabilities"
    have hcapabilities : (Dart.DiscoveryDocument.fromJson t json).capabilities =
        (Rust.DiscoveryDocument.fromJson t (.object json)).capabilities := hobject.symm
    unfold DiscoveryDocument.encryptionKeys
    rw [hcapabilities]
  unfold Dart.encryptionArtifactsForSelection Rust.encryptionArtifactsForSelection
  rw [sameArtifacts_iff dart_publishedKeyId rust_publishedKeyId, hkeys]
  rw [filterMap_eq_iff fun key _ => selectionKey?_none (rustReader_get t) (dartReader_get t)
    (rustReader_texts t) (dartReader_texts t)]
  refine forall₂_congr fun key _ => ?_
  rw [selectionKey?_eq_iff (rustReader_get t) (dartReader_get t) (rustReader_texts t)
      (dartReader_texts t)]
  refine forall₂_congr fun family a => forall₂_congr fun m _ => and_congr_right fun _ => ?_
  exact and_congr (valueToString_eq_toString_iff t a) (valueToString_eq_toString_iff t m)

end

/-- **When null means absent**: in the three envelopes, in the artifacts and what is selected of
them; when no null becomes a text; and when Rust and Dart read alike. -/
theorem nullMembers_iff (t : NumberTexts) (json : Map) :
    ((Rust.DiscoveryDocument.fromJson t (.object (nullsRemoved json))).parsed =
        (Rust.DiscoveryDocument.fromJson t (.object json)).parsed ↔ NotNull json documentTexts) ∧
    ((Rust.DiscoveryResource.fromJson t (.object (nullsRemoved json))).parsed =
        (Rust.DiscoveryResource.fromJson t (.object json)).parsed ↔ NotNull json resourceTexts) ∧
    ((Rust.DiscoveryChallenge.fromJson t (.object (nullsRemoved json))).parsed =
        (Rust.DiscoveryChallenge.fromJson t (.object json)).parsed ↔ NotNull json challengeTexts) ∧
    (SameSelection t (Rust.DiscoveryDocument.fromJson t (.object (nullsRemoved json)))
        (Rust.DiscoveryDocument.fromJson t (.object json)) ↔
      ∀ key ∈ (Rust.DiscoveryDocument.fromJson t (.object json)).encryptionKeys,
        ∀ family a m, Projects Map.get? key family a m → m ≠ .null) ∧
    (NullsAbsent t json ↔ NotNull json ["expiresAt", "proof"] ∧
      ∀ key ∈ (Rust.DiscoveryDocument.fromJson t (.object json)).encryptionKeys,
        ∀ family a m, Projects Map.get? key family a m → a ≠ .null ∧ m ≠ .null) ∧
    (Rust.DiscoveryDocument.fromJson t (.object json) = Dart.DiscoveryDocument.fromJson t json ↔
      ReadAlike t json documentTexts) ∧
    (Rust.DiscoveryResource.fromJson t (.object json) = Dart.DiscoveryResource.fromJson t json ↔
      ReadAlike t json resourceTexts) ∧
    (Rust.DiscoveryChallenge.fromJson t (.object json) = Dart.DiscoveryChallenge.fromJson t json ↔
      ReadAlike t json challengeTexts ∧
        ∀ s, json.get? "attemptsRemaining" = some (.string s) → CountsAlike s) ∧
    (SameArtifacts
        (Dart.encryptionArtifactsForSelection t (Dart.DiscoveryDocument.fromJson t json))
        (Rust.encryptionArtifactsForSelection t
          (Rust.DiscoveryDocument.fromJson t (.object json))) ↔
      ∀ key ∈ (Rust.DiscoveryDocument.fromJson t (.object json)).encryptionKeys,
        ∀ family a m, Projects Map.get? key family a m → m ≠ .null ∧ Alike t a ∧ Alike t m) :=
  ⟨document_null_iff t json, resource_null_iff t json, challenge_null_iff t json,
    (sameSelection_iff t _ _).trans (artifacts_null_iff t json), nullsAbsent_iff t json,
    documents_alike_iff t json, resources_alike_iff t json, challenges_alike_iff t json,
    artifacts_alike_iff t json⟩

/-- Doubles that are all zero. -/
def zeroTexts : NumberTexts where
  rust _ := "0.0"
  dart _ := "0.0"
  rust_plain _ := ⟨by decide, List.all_eq_true.1 (by decide)⟩
  dart_plain _ := ⟨by decide, List.all_eq_true.1 (by decide)⟩
  dart_double _ := by decide

/-- A key with a null for its public key, and nulls where texts are read. -/
def nullJson : Map :=
  [("schemaVersion", .null), ("proof", .null), ("expiresAt", .null), ("id", .null),
    ("capabilities", .object [("crypto", .object [("encryption", .object [("keys", .array [.object
      [("family", .string "openpgp"), ("algorithms", .array [.string "rsa"]),
      ("publicKey", .null)]])])])])]

/-- Nulls are texts in Rust: no part holds. -/
theorem null_is_text :
    (Rust.DiscoveryDocument.fromJson zeroTexts (.object (nullsRemoved nullJson))).parsed ≠
        (Rust.DiscoveryDocument.fromJson zeroTexts (.object nullJson)).parsed ∧
      (Rust.DiscoveryResource.fromJson zeroTexts (.object (nullsRemoved nullJson))).parsed ≠
        (Rust.DiscoveryResource.fromJson zeroTexts (.object nullJson)).parsed ∧
      (Rust.DiscoveryChallenge.fromJson zeroTexts (.object (nullsRemoved nullJson))).parsed ≠
        (Rust.DiscoveryChallenge.fromJson zeroTexts (.object nullJson)).parsed ∧
      ¬ SameSelection zeroTexts
          (Rust.DiscoveryDocument.fromJson zeroTexts (.object (nullsRemoved nullJson)))
        (Rust.DiscoveryDocument.fromJson zeroTexts (.object nullJson)) ∧
      ¬ NullsAbsent zeroTexts nullJson ∧
      Rust.DiscoveryChallenge.fromJson zeroTexts (.object nullJson) ≠
        Dart.DiscoveryChallenge.fromJson zeroTexts nullJson := by
  have hprojects :
      Projects Map.get? [("family", .string "openpgp"), ("algorithms", .array [.string "rsa"]),
      ("publicKey", .null)] "openpgp" (.string "rsa") .null :=
    ⟨rfl, by decide, rfl, by simp, rfl, by simp⟩
  have hkey : [("family", Value.string "openpgp"), ("algorithms", .array [.string "rsa"]),
      ("publicKey", .null)] ∈
      (Rust.DiscoveryDocument.fromJson zeroTexts (.object nullJson)).encryptionKeys :=
    List.mem_cons_self
  refine ⟨fun h => ?_, fun h => ?_, fun h => ?_, fun h => ?_, fun h => ?_, fun h => ?_⟩
  · exact (document_null_iff zeroTexts nullJson).1 h "schemaVersion" (by decide) rfl
  · exact (resource_null_iff zeroTexts nullJson).1 h "id" (by decide) rfl
  · exact (challenge_null_iff zeroTexts nullJson).1 h "proof" (by decide) rfl
  · exact (artifacts_null_iff zeroTexts nullJson).1 h.1 _ hkey _ _ _ hprojects rfl
  · exact ((nullsAbsent_iff zeroTexts nullJson).1 h).1 "proof" (by decide) rfl
  · exact (((challenges_alike_iff zeroTexts nullJson).1 h).1 "proof" (by decide) _ rfl).1 rfl

end Discovery
