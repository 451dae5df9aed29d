import SdkPubkey.Vault.Proof.Commit
import SdkPubkey.Vault.Proof.DartExec

/-!
# Importing a key

`import_key` of both clients is one change (`importChange`): the id is that of the new record, or is
computed again when the record is there. `ImportSpec` collects what follows from it. The returned id
names a record, a second import with the same arguments changes nothing, and no import moves a
status back. When the key was there, only its status and the extension with its metadata change
(`OnlyKeyChanged`); that extension is written anew, as one object that is not critical.
-/

namespace Vault

open Ckvf Lib

variable {H B W γ : Type}

/-! ## Statuses -/

/-- A status and one that may follow it: active, retired, revoked. -/
def Forward (s s' : String) : Prop := s' = s ∨ (s = "active" ∧ s' = "retired") ∨ s' = "revoked"

theorem Forward.trans {a b c : String} (h : Forward a b) (h' : Forward b c) : Forward a c := by
  rcases h' with rfl | ⟨rfl, rfl⟩ | rfl
  · exact h
  · rcases h with h | ⟨-, h⟩ | h
    · subst h
      exact .inr (.inl ⟨rfl, rfl⟩)
    · exact absurd h (by decide)
    · exact absurd h (by decide)
  · exact .inr (.inr rfl)

/-- The record with a status that may follow its own. -/
def RecordForward (r r' : KeyRecord) : Prop :=
  ∃ status, r' = { r with status := status } ∧ Forward r.status status

theorem RecordForward.refl (r : KeyRecord) : RecordForward r r := ⟨r.status, rfl, .inl rfl⟩

theorem RecordForward.trans {a b c : KeyRecord} (h : RecordForward a b) (h' : RecordForward b c) :
    RecordForward a c := by
  obtain ⟨s, rfl, hs⟩ := h
  obtain ⟨t, rfl, ht⟩ := h'
  exact ⟨t, rfl, hs.trans ht⟩

/-- Every record is still at its place, with a status that may follow; others may come after. -/
def Advances : List KeyRecord → List KeyRecord → Prop
  | [], _ => True
  | r :: rs, r' :: rs' => RecordForward r r' ∧ Advances rs rs'
  | _ :: _, [] => False

theorem Advances.refl : ∀ ks : List KeyRecord, Advances ks ks
  | [] => trivial
  | r :: rs => ⟨.refl r, refl rs⟩

theorem Advances.trans : ∀ {a b c : List KeyRecord}, Advances a b → Advances b c → Advances a c
  | [], _, _, _, _ => trivial
  | _ :: _, [], _, h, _ => h.elim
  | _ :: _, _ :: _, [], _, h => h.elim
  | _ :: _, _ :: _, _ :: _, h, h' => ⟨h.1.trans h'.1, h.2.trans h'.2⟩

theorem advances_append (ks new : List KeyRecord) : Advances ks (ks ++ new) := by
  induction ks with
  | nil => trivial
  | cons r rs ih => exact ⟨.refl r, ih⟩

def statusOf (ks : List KeyRecord) (id : String) : Option String :=
  (ks.find? (·.absoluteKeyId = id)).map (·.status)

theorem withStatus_ids (ks : List KeyRecord) (id status : String) :
    (withStatus ks id status).map (·.absoluteKeyId) = ks.map (·.absoluteKeyId) := by
  induction ks with
  | nil => rfl
  | cons r rs ih =>
    unfold withStatus
    split
    · rfl
    · rw [List.map_cons, List.map_cons, ih]

theorem statusOf_withStatus {ks : List KeyRecord} {id : String} (status : String)
    (h : id ∈ ks.map (·.absoluteKeyId)) : statusOf (withStatus ks id status) id = some status := by
  induction ks with
  | nil => cases h
  | cons r rs ih =>
    unfold withStatus
    by_cases hr : r.absoluteKeyId = id
    · simp [statusOf, hr]
    · have hmem : id ∈ rs.map (·.absoluteKeyId) := by
        rcases List.mem_cons.1 h with h | h
        · exact absurd h.symm hr
        · exact h
      rw [if_neg hr]
      simpa [statusOf, hr] using ih hmem

theorem withStatus_advances {ks : List KeyRecord} {id status : String}
    (h : ∀ s, statusOf ks id = some s → Forward s status) :
    Advances ks (withStatus ks id status) := by
  induction ks with
  | nil => trivial
  | cons r rs ih =>
    unfold withStatus
    by_cases hr : r.absoluteKeyId = id
    · rw [if_pos hr]
      exact ⟨⟨status, rfl, h r.status (by simp [statusOf, hr])⟩, .refl rs⟩
    · rw [if_neg hr]
      refine ⟨.refl r, ih ?_⟩
      intro s hs
      exact h s (by simpa [statusOf, hr] using hs)

/-! ## The steps of an import -/

section
variable {K : KeyOps H B W} {L : Ckvf H B W} (hK : ImportLaws K L) {seed : Seed} {a : KeyImport}
  {status : Option String} {v v' : UnlockedVault H B W} {id : String}
include hK

theorem importOrFind_ok (h : importOrFind K seed v a = .ok (v', id)) :
    K.canonicalKeyId a = .ok id ∧ id ∈ keyIds v'.payload ∧
      (id ∈ keyIds v.payload → v' = v) ∧ Advances v.payload.keys v'.payload.keys := by
  unfold importOrFind at h
  cases himp : K.importPrivateKey seed v a with
  | ok next =>
    obtain ⟨r, hid, -, hkeys⟩ := hK.imported himp
    rw [himp] at h
    simp only [hkeys, List.getLast?_append, List.getLast?_singleton, Option.some_or] at h
    cases h
    have hmem : r.absoluteKeyId ∈ keyIds v'.payload := by
      simp [keyIds, hkeys]
    refine ⟨hid, hmem, ?_, ?_⟩
    · -- the package refuses a key that is there
      intro hin
      obtain ⟨e, he, -⟩ := hK.present.2 ⟨_, hid, hin⟩
      rw [himp] at he
      cases he
    · rw [hkeys]
      exact advances_append _ _
  | error e =>
    rw [himp] at h
    dsimp only at h
    split at h
    · rename_i hcode
      obtain ⟨i, hid, hin⟩ := hK.present.1 ⟨e, himp, hcode⟩
      rw [hid] at h
      cases h
      exact ⟨hid, hin, fun _ => rfl, .refl _⟩
    · cases h

theorem importOrFind_present (hid : K.canonicalKeyId a = .ok id) (hin : id ∈ keyIds v.payload) :
    importOrFind K seed v a = .ok (v, id) := by
  have hrefused : ∃ e, K.importPrivateKey seed v a = .error e ∧ e.code = "ERR_KEY_ID" :=
    hK.present.2 ⟨id, hid, hin⟩
  obtain ⟨e, he, hcode⟩ := hrefused
  simp only [importOrFind, he, hcode, ↓reduceIte, hid]
  rfl

theorem status_getKey : (K.getKey v id).map (·.status) = statusOf v.payload.keys id := by
  rw [hK.found]
  rfl

/-- Only the status of the record changes, and not back. -/
theorem adjustStatus_ok (h : adjustStatus K seed v id status = .ok v') :
    ∃ ks, v'.payload = { v.payload with keys := ks } ∧ Advances v.payload.keys ks ∧
      (ks = v.payload.keys ∨ ∃ s, ks = withStatus v.payload.keys id s) := by
  unfold adjustStatus at h
  split at h
  · rename_i hs
    refine ⟨_, hK.retired h, withStatus_advances ?_, .inr ⟨_, rfl⟩⟩
    intro s hst
    rw [status_getKey hK, hst] at hs
    exact .inr (.inl ⟨Option.some.inj hs.2, rfl⟩)
  · split at h
    · refine ⟨_, hK.revoked h, withStatus_advances ?_, .inr ⟨_, rfl⟩⟩
      intro s _
      exact .inr (.inr rfl)
    · cases h
      exact ⟨_, rfl, .refl _, .inl rfl⟩

/-- Once the status is adjusted, there is nothing left to adjust. -/
theorem adjustStatus_again (h : adjustStatus K seed v id status = .ok v')
    (hin : id ∈ keyIds v.payload) {seed' : Seed} {u : UnlockedVault H B W}
    (hu : u.payload.keys = v'.payload.keys) : adjustStatus K seed' u id status = .ok u := by
  have hdone : ¬ (status = some "retired" ∧ statusOf u.payload.keys id = some "active") ∧
      ¬ (status = some "revoked" ∧ statusOf u.payload.keys id ≠ some "revoked") := by
    rw [hu]
    unfold adjustStatus at h
    split at h
    · rename_i hs
      rw [hK.retired h, statusOf_withStatus _ hin, hs.1]
      simp
    · rename_i hret
      split at h
      · rename_i hs
        rw [hK.revoked h, statusOf_withStatus _ hin, hs.1]
        simp
      · rename_i hrev
        cases h
        rw [status_getKey hK] at hret hrev
        exact ⟨hret, hrev⟩
  unfold adjustStatus
  rw [status_getKey hK, if_neg hdone.1, if_neg hdone.2]

end

/-! ## The metadata -/

/-- The payload with the metadata of the key `id`, when there are some. -/
def withLabel (le : String → String → Bool) (shard : String → String) (metadata : Option Json)
    (p : VaultPayload) (id : String) : VaultPayload :=
  match metadata with
  | some value => withExtensionEntry le p (shard id) id value
  | none => p

/-- What `label` does: it seals the payload with the metadata. -/
structure Labels {ε : Type} (L : Ckvf H B W) (le : String → String → Bool) (shard : String → String)
    (metadata : Option Json)
    (label : Seed → UnlockedVault H B W → String → Except ε (UnlockedVault H B W)) : Prop where
  sealed : ∀ {seed v id v'}, label seed v id = .ok v' →
    v'.payload = withLabel le shard metadata v.payload id
  /-- It works again wherever the package takes the extensions. -/
  again : ∀ {seed v id v' seed' u}, label seed v id = .ok v' →
    (metadata ≠ none → ∃ n, L.updateExtensions seed' u
      (withLabel le shard metadata u.payload id).extensions = .ok n) →
    ∃ n, label seed' u id = .ok n

section
variable {le : String → String → Bool} (ho : StringOrder le) {shard : String → String}
  {metadata : Option Json}

theorem withLabel_keys (p : VaultPayload) (id : String) :
    (withLabel le shard metadata p id).keys = p.keys := by
  cases metadata <;> rfl

include ho

/-- Labelling twice is labelling once. -/
theorem withLabel_withLabel (p : VaultPayload) (id : String) :
    withLabel le shard metadata (withLabel le shard metadata p id) id =
      withLabel le shard metadata p id := by
  cases metadata with
  | none => rfl
  | some value =>
    have hle := ho.refl
    have hdata : extensionData (withExtensionEntry le p (shard id) id value) (shard id) =
        (extensionData p (shard id)).insert id value := by
      unfold withExtensionEntry
      rw [extensionData_replace hle, if_pos rfl]
    show withExtensionEntry le (withExtensionEntry le p (shard id) id value) (shard id) id value = _
    rw [withExtensionEntry, hdata, Json.Obj.insert_insert]
    show withExtensions _ (replaceExtension le (replaceExtension le p.extensions _ _) _ _) = _
    rw [replaceExtension_replace ho]
    rfl

end

/-! ## What an import does -/

/-- What may change where the key `id` was there: its status, and the extension `shard` with its
metadata. That extension becomes one object that is not critical, with the entries it had and that
of the key. -/
structure OnlyKeyChanged (le : String → String → Bool) (shard id : String) (metadata : Option Json)
    (p p' : VaultPayload) : Prop where
  rest : p' = { p with keys := p'.keys, extensions := p'.extensions }
  keys : p'.keys = p.keys ∨ ∃ status, p'.keys = withStatus p.keys id status
  unlabelled : metadata = none → p'.extensions = p.extensions
  others : ∀ i, i ≠ shard → p'.extensions.filter (·.id = i) = p.extensions.filter (·.id = i)
  labelled : ∀ value, metadata = some value →
    p'.extensions.filter (·.id = shard) =
      [⟨shard, false, .obj ((extensionData p shard).insert id value)⟩] ∧
    p'.extensions.Pairwise fun a b => le a.id b.id = true

/-- **The laws of `import_key`**, for a client whose change is `change`. -/
structure ImportSpec {ε M : Type} (K : KeyOps H B W) (L : Ckvf H B W)
    (le : String → String → Bool) (shard : String → String) (toJson : M → Json)
    (change : Seed → KeyImport → Option M → Option String → UnlockedVault H B W →
      Except ε (UnlockedVault H B W × String)) : Prop where
  returned : ∀ {seed a m status v next id}, change seed a m status v = .ok (next, id) →
    id ∈ keyIds next.payload
  again : ∀ {seed a m status v next id seed' next' id'}, change seed a m status v = .ok (next, id) →
    change seed' a m status next = .ok (next', id') →
      id' = id ∧ next'.payload.keys = next.payload.keys ∧
        next'.payload.preferredKeys = next.payload.preferredKeys ∧
        next'.payload.extensions = next.payload.extensions
  /-- The second import succeeds too, unless the package does not seal the unchanged extensions. -/
  again_ok : ∀ {seed a m status v next id seed'}, change seed a m status v = .ok (next, id) →
    (m ≠ none → ∃ n, L.updateExtensions seed' next next.payload.extensions = .ok n) →
      ∃ next', change seed' a m status next = .ok (next', id)
  only : ∀ {seed a m status v next id id'}, change seed a m status v = .ok (next, id) →
    K.canonicalKeyId a = .ok id' → id' ∈ keyIds v.payload →
      id = id' ∧ OnlyKeyChanged le (shard id) id (m.map toJson) v.payload next.payload
  forward : ∀ {v v'}, Relation.ReflTransGen
      (fun v v' => ∃ seed a m status id, change seed a m status v = .ok (v', id)) v v' →
    Advances v.payload.keys v'.payload.keys

section
variable {ε : Type} {conv : CkvfError → ε} {K : KeyOps H B W} {L : Ckvf H B W} (hK : ImportLaws K L)
  {le : String → String → Bool} (ho : StringOrder le) {shard : String → String}
  {metadata : Option Json}
  {label : Seed → UnlockedVault H B W → String → Except ε (UnlockedVault H B W)}
  (hlabel : Labels L le shard metadata label) {seed : Seed} {a : KeyImport} {status : Option String}
  {v next : UnlockedVault H B W} {id : String}
include hlabel

/-- The three steps of an import. -/
theorem importChange_ok (h : importChange conv K seed a status (label seed) v = .ok (next, id)) :
    ∃ v₁ v₂, importOrFind K seed v a = .ok (v₁, id) ∧ adjustStatus K seed v₁ id status = .ok v₂ ∧
      label seed v₂ id = .ok next ∧ next.payload = withLabel le shard metadata v₂.payload id := by
  obtain ⟨⟨v₁, id₁⟩, h₁, h⟩ := ok_of_bind h
  obtain ⟨v₂, h₂, h⟩ := ok_of_bind h
  obtain ⟨v₃, h₃, h⟩ := ok_of_bind h
  cases h
  exact ⟨v₁, v₂, ok_of_mapError h₁, ok_of_mapError h₂, h₃, hlabel.sealed h₃⟩

include hK

/-- Its effect on the records. -/
theorem importChange_keys (h : importChange conv K seed a status (label seed) v = .ok (next, id)) :
    K.canonicalKeyId a = .ok id ∧ id ∈ keyIds next.payload ∧
      Advances v.payload.keys next.payload.keys := by
  obtain ⟨v₁, v₂, h₁, h₂, -, hnext⟩ := importChange_ok hlabel h
  obtain ⟨hid, hin, -, hadv₁⟩ := importOrFind_ok hK h₁
  obtain ⟨ks, hv₂, hadv₂, hks⟩ := adjustStatus_ok hK h₂
  have hkeys : next.payload.keys = ks := by
    rw [hnext, withLabel_keys, hv₂]
  refine ⟨hid, ?_, ?_⟩
  · unfold keyIds at hin ⊢
    rw [hkeys]
    rcases hks with rfl | ⟨s, rfl⟩
    · exact hin
    · rw [withStatus_ids]
      exact hin
  · rw [hkeys]
    exact hadv₁.trans hadv₂

include ho

/-- The import made again: the record is found, and nothing is adjusted. -/
theorem importChange_again {seed' : Seed}
    (h : importChange conv K seed a status (label seed) v = .ok (next, id)) :
    importChange conv K seed' a status (label seed') next =
        ((label seed' next id).map fun n => (n, id)) ∧
      withLabel le shard metadata next.payload id = next.payload := by
  obtain ⟨v₁, v₂, h₁, h₂, -, hnext⟩ := importChange_ok hlabel h
  obtain ⟨hid, hin, -⟩ := importChange_keys hK hlabel h
  obtain ⟨-, hin₁, -⟩ := importOrFind_ok hK h₁
  have hfound : importOrFind K seed' next a = .ok (next, id) := importOrFind_present hK hid hin
  have hdone : adjustStatus K seed' next id status = .ok next := by
    apply adjustStatus_again hK h₂ hin₁
    rw [hnext, withLabel_keys]
  constructor
  · unfold importChange
    rw [hfound]
    show (adjustStatus K seed' next id status).mapError conv >>= _ = _
    rw [hdone]
    show (label seed' next id >>= fun v => Except.ok (v, id)) = _
    cases label seed' next id <;> rfl
  · rw [hnext, withLabel_withLabel ho]

/-- What changes where the key was there. -/
theorem importChange_only {id' : String}
    (h : importChange conv K seed a status (label seed) v = .ok (next, id))
    (hid' : K.canonicalKeyId a = .ok id') (hin : id' ∈ keyIds v.payload) :
    id = id' ∧ OnlyKeyChanged le (shard id) id metadata v.payload next.payload := by
  obtain ⟨v₁, v₂, h₁, h₂, -, hnext⟩ := importChange_ok hlabel h
  obtain ⟨hid, -, hsame, -⟩ := importOrFind_ok hK h₁
  obtain ⟨ks, hv₂, -, hks⟩ := adjustStatus_ok hK h₂
  rw [hid] at hid'
  cases hid'
  obtain rfl := hsame hin
  -- the key is there already, so only its label and its status may change
  have hle := ho.refl
  refine ⟨rfl, ?_⟩
  rw [hnext, hv₂]
  cases metadata with
  | none =>
    exact {
      rest := rfl
      keys := hks
      unlabelled := fun _ => rfl
      others := fun _ _ => rfl
      labelled := fun value hm => by cases hm }
  | some value =>
    have hdata : ((extensionData { v₁.payload with keys := ks } (shard id)).insert id
        value).isEmpty = false := by
      rw [List.isEmpty_eq_false_iff]
      exact Json.Obj.insert_ne_nil _ _ _
    have htotal : Std.Total fun a b : Extension => le a.id b.id = true :=
      ⟨fun a b => ho.total a.id b.id⟩
    have htrans : IsTrans Extension fun a b => le a.id b.id = true := ⟨fun _ _ _ => ho.trans⟩
    exact {
      rest := rfl
      keys := hks
      unlabelled := fun hm => by cases hm
      others := fun i hi => filter_replace_ne hle _ hi _
      labelled := fun value' hm => by
        cases hm
        refine ⟨?_, List.pairwise_insertionSort _ _⟩
        show (replaceExtension le _ _ _).filter _ = _
        rw [filter_replace_self hle, hdata]
        rfl }

end

/-- **The laws hold of every client** whose `label` seals the metadata. -/
theorem importSpec_of {ε M : Type} {conv : CkvfError → ε} {K : KeyOps H B W} {L : Ckvf H B W}
    (hK : ImportLaws K L) {le : String → String → Bool} (ho : StringOrder le)
    {shard : String → String} {toJson : M → Json}
    {label : Option M → Seed → UnlockedVault H B W → String → Except ε (UnlockedVault H B W)}
    (hlabel : ∀ m, Labels L le shard (m.map toJson) (label m))
    {change : Seed → KeyImport → Option M → Option String → UnlockedVault H B W →
      Except ε (UnlockedVault H B W × String)}
    (hchange : ∀ seed a m status v, change seed a m status v =
      importChange conv K seed a status (label m seed) v) :
    ImportSpec K L le shard toJson change where
  returned h := by
    rw [hchange] at h
    exact (importChange_keys hK (hlabel _) h).2.1
  again {seed a m status v next id seed' next' id'} h h' := by
    -- a second import changes the label at most
    rw [hchange] at h h'
    obtain ⟨hagain, hsame⟩ := importChange_again hK ho (hlabel m) h
    rw [hagain] at h'
    cases hl : label m seed' next id with
    | error e =>
      rw [hl] at h'
      cases h'
    | ok n =>
      rw [hl] at h'
      cases h'
      rw [(hlabel m).sealed hl, hsame]
      exact ⟨rfl, rfl, rfl, rfl⟩
  again_ok {seed a m status v next id seed'} h hok := by
    rw [hchange] at h
    obtain ⟨hagain, hsame⟩ := importChange_again hK ho (hlabel m) h
    obtain ⟨v₁, v₂, -, -, hl, -⟩ := importChange_ok (hlabel m) h
    -- the second label is written where the first one was
    have hsealed : ∃ n, label m seed' next id = .ok n := by
      apply (hlabel m).again hl
      intro hm
      rw [hsame]
      exact hok fun hnone => hm (by rw [hnone]; rfl)
    obtain ⟨n, hn⟩ := hsealed
    refine ⟨n, ?_⟩
    rw [hchange, hagain, hn]
    rfl
  only h hid hin := by
    rw [hchange] at h
    exact importChange_only hK ho (hlabel _) h hid hin
  forward h := by
    induction h with
    | refl => exact .refl _
    | tail _ h ih =>
      obtain ⟨seed, a, m, status, id, h⟩ := h
      rw [hchange] at h
      exact ih.trans (importChange_keys hK (hlabel m) h).2.2

/-! ## The clients -/

namespace Rust

/-- `key_meta_extension_id`: the shard by the first byte. -/
def keyMetaExtensionId (absoluteKeyId : String) : String :=
  let c := absoluteKeyId.toUTF8.toList.head?.getD 0
  keyMetaExtensionPrefix ++ String.ofList (Nat.toDigits 16 (c.toNat % 16))

theorem setMeta_labels {K : KeyOps H B W} {L : Ckvf H B W} (hK : ImportLaws K L)
    (metadata : Option Json) :
    Labels L codePointLe keyMetaExtensionId metadata fun seed v id =>
      match metadata with
      | some metadata => setMeta L seed v id metadata
      | none => pure v where
  sealed {seed v id v'} h := by
    cases metadata with
    | none =>
      cases h
      rfl
    | some value => exact hK.updated (ok_of_mapError h)
  again {seed v id v' seed' u} _ hok := by
    cases metadata with
    | none => exact ⟨u, rfl⟩
    | some value =>
      obtain ⟨n, hn⟩ := hok (by simp)
      refine ⟨n, ?_⟩
      show (L.updateExtensions seed' u _).mapError VaultClientError.ofCkvf = .ok n
      exact congrArg (Except.mapError VaultClientError.ofCkvf) hn

end Rust

namespace Dart

/-- `keyMetaExtensionId`: the shard by the first code unit. -/
def keyMetaExtensionId (absoluteKeyId : String) : String :=
  let c := (absoluteKeyId.toList.flatMap utf16).head?.getD 0
  keyMetaExtensionPrefix ++ String.ofList (Nat.toDigits 16 (c % 16))

theorem setMeta_eq (L : Ckvf H B W) (seed : Seed) (v : UnlockedVault H B W) (id : String)
    (metadata : Json.Obj) : setMeta L seed v id metadata =
      match (id.toList.flatMap utf16).head? with
      | none => .error (.state "RangeError")
      | some _ => (L.updateExtensions seed v (withLabel utf16Le keyMetaExtensionId
          (some (.obj metadata)) v.payload id).extensions).mapError .ckvf := by
  unfold setMeta withLabel keyMetaExtensionId
  cases (id.toList.flatMap utf16).head? <;> rfl

theorem setMeta_labels {K : KeyOps H B W} {L : Ckvf H B W} (hK : ImportLaws K L)
    (metadata : Option Json.Obj) :
    Labels L utf16Le keyMetaExtensionId (metadata.map Json.obj) fun seed v id =>
      match metadata with
      | some metadata => setMeta L seed v id metadata
      | none => pure v where
  sealed {seed v id v'} h := by
    cases metadata with
    | none =>
      cases h
      rfl
    | some value =>
      simp only [setMeta_eq] at h
      split at h
      · cases h
      · exact hK.updated (ok_of_mapError h)
  again {seed v id v' seed' u} h hok := by
    cases metadata with
    | none => exact ⟨u, rfl⟩
    | some value =>
      obtain ⟨n, hn⟩ := hok (by simp)
      refine ⟨n, ?_⟩
      simp only [setMeta_eq] at h ⊢
      split at h
      · cases h
      · exact congrArg (Except.mapError VaultException.ckvf) hn

section
variable {T : Trans H B W γ} {fails : VaultCall H B W → Device H B W × γ → Prop}
  (hT : Answers T fails) {d : Device H B W} {g : γ} {s : Device H B W × γ}
  {tr : List (Event (vaultIface H B W))} {K : KeyOps H B W} {L : Ckvf H B W} [DecidableEq H]
include hT

/-- An import that returns an id has made its change; without a push the result is the open
vault. -/
theorem importKey_spec {cfg : Config} {seed : Seed} {a : KeyImport} {metadata : Option Json.Obj}
    {status : Option String} {push : Bool} {v : UnlockedVault H B W} {id : String}
    (hv : d.vault = some v)
    (h : Progress T (importKey K L cfg seed a metadata status push) (d, g) tr
    (.ofExcept (.ok id)) s) :
    ∃ next, importKeyChange K L seed a metadata status v = .ok (next, id) ∧
      (push = false → s.1.vault = some next) := by
  unfold importKey at h
  split at h
  · obtain ⟨hr, -⟩ := Progress.of_raise h
    cases hr
  · obtain ⟨tr₁, h⟩ := of_vault hT hv h
    cases hc : importKeyChange K L seed a metadata status v with
    | error e =>
      rw [hc] at h
      obtain ⟨hr, -⟩ := Progress.of_raise h
      cases hr
    | ok next =>
      rw [hc] at h
      rcases of_persist hT h with ⟨tr₂, h⟩ | ⟨⟨e, hr⟩, -⟩
      · cases push with
        | false =>
          obtain ⟨hr, hs⟩ := Progress.of_ret h
          cases hr
          refine ⟨next.1, rfl, fun _ => ?_⟩
          rw [hs]
          rfl
        | true =>
          rcases Progress.of_bind_ofExcept h with ⟨e, -, hr⟩ | ⟨b, tr₃, tr₄, s₁, -, -, h⟩
          · cases hr
          · obtain ⟨hr, -⟩ := Progress.of_ret h
            cases hr
            exact ⟨next.1, rfl, fun hp => by cases hp⟩
      · cases hr

end

end Dart

/-! ## Both clients -/

section
variable (K : KeyOps H B W) (L : Ckvf H B W) [DecidableEq H]

/-- A run of `import_key` that returns an id makes the change `change` of the open vault; without a
push its result is the open vault then. -/
def RunsChange {ε : Type} (prog : Bool → Prog (vaultIface H B W) ε String)
    (change : UnlockedVault H B W → Except ε (UnlockedVault H B W × String)) : Prop :=
  ∀ (γ : Type) (R : Remote H B W γ) (ok : Trans H B W γ) (push : Bool)
      (s s' : Device H B W × γ) tr v id,
    s.1.vault = some v →
    Progress ((vaultEnv R).Allowed ok) (prog push) s tr (.ofExcept (.ok id)) s' →
      ∃ next, change v = .ok (next, id) ∧ (push = false → s'.1.vault = some next)

/-- **`import_key` is idempotent and monotone**, in both clients. -/
theorem import_key_laws (hK : ImportLaws K L) :
    (ImportSpec K L codePointLe Rust.keyMetaExtensionId (fun m => m) (Rust.importKeyChange K L) ∧
      ∀ binding seed a metadata status, RunsChange
        (Rust.importKey K L binding seed a metadata status)
        (Rust.importKeyChange K L seed a metadata status)) ∧
    ImportSpec K L utf16Le Dart.keyMetaExtensionId Json.obj (Dart.importKeyChange K L) ∧
      ∀ cfg seed a metadata status, RunsChange
        (Dart.importKey K L cfg seed a metadata status)
        (Dart.importKeyChange K L seed a metadata status) := by
  refine ⟨⟨?_, ?_⟩, ?_, ?_⟩
  · apply importSpec_of hK codePointLe_order _ fun _ _ _ _ _ => rfl
    intro m
    rw [Option.map_id']
    exact Rust.setMeta_labels hK m
  · intro binding seed a metadata status γ R ok push s s' tr v id hv h
    have hT : Answers ((vaultEnv R).Allowed ok) fun _ _ => True :=
      answers_vaultEnv (fun _ => trivial) (fun _ => trivial)
    rcases Rust.commitSetting_spec hT L hv h with ⟨next, hc, -, hr, hvault⟩ | ⟨-, ⟨e, hr⟩, -⟩
    · cases hr
      exact ⟨next.1, hc, hvault⟩
    · cases hr
  · apply importSpec_of hK utf16Le_order _ fun _ _ _ _ _ => rfl
    intro m
    exact Dart.setMeta_labels hK m
  · intro cfg seed a metadata status γ R ok push s s' tr v id hv h
    have hT : Answers ((vaultEnv R).Allowed ok) fun _ _ => True :=
      answers_vaultEnv (fun _ => trivial) (fun _ => trivial)
    exact Dart.importKey_spec hT hv h

end

/-! ## A shard that was critical -/

section
open Ckvf.Symbolic

theorem import_key_laws_symbolic :
    (ImportSpec symbolicKeys symbolic codePointLe Rust.keyMetaExtensionId (fun m => m)
        (Rust.importKeyChange symbolicKeys symbolic) ∧
      ∀ binding seed a metadata status, RunsChange
        (Rust.importKey symbolicKeys symbolic binding seed a metadata status)
        (Rust.importKeyChange symbolicKeys symbolic seed a metadata status)) ∧
    ImportSpec symbolicKeys symbolic utf16Le Dart.keyMetaExtensionId Json.obj
        (Dart.importKeyChange symbolicKeys symbolic) ∧
      ∀ cfg seed a metadata status, RunsChange
        (Dart.importKey symbolicKeys symbolic cfg seed a metadata status)
        (Dart.importKeyChange symbolicKeys symbolic seed a metadata status) :=
  import_key_laws symbolicKeys symbolic import_laws

def smimeKey : KeyImport := ⟨"smime", "pkcs8", "Ed25519", ["sign"], [1], [65], none⟩

def smimeLabel : Json := .obj [("v", .num 1)]

/-- A vault with that key, whose metadata are in a critical extension. -/
def criticalShard : Symbolic.Vault :=
  { Rust.emptyVault with payload := { Rust.emptyVault.payload with
      keys := [⟨"A", "active", .null⟩]
      extensions := [⟨"priv:scomm.keys.1", true, .obj [("A", smimeLabel)]⟩]
      criticalExtensions := ["priv:scomm.keys.1"] } }

/-- The import of the key that is there, with the metadata it has, changes more than them and its
status. -/
theorem import_rewrites_shard : ∃ next,
    Rust.importKeyChange symbolicKeys symbolic 1 smimeKey (some smimeLabel) none criticalShard =
      .ok (next, "A") ∧ "A" ∈ keyIds criticalShard.payload ∧
    next.payload.keys = criticalShard.payload.keys ∧
    extensionData next.payload "priv:scomm.keys.1" =
      extensionData criticalShard.payload "priv:scomm.keys.1" ∧
    next.payload.extensions ≠ criticalShard.payload.extensions := by
  have hrun : ∃ next, Rust.importKeyChange symbolicKeys symbolic 1 smimeKey (some smimeLabel) none
      criticalShard = .ok (next, "A") ∧ next.payload.keys = criticalShard.payload.keys ∧
      next.payload.extensions = [⟨"priv:scomm.keys.1", false, .obj [("A", smimeLabel)]⟩] :=
    ⟨_, rfl, rfl, by decide +kernel⟩
  obtain ⟨next, hnext, hkeys, hexts⟩ := hrun
  refine ⟨next, hnext, by decide, hkeys, ?_, ?_⟩
  · simp only [extensionData, hexts]
    decide
  · rw [hexts]
    decide

end

end Vault
