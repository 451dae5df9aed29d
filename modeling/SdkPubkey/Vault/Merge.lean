import SdkPubkey.Ckvf.Symbolic
import SdkPubkey.Vault.Env
import SdkPubkey.Vault.Rust
import SdkPubkey.Vault.Dart

/-!
# Merging two generations

Both clients merge with `mergeNormalized` alone, and `Merged` is what a run of it does: the package
merges the two vaults with their `priv:scomm.` extensions put together first.

* `Merged.next`, `Merged.keys`, `Merged.msk`: the result as a generation after the head.
* `Merged.entry`: an entry of the result is the local one, or the head's where there is none.
* `mergeNormalized_oneSided`: when that keeps the changes that one side alone has made.
-/

namespace Vault

open Ckvf Ckvf.Symbolic Lib

variable {H B W : Type} {L : Ckvf H B W}

/-- `m` is `loc` merged onto `head` by `mergeNormalized`. -/
def Merged (L : Ckvf H B W) (head loc : UnlockedVault H B W) (base : Option (UnlockedVault H B W))
    (m : UnlockedVault H B W) : Prop :=
  ∃ le ids seed, (∀ s, le s s = true) ∧ (∀ id, id ∈ ids ↔ id ∈ scommIds head.payload loc.payload) ∧
    L.mergeOnto seed { head with payload := (normalize le ids head.payload loc.payload).1 }
      { loc with payload := (normalize le ids head.payload loc.payload).2 } base = .ok m

/-! ## What `mergeNormalized` does -/

section
variable {γ : Type} {T : Trans H B W γ} {head loc m : UnlockedVault H B W}
  {base : Option (UnlockedVault H B W)} {s s' : Device H B W × γ}

theorem runs_ofExcept {ε α : Type} {x : Except ε α} {r : Except ε α}
    (h : Runs (I := vaultIface H B W) T (.ofExcept x) s r s') : r = x ∧ s' = s := by
  cases x with
  | ok a => cases h; exact ⟨rfl, rfl⟩
  | error e => cases h; exact ⟨rfl, rfl⟩

theorem Rust.merged_of_runs
    (h : Runs (I := vaultIface H B W) T (Rust.mergeNormalized L head loc) s (.ok m) s') :
    Merged L head loc none m := by
  cases h with
  | @call _ _ _ _ _ seed _ _ hr =>
    refine ⟨codePointLe, _, seed, codePointLe_refl, fun id => ?_,
      ok_of_mapError (runs_ofExcept hr).1.symm⟩
    exact List.mem_insertionSort _

theorem Dart.merged_of_runs
    (h : Runs (I := vaultIface H B W) T (Dart.mergeNormalized L head loc base) s (.ok m) s') :
    Merged L head loc base m := by
  cases h with
  | @call _ _ _ _ _ seed _ _ hr =>
    exact ⟨utf16Le, _, seed, utf16Le_refl, fun _ => Iff.rfl,
      ok_of_mapError (runs_ofExcept hr).1.symm⟩

end

/-! ## What a merge is -/

namespace Merged

variable {head loc m : UnlockedVault H B W} {base : Option (UnlockedVault H B W)}

theorem next {S : Seal H B W} (hL : Sealing L S) (h : Merged L head loc base m)
    (hh : S.Valid head.container) (hl : S.Valid loc.container) :
    S.Next head m ∧ m.container.vaultId = loc.container.vaultId := by
  obtain ⟨le, ids, seed, -, -, hm⟩ := h
  obtain ⟨hn, hv⟩ := hL.merged (by exact hh) (by exact hl) hm
  exact ⟨⟨hn.isSealed, hn.vaultId, hn.generation, hn.previous⟩, hv⟩

theorem keys (hL : KeyLaws L) (h : Merged L head loc base m) :
    keyIds head.payload ⊆ keyIds m.payload ∧ keyIds loc.payload ⊆ keyIds m.payload := by
  obtain ⟨le, ids, seed, -, -, hm⟩ := h
  obtain ⟨exts, exts', hn⟩ := normalize_other le ids head.payload loc.payload
  rw [hn] at hm
  have h := hL.merged hm
  exact h

theorem msk (hL : MskLaws L) (h : Merged L head loc base m) :
    mskOf m.payload = mskOf head.payload ∨ mskOf m.payload = mskOf loc.payload := by
  obtain ⟨le, ids, seed, -, -, hm⟩ := h
  obtain ⟨exts, exts', hn⟩ := normalize_other le ids head.payload loc.payload
  rw [hn] at hm
  have h := hL.merged hm
  exact h

end Merged

/-! ## Entries -/

/-- The entry `key` of the extension `id`. -/
def entry (p : VaultPayload) (id key : String) : Option Json := (extensionData p id).get? key

theorem entry_congr {p q : VaultPayload} (h : p.extensions = q.extensions) (id key : String) :
    entry p id key = entry q id key := by
  have hdata : extensionData p id = extensionData q id := extensionData_congr (by rw [h])
  unfold entry
  rw [hdata]

theorem entry_withEntry {le : String → String → Bool} (hle : ∀ s, le s s = true) (p : VaultPayload)
    (id key : String) (value : Json) (id' key' : String) :
    entry (withExtensionEntry le p id key value) id' key' =
      if id' = id ∧ key = key' then some value else entry p id' key' := by
  unfold entry withExtensionEntry
  rw [extensionData_replace hle]
  by_cases hid : id' = id
  · subst hid
    rw [if_pos rfl, Json.Obj.get?_insert]
    by_cases hk : key = key'
    · rw [if_pos hk, if_pos ⟨rfl, hk⟩]
    · rw [if_neg hk, if_neg fun h => hk h.2]
  · rw [if_neg hid, if_neg fun h => hid h.1]

theorem extensionData_of_notMem {p : VaultPayload} {id : String}
    (h : ∀ e ∈ p.extensions, e.id ≠ id) : extensionData p id = [] := by
  rw [extensionData_filter]
  have hf : p.extensions.filter (·.id = id) = [] := by simpa [List.filter_eq_nil_iff] using h
  simp [hf]

/-- **An entry of a merge is the local one, or the head's where the local vault has none.** -/
theorem Merged.entry (hL : ExtensionLaws L) {head loc m : UnlockedVault H B W}
    {base : Option (UnlockedVault H B W)} (h : Merged L head loc base m) {id : String}
    (hid : startsWith id "priv:scomm." = true) (key : String) :
    Vault.entry m.payload id key =
      (Vault.entry loc.payload id key).or (Vault.entry head.payload id key) := by
  obtain ⟨le, ids, seed, hle, hids, hm⟩ := h
  by_cases hin : id ∈ ids
  · have halike := normalize_alike hle head.payload loc.payload hin
    have hext := hL.merged hm halike
    simp only [Vault.entry]
    rw [extensionData_congr hext, normalize_data hle _ _ hin, Json.Obj.get?_union]
  · -- no side has the extension, so the merge has none
    have hn : ∀ e, e ∈ head.payload.extensions ∨ e ∈ loc.payload.extensions → e.id ≠ id := by
      intro e he heq
      exact hin ((hids id).2 (mem_scommIds.2 ⟨hid, e, he, heq⟩))
    have hhead := extensionData_of_notMem fun e he => hn e (.inl he)
    have hloc := extensionData_of_notMem fun e he => hn e (.inr he)
    have hnil : ∀ l : List Extension, (∀ e ∈ l, e.id ≠ id) → l.filter (·.id = id) = [] :=
      fun l hl => by simpa [List.filter_eq_nil_iff] using hl
    obtain ⟨hf1, hf2⟩ := normalize_filter hle ids head.payload loc.payload id
    simp only [hin, ↓reduceIte] at hf1 hf2
    have hext := hL.merged hm
      (hf1.trans ((hnil _ fun e he => hn e (.inl he)).trans
        ((hnil _ fun e he => hn e (.inr he)).symm.trans hf2.symm)))
    simp only [Vault.entry]
    rw [extensionData_congr (hext.trans hf1), hhead, hloc]
    rfl

/-! ## Changes of one side -/

/-- A metadata edit of either client: of a key, of the devices or of the security identities. -/
inductive MetaEdit (L : Ckvf H B W) (v v' : UnlockedVault H B W) : Prop
  | rustMeta (seed : Seed) (key : String) (value : Json)
      (h : Rust.setMeta L seed v key value = .ok v')
  | dartMeta (seed : Seed) (key : String) (value : Json.Obj)
      (h : Dart.setMeta L seed v key value = .ok v')
  | rustDevice (seed : Seed) (device : VaultDevice) (kek : Bytes) (slotId ts : String)
      (h : Rust.withDevice L seed v device kek slotId ts = .ok v')
  | dartDevice (seed : Seed) (device : VaultDevice) (kek : Bytes) (slotId ts : String)
      (h : Dart.withDevice L seed v device kek slotId ts = .ok v')
  | removeDevice (seed : Seed) (slotId : String)
      (h : Dart.removeDeviceChange L seed v slotId = .ok v')
  | securityIdentities (seed : Seed) (doc : Json.Obj)
      (h : Dart.setSecurityIdentities L seed v doc = .ok v')

/-- `v` is `base` after any number of metadata edits. -/
def MetaEdits (L : Ckvf H B W) (base v : UnlockedVault H B W) : Prop :=
  Relation.ReflTransGen (MetaEdit L) base v

/-- Every entry under `priv:scomm.` that exactly one side has changed, added or removed since `base`
is in `m` as that side has it. -/
def KeepsOneSided (base head loc m : VaultPayload) : Prop :=
  ∀ id key, startsWith id "priv:scomm." = true →
    (entry loc id key = entry base id key → entry head id key ≠ entry base id key →
      entry m id key = entry head id key) ∧
    (entry head id key = entry base id key → entry loc id key ≠ entry base id key →
      entry m id key = entry loc id key)

/-- No entry of `base` is changed or removed on the head alone, and none removed locally alone. -/
def OnlyLocalRewrites (base head loc : VaultPayload) : Prop :=
  ∀ id key, startsWith id "priv:scomm." = true → entry base id key ≠ none →
    (entry loc id key = entry base id key → entry head id key = entry base id key) ∧
    (entry head id key = entry base id key → entry loc id key ≠ none)

/-- One entry, old, new on the head and local: its merge keeps a change of one side. -/
theorem or_oneSided {α : Type} (old new own : Option α) :
    ((own = old → new ≠ old → own.or new = new) ∧ (new = old → own ≠ old → own.or new = own)) ↔
      (old ≠ none → (own = old → new = old) ∧ (new = old → own ≠ none)) := by
  cases old with
  | none => cases own <;> cases new <;> simp
  | some x =>
    cases own with
    | none => cases new <;> simp [eq_comm]
    | some y =>
      simp only [Option.some_or]
      grind

/-- **When a merge keeps the changes of one side**: exactly when the head alone changed or removed
no entry of the base, and the local vault alone removed none. -/
theorem mergeNormalized_oneSided (hL : ExtensionLaws L) {γ : Type} {T : Trans H B W γ}
    {head loc m : UnlockedVault H B W} {s s' : Device H B W × γ} (base : VaultPayload)
    (h : Runs (I := vaultIface H B W) T (Rust.mergeNormalized L head loc) s (.ok m) s' ∨
      ∃ b, Runs (I := vaultIface H B W) T (Dart.mergeNormalized L head loc b) s (.ok m) s') :
    KeepsOneSided base head.payload loc.payload m.payload ↔
      OnlyLocalRewrites base head.payload loc.payload := by
  obtain ⟨b, hm⟩ : ∃ b, Merged L head loc b m := by
    obtain h | ⟨b, h⟩ := h
    · exact ⟨none, Rust.merged_of_runs h⟩
    · exact ⟨b, Dart.merged_of_runs h⟩
  unfold KeepsOneSided OnlyLocalRewrites
  refine forall_congr' fun id => forall_congr' fun key => forall_congr' fun hid => ?_
  rw [hm.entry hL hid key]
  exact or_oneSided _ _ _

/-- A vault with metadata for one key. -/
def labelled : Vault :=
  openAs (mkContainer "vault" 1 none [] ⟨[], ⟨⟨"me", .null⟩, ⟨edKey 0 0, []⟩, [], [], .null, [],
    [⟨"priv:scomm.keys.1", false, .obj [("a", .str "old")]⟩], []⟩, 0, []⟩)

/-- `labelled` with another name for the key. -/
def relabelled : Vault :=
  match Rust.setMeta symbolic 1 labelled "a" (.str "new") with
  | .ok v => v
  | .error _ => labelled

theorem mergeNormalized_oneSided_relabelled : ∃ m,
    Merged symbolic labelled relabelled none m ∧
      (KeepsOneSided labelled.payload labelled.payload relabelled.payload m.payload ↔
        OnlyLocalRewrites labelled.payload labelled.payload relabelled.payload) := by
  have hrun : ∃ m, Runs (I := vaultIface Digest Body Wrap) (fun _ _ _ _ => True)
      (Rust.mergeNormalized symbolic labelled relabelled)
      (({}, ()) : Device Digest Body Wrap × Unit)
      (.ok m) ({}, ()) := ⟨_, @Runs.call _ _ _ _ _ _ _ _ ({}, ()) _ (3 : Seed) _ trivial .ret⟩
  obtain ⟨m, hm⟩ := hrun
  exact ⟨m, Rust.merged_of_runs hm,
    mergeNormalized_oneSided extension_laws labelled.payload (.inl hm)⟩

/-- The head has renamed the key; an unrelated local edit puts the old name back. -/
theorem mergeNormalized_overwrites : ∃ head loc m : Vault,
    MetaEdits symbolic labelled head ∧ MetaEdits symbolic labelled loc ∧
      Merged symbolic head loc none m ∧
      ¬ KeepsOneSided labelled.payload head.payload loc.payload m.payload := by
  refine ⟨_, _, _, .single (.rustMeta 1 "a" (.str "new") rfl),
    .single (.rustMeta 2 "b" (.str "mine") rfl),
    ⟨codePointLe, _, 3, codePointLe_refl, fun _ => Iff.rfl, rfl⟩, fun h => ?_⟩
  exact absurd ((h "priv:scomm.keys.1" "a" (by decide)).1 (by decide +kernel) (by decide +kernel))
    (by decide +kernel)

end Vault
