import Mathlib.Data.List.Forall2
import SdkPubkey.Ckvf.Symbolic
import SdkPubkey.Vault.Merge
import SdkPubkey.Vault.Proof.Import

/-!
# Key metadata is a map

`set_meta` and `key_meta` of `crates/scomm-vault/src/key_vault.rs`. The metadata of a key is an
entry of the extension of its shard. After a write the extensions are ordered by their ids, so that
they are determined by the extension under each id (`forall₂_of_filter`), and the laws of a map
follow from what a replacement does to the extension under one id.

`keyMeta_lawful`: a write is read back, leaves everything else as it is, and writes of different
keys commute.
-/

namespace Vault

open Ckvf Json Lib

variable {H B W : Type}

/-! ## Extensions by their ids -/

/-- The ids are in order, and each is there once. -/
def IdsOrdered (le : String → String → Bool) (exts : List Extension) : Prop :=
  exts.Pairwise fun a b => le a.id b.id = true ∧ a.id ≠ b.id

section
variable {le : String → String → Bool}

theorem IdsOrdered.nodup {exts : List Extension} (h : IdsOrdered le exts) :
    (exts.map (·.id)).Nodup :=
  List.pairwise_map.2 (h.imp fun hab => hab.2)

/-- Of an ordered list, only its head has the id of the head. -/
theorem IdsOrdered.filter_head {e : Extension} {exts : List Extension}
    (h : IdsOrdered le (e :: exts)) :
    exts.filter (·.id = e.id) = [] := by
  rw [List.filter_eq_nil_iff]
  intro a ha
  have hne := ((List.pairwise_cons.1 h).1 a ha).2
  simpa using hne.symm

/-- A head without a counterpart comes after the other head. -/
theorem IdsOrdered.le_head {R : Extension → Extension → Prop} {a b : Extension}
    {l l' : List Extension} (hl' : IdsOrdered le (b :: l')) (hne : b.id ≠ a.id)
    (h : List.Forall₂ R ((a :: l).filter (·.id = a.id)) ((b :: l').filter (·.id = a.id))) :
    le b.id a.id = true := by
  rw [List.filter_cons_of_pos (by simp), List.filter_cons_of_neg (by simpa using hne)] at h
  cases hf : l'.filter (·.id = a.id) with
  | nil =>
    rw [hf] at h
    cases h
  | cons c cs =>
    have hc : c ∈ l'.filter (·.id = a.id) := by rw [hf]; exact List.mem_cons_self
    rw [List.mem_filter, decide_eq_true_eq] at hc
    rw [← hc.2]
    exact ((List.pairwise_cons.1 hl').1 c hc.1).1

/-- Ordered lists are related one by one if they are under each id. -/
theorem forall₂_of_filter (ho : StringOrder le) {R : Extension → Extension → Prop}
    {l l' : List Extension} (hl : IdsOrdered le l) (hl' : IdsOrdered le l')
    (h : ∀ id, List.Forall₂ R (l.filter (·.id = id)) (l'.filter (·.id = id))) :
    List.Forall₂ R l l' := by
  induction l generalizing l' with
  | nil =>
    cases l' with
    | nil => exact .nil
    | cons b l' =>
      have hb := h b.id
      rw [List.filter_cons_of_pos (by simp)] at hb
      cases hb
  | cons a l ih =>
    cases l' with
    | nil =>
      have ha := h a.id
      rw [List.filter_cons_of_pos (by simp)] at ha
      cases ha
    | cons b l' =>
      -- equal groups begin with the same id, so the lists do
      have hid : b.id = a.id := by
        by_contra hne
        have hba := hl'.le_head hne (h a.id)
        have hflip : List.Forall₂ (fun x y => R y x) ((b :: l').filter (·.id = b.id))
            ((a :: l).filter (·.id = b.id)) := (h b.id).flip
        have hab := hl.le_head (Ne.symm hne) hflip
        exact hne (ho.antisymm hba hab)
      have hhead := h a.id
      have hnil := hl'.filter_head
      rw [hid] at hnil
      rw [List.filter_cons_of_pos (by simp), List.filter_cons_of_pos (by simpa using hid),
        hl.filter_head, hnil] at hhead
      refine .cons (List.forall₂_cons.1 hhead).1
          (ih (List.pairwise_cons.1 hl).2 (List.pairwise_cons.1 hl').2 ?_)
      intro id
      -- the group of that id is without its first element on both sides
      by_cases he : a.id = id
      · rw [← he, hl.filter_head, hnil]
        exact .nil
      · have hrest := h id
        rw [List.filter_cons_of_neg (by simpa using he),
          List.filter_cons_of_neg (by simpa using hid.trans_ne he)] at hrest
        exact hrest

/-- A replacement puts the ids in order. -/
theorem replaceExtension_ordered (ho : StringOrder le) {exts : List Extension}
    (hu : (exts.map (·.id)).Nodup) (id : String) (data : Obj) :
    IdsOrdered le (replaceExtension le exts id data) := by
  have htotal : Std.Total fun a b : Extension => le a.id b.id = true :=
    ⟨fun a b => ho.total a.id b.id⟩
  have htrans : IsTrans Extension fun a b => le a.id b.id = true := ⟨fun _ _ _ => ho.trans⟩
  have hkept : ((exts.filter fun e => e.id ≠ id).map (·.id)).Nodup :=
    hu.sublist (List.filter_sublist.map _)
  have hout : ((if data.isEmpty then exts.filter fun e => e.id ≠ id
      else (exts.filter fun e => e.id ≠ id) ++ [⟨id, false, .obj data⟩]).map (·.id)).Nodup := by
    split
    · exact hkept
    · rw [List.map_append, List.map_singleton, List.nodup_append]
      refine ⟨hkept, List.nodup_singleton _, ?_⟩
      intro x hx y hy
      obtain ⟨e, he, rfl⟩ := List.mem_map.1 hx
      rw [List.mem_singleton.1 hy]
      simpa using (List.mem_filter.1 he).2
  have hsorted := List.pairwise_insertionSort (fun a b : Extension => le a.id b.id = true)
    (if data.isEmpty then exts.filter fun e => e.id ≠ id
      else (exts.filter fun e => e.id ≠ id) ++ [⟨id, false, .obj data⟩])
  have hnodup := ((List.perm_insertionSort (fun a b : Extension => le a.id b.id = true) _).map
    (·.id)).nodup_iff.2 hout
  exact hsorted.and (List.pairwise_map.1 hnodup)

end

/-! ## An entry under one id -/

section
variable {le : String → String → Bool} (hle : ∀ s, le s s = true) (p : VaultPayload)
    (id key : String)
  (value : Json)
include hle

theorem extensionsOf_entry_self :
    extensionsOf (withExtensionEntry le p id key value) id =
      [⟨id, false, .obj ((extensionData p id).insert key value)⟩] := by
  unfold extensionsOf withExtensionEntry withExtensions
  rw [filter_replace_self hle, if_neg]
  rw [List.isEmpty_iff]
  exact Obj.insert_ne_nil _ _ _

theorem extensionsOf_entry_ne {id' : String} (h : id' ≠ id) :
    extensionsOf (withExtensionEntry le p id key value) id' = extensionsOf p id' :=
  filter_replace_ne hle _ h _

theorem extensionData_entry (id' : String) :
    extensionData (withExtensionEntry le p id key value) id' =
      if id' = id then (extensionData p id).insert key value else extensionData p id' :=
  extensionData_replace hle p id id' _

end

/-! ## Equal values -/

/-- Values that are equal; the entries of an object have no order. -/
def SameData (a b : Json) : Prop :=
  a = b ∨ ∃ m n, a = .obj m ∧ b = .obj n ∧ ∀ k, Obj.get? m k = Obj.get? n k

def SameExtension (a b : Extension) : Prop := a.id = b.id ∧ a.critical = b.critical ∧
    SameData a.data b.data

theorem SameExtension.refl (e : Extension) : SameExtension e e := ⟨rfl, rfl, .inl rfl⟩

/-- Payloads that are equal as values of JSON: they differ at most in the order of the entries of an
extension's object. -/
def SamePayload (p q : VaultPayload) : Prop :=
  ∃ exts, q = { p with extensions := exts } ∧ List.Forall₂ SameExtension p.extensions exts

/-- Ordered extensions that are equal under each id are equal. -/
theorem samePayload_of_extensionsOf {le : String → String → Bool} (ho : StringOrder le)
    {p q : VaultPayload} (hp : IdsOrdered le p.extensions) (hq : IdsOrdered le q.extensions)
    (hrest : q = { p with extensions := q.extensions })
    (h : ∀ id, List.Forall₂ SameExtension (extensionsOf p id) (extensionsOf q id)) :
    SamePayload p q :=
  ⟨q.extensions, hrest, forall₂_of_filter ho hp hq h⟩

section
variable {le : String → String → Bool} (ho : StringOrder le) {p : VaultPayload}
  (hu : (p.extensions.map (·.id)).Nodup)
include ho hu

theorem entry_ordered (id key : String) (value : Json) :
    IdsOrdered le (withExtensionEntry le p id key value).extensions :=
  replaceExtension_ordered ho hu _ _

/-- The last value set for an entry stays. -/
theorem entry_entry (id key : String) (value value' : Json) :
    withExtensionEntry le (withExtensionEntry le p id key value) id key value' =
      withExtensionEntry le p id key value' := by
  have hle := ho.refl
  have hfirst := entry_ordered ho hu id key value
  have hexts : (withExtensionEntry le (withExtensionEntry le p id key value) id key
      value').extensions = (withExtensionEntry le p id key value').extensions := by
    rw [← List.forall₂_eq_eq_eq]
    refine forall₂_of_filter ho (entry_ordered ho hfirst.nodup id key value')
        (entry_ordered ho hu id key value') ?_
    intro id'
    rw [List.forall₂_eq_eq_eq]
    show extensionsOf _ id' = extensionsOf _ id'
    by_cases he : id' = id
    · rw [he, extensionsOf_entry_self hle, extensionsOf_entry_self hle,
        extensionData_entry hle, if_pos rfl, Obj.insert_insert]
    · rw [extensionsOf_entry_ne hle _ _ _ _ he, extensionsOf_entry_ne hle _ _ _ _ he,
        extensionsOf_entry_ne hle _ _ _ _ he]
  unfold withExtensionEntry withExtensions at hexts ⊢
  dsimp only at hexts ⊢
  rw [hexts]

/-- Entries of different keys can be set in either order. -/
theorem entry_comm {id key id' key' : String} (hkey : key ≠ key') (value value' : Json) :
    SamePayload (withExtensionEntry le (withExtensionEntry le p id key value) id' key' value')
      (withExtensionEntry le (withExtensionEntry le p id' key' value') id key value) := by
  have hle := ho.refl
  refine samePayload_of_extensionsOf ho
      (entry_ordered ho (entry_ordered ho hu id key value).nodup _ _ _)
    (entry_ordered ho (entry_ordered ho hu id' key' value').nodup _ _ _) rfl ?_
  intro k
  by_cases hk : k = id
  · subst hk
    rw [extensionsOf_entry_self hle]
    by_cases hid : k = id'
    · -- both entries are in one extension
      subst hid
      rw [extensionsOf_entry_self hle, extensionData_entry hle, extensionData_entry hle,
          if_pos rfl, if_pos rfl]
      refine .cons ⟨rfl, rfl, .inr ⟨_, _, rfl, rfl, ?_⟩⟩ .nil
      intro l
      rw [Obj.get?_insert, Obj.get?_insert, Obj.get?_insert, Obj.get?_insert]
      by_cases hl : key' = l
      · rw [if_pos hl, if_neg (by rw [← hl]; exact hkey), if_pos hl]
      · rw [if_neg hl, if_neg hl]
    · rw [extensionsOf_entry_ne hle _ _ _ _ hid, extensionsOf_entry_self hle,
          extensionData_entry hle, if_neg hid]
      exact .cons (SameExtension.refl _) .nil
  · rw [extensionsOf_entry_ne hle _ _ _ _ hk]
    by_cases hid : k = id'
    · subst hid
      rw [extensionsOf_entry_self hle, extensionsOf_entry_self hle,
          extensionData_entry hle, if_neg hk]
      exact .cons (SameExtension.refl _) .nil
    · rw [extensionsOf_entry_ne hle _ _ _ _ hid, extensionsOf_entry_ne hle _ _ _ _ hk,
        extensionsOf_entry_ne hle _ _ _ _ hid]
      exact List.forall₂_same.2 fun e _ => SameExtension.refl e

end

namespace Rust

/-- `key_meta`, of the vault that is open. -/
def keyMeta (v : UnlockedVault H B W) (absoluteKeyId : String) : Option Json :=
  Obj.get? (extensionData v.payload (keyMetaExtensionId absoluteKeyId)) absoluteKeyId

/-- `update_extensions` installs the extensions, and changes nothing else in the payload. -/
def InstallsExtensions (L : Ckvf H B W) : Prop :=
  ∀ seed v exts v', L.updateExtensions seed v exts = .ok v' → v'.payload =
      { v.payload with extensions := exts }

section
variable {L : Ckvf H B W} {seed : Seed} {v v' : UnlockedVault H B W} {i j : String} {m n : Json}

theorem setMeta_payload (hL : InstallsExtensions L) (h : setMeta L seed v i m = .ok v') :
    v'.payload = withExtensionEntry codePointLe v.payload (keyMetaExtensionId i) i m :=
  hL _ _ _ _ (ok_of_mapError h)

/-- The metadata of a key after an entry is set. -/
theorem keyMeta_of_payload
    (h : v'.payload = withExtensionEntry codePointLe v.payload (keyMetaExtensionId i) i m)
    (j : String) :
    keyMeta v' j = if i = j then some m else keyMeta v j := by
  unfold keyMeta
  rw [h, extensionData_entry codePointLe_refl]
  by_cases hs : keyMetaExtensionId j = keyMetaExtensionId i
  · rw [if_pos hs, hs, Obj.get?_insert]
  · have hij : i ≠ j := by
      intro he
      exact hs (by rw [he])
    rw [if_neg hs, if_neg hij]

end

/-- **Metadata is a map from keys.** A write is read back, it changes nothing else, the last write
of a key stays, and writes of different keys commute. -/
theorem keyMeta_lawful {L : Ckvf H B W} (hL : InstallsExtensions L) {v : UnlockedVault H B W}
    (hu : (v.payload.extensions.map (·.id)).Nodup) (i : String) (m : Json) :
    (∀ seed v', setMeta L seed v i m = .ok v' →
      keyMeta v' i = some m ∧ (∀ j, j ≠ i → keyMeta v' j = keyMeta v j) ∧
        (∀ id, id ≠ keyMetaExtensionId i → extensionsOf v'.payload id = extensionsOf v.payload id) ∧
        (∃ exts, v'.payload = { v.payload with extensions := exts }) ∧
        IdsOrdered codePointLe v'.payload.extensions) ∧
    (∀ n seed₁ seed₂ seed v₁ v₂ w, setMeta L seed₁ v i m = .ok v₁ →
    setMeta L seed₂ v₁ i n = .ok v₂ → setMeta L seed v i n = .ok w → v₂.payload = w.payload) ∧
    ∀ j n, j ≠ i → ∀ seed₁ seed₁₂ seed₂ seed₂₁ v₁ v₁₂ v₂ v₂₁, setMeta L seed₁ v i m = .ok v₁ →
      setMeta L seed₁₂ v₁ j n = .ok v₁₂ → setMeta L seed₂ v j n = .ok v₂ →
      setMeta L seed₂₁ v₂ i m = .ok v₂₁ → SamePayload v₁₂.payload v₂₁.payload := by
  refine ⟨?_, ?_, ?_⟩
  · intro seed v' h
    have hp := setMeta_payload hL h
    refine ⟨?_, ?_, ?_, ⟨_, hp⟩, ?_⟩
    · rw [keyMeta_of_payload hp, if_pos rfl]
    · intro j hj
      rw [keyMeta_of_payload hp, if_neg hj.symm]
    · intro id hid
      rw [hp]
      exact extensionsOf_entry_ne codePointLe_refl _ _ _ _ hid
    · rw [hp]
      exact entry_ordered codePointLe_order hu _ _ _
  · intro n seed₁ seed₂ seed v₁ v₂ w h₁ h₂ hw
    rw [setMeta_payload hL h₂, setMeta_payload hL h₁, setMeta_payload hL hw]
    exact entry_entry codePointLe_order hu _ _ _ _
  · intro j n hj seed₁ seed₁₂ seed₂ seed₂₁ v₁ v₁₂ v₂ v₂₁ h₁ h₁₂ h₂ h₂₁
    rw [setMeta_payload hL h₁₂, setMeta_payload hL h₁, setMeta_payload hL h₂₁,
        setMeta_payload hL h₂]
    exact entry_comm codePointLe_order hu hj.symm _ _

theorem symbolic_installs : InstallsExtensions symbolic := by
  intro seed v exts v' h
  exact Symbolic.import_laws.updated h

/-- Two keys of one shard, of which the vault knows one. -/
theorem keyMeta_lawful_labelled : ∃ v₁ v₁₂ v₂ v₂₁ : Symbolic.Vault,
    setMeta symbolic 1 labelled "a" (.str "new") = .ok v₁ ∧
        setMeta symbolic 2 v₁ "q" .null = .ok v₁₂ ∧
      setMeta symbolic 3 labelled "q" .null = .ok v₂ ∧ setMeta symbolic 4 v₂ "a"
          (.str "new") = .ok v₂₁ ∧
      keyMeta v₁ "a" = some (.str "new") ∧ SamePayload v₁₂.payload v₂₁.payload := by
  have h := keyMeta_lawful symbolic_installs (v := labelled) (by decide) "a" (.str "new")
  exact ⟨_, _, _, _, rfl, rfl, rfl, rfl, (h.1 1 _ rfl).1,
    h.2.2 "q" .null (by decide) 1 2 3 4 _ _ _ _ rfl rfl rfl rfl⟩

end Rust

end Vault
