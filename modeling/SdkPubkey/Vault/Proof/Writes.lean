import SdkPubkey.Vault.Env

/-!
# The writes of a run

A method that is cut short has made a prefix of its writes (`writesOf`), and they alone say what is
in the store (`store_of_progress`): a key that was written has one of the values written, and any
other key what it had.
-/

namespace Vault

open Ckvf Lib

variable {H B W γ : Type}

/-! ## Writes -/

/-- A write that the store has taken. -/
structure StoreWrite (H B W : Type) where
  key : LocalKey
  value : Option (key.Val H B W)

def writeOf : Event (vaultIface H B W) → Option (StoreWrite H B W)
  | ⟨.write k v, .ok _⟩ => some ⟨k, v⟩
  | _ => none

def writesOf (tr : List (Event (vaultIface H B W))) : List (StoreWrite H B W) :=
  tr.filterMap writeOf

def applyWrites (store : LocalStore H B W) (ws : List (StoreWrite H B W)) : LocalStore H B W :=
  ws.foldl (fun s w => s.set w.key w.value) store

theorem writesOf_cons_none {e : Event (vaultIface H B W)} {tr : List (Event (vaultIface H B W))}
    (h : writeOf e = none) : writesOf (e :: tr) = writesOf tr := List.filterMap_cons_none h

theorem writesOf_cons_some {e : Event (vaultIface H B W)} {tr : List (Event (vaultIface H B W))}
    {w : StoreWrite H B W} (h : writeOf e = some w) : writesOf (e :: tr) = w :: writesOf tr :=
  List.filterMap_cons_some h

theorem get_set_same (store : LocalStore H B W) (k : LocalKey) (v : Option (k.Val H B W)) :
    (store.set k v).get k = v := by
  cases k <;> rfl

theorem get_set_ne (store : LocalStore H B W) {k k' : LocalKey} (v : Option (k'.Val H B W))
    (h : k ≠ k') :
    (store.set k' v).get k = store.get k := by
  cases k <;> cases k' <;> first | rfl | exact absurd rfl h

/-- A key that is not written keeps its value. -/
theorem get_applyWrites_of_unwritten {k : LocalKey} {ws : List (StoreWrite H B W)}
    (store : LocalStore H B W) (h : ∀ v, ⟨k, v⟩ ∉ ws) : (applyWrites store ws).get k =
    store.get k := by
  induction ws generalizing store with
  | nil => rfl
  | cons w ws ih =>
    obtain ⟨k', v'⟩ := w
    have hne : k ≠ k' := by
      intro he
      subst he
      exact h v' List.mem_cons_self
    have hws : ∀ v, (⟨k, v⟩ : StoreWrite H B W) ∉ ws := fun v hv => h v (List.mem_cons_of_mem _ hv)
    show (applyWrites (store.set k' v') ws).get k = _
    rw [ih _ hws, get_set_ne store v' hne]

/-- A key that is written has a value that was written. -/
theorem get_applyWrites_of_written {k : LocalKey} {ws : List (StoreWrite H B W)}
    (store : LocalStore H B W) (h : ∃ v, ⟨k, v⟩ ∈ ws) : ⟨k, (applyWrites store ws).get k⟩ ∈ ws := by
  induction ws generalizing store with
  | nil =>
    obtain ⟨v, hv⟩ := h
    cases hv
  | cons w ws ih =>
    obtain ⟨k', v'⟩ := w
    show (⟨k, (applyWrites (store.set k' v') ws).get k⟩ : StoreWrite H B W) ∈ _
    by_cases hws : ∃ v, (⟨k, v⟩ : StoreWrite H B W) ∈ ws
    · exact List.mem_cons_of_mem _ (ih _ hws)
    · -- the last write of the key is the first of the list
      obtain ⟨v, hv⟩ := h
      rcases List.mem_cons.1 hv with he | hv
      · cases he
        have hget := get_applyWrites_of_unwritten (store.set k v) fun v' hv' => hws ⟨v', hv'⟩
        rw [hget, get_set_same]
        exact List.mem_cons_self
      · exact absurd ⟨v, hv⟩ hws

/-! ## Runs -/

section
variable {T : Trans H B W γ} {fails : VaultCall H B W → Device H B W × γ → Prop}
    (hT : Answers T fails)
  {ε α : Type}
include hT

theorem store_of_call {c : VaultCall H B W} {s s' : Device H B W × γ} {a : c.Ans} (h : T c s a s') :
    s'.1.store = applyWrites s.1.store (writeOf (⟨c, a⟩ : Event (vaultIface H B W))).toList := by
  cases c with
  | read k => rw [(hT.read h).1]; rfl
  | write k v =>
    rcases hT.write h with ⟨rfl, rfl⟩ | ⟨-, ⟨e, rfl⟩, rfl⟩
    · rfl
    · rfl
  | getVault => rw [(hT.getVault h).2]; rfl
  | setVault v => rw [hT.setVault h]; rfl
  | randomBytes n => rw [hT.draw rfl h]; rfl
  | entropy => rw [hT.draw rfl h]; rfl
  | authorize vaultId operation => rw [hT.draw rfl h]; rfl
  | replaceMsk publicKey => rw [hT.draw rfl h]; rfl
  | currentRecord vaultId auth => rw [hT.request rfl h]; rfl
  | putRecord identityId c signer device => rw [hT.request rfl h]; rfl
  | getHead vaultId => rw [hT.request rfl h]; rfl
  | getGeneration vaultId n => rw [hT.request rfl h]; rfl
  | putIfAbsent vaultId n c => rw [hT.request rfl h]; rfl
  | compareAndSwapHead next expected => rw [hT.request rfl h]; rfl

/-- **The store after any part of a run is the store before with the writes of that part.** -/
theorem store_of_progress {p q : VProg H B W ε α} {s s' : Device H B W × γ}
    {tr : List (Event (vaultIface H B W))} (h : Progress T p s tr q s') :
    s'.1.store = applyWrites s.1.store (writesOf tr) := by
  induction h with
  | refl => rfl
  | @call c k q s s' s'' a tr ht _ ih =>
    rw [ih, store_of_call hT ht]
    cases hw : writeOf (⟨c, a⟩ : Event (vaultIface H B W)) with
    | none =>
      rw [writesOf_cons_none hw]
      rfl
    | some w =>
      rw [writesOf_cons_some hw]
      rfl

end

end Vault
