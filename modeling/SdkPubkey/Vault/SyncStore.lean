import SdkPubkey.Ckvf.Laws
import SdkPubkey.Lib.Ledger
import SdkPubkey.Sync.Folder
import SdkPubkey.Vault.Alone

/-!
# Dart devices and a sync store

Any number of devices, each with its local store and one `KeyVault` method running at most, and one
`VaultSyncStore` (`packages/scomm_vault_client/lib/src/vault_sync.dart`) whose methods are single
steps: it has the heads and the generations that the files of `FolderVaultSync` hold. The steps of
the devices interleave at every await; a request can fail before or after it took effect, and a
device can crash and open its stored vault again.

The generations of a vault are a ledger (`SyncStore.ledger`): `put_ledger` and `swap_ledger` say
that the two methods that write are the two steps of one.
-/

namespace Vault

open Ckvf Lib

variable {H B W : Type}

/-! ## The store -/

structure SyncStore (H B W : Type) where
  heads : String → Option (VaultHead H) := fun _ => none
  generations : String → Int → Option (VaultContainer H B W) := fun _ _ => none

namespace SyncStore

variable (g : SyncStore H B W)

def setHead (h : VaultHead H) : SyncStore H B W :=
  { g with heads := Function.update g.heads h.vaultId (some h) }

def setGeneration (v : String) (n : Int) (c : VaultContainer H B W) : SyncStore H B W :=
  let ofVault := Function.update (g.generations v) n (some c)
  { g with generations := Function.update g.generations v ofVault }

variable [DecidableEq H] [DecidableEq B] [DecidableEq W]

def putIfAbsent (v : String) (n : Int) (c : VaultContainer H B W) :
    Except VaultClientError Unit × SyncStore H B W :=
  match g.generations v n with
  | none => (.ok (), g.setGeneration v n c)
  | some existing =>
    if existing ≠ c then
      (.error (.msg "sync_tamper"
        ("generation " ++ toString n ++ " already has different bytes")), g)
    else (.ok (), g)

omit [DecidableEq B] [DecidableEq W] in
def compareAndSwapHead (next : VaultHead H) (expectedHash : Option H) : Bool × SyncStore H B W :=
  if (g.heads next.vaultId).map (·.generationHash) ≠ expectedHash then (false, g)
  else if (g.heads next.vaultId).any (·.vaultId ≠ next.vaultId) then (false, g)
  else (true, g.setHead next)

end SyncStore

/-! ## Requests -/

/-- What happens to a request. -/
inductive SyncEv where
  | serve
  /-- It takes effect, and the answer is lost. -/
  | lose (message : String)
  /-- It fails before it takes effect. -/
  | drop (message : String)

/-- The answer to a request of which the method makes `r`; the id of the vault has to be the name of
a directory. -/
def requestAnswer {α : Type} (v : String) (g : SyncStore H B W)
    (r : Except VaultClientError α × SyncStore H B W) :
    SyncEv → Except VaultClientError α × SyncStore H B W
  | .serve => if Sync.isSafe v = true then r else (.error (.msg "sync_path" "vault id"), g)
  | .lose message => (.error (.msg "network_error" message), if Sync.isSafe v = true
      then r.2 else g)
  | .drop message => (.error (.msg "network_error" message), g)

section
variable [DecidableEq H] [DecidableEq B] [DecidableEq W]

def syncAnswer : (c : VaultCall H B W) → SyncEv → SyncStore H B W → Option (c.Ans × SyncStore H B W)
  | .getHead v, ev, g => some (requestAnswer v g (.ok (g.heads v), g) ev)
  | .getGeneration v n, ev, g => some (requestAnswer v g (.ok (g.generations v n), g) ev)
  | .putIfAbsent v n c, ev, g => some (requestAnswer v g (g.putIfAbsent v n c) ev)
  | .compareAndSwapHead next expectedHash, ev, g =>
    let r := g.compareAndSwapHead next expectedHash
    some (requestAnswer next.vaultId g (.ok r.1, r.2) ev)
  | _, _, _ => none

@[reducible] def syncRemote : Remote H B W (SyncStore H B W) where
  Ev := SyncEv
  step c ev _ g := syncAnswer c ev g

/-- The devices and the store; after a crash a device has its local store. -/
def syncDevices (L : Ckvf H B W) : Protocol (Device H B W) (SyncStore H B W) (DartOp H B W)
    (vaultIface H B W) Dart.VaultException where
  env := vaultEnv syncRemote
  prog := DartOp.prog L
  reset := Device.reset

end

abbrev SyncWorld (ι H B W : Type) :=
  World ι (Device H B W) (SyncStore H B W) (DartOp H B W) (vaultIface H B W) Dart.VaultException

/-- Empty local stores and an empty sync store. -/
def SyncWorld.start {ι : Type} : SyncWorld ι H B W := ⟨{}, fun _ => {}, fun _ => none⟩

/-! ## What the answers say -/

/-- The request did not get through, or the id of the vault is no name. -/
def Lost (e : VaultClientError) : Prop := e.code = "network_error" ∨ e.code = "sync_path"

/-- A request of which the method makes `r`: it is served, or it is lost, with its effect or
without. -/
inductive Served {α : Type} (g : SyncStore H B W)
    (r : Except VaultClientError α × SyncStore H B W) :
    Except VaultClientError α → SyncStore H B W → Prop
  | served : Served g r r.1 r.2
  | lost {e : VaultClientError} (h : Lost e) : Served g r (.error e) r.2
  | dropped {e : VaultClientError} (h : Lost e) : Served g r (.error e) g

theorem served_requestAnswer {α : Type} {v : String} {g g' : SyncStore H B W}
    {r : Except VaultClientError α × SyncStore H B W} {ev : SyncEv} {a : Except VaultClientError α}
    (h : requestAnswer v g r ev = (a, g')) : Served g r a g' := by
  cases ev with
  | serve =>
    have hserve :
        (if Sync.isSafe v = true then r else (.error (.msg "sync_path" "vault id"), g)) = (a, g') :=
      h
    by_cases hv : Sync.isSafe v = true
    · rw [if_pos hv] at hserve
      rw [hserve]
      exact .served
    · rw [if_neg hv] at hserve
      obtain ⟨rfl, rfl⟩ := Prod.mk.inj hserve
      exact .dropped (.inr rfl)
  | lose message =>
    obtain ⟨rfl, hg⟩ := Prod.mk.inj h
    split at hg
    · rw [← hg]
      exact .lost (.inl rfl)
    · rw [← hg]
      exact .dropped (.inl rfl)
  | drop message =>
    obtain ⟨rfl, rfl⟩ := Prod.mk.inj h
    exact .dropped (.inl rfl)

/-! ## The ledger of a vault -/

/-- The generations of a vault, numbered and linked by their hashes; those in `P` are in order. -/
def linking {L : Ckvf H B W} {S : Seal H B W} (hL : Sealing L S) {P : VaultContainer H B W → Prop}
    (hP : ∀ {c}, P c → S.Valid c) (v : String) : Linking (VaultContainer H B W) H where
  Good c := P c ∧ c.vaultId = v
  number c := c.generation
  key c := c.generationHash
  parent c := c.previousGenerationHash
  key_inj h h' := hL.hash_inj (hP h.1) (hP h'.1)

namespace SyncStore

variable (g : SyncStore H B W)

def ledger (v : String) : Slots (VaultContainer H B W) H :=
  ⟨g.generations v, (g.heads v).map fun h => (h.generation, h.generationHash)⟩

/-- Every head is that of its vault. -/
def Own : Prop := ∀ v h, g.heads v = some h → h.vaultId = v

variable {g}

theorem ledger_head {g' : SyncStore H B W} {v : String} (h : g'.heads v = g.heads v) :
    (g'.ledger v).head = (g.ledger v).head := by
  unfold ledger
  rw [h]

theorem Own.any (ho : g.Own) (v : String) : ¬ (g.heads v).any (·.vaultId ≠ v) = true := by
  rw [Option.any_eq_true]
  intro hany
  obtain ⟨h, hh, hne⟩ := hany
  exact of_decide_eq_true hne (ho _ _ hh)

variable [DecidableEq H] {v w : String} {n : Int} {c : VaultContainer H B W}

theorem put_ledger [DecidableEq B] [DecidableEq W] : (g.putIfAbsent v n c).2.heads = g.heads ∧
    (g.putIfAbsent v n c).2.ledger v = ((g.ledger v).put n c).2 ∧
    (w ≠ v → (g.putIfAbsent v n c).2.ledger w = g.ledger w) := by
  unfold putIfAbsent
  cases hn : g.generations v n with
  | none =>
    rw [Slots.put_vacant (show (g.ledger v).slot n = none from hn)]
    refine ⟨rfl, ?_, fun hw => ?_⟩
    · simp [ledger, setGeneration]
    · simp [ledger, setGeneration, hw]
  | some existing =>
    rw [Slots.put_taken (show (g.ledger v).slot n = some existing from hn)]
    dsimp only
    split
    · exact ⟨rfl, rfl, fun _ => rfl⟩
    · exact ⟨rfl, rfl, fun _ => rfl⟩

/-- What the answer of `putIfAbsent` says of the generation under the number. -/
theorem put_answer [DecidableEq B] [DecidableEq W] :
    ((g.putIfAbsent v n c).1 = .ok () → (g.putIfAbsent v n c).2.generations v n = some c) ∧
    ∀ e, (g.putIfAbsent v n c).1 = .error e →
      e.code = "sync_tamper" ∧ ∃ existing, g.generations v n = some existing ∧ existing ≠ c := by
  unfold putIfAbsent
  cases hn : g.generations v n with
  | none =>
    refine ⟨fun _ => ?_, fun e he => ?_⟩
    · simp [setGeneration]
    · cases he
  | some existing =>
    dsimp only
    split
    · rename_i hne
      refine ⟨fun h => ?_, fun e he => ?_⟩
      · cases h
      · cases he
        exact ⟨rfl, existing, rfl, hne⟩
    · rename_i heq
      refine ⟨fun _ => ?_, fun e he => ?_⟩
      · rw [hn, not_not.1 heq]
      · cases he

/-- A slot that is free, or has the generation. -/
theorem put_ok [DecidableEq B] [DecidableEq W] (h : g.generations v n = none ∨
    g.generations v n = some c) :
    (g.putIfAbsent v n c).1 = .ok () := by
  unfold putIfAbsent
  rcases h with h | h
  · rw [h]
  · rw [h]
    dsimp only
    rw [if_neg (not_not.2 rfl)]

section
variable (next : VaultHead H) (expected : Option H)

theorem swap_true (ho : g.Own) (h : (g.heads next.vaultId).map (·.generationHash) = expected) :
    (g.compareAndSwapHead next expected).1 = true := by
  unfold compareAndSwapHead
  rw [if_neg (not_not.2 h), if_neg (ho.any next.vaultId)]

theorem swap_ledger (ho : g.Own) :
    (g.compareAndSwapHead next expected).1 =
      ((g.ledger next.vaultId).swap (next.generation, next.generationHash) expected).1 ∧
    (g.compareAndSwapHead next expected).2.ledger next.vaultId =
      ((g.ledger next.vaultId).swap (next.generation, next.generationHash) expected).2 ∧
    (w ≠ next.vaultId → (g.compareAndSwapHead next expected).2.ledger w = g.ledger w) := by
  have hhead : (g.ledger next.vaultId).head.map Prod.snd =
      (g.heads next.vaultId).map (·.generationHash) := by
    unfold ledger
    rw [Option.map_map]
    rfl
  unfold compareAndSwapHead Slots.swap
  rw [hhead]
  by_cases hc : (g.heads next.vaultId).map (·.generationHash) = expected
  · rw [if_neg (not_not.2 hc), if_neg (ho.any next.vaultId), if_pos hc]
    refine ⟨rfl, ?_, fun hw => ?_⟩
    · simp [ledger, setHead]
    · simp [ledger, setHead, hw]
  · rw [if_pos hc, if_neg hc]
    exact ⟨rfl, rfl, fun _ => rfl⟩

end

variable {next : VaultHead H} {expected : Option H}

theorem swap_false (h : (g.compareAndSwapHead next expected).1 = false) :
    (g.compareAndSwapHead next expected).2 = g := by
  unfold compareAndSwapHead at h ⊢
  split
  · rfl
  · split
    · rfl
    · rename_i hc ha
      rw [if_neg hc, if_neg ha] at h
      cases h

theorem swap_heads (hw : w ≠ next.vaultId) :
    (g.compareAndSwapHead next expected).2.heads w = g.heads w := by
  unfold compareAndSwapHead
  split
  · rfl
  · split
    · rfl
    · exact Function.update_of_ne hw ..

omit [DecidableEq H] in
theorem setHead_own (ho : g.Own) (h : VaultHead H) : (g.setHead h).Own := by
  intro v h' hh
  by_cases hv : v = h.vaultId
  · subst hv
    simp only [setHead, Function.update_self, Option.some.injEq] at hh
    rw [← hh]
  · simp only [setHead, Function.update_of_ne hv] at hh
    exact ho v h' hh

theorem swap_own (ho : g.Own) : (g.compareAndSwapHead next expected).2.Own := by
  unfold compareAndSwapHead
  split
  · exact ho
  · split
    · exact ho
    · exact setHead_own ho next

/-! ### Generations stay -/

theorem put_kept [DecidableEq B] [DecidableEq W] {c' : VaultContainer H B W} {m : Int}
    (h : g.generations v n = some c) : (g.putIfAbsent w m c').2.generations v n = some c := by
  unfold putIfAbsent
  cases hm : g.generations w m with
  | none =>
    by_cases hw : v = w
    · subst hw
      have hne : n ≠ m := by
        intro hnm
        subst hnm
        rw [h] at hm
        cases hm
      simp [setGeneration, hne, h]
    · simp [setGeneration, hw, h]
  | some existing =>
    dsimp only
    split
    · exact h
    · exact h

theorem swap_generations : (g.compareAndSwapHead next expected).2.generations = g.generations := by
  unfold compareAndSwapHead
  split
  · rfl
  · split
    · rfl
    · rfl

end SyncStore

/-- No request changes the file of a generation. -/
theorem syncAnswer_kept [DecidableEq H] [DecidableEq B] [DecidableEq W]
    {c : VaultCall H B W} {ev : SyncEv}
    {g g' : SyncStore H B W} {a : c.Ans} {v : String} {n : Int} {stored : VaultContainer H B W}
    (h : syncAnswer c ev g = some (a, g')) (hg : g.generations v n = some stored) :
    g'.generations v n = some stored := by
  have hserved : ∀ {α : Type} {r : Except VaultClientError α × SyncStore H B W} {b},
      Served g r b g' → r.2.generations v n = some stored → g'.generations v n = some stored := by
    intro α r b hs hr
    cases hs with
    | served => exact hr
    | lost _ => exact hr
    | dropped _ => exact hg
  cases c with
  | getHead v' => exact hserved (served_requestAnswer (Option.some.inj h)) hg
  | getGeneration v' n' => exact hserved (served_requestAnswer (Option.some.inj h)) hg
  | putIfAbsent v' n' c =>
    exact hserved (served_requestAnswer (Option.some.inj h)) (SyncStore.put_kept hg)
  | compareAndSwapHead next expectedHash =>
    exact hserved (served_requestAnswer (Option.some.inj h))
        (by rw [SyncStore.swap_generations, hg])
  | _ => cases h

/-- The file of a generation stays as it is, whatever the devices do. -/
theorem generations_kept [DecidableEq H] [DecidableEq B] [DecidableEq W] {ι : Type} [DecidableEq ι]
    {L : Ckvf H B W} {cond : SyncWorld ι H B W → Act ι (DartOp H B W) (LocalEv ⊕ SyncEv) → Prop}
    {w w' : SyncWorld ι H B W} {v : String} {n : Int} {c : VaultContainer H B W}
    (h : (syncDevices L).Reaches cond w w') (hc : w.shared.generations v n = some c) :
    w'.shared.generations v n = some c := by
  have hcall : ∀ {c' ev d g a d₁ g₁}, (syncDevices L).env.step c' ev (d, g) = some (a, d₁, g₁) →
      g.generations v n = some c → g₁.generations v n = some c := by
    intro c' ev d g a d₁ g₁ hs hg
    obtain ⟨lev, -, hg₁⟩ | ⟨rev, -, hs, -⟩ := vaultEnv_step hs
    · dsimp only at hg₁
      rw [hg₁]
      exact hg
    · exact syncAnswer_kept hs hg
  exact h.shared_kept hcall hc

end Vault
