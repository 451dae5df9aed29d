import SdkPubkey.Vault.Env
import SdkPubkey.Vault.Dart

/-!
# Symbolic execution of the Dart methods

The helpers of `Vault.Dart` that only use the device, as functions of the device (`openSlot`,
`openedRecord`, `syncBound`, `baseOf`, `mskAccepted`) and as changes of it (`marked`, `installed`),
and the lemma `exec_*` for each: from the device `d` the helper comes to that value in that device.
The store answers every call here (`Reliable`).
-/

namespace Vault.Dart

open Ckvf Lib Lib.Protocol

variable {H B W γ : Type}

/-! ## The helpers as functions of the device -/

section
variable (L : Ckvf H B W) (d : Device H B W)

def slotIdOf : Except VaultException String :=
  match d.store.deviceSlotId with
  | some id => .ok id
  | none => .error (.msg "device_removed" "no device slot on this device")

def kekOf : Except VaultException Bytes :=
  match d.store.deviceKek with
  | some kek => if kek.length = 32 then .ok kek else .error (.ckvf ⟨"ERR_LENGTH", none⟩)
  | none => .error (.msg "device_removed" "no device key on this device")

/-- `_openWithDeviceSlot`. -/
def openSlot (c : VaultContainer H B W) : Except VaultException (UnlockedVault H B W) := do
  let slotId ← slotIdOf d
  let kek ← kekOf d
  (L.openVaultWithDeviceKek c slotId kek).mapError .ckvf

/-- `_openRecord`. -/
def openedRecord (record : VaultRecord H B W) (identityId : String) :
    Except VaultException (UnlockedVault H B W) :=
  match openSlot L d record.container with
  | .ok head => (verifyRecordSignature L record head identityId).map fun _ => head
  | .error e =>
    if e.ckvfCode = some "ERR_SLOT_ID" then
      .error (.msg "device_removed" "this device no longer has a slot in the stored vault")
    else .error e

/-- `_syncedGeneration`: the bound of the rollback guard. -/
def syncBound : Nat :=
  match d.store.syncedContainer with
  | some c => c.generation
  | none => 0

/-- `_base`. -/
def baseOf : Option (UnlockedVault H B W) :=
  d.store.syncedContainer.bind fun c => (openSlot L d c).toOption

def mskAccepted (opened : UnlockedVault H B W) : Except VaultException Unit :=
  match d.store.pinnedMsk with
  | some pinned =>
    if pinned ≠ opened.payload.msk.current.publicKey then
      .error (.msg "msk_changed" "the stored MSK changed; confirm it with Discovery before syncing")
    else .ok ()
  | none => .ok ()

/-- The device after `_markSynced v`. -/
def marked (v : UnlockedVault H B W) : Device H B W :=
  { d with store := { d.store with
      syncedHash := some v.container.generationHash
      syncedContainer := some v.container
      pinnedMsk := some v.payload.msk.current.publicKey } }

/-- The device after `_persist v`. -/
def installed (v : UnlockedVault H B W) : Device H B W :=
  { d with store := { d.store with container := some v.container }, vault := some v }

end

section
variable (d : Device H B W) (v : UnlockedVault H B W)

@[simp] theorem installed_vault : (installed d v).vault = some v := rfl
@[simp] theorem installed_container : (installed d v).store.container = some v.container := rfl
@[simp] theorem installed_syncedHash :
    (installed d v).store.syncedHash = d.store.syncedHash := rfl
@[simp] theorem installed_syncedContainer :
    (installed d v).store.syncedContainer = d.store.syncedContainer := rfl
@[simp] theorem installed_pinnedMsk : (installed d v).store.pinnedMsk = d.store.pinnedMsk := rfl

@[simp] theorem marked_vault : (marked d v).vault = d.vault := rfl
@[simp] theorem marked_container : (marked d v).store.container = d.store.container := rfl
@[simp] theorem marked_syncedHash :
    (marked d v).store.syncedHash = some v.container.generationHash := rfl
@[simp] theorem marked_syncedContainer :
    (marked d v).store.syncedContainer = some v.container := rfl
@[simp] theorem marked_pinnedMsk :
    (marked d v).store.pinnedMsk = some v.payload.msk.current.publicKey := rfl

end

/-! ## Rules -/

/-- A setting where the store answers every call. -/
abbrev Reliable (T : Trans H B W γ) (Rely : γ → γ → Prop)
    (G : Device H B W × γ → Device H B W × γ → Prop) : Prop := Setting T Rely G fun _ _ => False

variable {T : Trans H B W γ} {Rely : γ → γ → Prop} {G : Device H B W × γ → Device H B W × γ → Prop}
  (S : Reliable T Rely G) {α : Type} {Q : Except VaultException α → Device H B W × γ → Prop}
  {d : Device H B W} {g : γ} (L : Ckvf H B W)

/-- The device may go from `d` to `d'` by itself. -/
def Free (Rely : γ → γ → Prop) (G : Device H B W × γ → Device H B W × γ → Prop) (g : γ)
    (d d' : Device H B W) : Prop := ∀ g', Rely g g' → G (d, g') (d', g')

section
include S

theorem exec_read (k : LocalKey) : Exec T Rely G g d (read k) d (.ret (d.store.get k)) :=
  fun _ hq => S.safe_read (fun _ _ hf => hf.elim) hq

theorem exec_write (k : LocalKey) (v : Option (k.Val H B W)) (hg : Free Rely G g d (d.set k v)) :
    Exec T Rely G g d (write k v) (d.set k v) (.ret ()) :=
  fun _ hq => S.safe_write (fun _ _ hf => hf.elim) hg hq

theorem exec_setVault (v : Option (UnlockedVault H B W))
    (hg : Free Rely G g d { d with vault := v }) :
    Exec T Rely G g d (setVault v) { d with vault := v } (.ret ()) :=
  fun _ hq => S.safe_setVault hg hq

theorem safe_vault {f : UnlockedVault H B W → DProg H B W α}
    (hs : ∀ v, d.vault = some v → Safely T Rely G Q (f v) d g)
    (hn : d.vault = none → Safely T Rely G Q (.raise (.state "KeyVault is not open")) d g) :
    Safely T Rely G Q (vault >>= f) d g := by
  refine S.safe_getVault ?_
  cases hv : d.vault with
  | none => exact hn hv
  | some v => exact hs v hv

theorem safe_entropy {f : Seed → DProg H B W α} (h : ∀ s, Safely T Rely G Q (f s) d g) :
    Safely T Rely G Q (entropy >>= f) d g := S.safe_draw rfl h

theorem safe_randomBytes {n : Nat} {f : Bytes → DProg H B W α}
    (h : ∀ b, Safely T Rely G Q (f b) d g) : Safely T Rely G Q (randomBytes n >>= f) d g :=
  S.safe_draw rfl h

theorem safe_authorize {vaultId operation : String} {f : String → DProg H B W α}
    (h : ∀ a, Safely T Rely G Q (f a) d g)
    (he : ∀ e, Safely T Rely G Q (.raise (.client e)) d g) :
    Safely T Rely G Q (authorize vaultId operation >>= f) d g := by
  refine S.safe_draw rfl fun r => ?_
  cases r with
  | ok a => exact h a
  | error e => exact he e

theorem safe_currentRecord {vaultId auth : String} {f : VaultRead H B W → DProg H B W α}
    (h : ∀ g1 a g2, Rely g g1 → T (.currentRecord vaultId auth) (d, g1) a (d, g2) →
      G (d, g1) (d, g2) ∧ match a with
        | .ok x => Safely T Rely G Q (f x) d g2
        | .error e => Safely T Rely G Q (.raise (.client e)) d g2) :
    Safely T Rely G Q (currentRecord vaultId auth >>= f) d g := by
  refine S.safe_remote rfl fun g1 a g2 hr ht => ?_
  obtain ⟨hg, h⟩ := h g1 a g2 hr ht
  exact ⟨hg, by cases a <;> exact h⟩

theorem safe_putRecord {identityId : String} {c : VaultContainer H B W} {signer : Bytes}
    {dev : Option String} {f : Unit → DProg H B W α}
    (h : ∀ g1 a g2, Rely g g1 → T (.putRecord identityId c signer dev) (d, g1) a (d, g2) →
      G (d, g1) (d, g2) ∧ match a with
        | .ok x => Safely T Rely G Q (f x) d g2
        | .error e => Safely T Rely G Q (.raise (.client e)) d g2) :
    Safely T Rely G Q (putRecord identityId c signer dev >>= f) d g := by
  refine S.safe_remote rfl fun g1 a g2 hr ht => ?_
  obtain ⟨hg, h⟩ := h g1 a g2 hr ht
  exact ⟨hg, by cases a <;> exact h⟩

theorem safe_getHead {vaultId : String} {f : Option (VaultHead H) → DProg H B W α}
    (h : ∀ g1 a g2, Rely g g1 → T (.getHead vaultId) (d, g1) a (d, g2) →
      G (d, g1) (d, g2) ∧ match a with
        | .ok x => Safely T Rely G Q (f x) d g2
        | .error e => Safely T Rely G Q (.raise (.client e)) d g2) :
    Safely T Rely G Q (getHead vaultId >>= f) d g := by
  refine S.safe_remote rfl fun g1 a g2 hr ht => ?_
  obtain ⟨hg, h⟩ := h g1 a g2 hr ht
  exact ⟨hg, by cases a <;> exact h⟩

theorem safe_getGeneration {vaultId : String} {n : Int}
    {f : Option (VaultContainer H B W) → DProg H B W α}
    (h : ∀ g1 a g2, Rely g g1 → T (.getGeneration vaultId n) (d, g1) a (d, g2) →
      G (d, g1) (d, g2) ∧ match a with
        | .ok x => Safely T Rely G Q (f x) d g2
        | .error e => Safely T Rely G Q (.raise (.client e)) d g2) :
    Safely T Rely G Q (getGeneration vaultId n >>= f) d g := by
  refine S.safe_remote rfl fun g1 a g2 hr ht => ?_
  obtain ⟨hg, h⟩ := h g1 a g2 hr ht
  exact ⟨hg, by cases a <;> exact h⟩

theorem safe_putIfAbsent {vaultId : String} {n : Int} {c : VaultContainer H B W}
    {f : Unit → DProg H B W α}
    (h : ∀ g1 a g2, Rely g g1 → T (.putIfAbsent vaultId n c) (d, g1) a (d, g2) →
      G (d, g1) (d, g2) ∧ match a with
        | .ok x => Safely T Rely G Q (f x) d g2
        | .error e => Safely T Rely G Q (.raise (.client e)) d g2) :
    Safely T Rely G Q (putIfAbsent vaultId n c >>= f) d g := by
  refine S.safe_remote rfl fun g1 a g2 hr ht => ?_
  obtain ⟨hg, h⟩ := h g1 a g2 hr ht
  exact ⟨hg, by cases a <;> exact h⟩

theorem safe_compareAndSwapHead {next : VaultHead H} {expected : Option H}
    {f : Bool → DProg H B W α}
    (h : ∀ g1 a g2, Rely g g1 → T (.compareAndSwapHead next expected) (d, g1) a (d, g2) →
      G (d, g1) (d, g2) ∧ match a with
        | .ok x => Safely T Rely G Q (f x) d g2
        | .error e => Safely T Rely G Q (.raise (.client e)) d g2) :
    Safely T Rely G Q (compareAndSwapHead next expected >>= f) d g := by
  refine S.safe_remote rfl fun g1 a g2 hr ht => ?_
  obtain ⟨hg, h⟩ := h g1 a g2 hr ht
  exact ⟨hg, by cases a <;> exact h⟩

end

theorem safe_ckvf {β : Type} {x : Except CkvfError β} {f : β → DProg H B W α}
    (hok : ∀ a, x = .ok a → Safely T Rely G Q (f a) d g)
    (herr : ∀ e, x = .error e → Safely T Rely G Q (.raise (.ckvf e)) d g) :
    Safely T Rely G Q (ckvf x >>= f) d g := by
  cases x with
  | ok a => exact hok a rfl
  | error e => exact herr e rfl

/-! ## The helpers -/

section
include S

theorem exec_deviceSlotId : Exec T Rely G g d deviceSlotId d (.ofExcept (slotIdOf d)) :=
    fun Q hq => by
  refine (exec_read S .deviceSlotId).seq S ?_
  simp only [slotIdOf] at hq
  cases h : d.store.deviceSlotId with
  | none =>
    rw [h] at hq
    simp only [LocalStore.get, h]
    exact hq
  | some id =>
    rw [h] at hq
    simp only [LocalStore.get, h]
    exact hq

theorem exec_deviceKek : Exec T Rely G g d deviceKek d (.ofExcept (kekOf d)) := fun Q hq => by
  refine (exec_read S .deviceKek).seq S ?_
  simp only [kekOf] at hq
  cases h : d.store.deviceKek with
  | none =>
    rw [h] at hq
    simp only [LocalStore.get, h]
    exact hq
  | some kek =>
    rw [h] at hq
    dsimp only at hq
    simp only [LocalStore.get, h]
    split
    · rename_i hk
      rw [if_pos hk] at hq
      exact hq
    · rename_i hk
      rw [if_neg hk] at hq
      exact hq

theorem exec_openWithDeviceSlot (c : VaultContainer H B W) :
    Exec T Rely G g d (openWithDeviceSlot L c) d (.ofExcept (openSlot L d c)) := fun Q hq => by
  unfold openWithDeviceSlot
  unfold openSlot at hq
  refine (exec_deviceSlotId S).seqExcept S (fun slotId hs => ?_) fun e hs => ?_
  · refine (exec_deviceKek S).seqExcept S (fun kek hk => ?_) fun e hk => ?_
    · rw [hs, hk] at hq
      exact hq
    · rw [hs, hk] at hq
      exact hq
  · rw [hs] at hq
    exact hq

theorem exec_openRecord (record : VaultRecord H B W) (identityId : String) :
    Exec T Rely G g d (openRecord L record identityId) d
      (.ofExcept (openedRecord L d record identityId)) := fun Q hq => by
  refine (exec_openWithDeviceSlot S L record.container).attempt.seq S ?_
  unfold openedRecord at hq
  cases h : openSlot L d record.container with
  | ok head =>
    rw [h] at hq
    dsimp only at hq ⊢
    refine safe_ofExcept (fun _ hv => ?_) fun e hv => ?_
    · rw [hv] at hq
      exact hq
    · rw [hv] at hq
      exact hq
  | error e =>
    rw [h] at hq
    dsimp only at hq ⊢
    split
    · rename_i he
      rw [if_pos he] at hq
      exact hq
    · rename_i he
      rw [if_neg he] at hq
      exact hq

theorem exec_syncedGeneration : Exec T Rely G g d syncedGeneration d (.ret (syncBound d)) :=
  fun Q hq => by
    refine (exec_read S .syncedContainer).seq S ?_
    unfold syncBound at hq
    simp only [LocalStore.get]
    split
    · rename_i c h
      rw [h] at hq
      exact hq
    · rename_i h
      rw [h] at hq
      exact hq

theorem exec_mergeBase : Exec T Rely G g d (mergeBase L) d (.ret (baseOf L d)) := fun Q hq => by
  refine (exec_read S .syncedContainer).seq S ?_
  unfold baseOf at hq
  simp only [LocalStore.get]
  split
  · rename_i h
    rw [h] at hq
    exact hq
  · rename_i c h
    rw [h] at hq
    refine (exec_openWithDeviceSlot S L c).attempt.seq S ?_
    cases ho : openSlot L d c with
    | ok v =>
      simp only [Option.bind_some, ho] at hq
      exact hq
    | error e =>
      simp only [Option.bind_some, ho] at hq
      exact hq

theorem exec_acceptMsk (v : UnlockedVault H B W) :
    Exec T Rely G g d (acceptMsk v) d (.ofExcept (mskAccepted d v)) := fun Q hq => by
  refine (exec_read S .pinnedMsk).seq S ?_
  unfold mskAccepted at hq
  simp only [LocalStore.get]
  cases h : d.store.pinnedMsk with
  | none =>
    rw [h] at hq
    exact hq
  | some pinned =>
    rw [h] at hq
    dsimp only at hq ⊢
    split
    · rename_i hp
      rw [if_pos hp] at hq
      exact hq
    · rename_i hp
      rw [if_neg hp] at hq
      exact hq

theorem exec_persist (v : UnlockedVault H B W)
    (hc : Free Rely G g d (d.set .container (some v.container)))
    (hv : Free Rely G g (d.set .container (some v.container)) (installed d v)) :
    Exec T Rely G g d (persist v) (installed d v) (.ret ()) := fun _ hq =>
  (exec_write S .container _ hc).seq S ((exec_setVault S _ hv) _ hq)

theorem exec_markSynced (v : UnlockedVault H B W)
    (h1 : Free Rely G g d (d.set .syncedHash (some v.container.generationHash)))
    (h2 : Free Rely G g (d.set .syncedHash (some v.container.generationHash))
      ((d.set .syncedHash (some v.container.generationHash)).set .syncedContainer
        (some v.container)))
    (h3 : Free Rely G g ((d.set .syncedHash (some v.container.generationHash)).set .syncedContainer
      (some v.container)) (marked d v)) :
    Exec T Rely G g d (markSynced v) (marked d v) (.ret ()) := fun _ hq =>
  (exec_write S .syncedHash _ h1).seq S <|
    (exec_write S .syncedContainer _ h2).seq S <| (exec_write S .pinnedMsk _ h3) _ hq

/-- A round of `_pushSync` on the head that it has read: the head is the local generation, or is
older than the synced one, or is what the local generation extends, or is none of these. -/
theorem safe_pushHead [DecidableEq H] {Q : Except VaultException Bool → Device H B W × γ → Prop}
    {loc : UnlockedVault H B W} {head : Option (VaultHead H)}
    (hdone : head.map (·.generationHash) = some loc.container.generationHash →
      Safely T Rely G Q (markSynced loc >>= fun _ => pure true) d g)
    (holder : ∀ h, head = some h → h.generation < syncBound d →
      loc.container.previousGenerationHash ≠ some h.generationHash → Safely T Rely G Q
        (.raise (.msg "generation_rollback" "sync storage returned an older generation")) d g)
    (hextends : parentMatches loc head = true → Safely T Rely G Q (extendHead loc head) d g)
    (hbehind : head.map (·.generationHash) ≠ some loc.container.generationHash →
      parentMatches loc head = false → (∀ h, head = some h → ¬ h.generation < syncBound d) →
        Safely T Rely G Q (catchUp L loc head >>= fun _ => pure false) d g) :
    Safely T Rely G Q
      (if head.map (·.generationHash) = some loc.container.generationHash then do
        markSynced loc
        pure true
      else do
        let rolledBack ← match head with
          | none => pure false
          | some head => do
            let bound ← syncedGeneration
            pure (decide (head.generation < bound ∧
              some head.generationHash ≠ loc.container.previousGenerationHash))
        if rolledBack then
          .raise (.msg "generation_rollback" "sync storage returned an older generation")
        else if parentMatches loc head then
          extendHead loc head
        else
          catchUp L loc head
          pure false) d g := by
  by_cases hsame : head.map (·.generationHash) = some loc.container.generationHash
  · rw [if_pos hsame]
    exact hdone hsame
  rw [if_neg hsame]
  have hrest : (parentMatches loc head = false →
      ∀ h, head = some h → ¬ h.generation < syncBound d) → Safely T Rely G Q
        (if parentMatches loc head = true then extendHead loc head
          else do
            catchUp L loc head
            pure false) d g := by
    intro hbound
    by_cases hp : parentMatches loc head = true
    · rw [if_pos hp]
      exact hextends hp
    · rw [if_neg hp]
      rw [Bool.not_eq_true] at hp
      exact hbehind hsame hp (hbound hp)
  cases head with
  | none => exact hrest fun _ _ hh => by cases hh
  | some h =>
    refine (exec_syncedGeneration S).seq S ?_
    simp only [Prog.ret_bind, Prog.pure_eq]
    by_cases hr : h.generation < syncBound d ∧
        some h.generationHash ≠ loc.container.previousGenerationHash
    · rw [if_pos (decide_eq_true hr)]
      exact holder h rfl hr.1 hr.2.symm
    · rw [if_neg (by simpa using hr)]
      refine hrest fun hp h' hh hlt => hr ?_
      cases hh
      refine ⟨hlt, fun he => ?_⟩
      simp [parentMatches, he] at hp

end

/-! ## Runs that have an outcome

The store may fail here.
-/

section
variable {T : Trans H B W γ} {fails : VaultCall H B W → Device H B W × γ → Prop}
  (hT : Answers T fails) {α β : Type} {d : Device H B W} {g : γ} {s : Device H B W × γ}
  {tr : List (Event (vaultIface H B W))} {r : Except VaultException β}

/-- A result of the package, or its error. -/
theorem of_ckvf_cases {x : Except CkvfError α} {f : α → DProg H B W β}
    (h : Progress T (ckvf x >>= f) s tr (.ofExcept r) s') :
    (∃ e, x = .error e ∧ r = .error (.ckvf e)) ∨
      ∃ a, x = .ok a ∧ Progress T (f a) s tr (.ofExcept r) s' := by
  cases x with
  | ok a => exact .inr ⟨a, rfl, h⟩
  | error e =>
    obtain ⟨hr, -⟩ := Progress.of_raise h
    exact .inl ⟨e, rfl, hr⟩

/-- A result of the package, in a run that succeeds. -/
theorem of_ckvf {x : Except CkvfError α} {f : α → DProg H B W β} {b : β}
    (h : Progress T (ckvf x >>= f) s tr (.ofExcept (.ok b)) s') :
    ∃ a, x = .ok a ∧ Progress T (f a) s tr (.ofExcept (.ok b)) s' := by
  rcases of_ckvf_cases h with ⟨e, -, hr⟩ | h
  · cases hr
  · exact h

include hT

theorem of_vault {f : UnlockedVault H B W → DProg H B W β} {v : UnlockedVault H B W}
    (hv : d.vault = some v) (h : Progress T (vault >>= f) (d, g) tr (.ofExcept r) s) :
    ∃ tr', Progress T (f v) (d, g) tr' (.ofExcept r) s := by
  obtain ⟨a, s₁, tr', -, ht, h⟩ := Progress.of_call h
  obtain ⟨rfl, rfl⟩ := hT.getVault ht
  simp only [hv] at h
  exact ⟨tr', h⟩

theorem of_entropy {f : Seed → DProg H B W β}
    (h : Progress T (entropy >>= f) s tr (.ofExcept r) s') :
    ∃ seed tr', Progress T (f seed) s tr' (.ofExcept r) s' := by
  obtain ⟨seed, s₁, tr', -, ht, hk⟩ := Progress.of_call h
  have hs := hT.draw (c := .entropy) rfl ht
  subst hs
  exact ⟨seed, tr', hk⟩

theorem of_randomBytes {n : Nat} {f : Bytes → DProg H B W β}
    (h : Progress T (randomBytes n >>= f) s tr (.ofExcept r) s') :
    ∃ b tr', Progress T (f b) s tr' (.ofExcept r) s' := by
  obtain ⟨b, s₁, tr', -, ht, hk⟩ := Progress.of_call h
  have hs := hT.draw (c := .randomBytes n) rfl ht
  subst hs
  exact ⟨b, tr', hk⟩

/-- The vault is stored, and is the open one, unless the store fails. -/
theorem of_persist {f : Unit → DProg H B W β} {v : UnlockedVault H B W}
    (h : Progress T (persist v >>= f) (d, g) tr (.ofExcept r) s) :
    (∃ tr', Progress T (f ()) (installed d v, g) tr' (.ofExcept r) s) ∨
      (∃ e, r = .error e) ∧ ∃ e s₁, T (.write .container (some v.container)) (d, g)
      (.error e) s₁ := by
  obtain ⟨a, s₁, tr₁, -, ht, h⟩ := Progress.of_call h
  rcases hT.write ht with ⟨rfl, hs₁⟩ | ⟨-, ⟨e, rfl⟩, -⟩
  · subst hs₁
    obtain ⟨u, s₂, tr₂, -, ht, h⟩ := Progress.of_call h
    have hs₂ := hT.setVault ht
    subst hs₂
    exact .inl ⟨tr₂, h⟩
  · obtain ⟨hr, -⟩ := Progress.of_raise h
    exact .inr ⟨⟨_, hr⟩, e, s₁, ht⟩

end

end Vault.Dart
