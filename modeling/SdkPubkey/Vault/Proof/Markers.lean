import SdkPubkey.Vault.Proof.LocalVault

/-!
# The synced markers

`syncedHash` and `syncedContainer` are to name one generation, the last one confirmed as stored.
`Coherent` says so, and `markers_coherent` that it holds after any methods, whatever the remote
answers, as long as

* `create` finds no `syncedContainer`, and `adopt` none but that of the stored generation it takes
  over (both write `syncedHash` and leave `syncedContainer`), and
* a pull that finds the local generation stored, which writes `syncedHash` alone too, finds the
  `syncedContainer` of that generation or none.
-/

namespace Vault.Dart

open Ckvf Ckvf.Symbolic Lib

variable {H B W : Type} {L : Ckvf H B W} {S : Seal H B W} {d d' : Device H B W}

/-- `syncedContainer` is the generation that `syncedHash` names, of the local vault. -/
def Coherent (d : Device H B W) : Prop :=
  ∀ c, d.store.syncedContainer = some c → d.store.syncedHash = some c.generationHash ∧
    ∃ loc, d.store.container = some loc ∧ loc.vaultId = c.vaultId

/-- A generation found stored is that of `syncedContainer`, when there is one. -/
def Confirms (d : Device H B W) (hash : H) : Prop :=
  ∀ c, d.store.syncedContainer = some c → c.generationHash = hash

/-- Where the methods may be started. -/
def markersPre (S : Seal H B W) (op : DartOp H B W) (d : Device H B W) : Prop :=
  GivenValid S op ∧
    match op with
    | .create .. => d.store.syncedContainer = none
    | .adopt opened _ storedOnHost _ => ∀ c, d.store.syncedContainer = some c →
        storedOnHost = true ∧ c.generationHash = opened.container.generationHash ∧
          c.vaultId = opened.container.vaultId
    | _ => True

/-- What a pull may be answered. -/
def markersAdmit : DartOp H B W → Admit H B W
  | .pull _ => fun c s a =>
    match c, a with
    | .currentRecord _ _, .ok ⟨some record⟩ => ∀ loc, s.1.vault = some loc →
        record.generationHash = loc.container.generationHash → Confirms s.1 record.generationHash
    | .getHead _, .ok (some head) => ∀ loc, s.1.vault = some loc →
        head.vaultId = loc.container.vaultId →
        head.generationHash = loc.container.generationHash → Confirms s.1 head.generationHash
    | _, _ => True
  | _ => fun _ _ _ => True

/-! ## The changes -/

theorem coherent_installed (h : Coherent d) (hk : Kept S d) {v next : UnlockedVault H B W}
    (hv : d.vault = some v) (hid : next.container.vaultId = v.container.vaultId) :
    Coherent (installed d next) := by
  intro c hc
  obtain ⟨hs, loc, hl, hloc⟩ := h c hc
  refine ⟨hs, _, rfl, ?_⟩
  rw [hk.stored v hv] at hl
  cases hl
  exact hid.trans hloc

theorem coherent_marked (hk : Kept S d) {loc : UnlockedVault H B W} (hl : d.vault = some loc) :
    Coherent (marked d loc) := by
  intro c h
  cases h
  exact ⟨rfl, _, hk.stored loc hl, rfl⟩

theorem coherent_replaced (d : Device H B W) (head : UnlockedVault H B W) :
    Coherent (installed (marked d head) head) := by
  intro c h
  cases h
  exact ⟨rfl, _, rfl, rfl⟩

theorem coherent_confirmed (h : Coherent d) {hash : H} (hc : Confirms d hash) :
    Coherent (d.set .syncedHash (some hash)) := by
  intro c hs
  obtain ⟨-, hloc⟩ := h c hs
  exact ⟨congrArg some (hc c hs).symm, hloc⟩

section
variable {adm : Admit H B W}

theorem coherent_mergedIn (hL : Sealing L S) (h : Coherent d) (hk : Kept S d)
    {head loc : UnlockedVault H B W} (hl : d.vault = some loc) (hh : S.Valid head.container)
    {r : Except VaultException Unit} (hm : MergedIn L d head loc r d') : Coherent d' := by
  cases hm with
  | merged hm => exact coherent_installed h hk hl (hm.next hL hh (hk.vault hl)).2
  | failed => exact h

theorem coherent_integrated (hL : Sealing L S) (h : Coherent d) (hk : Kept S d)
    {head loc : UnlockedVault H B W} (hl : d.vault = some loc) (hh : S.Valid head.container)
    {r : Except VaultException Unit} (hi : Integrated L d head loc r d') : Coherent d' := by
  cases hi with
  | replaced => exact coherent_replaced d head
  | merged _ hm => exact coherent_mergedIn hL h hk hl hh hm

theorem coherent_rechained (hL : Sealing L S) (h : Coherent d) (hk : Kept S d)
    {loc : UnlockedVault H B W} (hl : d.vault = some loc) {g : Int} {p : Option H}
    {r : Except VaultException Unit} (hr : Rechained L d loc g p r d') : Coherent d' := by
  cases hr with
  | rechained hr => exact coherent_installed h hk hl (hL.rechained (hk.vault hl) hr).2.1
  | failed => exact h

theorem coherent_pulled (hL : Sealing L S) (h : Coherent d) (hk : Kept S d) {cfg : Config}
    {l : List (Shown H B W)} {r : Except VaultException Bool}
    (hp : Pulled (markersAdmit (.pull cfg)) L cfg d l r d') : Coherent d' := by
  unfold Pulled at hp
  split at hp
  · cases hp with
    | failed | empty | wrongVault | rollback | missing | refused => exact h
    | same hl hr hid hh =>
      obtain ⟨_, _, ha⟩ := hr
      exact coherent_confirmed h (ha _ hl hid hh)
    | integrated hl _ _ _ ho _ hi =>
      exact coherent_integrated hL h hk hl (openSlot_sealed hL ho).2.1 hi
  · split at hp
    · obtain ⟨-, -, rfl⟩ := hp
      exact h
    · cases hp with
      | failed | empty | refused => exact h
      | same hl hr hh =>
        obtain ⟨_, _, _, ha⟩ := hr
        exact coherent_confirmed h (ha _ hl hh)
      | integrated hl _ _ he hi =>
        exact coherent_integrated hL h hk hl (openSlot_sealed hL (examine_ok he).2.1).2.1 hi

variable [DecidableEq H]

/-- A push keeps the markers coherent, whatever it is answered. -/
theorem coherent_pushed (hL : Sealing L S) (h : Coherent d) (hk : Kept S d) {cfg : Config}
    {log : List (Seen H B W)} {r : Except VaultException Unit}
    (hp : Pushed adm L cfg d log r d') : Coherent d' := by
  refine (hp.inv (fun d => Coherent d ∧ Kept S d) ?_ ?_ ⟨h, hk⟩).1
  · intro d l r d' hx hr
    obtain ⟨h, hk⟩ := hx
    refine ⟨?_, kept_pushedSync hL hk hr⟩
    cases hr with
    | failed | done | rollback | missing | refused => exact h
    | same hl => exact coherent_marked hk hl
    | extended hl _ hr =>
      obtain ⟨-, rfl⟩ | ⟨-, rfl⟩ := hr
      · exact coherent_marked hk hl
      · exact h
    | empty hl _ hr | behind hl _ _ _ hr => exact coherent_rechained hL h hk hl hr
    | merged hl _ _ _ ho hm => exact coherent_mergedIn hL h hk hl (openSlot_sealed hL ho).2.1 hm
  · intro b d l r d' hx hr
    obtain ⟨h, hk⟩ := hx
    refine ⟨?_, kept_pushedHost hL hk hr⟩
    cases hr with
    | failed | done | refused => exact h
    | stored hl => exact coherent_marked hk hl
    | emptied hl _ _ _ hr | empty hl _ hr | behind hl _ _ hr =>
      exact coherent_rechained hL h hk hl hr
    | merged hl _ _ he hm =>
      exact coherent_mergedIn hL h hk hl (openSlot_sealed hL (examine_ok he).2.1).2.1 hm

/-- Each method keeps the markers coherent where it may be started and answered. -/
theorem coherent_done (hL : Sealing L S) (h : Coherent d) (hk : Kept S d) {op : DartOp H B W}
    (hp : markersPre S op d) {log : List (Seen H B W)} {r : Except VaultException Unit}
    (hd : Done (markersAdmit op) L op d log r d') : Coherent d' := by
  obtain ⟨hg, hp⟩ := hp
  cases hd with
  | failed | noVault | isHybrid | opened | restarted => exact h
  | created kek slotId hc =>
    intro c hs
    exact absurd (hp.symm.trans hs) (by simp)
  | adopted hw =>
    intro c hs
    obtain ⟨hst, hh, hid⟩ := hp c hs
    refine ⟨by simp [enrolled, hst, hh], _, rfl, ?_⟩
    exact (withDevice_next hL hg hw).vaultId.trans hid.symm
  | committed hv hc => exact coherent_installed h hk hv (hg _ _ _ (hk.vault hv) hc).2.1
  | committedPushed hv hc hp =>
    obtain ⟨hs, hid, -⟩ := hg _ _ _ (hk.vault hv) hc
    exact coherent_pushed hL (coherent_installed h hk hv hid) (kept_installed hs) hp
  | pulled hp => exact coherent_pulled hL h hk hp
  | pushed hp => exact coherent_pushed hL h hk hp
  | revoked _ hv _ _ _ hw =>
    obtain ⟨u, u', hn, hn', hn''⟩ := revokedVault_next hL (hk.vault hv) hw
    exact coherent_installed (d := d.set .pinnedMsk _) h ⟨hk.stored, hk.isSealed, hk.valid⟩ hv
      (hn''.vaultId.trans (hn'.vaultId.trans hn.vaultId))
  | hybrid hv hn =>
    exact coherent_installed h hk hv (hL.edited (hk.vault hv) (.hybrid _ _ _ _ hn)).vaultId
  | vekRotated hv hn hp =>
    obtain ⟨u, hn, hn'⟩ := vekToThisDevice_next hL (hk.vault hv) hn
    exact coherent_pushed hL (coherent_installed h hk hv (hn'.vaultId.trans hn.vaultId))
      (kept_installed hn'.isSealed) hp
  | cleared =>
    intro c hx
    cases hx

/-- **The markers are coherent in every state**, and what is read through them, the merge base and
the rollback bound, is the generation that `syncedHash` names. -/
theorem markers_coherent (hL : Sealing L S) {s : Device H B W × List (Seen H B W)}
    (h : (session L (markersPre S) markersAdmit).Reaches ({}, []) s) :
    Coherent s.1 ∧ ∀ v, baseOf L s.1 = some v →
      s.1.store.syncedHash = some v.container.generationHash ∧
        syncBound s.1 = v.container.generation := by
  have hinv : Kept S s.1 ∧ Coherent s.1 := by
    refine (session L (markersPre S) markersAdmit).inv_run
      (fun s => Kept S s.1 ∧ Coherent s.1) ?_ ?_ h
    · intro op t r u hi hp hr
      obtain ⟨d, log⟩ := t
      obtain ⟨d', log'⟩ := u
      obtain ⟨hk, hc⟩ := hi
      obtain ⟨l, -, hd⟩ := done_of_runs L hr
      exact ⟨kept_done hL hk hp.1 hd, coherent_done hL hc hk hp hd⟩
    · exact ⟨kept_empty, fun _ hc => (by cases hc)⟩
  refine ⟨hinv.2, fun v hv => ?_⟩
  obtain ⟨c, hc, ho⟩ := baseOf_ok hv
  obtain ⟨rfl, -⟩ := openSlot_sealed hL ho
  exact ⟨(hinv.2 _ hc).1, by simp [syncBound, hc]⟩

end

/-! ## Runs of one device -/

instance [DecidableEq H] (d : Device H B W) : Decidable (Coherent d) :=
  decidable_of_iff (∀ c ∈ d.store.syncedContainer, d.store.syncedHash = some c.generationHash ∧
    ∃ loc ∈ d.store.container, loc.vaultId = c.vaultId) Iff.rfl

abbrev SymEv := AloneEv Digest Body Wrap

def host : VaultHostBinding := ⟨"me", none⟩

/-- Bound to a host, and with no sync store. -/
def withHost : Config := ⟨some host, false⟩

/-- Synced with a sync store. -/
def withStore : Config := ⟨none, true⟩

def start : DartOp Digest Body Wrap := .create "a@b" ⟨"d1", "Laptop", none⟩ none "now"

def startEvs : List SymEv :=
  [.inl (.bytes (List.replicate 32 7)), .inl (.bytes (List.replicate 16 65)), .inl (.seed 1),
    .inl .ok, .inl .ok, .inl .ok, .inl .ok, .inl .ok]

/-- A push that the host answers with `r`. -/
def pushEvs (r : Except VaultClientError Unit) : List SymEv :=
  [.inl .ok, .inl .ok, .inl .ok, .inr (.put r)] ++
    match r with
    | .ok _ => [.inl .ok, .inl .ok, .inl .ok]
    | .error _ => []

/-- A device that has created its vault, and one that has also stored it on the host. -/
def started := runOp symbolic start startEvs ({}, [])
def storedOnce := runOp symbolic (.push withHost) (pushEvs (.ok ())) started

theorem step_started {pre : DartOp Digest Body Wrap → Device Digest Body Wrap → Prop}
    {adm : DartOp Digest Body Wrap → Admit Digest Body Wrap} (hp : pre start {})
    (ha : ∀ c d a, quietAnswer c a = true → adm start c d a) :
    (session symbolic pre adm).Step ({}, []) started :=
  step_runOp symbolic (fun c _ a => quietAnswer c a = true) hp ha (by decide) (by decide)

theorem step_storedOnce {pre : DartOp Digest Body Wrap → Device Digest Body Wrap → Prop}
    {adm : DartOp Digest Body Wrap → Admit Digest Body Wrap}
    (hp : pre (.push withHost) started.1)
    (ha : ∀ c d a, quietAnswer c a = true → adm (.push withHost) c d a) :
    (session symbolic pre adm).Step started storedOnce :=
  step_runOp symbolic (fun c _ a => quietAnswer c a = true) hp ha (by decide) (by decide)

theorem markers_coherent_stored : Coherent storedOnce.1 :=
  (markers_coherent sealing_laws
    (.tail (.single (step_started ⟨trivial, rfl⟩ fun c _ _ h => by cases c <;> trivial))
      (step_storedOnce ⟨trivial, trivial⟩ fun _ _ _ _ => trivial))).1

/-- An edit of the app. -/
def relabel : Change Digest Body Wrap := fun seed v =>
  (symbolic.updateExtensions seed v []).mapError .ckvf

theorem relabel_keepsVault : KeepsVault sealing relabel := by
  intro seed v next hv h
  have hn := sealing_laws.edited hv (.extensions seed [] (ok_of_mapError h))
  exact ⟨hn.isSealed, hn.vaultId, by rw [hn.generation]; omega⟩

/-- The edit is stored, and the answer of the host is lost. -/
def editedEvs : List SymEv :=
  [.inl .ok, .inl (.seed 2), .inl .ok, .inl .ok] ++
    pushEvs (.error ⟨"network_error", none, none, none⟩)

def edited := runOp symbolic (.commit withHost relabel true) editedEvs storedOnce

/-- The record that the host then has. -/
def editedRecord : Option (VaultRecord Digest Body Wrap) :=
  edited.1.vault.map fun v => ⟨v.container, []⟩

/-- The pull that finds it. -/
def confirmedEvs : List SymEv :=
  [.inl .ok, .inl (.auth (.ok "grant")), .inr (.record (.ok ⟨editedRecord⟩)), .inl .ok, .inl .ok]

def confirmed := runOp symbolic (.pull withHost) confirmedEvs edited

/-- A pull that finds the local generation stored leaves `syncedContainer` behind. -/
theorem pull_leaves_syncedContainer :
    ∃ s, (session symbolic (fun op _ => GivenValid sealing op) fun _ _ _ _ => True).Reaches
      ({}, []) s ∧ ¬ Coherent s.1 := by
  refine ⟨confirmed, ?_, by decide⟩
  refine .tail (.tail (.tail (.single (step_started trivial fun _ _ _ _ => trivial))
    (step_storedOnce trivial fun _ _ _ _ => trivial)) (?_ : Session.Step _ _ edited)) ?_
  · exact step_runOp symbolic (fun _ _ _ => True) relabel_keepsVault (fun _ _ _ _ => trivial)
      (by decide) (by decide)
  · exact step_runOp symbolic (fun _ _ _ => True) trivial (fun _ _ _ _ => trivial) (by decide)
      (by decide)

end Vault.Dart
