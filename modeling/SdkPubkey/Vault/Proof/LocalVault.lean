import SdkPubkey.Vault.Proof.Outcomes

/-!
# The local vault of a Dart device

What the changes of a method keep, whatever the remote answers: the open vault is the stored one and
is well formed (`Kept`, `kept_done`), and every vault a device installs is one that the package has
sealed (`withDevice_next`, `revokedVault_next`, `vekToThisDevice_next`).
-/

namespace Vault.Dart

open Ckvf Lib

variable {H B W : Type} {L : Ckvf H B W} {S : Seal H B W} {d d' : Device H B W}

/-- The open vault is the stored one, and that is well formed. -/
structure Kept (S : Seal H B W) (d : Device H B W) : Prop where
  stored : ∀ v, d.vault = some v → d.store.container = some v.container
  isSealed : ∀ v, d.vault = some v → S.Sealed v
  valid : ∀ c, d.store.container = some c → S.Valid c

theorem Kept.vault (h : Kept S d) {v : UnlockedVault H B W} (hv : d.vault = some v) :
    S.Valid v.container := (h.isSealed v hv).1

theorem kept_empty : Kept S {} :=
  ⟨fun _ h => (by cases h), fun _ h => (by cases h), fun _ h => (by cases h)⟩

/-- What the callers of `commit` give it: the result is this or a later generation of the vault. -/
def KeepsVault (S : Seal H B W) (change : Change H B W) : Prop :=
  ∀ seed v next, S.Valid v.container → change seed v = .ok next →
    S.Sealed next ∧ next.container.vaultId = v.container.vaultId ∧
      v.container.generation ≤ next.container.generation

/-! ## Opening -/

theorem openSlot_ok {c : VaultContainer H B W} {v : UnlockedVault H B W}
    (h : openSlot L d c = .ok v) : ∃ slotId kek, L.openVaultWithDeviceKek c slotId kek = .ok v := by
  obtain ⟨slotId, -, h⟩ := ok_of_bind h
  obtain ⟨kek, -, h⟩ := ok_of_bind h
  exact ⟨slotId, kek, ok_of_mapError h⟩

theorem openSlot_sealed (hL : Sealing L S) {c : VaultContainer H B W} {v : UnlockedVault H B W}
    (h : openSlot L d c = .ok v) : v.container = c ∧ S.Sealed v := by
  obtain ⟨slotId, kek, h⟩ := openSlot_ok h
  exact hL.opened h

theorem openedRecord_ok {record : VaultRecord H B W} {identityId : String} {v : UnlockedVault H B W}
    (h : openedRecord L d record identityId = .ok v) : openSlot L d record.container = .ok v := by
  unfold openedRecord at h
  cases ho : openSlot L d record.container with
  | ok head =>
    rw [ho] at h
    dsimp only at h
    cases hv : verifyRecordSignature L record head identityId with
    | ok _ => rw [hv] at h; cases h; rfl
    | error e => rw [hv] at h; cases h
  | error e =>
    rw [ho] at h
    dsimp only at h
    split at h <;> cases h

/-- What an accepted record has passed. -/
theorem examine_ok {b : VaultHostBinding} {record : VaultRecord H B W} {head : UnlockedVault H B W}
    (h : examine L d b record = .ok head) : ¬ record.generation < syncBound d ∧
      openSlot L d record.container = .ok head ∧ mskAccepted d head = .ok () := by
  unfold examine at h
  split at h
  · cases h
  · rename_i hg
    obtain ⟨v, ho, h⟩ := ok_of_bind h
    obtain ⟨⟨⟩, hm, h⟩ := ok_of_bind h
    cases h
    exact ⟨hg, openedRecord_ok ho, hm⟩

theorem baseOf_ok {v : UnlockedVault H B W} (h : baseOf L d = some v) :
    ∃ c, d.store.syncedContainer = some c ∧ openSlot L d c = .ok v := by
  obtain ⟨c, hc, h⟩ := Option.bind_eq_some_iff.1 h
  cases ho : openSlot L d c with
  | ok w => rw [ho] at h; cases h; exact ⟨c, hc, ho⟩
  | error e => rw [ho] at h; cases h

/-! ## The changes that several edits make -/

theorem withDevice_next (hL : Sealing L S) {seed : Seed} {opened v : UnlockedVault H B W}
    {device : VaultDevice} {kek : Bytes} {slotId ts : String} (ho : S.Valid opened.container)
    (h : withDevice L seed opened device kek slotId ts = .ok v) : S.Next opened v := by
  obtain ⟨slot, -, h⟩ := ok_of_bind h
  have hn := hL.edited (by exact ho) (.slots seed _ h)
  exact ⟨hn.isSealed, hn.vaultId, hn.generation, hn.previous⟩

theorem vekToThisDevice_next (hL : Sealing L S) {seed : Seed} {v w : UnlockedVault H B W}
    {kek : Bytes} {slotId : String} (hv : S.Valid v.container)
    (h : vekToThisDevice L seed v kek slotId = .ok w) :
    ∃ u, S.Next v u ∧ S.Next u w := by
  obtain ⟨u, hu, h⟩ := ok_of_bind h
  have hn := hL.edited hv (.vek seed _ hu)
  exact ⟨u, hn, hL.edited hn.isSealed.1 (.extensions seed _ h)⟩

theorem revokedVault_next (hL : Sealing L S) {seed : Seed} {v w : UnlockedVault H B W}
    {mySlotId slotId : String} {myKek : Bytes} (hv : S.Valid v.container)
    (h : revokedVault L seed v mySlotId myKek slotId = .ok w) :
    ∃ u u', S.Next v u ∧ S.Next u u' ∧ S.Next u' w := by
  obtain ⟨u, hu, h⟩ := ok_of_bind h
  obtain ⟨u', hu', h⟩ := ok_of_bind h
  have hn := hL.edited hv (.vek seed _ hu)
  have hn' := hL.edited hn.isSealed.1 (.extensions seed _ hu')
  exact ⟨u, u', hn, hn', hL.edited hn'.isSealed.1 (.msk seed h)⟩

/-! ## What the methods keep -/

theorem kept_installed {v : UnlockedVault H B W} (h : S.Sealed v) : Kept S (installed d v) where
  stored w hw := by cases hw; rfl
  isSealed w hw := by cases hw; exact h
  valid c hc := by cases hc; exact h.1

theorem kept_marked (h : Kept S d) (v : UnlockedVault H B W) : Kept S (marked d v) :=
  ⟨h.stored, h.isSealed, h.valid⟩

section
variable {adm : Admit H B W}

theorem kept_mergedIn (hL : Sealing L S) (h : Kept S d) {head loc : UnlockedVault H B W}
    (hl : d.vault = some loc) (hh : S.Sealed head) {r : Except VaultException Unit}
    (hm : MergedIn L d head loc r d') : Kept S d' := by
  cases hm with
  | merged hm => exact kept_installed (hm.next hL hh.1 (h.vault hl)).1.isSealed
  | failed => exact h

theorem kept_integrated (hL : Sealing L S) (h : Kept S d) {head loc : UnlockedVault H B W}
    (hl : d.vault = some loc) (hh : S.Sealed head) {r : Except VaultException Unit}
    (hi : Integrated L d head loc r d') : Kept S d' := by
  cases hi with
  | replaced => exact kept_installed hh
  | merged _ hm => exact kept_mergedIn hL h hl hh hm

theorem kept_rechained (hL : Sealing L S) (h : Kept S d) {loc : UnlockedVault H B W}
    (hl : d.vault = some loc) {g : Int} {p : Option H} {r : Except VaultException Unit}
    (hr : Rechained L d loc g p r d') : Kept S d' := by
  cases hr with
  | rechained hr => exact kept_installed (hL.rechained (h.vault hl) hr).1
  | failed => exact h

theorem kept_pulled (hL : Sealing L S) (h : Kept S d) {cfg : Config} {l : List (Shown H B W)}
    {r : Except VaultException Bool} (hp : Pulled adm L cfg d l r d') : Kept S d' := by
  unfold Pulled at hp
  split at hp
  · cases hp with
    | same | failed | empty | wrongVault | rollback | missing
    | refused => exact ⟨h.stored, h.isSealed, h.valid⟩
    | integrated hl _ _ _ ho _ hi => exact kept_integrated hL h hl (openSlot_sealed hL ho).2 hi
  · split at hp
    · obtain ⟨-, -, rfl⟩ := hp
      exact h
    · cases hp with
      | same | failed | empty | refused => exact ⟨h.stored, h.isSealed, h.valid⟩
      | integrated hl _ _ he hi =>
        exact kept_integrated hL h hl (openSlot_sealed hL (examine_ok he).2.1).2 hi

theorem kept_pushedHost (hL : Sealing L S) (h : Kept S d) {b : VaultHostBinding}
    {l : List (Shown H B W)} {r : Except VaultException Bool}
    (hr : PushedHost adm L b d l r d') : Kept S d' := by
  cases hr with
  | failed | done | refused => exact h
  | stored => exact kept_marked h _
  | emptied hl _ _ _ hr | empty hl _ hr | behind hl _ _ hr => exact kept_rechained hL h hl hr
  | merged hl _ _ he hm =>
    exact kept_mergedIn hL h hl (openSlot_sealed hL (examine_ok he).2.1).2 hm

variable [DecidableEq H]

theorem kept_pushedSync (hL : Sealing L S) (h : Kept S d) {l : List (Shown H B W)}
    {r : Except VaultException Bool} (hr : PushedSync adm L d l r d') : Kept S d' := by
  cases hr with
  | failed | done | rollback | missing | refused => exact h
  | same => exact kept_marked h _
  | extended _ _ hr =>
    obtain ⟨-, rfl⟩ | ⟨-, rfl⟩ := hr
    · exact kept_marked h _
    · exact h
  | empty hl _ hr | behind hl _ _ _ hr => exact kept_rechained hL h hl hr
  | merged hl _ _ _ ho hm => exact kept_mergedIn hL h hl (openSlot_sealed hL ho).2 hm

theorem kept_pushed (hL : Sealing L S) (h : Kept S d) {cfg : Config} {log : List (Seen H B W)}
    {r : Except VaultException Unit} (hp : Pushed adm L cfg d log r d') : Kept S d' :=
  hp.inv (Kept S) (fun _ _ _ _ hi => kept_pushedSync hL hi)
    (fun _ _ _ _ _ hi => kept_pushedHost hL hi) h

/-- The vaults given to a method are well formed. -/
def GivenValid (S : Seal H B W) : DartOp H B W → Prop
  | .adopt opened _ _ _ => S.Valid opened.container
  | .commit _ change _ => KeepsVault S change
  | _ => True

/-- **Every method keeps the local vault well formed and the open vault stored.** -/
theorem kept_done (hL : Sealing L S) (h : Kept S d) {op : DartOp H B W} (hg : GivenValid S op)
    {log : List (Seen H B W)} {r : Except VaultException Unit} (hd : Done adm L op d log r d') :
    Kept S d' := by
  cases hd with
  | failed | noVault | isHybrid => exact h
  | created _ _ hc => exact kept_installed (hL.created hc).1
  | adopted hw => exact kept_installed (withDevice_next hL hg hw).isSealed
  | opened hc ho =>
    obtain ⟨rfl, hs⟩ := openSlot_sealed hL ho
    exact ⟨fun v hv => by cases hv; exact hc, fun v hv => by cases hv; exact hs, h.valid⟩
  | committed hv hc => exact kept_installed (hg _ _ _ (h.vault hv) hc).1
  | committedPushed hv hc hp =>
    exact kept_pushed hL (kept_installed (hg _ _ _ (h.vault hv) hc).1) hp
  | pulled hp => exact kept_pulled hL h hp
  | pushed hp => exact kept_pushed hL h hp
  | revoked _ hv _ _ _ hw =>
    obtain ⟨u, u', -, -, hn⟩ := revokedVault_next hL (h.vault hv) hw
    exact kept_installed hn.isSealed
  | hybrid hv hn => exact kept_installed (hL.edited (h.vault hv) (.hybrid _ _ _ _ hn)).isSealed
  | vekRotated hv hn hp =>
    obtain ⟨u, -, hn⟩ := vekToThisDevice_next hL (h.vault hv) hn
    exact kept_pushed hL (kept_installed hn.isSealed) hp
  | cleared => exact kept_empty
  | restarted => exact ⟨fun _ hv => (by cases hv), fun _ hv => (by cases hv), h.valid⟩

end

end Vault.Dart
