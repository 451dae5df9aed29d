import SdkPubkey.Vault.Proof.Markers
import SdkPubkey.Vault.Proof.Offers

/-!
# The pinned MSK

A device that has pinned an MSK takes over or merges onto no remote vault with another one
(`RespectsPin.refuses`), and the pin moves to no key but one the device produced or already held
(`msk_pin`). The host path checks the MSK of a record (`acceptMsk`); the sync path does not, so the
files of a sync store are assumed to carry the pinned MSK there where they would be taken
(`pinAdmit`).
-/

namespace Vault.Dart

open Ckvf Ckvf.Symbolic Lib

variable {H B W : Type} {L : Ckvf H B W} {S : Seal H B W} {d d' : Device H B W}

/-- A container that this device opens and whose MSK is not the pinned one. -/
def Foreign (L : Ckvf H B W) (d : Device H B W) (c : VaultContainer H B W) : Prop :=
  ∃ v p, openSlot L d c = .ok v ∧ d.store.pinnedMsk = some p ∧ mskOf v.payload ≠ p

def mskChanged : VaultException :=
  .msg "msk_changed" "the stored MSK changed; confirm it with Discovery before syncing"

/-- A record that passes the checks before that of its MSK. -/
def Verified (L : Ckvf H B W) (cfg : Config) (x : Seen H B W) : Prop :=
  ∃ b record v, cfg.binding = some b ∧ x.shown = .record (some record) ∧
    ¬ record.generation < syncBound x.device ∧
    openedRecord L x.device record b.identityId = .ok v

/-- A vault with another MSK than the pinned one is rejected, with `msk_changed` where nothing else
was wrong. -/
abbrev Refuses {α : Type} (L : Ckvf H B W) (cfg : Config) (isPull : Bool) :
    List (Seen H B W) → List (Seen H B W) → Except VaultException α → Device H B W → Prop :=
  Rejects (fun pre x => ∃ c, Offered isPull pre x c ∧ Foreign L x.device c)
    fun x e => Verified L cfg x → e = mskChanged

/-! ## The conditions -/

/-- A vault taken while nothing is pinned has a key that the device is to trust. -/
def FirstTrusted (L : Ckvf H B W) (K : String → Prop) (op : DartOp H B W)
    (s : Device H B W × List (Seen H B W)) (x : Shown H B W) (c : VaultContainer H B W) : Prop :=
  Offered (isPull op) s.2 ⟨s.1, x⟩ c → s.1.store.pinnedMsk = none →
    ∀ v, openSlot L s.1 c = .ok v → K (mskOf v.payload)

/-- The sync store offers no vault with another MSK; `K` holds of the keys trusted first. -/
def pinAdmit (L : Ckvf H B W) (K : String → Prop) (op : DartOp H B W) : Admit H B W := fun c s a =>
  match c, a with
  | .currentRecord _ _, .ok ⟨some record⟩ =>
    FirstTrusted L K op s (.record (some record)) record.container
  | .getGeneration _ n, .ok (some c) => FirstTrusted L K op s (.file n (some c)) c ∧
      (Offered (isPull op) s.2 ⟨s.1, .file n (some c)⟩ c → ¬ Foreign L s.1 c)
  | _, _ => True

/-- `K` holds of the MSKs that the device produces, or is given to hold. -/
def pinPre (L : Ckvf H B W) (S : Seal H B W) (K : String → Prop) (op : DartOp H B W)
    (_ : Device H B W) : Prop :=
  GivenValid S op ∧
    match op with
    | .create .. => ∀ seed o v, L.createVault seed o = .ok v → K (mskOf v.payload)
    | .adopt opened .. => K (mskOf opened.payload)
    | .commit _ change _ => ∀ seed v next, change seed v = .ok next → K (mskOf v.payload) →
        K (mskOf next.payload)
    | .revokeDevice _ => ∀ seed v w, L.replaceMsk seed v = .ok w → K (mskOf w.payload)
    | .rotateToHybridMsk .. => ∀ seed v pk a b w, L.replaceMskHybrid seed v pk a b = .ok w →
        K (mskOf w.payload)
    | _ => True

/-! ## Refusals -/

theorem mskAccepted_foreign {v : UnlockedVault H B W} {p : String}
    (hp : d.store.pinnedMsk = some p) (hv : mskOf v.payload ≠ p) :
    mskAccepted d v = .error mskChanged := by
  simp only [mskAccepted, hp]
  exact if_pos fun h => hv h.symm

theorem examine_foreign (b : VaultHostBinding) {record : VaultRecord H B W}
    (hf : Foreign L d record.container) : ∃ e, examine L d b record = .error e ∧
      (¬ record.generation < syncBound d → (∃ v, openedRecord L d record b.identityId = .ok v) →
        e = mskChanged) := by
  obtain ⟨v, p, ho, hp, hv⟩ := hf
  cases he : examine L d b record with
  | ok head =>
    obtain ⟨-, ho', hm⟩ := examine_ok he
    rw [ho] at ho'
    cases ho'
    rw [mskAccepted_foreign hp hv] at hm
    cases hm
  | error e =>
    refine ⟨e, rfl, fun hg ⟨w, hw⟩ => ?_⟩
    have ho' := openedRecord_ok hw
    rw [ho] at ho'
    cases ho'
    simp only [examine, hg, ↓reduceIte, hw, mskAccepted_foreign hp hv, bind, Except.bind,
      Except.error.injEq] at he
    exact he.symm

section
variable {α : Type} {cfg : Config} {isPull : Bool} {log : List (Seen H B W)}
  {r : Except VaultException α}

/-- Heads and absent files offer nothing. -/
theorem refuses_quiet {l : List (Shown H B W)}
    (h : ∀ x ∈ l, (∃ h, x = .head h) ∨ ∃ n, x = .file n none) :
    Refuses L cfg isPull log (seenBy d l) r d' := by
  refine rejects_of_not fun pre x hx ⟨c, ho, _⟩ => ?_
  obtain ⟨h, rfl⟩ | ⟨n, rfl⟩ := h x hx <;> cases ho

/-- A head and its file were shown, and the file holds no vault with another MSK. -/
theorem refuses_file {head : VaultHead H} {n : Int} {c : VaultContainer H B W}
    (h : Offered isPull (log ++ [⟨d, .head (some head)⟩]) ⟨d, .file n (some c)⟩ c →
      ¬ Foreign L d c) :
    Refuses L cfg isPull log (seenBy d [.head (some head), .file n (some c)]) r d' := by
  refine rejects_cons (fun ⟨_, ho, _⟩ => nomatch ho) (rejects_singleton ?_)
  intro hx
  obtain ⟨c', ho, hf⟩ := hx
  obtain rfl := offered_file ho
  exact (h ho hf).elim

end

section
variable {cfg : Config} {log : List (Seen H B W)} {l : List (Shown H B W)}
  {r : Except VaultException Bool} {adm : Admit H B W} {b : VaultHostBinding}

/-- The checks of a record refuse it, or it has the pinned MSK. -/
theorem refuses_examined {isPull : Bool} (hb : cfg.binding = some b) {record : VaultRecord H B W}
    {x : Except VaultException (UnlockedVault H B W)} (hx : examine L d b record = x)
    (h : ∀ e, x = .error e → r = .error e ∧ d' = d) :
    Refuses L cfg isPull log (seenBy d [.record (some record)]) r d' := by
  refine rejects_singleton fun ⟨c, ho, hf⟩ => ?_
  have hc : c = record.container := by cases ho <;> rfl
  subst hc
  obtain ⟨e, he, hm⟩ := examine_foreign b hf
  obtain ⟨rfl, rfl⟩ := h e (hx.symm.trans he)
  refine ⟨e, rfl, rfl, ?_⟩
  intro hh
  obtain ⟨b', record', v, hb', hr, hg, hv⟩ := hh
  cases hr
  cases hb.symm.trans hb'
  exact hm hg ⟨v, hv⟩

theorem refuses_pulledHost (hb : cfg.binding = some b) (h : PulledHost adm L b d l r d') :
    Refuses L cfg true log (seenBy d l) r d' := by
  cases h with
  | failed e => exact rejects_nil
  | empty => exact rejects_singleton fun ⟨c, ho, _⟩ => nomatch ho
  | same hl _ hh =>
    refine rejects_singleton fun ⟨c, ho, _⟩ => ?_
    cases ho with
    | pulledRecord hl' hne => exact (hne (by rw [hh, Option.some.inj (hl.symm.trans hl')])).elim
  | refused _ _ _ he => exact refuses_examined hb he fun e h => by cases h; exact ⟨rfl, rfl⟩
  | integrated _ _ _ he => exact refuses_examined hb he nofun

theorem refuses_pushedHost (hb : cfg.binding = some b) (h : PushedHost adm L b d l r d') :
    Refuses L cfg false log (seenBy d l) r d' := by
  cases h with
  | failed _ | done | stored | emptied => exact rejects_nil
  | empty => exact rejects_singleton fun ⟨c, ho, _⟩ => nomatch ho
  | behind _ _ hs =>
    refine rejects_singleton fun ⟨c, ho, _⟩ => ?_
    cases ho with
    | pushedRecord hne => exact (hne hs).elim
  | refused _ _ he => exact refuses_examined hb he fun e h => by cases h; exact ⟨rfl, rfl⟩
  | merged _ _ _ he => exact refuses_examined hb he nofun

variable {K : String → Prop} {op : DartOp H B W}

/-- A file of the sync store that is offered does not hold another MSK. -/
theorem notForeign_file {head : VaultHead H} {c : VaultContainer H B W}
    (h : ReadsFile (pinAdmit L K op) d head c)
    (ho : Offered (isPull op) (log ++ [⟨d, .head (some head)⟩])
      ⟨d, .file head.generation (some c)⟩ c) : ¬ Foreign L d c := by
  obtain ⟨_, log', -, h⟩ := h
  exact h (offered_file_iff.2 (offered_file_iff.1 ho))

theorem refuses_pulledSync (h : PulledSync (pinAdmit L K (.pull cfg)) L d l r d') :
    Refuses L cfg true log (seenBy d l) r d' := by
  cases h with
  | failed _ | empty | wrongVault _ _ | same _ _ _ _ | rollback _ => exact refuses_quiet (by simp)
  | missing _ _ hl =>
    refine refuses_quiet fun x hx => ?_
    obtain rfl | hx := List.mem_cons.1 hx
    · exact .inl ⟨_, rfl⟩
    · exact .inr ⟨_, hl x hx⟩
  | refused _ _ hr => exact refuses_file (notForeign_file hr)
  | integrated _ _ _ hr => exact refuses_file (notForeign_file hr)

variable [DecidableEq H]

theorem refuses_pushedSync (hop : isPull op = false)
    (h : PushedSync (pinAdmit L K op) L d l r d') :
    Refuses L cfg false log (seenBy d l) r d' := by
  cases h with
  | failed _ | done | same | rollback | extended | empty => exact refuses_quiet (by simp)
  | missing _ _ hl =>
    refine refuses_quiet fun x hx => ?_
    obtain rfl | hx := List.mem_cons.1 hx
    · exact .inl ⟨_, rfl⟩
    · exact .inr ⟨_, hl x hx⟩
  | behind _ _ hr | refused _ _ hr | merged _ _ hr =>
    exact refuses_file fun ho => notForeign_file hr (hop ▸ ho)

omit [DecidableEq H] in
theorem refuses_pulled {log' : List (Seen H B W)}
    (h : Pulled (pinAdmit L K (.pull cfg)) L cfg d l r d') :
    Refuses L cfg true log' (seenBy d l) r d' := by
  unfold Pulled at h
  split at h
  · exact refuses_pulledSync h
  · split at h
    · obtain ⟨rfl, -, -⟩ := h
      exact refuses_quiet (by simp)
    · rename_i hb
      exact refuses_pulledHost hb h

theorem refuses_pushed {r : Except VaultException Unit} {l log' : List (Seen H B W)}
    (hop : isPull op = false) (h : Pushed (pinAdmit L K op) L cfg d l r d') :
    Refuses L cfg false log' l r d' := by
  unfold Pushed at h
  split at h
  · exact rejects_rounds (fun _ => True)
      (fun _ _ _ _ _ _ h => ⟨refuses_pushedSync hop h, trivial⟩) h trivial log'
  · split at h
    · obtain ⟨rfl, -, -⟩ := h
      exact rejects_nil
    · rename_i hb
      exact rejects_rounds (fun _ => True)
        (fun _ _ _ _ _ _ h => ⟨refuses_pushedHost hb h, trivial⟩) h trivial log'

end

/-! ## Where the keys come from -/

/-- `K` holds of the pinned MSK and of that of the local vault. -/
structure KeysIn (S : Seal H B W) (K : String → Prop) (d : Device H B W) : Prop where
  pin : ∀ p, d.store.pinnedMsk = some p → K p
  stored : ∀ c, d.store.container = some c → K (mskOf (S.contents c))

section
variable {K K' : String → Prop} {P : Prop} {op : DartOp H B W} {v head loc : UnlockedVault H B W}

theorem keysIn_empty : KeysIn S K {} := ⟨fun _ h => (by cases h), fun _ h => (by cases h)⟩

theorem KeysIn.vault (h : KeysIn S K d) (hk : Kept S d) (hv : d.vault = some v) :
    K (mskOf v.payload) := by
  rw [(hk.isSealed v hv).2]
  exact h.stored _ (hk.stored v hv)

theorem KeysIn.installed (h : KeysIn S K d) (hs : S.Sealed v) (hv : K (mskOf v.payload)) :
    KeysIn S K (installed d v) := by
  refine ⟨h.pin, fun c hc => ?_⟩
  cases hc
  rwa [← hs.2]

theorem KeysIn.marked (h : KeysIn S K d) (hv : K (mskOf v.payload)) : KeysIn S K (marked d v) := by
  refine ⟨fun p hp => ?_, h.stored⟩
  cases hp
  exact hv

theorem mskAccepted_ok {p : String} (h : mskAccepted d v = .ok ())
    (hp : d.store.pinnedMsk = some p) :
    mskOf v.payload = p := by
  simp only [mskAccepted, hp] at h
  split at h
  · cases h
  · rename_i hne
    exact (not_not.1 hne).symm

/-- `P` holds unless an MSK is pinned. -/
def UnlessPinned (P : Prop) (d : Device H B W) : Prop := d.store.pinnedMsk = none → P

theorem UnlessPinned.of_eq (h : UnlessPinned P d) (he : d'.store.pinnedMsk = d.store.pinnedMsk) :
    UnlessPinned P d' := fun hn => h (he ▸ hn)

theorem unlessPinned_marked : UnlessPinned P (marked d v) := nofun

theorem KeysIn.trusted (h : KeysIn S K d) (hP : UnlessPinned P d) (hK : P → ∀ q, K' q → K q)
    (hn : d.store.pinnedMsk = none → K' (mskOf v.payload))
    (hp : ∀ p, d.store.pinnedMsk = some p → mskOf v.payload = p) : K (mskOf v.payload) := by
  cases hd : d.store.pinnedMsk with
  | none => exact hK (hP hd) _ (hn hd)
  | some p =>
    rw [hp p hd]
    exact h.pin p hd

theorem KeysIn.record (h : KeysIn S K d) (hP : UnlessPinned P d) (hK : P → ∀ q, K' q → K q)
    {b : VaultHostBinding} {record : VaultRecord H B W}
    (hr : Reads (pinAdmit L K' op) d (some record)) (he : examine L d b record = .ok head)
    (ho : ∀ log, Offered (isPull op) log ⟨d, .record (some record)⟩ record.container) :
    K (mskOf head.payload) := by
  obtain ⟨-, hopen, hm⟩ := examine_ok he
  obtain ⟨_, _, log, ha⟩ := hr
  exact h.trusted hP hK (fun hn => ha (ho log) hn _ hopen) fun p hp => mskAccepted_ok hm hp

theorem KeysIn.file (h : KeysIn S K d) (hP : UnlessPinned P d) (hK : P → ∀ q, K' q → K q)
    {vh : VaultHead H} {c : VaultContainer H B W} (hr : ReadsFile (pinAdmit L K' op) d vh c)
    (hopen : openSlot L d c = .ok head)
    (ho : ∀ log, Offered (isPull op) (log ++ [⟨d, .head (some vh)⟩])
      ⟨d, .file vh.generation (some c)⟩ c) : K (mskOf head.payload) := by
  obtain ⟨_, log, hfirst, hf⟩ := hr
  refine h.trusted hP hK (fun hn => hfirst (ho log) hn _ hopen) fun p hp => ?_
  by_contra hne
  exact hf (ho log) ⟨_, p, hopen, hp, hne⟩

section
variable {r : Except VaultException Unit} {adm : Admit H B W}

theorem keysIn_mergedIn (hL : Sealing L S) (hM : MskLaws L) (h : KeysIn S K d) (hk : Kept S d)
    (hl : d.vault = some loc) (hs : S.Sealed head) (hh : K (mskOf head.payload))
    (hm : MergedIn L d head loc r d') : KeysIn S K d' ∧ d'.store.pinnedMsk = d.store.pinnedMsk := by
  cases hm with
  | merged hm =>
    have hv := hm.next hL hs.1 (hk.vault hl)
    refine ⟨h.installed hv.1.isSealed ?_, rfl⟩
    obtain hmsk | hmsk := hm.msk hM
    · rwa [hmsk]
    · rw [hmsk]
      exact h.vault hk hl
  | failed => exact ⟨h, rfl⟩

theorem keysIn_integrated (hL : Sealing L S) (hM : MskLaws L) (h : KeysIn S K d) (hk : Kept S d)
    (hl : d.vault = some loc) (hs : S.Sealed head) (hh : K (mskOf head.payload))
    (hP : UnlessPinned P d) (hi : Integrated L d head loc r d') :
    KeysIn S K d' ∧ UnlessPinned P d' := by
  cases hi with
  | replaced => exact ⟨(h.marked hh).installed hs hh, nofun⟩
  | merged _ hm =>
    obtain ⟨h', he⟩ := keysIn_mergedIn hL hM h hk hl hs hh hm
    exact ⟨h', hP.of_eq he⟩

theorem keysIn_rechained (hL : Sealing L S) (hM : MskLaws L) (h : KeysIn S K d) (hk : Kept S d)
    (hl : d.vault = some loc) {g : Int} {p : Option H} (hr : Rechained L d loc g p r d') :
    KeysIn S K d' ∧ d'.store.pinnedMsk = d.store.pinnedMsk := by
  cases hr with
  | rechained hr =>
    refine ⟨h.installed (hL.rechained (hk.vault hl) hr).1 ?_, rfl⟩
    rw [hM.rechained hr]
    exact h.vault hk hl
  | failed => exact ⟨h, rfl⟩

end

/-- What a push keeps between its rounds. -/
def PushKeeps (S : Seal H B W) (K : String → Prop) (P : Prop) (d : Device H B W) : Prop :=
  Kept S d ∧ KeysIn S K d ∧ UnlessPinned P d

theorem pushKeeps_host (hL : Sealing L S) (hM : MskLaws L) (hop : isPull op = false)
    (hK : P → ∀ q, K' q → K q) (h : PushKeeps S K P d) {b : VaultHostBinding}
    {l : List (Shown H B W)} {r : Except VaultException Bool}
    (hr : PushedHost (pinAdmit L K' op) L b d l r d') :
    PushKeeps S K P d' := by
  obtain ⟨hk, h, hP⟩ := h
  refine ⟨kept_pushedHost hL hk hr, ?_⟩
  cases hr with
  | failed | done | refused => exact ⟨h, hP⟩
  | stored hl => exact ⟨h.marked (h.vault hk hl), unlessPinned_marked⟩
  | emptied hl _ _ _ hr | empty hl _ hr | behind hl _ _ hr =>
    obtain ⟨h', he⟩ := keysIn_rechained hL hM h hk hl hr
    exact ⟨h', hP.of_eq he⟩
  | merged hl hr hs he hm =>
    have hh := h.record hP hK hr he fun log => by rw [hop]; exact .pushedRecord hs
    obtain ⟨h', he⟩ :=
      keysIn_mergedIn hL hM h hk hl (openSlot_sealed hL (examine_ok he).2.1).2 hh hm
    exact ⟨h', hP.of_eq he⟩

variable [DecidableEq H]

theorem pushKeeps_sync (hL : Sealing L S) (hM : MskLaws L) (hop : isPull op = false)
    (hK : P → ∀ q, K' q → K q) (h : PushKeeps S K P d) {l : List (Shown H B W)}
    {r : Except VaultException Bool}
    (hr : PushedSync (pinAdmit L K' op) L d l r d') : PushKeeps S K P d' := by
  obtain ⟨hk, h, hP⟩ := h
  refine ⟨kept_pushedSync hL hk hr, ?_⟩
  cases hr with
  | failed | done | rollback | missing | refused => exact ⟨h, hP⟩
  | same hl => exact ⟨h.marked (h.vault hk hl), unlessPinned_marked⟩
  | extended hl _ hr =>
    obtain ⟨-, rfl⟩ | ⟨-, rfl⟩ := hr
    · exact ⟨h.marked (h.vault hk hl), unlessPinned_marked⟩
    · exact ⟨h, hP⟩
  | empty hl _ hr | behind hl _ _ _ hr =>
    obtain ⟨h', he⟩ := keysIn_rechained hL hM h hk hl hr
    exact ⟨h', hP.of_eq he⟩
  | merged hl _ hr hs ho hm =>
    have hh := h.file hP hK hr ho fun log => by rw [hop]; exact .pushedFile hs
    obtain ⟨h', he⟩ := keysIn_mergedIn hL hM h hk hl (openSlot_sealed hL ho).2 hh hm
    exact ⟨h', hP.of_eq he⟩

theorem keysIn_pushed (hL : Sealing L S) (hM : MskLaws L) (hop : isPull op = false)
    (hK : P → ∀ q, K' q → K q) (h : PushKeeps S K P d) {cfg : Config} {l : List (Seen H B W)}
    {r : Except VaultException Unit} (hp : Pushed (pinAdmit L K' op) L cfg d l r d') :
    KeysIn S K d' ∧ UnlessPinned P d' :=
  (hp.inv (PushKeeps S K P) (fun _ _ _ _ h => pushKeeps_sync hL hM hop hK h)
    (fun _ _ _ _ _ h => pushKeeps_host hL hM hop hK h) h).2

omit [DecidableEq H] in
theorem keysIn_pulled (hL : Sealing L S) (hM : MskLaws L) (hK : P → ∀ q, K' q → K q)
    (h : PushKeeps S K P d) {cfg : Config} {l : List (Shown H B W)}
    {r : Except VaultException Bool} (hp : Pulled (pinAdmit L K' (.pull cfg)) L cfg d l r d') :
    KeysIn S K d' ∧ UnlessPinned P d' := by
  obtain ⟨hk, h, hP⟩ := h
  unfold Pulled at hp
  split at hp
  · cases hp with
    | failed | empty | wrongVault | rollback | missing | refused => exact ⟨h, hP⟩
    | same => exact ⟨⟨h.pin, h.stored⟩, hP⟩
    | integrated hl _ _ hr ho hh hi =>
      obtain ⟨hc, hs⟩ := openSlot_sealed hL ho
      rw [hc] at hh
      exact keysIn_integrated hL hM h hk hl hs (h.file hP hK hr ho fun _ => .pulledFile hh) hP hi
  · split at hp
    · obtain ⟨-, -, rfl⟩ := hp
      exact ⟨h, hP⟩
    · cases hp with
      | failed | empty | refused => exact ⟨h, hP⟩
      | same => exact ⟨⟨h.pin, h.stored⟩, hP⟩
      | integrated hl hr hne he hi =>
        exact keysIn_integrated hL hM h hk hl (openSlot_sealed hL (examine_ok he).2.1).2
          (h.record hP hK hr he fun _ => .pulledRecord hl hne) hP hi

theorem keysIn_done (hL : Sealing L S) (hM : MskLaws L) (h : KeysIn S K d) (hk : Kept S d)
    (hp : pinPre L S K op d) {log : List (Seen H B W)} {r : Except VaultException Unit}
    (hd : Done (pinAdmit L K op) L op d log r d') : KeysIn S K d' := by
  obtain ⟨hg, hp⟩ := hp
  have hK : True → ∀ q, K q → K q := fun _ _ hq => hq
  have hP : ∀ d : Device H B W, UnlessPinned True d := fun _ _ => trivial
  cases hd with
  | failed | noVault | isHybrid | opened | restarted => exact ⟨h.pin, h.stored⟩
  | created kek slotId hc =>
    exact KeysIn.installed ⟨h.pin, h.stored⟩ (hL.created hc).1 (hp _ _ _ hc)
  | adopted hw =>
    refine KeysIn.installed ⟨h.pin, h.stored⟩ (withDevice_next hL hg hw).isSealed ?_
    obtain ⟨slot, -, hw⟩ := ok_of_bind hw
    rw [hM.slots hw]
    exact hp
  | committed hv hc =>
    exact h.installed (hg _ _ _ (hk.vault hv) hc).1 (hp _ _ _ hc (h.vault hk hv))
  | committedPushed hv hc hpush =>
    have hs := (hg _ _ _ (hk.vault hv) hc).1
    exact (keysIn_pushed hL hM rfl hK
      ⟨kept_installed hs, h.installed hs (hp _ _ _ hc (h.vault hk hv)), hP _⟩ hpush).1
  | pulled hpull => exact (keysIn_pulled hL hM hK ⟨hk, h, hP _⟩ hpull).1
  | pushed hpush => exact (keysIn_pushed hL hM rfl hK ⟨hk, h, hP _⟩ hpush).1
  | revoked _ hv _ _ _ hw =>
    obtain ⟨u, u', -, -, hn⟩ := revokedVault_next hL (hk.vault hv) hw
    obtain ⟨_, -, hw⟩ := ok_of_bind hw
    obtain ⟨_, -, hw⟩ := ok_of_bind hw
    have hmsk := hp _ _ _ hw
    refine KeysIn.installed ⟨fun p hpin => ?_, h.stored⟩ hn.isSealed hmsk
    cases hpin
    exact hmsk
  | hybrid hv hn =>
    exact h.installed (hL.edited (hk.vault hv) (.hybrid _ _ _ _ hn)).isSealed (hp _ _ _ _ _ _ hn)
  | vekRotated hv hn hpush =>
    obtain ⟨u, -, hs⟩ := vekToThisDevice_next hL (hk.vault hv) hn
    obtain ⟨w, hw, hn⟩ := ok_of_bind hn
    have hmsk : K (mskOf _) := (hM.updated hn).symm ▸ (hM.rotated hw).symm ▸ h.vault hk hv
    exact (keysIn_pushed hL hM rfl hK
      ⟨kept_installed hs.isSealed, h.installed hs.isSealed hmsk, hP _⟩ hpush).1
  | cleared => exact keysIn_empty

/-! ## The pin over whole runs -/

/-- A pull or push from `d`, shown `l` after `log`, takes no vault with another MSK than the pinned
one, and leaves the pin or moves it to the MSK of the local vault. -/
structure RespectsPin (L : Ckvf H B W) (S : Seal H B W) (cfg : Config) (isPull : Bool)
    (log l : List (Seen H B W)) (r : Except VaultException Unit) (d d' : Device H B W) : Prop where
  refuses : Refuses L cfg isPull log l r d'
  pin : ∀ p, d.store.pinnedMsk = some p → d'.store.pinnedMsk = some p ∨
    ∃ c, d.store.container = some c ∧ d'.store.pinnedMsk = some (mskOf (S.contents c))

/-- The pinned MSK and that of the local vault. -/
def OwnKey (S : Seal H B W) (d : Device H B W) (q : String) : Prop :=
  d.store.pinnedMsk = some q ∨ ∃ c, d.store.container = some c ∧ q = mskOf (S.contents c)

omit [DecidableEq H] in
theorem keysIn_own (d : Device H B W) : KeysIn S (OwnKey S d) d :=
  ⟨fun _ hp => .inl hp, fun c hc => .inr ⟨c, hc, rfl⟩⟩

omit [DecidableEq H] in
/-- What is pinned after the vaults a device took had its own keys. -/
theorem KeysIn.own (h : KeysIn S (OwnKey S d) d') (hs : d'.store.pinnedMsk ≠ none) {p : String}
    (hp : d.store.pinnedMsk = some p) : d'.store.pinnedMsk = some p ∨
      ∃ c, d.store.container = some c ∧ d'.store.pinnedMsk = some (mskOf (S.contents c)) := by
  obtain ⟨q, hq⟩ := Option.ne_none_iff_exists'.1 hs
  obtain hd | ⟨c, hc, rfl⟩ := h.pin q hq
  · exact .inl (hq.trans (hd.symm.trans hp))
  · exact .inr ⟨c, hc, hq⟩

theorem respectsPin_of_done (hL : Sealing L S) (hM : MskLaws L) (hk : Kept S d) {cfg : Config}
    (hop : op = .pull cfg ∨ op = .push cfg) {l log : List (Seen H B W)}
    {r : Except VaultException Unit} (hd : Done (pinAdmit L K op) L op d l r d') :
    RespectsPin L S cfg (isPull op) log l r d d' := by
  -- nothing is trusted first while an MSK is pinned
  suffices h : Refuses L cfg (isPull op) log l r d' ∧ (d.store.pinnedMsk ≠ none →
      KeysIn S (OwnKey S d) d' ∧ d'.store.pinnedMsk ≠ none) from
    ⟨h.1, fun p hp => (h.2 (by simp [hp])).1.own (h.2 (by simp [hp])).2 hp⟩
  have hkeeps : d.store.pinnedMsk ≠ none → PushKeeps S (OwnKey S d) False d := fun hp =>
    ⟨hk, keysIn_own d, hp⟩
  obtain rfl | rfl := hop
  · cases hd with
    | failed => exact ⟨rejects_nil, fun hp => ⟨keysIn_own d, hp⟩⟩
    | pulled h =>
      refine ⟨(refuses_pulled h).congr fun e he _ => ?_, fun hp => ?_⟩
      · rw [he]
        rfl
      · exact keysIn_pulled hL hM False.elim (hkeeps hp) h
  · cases hd with
    | failed => exact ⟨rejects_nil, fun hp => ⟨keysIn_own d, hp⟩⟩
    | pushed h =>
      exact ⟨refuses_pushed rfl h, fun hp => keysIn_pushed hL hM rfl False.elim (hkeeps hp) h⟩

/-- **The pin holds over every run** whose sync store offers no vault with another MSK: the keys of
the device are in `K`, and from any state a pull or push respects the pin. -/
theorem msk_pin (hL : Sealing L S) (hM : MskLaws L) {s : Device H B W × List (Seen H B W)}
    (h : (session L (pinPre L S K) (pinAdmit L K)).Reaches ({}, []) s) :
    KeysIn S K s.1 ∧ ∀ cfg op, op = .pull cfg ∨ op = .push cfg → ∀ r d' l,
      Runs (aloneTrans (pinAdmit L K op)) (op.prog L) s r (d', s.2 ++ l) →
        RespectsPin L S cfg (isPull op) s.2 l r s.1 d' := by
  have hinv : Kept S s.1 ∧ KeysIn S K s.1 := by
    refine (session L (pinPre L S K) (pinAdmit L K)).inv_run
      (fun s => Kept S s.1 ∧ KeysIn S K s.1) ?_ ?_ h
    · intro op t r u hrely hp hr
      obtain ⟨d, log⟩ := t
      obtain ⟨d', log'⟩ := u
      obtain ⟨hk, hi⟩ := hrely
      obtain ⟨l, -, hd⟩ := done_of_runs L hr
      exact ⟨kept_done hL hk hp.1 hd, keysIn_done hL hM hi hk hp hd⟩
    · exact ⟨kept_empty, keysIn_empty⟩
  refine ⟨hinv.2, fun cfg op hop r d' l hr => ?_⟩
  obtain ⟨l', hl, hd⟩ := done_of_runs L hr
  obtain rfl := List.append_cancel_left hl
  exact respectsPin_of_done hL hM hinv.1 hop hd

end

/-! ## A vault with another MSK -/

/-- The stored vault with a new MSK, as another device may have sealed it. -/
def foreign : Except CkvfError Symbolic.Vault :=
  match storedOnce.1.vault with
  | some v => symbolic.replaceMsk 9 v
  | none => .error ⟨"ERR", none⟩

def foreignRecord : Option (VaultRecord Digest Body Wrap) :=
  foreign.toOption.map fun v => ⟨v.container,
    signatureOf ((decode v.payload.msk.current.publicKey).toOption.getD [])⟩

def refusedPull : DartOp Digest Body Wrap := .pull withHost

/-- The host answers with it. -/
def refusedEvs : List SymEv :=
  [.inl .ok, .inl (.auth (.ok "grant")), .inr (.record (.ok ⟨foreignRecord⟩)), .inl .ok, .inl .ok,
    .inl .ok, .inl .ok, .inl .ok]

def fromStore : VaultCall Digest Body Wrap → Bool
  | .getGeneration .. => true
  | _ => false

theorem fromStore_of_quiet {c : VaultCall Digest Body Wrap} {a : c.Ans}
    (h : quietAnswer c a = true) : fromStore c = false := by
  cases c <;> first | rfl | cases h

/-- A host may answer anything, when every key is trusted first. -/
theorem pinAdmit_host {op : DartOp Digest Body Wrap} {c : VaultCall Digest Body Wrap}
    {s : Device Digest Body Wrap × List (Seen Digest Body Wrap)} {a : c.Ans}
    (hc : fromStore c = false) : pinAdmit symbolic (fun _ => True) op c s a := by
  cases c with
  | currentRecord _ _ =>
    rcases a with e | ⟨_ | record⟩
    · trivial
    · trivial
    · exact fun _ _ _ _ => trivial
  | getGeneration _ _ => cases hc
  | _ => trivial

theorem reaches_storedOnce :
    (session symbolic (pinPre symbolic sealing fun _ => True)
      (pinAdmit symbolic fun _ => True)).Reaches ({}, []) storedOnce :=
  .tail (.single (step_started ⟨trivial, fun _ _ _ _ => trivial⟩ fun _ _ _ h =>
      pinAdmit_host (fromStore_of_quiet h)))
    (step_storedOnce ⟨trivial, trivial⟩ fun _ _ _ h => pinAdmit_host (fromStore_of_quiet h))

theorem msk_pin_refused : ∃ l, RespectsPin symbolic sealing withHost true storedOnce.2 l
    (.error mskChanged) storedOnce.1 storedOnce.1 := by
  have hp := (msk_pin sealing_laws msk_laws reaches_storedOnce).2 withHost refusedPull (.inl rfl)
  refine ⟨_, hp (.error mskChanged) storedOnce.1 [⟨storedOnce.1, .record foreignRecord⟩] ?_⟩
  exact runs_of_run symbolic (fun c _ _ => fromStore c = false) refusedEvs
    (fun _ _ _ => pinAdmit_host) (by decide) (by decide)

def foreignHead : Option (VaultHead Digest) :=
  foreign.toOption.map fun v =>
    ⟨v.container.vaultId, v.container.generation, v.container.generationHash⟩

/-- The sync store has the vault with the new MSK. -/
def takeOver : DartOp Digest Body Wrap := .pull withStore

def takeOverEvs : List SymEv :=
  [.inl .ok, .inr (.head (.ok foreignHead)), .inl .ok, .inl .ok,
    .inr (.file (.ok (foreign.toOption.map (·.container)))), .inl .ok, .inl .ok, .inl .ok, .inl .ok,
    .inl .ok, .inl .ok, .inl .ok, .inl .ok]

def takenOver := runOp symbolic takeOver takeOverEvs storedOnce

/-- The sync path takes the vault over and pins its MSK. -/
theorem pullSync_moves_pin : ∃ s r d' l,
    (session symbolic (fun op _ => GivenValid sealing op) fun _ _ _ _ => True).Reaches ({}, []) s ∧
      Runs (aloneTrans fun _ _ _ => True) (takeOver.prog symbolic) s r (d', s.2 ++ l) ∧
        ¬ RespectsPin symbolic sealing withStore true s.2 l r s.1 d' := by
  refine ⟨storedOnce, .ok (), takenOver.1, takenOver.2, ?_, ?_, fun h => ?_⟩
  · exact .tail (.single (step_started trivial fun _ _ _ _ => trivial))
      (step_storedOnce trivial fun _ _ _ _ => trivial)
  · exact runs_of_run symbolic (fun _ _ _ => True) takeOverEvs (fun _ _ _ _ => trivial)
      (by decide) (by decide)
  · -- the pin is now neither what it was nor the MSK the device had
    obtain ⟨p, hp⟩ := Option.isSome_iff_exists.1
      (by decide : storedOnce.1.store.pinnedMsk.isSome = true)
    obtain h | ⟨c, hc, h⟩ := h.pin p hp
    · exact absurd (h.trans hp.symm) (by decide)
    · have hown : ∀ c ∈ storedOnce.1.store.container,
          takenOver.1.store.pinnedMsk ≠ some (mskOf (sealing.contents c)) := by decide
      exact hown c hc h

end Vault.Dart
