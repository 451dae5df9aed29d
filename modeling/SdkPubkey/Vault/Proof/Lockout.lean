import SdkPubkey.Vault.Proof.MskPin

/-!
# Revoking a device

`revokeDevice` pins a new MSK (`revoked_pin`). A generation that another device stores before the
revocation is pushed still has the previous one, so every pull and every push that is shown it
throws `msk_changed`: the revoking device never gets past it (`revoke_locks_out`).
-/

namespace Vault.Dart

open Ckvf Ckvf.Symbolic Lib

variable {H B W : Type} {L : Ckvf H B W} {S : Seal H B W} {d d' : Device H B W}

/-- The host's head is one of `heads`: a read returns it, and the put of another generation is
refused. -/
def hostHas (heads : VaultRecord H B W → Prop) : Admit H B W := fun c _ a =>
  match c, a with
  | .currentRecord _ _, .ok x => ∃ record, x.record = some record ∧ heads record
  | .putRecord .., .ok _ => False
  | .putRecord .., .error e => e.code = "generation_conflict" →
      e.detail "head_generation" ≠ some (.num 0)
  | _, _ => True

/-- A generation that another device has stored since the last common head: it is neither the local
nor the synced one, it passes the checks that come before that of its MSK, and it has the MSK
`msk`. -/
structure StoredSince (L : Ckvf H B W) (d : Device H B W) (b : VaultHostBinding)
    (record : VaultRecord H B W) (msk : String) : Prop where
  notSynced : d.store.syncedHash ≠ some record.generationHash
  recent : ¬ record.generation < syncBound d
  opened : ∃ head, openedRecord L d record b.identityId = .ok head ∧ mskOf head.payload = msk

/-! ## After the revocation -/

theorem revokedVault_msk (hM : MskLaws L) {seed : Seed} {v w : UnlockedVault H B W}
    {mySlotId slotId : String} {myKek : Bytes}
    (h : revokedVault L seed v mySlotId myKek slotId = .ok w) : mskOf w.payload ≠
    mskOf v.payload := by
  obtain ⟨u, hu, h⟩ := ok_of_bind h
  obtain ⟨u', hu', h⟩ := ok_of_bind h
  have hmsk : mskOf u'.payload = mskOf v.payload := (hM.updated hu').trans (hM.rotated hu)
  rw [← hmsk]
  exact hM.replaced h

/-- What a revocation that has done its change leaves: a vault with another MSK, and that pinned. -/
theorem revoked_pin [DecidableEq H] (hL : Sealing L S) (hM : MskLaws L) (hk : Kept S d)
    {adm : Admit H B W}
    {slotId : String} {v : UnlockedVault H B W} (hv : d.vault = some v) {l : List (Seen H B W)}
    {r : Except VaultException Unit} (hd : Done adm L (.revokeDevice slotId) d l r d')
    (hne : d' ≠ d) : Kept S d' ∧ ∃ w, d'.vault = some w ∧
      d'.store.pinnedMsk = some (mskOf w.payload) ∧ mskOf w.payload ≠ mskOf v.payload := by
  have hgiven : GivenValid S (.revokeDevice slotId : DartOp H B W) := trivial
  have hk' : Kept S d' := kept_done hL hk hgiven hd
  cases hd with
  | failed => exact (hne rfl).elim
  | revoked _ hv' _ _ _ hw =>
    cases hv.symm.trans hv'
    exact ⟨hk', _, rfl, rfl, revokedVault_msk hM hw⟩

/-! ## Pulls and pushes -/

section
variable {b : VaultHostBinding} {record : VaultRecord H B W} {w : UnlockedVault H B W}
    {msk : String}

/-- The record carries another MSK than the pinned one. -/
theorem examine_storedSince (hp : d.store.pinnedMsk = some (mskOf w.payload))
    (hs : StoredSince L d b record msk) (hm : msk ≠ mskOf w.payload) :
    examine L d b record = .error mskChanged := by
  obtain ⟨head, ho, hmsk⟩ := hs.opened
  have hf : Foreign L d record.container := ⟨head, _, openedRecord_ok ho, hp, by rwa [hmsk]⟩
  obtain ⟨e, he, hc⟩ := examine_foreign b hf
  rw [he, hc hs.recent ⟨head, ho⟩]

/-- A generation with another MSK is not the local one. -/
theorem storedSince_ne (hL : Sealing L S) (hk : Kept S d) (hw : d.vault = some w)
    (hs : StoredSince L d b record msk) (hm : msk ≠ mskOf w.payload) :
    record.generationHash ≠ w.container.generationHash := by
  intro he
  obtain ⟨head, ho, hmsk⟩ := hs.opened
  obtain ⟨hc, hsealed⟩ := openSlot_sealed hL (openedRecord_ok ho)
  have hcw : record.container = w.container :=
    hL.hash_inj (hc ▸ hsealed.1) (hk.vault hw) he
  rw [← hmsk, hsealed.2, hc, hcw, ← (hk.isSealed w hw).2] at hm
  exact hm rfl

/-- A pull or push does nothing, and throws `msk_changed` when it has been shown a record. -/
def Blocked {α : Type} (d : Device H B W) (l : List (Seen H B W)) (r : Except VaultException α)
    (d' : Device H B W) : Prop :=
  d' = d ∧ ∀ record, ⟨d, .record (some record)⟩ ∈ l → r = .error mskChanged

theorem blocked_quiet {α : Type} {r : Except VaultException α} : Blocked d [] r d :=
  ⟨rfl, by simp⟩

variable {heads : VaultRecord H B W → Prop} {l : List (Shown H B W)}
  {r : Except VaultException Bool}

/-- What the host can answer. -/
theorem heads_of_reads (h : Reads (hostHas heads) d (some record)) : heads record := by
  obtain ⟨_, _, _, record', he, hr⟩ := h
  cases he
  exact hr

theorem blocked_pull (hw : d.vault = some w)
    (hne : ∀ record, heads record → record.generationHash ≠ w.container.generationHash)
    (he : ∀ record, heads record → examine L d b record = .error mskChanged)
    (h : PulledHost (hostHas heads) L b d l r d') : Blocked d (seenBy d l) r d' := by
  cases h with
  | failed | empty => exact ⟨rfl, by simp [seenBy]⟩
  | same hl hr hh =>
    cases hw.symm.trans hl
    exact (hne _ (heads_of_reads hr) hh).elim
  | refused _ hr _ he' =>
    cases (he _ (heads_of_reads hr)).symm.trans he'
    exact ⟨rfl, fun _ _ => rfl⟩
  | integrated _ hr _ he' => cases (he _ (heads_of_reads hr)).symm.trans he'

/-- A round does nothing and is the last. -/
theorem blocked_round (hs : ∀ record, heads record → d.store.syncedHash ≠
    some record.generationHash)
    (he : ∀ record, heads record → examine L d b record = .error mskChanged)
    (h : PushedHost (hostHas heads) L b d l r d') :
    Blocked d (seenBy d l) r d' ∧ r ≠ .ok false := by
  cases h with
  | failed | done => exact ⟨blocked_quiet, by simp⟩
  | stored _ hput =>
    obtain ⟨_, _, ha⟩ := hput
    exact ha.elim
  | emptied _ hput hcode hzero =>
    obtain ⟨_, _, ha⟩ := hput
    exact (ha hcode hzero).elim
  | empty _ hr =>
    obtain ⟨_, _, _, _, hnone, -⟩ := hr
    cases hnone
  | behind _ hr hs' => exact (hs _ (heads_of_reads hr) hs').elim
  | refused hr _ he' =>
    cases (he _ (heads_of_reads hr)).symm.trans he'
    exact ⟨⟨rfl, fun _ _ => rfl⟩, by simp⟩
  | merged _ hr _ he' => cases (he _ (heads_of_reads hr)).symm.trans he'

theorem blocked_rounds (hs : ∀ record, heads record → d.store.syncedHash ≠
    some record.generationHash)
    (he : ∀ record, heads record → examine L d b record = .error mskChanged)
    {l : List (Seen H B W)} {r : Except VaultException Unit}
    (h : Rounds (PushedHost (hostHas heads) L b) d l r d') : Blocked d l r d' := by
  cases h with
  | stop => exact blocked_quiet
  | last h =>
    obtain ⟨⟨hd, hm⟩, -⟩ := blocked_round hs he h
    exact ⟨hd, fun record hx => by cases hm record hx⟩
  | error h =>
    obtain ⟨⟨hd, hm⟩, -⟩ := blocked_round hs he h
    exact ⟨hd, fun record hx => by cases hm record hx; rfl⟩
  | next h => exact ((blocked_round hs he h).2 rfl).elim

end

/-! ## The revoking device -/

section
variable [DecidableEq H] {b : VaultHostBinding} {heads : VaultRecord H B W → Prop}

/-- A pull or push with the host. -/
def SyncsWithHost (b : VaultHostBinding) (op : DartOp H B W) : Prop :=
  ∃ cfg, cfg.syncStore = false ∧ cfg.binding = some b ∧ (op = .pull cfg ∨ op = .push cfg)

theorem blocked_done (hL : Sealing L S) (hk : Kept S d) {w : UnlockedVault H B W}
    (hw : d.vault = some w) (hp : d.store.pinnedMsk = some (mskOf w.payload)) {msk : String}
    (hm : msk ≠ mskOf w.payload) (hs : ∀ record, heads record → StoredSince L d b record msk)
    {op : DartOp H B W} (hop : SyncsWithHost b op) {l : List (Seen H B W)}
    {r : Except VaultException Unit} (hd : Done (hostHas heads) L op d l r d') :
    Blocked d l r d' := by
  have hne := fun record hr => storedSince_ne hL hk hw (hs record hr) hm
  have he := fun record hr => examine_storedSince hp (hs record hr) hm
  have hsync := fun record hr => (hs record hr).notSynced
  obtain ⟨cfg, hstore, hb, rfl | rfl⟩ := hop
  · cases hd with
    | failed => exact blocked_quiet
    | pulled h =>
      simp only [Pulled, hstore, hb, Bool.false_eq_true, ↓reduceIte] at h
      obtain ⟨hd, hx⟩ := blocked_pull hw hne he h
      exact ⟨hd, fun record hm => by rw [hx record hm]; rfl⟩
  · cases hd with
    | failed => exact blocked_quiet
    | pushed h =>
      simp only [Pushed, hstore, hb, Bool.false_eq_true, ↓reduceIte] at h
      exact blocked_rounds hsync he h

/-- **The revoking device is locked out.** Once other devices have stored generations with the
previous MSK, no number of pulls and pushes changes it, and each that is shown one throws
`msk_changed`. -/
theorem revoke_locks_out (hL : Sealing L S) (hM : MskLaws L)
    {s s₁ s₂ : Device H B W × List (Seen H B W)}
    (h : (session L (fun op _ => GivenValid S op) fun _ _ _ _ => True).Reaches ({}, []) s)
    {v : UnlockedVault H B W} (hv : s.1.vault = some v) {slotId : String}
    {r₁ : Except VaultException Unit}
    (hr₁ : Runs (aloneTrans fun _ _ _ => True) ((DartOp.revokeDevice slotId).prog L) s r₁ s₁)
    (hdone : s₁.1 ≠ s.1)
    (hs : ∀ record, heads record → StoredSince L s₁.1 b record (mskOf v.payload))
    (h₂ : (session L (fun op _ => SyncsWithHost b op) fun _ => hostHas heads).Reaches s₁ s₂)
    {op : DartOp H B W} (hop : SyncsWithHost b op) {r : Except VaultException Unit}
    {d' : Device H B W} {l : List (Seen H B W)}
    (hr : Runs (aloneTrans (hostHas heads)) (op.prog L) s₂ r (d', s₂.2 ++ l)) :
    Blocked s₁.1 l r d' := by
  have hk : Kept S s.1 := by
    refine Session.inv_run _ (fun s => Kept S s.1) ?_ kept_empty h
    intro op t r u hk hp hr
    obtain ⟨d, log⟩ := t
    obtain ⟨d', log'⟩ := u
    obtain ⟨l, -, hd⟩ := done_of_runs L hr
    exact kept_done hL hk hp hd
  obtain ⟨l₁, -, hd₁⟩ := done_of_runs L hr₁
  obtain ⟨hk₁, w, hw, hpin, hmsk⟩ := revoked_pin hL hM hk hv hd₁ hdone
  -- the device stays what the revocation made it
  have hsame : s₂.1 = s₁.1 := by
    refine Session.inv_run _ (fun s => s.1 = s₁.1) ?_ rfl h₂
    rintro op ⟨d, log⟩ r ⟨d', log'⟩ rfl hp hr
    obtain ⟨l, -, hd⟩ := done_of_runs L hr
    exact (blocked_done hL hk₁ hw hpin hmsk.symm hs hp hd).1
  obtain ⟨l', hl, hd⟩ := done_of_runs L hr
  obtain rfl := List.append_cancel_left hl
  rw [hsame] at hd
  exact blocked_done hL hk₁ hw hpin hmsk.symm hs hop hd

end

/-! ## A revocation that raced with an edit -/

def revokeOther : DartOp Digest Body Wrap := .revokeDevice "other"

def revokeEvs : List SymEv :=
  [.inl .ok, .inl .ok, .inl .ok, .inl (.seed 4), .inl .ok, .inl .ok, .inl .ok,
      .inl (.reply (.ok ()))]

def revoked := runOp symbolic revokeOther revokeEvs storedOnce

/-- Generation 2, as another device has stored it meanwhile. -/
def racingRecord : Option (VaultRecord Digest Body Wrap) :=
  (storedOnce.1.vault.bind fun v => (symbolic.updateExtensions 5 v []).toOption).map fun v =>
    ⟨v.container, signatureOf ((decode v.payload.msk.current.publicKey).toOption.getD [])⟩

def racingPull : DartOp Digest Body Wrap := .pull withHost

def racingEvs : List SymEv :=
  [.inl .ok, .inl (.auth (.ok "grant")), .inr (.record (.ok ⟨racingRecord⟩)), .inl .ok, .inl .ok,
    .inl .ok, .inl .ok, .inl .ok]

theorem runs_revoke : Runs (aloneTrans fun _ _ _ => True) (revokeOther.prog symbolic) storedOnce
    (.ok ()) revoked :=
  runs_of_run symbolic (fun _ _ _ => True) revokeEvs (fun _ _ _ _ => trivial)
      (by decide) (by decide)

theorem storedSince_racing {record : VaultRecord Digest Body Wrap} (h : racingRecord = some record)
    {v : Symbolic.Vault} (hv : storedOnce.1.vault = some v) :
    StoredSince symbolic revoked.1 host record (mskOf v.payload) := by
  have hs : ∀ record ∈ racingRecord, revoked.1.store.syncedHash ≠ some record.generationHash := by
    decide
  have hg : ∀ record ∈ racingRecord, ¬ record.generation < syncBound revoked.1 := by decide
  have ho : ∀ record ∈ racingRecord, ∀ v ∈ storedOnce.1.vault,
      ∃ head ∈ (openedRecord symbolic revoked.1 record host.identityId).toOption,
        mskOf head.payload = mskOf v.payload := by decide
  obtain ⟨head, hh, hmsk⟩ := ho record h v hv
  refine ⟨hs record h, hg record h, head, ?_, hmsk⟩
  cases hx : openedRecord symbolic revoked.1 record host.identityId with
  | ok a => rw [hx] at hh; cases hh; rfl
  | error e => rw [hx] at hh; cases hh

theorem runs_racingPull {record : VaultRecord Digest Body Wrap} (h : racingRecord = some record) :
    Runs (aloneTrans (hostHas (racingRecord = some ·))) (racingPull.prog symbolic) revoked
      (.error mskChanged) (revoked.1, revoked.2 ++ [⟨revoked.1, .record racingRecord⟩]) := by
  refine runs_of_run symbolic (fun c _ a => c.isRequest = false ∨
    shownBy c a = [.record racingRecord]) racingEvs (fun c s a ha => ?_) (by decide) (by decide)
  rcases ha with hq | hr
  · cases c <;> trivial
  · cases c with
    | currentRecord _ _ =>
      rcases a with e | x
      · cases hr
      · have hrec : x.record = racingRecord := by simpa [shownBy] using hr
        exact ⟨record, hrec.trans h, h⟩
    | getHead _ | getGeneration _ _ => rcases a with e | x <;> cases hr
    | _ => cases hr

theorem reaches_stored :
    (session symbolic (fun op _ => GivenValid sealing op) fun _ _ _ _ => True).Reaches ({}, [])
      storedOnce :=
  .tail (.single (step_started trivial fun _ _ _ _ => trivial))
    (step_storedOnce trivial fun _ _ _ _ => trivial)

theorem revoke_locks_out_racing :
    Blocked revoked.1 [⟨revoked.1, .record racingRecord⟩]
      (.error mskChanged : Except VaultException Unit) revoked.1 := by
  obtain ⟨v, hv⟩ := Option.isSome_iff_exists.1 (by decide : storedOnce.1.vault.isSome = true)
  obtain ⟨record, hrecord⟩ := Option.isSome_iff_exists.1
    (by decide : racingRecord.isSome = true)
  exact revoke_locks_out sealing_laws msk_laws reaches_stored hv runs_revoke (by decide)
    (fun _ h => storedSince_racing h hv) .refl ⟨withHost, rfl, rfl, .inl rfl⟩
    (runs_racingPull hrecord)

/-- The device revokes another one, a third one has stored an edit, and the pull throws. -/
theorem revoke_then_pull_throws : ∃ record v,
    (session symbolic (fun op _ => GivenValid sealing op) fun _ _ _ _ => True).Reaches ({}, [])
      storedOnce ∧ storedOnce.1.vault = some v ∧
    Runs (aloneTrans fun _ _ _ => True) (revokeOther.prog symbolic) storedOnce (.ok ()) revoked ∧
    StoredSince symbolic revoked.1 host record (mskOf v.payload) ∧
    Runs (aloneTrans (hostHas (racingRecord = some ·))) (racingPull.prog symbolic) revoked
      (.error mskChanged) (revoked.1, revoked.2 ++ [⟨revoked.1, .record (some record)⟩]) := by
  obtain ⟨v, hv⟩ := Option.isSome_iff_exists.1 (by decide : storedOnce.1.vault.isSome = true)
  obtain ⟨record, hrecord⟩ := Option.isSome_iff_exists.1
    (by decide : racingRecord.isSome = true)
  have hpull := runs_racingPull hrecord
  refine ⟨record, v, reaches_stored, hv, runs_revoke, storedSince_racing hrecord hv, ?_⟩
  rw [← hrecord]
  exact hpull

end Vault.Dart
