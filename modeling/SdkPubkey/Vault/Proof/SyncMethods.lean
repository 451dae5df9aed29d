import SdkPubkey.Vault.Proof.DartKeeps

/-!
# The methods of a Dart device on the sync store

Each method keeps what `Idle` says of the device and the store (`safe_pull`, `safe_push`,
`safe_commit` and so on), whatever the other devices do to the store (`store_keeps`). No method
raises an `Alarm`, but a push that finds another generation under the number of its own
(`Tampered`).
-/

namespace Vault.Dart

open Ckvf Lib Lib.Protocol Lib.Ledger

variable {H B W : Type} {L : Ckvf H B W} {S : Seal H B W}
  {Le : VaultContainer H B W → VaultContainer H B W → Prop} {hL : Sealing L S}

theorem not_alarm_lost {e : VaultClientError} (h : Lost e) : ¬ Alarm (.client e) := by
  refine not_alarm_client ?_
  rcases h with h | h
  · rw [h]
    decide
  · rw [h]
    decide

/-! ## How a method ends -/

section
variable (Le) (hL : Sealing L S)

/-- The method that started on the device `d` has ended as it should. -/
structure Ended (d : Device H B W) (s : Device H B W × SyncStore H B W) : Prop where
  idle : Idle Le hL s
  grows : Grows Le d s.1

/-- Another generation stands under the number of the local one. -/
def Tampered (s : Device H B W × SyncStore H B W) : Prop :=
  ∃ loc c, s.1.vault = some loc ∧
    s.2.generations loc.container.vaultId loc.container.generation = some c ∧ c ≠ loc.container

/-- The local container has been the head. -/
def Published (s : Device H B W × SyncStore H B W) : Prop :=
  ∀ c, s.1.store.container = some c → Stored Le hL s.2 c

/-- No alarm, or the one that the slot of the local generation is taken. -/
def Fair {α : Type} (r : Except VaultException α) (s : Device H B W × SyncStore H B W) : Prop :=
  ∀ e, r = .error e → Alarm e → e.code = some "sync_tamper" ∧ Tampered s

structure PullEnds {α : Type} (d : Device H B W) (r : Except VaultException α)
    (s : Device H B W × SyncStore H B W) : Prop where
  ended : Ended Le hL d s
  calm : ∀ e, r = .error e → ¬ Alarm e

structure RoundEnds (d : Device H B W) (r : Except VaultException Bool)
    (s : Device H B W × SyncStore H B W) :
    Prop where
  ended : Ended Le hL d s
  fair : Fair r s
  pushed : r = .ok true → Published Le hL s

structure PushEnds (d : Device H B W) (r : Except VaultException Unit)
    (s : Device H B W × SyncStore H B W) :
    Prop where
  ended : Ended Le hL d s
  fair : Fair r s
  pushed : r = .ok () → Published Le hL s

end

section
variable {d d' d'' : Device H B W} {g g' : SyncStore H B W}

theorem Ended.refl (hC : Carries L S Le) (h : Idle Le hL (d, g)) : Ended Le hL d (d, g) :=
  ⟨h, fun c hc => ⟨c, hc, hC.refl c⟩⟩

theorem Ended.mono (h : Ended Le hL d (d', g)) (hr : Rely Le hL g g') : Ended Le hL d (d', g') :=
  ⟨h.idle.mono hr, h.grows⟩

theorem Tampered.mono (h : Tampered (d, g)) (hr : Rely Le hL g g') : Tampered (d, g') := by
  obtain ⟨loc, c, hv, hs, hne⟩ := h
  exact ⟨loc, c, hv, (hr.later _).slot _ _ hs, hne⟩

theorem Published.mono (h : Published Le hL (d, g)) (hr : Rely Le hL g g') :
    Published Le hL (d, g') :=
  fun c hc => (h c hc).mono hr

theorem fair_of_calm {α : Type} {r : Except VaultException α} {s : Device H B W × SyncStore H B W}
    (h : ∀ e, r = .error e → ¬ Alarm e) : Fair r s := fun e he ha => (h e he ha).elim

/-! ## Empty stores -/

/-- A device that stores no vault, nor a marker of one, and has none open. -/
structure Blank (d : Device H B W) : Prop where
  container : d.store.container = none
  synced : d.store.syncedContainer = none
  vault : d.vault = none

theorem Idle.blank (h : Idle Le hL (d, g)) (hc : d.store.container = none)
    (hs : d.store.syncedContainer = none) : Blank d := by
  refine ⟨hc, hs, ?_⟩
  cases hv : d.vault with
  | none => rfl
  | some v => cases hc.symm.trans (h.isOpen v hv)

/-- A device without a vault. -/
theorem Blank.idle (hb : Blank d) (ho : InOrder Le hL g) (hh : d.store.syncedHash = none) :
    Idle Le hL (d, g) := by
  refine ⟨⟨ho, fun c hc => ?_, fun v hv => ?_, fun x hx => ?_, fun c hc => ?_, fun c _ hc => ?_⟩,
    fun v hv => ?_, fun c r hc => ?_⟩
  · cases hb.container.symm.trans hc
  · cases hb.vault.symm.trans hv
  · cases hh.symm.trans hx
  · cases hb.synced.symm.trans hc
  · cases hb.synced.symm.trans hc
  · cases hb.vault.symm.trans hv
  · cases hb.container.symm.trans hc

end

/-! ## The requests -/

section
variable {α : Type} {g g' : SyncStore H B W}

/-- A request that changes nothing. -/
theorem served_read {x : α} {a : Except VaultClientError α} (h : Served g (.ok x, g) a g') :
    g' = g ∧ (a = .ok x ∨ ∃ e, a = .error e ∧ Lost e) := by
  cases h with
  | served => exact ⟨rfl, .inl rfl⟩
  | lost he | dropped he => exact ⟨rfl, .inr ⟨_, rfl, he⟩⟩

end

variable [DecidableEq H] [DecidableEq B] [DecidableEq W]

/-- A device whose local store answers, and the sync store. -/
abbrev storeTrans : Trans H B W (SyncStore H B W) :=
  (vaultEnv syncRemote).Allowed fun c _ a _ => storeAnswers c a

theorem store_setting (hL : Sealing L S) (hC : Carries L S Le) : Reliable storeTrans (Rely Le hL)
    (Guar Le hL) where
  answers := answers_vaultEnv id id
  rely_refl := .refl
  rely_trans := .trans
  same := guar_refl hC

/-- What the methods need of `Idle`. -/
theorem store_keeps (hL : Sealing L S) (hC : Carries L S Le) :
    Keeps S Le storeTrans (Rely Le hL) (Guar Le hL) (Idle Le hL) (Sound S Le) where
  setting := store_setting hL hC
  mono := .mono
  isOpen h hv := h.vault hv
  stored h hc := h.always.container _ hc
  carried hs hb h := h.sound hL hs.1 hb.generation_pos
  install {d g loc next} h hv hs hb hid hle := by
    refine ⟨free_container hb (fun c hc => ?_) fun c hc => ?_, h.installed hC hv hs hb hid hle⟩
    · rw [Option.some.inj (hc.symm.trans (h.isOpen _ hv))]
      exact hle
    · exact hid.trans (h.synced hv hc).2
  opens := free_vault hC
  opened {d g v} h hs hc := by
    refine ⟨⟨h.always.store, h.always.container, fun w hw => ?_, h.always.marked.known,
      h.always.marked.synced, h.always.marked.vaultId⟩, fun w hw => ?_, h.hasSynced⟩
    · cases hw
      exact ⟨hs, h.always.container _ hc⟩
    · cases hw
      exact hc
  own {d g k} v hk := by
    cases k with
    | deviceKek => exact free_set hC (.inl rfl) v
    | deviceSlotId => exact free_set hC (.inr (.inl rfl)) v
    | pinnedMsk => exact free_set hC (.inr (.inr rfl)) v
    | container | syncedHash | syncedContainer => cases hk
  pinned v h := ⟨⟨h.always.store, h.always.container, h.always.vault, h.always.marked.known,
    h.always.marked.synced, h.always.marked.vaultId⟩, h.isOpen, h.hasSynced⟩
  unset := free_none hC
  close := free_close hC
  closed h := ⟨⟨h.always.store, h.always.container, nofun, h.always.marked.known,
    h.always.marked.synced, h.always.marked.vaultId⟩, nofun, h.hasSynced⟩
  empty {d g} h := by
    have hb : Blank ({} : Device H B W) := ⟨rfl, rfl, rfl⟩
    exact hb.idle h.always.store rfl

omit [DecidableEq H] [DecidableEq B] [DecidableEq W] in
theorem fairness : Fairness (Rely Le hL) (Fair (H := H) (B := B) (W := W)) where
  calm := fair_of_calm
  mono h hr := by
    intro e he ha
    obtain ⟨hc, ht⟩ := h e he ha
    exact ⟨hc, ht.mono hr⟩

section
variable {d d' : Device H B W} {g g' : SyncStore H B W} {v : String} {n : Int}

theorem served_request {c : VaultCall H B W} (hc : c.isRequest = true) {a : c.Ans}
    (h : storeTrans c (d, g) a (d', g')) : ∃ ev, syncAnswer c ev g = some (a, g') := by
  obtain ⟨⟨ev, h⟩, -⟩ := h
  obtain ⟨lev, h, -⟩ | ⟨rev, -, h, -⟩ := vaultEnv_step h
  · rw [localStep_request hc] at h
    cases h
  · exact ⟨rev, h⟩

theorem served_getHead {a : Except VaultClientError (Option (VaultHead H))}
    (h : storeTrans (.getHead v) (d, g) a (d', g')) :
    g' = g ∧ (a = .ok (g.heads v) ∨ ∃ e, a = .error e ∧ Lost e) := by
  obtain ⟨ev, h⟩ := served_request rfl h
  exact served_read (served_requestAnswer (Option.some.inj h))

theorem served_getGeneration {a : Except VaultClientError (Option (VaultContainer H B W))}
    (h : storeTrans (.getGeneration v n) (d, g) a (d', g')) :
    g' = g ∧ (a = .ok (g.generations v n) ∨ ∃ e, a = .error e ∧ Lost e) := by
  obtain ⟨ev, h⟩ := served_request rfl h
  exact served_read (served_requestAnswer (Option.some.inj h))

theorem served_putIfAbsent {c : VaultContainer H B W} {a : Except VaultClientError Unit}
    (h : storeTrans (.putIfAbsent v n c) (d, g) a (d', g')) :
    Served g (g.putIfAbsent v n c) a g' := by
  obtain ⟨ev, h⟩ := served_request rfl h
  exact served_requestAnswer (Option.some.inj h)

theorem served_compareAndSwapHead {next : VaultHead H} {expected : Option H}
    {a : Except VaultClientError Bool}
    (h : storeTrans (.compareAndSwapHead next expected) (d, g) a (d', g')) :
    Served g (.ok (g.compareAndSwapHead next expected).1,
        (g.compareAndSwapHead next expected).2) a g' := by
  obtain ⟨ev, h⟩ := served_request rfl h
  exact served_requestAnswer (Option.some.inj h)

end

/-! ## Rules -/

/-- Safety of a device among others. -/
abbrev StoreSafe {α : Type} (Le : VaultContainer H B W → VaultContainer H B W → Prop)
    (hL : Sealing L S)
    (Q : Except VaultException α → Device H B W × SyncStore H B W → Prop) (p : DProg H B W α)
    (d : Device H B W) (g : SyncStore H B W) : Prop :=
  Safely storeTrans (Rely Le hL) (Guar Le hL) Q p d g

section
variable {α : Type} {Q : Except VaultException α → Device H B W × SyncStore H B W → Prop}
    {d : Device H B W}
  {g : SyncStore H B W}

variable (hC : Carries L S Le)
include hC

theorem exec_marks {v : UnlockedVault H B W} (hs : Stored Le hL g v.container)
    (hid : ∀ loc, d.store.container = some loc → loc.vaultId = v.container.vaultId) :
    Exec storeTrans (Rely Le hL) (Guar Le hL) g d (markSynced v) (marked d v)
      (.ret () : DProg H B W Unit) :=
  exec_markSynced (store_setting hL hC) v (free_syncedHash hC hs) (free_syncedContainer hC hs hid)
    (free_set hC (.inr (.inr rfl)) _)

theorem exec_installs {v : UnlockedVault H B W} (hs : S.Sealed v) (hb : Sound S Le v.container)
    (hle : ∀ c, d.store.container = some c → Le c v.container)
    (hid : ∀ c, d.store.syncedContainer = some c → v.container.vaultId = c.vaultId) :
    Exec storeTrans (Rely Le hL) (Guar Le hL) g d (persist v) (installed d v)
      (.ret () : DProg H B W Unit) :=
  exec_persist (store_setting hL hC) v (free_container hb hle hid) (free_vault hC hs hb)

/-- A read of the head. -/
theorem safe_readHead {v : String} {f : Option (VaultHead H) → DProg H B W α}
    (h : Idle Le hL (d, g))
    (hstop : ∀ {g' e}, Rely Le hL g g' → Lost e → StoreSafe Le hL Q (.raise (.client e)) d g')
    (hf : ∀ {g'}, Rely Le hL g g' → Idle Le hL (d, g') → StoreSafe Le hL Q (f (g'.heads v)) d g') :
    StoreSafe Le hL Q (getHead v >>= f) d g := by
  refine safe_getHead (store_setting hL hC) fun g₁ a g₂ hr ht => ⟨?_, ?_⟩
  · obtain ⟨rfl, -⟩ := served_getHead ht
    exact guar_refl hC _
  · obtain ⟨rfl, rfl | ⟨e, rfl, he⟩⟩ := served_getHead ht
    · exact hf hr (h.mono hr)
    · exact hstop hr he

/-- A read of the generation that a head names. -/
theorem safe_readGeneration {c : VaultContainer H B W} {n : Int}
    {f : Option (VaultContainer H B W) → DProg H B W α} (h : Idle Le hL (d, g))
    (hs : Stored Le hL g c) (hn : (c.generation : Int) = n)
    (hstop : ∀ {g' e}, Rely Le hL g g' → Lost e → StoreSafe Le hL Q (.raise (.client e)) d g')
    (hf : ∀ {g'}, Rely Le hL g g' → Idle Le hL (d, g') → Stored Le hL g' c →
      StoreSafe Le hL Q (f (some c)) d g') :
    StoreSafe Le hL Q (getGeneration c.vaultId n >>= f) d g := by
  subst hn
  refine safe_getGeneration (store_setting hL hC) fun g₁ a g₂ hr ht => ⟨?_, ?_⟩
  · obtain ⟨rfl, -⟩ := served_getGeneration ht
    exact guar_refl hC _
  · obtain ⟨rfl, rfl | ⟨e, rfl, he⟩⟩ := served_getGeneration ht
    · rw [(hs.mono hr).generation]
      exact hf hr (h.mono hr) (hs.mono hr)
    · exact hstop hr he

end

/-! ## pull -/

section
variable {d : Device H B W} {g : SyncStore H B W} (hC : Carries L S Le)
include hC

/-- The local vault is a generation that has been the head: the device takes over the head. -/
theorem safe_replace {α : Type} {Q : Except VaultException α → Device H B W ×
    SyncStore H B W → Prop}
    {loc head : UnlockedVault H B W} {f : Unit → DProg H B W α} (h : Idle Le hL (d, g))
    (hv : d.vault = some loc) (hs : S.Sealed head) (hst : Stored Le hL g head.container)
    (hb : Sound S Le head.container)
    (hid : head.container.vaultId = loc.container.vaultId) (hle : Le loc.container head.container)
    (hf : Idle Le hL (installed (marked d head) head, g) →
      StoreSafe Le hL Q (f ()) (installed (marked d head) head) g) :
    StoreSafe Le hL Q (markSynced head >>= fun _ => persist head >>= f) d g := by
  have X := store_setting hL hC
  have hc : d.store.container = some loc.container := h.isOpen _ hv
  refine (exec_marks hC hst fun c h' => ?_).seq X ?_
  · rw [Option.some.inj (h'.symm.trans hc)]
    exact hid.symm
  · refine (exec_installs hC hs hb (fun c h' => ?_) fun c h' => ?_).seq X
        (hf (h.replaced hC hs hb hst))
    · rw [Option.some.inj (h'.symm.trans hc)]
      exact hle
    · rw [← Option.some.inj h']

theorem safe_pullSync (h : Idle Le hL (d, g)) :
    StoreSafe Le hL (PullEnds Le hL d) (pullSync L) d g := by
  have X := store_setting hL hC
  have hstop : ∀ {g e}, Idle Le hL (d, g) → ¬ Alarm e →
      StoreSafe Le hL (PullEnds Le hL d : Except VaultException Bool → _ → Prop)
          (.raise e) d g := by
    intro g e h he
    refine safe_raise fun g' hr => ⟨⟨h.mono hr, .refl hC d⟩, fun e' he' => ?_⟩
    cases he'
    exact he
  have hend : ∀ {d' g} (b : Bool), Idle Le hL (d', g) → Grows Le d d' →
      StoreSafe Le hL (PullEnds Le hL d) (.ret b) d' g := by
    intro d' g b h hg
    refine safe_ret fun g' hr => ⟨⟨h.mono hr, hg⟩, fun e he => ?_⟩
    cases he
  unfold pullSync
  refine safe_vault X (fun loc hv => ?_) fun _ => hstop h (not_alarm_state _)
  refine safe_readHead hC h (fun hr he => hstop (h.mono hr) (not_alarm_lost he))
      fun {g₁} hr h₁ => ?_
  cases hh : g₁.heads loc.container.vaultId with
  | none => exact hend false h₁ (.refl hC d)
  | some head =>
    have hown : head.vaultId = loc.container.vaultId := h₁.always.store.own _ _ hh
    obtain ⟨c, hs, hid, hn, hk⟩ := h₁.always.store.head hh
    obtain ⟨hsl, hbl, hcl⟩ := h₁.vault hv
    dsimp only
    rw [if_neg (not_not.2 hown)]
    refine safe_vault X (fun loc' hv' => ?_) fun hn => absurd (hn.symm.trans hv) nofun
    obtain rfl : loc = loc' := Option.some.inj (hv.symm.trans hv')
    by_cases heq : head.generationHash = loc.container.generationHash
    · -- the local generation is the head
      rw [if_pos heq, ← hk]
      have hsame : c = loc.container := hs.same hsl.1 (hk.trans heq)
      refine (exec_write X .syncedHash _ (free_syncedHash hC hs)).seq X
          (hend false ?_ fun c' h' => ?_)
      · refine h₁.syncedHash hs fun c' h' => ?_
        rw [hsame, Option.some.inj (h'.symm.trans hcl)]
        exact hC.refl _
      · exact ⟨c', h', hC.refl _⟩
    · rw [if_neg heq]
      refine (exec_syncedGeneration X).seq X ?_
      rw [if_neg (h₁.bound hv hh), ← hid]
      refine safe_readGeneration hC h₁ hs hn (fun hr he => hstop (h₁.mono hr) (not_alarm_lost he))
        fun {g₂} hr h₂ hs₂ => ?_
      dsimp only
      refine (exec_openWithDeviceSlot X L c).seqExcept X (fun opened ho => ?_)
        fun e he => hstop h₂ (not_alarm_openSlot he)
      obtain ⟨rfl, hso⟩ := openSlot_sealed hL ho
      rw [if_neg (not_not.2 hk)]
      refine (exec_read X .syncedHash).seq X ?_
      dsimp only [LocalStore.get]
      by_cases hsync : d.store.syncedHash = some loc.container.generationHash
      · -- the local vault has been the head, so the head has what it has
        rw [if_pos hsync]
        obtain ⟨r, hr', he⟩ := h₁.always.marked.known _ hsync
        have hsame : r = loc.container := hr'.same hsl.1 he
        subst hsame
        have hle : Le loc.container opened.container := by
          refine hr'.le hC hs hid.symm ?_
          have hle := hr'.le_head hh
          omega
        exact safe_replace hC h₂ hv hso hs₂ hs₂.sound hid hle fun hi => hend true hi fun c' h' =>
          ⟨_, rfl, by rwa [Option.some.inj (h'.symm.trans hcl)]⟩
      · rw [if_neg hsync]
        -- two branches: the merge has what either of them has
        refine (store_keeps hL hC).safe_mergeAndPersist h₂ hv
            (sound_of_merged hL hC hso hs₂.pos hsl)
          (fun e => hstop h₂ (not_alarm_ckvf e))
          fun m hi hle => hend true hi (grows_installed hcl hle)

end

/-! ## push -/

section
variable {d : Device H B W} {g : SyncStore H B W} {loc : UnlockedVault H B W} (hC : Carries L S Le)
include hC

theorem safe_roundStop {e : VaultException} (h : Idle Le hL (d, g)) (he : ¬ Alarm e) :
    StoreSafe Le hL (RoundEnds Le hL d) (.raise e) d g := by
  refine safe_raise fun g' hr => ⟨.refl hC (h.mono hr), fair_of_calm fun e' he' => ?_, fun hr => ?_⟩
  · cases he'
    exact he
  · cases hr

omit hC in
theorem safe_roundRet {d₀ : Device H B W} {b : Bool} (h : Idle Le hL (d, g)) (hg : Grows Le d₀ d)
    (hb : b = true → Published Le hL (d, g)) : StoreSafe Le hL (RoundEnds Le hL d₀)
    (.ret b) d g := by
  refine safe_ret fun _ hr => ⟨⟨h.mono hr, hg⟩, fair_of_calm fun e he => ?_, fun hr' => ?_⟩
  · cases he
  · exact (hb (Except.ok.inj hr')).mono hr

/-- The local vault is marked as stored. -/
theorem safe_marked (h : Idle Le hL (d, g)) (hv : d.vault = some loc)
    (hs : Stored Le hL g loc.container) :
    StoreSafe Le hL (RoundEnds Le hL d) (markSynced loc >>= fun _ => pure true) d g := by
  have hc : d.store.container = some loc.container := h.isOpen _ hv
  refine (exec_marks hC hs fun c h' => ?_).seq (store_setting hL hC)
    (safe_roundRet (h.marked hC hv hs) (fun c h' => ⟨c, h', hC.refl c⟩) fun _ c h' => ?_)
  · rw [Option.some.inj (h'.symm.trans hc)]
  · rw [Option.some.inj (h'.symm.trans hc)]
    exact hs

theorem safe_extendHead {head : Option (VaultHead H)} (h : Idle Le hL (d, g))
    (hv : d.vault = some loc)
    (hx : Extends (chainOf Le hL loc.container.vaultId) (g.ledger loc.container.vaultId)
    loc.container) (hp : head.map (·.generationHash) = loc.container.previousGenerationHash) :
    StoreSafe Le hL (RoundEnds Le hL d) (extendHead loc head) d g := by
  have X := store_setting hL hC
  unfold extendHead
  refine safe_putIfAbsent X fun g₁ a g₂ hr ht => ?_
  have hput : Guar Le hL (d, g₁)
      (d, (g₁.putIfAbsent loc.container.vaultId loc.container.generation loc.container).2) :=
    guar_put hC (hx.mono (hr.later _))
  cases served_putIfAbsent ht with
  | lost he => exact ⟨hput, safe_roundStop hC (h.mono (hr.trans hput.rely)) (not_alarm_lost he)⟩
  | dropped he => exact ⟨X.same _, safe_roundStop hC (h.mono hr) (not_alarm_lost he)⟩
  | served =>
    refine ⟨hput, ?_⟩
    have h₂ := h.mono (hr.trans hput.rely)
    have hx₂ := hx.mono ((hr.trans hput.rely).later _)
    obtain ⟨hok, herr⟩ := SyncStore.put_answer (g := g₁) (v := loc.container.vaultId)
      (n := loc.container.generation) (c := loc.container)
    cases ha : (g₁.putIfAbsent loc.container.vaultId loc.container.generation loc.container).1 with
    | error e =>
      -- another device has put a generation under this number
      obtain ⟨hcode, existing, hex, hne⟩ := herr e ha
      have ht : Tampered
          (d, (g₁.putIfAbsent loc.container.vaultId loc.container.generation loc.container).2) :=
        ⟨loc, existing, hv, (hput.rely.later _).slot _ _ hex, hne⟩
      refine safe_raise fun g' hr' => ⟨.refl hC (h₂.mono hr'), fun e' he' _ => ?_, fun hr => ?_⟩
      · cases he'
        exact ⟨congrArg some hcode, ht.mono hr'⟩
      · cases hr
    | ok u =>
      have hslot := hok ha
      dsimp only
      refine safe_compareAndSwapHead X fun g₃ b g₄ hr' ht' => ?_
      rw [hp] at ht'
      have h₃ := h₂.mono hr'
      obtain ⟨hswap, hdone⟩ := guar_swap hC h₃.always.store hv (hx₂.mono (hr'.later _))
        ((hr'.later _).slot _ _ hslot) rfl
      cases served_compareAndSwapHead ht' with
      | lost he => exact ⟨hswap, safe_roundStop hC (h₃.mono hswap.rely) (not_alarm_lost he)⟩
      | dropped he => exact ⟨X.same _, safe_roundStop hC h₃ (not_alarm_lost he)⟩
      | served =>
        refine ⟨hswap, ?_⟩
        dsimp only
        split
        · rename_i hb
          exact safe_marked hC (h₃.mono hswap.rely) hv (hdone hb)
        · exact safe_roundRet (h₃.mono hswap.rely) (.refl hC d) nofun

omit hC in
theorem safe_pullRet {α : Type} {a : α} {d₀ : Device H B W} (h : Idle Le hL (d, g))
    (hg : Grows Le d₀ d) :
    StoreSafe Le hL (PullEnds Le hL d₀) (.ret a) d g :=
  safe_ret fun _ hr => ⟨⟨h.mono hr, hg⟩, nofun⟩

theorem safe_pullStop {α : Type} {e : VaultException} (h : Idle Le hL (d, g)) (he : ¬ Alarm e) :
    StoreSafe (α := α) Le hL (PullEnds Le hL d) (.raise e) d g := by
  refine safe_raise fun g' hr => ⟨.refl hC (h.mono hr), fun e' he' => ?_⟩
  cases he'
  exact he

theorem safe_catchUp {head : Option (VaultHead H)} (h : Idle Le hL (d, g)) (hv : d.vault = some loc)
    (hh : g.heads loc.container.vaultId = head) :
    StoreSafe Le hL (PullEnds Le hL d) (catchUp L loc head) d g := by
  have X := store_setting hL hC
  obtain ⟨hsl, hbl, hcl⟩ := h.vault hv
  have hend : ∀ {next : UnlockedVault H B W} {g}, Idle Le hL (installed d next, g) →
      Le loc.container next.container →
      StoreSafe Le hL (PullEnds Le hL d) (.ret ()) (installed d next) g :=
    fun hi hle => safe_pullRet hi (grows_installed hcl hle)
  unfold catchUp
  cases head with
  | none =>
    -- without a head the local keys become the first generation
    dsimp only
    rw [← Prog.bind_ret (persistRechained L loc 1 none)]
    exact (store_keeps hL hC).safe_persistRechained h hv
        (fun hn => sound_of_rechained_first hL hC hsl hn)
      (fun e => safe_pullStop hC h (not_alarm_ckvf e)) fun next hi hle => hend hi hle
  | some head =>
    obtain ⟨c, hs, hid, hn, hk⟩ := h.always.store.head hh
    dsimp only
    rw [← hid]
    refine safe_readGeneration hC h hs hn
        (fun hr he => safe_pullStop hC (h.mono hr) (not_alarm_lost he))
      fun {g₁} hr h₁ hs₁ => ?_
    dsimp only
    refine (exec_read X .syncedHash).seq X ?_
    dsimp only [LocalStore.get]
    by_cases hsync : some head.generationHash = d.store.syncedHash
    · -- the head is what was synced last, and the local vault has what it has
      rw [if_pos hsync, ← hn, ← hk, ← Prog.bind_ret (persistRechained ..)]
      have hle : Le c loc.container := by
        refine h₁.hasSynced _ c hcl hs₁ ?_
        rw [hk]
        exact hsync.symm
      exact (store_keeps hL hC).safe_persistRechained h₁ hv
        (fun hn => sound_of_rechained hL hC hsl hs.valid hid hs.pos hle hn)
        (fun e => safe_pullStop hC h₁ (not_alarm_ckvf e)) fun next hi hle => hend hi hle
    · rw [if_neg hsync]
      -- two branches: the merge has what either of them has
      refine (exec_openWithDeviceSlot X L c).seqExcept X (fun opened ho => ?_)
        fun e he => safe_pullStop hC h₁ (not_alarm_openSlot he)
      obtain ⟨rfl, hso⟩ := openSlot_sealed hL ho
      rw [← Prog.bind_ret (mergeAndPersist L opened loc)]
      exact (store_keeps hL hC).safe_mergeAndPersist h₁ hv (sound_of_merged hL hC hso hs₁.pos hsl)
        (fun e => safe_pullStop hC h₁ (not_alarm_ckvf e))
        fun m hi hle => hend hi hle

omit [DecidableEq B] [DecidableEq W] hC in
/-- The local generation that is to follow the head can be put there. -/
theorem extends_of_parentMatches {head : Option (VaultHead H)} (h : Idle Le hL (d, g))
    (hv : d.vault = some loc)
    (hh : g.heads loc.container.vaultId = head) (hp : parentMatches loc head = true) :
    Extends (chainOf Le hL loc.container.vaultId) (g.ledger loc.container.vaultId) loc.container ∧
      head.map (·.generationHash) = loc.container.previousGenerationHash := by
  obtain ⟨-, hb, -⟩ := h.vault hv
  cases head with
  | none =>
    have hfirst : Extends (chainOf Le hL loc.container.vaultId) (g.ledger loc.container.vaultId)
        loc.container ∧ _ :=
      hb.extends_first (of_decide_eq_true hp)
    exact ⟨hfirst.1, hfirst.2.symm⟩
  | some head =>
    have hprev : loc.container.previousGenerationHash = some head.generationHash :=
      of_decide_eq_true hp
    obtain ⟨c, hs, hid, -, hk⟩ := h.always.store.head hh
    exact ⟨hb.extends_next hs hid (by rw [hk, hprev]), hprev.symm⟩

theorem safe_pushSyncRound (h : Idle Le hL (d, g)) :
    StoreSafe Le hL (RoundEnds Le hL d) (pushSyncRound L) d g := by
  have X := store_setting hL hC
  unfold pushSyncRound
  refine safe_vault X (fun loc hv => ?_) fun _ => safe_roundStop hC h (not_alarm_state _)
  obtain ⟨hsl, hbl, hcl⟩ := h.vault hv
  refine (exec_read X .syncedHash).seq X ?_
  dsimp only [LocalStore.get]
  by_cases hsync : d.store.syncedHash = some loc.container.generationHash
  · -- the local generation has been stored before
    rw [if_pos hsync]
    obtain ⟨r, hr, he⟩ := h.always.marked.known _ hsync
    have hsame : r = loc.container := hr.same hsl.1 he
    subst hsame
    refine safe_roundRet h (.refl hC d) fun _ c h' => ?_
    rw [Option.some.inj (h'.symm.trans hcl)]
    exact hr
  rw [if_neg hsync]
  refine safe_readHead hC h (fun hr he => safe_roundStop hC (h.mono hr) (not_alarm_lost he))
      fun {g₁} hr h₁ => ?_
  refine safe_pushHead X L (fun hdone => ?_) (fun head hh hlt _ => ?_) (fun hp => ?_)
    fun _ _ _ => ?_
  · -- the local generation is the head
    obtain ⟨head, hh, hk⟩ := Option.map_eq_some_iff.1 hdone
    obtain ⟨c, hs, -, -, hk'⟩ := h₁.always.store.head hh
    have hsame : c = loc.container := hs.same hsl.1 (hk'.trans hk)
    subst hsame
    exact safe_marked hC h₁ hv hs
  · -- every head of the remote is above the bound of an idle device
    exact (h₁.bound hv hh hlt).elim
  · obtain ⟨hx, hprev⟩ := extends_of_parentMatches h₁ hv rfl hp
    exact safe_extendHead hC h₁ hv hx hprev
  · refine X.bind ((safe_catchUp hC h₁ hv rfl).imp ?_)
    intro r s hend
    obtain ⟨d', g'⟩ := s
    cases r with
    | error e =>
      refine ⟨hend.ended, fair_of_calm fun e' he' => ?_, nofun⟩
      cases he'
      exact hend.calm e rfl
    | ok a => exact safe_roundRet hend.ended.idle hend.ended.grows nofun

theorem safe_pushSyncRounds (n : Nat) (h : Idle Le hL (d, g)) :
    StoreSafe Le hL (PushEnds Le hL d) (pushSyncRounds L n) d g := by
  induction n generalizing d g with
  | zero =>
    refine safe_raise fun g' hr => ⟨.refl hC (h.mono hr), fair_of_calm fun e he => ?_, nofun⟩
    cases he
    exact not_alarm_msg (by decide)
  | succ n ih =>
    unfold pushSyncRounds
    refine (store_setting hL hC).bind ((safe_pushSyncRound hC h).imp ?_)
    intro r s hend
    obtain ⟨d', g'⟩ := s
    cases r with
    | error e =>
      refine ⟨hend.ended, fun e' he' => ?_, nofun⟩
      cases he'
      exact hend.fair e rfl
    | ok b =>
      cases b with
      | true =>
        have hret : StoreSafe Le hL (PushEnds Le hL d) (.ret ()) d' g' :=
          safe_ret fun g'' hr =>
            ⟨hend.ended.mono hr, fair_of_calm nofun, fun _ => (hend.pushed rfl).mono hr⟩
        exact hret
      | false =>
        refine (ih hend.ended.idle).imp fun r s hp => ?_
        exact ⟨⟨hp.ended.idle, hend.ended.grows.trans hC hp.ended.grows⟩, hp.fair, hp.pushed⟩

/-! ## commit -/

theorem safe_pushStore {cfg : Config} (hcfg : cfg.syncStore = true) (h : Idle Le hL (d, g)) :
    StoreSafe Le hL (fun r s => Idle Le hL s ∧ Grows Le d s.1 ∧ Fair r s) (push L cfg) d g := by
  unfold push
  rw [if_pos hcfg]
  exact (safe_pushSyncRounds hC 4 h).imp fun r s hend =>
    ⟨hend.ended.idle, hend.ended.grows, hend.fair⟩

theorem safe_commit {cfg : Config} {change : Change H B W} {andPush : Bool}
    (hcfg : cfg.syncStore = true) (hch : Carrying S Le change) (h : Idle Le hL (d, g)) :
    StoreSafe Le hL (fun r s => Idle Le hL s ∧
        (∀ e, r = .error e → Alarm e → e.code = some "sync_tamper" ∧ Tampered s ∨
          ∃ seed v, change seed v = .error e) ∧ (r = .ok () → Committed Le change s.1))
      (commit L cfg (fun v => do
        let seed ← entropy
        .ofExcept (change seed v)) andPush) d g := by
  refine ((store_keeps hL hC).safe_commit hC fairness (safe_pushStore hC hcfg) hch h).imp
      fun r s hend => ?_
  obtain ⟨hi, hfair, hdone⟩ := hend
  refine ⟨hi, fun e he ha => ?_, hdone⟩
  rcases hfair with hfair | ⟨e', seed, v, he', hch⟩
  · exact .inl (hfair e he ha)
  · cases he.symm.trans he'
    exact .inr ⟨seed, v, hch⟩

/-! ## The other methods -/

/-- The writes of `create` and `adopt`: `hash` is none, or names a generation that `v` has. -/
theorem safe_setUp {v : UnlockedVault H B W} {kek : Bytes} {slotId : String} {hash : Option H}
    (h : Idle Le hL (d, g)) (hb : Blank d) (hs : S.Sealed v) (hsv : Sound S Le v.container)
    (hhash : ∀ x, hash = some x → ∃ c, Stored Le hL g c ∧ c.generationHash = x ∧ Le c v.container) :
    StoreSafe Le hL (fun _ s => Idle Le hL s)
      (do
        writeDevice kek slotId
        write .syncedHash hash
        persist v) d g := by
  refine (store_keeps hL hC).safe_setUp hs hsv ?_
      (free_container hsv (fun c hc => ?_) fun c hc => ?_) ?_
  · cases hash with
    | none => exact free_none hC .syncedHash
    | some x =>
      obtain ⟨c, hc, rfl, -⟩ := hhash x rfl
      exact free_syncedHash hC hc
  · cases hb.container.symm.trans hc
  · cases hb.synced.symm.trans hc
  · refine ⟨⟨h.always.store, fun c hc => ?_, fun w hw => ?_, fun x hx => ?_,
      fun c hc => ?_, fun c _ hc => ?_⟩, fun w hw => ?_, fun c r hc hr he => ?_⟩
    · cases hc
      exact hsv
    · cases hw
      exact ⟨hs, hsv⟩
    · obtain ⟨c, hc, he, -⟩ := hhash x hx
      exact ⟨c, hc, he⟩
    · cases hb.synced.symm.trans hc
    · cases hb.synced.symm.trans hc
    · cases hw
      rfl
    · cases hc
      obtain ⟨r₀, hr₀, he₀, hle⟩ := hhash _ he
      rw [← hr₀.same hr.valid he₀]
      exact hle

theorem safe_create {email ts : String} {device : VaultDevice} {mskSeed : Option Bytes}
    (h : Idle Le hL (d, g))
    (hb : Blank d) : StoreSafe Le hL (fun _ s => Idle Le hL s)
    (create L email device mskSeed ts) d g := by
  refine (store_keeps hL hC).safe_create hL h fun hs hg hp => ?_
  refine safe_setUp hC h hb hs ⟨⟨hs.1, fun p _ he => ?_⟩, .inl ⟨hp, hg⟩⟩ nofun
  rw [hp] at he
  cases he

theorem safe_adopt {opened : UnlockedVault H B W} {device : VaultDevice}
    {storedOnHost : Bool} {ts : String}
    (h : Idle Le hL (d, g)) (hb : Blank d) (hs : S.Sealed opened)
    (hpos : 0 < opened.container.generation)
    (hstored : storedOnHost = true → Stored Le hL g opened.container) :
    StoreSafe Le hL (fun _ s => Idle Le hL s) (adopt L opened device storedOnHost ts) d g := by
  refine (store_keeps hL hC).safe_adopt hL hC h hs fun hcar => ?_
  refine safe_setUp hC h hb hcar.1.isSealed (hcar.sound hL hs.1 hpos) fun x hx => ?_
  by_cases hon : storedOnHost = true
  · rw [if_pos hon] at hx
    exact ⟨_, hstored hon, Option.some.inj hx, hcar.2⟩
  · rw [if_neg hon] at hx
    cases hx

end

end Vault.Dart
