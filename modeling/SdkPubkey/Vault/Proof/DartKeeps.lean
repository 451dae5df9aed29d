import SdkPubkey.Vault.Proof.SyncLedger

/-!
# What the methods of a Dart device need of the remote

`Keeps` is what a method has to know of the invariant of a device and of what it shares with others:
that a vault which carries on what the open one has can be stored, and so on. From it follow the
methods that only use the device, and those that end with a push (`Keeps.safe_commit`,
`Keeps.safe_revokeDevice` and so on), for the sync store and for the host alike. An `Alarm` is an
error that blames the remote for its content; `Fairness` is about what is known of the errors of a
push.
-/

namespace Vault.Dart

open Ckvf Lib Lib.Protocol

variable {H B W γ : Type} {L : Ckvf H B W} {S : Seal H B W}
  {Le : VaultContainer H B W → VaultContainer H B W → Prop}

/-! ## Errors -/

/-- The codes of the errors that blame the remote. -/
def alarmCodes : List String := ["sync_head", "sync_missing", "sync_tamper", "generation_rollback"]

def Alarm (e : VaultException) : Prop := ∃ code ∈ alarmCodes, e.code = some code

theorem not_alarm_of_code {e : VaultException} (h : ∀ code, e.code = some code →
    code ∉ alarmCodes) :
    ¬ Alarm e := by
  intro ha
  obtain ⟨code, hm, hc⟩ := ha
  exact h code hc hm

theorem not_alarm_msg {code message : String} (h : code ∉ alarmCodes) :
    ¬ Alarm (VaultException.msg code message) := by
  refine not_alarm_of_code fun c hc => ?_
  rw [← Option.some.inj hc]
  exact h

theorem not_alarm_ckvf (e : CkvfError) : ¬ Alarm (.ckvf e) :=
  not_alarm_of_code fun _ hc => by cases hc

theorem not_alarm_state (message : String) : ¬ Alarm (.state message) :=
  not_alarm_of_code fun _ hc => by cases hc

theorem not_alarm_client {e : VaultClientError} (h : e.code ∉ alarmCodes) :
    ¬ Alarm (.client e) := by
  refine not_alarm_of_code fun c hc => ?_
  rw [← Option.some.inj hc]
  exact h

theorem not_alarm_slotId {d : Device H B W} {e : VaultException} (h : slotIdOf d = .error e) :
    ¬ Alarm e := by
  unfold slotIdOf at h
  split at h
  · cases h
  · cases h
    exact not_alarm_msg (by decide)

theorem not_alarm_kek {d : Device H B W} {e : VaultException} (h : kekOf d = .error e) :
    ¬ Alarm e := by
  unfold kekOf at h
  split at h
  · split at h
    · cases h
    · cases h
      exact not_alarm_ckvf _
  · cases h
    exact not_alarm_msg (by decide)

theorem not_alarm_openSlot {d : Device H B W} {c : VaultContainer H B W} {e : VaultException}
    (h : openSlot L d c = .error e) : ¬ Alarm e := by
  unfold openSlot at h
  cases hs : slotIdOf d with
  | error e' =>
    rw [hs] at h
    cases h
    exact not_alarm_slotId hs
  | ok slotId =>
    cases hk : kekOf d with
    | error e' =>
      rw [hs, hk] at h
      cases h
      exact not_alarm_kek hk
    | ok kek =>
      rw [hs, hk] at h
      cases ho : L.openVaultWithDeviceKek c slotId kek with
      | error e' =>
        rw [ok_bind, ok_bind, ho] at h
        cases h
        exact not_alarm_ckvf _
      | ok v =>
        rw [ok_bind, ok_bind, ho] at h
        cases h

/-! ## What a device keeps -/

section
variable (Le)

/-- The local container is there at the end, with all it had. -/
def Grows (d d' : Device H B W) : Prop :=
  ∀ c, d.store.container = some c → ∃ c', d'.store.container = some c' ∧ Le c c'

/-- The vault that the change has made is in the local container. -/
def Committed (change : Change H B W) (d : Device H B W) : Prop :=
  ∃ seed v next c, change seed v = .ok next ∧ d.store.container = some c ∧ Le next.container c

end

section
variable {d d' d'' : Device H B W}

theorem Grows.refl (hC : Carries L S Le) (d : Device H B W) : Grows Le d d := fun c h =>
  ⟨c, h, hC.refl c⟩

theorem Grows.trans (hC : Carries L S Le) (h : Grows Le d d') (h' : Grows Le d' d'') :
    Grows Le d d'' := by
  intro c hc
  obtain ⟨c', hc', hle⟩ := h c hc
  obtain ⟨c'', hc'', hle'⟩ := h' c' hc'
  exact ⟨c'', hc'', hC.trans hle hle'⟩

theorem grows_installed {loc next : UnlockedVault H B W}
    (hc : d.store.container = some loc.container)
    (hle : Le loc.container next.container) : Grows Le d (installed d next) := by
  intro c h
  rw [Option.some.inj (h.symm.trans hc)]
  exact ⟨_, rfl, hle⟩

end

/-- The device with a key and a slot id of its own. -/
def named (d : Device H B W) (kek : Bytes) (slotId : String) : Device H B W :=
  (d.set .deviceKek (some kek)).set .deviceSlotId (some slotId)

/-- The keys of the store that no marker and no vault is under. -/
def LocalKey.IsOwn : LocalKey → Prop
  | .deviceKek | .deviceSlotId | .pinnedMsk => True
  | .container | .syncedHash | .syncedContainer => False

/-- What the methods need of the invariant `Idle` of a device between them: the vaults it has are
`Good`, and those that carry them on are too, and may be stored. -/
structure Keeps (S : Seal H B W) (Le : VaultContainer H B W → VaultContainer H B W → Prop)
    (T : Trans H B W γ)
    (Rely : γ → γ → Prop) (G : Device H B W × γ → Device H B W × γ → Prop)
    (Idle : Device H B W × γ → Prop) (Good : VaultContainer H B W → Prop) : Prop where
  setting : Reliable T Rely G
  mono : ∀ {d g g'}, Idle (d, g) → Rely g g' → Idle (d, g')
  /-- The open vault is the stored one. -/
  isOpen : ∀ {d g v}, Idle (d, g) → d.vault = some v →
    S.Sealed v ∧ Good v.container ∧ d.store.container = some v.container
  stored : ∀ {d g c}, Idle (d, g) → d.store.container = some c → Good c
  carried : ∀ {v v'}, S.Sealed v → Good v.container → Carried S Le v v' → Good v'.container
  install : ∀ {d g loc next}, Idle (d, g) → d.vault = some loc → S.Sealed next →
      Good next.container →
    next.container.vaultId = loc.container.vaultId → Le loc.container next.container →
      Free Rely G g d (d.set .container (some next.container)) ∧ Idle (installed d next, g)
  opens : ∀ {d g v}, S.Sealed v → Good v.container → Free Rely G g d { d with vault := some v }
  opened : ∀ {d g v}, Idle (d, g) → S.Sealed v → d.store.container = some v.container →
    Idle ({ d with vault := some v }, g)
  own : ∀ {d g} {k : LocalKey} (v : Option (k.Val H B W)), LocalKey.IsOwn k →
      Free Rely G g d (d.set k v)
  pinned : ∀ {d g} (v : Option String), Idle (d, g) → Idle (d.set .pinnedMsk v, g)
  unset : ∀ {d g} (k : LocalKey), Free Rely G g d (d.set k none)
  close : ∀ {d g}, Free Rely G g d { d with vault := none }
  closed : ∀ {d g}, Idle (d, g) → Idle ({ d with vault := none }, g)
  empty : ∀ {d g}, Idle (d, g) → Idle ({}, g)

/-- What is known of the end of a push is known of an end without an alarm, and stays. -/
structure Fairness (Rely : γ → γ → Prop) (Fair : Except VaultException Unit → Device H B W × γ →
    Prop) : Prop where
  calm : ∀ {r s}, (∀ e, r = .error e → ¬ Alarm e) → Fair r s
  mono : ∀ {r d g g'}, Fair r (d, g) → Rely g g' → Fair r (d, g')

/-! ## Rules -/

section
variable {T : Trans H B W γ} {Rely : γ → γ → Prop} {G : Device H B W × γ → Device H B W × γ →
    Prop} {α : Type}
  {Q : Except VaultException α → Device H B W × γ → Prop} {d : Device H B W} {g : γ}

theorem safe_ret {a : α} (h : ∀ g', Rely g g' → Q (.ok a) (d, g')) :
    Safely T Rely G Q (.ret a) d g := by
  intro s' hs
  obtain ⟨d', g'⟩ := s'
  obtain ⟨rfl, hr⟩ := hs
  exact h g' hr

theorem safe_raise {e : VaultException} (h : ∀ g', Rely g g' → Q (.error e) (d, g')) :
    Safely T Rely G Q (.raise e) d g := by
  intro s' hs
  obtain ⟨d', g'⟩ := s'
  obtain ⟨rfl, hr⟩ := hs
  exact h g' hr

end

namespace Keeps

variable {T : Trans H B W γ} {Rely : γ → γ → Prop} {G : Device H B W × γ → Device H B W × γ → Prop}
  {Idle : Device H B W × γ → Prop} {Good : VaultContainer H B W → Prop}
      (K : Keeps S Le T Rely G Idle Good)
  (hL : Sealing L S) (hC : Carries L S Le) {α : Type}
      {Q : Except VaultException α → Device H B W × γ → Prop}
  {d : Device H B W} {g : γ}
include K

/-- A method that stops leaves the device as it is. -/
theorem safe_stop {e : VaultException} (h : Idle (d, g)) :
    Safely T Rely G (fun (_ : Except VaultException α) s => Idle s) (.raise e) d g :=
  safe_raise fun _ hr => K.mono h hr

/-- `persist` of a vault that carries on what the open one has. -/
theorem safe_advance {loc next : UnlockedVault H B W} {f : Unit → DProg H B W α} (h : Idle (d, g))
    (hv : d.vault = some loc) (hs : S.Sealed next) (hb : Good next.container)
    (hid : next.container.vaultId = loc.container.vaultId) (hle : Le loc.container next.container)
    (hf : Idle (installed d next, g) → Safely T Rely G Q (f ()) (installed d next) g) :
    Safely T Rely G Q (persist next >>= f) d g := by
  obtain ⟨hfree, hi⟩ := K.install h hv hs hb hid hle
  exact (exec_persist K.setting next hfree (K.opens hs hb)).seq K.setting (hf hi)

/-- `mergeAndPersist`, where what it makes is in order. -/
theorem safe_mergeAndPersist {head loc : UnlockedVault H B W} {f : Unit → DProg H B W α}
    (h : Idle (d, g)) (hv : d.vault = some loc)
    (hsound : ∀ {m}, Merged L head loc (baseOf L d) m → S.Sealed m ∧ Good m.container ∧
      m.container.vaultId = loc.container.vaultId ∧ Le loc.container m.container)
    (hstop : ∀ e, Safely T Rely G Q (.raise (.ckvf e)) d g)
    (hf : ∀ m, Idle (installed d m, g) → Le loc.container m.container →
      Safely T Rely G Q (f ()) (installed d m) g) :
    Safely T Rely G Q (mergeAndPersist L head loc >>= f) d g := by
  have hprog : mergeAndPersist L head loc >>= f = mergeBase L >>= fun base =>
      entropy >>= fun seed =>
      ckvf (L.mergeOnto seed
        { head with payload :=
          (normalize utf16Le (scommIds head.payload loc.payload) head.payload loc.payload).1 }
        { loc with payload :=
          (normalize utf16Le (scommIds head.payload loc.payload) head.payload loc.payload).2 }
        base) >>= fun m => persist m >>= f := by
    simp only [mergeAndPersist, mergeNormalized, Prog.bind_assoc]
  rw [hprog]
  refine (exec_mergeBase K.setting L).seq K.setting ?_
  refine safe_entropy K.setting fun seed => safe_ckvf (fun m hm => ?_) fun e _ => hstop e
  obtain ⟨hms, hmb, hid, hle⟩ := hsound ⟨utf16Le, _, seed, utf16Le_refl, fun _ => Iff.rfl, hm⟩
  exact K.safe_advance h hv hms hmb hid hle fun hi => hf m hi hle

/-- `persistRechained`, where what it makes is in order. -/
theorem safe_persistRechained {loc : UnlockedVault H B W} {generation : Int} {previous : Option H}
    {f : Unit → DProg H B W α} (h : Idle (d, g)) (hv : d.vault = some loc)
    (hsound : ∀ {seed next}, L.rechain seed loc generation previous = .ok next →
      S.Sealed next ∧ Good next.container ∧ next.container.vaultId = loc.container.vaultId ∧
        Le loc.container next.container)
    (hstop : ∀ e, Safely T Rely G Q (.raise (.ckvf e)) d g)
    (hf : ∀ next, Idle (installed d next, g) → Le loc.container next.container →
      Safely T Rely G Q (f ()) (installed d next) g) :
    Safely T Rely G Q (persistRechained L loc generation previous >>= f) d g := by
  have hprog : persistRechained L loc generation previous >>= f = entropy >>= fun seed =>
      ckvf (L.rechain seed loc generation previous) >>= fun next => persist next >>= f := by
    simp only [persistRechained, Prog.bind_assoc]
  rw [hprog]
  refine safe_entropy K.setting fun seed => safe_ckvf (fun next hn => ?_) fun e _ => hstop e
  obtain ⟨hs, hb, hid, hle⟩ := hsound hn
  exact K.safe_advance h hv hs hb hid hle fun hi => hf next hi hle

/-! ## commit -/

section
variable [DecidableEq H] {Fair : Except VaultException Unit → Device H B W × γ → Prop}
    (F : Fairness Rely Fair)
include F

omit K [DecidableEq H] in
theorem fair_ok {s : Device H B W × γ} : Fair (.ok ()) s := F.calm nofun

/-- Only the code `network_error` is taken for no error. -/
theorem safe_pushQuietly {cfg : Config} (h : Idle (d, g)) (hd : Grows Le d d)
    (hpush : Safely T Rely G (fun r s => Idle s ∧ Grows Le d s.1 ∧ Fair r s) (push L cfg) d g) :
    Safely T Rely G (fun r s => Idle s ∧ Grows Le d s.1 ∧ Fair r s) (pushQuietly L cfg) d g := by
  unfold pushQuietly
  by_cases hnone : cfg.binding.isNone ∧ ¬ cfg.syncStore
  · rw [if_pos hnone]
    exact safe_ret fun _ hr => ⟨K.mono h hr, hd, fair_ok F⟩
  rw [if_neg hnone]
  refine safe_handle K.setting.interfere_refl (hpush.imp ?_)
  intro r s hend
  obtain ⟨d', g'⟩ := s
  obtain ⟨hi, hg, hfair⟩ := hend
  cases r with
  | ok a => exact ⟨hi, hg, hfair⟩
  | error e =>
    dsimp only
    by_cases hcode : e.code = some "network_error"
    · rw [if_pos hcode]
      exact safe_ret fun _ hr => ⟨K.mono hi hr, hg, fair_ok F⟩
    · rw [if_neg hcode]
      exact safe_raise fun _ hr => ⟨K.mono hi hr, hg, F.mono hfair hr⟩

include hC

omit F [DecidableEq H] in
theorem carries_on {loc next : UnlockedVault H B W} (hs : S.Sealed loc) (hb : Good loc.container)
    (hn : Relation.ReflTransGen (Carried S Le) loc next) :
    S.Sealed next ∧ Good next.container ∧ next.container.vaultId = loc.container.vaultId ∧
      Le loc.container next.container := by
  induction hn with
  | refl => exact ⟨hs, hb, rfl, hC.refl _⟩
  | tail _ hn ih =>
    obtain ⟨hs', hb', hid, hle⟩ := ih
    exact ⟨hn.1.isSealed, K.carried hs' hb' hn, hn.1.vaultId.trans hid, hC.trans hle hn.2⟩

/-- The end of a commit: the vault that the change made is stored, and pushed. -/
theorem safe_store {loc next : UnlockedVault H B W} {cfg : Config} {andPush : Bool}
    (hpush : ∀ {d g}, Idle (d, g) →
      Safely T Rely G (fun r s => Idle s ∧ Grows Le d s.1 ∧ Fair r s) (push L cfg) d g)
    (h : Idle (d, g)) (hv : d.vault = some loc)
    (hn : Relation.ReflTransGen (Carried S Le) loc next) :
    Safely T Rely G (fun r s => Idle s ∧ Grows Le (installed d next) s.1 ∧ Fair r s)
      (do
        persist next
        if andPush then pushQuietly L cfg else pure ()) d g := by
  obtain ⟨hs, hb, -⟩ := K.isOpen h hv
  obtain ⟨hns, hnb, hid, hle⟩ := K.carries_on hC hs hb hn
  refine K.safe_advance h hv hns hnb hid hle fun hi => ?_
  by_cases hp : andPush = true
  · rw [if_pos hp]
    exact K.safe_pushQuietly F hi (.refl hC _) (hpush hi)
  · rw [if_neg hp]
    exact safe_ret fun _ hr => ⟨K.mono hi hr, .refl hC _, fair_ok F⟩

theorem safe_commit {cfg : Config} {change : Change H B W} {andPush : Bool}
    (hpush : ∀ {d g}, Idle (d, g) →
      Safely T Rely G (fun r s => Idle s ∧ Grows Le d s.1 ∧ Fair r s) (push L cfg) d g)
    (hch : Carrying S Le change) (h : Idle (d, g)) :
    Safely T Rely G
        (fun r s => Idle s ∧ (Fair r s ∨ ∃ e seed v, r = .error e ∧ change seed v = .error e) ∧
        (r = .ok () → Committed Le change s.1))
      (commit L cfg (fun v => do
        let seed ← entropy
        .ofExcept (change seed v)) andPush) d g := by
  unfold commit
  refine safe_vault K.setting (fun loc hv => ?_) fun _ => ?_
  · refine safe_entropy K.setting fun seed => safe_ofExcept (fun next hn => ?_) fun e he => ?_
    · obtain ⟨hs, -, -⟩ := K.isOpen h hv
      refine (K.safe_store hC F hpush h hv (hch seed loc next hs hn)).imp fun r s hend => ?_
      obtain ⟨hi, hg, hfair⟩ := hend
      refine ⟨hi, .inl hfair, fun _ => ?_⟩
      obtain ⟨c, hc, hle⟩ := hg next.container rfl
      exact ⟨seed, loc, next, c, hn, hc, hle⟩
    · exact safe_raise fun _ hr => ⟨K.mono h hr, .inr ⟨e, seed, loc, rfl, he⟩, nofun⟩
  · refine safe_raise fun _ hr => ⟨K.mono h hr, .inl (F.calm fun e he => ?_), nofun⟩
    cases he
    exact not_alarm_state _

include hL in
theorem safe_rotateVekToThisDevice {cfg : Config}
    (hpush : ∀ {d g}, Idle (d, g) →
      Safely T Rely G (fun r s => Idle s ∧ Grows Le d s.1 ∧ Fair r s) (push L cfg) d g)
    (h : Idle (d, g)) :
    Safely T Rely G (fun r s => Idle s ∧ Fair r s) (rotateVekToThisDevice L cfg) d g := by
  have hstop : ∀ {e}, ¬ Alarm e →
      Safely T Rely G (fun (r : Except VaultException Unit) s => Idle s ∧ Fair r s)
          (.raise e) d g := by
    intro e he
    refine safe_raise fun _ hr => ⟨K.mono h hr, F.calm fun e' he' => ?_⟩
    cases he'
    exact he
  have hprog : rotateVekToThisDevice L cfg = vault >>= fun v => deviceKek >>= fun kek =>
      deviceSlotId >>= fun slotId => entropy >>= fun seed =>
        ckvf (vekToThisDevice L seed v kek slotId) >>=
        fun next => persist next >>= fun _ => if true then pushQuietly L cfg else pure () := by
    simp only [rotateVekToThisDevice, commit, Prog.bind_assoc]
  rw [hprog]
  refine safe_vault K.setting (fun loc hv => ?_) fun _ => hstop (not_alarm_state _)
  refine (exec_deviceKek K.setting).seqExcept K.setting (fun kek _ => ?_) fun e he =>
    hstop (not_alarm_kek he)
  refine (exec_deviceSlotId K.setting).seqExcept K.setting (fun slotId _ => ?_)
    fun e he => hstop (not_alarm_slotId he)
  refine safe_entropy K.setting fun seed => safe_ckvf (fun next hn => ?_) fun e _ =>
    hstop (not_alarm_ckvf e)
  obtain ⟨hs, -, -⟩ := K.isOpen h hv
  have hcar : Relation.ReflTransGen (Carried S Le) loc next := by
    obtain ⟨u, hu, hn⟩ := ok_of_bind hn
    have h₁ := carried_edit hL hC hs (.vek seed _ hu)
    exact .tail (.single h₁) (carried_edit hL hC h₁.1.isSealed (.extensions seed _ hn))
  exact (K.safe_store hC F hpush h hv hcar).imp fun r s hend => ⟨hend.1, hend.2.2⟩

end

/-! ## create and adopt -/

/-- The writes of `create` and `adopt`. -/
theorem safe_setUp {v : UnlockedVault H B W} {kek : Bytes} {slotId : String} {hash : Option H}
    (hs : S.Sealed v) (hb : Good v.container)
    (hmark : Free Rely G g (named d kek slotId) ((named d kek slotId).set .syncedHash hash))
    (hinstall : Free Rely G g ((named d kek slotId).set .syncedHash hash)
      (((named d kek slotId).set .syncedHash hash).set .container (some v.container)))
    (hi : Idle (enrolled d kek slotId hash v, g)) :
    Safely T Rely G (fun (_ : Except VaultException Unit) s => Idle s)
      (do
        writeDevice kek slotId
        write .syncedHash hash
        persist v) d g := by
  simp only [writeDevice, Prog.bind_assoc]
  refine (exec_write K.setting .deviceKek _ (K.own _ trivial)).seq K.setting ?_
  refine (exec_write K.setting .deviceSlotId _ (K.own _ trivial)).seq K.setting ?_
  refine (exec_write K.setting .syncedHash hash hmark).seq K.setting ?_
  rw [← Prog.bind_ret (persist v)]
  exact (exec_persist K.setting v hinstall (K.opens hs hb)).seq K.setting
      (safe_ret fun _ hr => K.mono hi hr)

include hL

theorem safe_create {email ts : String} {device : VaultDevice} {mskSeed : Option Bytes}
    (h : Idle (d, g)) (hset : ∀ {v kek slotId}, S.Sealed v → v.container.generation = 1 →
      v.container.previousGenerationHash = none →
        Safely T Rely G (fun (_ : Except VaultException Unit) s => Idle s)
          (do
            writeDevice kek slotId
            write .syncedHash none
            persist v) d g) :
    Safely T Rely G (fun _ s => Idle s) (create L email device mskSeed ts) d g := by
  refine safe_randomBytes K.setting fun kek => safe_randomBytes K.setting fun id => ?_
  refine safe_entropy K.setting fun seed => safe_ckvf (fun v hv => ?_) fun e _ => K.safe_stop h
  obtain ⟨hs, hg, hp⟩ := hL.created hv
  exact hset hs hg hp

include hC

theorem safe_adopt {opened : UnlockedVault H B W} {device : VaultDevice}
    {storedOnHost : Bool} {ts : String} (h : Idle (d, g)) (hs : S.Sealed opened)
    (hset : ∀ {v kek slotId}, Carried S Le opened v →
      Safely T Rely G (fun (_ : Except VaultException Unit) s => Idle s)
        (do
          writeDevice kek slotId
          write .syncedHash (if storedOnHost then some opened.container.generationHash else none)
          persist v) d g) :
    Safely T Rely G (fun _ s => Idle s) (adopt L opened device storedOnHost ts) d g := by
  refine safe_randomBytes K.setting fun kek => safe_randomBytes K.setting fun id => ?_
  refine safe_entropy K.setting fun seed => safe_ckvf (fun v hv => ?_) fun e _ => K.safe_stop h
  exact hset ⟨withDevice_next hL hs.1 hv, hC.enrolled hs hv⟩

omit hL hC

/-! ## The methods that only use the device -/

include hL

theorem safe_openStored (h : Idle (d, g)) : Safely T Rely G (fun _ s => Idle s)
    (openStored L) d g := by
  unfold openStored
  refine (exec_read K.setting .container).seq K.setting ?_
  dsimp only [LocalStore.get]
  cases hc : d.store.container with
  | none => exact safe_ret fun _ hr => K.mono h hr
  | some c =>
    refine (exec_openWithDeviceSlot K.setting L c).seqExcept K.setting (fun v ho => ?_)
      fun e _ => K.safe_stop h
    obtain ⟨rfl, hs⟩ := openSlot_sealed hL ho
    exact (exec_setVault K.setting (some v) (K.opens hs (K.stored h hc))).seq K.setting
      (safe_ret fun _ hr => K.mono (K.opened h hs hc) hr)

include hC

theorem safe_revokeDevice {slotId : String} (h : Idle (d, g)) :
    Safely T Rely G (fun _ s => Idle s) (revokeDevice L slotId) d g := by
  unfold revokeDevice
  refine safe_vault K.setting (fun loc hv => ?_) fun _ => K.safe_stop h
  refine (exec_deviceSlotId K.setting).seqExcept K.setting (fun mySlotId _ => ?_)
      fun e _ => K.safe_stop h
  refine (exec_deviceKek K.setting).seqExcept K.setting (fun myKek _ => ?_) fun e _ => K.safe_stop h
  by_cases hslot : slotId = mySlotId
  · rw [if_pos hslot]
    exact K.safe_stop h
  rw [if_neg hslot]
  refine safe_entropy K.setting fun seed => safe_ckvf (fun next hn => ?_) fun e _ => K.safe_stop h
  refine safe_ckvf (fun newMskPublic _ => ?_) fun e _ => K.safe_stop h
  obtain ⟨hs, hb, -⟩ := K.isOpen h hv
  have hcar : Relation.ReflTransGen (Carried S Le) loc next := by
    obtain ⟨u, hu, hn⟩ := ok_of_bind hn
    obtain ⟨u', hu', hn⟩ := ok_of_bind hn
    have h₁ := carried_edit hL hC hs (.vek seed _ hu)
    have h₂ := carried_edit hL hC h₁.1.isSealed (.extensions seed _ hu')
    exact .tail (.tail (.single h₁) h₂) (carried_edit hL hC h₂.1.isSealed (.msk seed hn))
  obtain ⟨hns, hnb, hid, hle⟩ := K.carries_on hC hs hb hcar
  refine (exec_write K.setting .pinnedMsk _ (K.own _ trivial)).seq K.setting ?_
  refine K.safe_advance (K.pinned _ h) hv hns hnb hid hle fun hi =>
    K.setting.safe_draw rfl fun r => ?_
  cases r with
  | ok a => exact safe_ret fun _ hr => K.mono hi hr
  | error e => exact K.safe_stop hi

theorem safe_rotateToHybridMsk {seeds publicKey : Bytes} (h : Idle (d, g)) :
    Safely T Rely G (fun _ s => Idle s) (rotateToHybridMsk L seeds publicKey) d g := by
  unfold rotateToHybridMsk
  refine safe_vault K.setting (fun loc hv => ?_) fun _ => K.safe_stop h
  by_cases hm : mskIsHybrid loc = true
  · rw [if_pos hm]
    exact safe_ret fun _ hr => K.mono h hr
  rw [if_neg hm]
  refine safe_entropy K.setting fun seed => safe_ckvf (fun next hn => ?_) fun e _ => K.safe_stop h
  obtain ⟨hs, hb, -⟩ := K.isOpen h hv
  obtain ⟨hns, hnb, hid, hle⟩ :=
    K.carries_on hC hs hb (.single (carried_edit hL hC hs (.hybrid _ _ _ _ hn)))
  rw [← Prog.bind_ret (persist next)]
  exact K.safe_advance h hv hns hnb hid hle fun hi => safe_ret fun _ hr => K.mono hi hr

omit hL hC

theorem safe_clear (h : Idle (d, g)) : Safely T Rely G (fun _ s => Idle s) clear d g := by
  unfold clear
  refine (exec_write K.setting .container none (K.unset _)).seq K.setting ?_
  refine (exec_write K.setting .deviceKek none (K.unset _)).seq K.setting ?_
  refine (exec_write K.setting .deviceSlotId none (K.unset _)).seq K.setting ?_
  refine (exec_write K.setting .syncedHash none (K.unset _)).seq K.setting ?_
  refine (exec_write K.setting .syncedContainer none (K.unset _)).seq K.setting ?_
  refine (exec_write K.setting .pinnedMsk none (K.unset _)).seq K.setting ?_
  rw [← Prog.bind_ret (setVault none)]
  refine (exec_setVault K.setting none K.close).seq K.setting (safe_ret fun _ hr => ?_)
  exact K.mono (K.empty h) hr

theorem safe_restart (h : Idle (d, g)) : Safely T Rely G (fun _ s => Idle s)
    (setVault none) d g := by
  rw [← Prog.bind_ret (setVault none)]
  exact (exec_setVault K.setting none K.close).seq K.setting
      (safe_ret fun _ hr => K.mono (K.closed h) hr)

end Keeps

end Vault.Dart
