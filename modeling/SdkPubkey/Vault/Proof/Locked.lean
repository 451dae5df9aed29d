import SdkPubkey.Vault.Locked
import SdkPubkey.Vault.Proof.SyncRuns

/-!
# Runs of methods that overlap

`methods_overlap`: whatever methods an app calls while others run, each device does one body after
another, as the protocol has it in which a method starts only when none runs; what holds of every
run there (`heads_chain`, `alarms_justified`, `sync_loses_nothing`) holds of `KeyVault`s whose
methods overlap. The bodies begin in the order of the calls, a body that fails does not keep the
next one from its turn, and no call is left waiting.
-/

namespace Vault

open Ckvf Lib Lib.Futures Lib.Protocol Vault.Dart

namespace Locked

variable {ι δ γ Op ε : Type} {I : Iface} {P : Protocol δ γ Op I ε}

/-! ## One `KeyVault` -/

/-- The futures of a `KeyVault` are a queue of the bodies that it has been handed. -/
structure Queued (P : Protocol δ γ Op I ε) (v : VaultLock (Body Op I ε)) (oks : List Bool)
    (ph : Phase (Body Op I ε)) (waiting : List (Body Op I ε)) : Prop where
  futures : v.futures = serial oks ph waiting
  lock : v.lock = v.futures.length - 1
  called : v.called = v.begun ++ waiting
  begun : v.begun.length = oks.length + ph.count
  /-- What runs is what is left of the body that has begun last. -/
  busy : ∀ body, ph = .busy body → v.begun.getLast?.map Prod.fst = some body.1
  programs : ∀ body ∈ v.called, body.2 = P.prog body.1

def Ordered (P : Protocol δ γ Op I ε) (v : VaultLock (Body Op I ε)) : Prop :=
  ∃ oks ph waiting, Queued P v oks ph waiting

section
variable {v v' : VaultLock (Body Op I ε)} {oks : List Bool} {ph : Phase (Body Op I ε)} {t : Nat}
  {waiting : List (Body Op I ε)} {body : Body Op I ε}

theorem ordered_start : Ordered P ({} : VaultLock (Body Op I ε)) :=
  ⟨[], .idle, [], serial_start.symm, rfl, rfl, rfl, nofun, nofun⟩

theorem Queued.job (h : Queued P v oks ph waiting) : v.futures.job = ph.job := by
  rw [h.futures]
  exact serial_job

theorem ordered_locked (h : Ordered P v) (op : Op) :
    Ordered P (v.locked (op, P.prog op)) ∧ (v.locked (op, P.prog op)).futures.job =
        v.futures.job := by
  obtain ⟨oks, ph, waiting, h⟩ := h
  have hfutures : (v.locked (op, P.prog op)).futures = serial oks ph
      (waiting ++ [(op, P.prog op)]) := by
    unfold VaultLock.locked
    rw [h.lock, h.futures]
    exact serial_thenDo
  have hlock : (v.locked (op, P.prog op)).lock = (v.locked (op, P.prog op)).futures.length - 1 := by
    simp [VaultLock.locked, Loop.thenDo]
  have hcalled : (v.locked (op, P.prog op)).called = v.begun ++ (waiting ++ [(op, P.prog op)]) := by
    simp [VaultLock.locked, h.called]
  refine ⟨⟨oks, ph, _, hfutures, hlock, hcalled, h.begun, h.busy, fun body hb => ?_⟩, ?_⟩
  · rcases List.mem_append.1 hb with hb | hb
    · exact h.programs body hb
    · rw [List.mem_singleton.1 hb]
  · rw [hfutures, serial_job, h.job]

/-- A callback begins the body whose turn it is, when none runs, or nothing runs that has not run
before. -/
theorem ordered_callback (h : Ordered P v) (hv : v.callback t = some v') : Ordered P v' ∧
    ((∃ body, v.begins t = some body ∧ body.2 = P.prog body.1 ∧ v.futures.job = none ∧
      v'.futures.job = some body) ∨ (v.begins t = none ∧ v'.futures.job = v.futures.job)) := by
  obtain ⟨oks, ph, waiting, h⟩ := h
  obtain ⟨futures, hf, rfl⟩ := Option.map_eq_some_iff.1 hv
  rw [h.futures] at hf
  rcases serial_callback hf with ⟨body, rest, rfl, rfl, rfl, rfl⟩ | ⟨ok, rfl, rfl, rfl⟩
  · -- the front of the queue begins its body
    have hbegins : v.begins (2 * oks.length + 1) = some body := by
      have hfront : (serial oks .idle (body :: rest))[2 * oks.length + 1]? =
          some (.waits (2 * oks.length) (.body body) none) := serial_get_rest 0
      unfold VaultLock.begins
      rw [h.futures, hfront]
    have hprog : body.2 = P.prog body.1 := h.programs body (by simp [h.called])
    have hbusy : (serial oks (.busy body) rest).job = some body := serial_job
    refine ⟨⟨oks, .busy body, rest, rfl, ?_, ?_, ?_, ?_, h.programs⟩,
        .inl ⟨body, hbegins, hprog, h.job, hbusy⟩⟩
    · have hlock := h.lock
      rw [h.futures] at hlock
      simp only [length_serial, Phase.count, List.length_cons] at hlock ⊢
      omega
    · simp [hbegins, h.called]
    · simp [hbegins, h.begun, Phase.count]
    · intro body' hb
      cases hb
      simp [hbegins]
  · -- the future behind an ended body begins nothing
    have hbegins : v.begins (2 * oks.length + 2) = none := by
      have hbehind : (serial oks (.ended ok) waiting)[2 * oks.length + 2]? =
          some (.waits (2 * oks.length + 1) .nothing (some .nothing)) := serial_get_rest 1
      unfold VaultLock.begins
      rw [h.futures, hbehind]
    have hnone : (serial (oks ++ [ok]) .idle waiting).job = none := serial_job
    refine ⟨⟨oks ++ [ok], .idle, waiting, rfl, ?_, ?_, ?_, ?_, h.programs⟩,
        .inr ⟨hbegins, hnone.trans h.job.symm⟩⟩
    · have hlock := h.lock
      rw [h.futures] at hlock
      simp only [length_serial, Phase.count, List.length_append, List.length_cons,
          List.length_nil] at hlock ⊢
      omega
    · simp [hbegins, h.called]
    · simp [hbegins, h.begun, Phase.count]
    · intro body hb
      cases hb

theorem Queued.running (h : Queued P v oks ph waiting) (hr : v.futures.running t = some body) :
    ph = .busy body ∧ t = 2 * oks.length + 1 := by
  rw [h.futures] at hr
  exact serial_running hr

/-- The body that runs goes on. -/
theorem ordered_advance (h : Ordered P v) (hr : v.futures.running t = some body)
    {p : Prog I ε Unit} : v.futures.job = some body ∧ Ordered P (v.advance t (body.1, p)) ∧
      (v.advance t (body.1, p)).futures.job = some (body.1, p) := by
  obtain ⟨oks, ph, waiting, h⟩ := h
  obtain ⟨rfl, rfl⟩ := h.running hr
  have hfutures : (v.advance (2 * oks.length + 1) (body.1, p)).futures =
      serial oks (.busy (body.1, p)) waiting := by
    unfold VaultLock.advance
    rw [h.futures]
    exact serial_advance _
  have hbusy := h.busy body rfl
  refine ⟨h.job, ⟨oks, .busy (body.1, p), waiting, hfutures, ?_, h.called, h.begun, ?_,
      h.programs⟩, ?_⟩
  · rw [hfutures, length_serial]
    exact h.lock.trans (by rw [h.futures, length_serial]; rfl)
  · intro body' hb
    cases hb
    exact hbusy
  · rw [hfutures]
    exact serial_job

/-- It ends. -/
theorem ordered_finish (h : Ordered P v) (hr : v.futures.running t = some body) (ok : Bool) :
    v.futures.job = some body ∧ Ordered P (v.finish t ok) ∧ (v.finish t ok).futures.job = none := by
  obtain ⟨oks, ph, waiting, h⟩ := h
  obtain ⟨rfl, rfl⟩ := h.running hr
  have hfutures : (v.finish (2 * oks.length + 1) ok).futures = serial oks (.ended ok) waiting := by
    unfold VaultLock.finish
    rw [h.futures]
    exact serial_finish ok
  refine ⟨h.job, ⟨oks, .ended ok, waiting, hfutures, ?_, h.called, h.begun, nofun, h.programs⟩, ?_⟩
  · rw [hfutures, length_serial]
    exact h.lock.trans (by rw [h.futures, length_serial]; rfl)
  · rw [hfutures]
    exact serial_job

/-- What the calls on a `KeyVault` can rely on. -/
structure InTurn (v : VaultLock (Body Op I ε)) : Prop where
  /-- The bodies begin in the order of the calls. -/
  order : v.begun <+: v.called
  /-- Only the one that has begun last runs, and it settles the result of its call. -/
  one : ∀ t body, v.futures.running t = some body → ∃ n first, t = 2 * n + 1 ∧
      n + 1 = v.begun.length ∧
    v.called[n]? = some first ∧ first.1 = body.1
  /-- When nothing runs and there is no callback to be called, every call has its result. -/
  ends : v.futures.job = none → (∀ t, v.callback t = none) → v.begun = v.called ∧
    ∀ n, n < v.called.length → ∃ ok, v.result n = some (.settled ok)

theorem Ordered.inTurn (h : Ordered P v) : InTurn v := by
  obtain ⟨oks, ph, waiting, h⟩ := h
  refine ⟨⟨waiting, h.called.symm⟩, fun t body hr => ?_, fun hj hc => ?_⟩
  · obtain ⟨rfl, rfl⟩ := h.running hr
    have hbegun : v.begun.length = oks.length + 1 := h.begun
    obtain ⟨first, hfirst, he⟩ := Option.map_eq_some_iff.1 (h.busy body rfl)
    refine ⟨oks.length, first, rfl, hbegun.symm, ?_, he⟩
    rw [List.getLast?_eq_getElem?, hbegun, Nat.add_sub_cancel] at hfirst
    rw [h.called, List.getElem?_append_left (by omega)]
    exact hfirst
  · have hcallbacks : ∀ t, v.futures.callback t = none := fun t => Option.map_eq_none_iff.1 (hc t)
    rw [h.futures] at hj hcallbacks
    obtain ⟨rfl, rfl⟩ := serial_ready hj hcallbacks
    have hall : v.called = v.begun := h.called.trans (List.append_nil _)
    refine ⟨hall.symm, fun n hn => ?_⟩
    have hcount : v.begun.length = oks.length := h.begun
    have hlt : 2 * n + 1 < (past oks : Loop (Body Op I ε)).length := by
      rw [length_past]
      rw [hall] at hn
      omega
    have hget : v.result n = (past oks)[2 * n + 1]? := by
      unfold VaultLock.result
      rw [h.futures]
      exact List.getElem?_append_left hlt
    rw [hget, List.getElem?_eq_getElem hlt]
    obtain ⟨ok, hok⟩ := past_settled (List.getElem?_eq_getElem hlt)
    exact ⟨ok, by rw [hok]⟩

end

/-! ## Runs -/

section
variable [DecidableEq ι] {s s' : State ι δ γ Op I ε}

theorem world_update (g : γ) (dev : ι → δ) (i : ι) (v : VaultLock (Body Op I ε)) :
    State.world ⟨g, dev, Function.update s.vault i v⟩ =
      ⟨g, dev, Function.update s.world.job i v.futures.job⟩ := by
  unfold State.world
  congr 1
  exact Function.comp_update (fun v : VaultLock (Body Op I ε) => v.futures.job) s.vault i v

/-- Only the futures of one device have changed, and its body is the same. -/
theorem world_same {i : ι} {v : VaultLock (Body Op I ε)}
    (h : v.futures.job = (s.vault i).futures.job) :
    State.world ⟨s.shared, s.dev, Function.update s.vault i v⟩ = s.world := by
  have hsame : Function.update s.world.job i v.futures.job = s.world.job := by
    rw [h]
    exact Function.update_eq_self i s.world.job
  rw [world_update, hsame]
  rfl

theorem ordered_update (h : ∀ i, Ordered P (s.vault i)) {i : ι} {v : VaultLock (Body Op I ε)}
    (hv : Ordered P v) :
    ∀ j, Ordered P (Function.update s.vault i v j) := by
  intro j
  by_cases hj : j = i
  · subst hj
    rw [Function.update_self]
    exact hv
  · rw [Function.update_of_ne hj]
    exact h j

/-- What an action does to the devices, where none is what it shows. -/
def Moves (P : Protocol δ γ Op I ε) (w w' : World ι δ γ Op I ε) : Option (Act ι Op P.env.Ev) → Prop
  | none => w' = w
  | some act => P.step act w = some w'

/-- **Each action is one of the devices without `_locked`, or nothing to them.** -/
theorem ordered_step {a : Action ι Op P.env.Ev} (h : ∀ i, Ordered P (s.vault i))
    (hs : step P a s = some s') :
    (∀ i, Ordered P (s'.vault i)) ∧ Moves P s.world s'.world (a.shows s) := by
  cases a with
  | invoke i op =>
    cases hs
    obtain ⟨hq, hj⟩ := ordered_locked (h i) op
    exact ⟨ordered_update h hq, world_same hj⟩
  | callback i t =>
    obtain ⟨v, hv, rfl⟩ := Option.map_eq_some_iff.1 hs
    obtain ⟨hq, hbegins⟩ := ordered_callback (h i) hv
    refine ⟨ordered_update h hq, ?_⟩
    dsimp only [Action.shows]
    rcases hbegins with ⟨body, hb, hprog, hidle, hj⟩ | ⟨hb, hj⟩
    · -- the callback that begins a body takes the step of the protocol
      have hfree : s.world.job i = none := hidle
      have hbody : (body.1, P.prog body.1) = body := by rw [← hprog]
      rw [hb]
      dsimp only [Option.map_some, Moves, Protocol.step]
      rw [hfree, world_update, hj, hbody]
      rfl
    · -- every other callback only moves the futures
      rw [hb]
      exact world_same hj
  | call i t ev =>
    dsimp only [step] at hs
    split at hs
    · rename_i op c k hr
      split at hs
      · rename_i a d g hans
        cases hs
        obtain ⟨hjob, hq, hj⟩ := ordered_advance (h i) hr (p := k a)
        refine ⟨ordered_update h hq, ?_⟩
        have hbusy : s.world.job i = some (op, .call c k) := hjob
        have hworld : P.env.step c ev (s.world.dev i, s.world.shared) = some (a, d, g) := hans
        dsimp only [Action.shows, Moves, Protocol.step]
        rw [hbusy]
        dsimp only
        rw [hworld, world_update, hj]
        rfl
      · cases hs
    · cases hs
  | finish i t =>
    -- the future of a body completes whether the body returned or threw
    dsimp only [step] at hs
    split at hs
    · rename_i op r hr
      cases hs
      obtain ⟨hjob, hq, hj⟩ := ordered_finish (h i) hr true
      refine ⟨ordered_update h hq, ?_⟩
      have hbusy : s.world.job i = some (op, .ret r) := hjob
      dsimp only [Action.shows, Moves, Protocol.step]
      rw [hbusy, world_update, hj]
      rfl
    · rename_i op e hr
      cases hs
      obtain ⟨hjob, hq, hj⟩ := ordered_finish (h i) hr false
      refine ⟨ordered_update h hq, ?_⟩
      have hbusy : s.world.job i = some (op, .raise e) := hjob
      dsimp only [Action.shows, Moves, Protocol.step]
      rw [hbusy, world_update, hj]
      rfl
    · cases hs
  | crash i =>
    cases hs
    refine ⟨ordered_update h ordered_start, ?_⟩
    dsimp only [Action.shows, Moves, Protocol.step]
    rw [world_update]
    rfl

/-- A concrete run, its actions tested one by one, is a run under what the test decides about
them. -/
theorem reaches_of_execIf {rules : State ι δ γ Op I ε → Action ι Op P.env.Ev → Prop}
    {ok : State ι δ γ Op I ε → Action ι Op P.env.Ev → Bool}
    (hok : ∀ s a, ok s a = true → rules s a) :
    ∀ {as : List (Action ι Op P.env.Ev)} {s s' : State ι δ γ Op I ε},
    execIf P ok as s = some s' → Reaches P rules s s'
  | [], s, s', h => by
    cases h
    exact .refl
  | a :: as, s, s', h => by
    unfold execIf at h
    split at h
    · rename_i ha
      obtain ⟨s₁, h₁, h₂⟩ := Option.bind_eq_some_iff.1 h
      exact .head ⟨a, hok s a ha, h₁⟩ (reaches_of_execIf hok h₂)
    · cases h

/-- **A run of methods that overlap is a run of methods that do not.** -/
theorem ordered_run {cond : World ι δ γ Op I ε → Act ι Op P.env.Ev → Prop}
    {rules : State ι δ γ Op I ε → Action ι Op P.env.Ev → Prop}
    (hrules : ∀ s a act, rules s a → a.shows s = some act → cond s.world act)
    (h : ∀ i, Ordered P (s.vault i)) (hs : Reaches P rules s s') :
    (∀ i, Ordered P (s'.vault i)) ∧ P.Reaches cond s.world s'.world := by
  induction hs with
  | refl => exact ⟨h, .refl⟩
  | tail _ hstep ih =>
    rename_i s₁ s₂ _
    obtain ⟨a, hr, hstep⟩ := hstep
    obtain ⟨ho, hw⟩ := ih
    obtain ⟨ho', hmoves⟩ := ordered_step ho hstep
    refine ⟨ho', ?_⟩
    cases hshows : a.shows s₁ with
    | none =>
      rw [hshows] at hmoves
      have hsame : s₂.world = s₁.world := hmoves
      rw [hsame]
      exact hw
    | some act =>
      rw [hshows] at hmoves
      exact hw.tail ⟨act, hrules s₁ a act hr hshows, hmoves⟩

end

end Locked

/-! ## `KeyVault`s -/

section
variable {H B W ι γ : Type} [DecidableEq H] [DecidableEq ι]

/-- The app calls methods that hand `_locked` their bodies, and what the devices do meets `cond`. -/
structure Locked.Rules {L : Ckvf H B W} {R : Remote H B W γ}
    (cond : World ι (Device H B W) γ (DartOp H B W) (vaultIface H B W) VaultException →
      Act ι (DartOp H B W) (dartDevices L R).env.Ev → Prop)
    (s : Locked.State ι (Device H B W) γ (DartOp H B W) (vaultIface H B W) VaultException)
    (a : Locked.Action ι (DartOp H B W) (dartDevices L R).env.Ev) : Prop where
  bodies : ∀ i op, a = .invoke i op → op.IsBody
  shown : ∀ act, a.shows s = some act → cond s.world act

/-- **Methods that overlap do what they do one after another.** On any remote, a run of devices
whose apps call methods while others run is a run of devices that start a method only when none
runs, under any condition on the actions; on each device the bodies begin in the order of the calls,
only the last one of them runs, and no call stays without its result. -/
theorem methods_overlap (L : Ckvf H B W) (R : Remote H B W γ)
    {cond : World ι (Device H B W) γ (DartOp H B W) (vaultIface H B W) VaultException →
      Act ι (DartOp H B W) (dartDevices L R).env.Ev → Prop} {g : γ} {dev : ι → Device H B W}
    {s : Locked.State ι (Device H B W) γ (DartOp H B W) (vaultIface H B W) VaultException}
    (h : Locked.Reaches (dartDevices L R) (Locked.Rules cond) (.start g dev) s) :
    (dartDevices L R).Reaches cond ⟨g, dev, fun _ => none⟩ s.world ∧
    ∀ i, Locked.InTurn (s.vault i) := by
  have hstart : ∀ i, Locked.Ordered (dartDevices L R) ((Locked.State.start g dev).vault i) :=
    fun _ => Locked.ordered_start
  obtain ⟨ho, hw⟩ := Locked.ordered_run (fun _ _ act hr => hr.shown act) hstart h
  exact ⟨hw, fun i => (ho i).inTurn⟩

end

section
open Ckvf.Symbolic

abbrev symbolicLocked : Protocol (Device Digest Body Wrap) (SyncStore Digest Body Wrap)
    (DartOp Digest Body Wrap) (vaultIface Digest Body Wrap) VaultException :=
      dartDevices symbolic syncRemote

abbrev LockedAct := Locked.Action Bool (DartOp Digest Body Wrap) (LocalEv ⊕ SyncEv)

abbrev LockedState :=
  Locked.State Bool (Device Digest Body Wrap) (SyncStore Digest Body Wrap) (DartOp Digest Body Wrap)
    (vaultIface Digest Body Wrap) VaultException

/-- The actions of methods that run one after another, as those of the futures of calls from `n`
on. -/
def inQueue : (n : Nat) → List SyncAct → List LockedAct
  | _, [] => []
  | n, .start i _ :: as => .callback i (2 * n + 1) :: inQueue n as
  | n, .call i ev :: as => .call i (2 * n + 1) ev :: inQueue n as
  | n, .finish i :: as => .finish i (2 * n + 1) :: .callback i (2 * n + 2) :: inQueue (n + 1) as
  | n, .crash i :: as => .crash i :: inQueue n as

/-- The app calls `push` while `create` runs. -/
def laptopOverlaps : List LockedAct :=
  .invoke false (.create "me" laptop none "now") :: (inQueue 0 dartCreates).take 3 ++
    .invoke false (.push syncConfig) :: (inQueue 0 dartCreates).drop 3 ++ inQueue 1 dartPushes

def isCommit : SyncAct → Bool
  | .start _ (.commit ..) => true
  | _ => false

/-- What the action shows passes the test, and the app calls `create` and `push` only. -/
def overlapsIf (s : LockedState) : LockedAct → Bool
  | .invoke _ (.create ..) | .invoke _ (.push _) => true
  | .invoke _ _ => false
  | a => (a.shows s).all fun act => !isCommit act && syncRulesIf s.world act

theorem syncRules_of_shown {w : SyncWorld Bool Digest Body Wrap} {shown : Option SyncAct}
    (h : (shown.all fun act => !isCommit act && syncRulesIf w act) = true) {act : SyncAct}
    (hshown : shown = some act) : SyncRules sealing_laws Whatever w act := by
  subst hshown
  rw [Option.all_some, Bool.and_eq_true] at h
  refine syncRules_of_test importsKey_whatever (fun i cfg change andPush he => ?_) h.2
  subst he
  cases h.1

theorem rules_of_overlaps {s : LockedState} {a : LockedAct} (h : overlapsIf s a = true) :
    Locked.Rules (L := symbolic) (R := syncRemote) (SyncRules sealing_laws Whatever) s a := by
  refine ⟨fun i op hop => ?_, fun act hshows => ?_⟩
  · subst hop
    cases op with
    | create email device mskSeed ts => trivial
    | push cfg => trivial
    | adopt | openStored | commit | pull | revokeDevice | rotateToHybridMsk | rotateVekToThisDevice
    | clear | restart => cases h
  · have hall : (a.shows s).all (fun act => !isCommit act && syncRulesIf s.world act) = true := by
      cases a with
      | invoke i op => cases hshows
      | callback i t | call i t ev | finish i t | crash i => exact h
    exact syncRules_of_shown hall hshows

theorem laptop_overlaps : ∃ s, Locked.execIf symbolicLocked overlapsIf laptopOverlaps
    (.start {} fun _ => {}) = some s ∧ (storedKeys s.shared).1 = some 1 ∧
    (s.vault false).called.length = 2 := by
  have h : ((Locked.execIf symbolicLocked overlapsIf laptopOverlaps
      (.start {} fun _ => {})).map fun s =>
      decide ((storedKeys s.shared).1 = some 1 ∧ (s.vault false).called.length = 2)) =
          some true := by
    decide +kernel
  obtain ⟨s, hs, hd⟩ := Option.map_eq_some_iff.1 h
  exact ⟨s, hs, of_decide_eq_true hd⟩

/-- The laptop's `push` waits for its `create`, and stores the head. -/
theorem methods_overlap_laptop : ∃ s : LockedState, (storedKeys s.shared).1 = some 1 ∧
    (s.vault false).called.length = 2 ∧
    symbolicSync.Reaches (SyncRules sealing_laws Whatever) SyncWorld.start s.world ∧
      ∀ i, Locked.InTurn (s.vault i) := by
  obtain ⟨s, hs, hk, hn⟩ := laptop_overlaps
  have hrun : Locked.Reaches symbolicLocked (Locked.Rules (SyncRules sealing_laws Whatever))
      (.start {} fun _ => {}) s :=
    Locked.reaches_of_execIf (fun _ _ => rules_of_overlaps) hs
  exact ⟨s, hk, hn, methods_overlap symbolic syncRemote hrun⟩

end

end Vault
