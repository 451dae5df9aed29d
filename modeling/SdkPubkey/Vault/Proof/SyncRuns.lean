import SdkPubkey.Vault.Proof.HostKeys
import SdkPubkey.Vault.Proof.SyncMethods

/-!
# Runs of Dart devices on a sync store

What holds after every run of any number of devices (`syncStore`), however their requests
interleave, get lost or end with a crash:

* `heads_chain`: the heads of a vault are one chain that only grows, and what stands above it is the
  next head;
* `alarms_justified`: no device blames the store, but one whose generation's number is taken;
* `head_waits`: a head with a generation above it moves only when a device has that generation open;
* `sync_loses_nothing`: what a generation has, all later ones have, unless a pull is cut between its
  writes.
-/

namespace Vault

open Ckvf Lib Lib.Protocol Lib.Ledger Vault.Dart

variable {H B W ι : Type} {L : Ckvf H B W} {S : Seal H B W}

/-! ## The conditions -/

section
variable (hL : Sealing L S) (Le : VaultContainer H B W → VaultContainer H B W → Prop)

/-- How the app starts a method: `create` and `adopt` on an empty device, `adopt` with a generation
that has been the head if it says so, `commit` with a change that carries on what the vault has, and
the methods that sync with the sync store. -/
def DartOp.StartsWell (d : Device H B W) (g : SyncStore H B W) : DartOp H B W → Prop
  | create .. => d.store.container = none ∧ d.store.syncedContainer = none
  | adopt opened _ storedOnHost _ => (d.store.container = none ∧ d.store.syncedContainer = none) ∧
      S.Sealed opened ∧ 0 < opened.container.generation ∧
        (storedOnHost = true → Stored Le hL g opened.container)
  | commit cfg change _ => cfg.syncStore = true ∧ Carrying S Le change
  | pull cfg | push cfg | rotateVekToThisDevice cfg => cfg.syncStore = true
  | openStored | revokeDevice _ | rotateToHybridMsk .. | clear | restart => True

/-- The methods are started well, and the local stores answer. -/
structure SyncRules (w : SyncWorld ι H B W)
    (a : Act ι (DartOp H B W) (LocalEv ⊕ SyncEv)) : Prop where
  starts : ∀ i op, a = .start i op → op.StartsWell hL Le (w.dev i) w.shared
  answers : ∀ i e, a ≠ .call i (.inl (.fail e))

/-- And no process ends where the local container lacks what the synced generation has. -/
structure SyncCarries (w : SyncWorld ι H B W) (a : Act ι (DartOp H B W) (LocalEv ⊕ SyncEv)) : Prop
    extends SyncRules hL Le w a where
  uncut : ∀ i, a = .crash i → HasSynced Le hL (w.dev i) w.shared

/-- What a method leaves when it ends. -/
def StorePost (r : Except VaultException Unit) (s : Device H B W × SyncStore H B W) :
    DartOp H B W → Prop
  | .pull _ => ∀ e, r = .error e → ¬ Alarm e
  | .push _ => Fair r s ∧ (r = .ok () → Published Le hL s)
  | .commit _ change _ => (∀ e, r = .error e → Alarm e → e.code = some "sync_tamper" ∧ Tampered s ∨
      ∃ seed v, change seed v = .error e) ∧ (r = .ok () → Committed Le change s.1)
  | .rotateVekToThisDevice _ => Fair r s
  | _ => True

end

/-! ## The argument -/

section
variable [DecidableEq H] [DecidableEq B] [DecidableEq W] {hL : Sealing L S}
  {Le : VaultContainer H B W → VaultContainer H B W → Prop}

/-- Only a failed call answers with an error of the local store. -/
theorem storeAnswers_of_step {c : VaultCall H B W} {ev : LocalEv ⊕ SyncEv}
    (hev : ∀ e, ev ≠ .inl (.fail e)) {s s' : Device H B W × SyncStore H B W} {a : c.Ans}
    (h : (vaultEnv syncRemote).step c ev s = some (a, s')) : storeAnswers c a := by
  cases c with
  | read k | write k v =>
    cases a with
    | ok _ => trivial
    | error e =>
      rcases ev with lev | rev
      · cases lev with
        | fail e' => exact (hev e' rfl).elim
        | ok | bytes b | seed s | auth r | reply r => cases h
      · cases h
  | getVault | setVault v | randomBytes n | entropy | authorize v o | currentRecord v o
  | putRecord i' c s l | getHead v | getGeneration v n | putIfAbsent v n c | compareAndSwapHead n e
  | replaceMsk p => trivial

/-- A well-started method keeps the invariant. -/
theorem safe_dartOp (hC : Carries L S Le) {op : DartOp H B W} {d : Device H B W}
    {g : SyncStore H B W} (hop : op.StartsWell hL Le d g) (h : Idle Le hL (d, g)) :
    StoreSafe Le hL (fun r s => StorePost hL Le r s op ∧ Idle Le hL s) (op.prog L) d g := by
  have X := store_setting hL hC
  have K := store_keeps hL hC
  cases op with
  | create email device mskSeed ts =>
    exact (safe_create hC h (h.blank hop.1 hop.2)).imp fun _ _ hi => ⟨trivial, hi⟩
  | adopt opened device storedOnHost ts =>
    obtain ⟨⟨hc, hs⟩, hsealed, hpos, hstored⟩ := hop
    exact (safe_adopt hC h (h.blank hc hs) hsealed hpos hstored).imp fun _ _ hi => ⟨trivial, hi⟩
  | openStored =>
    refine X.bind ((K.safe_openStored hL h).imp fun r s hi => ?_)
    obtain ⟨d', g'⟩ := s
    cases r with
    | ok b =>
      have hret : StoreSafe Le hL (fun r s => StorePost hL Le r s .openStored ∧ Idle Le hL s)
          (.ret ()) d' g' :=
        safe_ret fun _ hr => ⟨trivial, hi.mono hr⟩
      exact hret
    | error e => exact ⟨trivial, hi⟩
  | commit cfg change andPush =>
    exact (safe_commit hC hop.1 hop.2 h).imp fun _ _ hi => ⟨hi.2, hi.1⟩
  | pull cfg =>
    -- with a sync store `pull` and `push` are its branches alone
    have hprog : Dart.pull L cfg = pullSync L := if_pos hop
    dsimp only [DartOp.prog]
    rw [hprog]
    refine X.bind ((safe_pullSync hC h).imp fun r s hp => ?_)
    obtain ⟨d', g'⟩ := s
    cases r with
    | ok b =>
      have hret : StoreSafe Le hL (fun r s => StorePost hL Le r s (.pull cfg) ∧ Idle Le hL s)
          (.ret ()) d' g' :=
        safe_ret fun _ hr => ⟨nofun, hp.ended.idle.mono hr⟩
      exact hret
    | error e =>
      refine ⟨fun e' he' => ?_, hp.ended.idle⟩
      cases he'
      exact hp.calm e rfl
  | push cfg =>
    have hprog : Dart.push L cfg = pushSync L := if_pos hop
    dsimp only [DartOp.prog]
    rw [hprog]
    exact (safe_pushSyncRounds hC 4 h).imp fun _ _ hp => ⟨⟨hp.fair, hp.pushed⟩, hp.ended.idle⟩
  | revokeDevice slotId => exact (K.safe_revokeDevice hL hC h).imp fun _ _ hi => ⟨trivial, hi⟩
  | rotateToHybridMsk seeds publicKey =>
    exact (K.safe_rotateToHybridMsk hL hC h).imp fun _ _ hi => ⟨trivial, hi⟩
  | rotateVekToThisDevice cfg =>
    exact (K.safe_rotateVekToThisDevice hL hC fairness (safe_pushStore hC hop) h).imp
        fun _ _ hi => ⟨hi.2, hi.1⟩
  | clear => exact (K.safe_clear h).imp fun _ _ hi => ⟨trivial, hi⟩
  | restart => exact (K.safe_restart h).imp fun _ _ hi => ⟨trivial, hi⟩

omit [DecidableEq H] [DecidableEq B] [DecidableEq W] in
theorem inOrder_empty : InOrder Le hL ({} : SyncStore H B W) :=
  ⟨nofun, fun _ => ⟨[], none, holds_empty⟩⟩

variable [DecidableEq ι]

variable (hL) in
/-- **The rely/guarantee argument for the devices and the sync store.** -/
def syncStore (hC : Carries L S Le) : Discipline (syncDevices L) (SyncCarries (ι := ι) hL Le) where
  T := storeTrans
  Rely := Rely Le hL
  G := Guar Le hL
  Always := Always Le hL
  Idle := Idle Le hL
  Post op r s := StorePost hL Le r s op
  rely_refl := .refl
  rely_trans := .trans
  always_mono := .mono
  idle_mono := .mono
  guarantee h hg := ⟨hg.rely, hg.always h⟩
  calls hc _ hs :=
    ⟨⟨_, hs⟩, storeAnswers_of_step (fun e he => hc.answers _ e (congrArg (Act.call _) he)) hs⟩
  starts hc _ _ hi := safe_dartOp hC (hc.starts _ _ rfl) hi
  crashes hc ha := by
    have hreset : Always Le hL (Device.reset _, _) :=
      ⟨ha.store, ha.container, nofun, ha.marked.known, ha.marked.synced, ha.marked.vaultId⟩
    exact ⟨hreset, hreset, nofun, hc.uncut _ rfl⟩

variable (hC : Carries L S Le) {w w' : SyncWorld ι H B W}
include hC

omit [DecidableEq ι] in
theorem syncStore_start : (syncStore hL hC).Inv (SyncWorld.start : SyncWorld ι H B W) := by
  have hblank : Blank ({} : Device H B W) := ⟨rfl, rfl, rfl⟩
  have hidle : Idle Le hL (({}, {}) : Device H B W × SyncStore H B W) :=
    hblank.idle inOrder_empty rfl
  exact ⟨fun i => hidle.always, fun i => hidle⟩

theorem syncStore_inv (h : (syncDevices L).Reaches (SyncCarries hL Le) SyncWorld.start w) :
    (syncStore hL hC).Inv w := (syncStore hL hC).inv_run (syncStore_start hC) h

theorem syncStore_inOrder (h : (syncDevices L).Reaches (SyncCarries hL Le) SyncWorld.start w) :
    InOrder Le hL w.shared := by
  cases isEmpty_or_nonempty ι with
  | inl hempty =>
    -- nobody can do anything
    induction h with
    | refl => exact inOrder_empty
    | tail _ hstep _ =>
      obtain ⟨a, -, -⟩ := hstep
      cases a with
      | start i op | call i ev | finish i | crash i => exact hempty.elim i
  | inr hsome =>
    obtain ⟨i⟩ := hsome
    exact ((syncStore_inv hC h).always i).store

theorem syncStore_rely (h : (syncDevices L).Reaches (SyncCarries hL Le) SyncWorld.start w)
    (h' : (syncDevices L).Reaches (SyncCarries hL Le) w w') : Rely Le hL w.shared w'.shared := by
  induction h' with
  | refl => exact .refl _
  | tail hreach hstep ih =>
    obtain ⟨a, hcond, hstep⟩ := hstep
    rcases (syncStore hL hC).step_shared (syncStore_inv hC (h.trans hreach)) hcond hstep with
        hs | ⟨i, hg⟩
    · rw [hs]
      exact ih
    · exact ih.trans hg.rely

omit [DecidableEq H] [DecidableEq B] [DecidableEq W] [DecidableEq ι] hC in
/-- Where nothing is asked of later generations, a process may end anywhere. -/
theorem syncRules_carries {a : Act ι (DartOp H B W) (LocalEv ⊕ SyncEv)}
    (h : SyncRules hL Whatever w a) :
    SyncCarries hL Whatever w a := ⟨h, fun _ _ _ _ _ _ _ => trivial⟩

end

/-! ## A laptop and a phone -/

section
open Ckvf.Symbolic

abbrev symbolicSync : Protocol (Device Digest Body Wrap) (SyncStore Digest Body Wrap)
    (DartOp Digest Body Wrap) (vaultIface Digest Body Wrap) VaultException := syncDevices symbolic

abbrev SyncAct := Act Bool (DartOp Digest Body Wrap) (LocalEv ⊕ SyncEv)

/-- A `KeyVault` with a sync store. -/
def syncConfig : Dart.Config := ⟨none, true⟩

/-- An import of the key with the public key `[n]`. -/
def importsKey (n : UInt8) : Change Digest Body Wrap := fun seed v =>
  (symbolicKeys.importPrivateKey seed v ⟨"pgp", "raw", "ed25519", [], [], [n], none⟩).mapError .ckvf

theorem importsKey_carries (n : UInt8) : Carrying sealing (HasKeys sealing) (importsKey n) := by
  intro seed v next hs h
  have h : importPrivateKey seed v _ = .ok next := ok_of_mapError h
  unfold importPrivateKey at h
  split at h
  · cases h
  · cases h
    refine .single ⟨next_of rfl, fun k hk => ?_⟩
    rw [sealed_contents hs] at hk
    obtain ⟨r, hr, rfl⟩ := List.mem_map.1 hk
    exact List.mem_map.2 ⟨r, List.mem_append_left _ hr, rfl⟩

/-- The action starts a method well, fails no call and ends no process; of a commit only the
`KeyVault` is tested, and what is adopted is not said to be stored. -/
def syncRulesIf (w : SyncWorld Bool Digest Body Wrap) : SyncAct → Bool
  | .start i (.create ..) =>
    decide ((w.dev i).store.container = none ∧ (w.dev i).store.syncedContainer = none)
  | .start i (.adopt opened _ storedOnHost _) =>
    decide (((w.dev i).store.container = none ∧ (w.dev i).store.syncedContainer = none) ∧
      valid opened.container ∧ opened.payload = opened.container.body.payload ∧
      0 < opened.container.generation ∧ storedOnHost = false)
  | .start _ (.commit cfg _ _) | .start _ (.pull cfg) | .start _ (.push cfg)
  | .start _ (.rotateVekToThisDevice cfg) => cfg.syncStore
  | .call _ (.inl (.fail _)) | .crash _ => false
  | _ => true

/-- The changes of commits are imports. -/
def CommitsKeys (a : SyncAct) : Prop :=
  ∀ i cfg change andPush, a = .start i (.commit cfg change andPush) → ∃ n, change = importsKey n

theorem syncRules_of_test {Le : Container → Container → Prop}
    (hch : ∀ n, Carrying sealing Le (importsKey n))
    {w : SyncWorld Bool Digest Body Wrap} {a : SyncAct} (ha : CommitsKeys a)
    (h : syncRulesIf w a = true) :
    SyncRules sealing_laws Le w a := by
  refine ⟨fun i op hop => ?_, fun i e he => ?_⟩
  · subst hop
    cases op with
    | create email device mskSeed ts =>
      have hempty : (w.dev i).store.container = none ∧ (w.dev i).store.syncedContainer = none :=
        of_decide_eq_true h
      exact hempty
    | adopt opened device storedOnHost ts =>
      obtain ⟨hempty, hvalid, hpayload, hgeneration, rfl⟩ := of_decide_eq_true h
      exact ⟨hempty, ⟨hvalid, hpayload⟩, hgeneration, fun he => (by cases he)⟩
    | commit cfg change andPush =>
      obtain ⟨n, rfl⟩ := ha i cfg change andPush rfl
      exact ⟨h, hch n⟩
    | pull cfg | push cfg | rotateVekToThisDevice cfg => exact h
    | openStored | revokeDevice slotId | rotateToHybridMsk seeds publicKey | clear
    | restart => trivial
  · subst he
    cases h

theorem syncCarries_of_test {Le : Container → Container → Prop}
    (hch : ∀ n, Carrying sealing Le (importsKey n))
    {w : SyncWorld Bool Digest Body Wrap} {a : SyncAct} (ha : CommitsKeys a)
    (h : syncRulesIf w a = true) :
    SyncCarries sealing_laws Le w a := by
  refine ⟨syncRules_of_test hch ha h, fun i hi => ?_⟩
  subst hi
  cases h

theorem importsKey_whatever (n : UInt8) : Carrying sealing Whatever (importsKey n) :=
    fun seed v next hs h =>
  (importsKey_carries n seed v next hs h).lift id fun _ _ hc => ⟨hc.1, trivial⟩

theorem commitsKeys_actsOf {i : Bool} {op : DartOp Digest Body Wrap} {evs : List (LocalEv ⊕ SyncEv)}
    (h : ∀ cfg change andPush, op = .commit cfg change andPush → ∃ n, change = importsKey n) :
    ∀ a ∈ actsOf i op evs, CommitsKeys a := by
  intro a ha j cfg change andPush he
  subst he
  simp only [actsOf, List.cons_append, List.mem_cons, List.mem_append, List.mem_map,
    List.not_mem_nil, or_false] at ha
  rcases ha with ha | ⟨ev, -, ha⟩ | ha
  · cases ha
    exact h cfg change andPush rfl
  · cases ha
  · cases ha

/-- `create` on the laptop. -/
def dartCreates : List SyncAct :=
  actsOf false (.create "me" laptop none "now")
    [.inl (.bytes laptopKek), .inl (.bytes (List.replicate 16 0)), .inl (.seed 0),
    .inl .ok, .inl .ok, .inl .ok, .inl .ok, .inl .ok]

/-- `adopt` of the laptop's vault on the phone. -/
def dartAdopts : List SyncAct :=
  actsOf true (.adopt laptopVault ⟨"phone", "Phone", none⟩ false "now")
    [.inl (.bytes (List.replicate 32 1)), .inl (.bytes (List.replicate 16 1)),
    .inl (.seed 1), .inl .ok, .inl .ok, .inl .ok, .inl .ok, .inl .ok]

/-- A commit that imports the key `[n]`. -/
def dartImports (i : Bool) (seed : Seed) (n : UInt8) : List SyncAct :=
  actsOf i (.commit syncConfig (importsKey n) false)
      [.inl .ok, .inl (.seed seed), .inl .ok, .inl .ok]

/-- The push of the first generation. -/
def dartPushes : List SyncAct :=
  actsOf false (.push syncConfig)
    [.inl .ok, .inl .ok, .inr .serve, .inr .serve, .inr .serve, .inl .ok, .inl .ok, .inl .ok]

/-- A push of the generation after the head. -/
def dartPushesNext (i : Bool) : List SyncAct :=
  actsOf i (.push syncConfig)
    [.inl .ok, .inl .ok, .inr .serve, .inl .ok, .inr .serve, .inr .serve, .inl .ok,
    .inl .ok, .inl .ok]

/-- A push that merges onto the head, and stores what that gives. -/
def dartPushMerges : List SyncAct :=
  actsOf false (.push syncConfig)
    ([.inl .ok, .inl .ok, .inr .serve, .inl .ok, .inr .serve] ++ List.replicate 6 (.inl .ok) ++
      [.inl (.seed 5), .inl .ok, .inl .ok] ++
      [.inl .ok, .inl .ok, .inr .serve, .inl .ok, .inr .serve, .inr .serve, .inl .ok,
      .inl .ok, .inl .ok])

/-- The push of the first generation, whose swap does not get through. -/
def dartPushIsLost : List SyncAct :=
  actsOf false (.push syncConfig) [.inl .ok, .inl .ok, .inr .serve, .inr .serve,
      .inr (.drop "lost")]

/-- A push that rechains the local vault as the first generation, and finds its slot taken. -/
def dartPushIsStuck : List SyncAct :=
  actsOf false (.push syncConfig)
    [.inl .ok, .inl .ok, .inr .serve, .inl (.seed 4), .inl .ok, .inl .ok, .inl .ok,
    .inl .ok, .inr .serve, .inr .serve]

theorem dartCreates_commits : ∀ a ∈ dartCreates, CommitsKeys a := commitsKeys_actsOf nofun

theorem dartAdopts_commits : ∀ a ∈ dartAdopts, CommitsKeys a := commitsKeys_actsOf nofun

theorem dartImports_commits (i : Bool) (seed : Seed) (n : UInt8) :
    ∀ a ∈ dartImports i seed n, CommitsKeys a :=
  commitsKeys_actsOf fun _ _ _ h => by
    cases h
    exact ⟨n, rfl⟩

theorem dartPush_commits {i : Bool} {evs : List (LocalEv ⊕ SyncEv)} :
    ∀ a ∈ actsOf i (.push syncConfig) evs, CommitsKeys a := commitsKeys_actsOf nofun

/-- The laptop creates a vault and pushes it. -/
def laptopStarts : List SyncAct := dartCreates ++ dartPushes

/-- The phone joins and pushes, imports a key and pushes again; the laptop imports another one, and
its push merges. -/
def bothContinue : List SyncAct :=
  dartAdopts ++ dartPushesNext true ++ dartImports true 2 66 ++ dartPushesNext true ++
    dartImports false 3 65 ++ dartPushMerges.dropLast

/-- The laptop creates a vault, and a push puts it and does not move the head; then it imports a
key. -/
def laptopHangs : List SyncAct := dartCreates ++ dartPushIsLost ++ dartImports false 1 65

theorem laptopStarts_commits : ∀ a ∈ laptopStarts, CommitsKeys a := by
  simp only [laptopStarts, List.forall_mem_append]
  exact ⟨dartCreates_commits, dartPush_commits⟩

theorem bothContinue_commits : ∀ a ∈ bothContinue, CommitsKeys a := by
  simp only [bothContinue, List.forall_mem_append]
  exact ⟨⟨⟨⟨⟨dartAdopts_commits, dartPush_commits⟩, dartImports_commits true 2 66⟩,
      dartPush_commits⟩,
    dartImports_commits false 3 65⟩, fun a ha => dartPush_commits a (List.dropLast_subset _ ha)⟩

theorem laptopHangs_commits : ∀ a ∈ laptopHangs, CommitsKeys a := by
  simp only [laptopHangs, List.forall_mem_append]
  exact ⟨⟨dartCreates_commits, dartPush_commits⟩, dartImports_commits false 1 65⟩

/-- The generation of the head, and the key records of the first four generations. -/
def storedKeys (g : SyncStore Digest Body Wrap) : Option Int × List (List String) :=
  ((g.heads "vault").map (·.generation),
    [1, 2, 3, 4].map fun n => (g.generations "vault" n).elim [] fun c =>
      keyIds (sealing.contents c))

/-- How the laptop's push has ended. -/
def pushResult (w : SyncWorld Bool Digest Body Wrap) : Option (Except VaultException Unit) :=
  match w.job false with
  | some (.push _, .ret _) => some (.ok ())
  | some (.push _, .raise e) => some (.error e)
  | _ => none

theorem job_of_pushResult {w : SyncWorld Bool Digest Body Wrap} {r : Except VaultException Unit}
    (h : pushResult w = some r) : ∃ cfg, w.job false = some (.push cfg, .ofExcept r) := by
  unfold pushResult at h
  split at h
  · rename_i cfg u hj
    cases h
    exact ⟨cfg, hj⟩
  · rename_i cfg e hj
    cases h
    exact ⟨cfg, hj⟩
  · cases h

def isTamper : Option (Except VaultException Unit) → Bool
  | some (.error e) => decide (e.code = some "sync_tamper")
  | _ => false

/-- The keys of both are in the fourth generation. -/
theorem both_run : ∃ w w', symbolicSync.execIf syncRulesIf laptopStarts SyncWorld.start = some w ∧
    symbolicSync.execIf syncRulesIf bothContinue w = some w' ∧
      storedKeys w.shared = (some 1, [[], [], [], []]) ∧
      storedKeys w'.shared = (some 4, [[], [], ["B"], ["B", "A"]]) ∧ pushResult w' = some (.ok ()) ∧
        localKeys sealing (w'.dev false) = ["B", "A"] := by
  have h : ((symbolicSync.execIf syncRulesIf laptopStarts SyncWorld.start).bind fun w =>
      (symbolicSync.execIf syncRulesIf bothContinue w).map fun w' =>
        decide (storedKeys w.shared = (some 1, [[], [], [], []])) &&
          decide (storedKeys w'.shared = (some 4, [[], [], ["B"], ["B", "A"]])) &&
          decide (pushResult w' = some (.ok ())) &&
          decide (localKeys sealing (w'.dev false) = ["B", "A"])) = some true := by decide +kernel
  obtain ⟨w, hw, h⟩ := Option.bind_eq_some_iff.1 h
  obtain ⟨w', hw', h⟩ := Option.map_eq_some_iff.1 h
  simp only [Bool.and_eq_true, decide_eq_true_eq] at h
  exact ⟨w, w', hw, hw', h.1.1.1, h.1.1.2, h.1.2, h.2⟩

/-- The laptop does not have its first generation open. -/
def closedIf (w : SyncWorld Bool Digest Body Wrap) : Bool :=
  [false, true].all fun i => (w.dev i).vault.all fun v =>
    decide (v.container ≠ laptopVault.container)

/-- The first generation stays above the empty head, and the push ends with an alarm. -/
theorem laptop_hangs : ∃ w w', symbolicSync.execIf syncRulesIf laptopHangs
    SyncWorld.start = some w ∧
    symbolicSync.execIf (fun w a => syncRulesIf w a && closedIf w)
        dartPushIsStuck.dropLast w = some w' ∧
      w.shared.heads "vault" = none ∧ w.shared.generations "vault" 1 = some laptopVault.container ∧
        (∃ e, pushResult w' = some (.error e) ∧ e.code = some "sync_tamper") := by
  have h : ((symbolicSync.execIf syncRulesIf laptopHangs SyncWorld.start).bind fun w =>
      (symbolicSync.execIf (fun w a => syncRulesIf w a && closedIf w) dartPushIsStuck.dropLast
      w).map fun w' =>
        (w.shared.heads "vault").isNone &&
        decide (w.shared.generations "vault" 1 = some laptopVault.container) &&
          isTamper (pushResult w')) = some true := by decide +kernel
  obtain ⟨w, hw, h⟩ := Option.bind_eq_some_iff.1 h
  obtain ⟨w', hw', h⟩ := Option.map_eq_some_iff.1 h
  simp only [Bool.and_eq_true, decide_eq_true_eq, Option.isNone_iff_eq_none] at h
  obtain ⟨⟨hhead, hslot⟩, ht⟩ := h
  unfold isTamper at ht
  split at ht
  · rename_i e hr
    exact ⟨w, w', hw, hw', hhead, hslot, e, hr, of_decide_eq_true ht⟩
  · cases ht

theorem closed_of_test {w : SyncWorld Bool Digest Body Wrap} (h : closedIf w = true) {i : Bool}
    {loc : Symbolic.Vault} (hv : (w.dev i).vault = some loc) : loc.container ≠
    laptopVault.container := by
  have hi : i ∈ [false, true] := by cases i <;> decide
  have hall := List.all_eq_true.1 h i hi
  rw [hv] at hall
  exact of_decide_eq_true hall

end

/-! ## The heads of a vault -/

section
variable [DecidableEq H] [DecidableEq B] [DecidableEq W] [DecidableEq ι] {w w' : SyncWorld ι H B W}
  (hL : Sealing L S)

/-- **The heads of a vault are one chain that only grows.** Files do not change, at most one of them
is no head yet, and that is the next head. -/
theorem heads_chain (h : (syncDevices L).Reaches (SyncRules hL Whatever) SyncWorld.start w)
    (h' : (syncDevices L).Reaches (SyncRules hL Whatever) w w') (v : String) :
    ∃ chain above more above', Holds (chainOf Whatever hL v) (w.shared.ledger v) chain above ∧
      Holds (chainOf Whatever hL v) (w'.shared.ledger v) (chain ++ more) above' ∧
      (∀ n c, w.shared.generations v n = some c → w'.shared.generations v n = some c) ∧
      ∀ a, above = some a → (more = [] ∧ above' = some a) ∨ more.head? = some a := by
  replace h := h.mono fun _ _ => syncRules_carries
  replace h' := h'.mono fun _ _ => syncRules_carries
  have hlater := (syncStore_rely carries_whatever h h').later v
  obtain ⟨chain, above, hh⟩ := (syncStore_inOrder carries_whatever h).holds v
  obtain ⟨more, above', hh'⟩ := hlater.chain _ _ hh
  refine ⟨chain, above, more, above', hh, hh', hlater.slot, fun a ha => ?_⟩
  subst ha
  rcases hlater.next hh with hn | ⟨more', above'', hn⟩
  · have hnil : more = [] :=
      List.append_cancel_left ((hh'.unique hn).trans (List.append_nil _).symm)
    subst hnil
    rw [List.append_nil] at hh'
    exact .inl ⟨rfl, hh'.above_eq.symm.trans hn.above_eq⟩
  · have hcons : more = a :: more' := List.append_cancel_left (hh'.unique hn)
    subst hcons
    exact .inr rfl

open Ckvf.Symbolic in
/-- The laptop's first head, two of the phone, and the one that the laptop has merged. -/
theorem heads_chain_laptop : ∃ w w' : SyncWorld Bool Digest Body Wrap,
    (storedKeys w.shared).1 = some 1 ∧
    (storedKeys w'.shared).1 = some 4 ∧ ∃ chain above more above',
      Holds (chainOf Whatever sealing_laws "vault") (w.shared.ledger "vault") chain above ∧
      Holds (chainOf Whatever sealing_laws "vault") (w'.shared.ledger "vault")
          (chain ++ more) above' ∧
      (∀ n c, w.shared.generations "vault" n = some c → w'.shared.generations "vault" n = some c) ∧
      ∀ a, above = some a → (more = [] ∧ above' = some a) ∨ more.head? = some a := by
  obtain ⟨w, w', hrun, hrun', hk, hk', -⟩ := both_run
  refine ⟨w, w', congrArg Prod.fst hk, congrArg Prod.fst hk',
      heads_chain sealing_laws ?_ ?_ "vault"⟩
  · exact reaches_of_tested (fun a ha w hok =>
      syncRules_of_test importsKey_whatever (laptopStarts_commits a ha) hok) hrun
  · exact reaches_of_tested (fun a ha w hok =>
      syncRules_of_test importsKey_whatever (bothContinue_commits a ha) hok) hrun'

/-- **No device blames the store without cause.** A method ends with an alarm only if it pushes a
generation and another one stands under its number. -/
theorem alarms_justified (h : (syncDevices L).Reaches (SyncRules hL Whatever) SyncWorld.start w)
    {i : ι}
    {op : DartOp H B W} {e : VaultException} (hj : w.job i = some (op, .raise e)) (ha : Alarm e) :
    (∀ cfg, op ≠ .pull cfg) ∧
    ((∃ cfg, op = .push cfg ∨ op = .rotateVekToThisDevice cfg) →
      e.code = some "sync_tamper" ∧ Tampered (w.dev i, w.shared)) ∧
    ∀ cfg change andPush, op = .commit cfg change andPush →
      e.code = some "sync_tamper" ∧ Tampered (w.dev i, w.shared) ∨ ∃ seed v, change seed v =
          .error e := by
  replace h := h.mono fun _ _ => syncRules_carries
  have hpost : StorePost hL Whatever (.error e) (w.dev i, w.shared) op :=
    (syncStore hL carries_whatever).post_of_ended (syncStore_inv carries_whatever h)
    (r := .error e) hj
  refine ⟨fun cfg hop => ?_, fun hop => ?_, fun cfg change andPush hop => ?_⟩
  · subst hop
    exact hpost e rfl ha
  · obtain ⟨cfg, rfl | rfl⟩ := hop
    · exact hpost.1 e rfl ha
    · exact hpost e rfl ha
  · subst hop
    exact hpost.1 e rfl ha

section
open Ckvf.Symbolic

/-- The runs of the laptop that hangs: `w` has the first generation above the empty head. -/
theorem laptop_stuck : ∃ w w' : SyncWorld Bool Digest Body Wrap,
    symbolicSync.Reaches (SyncRules sealing_laws Whatever) SyncWorld.start w ∧
    symbolicSync.Reaches (fun w act => SyncRules sealing_laws Whatever w act ∧
      ∀ i loc, (w.dev i).vault = some loc → loc.container ≠ laptopVault.container) w w' ∧
    Holds (chainOf Whatever sealing_laws "vault") (w.shared.ledger "vault") []
        (some laptopVault.container) ∧
    ∃ e cfg, w'.job false = some (.push cfg, .raise e) ∧ e.code = some "sync_tamper" := by
  obtain ⟨w, w', hrun, hrun', hhead, hslot, e, hr, he⟩ := laptop_hangs
  have hreach : symbolicSync.Reaches (SyncRules sealing_laws Whatever) SyncWorld.start w :=
    reaches_of_tested (fun a ha w hok =>
      syncRules_of_test importsKey_whatever (laptopHangs_commits a ha) hok) hrun
  obtain ⟨cfg, hj⟩ := job_of_pushResult hr
  refine ⟨w, w', hreach, reaches_of_tested (fun a ha w hok => ?_) hrun', ?_, e, cfg, hj, he⟩
  · obtain ⟨hrules, hclosed⟩ := (Bool.and_eq_true _ _).mp hok
    exact ⟨syncRules_of_test importsKey_whatever
        (dartPush_commits a (List.dropLast_subset _ ha)) hrules,
      fun i loc hv => closed_of_test hclosed hv⟩
  · obtain ⟨chain, above, hh⟩ := (syncStore_inOrder carries_whatever
      (hreach.mono fun _ _ => syncRules_carries)).holds "vault"
    have hlen := hh.length
    simp only [SyncStore.ledger, hhead, Option.map_none, Option.getD_none] at hlen
    have hnil : chain = [] := List.length_eq_zero_iff.1 (by omega)
    subst hnil
    have habove : above = some laptopVault.container := hh.above_eq.symm.trans hslot
    rw [← habove]
    exact hh

/-- The laptop's push blames the store: its first generation is in the way of another first one. -/
theorem alarms_justified_stuck : ∃ (w : SyncWorld Bool Digest Body Wrap) (e : VaultException),
    e.code = some "sync_tamper" ∧ Tampered (w.dev false, w.shared) := by
  obtain ⟨w, w', hreach, hreach', -, e, cfg, hj, he⟩ := laptop_stuck
  have ha : Alarm e := ⟨"sync_tamper", by decide, he⟩
  have h := alarms_justified sealing_laws (hreach.trans (hreach'.mono fun _ _ hc => hc.1)) hj ha
  exact ⟨w', e, h.2.1 ⟨cfg, .inl rfl⟩⟩

end

/-- **A generation above the head stops the vault until a device has it open.** Unless one does, the
head stays, and a push that succeeds had nothing to store. -/
theorem head_waits (h : (syncDevices L).Reaches (SyncRules hL Whatever) SyncWorld.start
    w) {v : String} {chain : List (VaultContainer H B W)} {a : VaultContainer H B W}
    (ha : Holds (chainOf Whatever hL v) (w.shared.ledger v) chain (some a))
    (h' : (syncDevices L).Reaches (fun w act => SyncRules hL Whatever w act ∧
      ∀ i loc, (w.dev i).vault = some loc → loc.container ≠ a) w w') :
    Holds (chainOf Whatever hL v) (w'.shared.ledger v) chain (some a) ∧
      ∀ i cfg c, w'.job i = some (.push cfg, .ret ()) → (w'.dev i).store.container = some c →
        c.vaultId = v → c ∈ chain := by
  replace h := h.mono fun _ _ => syncRules_carries
  have hkeep : Holds (chainOf Whatever hL v) (w'.shared.ledger v) chain (some a) := by
    induction h' with
    | refl => exact ha
    | tail hreach hstep ih =>
      obtain ⟨act, ⟨hcond, hno⟩, hstep⟩ := hstep
      have hreach := h.trans (Reaches.mono (fun _ _ hc => syncRules_carries hc.1) hreach)
      rcases (syncStore hL carries_whatever).step_shared (syncStore_inv carries_whatever hreach)
        (syncRules_carries hcond) hstep with hs | ⟨i, hg⟩
      · rw [hs]
        exact ih
      · rcases (hg.rely.later v).next ih with hn | ⟨more, above', hn⟩
        · exact hn
        · rcases hg.moves v with hsame | ⟨loc, chain', hv, -, hh⟩
          · -- the head has moved without a new head
            have hlen := hn.length
            rw [SyncStore.ledger_head hsame, ← ih.length, List.length_append,
                List.length_cons] at hlen
            omega
          · have hc : chain = chain' := ih.unique hh
            subst hc
            have hloc : some a = some loc.container := ih.above_eq.symm.trans hh.above_eq
            exact (hno i loc hv (Option.some.inj hloc).symm).elim
  refine ⟨hkeep, fun i cfg c hj hc hv => ?_⟩
  have hreach := h.trans (h'.mono fun _ _ hc => syncRules_carries hc.1)
  have hpost : StorePost hL Whatever (.ok ()) (w'.dev i, w'.shared) (.push cfg) :=
    (syncStore hL carries_whatever).post_of_ended (syncStore_inv carries_whatever hreach)
    (r := .ok ()) hj
  exact (mem_stored hkeep).2 ⟨hpost.2 rfl c hc, hv⟩

open Ckvf.Symbolic in
/-- The laptop has replaced its first generation, and its pushes do not move the head. -/
theorem head_waits_stuck : ∃ w w' : SyncWorld Bool Digest Body Wrap,
    (∃ e cfg, w'.job false = some (.push cfg, .raise e) ∧ e.code = some "sync_tamper") ∧
    Holds (chainOf Whatever sealing_laws "vault") (w.shared.ledger "vault") []
        (some laptopVault.container) ∧
    Holds (chainOf Whatever sealing_laws "vault") (w'.shared.ledger "vault") []
        (some laptopVault.container) := by
  obtain ⟨w, w', hreach, hreach', hh, hend⟩ := laptop_stuck
  exact ⟨w, w', hend, hh, (head_waits sealing_laws hreach hh hreach').1⟩

end

/-! ## What the generations carry -/

/-- The operations of the package carry the key records on. -/
theorem dart_keys_carry (hL : Sealing L S) (hK : KeyLaws L) : Dart.Carries L S (HasKeys S) where
  refl _ := List.Subset.refl _
  trans := List.Subset.trans
  edited {v v'} hs h := by
    unfold HasKeys
    rw [sealed_contents hs, sealed_contents (hL.edited hs.1 h).isSealed]
    exact hK.edited h
  enrolled {seed opened device kek slotId ts v} hs h := by
    have hn : S.Next opened v := Dart.withDevice_next hL hs.1 h
    obtain ⟨slot, -, h⟩ := ok_of_bind h
    have hkeys := hK.edited (.slots _ _ h)
    unfold HasKeys
    rw [sealed_contents hs, sealed_contents hn.isSealed]
    exact hkeys
  rechained {seed v generation previous v'} hs h := by
    obtain ⟨hs', -⟩ := hL.rechained hs.1 h
    unfold HasKeys
    rw [sealed_contents hs, sealed_contents hs', hK.rechained h]
    exact List.Subset.refl _
  merged {head loc base m} hh hl h := by
    obtain ⟨hn, -⟩ := h.next hL hh.1 hl.1
    obtain ⟨hhead, hloc⟩ := h.keys hK
    unfold HasKeys
    rw [sealed_contents hh, sealed_contents hl, sealed_contents hn.isSealed]
    exact ⟨hhead, hloc⟩

section
variable [DecidableEq H] [DecidableEq B] [DecidableEq W] [DecidableEq ι] {w w' : SyncWorld ι H B W}
  {hL : Sealing L S} {Le : VaultContainer H B W → VaultContainer H B W → Prop} (hC : Carries L S Le)
include hC

/-- A stored container has what an earlier one had, as long as the device is not cleared. -/
theorem container_carries (h : (syncDevices L).Reaches (SyncCarries hL Le) SyncWorld.start w)
    {i : ι} (h' : (syncDevices L).Reaches (fun w a => SyncCarries hL Le w a ∧
    (w.dev i).store.container ≠ none) w w')
    {c c' : VaultContainer H B W} (hc : (w.dev i).store.container = some c)
    (hc' : (w'.dev i).store.container = some c') : Le c c' := by
  induction h' generalizing c' with
  | refl =>
    rw [Option.some.inj (hc.symm.trans hc')]
    exact hC.refl _
  | tail hreach hstep ih =>
    obtain ⟨a, ⟨hcond, hne⟩, hstep⟩ := hstep
    obtain ⟨c₁, hc₁⟩ := Option.ne_none_iff_exists'.1 hne
    have hle := ih hc₁
    have hinv := syncStore_inv hC (h.trans (Reaches.mono (fun _ _ hc => hc.1) hreach))
    rcases (syncStore hL hC).step_effect hinv hcond hstep i with ⟨hd, -⟩ | ⟨-, hd, -⟩ | hg
    · rw [hd, hc₁] at hc'
      rw [← Option.some.inj hc']
      exact hle
    · rw [hd] at hc'
      have hsame : c₁ = c' := Option.some.inj (hc₁.symm.trans hc')
      rw [← hsame]
      exact hle
    · exact hC.trans hle (hg.grows _ _ hc₁ hc')

/-- **What a generation has, all later ones have.** So has the head, from then on, what the local
container has when a push succeeds, and the local container what a commit has made and what it had
before. -/
theorem sync_loses_nothing (h : (syncDevices L).Reaches (SyncCarries hL Le) SyncWorld.start w)
    (h' : (syncDevices L).Reaches (SyncCarries hL Le) w w') (i : ι) :
    (∀ c c', Stored Le hL w'.shared c → Stored Le hL w'.shared c' → c.vaultId = c'.vaultId →
      c.generation ≤ c'.generation → Le c c') ∧
    (∀ cfg c, w.job i = some (.push cfg, .ret ()) → (w.dev i).store.container = some c →
      ∃ head c', w'.shared.heads c.vaultId = some head ∧
        w'.shared.generations c.vaultId head.generation = some c' ∧ Le c c') ∧
    (∀ cfg change andPush, w.job i = some (.commit cfg change andPush, .ret ()) →
      Committed Le change (w.dev i)) ∧
    ((syncDevices L).Reaches (fun w a => SyncCarries hL Le w a ∧
    (w.dev i).store.container ≠ none) w w' →
      ∀ c c', (w.dev i).store.container = some c → (w'.dev i).store.container = some c' →
          Le c c') := by
  have hinv := syncStore_inv hC h
  refine ⟨fun c c' hc hc' => hc.le hC hc', fun cfg c hj hc => ?_, fun cfg change andPush hj => ?_,
    fun hreach c c' => container_carries hC h hreach⟩
  · have hpost : StorePost hL Le (.ok ()) (w.dev i, w.shared) (.push cfg) :=
      (syncStore hL hC).post_of_ended hinv (r := .ok ()) hj
    have hs : Stored Le hL w'.shared c := (hpost.2 rfl c hc).mono (syncStore_rely hC h h')
    obtain ⟨head, c', hh, hs', hid, hn, hle⟩ : ∃ head c', w'.shared.heads c.vaultId = some head ∧
        Stored Le hL w'.shared c' ∧ c'.vaultId = c.vaultId ∧ (c'.generation : Int) =
            head.generation ∧
          (c.generation : Int) ≤ head.generation := by
      obtain ⟨p, hp, hle⟩ := Installed.le_head hs
      obtain ⟨head, hh, rfl⟩ := Option.map_eq_some_iff.1 hp
      obtain ⟨c', hs', hid, hn, -⟩ := (syncStore_inOrder hC (h.trans h')).head hh
      exact ⟨head, c', hh, hs', hid, hn, hle⟩
    refine ⟨head, c', hh, ?_, hs.le hC hs' hid.symm (by omega)⟩
    rw [← hid, ← hn]
    exact hs'.generation
  · have hpost : StorePost hL Le (.ok ()) (w.dev i, w.shared) (.commit cfg change andPush) :=
      (syncStore hL hC).post_of_ended hinv (r := .ok ()) hj
    exact hpost.2 rfl

end

open Ckvf.Symbolic in
/-- The keys that the phone and the laptop have imported are in the head that the laptop has
pushed. -/
theorem sync_loses_nothing_pushed : ∃ (w : SyncWorld Bool Digest Body Wrap) (c : Container),
    (w.dev false).store.container = some c ∧ keyIds (sealing.contents c) = ["B", "A"] ∧ ∃ head c',
      w.shared.heads c.vaultId = some head ∧
          w.shared.generations c.vaultId head.generation = some c' ∧
        HasKeys sealing c c' := by
  obtain ⟨w, w', hrun, hrun', -, -, hend, hkeys⟩ := both_run
  have hreach : symbolicSync.Reaches (SyncCarries sealing_laws (HasKeys sealing))
      SyncWorld.start w :=
    reaches_of_tested (fun a ha w hok =>
      syncCarries_of_test importsKey_carries (laptopStarts_commits a ha) hok) hrun
  have hreach' : symbolicSync.Reaches (SyncCarries sealing_laws (HasKeys sealing)) w w' :=
    reaches_of_tested (fun a ha w hok =>
      syncCarries_of_test importsKey_carries (bothContinue_commits a ha) hok) hrun'
  obtain ⟨cfg, hj⟩ := job_of_pushResult hend
  unfold localKeys at hkeys
  cases hc : (w'.dev false).store.container with
  | none =>
    rw [hc] at hkeys
    cases hkeys
  | some c =>
    rw [hc] at hkeys
    have h := sync_loses_nothing (dart_keys_carry sealing_laws key_laws)
        (hreach.trans hreach') .refl false
    exact ⟨w', c, hc, hkeys, h.2.1 cfg c hj hc⟩

end Vault
