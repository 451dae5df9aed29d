import SdkPubkey.Vault.Proof.ClientMethods
import SdkPubkey.Vault.Proof.SyncRuns

/-!
# Runs of Rust and Dart devices on one host

What holds after every run of any number of devices, each with the `KeyVault` of one of the two SDKs
(`clients`), however their steps interleave and their requests fail:

* `clients_share_host`: the generations are one numbered, hash-linked list that only grows, a
  generation has what all before it have, what a push of either SDK has stored every later head has,
  and a commit stores what its change has made;
* `dart_trusts_host`: no Dart device blames the host.
-/

namespace Vault

open Ckvf Lib Lib.Protocol

variable {H B W ι : Type} {L : Ckvf H B W} {S : Seal H B W}
  {Le : VaultContainer H B W → VaultContainer H B W → Prop}

/-! ## The conditions -/

section
variable (S) (Le)

/-- How the app starts a method: `create` and `adopt` on a device without a vault, `adopt` with a
generation that is on the host if it says so, `commit` with a change that carries on what the vault
has, and no sync store. -/
def DartOp.StartsOnHost (d : Device H B W) (g : Host H B W) : DartOp H B W → Prop
  | create .. => d.store.container = none
  | adopt opened _ storedOnHost _ => d.store.container = none ∧ S.Sealed opened ∧
      (storedOnHost = true → ∃ r ∈ g, r.container = opened.container)
  | commit cfg change _ => cfg.syncStore = false ∧ Dart.Carrying S Le change
  | pull cfg | push cfg | rotateVekToThisDevice cfg => cfg.syncStore = false
  | openStored | revokeDevice _ | rotateToHybridMsk .. | clear | restart => True

def ClientOp.StartsWell (d : Device H B W) (g : Host H B W) : ClientOp H B W → Prop
  | rust op => op.StartsWell S S.Valid Le d g
  | dart op => op.StartsOnHost S Le d g

/-- The error with which a request or the app answers. -/
def failure : LocalEv ⊕ HostEv → Option VaultClientError
  | .inl (.auth (.error e)) | .inr (.lose e) | .inr (.drop e) => some e
  | _ => none

/-- The devices, of the SDKs `sdk`, start their methods well; a process ends, and a write of a Rust
device fails, only where the local container has what the generation has that `synced_hash` names;
the stores of the Dart devices answer, and no error of a request is an alarm of theirs. -/
structure ClientRules (sdk : ι → Client) (w : ClientsWorld ι H B W)
    (a : Act ι (ClientOp H B W) (LocalEv ⊕ HostEv)) :
    Prop where
  starts : ∀ i op, a = .start i op → op.client = sdk i ∧ op.StartsWell S Le (w.dev i) w.shared
  crashes : ∀ i, a = .crash i → Rust.Covered Le (w.dev i) w.shared
  writes : ∀ i e op k v K, a = .call i (.inl (.fail e)) →
      w.job i = some (op, .call (.write k v) K) →
    Rust.Covered Le (w.dev i) w.shared
  answers : ∀ i e, sdk i = .dart → a ≠ .call i (.inl (.fail e))
  calm : ∀ i ev e, sdk i = .dart → a = .call i ev → failure ev = some e → e.code ∉ Dart.alarmCodes

end

section
variable (Le)

/-- What a method of the Dart `KeyVault` leaves when it ends. -/
def DartPost (r : Except Dart.VaultException Unit) (s : Device H B W × Host H B W) :
    DartOp H B W → Prop
  | .pull _ | .rotateVekToThisDevice _ => ∀ e, r = .error e → ¬ Dart.Alarm e
  | .push cfg => (∀ e, r = .error e → ¬ Dart.Alarm e) ∧
      (cfg.binding ≠ none → r = .ok () → Rust.Pushed Le s.1 s.2)
  | .commit _ change _ => ((∀ e, r = .error e → ¬ Dart.Alarm e) ∨
      ∃ e seed v, r = .error e ∧ change seed v = .error e) ∧
          (r = .ok () → Dart.Committed Le change s.1)
  | _ => True

def ClientPost (r : Except ClientError Unit) (s : Device H B W × Host H B W) : ClientOp H B W → Prop
  | .rust op => ∃ r', r = r'.mapError .inl ∧ SyncPost Le r' s op
  | .dart op => ∃ r', r = r'.mapError .inr ∧ DartPost Le r' s op

end

/-! ## The methods of a Dart device -/

namespace Clients

open Vault.Dart

variable [DecidableEq H] {recordSignature : RecordSignature H B W} (hL : Sealing L S)
  (hR : Rust.Carries L S S.Valid Le) (hC : Dart.Carries L S Le) {d : Device H B W} {g : Host H B W}

omit [DecidableEq H] in
theorem fairness : Fairness (γ := Host H B W) (H := H) (B := B) (W := W) (Rely S Le)
    fun r _ => ∀ e, r = .error e → ¬ Alarm e where
  calm h := h
  mono h _ := h

include hL hR hC

theorem safe_push {cfg : Config} (hcfg : cfg.syncStore = false) (h : Idle S Le (d, g)) :
    HostSafe L S Le recordSignature
      (fun r s => Ends S Le d r s ∧ (cfg.binding ≠ none → r = .ok () → Rust.Pushed Le s.1 s.2))
      (push L cfg) d g := by
  unfold push
  rw [hcfg]
  cases hb : cfg.binding with
  | none => exact safe_ret fun _ hr =>
    ⟨⟨h.mono hL hR hr, .refl hC d, nofun⟩, fun hn => absurd rfl hn⟩
  | some b => exact (safe_pushRounds hL hR hC 4 h).imp fun r s hp => ⟨hp.toEnds, fun _ => hp.pushed⟩

theorem safe_pushFair {cfg : Config} (hcfg : cfg.syncStore = false) (h : Idle S Le (d, g)) :
    HostSafe L S Le recordSignature
      (fun r s => Idle S Le s ∧ Grows Le d s.1 ∧ ∀ e, r = .error e → ¬ Alarm e) (push L cfg) d g :=
  (safe_push hL hR hC hcfg h).imp fun _ _ hp => ⟨hp.1.idle, hp.1.grows, hp.1.calm⟩

/-- The writes of `create` and `adopt`: `hash` is none, or names a generation that `v` has. -/
theorem safe_setUp {v : UnlockedVault H B W} {kek : Bytes} {slotId : String} {hash : Option H}
    (h : Idle S Le (d, g)) (hnew : d.store.container = none) (hs : S.Sealed v)
    (hb : Rust.Builds S.Valid Le v.container)
    (hhash : ∀ x, hash = some x → ∃ r ∈ g, r.generationHash = x ∧ Le r.container v.container) :
    HostSafe L S Le recordSignature (fun _ s => Idle S Le s)
      (do
        writeDevice kek slotId
        write .syncedHash hash
        persist v) d g := by
  refine (host_keeps L recordSignature hL hR hC).safe_setUp hs hb ?_
      (free_container hb fun c hc => ?_) ?_
  · cases hash with
    | none => exact free_none hC .syncedHash
    | some x =>
      obtain ⟨r, hr, rfl, -⟩ := hhash x rfl
      exact free_syncedHash hC hr
  · cases hnew.symm.trans hc
  · refine ⟨⟨⟨h.kept.always.host, fun c hc => ?_, fun x hx => ?_⟩,
      fun w hw => ?_, fun c r hc hr he => ?_⟩, h.linked, h.marked⟩
    · cases hc
      exact hb
    · obtain ⟨r, hr, he, -⟩ := hhash x hx
      exact ⟨r, hr, he⟩
    · cases hw
      exact ⟨hs, rfl⟩
    · cases hc
      obtain ⟨r₀, hr₀, he₀, hle⟩ := hhash _ he
      rw [← Rust.good_inj hR hL (h.kept.always.host.good hr₀) (h.kept.always.host.good hr) he₀]
      exact hle

/-- A well-started method keeps the invariant. -/
theorem safe_dartOp {op : DartOp H B W} (hop : op.StartsOnHost S Le d g) (h : Idle S Le (d, g)) :
    HostSafe L S Le recordSignature (fun r s => DartPost Le r s op ∧ Idle S Le s)
        (op.prog L) d g := by
  have K := host_keeps L recordSignature hL hR hC
  cases op with
  | create email device mskSeed ts =>
    refine (K.safe_create hL h fun hs _ hp => ?_).imp fun _ _ hi => ⟨trivial, hi⟩
    -- no record is marked as stored yet
    refine safe_setUp hL hR hC h hop hs ⟨hs.1, fun c _ he => ?_⟩ nofun
    rw [hp] at he
    cases he
  | adopt opened device storedOnHost ts =>
    obtain ⟨hnew, hs, hstored⟩ := hop
    refine (K.safe_adopt hL hC h hs fun {v kek slotId} hcar => ?_).imp fun _ _ hi => ⟨trivial, hi⟩
    have hcar' : Rust.Carried S S.Valid Le opened v := ⟨hcar.1, hcar.1.isSealed.1, hcar.2⟩
    refine safe_setUp hL hR hC h hnew hcar.1.isSealed (hcar'.builds hR hL hs.1) fun x hx => ?_
    -- the marker is set only for a record that the host has
    by_cases hon : storedOnHost = true
    · rw [if_pos hon] at hx
      obtain ⟨r, hr, hrc⟩ := hstored hon
      refine ⟨r, hr, ?_, ?_⟩
      · rw [← Option.some.inj hx, ← hrc]
        rfl
      · rw [hrc]
        exact hcar.2
    · rw [if_neg hon] at hx
      cases hx
  | openStored =>
    refine K.setting.bind ((K.safe_openStored hL h).imp fun r s hi => ?_)
    obtain ⟨d', g'⟩ := s
    cases r with
    | ok b =>
      have hret : HostSafe L S Le recordSignature
          (fun r s => DartPost Le r s .openStored ∧ Idle S Le s) (.ret ()) d' g' :=
        safe_ret fun _ hr => ⟨trivial, hi.mono hL hR hr⟩
      exact hret
    | error e => exact ⟨trivial, hi⟩
  | commit cfg change andPush =>
    refine (K.safe_commit hC fairness (safe_pushFair hL hR hC hop.1) hop.2 h).imp fun r s hend => ?_
    obtain ⟨hi, hfair, hdone⟩ := hend
    exact ⟨⟨hfair, hdone⟩, hi⟩
  | pull cfg =>
    -- without a sync store `pull` is the host's branch alone
    have hprog : ∀ b, cfg.binding = some b → Dart.pull L cfg = pullHost L b := by
      intro b hb
      unfold Dart.pull
      rw [if_neg (by simp [show cfg.syncStore = false from hop]), hb]
    dsimp only [DartOp.prog]
    cases hb : cfg.binding with
    | none =>
      have hnone : Dart.pull L cfg = pure false := by
        unfold Dart.pull
        rw [if_neg (by simp [show cfg.syncStore = false from hop]), hb]
      rw [hnone]
      exact safe_ret fun _ hr => ⟨nofun, h.mono hL hR hr⟩
    | some b =>
      rw [hprog b hb]
      refine K.setting.bind ((safe_pullHost hL hR hC h).imp fun r s hend => ?_)
      obtain ⟨d', g'⟩ := s
      cases r with
      | ok changed =>
        have hret : HostSafe L S Le recordSignature
            (fun r s => DartPost Le r s (.pull cfg) ∧ Idle S Le s) (.ret ()) d' g' :=
          safe_ret fun _ hr => ⟨nofun, hend.idle.mono hL hR hr⟩
        exact hret
      | error e =>
        refine ⟨fun e' he' => ?_, hend.idle⟩
        cases he'
        exact hend.calm e rfl
  | push cfg =>
    exact (safe_push hL hR hC hop h).imp fun _ _ hp => ⟨⟨hp.1.calm, hp.2⟩, hp.1.idle⟩
  | revokeDevice slotId => exact (K.safe_revokeDevice hL hC h).imp fun _ _ hi => ⟨trivial, hi⟩
  | rotateToHybridMsk seeds publicKey =>
    exact (K.safe_rotateToHybridMsk hL hC h).imp fun _ _ hi => ⟨trivial, hi⟩
  | rotateVekToThisDevice cfg =>
    exact (K.safe_rotateVekToThisDevice hL hC fairness (safe_pushFair hL hR hC hop) h).imp
      fun _ _ hi => ⟨hi.2, hi.1⟩
  | clear => exact (K.safe_clear h).imp fun _ _ hi => ⟨trivial, hi⟩
  | restart => exact (K.safe_restart h).imp fun _ _ hi => ⟨trivial, hi⟩

end Clients

/-! ## The argument -/

namespace Client

section
variable (S) (Le)

def Always : Client → Device H B W × Host H B W → Prop
  | rust => fun s => Rust.Always S.Valid Le s ∧ s.2.Linked
  | dart => Clients.Always S Le

def Idle : Client → Device H B W × Host H B W → Prop
  | rust => fun s => Rust.Idle S S.Valid Le s ∧ s.2.Linked
  | dart => Clients.Idle S Le

def Guar : Client → Device H B W × Host H B W → Device H B W × Host H B W → Prop
  | rust => fun s s' => Rust.Guar S.Valid Le s s' ∧ (s.2.Linked → s'.2.Linked)
  | dart => Clients.Guar S Le

end

variable (L) (Le) in
def Transitions [DecidableEq H] (recordSignature : RecordSignature H B W) : Client →
    Trans H B W (Host H B W)
  | rust => syncTrans L Le recordSignature
  | dart => Clients.dartTrans L recordSignature

variable {k : Client} {d : Device H B W} {g g' : Host H B W} {s s' : Device H B W × Host H B W}

theorem Always.host (h : k.Always S Le s) : Rust.Monotone S.Valid Le s.2 ∧ s.2.Linked := by
  cases k with
  | rust => exact ⟨h.1.host, h.2⟩
  | dart => exact ⟨h.kept.host, h.linked⟩

theorem Always.mono (h : k.Always S Le (d, g)) (hr : Clients.Rely S Le g g') :
    k.Always S Le (d, g') := by
  cases k with
  | rust => exact ⟨h.1.mono hr.kept, hr.linked h.2⟩
  | dart => exact Clients.Always.mono h hr

theorem Idle.mono (hL : Sealing L S) (hR : Rust.Carries L S S.Valid Le) (h : k.Idle S Le (d, g))
    (hr : Clients.Rely S Le g g') : k.Idle S Le (d, g') := by
  cases k with
  | rust => exact ⟨h.1.mono hR hL hr.kept, hr.linked h.2⟩
  | dart => exact Clients.Idle.mono hL hR h hr

theorem Guar.keeps (h : k.Guar S Le s s') : Clients.Rely S Le s.2 s'.2 ∧
    (k.Always S Le s → k.Always S Le s') := by
  cases k with
  | rust => exact ⟨⟨h.1.rely, h.2⟩, fun ha => ⟨h.1.always ha.1, h.2 ha.2⟩⟩
  | dart => exact ⟨h.rely, h.always⟩

/-- The local container loses nothing while it is there. -/
theorem Guar.grows (h : k.Guar S Le s s') {c c' : VaultContainer H B W}
    (hc : s.1.store.container = some c) (hc' : s'.1.store.container = some c') : Le c c' := by
  cases k with
  | rust =>
    obtain ⟨c₁, hc₁, hle⟩ := h.1.grows c hc
    rw [Option.some.inj (hc'.symm.trans hc₁)]
    exact hle
  | dart => exact Clients.Guar.grows h c c' hc hc'

/-- A process ends where its local container has what the synced generation has. -/
theorem Always.reset (h : k.Always S Le (d, g)) (hc : Rust.Covered Le d g) :
    k.Always S Le (d.reset, g) ∧ k.Idle S Le (d.reset, g) := by
  cases k with
  | rust =>
    have hal : Rust.Always S.Valid Le (d.reset, g) := ⟨h.1.host, h.1.stored, h.1.known⟩
    exact ⟨⟨hal, h.2⟩, ⟨hal, nofun, hc⟩, h.2⟩
  | dart =>
    have hal : Rust.Always S.Valid Le (d.reset, g) := ⟨h.kept.host, h.kept.stored, h.kept.known⟩
    exact ⟨⟨hal, h.linked, h.marked⟩, ⟨⟨hal, nofun, hc⟩, h.linked, h.marked⟩⟩

end Client

section
variable [DecidableEq H] {recordSignature : RecordSignature H B W} {d : Device H B W}
    {g : Host H B W}

/-- Only a failed write answers a write with an error. -/
theorem writeOk_of_env {c : VaultCall H B W} {ev : LocalEv ⊕ HostEv} {a : c.Ans}
    {s s' : Device H B W × Host H B W}
    (h : (vaultEnv (hostRemote L recordSignature)).step c ev s = some (a, s'))
    (hw : ∀ e k v, ev = .inl (.fail e) → c = .write k v → Rust.Covered Le s.1 s.2) :
    writeOk Le c s a := by
  cases c with
  | write k v =>
    cases a with
    | ok _ => trivial
    | error e =>
      rcases ev with lev | rev
      · cases lev with
        | fail e' => exact hw e' k v rfl rfl
        | ok | bytes b | seed s | auth r | reply r => cases h
      · cases h
  | read k | getVault | setVault v | randomBytes n | entropy | authorize v o | currentRecord v o
  | putRecord i' c s l | getHead v | getGeneration v n | putIfAbsent v n c | compareAndSwapHead n e
  | replaceMsk p => trivial

/-- The answers to a Dart device: an upload that does not extend the head is no alarm. -/
theorem dartAnswers_of_env {c : VaultCall H B W} {ev : LocalEv ⊕ HostEv} {a : c.Ans}
    {s s' : Device H B W × Host H B W}
    (h : (vaultEnv (hostRemote L recordSignature)).step c ev s = some (a, s'))
    (hf : ∀ e, ev ≠ .inl (.fail e)) (hcalm : ∀ e, failure ev = some e → e.code ∉ Dart.alarmCodes) :
    Clients.dartAnswers c a := by
  cases c with
  | read k | write k v =>
    cases a with
    | ok _ => trivial
    | error e =>
      rcases ev with lev | rev
      · cases lev with
        | fail e' => exact (hf e' rfl).elim
        | ok | bytes b | seed s | auth r | reply r => cases h
      · cases h
  | authorize v o =>
    cases a with
    | ok _ => trivial
    | error e =>
      -- every cause of a refusal but a failed request is shut out by `hf` and `hcalm`
      rcases ev with lev | rev
      · cases lev with
        | auth r =>
          cases h
          exact hcalm e rfl
        | ok | fail e' | bytes b | seed s | reply r => cases h
      · cases h
  | currentRecord v o =>
    cases a with
    | ok _ => trivial
    | error e =>
      rcases ev with lev | rev
      · cases lev <;> cases h
      · cases rev with
        | serve => cases h
        | lose e' | drop e' =>
          cases h
          exact hcalm e rfl
  | putRecord i' c' s' l =>
    cases a with
    | ok _ => trivial
    | error e =>
      rcases ev with lev | rev
      · cases lev <;> cases h
      · cases rev with
        | lose e' | drop e' =>
          cases h
          exact hcalm e rfl
        | serve =>
          -- the host itself refuses with a conflict only
          have hput : (s.2.put L ⟨c', recordSignature i' c' s'⟩).1 = .error e := by
            simp only [VaultCall.isRequest, if_true, hostAnswer, Option.map_some, Option.some.injEq,
              Prod.mk.injEq] at h
            exact h.1
          rcases Host.put_cases (L := L) (g := s.2) (r := ⟨c', recordSignature i' c' s'⟩) with
            ⟨-, hp⟩ | ⟨-, hp⟩ | ⟨-, -, hp⟩
          · rw [hp] at hput
            cases hput
          · rw [hp] at hput
            cases hput
          · rw [hp] at hput
            cases hput
            show "generation_conflict" ∉ Dart.alarmCodes
            decide
  | getVault | setVault v | randomBytes n | entropy | getHead v | getGeneration v n
  | putIfAbsent v n c
  | compareAndSwapHead n e | replaceMsk p => trivial

variable (hL : Sealing L S) (hR : Rust.Carries L S S.Valid Le) (hC : Dart.Carries L S Le)
include hL hR hC

/-- A well-started method keeps the invariant of its SDK. -/
theorem safe_clientOp {op : ClientOp H B W} (hop : op.StartsWell S Le d g)
    (h : op.client.Idle S Le (d, g)) :
    Safely (op.client.Transitions L Le recordSignature) (Clients.Rely S Le) (op.client.Guar S Le)
      (fun r s => ClientPost Le r s op ∧ op.client.Idle S Le s) (op.prog L) d g := by
  cases op with
  | rust op =>
    have hsafe : Safely (syncTrans L Le recordSignature) (Clients.Rely S Le) (Client.rust.Guar S Le)
        (fun r s => SyncPost Le r s op ∧ Rust.Idle S S.Valid Le s) (op.prog L) d g := by
      refine Safe.adapt (fun hs => ⟨hs.1, hs.2.kept⟩) id (fun ht hg => ?_) (safe_prog hR hL hop h.1)
      obtain ⟨ev, hev⟩ := ht.1
      exact ⟨hg, Clients.linked_step L recordSignature hev⟩
    have hkept := hsafe.keeps (J := fun s => s.2.Linked) (fun hs => hs.2.linked)
        (fun hg => hg.2) h.2
    refine safe_mapError (hkept.imp fun r s hp => ?_)
    exact ⟨⟨r, rfl, hp.1.1⟩, hp.1.2, hp.2⟩
  | dart op =>
    refine safe_mapError ((Clients.safe_dartOp hL hR hC hop h).imp fun r s hp => ?_)
    exact ⟨⟨r, rfl, hp.1⟩, hp.2⟩

variable (recordSignature) in
/-- **The rely/guarantee argument for the devices of both SDKs and the host.** -/
def clients [DecidableEq ι] (sdk : ι → Client) :
    Roles (clientsHost L recordSignature) (ClientRules (ι := ι) S Le sdk) where
  T i := (sdk i).Transitions L Le recordSignature
  Rely _ := Clients.Rely S Le
  G i := (sdk i).Guar S Le
  Always i := (sdk i).Always S Le
  Idle i := (sdk i).Idle S Le
  Post _ op r s := ClientPost Le r s op
  rely_refl _ := .refl
  rely_trans := .trans
  always_mono := .mono
  idle_mono := .mono hL hR
  guarantee h hg := ⟨fun _ _ => hg.keeps.1, hg.keeps.2 h⟩
  calls {w i ev op c k a s'} hc hj hs := by
    cases hk : sdk i with
    | rust =>
      refine ⟨⟨ev, hs⟩, writeOk_of_env hs fun e k v he hcw => ?_⟩
      subst he hcw
      exact hc.writes i e op _ _ _ rfl hj
    | dart =>
      refine ⟨⟨ev, hs⟩, dartAnswers_of_env hs (fun e he => ?_) fun e he => hc.calm i ev e hk rfl he⟩
      exact hc.answers i e hk (congrArg (Act.call i) he)
  starts {w i op} hc _ _ hi := by
    obtain ⟨hsdk, hop⟩ := hc.starts i op rfl
    rw [← hsdk] at hi ⊢
    exact safe_clientOp hL hR hC hop hi
  crashes hc ha := ha.reset (hc.crashes _ rfl)

variable [DecidableEq ι] {sdk : ι → Client} {w w' : ClientsWorld ι H B W}

theorem clients_start : (clients recordSignature hL hR hC sdk).Inv
    (ClientsWorld.start : ClientsWorld ι H B W) := by
  have hidle : ∀ k : Client, k.Always S Le (({}, []) : Device H B W × Host H B W) ∧
      k.Idle S Le ({}, []) := by
    have hal : Rust.Always S.Valid Le (({}, []) : Device H B W × Host H B W) :=
      ⟨⟨nofun, .nil⟩, nofun, nofun⟩
    intro k
    cases k with
    | rust => exact ⟨⟨hal, Host.linked_nil⟩, ⟨hal, nofun, nofun⟩, Host.linked_nil⟩
    | dart => exact ⟨⟨hal, Host.linked_nil, nofun⟩, ⟨hal, nofun, nofun⟩, Host.linked_nil, nofun⟩
  exact ⟨fun i => (hidle (sdk i)).1, fun i => (hidle (sdk i)).2⟩

theorem clients_inv (h : (clientsHost L recordSignature).Reaches (ClientRules S Le sdk)
    ClientsWorld.start w) :
    (clients recordSignature hL hR hC sdk).Inv w :=
  (clients recordSignature hL hR hC sdk).inv_run (clients_start hL hR hC) h

theorem clients_rely (h : (clientsHost L recordSignature).Reaches (ClientRules S Le sdk)
    ClientsWorld.start w)
    (h' : (clientsHost L recordSignature).Reaches (ClientRules S Le sdk) w w') :
    Clients.Rely S Le w.shared w'.shared := by
  induction h' with
  | refl => exact .refl _
  | tail hreach hstep ih =>
    obtain ⟨a, hcond, hstep⟩ := hstep
    rcases (clients recordSignature hL hR hC sdk).step_shared
        (clients_inv hL hR hC (h.trans hreach)) hcond hstep with
      hs | ⟨i, hg⟩
    · rw [hs]
      exact ih
    · exact ih.trans (Client.Guar.keeps hg).1

/-- A stored container has what an earlier one had, as long as the device is not cleared. -/
theorem clients_container
    (h : (clientsHost L recordSignature).Reaches (ClientRules S Le sdk) ClientsWorld.start w)
    {i : ι} (h' : (clientsHost L recordSignature).Reaches
      (fun w a => ClientRules S Le sdk w a ∧ (w.dev i).store.container ≠ none) w w')
    {c c' : VaultContainer H B W} (hc : (w.dev i).store.container = some c)
    (hc' : (w'.dev i).store.container = some c') : Le c c' := by
  induction h' generalizing c' with
  | refl =>
    rw [Option.some.inj (hc.symm.trans hc')]
    exact hC.refl _
  | tail hreach hstep ih =>
    obtain ⟨a, ⟨hcond, hne⟩, hstep⟩ := hstep
    obtain ⟨c₁, hc₁⟩ := Option.ne_none_iff_exists'.1 hne
    have hle := ih hc₁
    have hinv := clients_inv hL hR hC (h.trans (Reaches.mono (fun _ _ hc => hc.1) hreach))
    rcases (clients recordSignature hL hR hC sdk).step_effect hinv hcond hstep i with
        ⟨hd, -⟩ | ⟨-, hd, -⟩ | hg
    · rw [hd, hc₁] at hc'
      rw [← Option.some.inj hc']
      exact hle
    · rw [hd] at hc'
      have hsame : c₁ = c' := Option.some.inj (hc₁.symm.trans hc')
      rw [← hsame]
      exact hle
    · exact hC.trans hle (Client.Guar.grows hg hc₁ hc')

end

/-! ## Two SDKs, one vault -/

/-- A push to a host. -/
def ClientOp.Pushes : ClientOp H B W → Prop
  | .rust (.push binding) => binding ≠ none
  | .dart (.push cfg) => cfg.binding ≠ none
  | _ => False

/-- What the change of a commit has made is in the local container. -/
def ClientOp.Committed (Le : VaultContainer H B W → VaultContainer H B W → Prop)
    (d : Device H B W) :
    ClientOp H B W → Prop
  | .rust (.commit _ change _) => Rust.Committed Le change d
  | .dart (.commit _ change _) => Dart.Committed Le change d
  | _ => True

namespace ClientPost

variable {s : Device H B W × Host H B W}

theorem rust_ok {op : RustOp H B W} (h : ClientPost Le (.ok ()) s (.rust op)) :
    SyncPost Le (.ok ()) s op := by
  obtain ⟨r, hr, hp⟩ := h
  cases r with
  | error e => cases hr
  | ok u => exact hp

theorem dart_ok {op : DartOp H B W} (h : ClientPost Le (.ok ()) s (.dart op)) :
    DartPost Le (.ok ()) s op := by
  obtain ⟨r, hr, hp⟩ := h
  cases r with
  | error e => cases hr
  | ok u => exact hp

theorem dart_error {op : DartOp H B W} {e : Dart.VaultException}
    (h : ClientPost Le (.error (.inr e)) s (.dart op)) : DartPost Le (.error e) s op := by
  obtain ⟨r, hr, hp⟩ := h
  cases r with
  | error e' =>
    cases hr
    exact hp
  | ok u => cases hr

/-- A push that has succeeded. -/
theorem pushed {op : ClientOp H B W} (h : ClientPost Le (.ok ()) s op) (hop : op.Pushes) :
    Rust.Pushed Le s.1 s.2 := by
  cases op with
  | rust op =>
    cases op with
    | push binding => exact h.rust_ok hop rfl
    | create | adopt | openStored | commit | pull => cases hop
  | dart op =>
    cases op with
    | push cfg => exact h.dart_ok.2 hop rfl
    | create | adopt | openStored | commit | pull | revokeDevice | rotateToHybridMsk
    | rotateVekToThisDevice
    | clear | restart => cases hop

/-- A commit that has succeeded. -/
theorem committed {op : ClientOp H B W} (h : ClientPost Le (.ok ()) s op) :
    op.Committed Le s.1 := by
  cases op with
  | rust op =>
    cases op with
    | commit binding change andPush => exact h.rust_ok rfl
    | create | adopt | openStored | push | pull => trivial
  | dart op =>
    cases op with
    | commit cfg change andPush => exact h.dart_ok.2 rfl
    | create | adopt | openStored | push | pull | revokeDevice | rotateToHybridMsk
    | rotateVekToThisDevice
    | clear | restart => trivial

end ClientPost

section
variable [DecidableEq H] [DecidableEq ι] {recordSignature : RecordSignature H B W}
    {sdk : ι → Client}
  {w w' : ClientsWorld ι H B W}

/-- **The two SDKs share a vault without loss.** The generations on the host are one list, each
extends those before it, has what they have, and stays. When a push has succeeded, on a device of
either SDK, every later head has what its local container has; a commit has stored what its change
made; and a local container loses nothing until its device is cleared. -/
theorem clients_share_host (hL : Sealing L S) (hR : Rust.Carries L S S.Valid Le)
    (hC : Dart.Carries L S Le)
    (h : (clientsHost L recordSignature).Reaches (ClientRules S Le sdk) ClientsWorld.start w)
    (h' : (clientsHost L recordSignature).Reaches (ClientRules S Le sdk) w w') (i : ι) :
    (w.shared <+: w'.shared ∧ w'.shared.Linked ∧
      w'.shared.Pairwise fun r r' => Le r.container r'.container) ∧
    (∀ op c, w.job i = some (op, .ret ()) → op.Pushes → (w.dev i).store.container = some c →
      ∃ head, w'.shared.getLast? = some head ∧ Le c head.container) ∧
    (∀ op, w.job i = some (op, .ret ()) → op.Committed Le (w.dev i)) ∧
    ((clientsHost L recordSignature).Reaches
        (fun w a => ClientRules S Le sdk w a ∧ (w.dev i).store.container ≠ none) w w' →
      ∀ c c', (w.dev i).store.container = some c → (w'.dev i).store.container = some c' →
          Le c c') := by
  have hinv := clients_inv hL hR hC h
  have hrely := clients_rely hL hR hC h h'
  obtain ⟨hmono, hlinked⟩ := ((clients_inv hL hR hC (h.trans h')).always i).host
  have hpost : ∀ op, w.job i = some (op, .ret ()) → ClientPost Le (.ok ()) (w.dev i, w.shared) op :=
    fun op hj => (clients recordSignature hL hR hC sdk).post_of_ended hinv (r := .ok ()) hj
  refine ⟨⟨hrely.kept.1, hlinked, hmono.le⟩, fun op c hj hop hc => ?_, fun op hj =>
    (hpost op hj).committed, fun hreach c c' => clients_container hL hR hC h hreach⟩
  obtain ⟨r, hr, hle⟩ := (hpost op hj).pushed hop c hc
  replace hr := hrely.kept.1.subset hr
  obtain ⟨head, hhead⟩ := Option.ne_none_iff_exists'.1 fun hn =>
    List.ne_nil_of_mem hr (List.getLast?_eq_none_iff.1 hn)
  exact ⟨head, hhead, hC.trans hle (hmono.le_head hR hr hhead)⟩

/-- **No Dart device blames the host.** Whatever Rust and Dart devices do meanwhile, no `pull`,
`push` or rotation of the VEK ends with an alarm, a rollback for one, and a commit only if its
change has thrown it. -/
theorem dart_trusts_host (hL : Sealing L S) (hR : Rust.Carries L S S.Valid Le)
    (hC : Dart.Carries L S Le)
    (h : (clientsHost L recordSignature).Reaches (ClientRules S Le sdk) ClientsWorld.start w)
    {i : ι} {op : DartOp H B W} {e : Dart.VaultException}
    (hj : w.job i = some (.dart op, .raise (.inr e))) :
    ((∃ cfg, op = .pull cfg ∨ op = .push cfg ∨ op = .rotateVekToThisDevice cfg) → ¬ Dart.Alarm e) ∧
    ∀ cfg change andPush, op = .commit cfg change andPush → Dart.Alarm e → ∃ seed v, change seed v =
        .error e := by
  have hpost : ClientPost Le (.error (.inr e)) (w.dev i, w.shared) (.dart op) :=
    (clients recordSignature hL hR hC sdk).post_of_ended (clients_inv hL hR hC h)
    (r := .error (.inr e)) hj
  have hp := hpost.dart_error
  refine ⟨fun hop => ?_, fun cfg change andPush hop ha => ?_⟩
  · obtain ⟨cfg, rfl | rfl | rfl⟩ := hop
    · exact hp e rfl
    · exact hp.1 e rfl
    · exact hp e rfl
  · subst hop
    rcases hp.1 with hcalm | ⟨e', seed, v, he, hch⟩
    · exact (hcalm e rfl ha).elim
    · cases he
      exact ⟨seed, v, hch⟩

end

/-! ## A laptop with the Rust SDK and a phone with the Dart SDK -/

section
open Ckvf.Symbolic

abbrev symbolicClients : Protocol (Device Digest Body Wrap) (Host Digest Body Wrap)
    (ClientOp Digest Body Wrap)
    (vaultIface Digest Body Wrap) ClientError := clientsHost symbolic mskSignature

/-- `false` is the laptop, `true` the phone. -/
def sdkOf : Bool → Client
  | false => .rust
  | true => .dart

abbrev ClientAct := Act Bool (ClientOp Digest Body Wrap) (LocalEv ⊕ HostEv)

/-- The devices and the host without the methods that run. -/
def ClientsWorld.idle (w : ClientsWorld Bool Digest Body Wrap) : RustWorld Bool Digest Body Wrap :=
  ⟨w.shared, w.dev, fun _ => none⟩

/-- No failure of the store, and no alarm. -/
def calmIf : LocalEv ⊕ HostEv → Bool
  | .inl (.fail _) => false
  | ev => (failure ev).all fun e => decide (e.code ∉ Dart.alarmCodes)

theorem calm_of_test {ev : LocalEv ⊕ HostEv} (h : calmIf ev = true) {e : VaultClientError}
    (hf : failure ev = some e) : e.code ∉ Dart.alarmCodes := by
  unfold calmIf at h
  split at h
  · cases h
  · rw [hf] at h
    simpa using h

/-- The action starts a method of the device's SDK well, fails no write, ends no process and raises
no alarm; of a commit only the `KeyVault` is tested. -/
def clientRulesIf (w : ClientsWorld Bool Digest Body Wrap) : ClientAct → Bool
  | .start i (.rust op) => !i && startsWellIf w.idle (.start i op)
  | .start _ (.dart (.create ..)) => false
  | .start i (.dart (.adopt opened device storedOnHost ts)) =>
    i && startsWellIf w.idle (.start i (.adopt opened device storedOnHost ts))
  | .start i (.dart (.commit cfg _ _)) | .start i (.dart (.pull cfg)) | .start i (.dart (.push cfg))
  | .start i (.dart (.rotateVekToThisDevice cfg)) => i && !cfg.syncStore
  | .start i (.dart _) => i
  | .call _ ev => calmIf ev
  | .crash _ => false
  | .finish _ => true

/-- The change of a commit is an import. -/
def ImportsOnly : ClientAct → Prop
  | .start _ (.rust (.commit _ change _)) => ∃ seed n, change = importing seed n
  | .start _ (.dart (.commit _ change _)) => ∃ n, change = importsKey n
  | _ => True

theorem importsOnly_actsOf {i : Bool} {op : ClientOp Digest Body Wrap}
    {evs : List (LocalEv ⊕ HostEv)}
    (h : ImportsOnly (.start i op)) : ∀ a ∈ actsOf i op evs, ImportsOnly a := by
  intro a ha
  simp only [actsOf, List.cons_append, List.mem_cons, List.mem_append, List.mem_map,
    List.not_mem_nil, or_false] at ha
  rcases ha with rfl | ⟨ev, -, rfl⟩ | rfl
  · exact h
  · trivial
  · trivial

theorem clientRules_of_test {w : ClientsWorld Bool Digest Body Wrap} {a : ClientAct}
    (ha : ImportsOnly a)
    (h : clientRulesIf w a = true) : ClientRules sealing (HasKeys sealing) sdkOf w a := by
  refine ⟨fun i op hop => ?_, fun i hi => ?_, fun i e op k v K he _ => ?_, fun i e _ he => ?_,
    fun i ev e _ he hf => ?_⟩
  · -- an operation begins
    subst hop
    cases op with
    | rust op =>
      obtain ⟨hi, h⟩ := (Bool.and_eq_true _ _).mp h
      have hi : i = false := by simpa using hi
      subst hi
      refine ⟨rfl, startsWell_of_test (fun j binding change andPush he => ?_) h false op rfl⟩
      cases he
      exact ha
    | dart op =>
      cases op with
      | create email device mskSeed ts => cases h
      | adopt opened device storedOnHost ts =>
        obtain ⟨hi, h⟩ := (Bool.and_eq_true _ _).mp h
        subst hi
        obtain ⟨hnew, hs, -, hstored⟩ :=
          startsWell_of_test (fun j binding change andPush he => by cases he) h true
          (.adopt opened device storedOnHost ts) rfl
        exact ⟨rfl, hnew, hs, hstored⟩
      | commit cfg change andPush =>
        obtain ⟨hi, hcfg⟩ := (Bool.and_eq_true _ _).mp h
        subst hi
        obtain ⟨n, rfl⟩ := ha
        exact ⟨rfl, by simpa using hcfg, importsKey_carries n⟩
      | pull cfg | push cfg | rotateVekToThisDevice cfg =>
        obtain ⟨hi, hcfg⟩ := (Bool.and_eq_true _ _).mp h
        subst hi
        have hcfg : cfg.syncStore = false := by simpa using hcfg
        exact ⟨rfl, hcfg⟩
      | openStored | revokeDevice slotId | rotateToHybridMsk seeds publicKey | clear | restart =>
        have hi : i = true := h
        subst hi
        exact ⟨rfl, trivial⟩
  · subst hi
    cases h
  · subst he
    cases h
  · subst he
    cases h
  · subst he
    exact calm_of_test h hf

theorem clients_tested {as : List ClientAct} (has : ∀ a ∈ as, ImportsOnly a)
    {w w' : ClientsWorld Bool Digest Body Wrap}
    (h : symbolicClients.execIf clientRulesIf as w = some w') :
    symbolicClients.Reaches (ClientRules sealing (HasKeys sealing) sdkOf) w w' :=
  reaches_of_tested (fun a ha _ hok => clientRules_of_test (has a ha) hok) h

/-- The config of the phone's `KeyVault`. -/
def hostConfig : Dart.Config := ⟨sampleBinding, false⟩

/-- The laptop creates a vault and pushes it, and the phone adopts it. -/
def phoneJoinsHost : List ClientAct :=
  actsOf false (.rust (.create "me" laptop none "now"))
    [.inl (.bytes laptopKek), .inl (.bytes (List.replicate 16 0)), .inl (.seed 0),
    .inl .ok, .inl .ok, .inl .ok, .inl .ok, .inl .ok] ++
  actsOf false (.rust (.push sampleBinding))
      [.inl .ok, .inl .ok, .inl .ok, .inr .serve, .inl .ok] ++
  actsOf true (.dart (.adopt laptopVault ⟨"phone", "Phone", none⟩ true "now"))
    [.inl (.bytes (List.replicate 32 1)), .inl (.bytes (List.replicate 16 1)),
    .inl (.seed 1), .inl .ok, .inl .ok, .inl .ok, .inl .ok, .inl .ok]

/-- The phone pushes its slot; the laptop imports a key, and its push merges. -/
def laptopMerges : List ClientAct :=
  actsOf true (.dart (.push hostConfig))
    [.inl .ok, .inl .ok, .inl .ok, .inr .serve, .inl .ok, .inl .ok, .inl .ok] ++
  actsOf false (.rust (.commit none (importing 2 65) false))
      [.inl .ok, .inl .ok, .inl .ok, .inl .ok] ++
  actsOf false (.rust (.push sampleBinding))
    ([.inl .ok, .inl .ok, .inl .ok, .inr .serve, .inl .ok, .inl (.auth (.ok "grant")),
    .inr .serve] ++ [.inl .ok, .inl .ok, .inl .ok, .inl (.seed 3), .inl .ok, .inl .ok] ++
      [.inl .ok, .inl .ok, .inl .ok, .inr .serve, .inl .ok])

/-- The phone imports another key, and its push merges. -/
def phoneMerges : List ClientAct :=
  actsOf true (.dart (.commit hostConfig (importsKey 66) false))
      [.inl .ok, .inl (.seed 4), .inl .ok, .inl .ok] ++
  (actsOf true (.dart (.push hostConfig))
    ([.inl .ok, .inl .ok, .inl .ok, .inr .serve, .inl .ok, .inl (.auth (.ok "grant")),
    .inr .serve] ++ List.replicate 8 (.inl .ok) ++ [.inl (.seed 5), .inl .ok, .inl .ok] ++
      [.inl .ok, .inl .ok, .inl .ok, .inr .serve, .inl .ok, .inl .ok, .inl .ok])).dropLast

/-- The laptop pulls what the phone has pushed. -/
def laptopPulls : List ClientAct :=
  actsOf false (.rust (.pull sampleBinding))
    ([.inl .ok, .inl (.auth (.ok "grant")), .inr .serve] ++ List.replicate 7 (.inl .ok))

/-- The laptop's second push comes before the phone's first, which is not merged. -/
def laptopIsFirst : List ClientAct :=
  actsOf false (.rust (.commit none (importing 2 65) false))
      [.inl .ok, .inl .ok, .inl .ok, .inl .ok] ++
  actsOf false (.rust (.push sampleBinding))
      [.inl .ok, .inl .ok, .inl .ok, .inr .serve, .inl .ok] ++
  (actsOf true (.dart (.push hostConfig))
    ([.inl .ok, .inl .ok, .inl .ok, .inr .serve, .inl .ok, .inl (.auth (.ok "grant")),
    .inr .serve] ++ List.replicate 4 (.inl .ok))).dropLast

theorem phoneJoinsHost_imports : ∀ a ∈ phoneJoinsHost, ImportsOnly a := by
  simp only [phoneJoinsHost, List.forall_mem_append]
  exact ⟨⟨importsOnly_actsOf trivial, importsOnly_actsOf trivial⟩, importsOnly_actsOf trivial⟩

theorem laptopMerges_imports : ∀ a ∈ laptopMerges, ImportsOnly a := by
  simp only [laptopMerges, List.forall_mem_append]
  exact ⟨⟨importsOnly_actsOf trivial, importsOnly_actsOf ⟨2, 65, rfl⟩⟩, importsOnly_actsOf trivial⟩

theorem phoneMerges_imports : ∀ a ∈ phoneMerges, ImportsOnly a := by
  simp only [phoneMerges, List.forall_mem_append]
  refine ⟨importsOnly_actsOf ⟨66, rfl⟩, fun a ha =>
    importsOnly_actsOf ?_ a (List.dropLast_subset _ ha)⟩
  trivial

/-- The numbers and the key records of the generations. -/
def hostKeys (g : Host Digest Body Wrap) : List (Nat × List String) :=
  g.map fun r => (r.generation, keyIds (sealing.contents r.container))

/-- How the phone's push has ended. -/
def phonePush (w : ClientsWorld Bool Digest Body Wrap) : Option (Except ClientError Unit) :=
  match w.job true with
  | some (.dart (.push ⟨some _, _⟩), .ret _) => some (.ok ())
  | some (.dart (.push ⟨some _, _⟩), .raise e) => some (.error e)
  | _ => none

theorem laptopPulls_imports : ∀ a ∈ laptopPulls, ImportsOnly a := importsOnly_actsOf trivial

theorem laptopIsFirst_imports : ∀ a ∈ laptopIsFirst, ImportsOnly a := by
  simp only [laptopIsFirst, List.forall_mem_append]
  refine ⟨⟨importsOnly_actsOf ⟨2, 65, rfl⟩, importsOnly_actsOf trivial⟩, fun a ha =>
    importsOnly_actsOf ?_ a (List.dropLast_subset _ ha)⟩
  trivial

theorem phonePush_job {w : ClientsWorld Bool Digest Body Wrap} {r : Except ClientError Unit}
    (h : phonePush w = some r) : ∃ b s, w.job true =
    some (.dart (.push ⟨some b, s⟩), .ofExcept r) := by
  unfold phonePush at h
  split at h
  · rename_i b s u hj
    cases h
    exact ⟨b, s, hj⟩
  · rename_i b s e hj
    cases h
    exact ⟨b, s, hj⟩
  · cases h

def isRemoved : Option (Except ClientError Unit) → Bool
  | some (.error (.inr e)) => decide (e.code = some "device_removed")
  | _ => false

/-- Both pushes find another head and merge; the laptop pulls the key of the phone. -/
theorem clients_run : ∃ w w',
    symbolicClients.execIf clientRulesIf (phoneJoinsHost ++ laptopMerges ++ phoneMerges)
        ClientsWorld.start = some w ∧
    symbolicClients.execIf clientRulesIf laptopPulls w = some w' ∧ phonePush w = some (.ok ()) ∧
      hostKeys w'.shared = [(1, []), (2, []), (3, ["A"]), (4, ["A", "B"])] ∧
      localKeys sealing (w.dev true) = ["A", "B"] ∧ localKeys sealing (w'.dev false) =
          ["A", "B"] := by
  have h : ((symbolicClients.execIf clientRulesIf (phoneJoinsHost ++ laptopMerges ++ phoneMerges)
      ClientsWorld.start).bind fun w =>
          (symbolicClients.execIf clientRulesIf laptopPulls w).map fun w' =>
        decide (phonePush w = some (.ok ())) &&
          decide (hostKeys w'.shared = [(1, []), (2, []), (3, ["A"]), (4, ["A", "B"])]) &&
          decide (localKeys sealing (w.dev true) = ["A", "B"]) &&
          decide (localKeys sealing (w'.dev false) = ["A", "B"])) = some true := by decide +kernel
  obtain ⟨w, hw, h⟩ := Option.bind_eq_some_iff.1 h
  obtain ⟨w', hw', h⟩ := Option.map_eq_some_iff.1 h
  simp only [Bool.and_eq_true, decide_eq_true_eq] at h
  exact ⟨w, w', hw, hw', h.1.1.1, h.1.1.2, h.1.2, h.2⟩

/-- The key of the laptop and that of the phone are in the head. -/
theorem clients_share_host_merged : ∃ (w w' : ClientsWorld Bool Digest Body Wrap) (c : Container),
    hostKeys w'.shared = [(1, []), (2, []), (3, ["A"]), (4, ["A", "B"])] ∧ w.shared <+: w'.shared ∧
      w'.shared.Linked ∧ (w.dev true).store.container = some c ∧
          keyIds (sealing.contents c) = ["A", "B"] ∧
      ∃ head, w'.shared.getLast? = some head ∧ HasKeys sealing c head.container := by
  obtain ⟨w, w', hrun, hrun', hend, hhost, hkeys, -⟩ := clients_run
  have himports : ∀ a ∈ phoneJoinsHost ++ laptopMerges ++ phoneMerges, ImportsOnly a := by
    simp only [List.forall_mem_append]
    exact ⟨⟨phoneJoinsHost_imports, laptopMerges_imports⟩, phoneMerges_imports⟩
  obtain ⟨⟨hpre, hlinked, -⟩, hpushed, -, -⟩ := clients_share_host sealing_laws
    (keys_carry sealing_laws key_laws) (dart_keys_carry sealing_laws key_laws)
    (clients_tested himports hrun) (clients_tested laptopPulls_imports hrun') true
  obtain ⟨b, sync, hj⟩ := phonePush_job hend
  unfold localKeys at hkeys
  cases hc : (w.dev true).store.container with
  | none =>
    rw [hc] at hkeys
    cases hkeys
  | some c =>
    rw [hc] at hkeys
    have hpushes : ClientOp.Pushes (.dart (.push ⟨some b, sync⟩) : ClientOp Digest Body Wrap) :=
      nofun
    exact ⟨w, w', c, hhost, hpre, hlinked, hc, hkeys, hpushed _ c hj hpushes hc⟩

/-- The phone's push, which the laptop's has overtaken, ends with `device_removed`. -/
theorem phone_overtaken : ∃ w e, symbolicClients.execIf clientRulesIf
    (phoneJoinsHost ++ laptopIsFirst)
    ClientsWorld.start = some w ∧ phonePush w = some (.error (.inr e)) ∧
        e.code = some "device_removed" := by
  have h : ((symbolicClients.execIf clientRulesIf (phoneJoinsHost ++ laptopIsFirst)
      ClientsWorld.start).map fun w =>
      isRemoved (phonePush w)) = some true := by decide +kernel
  obtain ⟨w, hw, h⟩ := Option.map_eq_some_iff.1 h
  unfold isRemoved at h
  split at h
  · rename_i e hr
    exact ⟨w, e, hw, hr, of_decide_eq_true h⟩
  · cases h

theorem dart_trusts_host_overtaken : ∃ (w : ClientsWorld Bool Digest Body Wrap)
    (e : Dart.VaultException),
    phonePush w = some (.error (.inr e)) ∧ e.code = some "device_removed" ∧ ¬ Dart.Alarm e := by
  obtain ⟨w, e, hrun, hend, hcode⟩ := phone_overtaken
  have himports : ∀ a ∈ phoneJoinsHost ++ laptopIsFirst, ImportsOnly a := by
    simp only [List.forall_mem_append]
    exact ⟨phoneJoinsHost_imports, laptopIsFirst_imports⟩
  obtain ⟨b, sync, hj⟩ := phonePush_job hend
  exact ⟨w, e, hend, hcode, (dart_trusts_host sealing_laws (keys_carry sealing_laws key_laws)
    (dart_keys_carry sealing_laws key_laws) (clients_tested himports hrun) hj).1
    ⟨_, .inr (.inl rfl)⟩⟩

end

end Vault
