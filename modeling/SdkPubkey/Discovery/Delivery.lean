import SdkPubkey.Discovery.Http

/-!
# Delivery of signed writes

What `pubkeyRequest` returns against a network that loses requests and answers, or breaks a body
off, and a host that applies a signed envelope at most once (`Conforms`).

* `exec_attempts`: the outcome is that of the first attempt that is not tried again.
* `delivered_iff`: an `Ok` tells that the envelope was applied, exactly when that attempt is not a
  success whose body breaks off, which `unwrap_or_default` reads as an empty body.
-/

namespace Discovery

open Lib

/-! ## Network and host -/

/-- What the network does with an attempt. -/
inductive Delivery where
  /-- The request does not reach the host. -/
  | lost (err : TransportError)
  /-- The host gets the request, and its answer is lost. -/
  | unanswered (err : TransportError)
  | answered
  /-- Status and headers arrive, and the body breaks off. -/
  | cutOff (err : TransportError)
deriving DecidableEq

structure HostTurn where
  status : Nat
  text : String
  applies : Bool
deriving DecidableEq

/-- An attempt: what the network does, and what the host does with the request, which depends on
whether it has applied the envelope before. -/
structure Attempt where
  delivery : Delivery
  host : (repeated : Bool) → HostTurn

/-- The network and the host after `sent` attempts. -/
structure Net where
  sent : Nat := 0
  /-- How often the envelope was applied. -/
  applied : Nat
  received : List (Except TransportError Response) := []

def Net.turn (schedule : Nat → Attempt) (net : Net) : HostTurn :=
  (schedule net.sent).host (decide (0 < net.applied))

/-- One attempt. -/
def Net.send (schedule : Nat → Attempt) (net : Net) : Except TransportError Response × Net :=
  let turn := net.turn schedule
  let next (reached : Bool) (r : Except TransportError Response) :
      Except TransportError Response × Net :=
    (r, ⟨net.sent + 1, net.applied + (reached && turn.applies).toNat, net.received ++ [r]⟩)
  match (schedule net.sent).delivery with
  | .lost err => next false (.error err)
  | .unanswered err => next true (.error err)
  | .answered => next true (.ok ⟨turn.status, .ok turn.text⟩)
  | .cutOff err => next true (.ok ⟨turn.status, .error err⟩)

def Net.handler (schedule : Nat → Attempt) : (c : HttpCall) → Net → httpIface.Ans c × Net :=
  fun _ net => net.send schedule

/-- The network after `n` attempts. -/
def Net.after (schedule : Nat → Attempt) (net : Net) : Nat → Net
  | 0 => net
  | n + 1 => ((net.after schedule n).send schedule).2

section
variable (parse : String → Option Json)

def Rejects (turn : HostTurn) : Prop :=
  isSuccess turn.status = false ∧
    (PubkeyError.fromResponse turn.status (parseBody parse turn.text)).isReplayRejection = true

/-- A host that applies an envelope at most once: what it answers with success it has applied, and
it answers with a replay rejection exactly when it applied the envelope before. -/
structure Conforms (host : Bool → HostTurn) : Prop where
  success : isSuccess (host false).status = true → (host false).applies = true
  fresh : ¬ Rejects parse (host false)
  once : (host true).applies = false
  repeated : Rejects parse (host true)

/-! ## What an `Ok` tells -/

/-- `v` is the body of the last response, a success whose body was received to its end. -/
def Complete (net : Net) (v : Json) : Prop :=
  ∃ status text, net.received.getLast? = some (.ok ⟨status, .ok text⟩) ∧ isSuccess status = true ∧
    v = parseBody parse text

/-- No value comes from a body that breaks off. -/
def CompleteOnly (r : Except PubkeyError Json × Net) : Prop := ∀ v, r.1 = .ok v →
    Complete parse r.2 v

/-- An `Ok` tells that the envelope is applied once, and the marker that this call did it. -/
def Delivered (before : Bool) (r : Except PubkeyError Json × Net) : Prop :=
  ∀ v, r.1 = .ok v → r.2.applied = 1 ∧
    (Complete parse r.2 v ∨ (v = reconciledFromReplayResponse ∧ before.toNat < r.2.applied))

end

/-! ## The schedules that go well -/

section
variable (wasm : Bool)

/-- A timeout or a failed connection: the request is sent again. -/
def Delivery.Retried : Delivery → Prop
  | .lost err | .unanswered err =>
    classifyTransport wasm err = .timeout ∨ classifyTransport wasm err = .unreachable
  | .answered | .cutOff _ => False

/-- In the state `net`, the next attempt is a success whose body breaks off. -/
def Net.SuccessCutOff (schedule : Nat → Attempt) (net : Net) : Prop :=
  (∃ err, (schedule net.sent).delivery = .cutOff err) ∧
    isSuccess (net.turn schedule).status = true

/-- `good` holds of the first attempt that is not tried again, if there is one. -/
def FirstAnswer (schedule : Nat → Attempt) (net : Net) (good : Net → Nat → Prop) : Prop :=
  ∀ n < connectionAttempts, (∀ m < n, (schedule m).delivery.Retried wasm) →
    ¬ (schedule n).delivery.Retried wasm → good (net.after schedule n) n

end

/-! ## Runs -/

section
variable {parse : String → Option Json} {wasm : Bool} {request : Request} {reconcile : Bool}
  {schedule : Nat → Attempt} {net : Net}

theorem sent_send (net : Net) : (net.send schedule).2.sent = net.sent + 1 := by
  unfold Net.send
  cases (schedule net.sent).delivery <;> rfl

theorem sent_after (n : Nat) : (net.after schedule n).sent = net.sent + n := by
  induction n with
  | zero => rfl
  | succ n ih => rw [Net.after, sent_send, ih, Nat.add_assoc]

theorem received_send (net : Net) :
    (net.send schedule).2.received.getLast? = some (net.send schedule).1 := by
  unfold Net.send
  cases (schedule net.sent).delivery <;> simp

/-- An attempt that is tried again ends in a timeout or a failed connection. -/
theorem send_retried (net : Net) (h : (schedule net.sent).delivery.Retried wasm) :
    ∃ err, (net.send schedule).1 = .error err ∧
      (classifyTransport wasm err = .timeout ∨ classifyTransport wasm err = .unreachable) := by
  unfold Net.send
  cases hd : (schedule net.sent).delivery with
  | lost err =>
    rw [hd] at h
    exact ⟨err, rfl, h⟩
  | unanswered err =>
    rw [hd] at h
    exact ⟨err, rfl, h⟩
  | answered =>
    rw [hd] at h
    exact h.elim
  | cutOff err =>
    rw [hd] at h
    exact h.elim

/-- Another attempt brings a response, or an error that ends the call. -/
theorem send_decided (net : Net) (h : ¬ (schedule net.sent).delivery.Retried wasm) :
    (∃ response, (net.send schedule).1 = .ok response) ∨
      ∃ err, (net.send schedule).1 = .error err ∧
        (classifyTransport wasm err = .tls ∨ classifyTransport wasm err = .other) := by
  have hkind : ∀ err, ¬ (classifyTransport wasm err = .timeout ∨
      classifyTransport wasm err = .unreachable) →
      classifyTransport wasm err = .tls ∨ classifyTransport wasm err = .other := by
    intro err hr
    cases hc : classifyTransport wasm err <;> simp_all
  unfold Net.send
  cases hd : (schedule net.sent).delivery with
  | lost err =>
    rw [hd] at h
    exact .inr ⟨err, rfl, hkind err h⟩
  | unanswered err =>
    rw [hd] at h
    exact .inr ⟨err, rfl, hkind err h⟩
  | answered => exact .inl ⟨_, rfl⟩
  | cutOff err => exact .inl ⟨_, rfl⟩

theorem exec_send {request : Request} {α : Type} (f : Except TransportError Response → HttpProg α)
    (net : Net) (n : Nat) :
    (send request >>= f).exec (Net.handler schedule) (net.after schedule n) =
      (f ((net.after schedule n).send schedule).1).exec (Net.handler schedule)
        (net.after schedule (n + 1)) := rfl

/-- The program from its `n`-th attempt on: what it makes of the first answer decides. -/
theorem exec_attempts (hsent : net.sent = 0) {P : Except PubkeyError Json × Net → Prop}
    {good : Net → Nat → Prop} (herror : ∀ e s, P (.error e, s))
    (hanswer : ∀ n response, ((net.after schedule n).send schedule).1 = .ok response →
      (P (answered parse reconcile (decide (0 < n)) response, net.after schedule (n + 1)) ↔
        good (net.after schedule n) n))
    (hnone : ∀ n err, ((net.after schedule n).send schedule).1 = .error err →
      good (net.after schedule n) n)
    (left n : Nat) (last : Option PubkeyError) (hn : n + left = connectionAttempts)
    (hbefore : ∀ m < n, (schedule m).delivery.Retried wasm) :
    P ((attempts parse wasm request reconcile left (decide (0 < n)) last).exec
        (Net.handler schedule) (net.after schedule n)) ↔
      ∀ k, n ≤ k → k < connectionAttempts → (∀ m < k, (schedule m).delivery.Retried wasm) →
        ¬ (schedule k).delivery.Retried wasm → good (net.after schedule k) k := by
  induction left generalizing n last with
  | zero =>
    refine ⟨fun _ k hk hk4 => ?_, fun _ => herror _ _⟩
    omega
  | succ left ih =>
    have hs : (net.after schedule n).sent = n := by rw [sent_after, hsent, Nat.zero_add]
    rw [attempts, exec_send]
    by_cases hr : (schedule n).delivery.Retried wasm
    · -- the call fails in a way that is tried again
      have hih := fun last' => ih (n + 1) last' (by omega) (fun m hm => by
        by_cases hmn : m = n
        · rw [hmn]
          exact hr
        · exact hbefore m (by omega))
      have hskip : (∀ k, n + 1 ≤ k → k < connectionAttempts →
          (∀ m < k, (schedule m).delivery.Retried wasm) →
          ¬ (schedule k).delivery.Retried wasm → good (net.after schedule k) k) ↔
          ∀ k, n ≤ k → k < connectionAttempts → (∀ m < k, (schedule m).delivery.Retried wasm) →
            ¬ (schedule k).delivery.Retried wasm → good (net.after schedule k) k := by
        refine ⟨fun h k hk hk4 hm hnr => ?_, fun h k hk => h k (by omega)⟩
        have hkn : k ≠ n := by
          intro he
          exact hnr (he ▸ hr)
        exact h k (by omega) hk4 hm hnr
      obtain ⟨err, he, hc⟩ := send_retried (net.after schedule n) (by rwa [hs])
      have htrue : decide (0 < n + 1) = true := by simp
      rw [he, ← hskip]
      rcases hc with hc | hc
      · simpa only [hc, htrue] using hih _
      · simpa only [hc, htrue] using hih _
    · -- the call decides
      have hfirst : (∀ k, n ≤ k → k < connectionAttempts →
          (∀ m < k, (schedule m).delivery.Retried wasm) →
          ¬ (schedule k).delivery.Retried wasm → good (net.after schedule k) k) ↔
          good (net.after schedule n) n := by
        refine ⟨fun h => h n (Nat.le_refl n) (by omega) hbefore hr, fun h k hk _ hm _ => ?_⟩
        have hkn : k = n := by
          by_contra hne
          exact hr (hm n (by omega))
        rw [hkn]
        exact h
      rw [hfirst]
      rcases send_decided (net.after schedule n) (by rwa [hs]) with ⟨response, ho⟩ |
        ⟨err, he, hc⟩
      · rw [← hanswer n response ho, ho]
        simp only [Prog.exec_ofExcept]
      · rw [he]
        refine ⟨fun _ => hnone n err he, fun _ => ?_⟩
        rcases hc with hc | hc
        · simp only [hc]
          exact herror _ _
        · simp only [hc]
          exact herror _ _

/-- **The first answer decides the outcome of a request.** -/
theorem exec_pubkeyRequest (hsent : net.sent = 0) {P : Except PubkeyError Json × Net → Prop}
    {good : Net → Nat → Prop} (herror : ∀ e s, P (.error e, s))
    (hanswer : ∀ n response, ((net.after schedule n).send schedule).1 = .ok response →
      (P (answered parse reconcile (decide (0 < n)) response, net.after schedule (n + 1)) ↔
        good (net.after schedule n) n))
    (hnone : ∀ n err, ((net.after schedule n).send schedule).1 = .error err →
      good (net.after schedule n) n) :
    P ((pubkeyRequest parse wasm request reconcile).exec (Net.handler schedule) net) ↔
      FirstAnswer wasm schedule net good := by
  refine Iff.trans (exec_attempts hsent herror hanswer hnone connectionAttempts 0 none
    (Nat.zero_add _) fun m hm => absurd hm (Nat.not_lt_zero m)) ?_
  exact ⟨fun h n hn => h n (Nat.zero_le n) hn, fun h n _ hn => h n hn⟩

/-! ## Complete bodies -/

theorem answered_cutOff {had : Bool} {status : Nat} {err : TransportError} {v : Json}
    (h : answered parse reconcile had ⟨status, .error err⟩ = .ok v) :
    isSuccess status = true ∧ v = .null := by
  have hnull : parseBody parse "" = .null := by simp [parseBody]
  have hcode : (PubkeyError.fromResponse status .null).isReplayRejection = false := by
    simp [PubkeyError.fromResponse, Json.field?, Json.stringField?, PubkeyError.isReplayRejection,
      isPubkeyReplayRejection]
  simp only [answered, hnull, hcode, Bool.and_false] at h
  split at h
  · rename_i hs
    cases h
    exact ⟨hs, rfl⟩
  · cases h

theorem answered_complete {had : Bool} {status : Nat} {text : String} {v : Json}
    (h : answered parse reconcile had ⟨status, .ok text⟩ = .ok v) :
    (isSuccess status = true ∧ v = parseBody parse text) ∨
      (isSuccess status = false ∧ reconcile = true ∧ had = true ∧
        (PubkeyError.fromResponse status (parseBody parse text)).isReplayRejection = true ∧
        v = reconciledFromReplayResponse) := by
  simp only [answered] at h
  split at h
  · rename_i hs
    cases h
    exact .inl ⟨hs, rfl⟩
  · rename_i hs
    split at h
    · rename_i hr
      simp only [Bool.and_eq_true] at hr
      cases h
      exact .inr ⟨by simpa using hs, hr.1.1, hr.1.2, hr.2, rfl⟩
    · cases h

/-- An attempt that brings a response reached the host, which answered it. -/
theorem send_ok {response : Response} (h : (net.send schedule).1 = .ok response) :
    (net.send schedule).2.applied = net.applied + (net.turn schedule).applies.toNat ∧
      (((schedule net.sent).delivery = .answered ∧
          response = ⟨(net.turn schedule).status, .ok (net.turn schedule).text⟩) ∨
        ∃ err, (schedule net.sent).delivery = .cutOff err ∧
          response = ⟨(net.turn schedule).status, .error err⟩) := by
  unfold Net.send at h ⊢
  cases hd : (schedule net.sent).delivery with
  | lost err =>
    rw [hd] at h
    cases h
  | unanswered err =>
    rw [hd] at h
    cases h
  | answered =>
    rw [hd] at h
    cases h
    exact ⟨by simp, .inl ⟨rfl, rfl⟩⟩
  | cutOff err =>
    rw [hd] at h
    cases h
    exact ⟨by simp, .inr ⟨err, rfl, rfl⟩⟩

theorem send_error {err : TransportError} (h : (net.send schedule).1 = .error err) :
    (schedule net.sent).delivery ≠ .answered ∧ ¬ net.SuccessCutOff schedule := by
  unfold Net.send at h
  unfold Net.SuccessCutOff
  cases hd : (schedule net.sent).delivery with
  | lost err => exact ⟨by simp, by simp⟩
  | unanswered err => exact ⟨by simp, by simp⟩
  | answered =>
    rw [hd] at h
    cases h
  | cutOff err =>
    rw [hd] at h
    cases h

theorem complete_of_answered {status : Nat} {text : String}
    (h : (net.send schedule).1 = .ok ⟨status, .ok text⟩) (hs : isSuccess status = true) :
    Complete parse (net.send schedule).2 (parseBody parse text) :=
  ⟨status, text, by rw [received_send, h], hs, rfl⟩

/-- A body that broke off is not complete. -/
theorem not_complete_of_cutOff {status : Nat} {err : TransportError} {v : Json}
    (h : (net.send schedule).1 = .ok ⟨status, .error err⟩) :
    ¬ Complete parse (net.send schedule).2 v := by
  intro hc
  obtain ⟨status', text, hl, -, -⟩ := hc
  rw [received_send, h] at hl
  cases hl

/-- A value comes from a complete body, exactly when the first answer is not a success that breaks
off. -/
theorem completeOnly_iff (hsent : net.sent = 0) :
    CompleteOnly parse ((pubkeyRequest parse wasm request false).exec (Net.handler schedule) net) ↔
      FirstAnswer wasm schedule net fun net' _ => ¬ net'.SuccessCutOff schedule := by
  refine exec_pubkeyRequest hsent (fun e s v hv => by cases hv) ?_
    (fun n err he => (send_error he).2)
  intro n response ho
  rcases (send_ok ho).2 with ⟨hd, rfl⟩ | ⟨err, hd, rfl⟩
  · refine ⟨fun _ hc => ?_, fun _ v hv => ?_⟩
    · obtain ⟨err, he⟩ := hc.1
      rw [hd] at he
      cases he
    · rcases answered_complete hv with ⟨hs, rfl⟩ | ⟨-, hrec, -⟩
      · exact complete_of_answered ho hs
      · cases hrec
  · refine ⟨fun h hc => ?_, fun h v hv => ?_⟩
    · have hv : answered parse false (decide (0 < n))
          ⟨((net.after schedule n).turn schedule).status, .error err⟩ =
          .ok (parseBody parse "") := by
        simp only [answered, hc.2, ↓reduceIte]
      exact not_complete_of_cutOff ho (h _ hv)
    · exact absurd ⟨⟨err, hd⟩, (answered_cutOff hv).1⟩ h

/-! ## Signed writes -/

/-- A host that conforms applies the envelope at most once. -/
theorem applied_after (net : Net) (hconf : ∀ n, Conforms parse (schedule n).host)
    (h1 : net.applied ≤ 1) (n : Nat) :
    net.applied ≤ (net.after schedule n).applied ∧ (net.after schedule n).applied ≤ 1 := by
  induction n with
  | zero => exact ⟨Nat.le_refl _, h1⟩
  | succ n ih =>
    have hturn : (net.after schedule n).applied +
        ((net.after schedule n).turn schedule).applies.toNat ≤ 1 := by
      by_cases ha : 0 < (net.after schedule n).applied
      · have honce := (hconf (net.after schedule n).sent).once
        simp only [Net.turn, ha, decide_true, honce, Bool.toNat_false]
        omega
      · have := Bool.toNat_le ((net.after schedule n).turn schedule).applies
        omega
    have hle : ∀ b : Bool, (b && ((net.after schedule n).turn schedule).applies).toNat ≤
        ((net.after schedule n).turn schedule).applies.toNat := by
      intro b
      cases b <;> simp
    have hsend : ∃ b : Bool, (net.after schedule (n + 1)).applied = (net.after schedule n).applied +
        (b && ((net.after schedule n).turn schedule).applies).toNat := by
      rw [Net.after, Net.send]
      cases (schedule (net.after schedule n).sent).delivery with
      | lost => exact ⟨false, rfl⟩
      | unanswered | answered | cutOff => exact ⟨true, rfl⟩
    obtain ⟨b, hb⟩ := hsend
    have := hle b
    omega

/-- A full answer: the marker tells the truth unless the envelope was applied before the call. -/
theorem answered_delivered (hconf : Conforms parse (schedule net.sent).host) (h1 : net.applied ≤ 1)
    {before : Bool} (hb : before.toNat ≤ net.applied)
    (ho : (net.send schedule).1 =
      .ok ⟨(net.turn schedule).status, .ok (net.turn schedule).text⟩) (had : Bool) :
    Delivered parse before (answered parse true had
        ⟨(net.turn schedule).status, .ok (net.turn schedule).text⟩, (net.send schedule).2) ↔
      ¬ (before = true ∧ had = true) := by
  have happlied := (send_ok ho).1
  by_cases ha : 0 < net.applied
  · -- the request was applied before, so this answer is the one for a repeated request
    have hturn : net.turn schedule = (schedule net.sent).host true := by simp [Net.turn, ha]
    have hrej : Rejects parse (net.turn schedule) := hturn ▸ hconf.repeated
    have hone : (net.send schedule).2.applied = 1 := by
      rw [happlied, hturn, hconf.once, Bool.toNat_false]
      omega
    cases had with
    | false =>
      refine ⟨fun _ h => by simp at h, fun _ v hv => ?_⟩
      simp [answered, hrej.1] at hv
    | true =>
      have hv : answered parse true true
          ⟨(net.turn schedule).status, .ok (net.turn schedule).text⟩ =
          .ok reconciledFromReplayResponse := by
        simp [answered, hrej.1, hrej.2]
      refine ⟨fun h hbt => ?_, fun h v hv' => ⟨hone, .inr ⟨?_, ?_⟩⟩⟩
      · rcases (h _ hv).2 with ⟨status, text, hl, hs, -⟩ | ⟨-, hlt⟩
        · rw [received_send, ho] at hl
          cases hl
          rw [hrej.1] at hs
          cases hs
        · rw [hone, hbt.1] at hlt
          simp at hlt
      · rw [hv] at hv'
        exact (Except.ok.inj hv').symm
      · have hbf : before = false := by simpa using h
        simp [hone, hbf]
  · -- nothing was applied, so the answer is that of a first request
    have hzero : net.applied = 0 := by omega
    have hbf : before = false := by
      cases before with
      | false => rfl
      | true =>
        simp only [Bool.toNat_true] at hb
        omega
    have hturn : net.turn schedule = (schedule net.sent).host false := by simp [Net.turn, hzero]
    refine ⟨fun _ h => by simp [hbf] at h, fun _ v hv => ?_⟩
    rcases answered_complete hv with ⟨hs, rfl⟩ | ⟨hs, -, -, hr, -⟩
    · refine ⟨?_, .inl (complete_of_answered ho hs)⟩
      rw [happlied, hzero, hturn, hconf.success (hturn ▸ hs), Bool.toNat_true]
    · exact absurd ⟨hturn ▸ hs, hturn ▸ hr⟩ hconf.fresh

/-- In the state `net`, the next attempt lets an `Ok` tell what it should: it is not a success whose
body breaks off, nor a full answer to a repeated envelope that an earlier call delivered. -/
def Net.Good (schedule : Nat → Attempt) (before : Bool) (net : Net) (n : Nat) : Prop :=
  ¬ net.SuccessCutOff schedule ∧
    ¬ (before = true ∧ 0 < n ∧ (schedule net.sent).delivery = .answered)

/-- **Delivery of a request.** The `Ok` of a signed write tells that its envelope is applied once,
exactly when the first answer is `Good`; and for any host an `Ok` comes from a complete body,
exactly when the first answer is not a success whose body breaks off. -/
theorem delivered_iff {schedule : Nat → Attempt}
    (hconf : ∀ n, Conforms parse (schedule n).host) (before : Bool) (wasm : Bool)
    (request : Request) :
    (Delivered parse before ((pubkeyRequest parse wasm request true).exec (Net.handler schedule)
        { applied := before.toNat }) ↔
      FirstAnswer wasm schedule { applied := before.toNat } (Net.Good schedule before)) ∧
    ∀ (schedule' : Nat → Attempt) (applied : Nat),
      CompleteOnly parse ((pubkeyRequest parse wasm request false).exec (Net.handler schedule')
        { applied := applied }) ↔
      FirstAnswer wasm schedule' { applied := applied }
        fun net _ => ¬ net.SuccessCutOff schedule' := by
  refine ⟨?_, fun schedule' applied => completeOnly_iff rfl⟩
  refine exec_pubkeyRequest rfl (fun e s v hv => by cases hv) ?_ ?_
  · intro n response ho
    obtain ⟨hb, h1⟩ := applied_after { applied := before.toNat } hconf (Bool.toNat_le before) n
    rcases (send_ok ho).2 with ⟨hd, rfl⟩ | ⟨err, hd, rfl⟩
    · rw [Net.after, answered_delivered (hconf _) h1 hb ho]
      simp [Net.Good, Net.SuccessCutOff, hd]
    · have hnd : (schedule (Net.after schedule { applied := before.toNat } n).sent).delivery ≠
          .answered := by simp [hd]
      refine ⟨fun h => ⟨fun hc => ?_, fun hans => hnd hans.2.2⟩, fun h v hv => ?_⟩
      · have hv : answered parse true (decide (0 < n))
            ⟨((Net.after schedule { applied := before.toNat } n).turn schedule).status,
              .error err⟩ = .ok (parseBody parse "") := by
          simp only [answered, hc.2, ↓reduceIte]
        rcases (h _ hv).2 with hcomplete | ⟨hm, -⟩
        · exact not_complete_of_cutOff ho hcomplete
        · simp [parseBody, reconciledFromReplayResponse] at hm
      · exact absurd ⟨⟨err, hd⟩, (answered_cutOff hv).1⟩ h.1
  · intro n err he
    exact ⟨(send_error he).2, fun h => (send_error he).1 h.2.2⟩

end

/-! ## Two schedules -/

def nonceReplayed : String := "\x7b\"code\":\"nonce_replayed\"\x7d"

/-- The values of the two bodies below. -/
def parseBodies (text : String) : Option Json :=
  if text = nonceReplayed then some (.obj [("code", .str "nonce_replayed")])
  else if text = "true" then some (.bool true)
  else none

/-- Applies a fresh envelope and answers `true`. -/
def applyingHost : Bool → HostTurn
  | false => ⟨200, "true", true⟩
  | true => ⟨409, nonceReplayed, false⟩

theorem applyingHost_conforms : Conforms parseBodies applyingHost where
  success := fun _ => rfl
  fresh := fun h => by simp [Rejects, applyingHost, isSuccess] at h
  once := rfl
  repeated := by
    have hn : nonceReplayed.toList.all isWhitespace = false := by decide
    simp [Rejects, applyingHost, isSuccess, parseBody, hn, parseBodies, PubkeyError.fromResponse,
      Json.stringField?, Json.asString, PubkeyError.isReplayRejection, isPubkeyReplayRejection]

def timedOut : TransportError := { text := "timeout", lowerText := "timeout", isTimeout := true }

/-- The answer to the first attempt is lost, and the others arrive. -/
def lostAnswer : Nat → Attempt
  | 0 => ⟨.unanswered timedOut, applyingHost⟩
  | _ => ⟨.answered, applyingHost⟩

/-- Every body breaks off. -/
def brokenBody : Nat → Attempt := fun _ => ⟨.cutOff timedOut, applyingHost⟩

def signedWrite : Request := ⟨"POST", "https://pubkey/v1/mutate", some .null⟩

/-- The lost answer is reconciled with the replay rejection. -/
theorem delivered_iff_lostAnswer :
    Delivered parseBodies false ((pubkeyRequest parseBodies false signedWrite true).exec
      (Net.handler lostAnswer) { applied := 0 }) := by
  have hconf : ∀ n, Conforms parseBodies (lostAnswer n).host := by
    intro n
    cases n <;> exact applyingHost_conforms
  refine (delivered_iff hconf false false signedWrite).1.2 fun n _ _ _ => ⟨fun hc => ?_, by simp⟩
  obtain ⟨err, he⟩ := hc.1
  generalize (Net.after lostAnswer { applied := false.toNat } n).sent = m at he
  cases m <;> simp [lostAnswer] at he

/-- A success whose body breaks off is returned as `null`. -/
theorem brokenBody_returned :
    (∀ n, Conforms parseBodies (brokenBody n).host) ∧
      ¬ Delivered parseBodies false ((pubkeyRequest parseBodies false signedWrite true).exec
        (Net.handler brokenBody) { applied := 0 }) := by
  refine ⟨fun _ => applyingHost_conforms, fun h => ?_⟩
  have hv : ((pubkeyRequest parseBodies false signedWrite true).exec (Net.handler brokenBody)
      { applied := 0 }).1 = .ok .null := rfl
  rcases (h _ hv).2 with ⟨status, text, hl, -, -⟩ | ⟨hm, -⟩
  · cases hl
  · cases hm

end Discovery
