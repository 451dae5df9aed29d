import Mathlib.Data.List.Basic

/-!
# Futures

The futures of an event loop, each named by its place in the list of all (`Loop`). `thenDo` makes
one that waits for another; `callback` runs what it waits with once that one is settled. A callback
returns at once or calls an async function, whose run is then the future's until `finish` settles
it. Callbacks run in any order, of which a loop that runs them as they become ready takes one.

`serial` is the queue that comes of chaining: each function waits for the future before it, and
behind each is a future that settles whatever becomes of it. At most one function of it runs
(`serial_running`), they begin in the order of the queue (`serial_callback`), and there is always
one that can go on (`serial_ready`).
-/

namespace Lib.Futures

/-- What a callback does. An async function runs from the state `r`. -/
inductive Callback (ρ : Type) where
  | nothing
  | body (r : ρ)
deriving DecidableEq

inductive Future (ρ : Type) where
  | settled (ok : Bool)
  /-- Without an `onError` an error passes through. -/
  | waits (source : Nat) (onValue : Callback ρ) (onError : Option (Callback ρ))
  /-- It settles as the function does that its callback has called. -/
  | runs (r : ρ)
deriving DecidableEq

abbrev Loop (ρ : Type) := List (Future ρ)

variable {ρ : Type}

/-- The future when its callback has been called. -/
def Callback.called : Callback ρ → Future ρ
  | .nothing => .settled true
  | .body r => .runs r

/-- The future when the one that it waits for is settled. -/
def answer (ok : Bool) (onValue : Callback ρ) (onError : Option (Callback ρ)) : Future ρ :=
  if ok then onValue.called
  else
    match onError with
    | some c => c.called
    | none => .settled false

def Future.run? : Future ρ → Option ρ
  | .runs r => some r
  | _ => none

namespace Loop

/-- `source.then(onValue, onError)`; its name is the length of the list. -/
def thenDo (s : Loop ρ) (source : Nat) (onValue : Callback ρ)
    (onError : Option (Callback ρ)) : Loop ρ :=
  s ++ [.waits source onValue onError]

/-- The callback of `t`, when what it waits for is settled. -/
def callback (s : Loop ρ) (t : Nat) : Option (Loop ρ) :=
  match s[t]? with
  | some (.waits source onValue onError) =>
    match s[source]? with
    | some (.settled ok) => some (s.set t (answer ok onValue onError))
    | _ => none
  | _ => none

/-- The function that runs for `t`. -/
def running (s : Loop ρ) (t : Nat) : Option ρ := s[t]?.bind Future.run?

def advance (s : Loop ρ) (t : Nat) (r : ρ) : Loop ρ := s.set t (.runs r)

def finish (s : Loop ρ) (t : Nat) (ok : Bool) : Loop ρ := s.set t (.settled ok)

/-- A function that runs. -/
def job (s : Loop ρ) : Option ρ := s.findSome? Future.run?

end Loop

/-! ## Queues -/

/-- What has become of the functions that have ended, each with the future before it, and the last
such future. -/
def past (oks : List Bool) : Loop ρ := (oks.flatMap fun ok => [.settled true, .settled ok]) ++
    [.settled true]

/-- The functions that wait, the first for the future `n`. -/
def queue : (n : Nat) → List ρ → Loop ρ
  | _, [] => []
  | n, r :: rs => .waits n (.body r) none :: .waits (n + 1) .nothing (some .nothing) ::
      queue (n + 2) rs

/-- The function that the queue has come to: none, one that runs, or one that has ended. -/
inductive Phase (ρ : Type) where
  | idle
  | busy (r : ρ)
  | ended (ok : Bool)

def Phase.futures (n : Nat) : Phase ρ → Loop ρ
  | .idle => []
  | .busy r => [.runs r, .waits (n + 1) .nothing (some .nothing)]
  | .ended ok => [.settled ok, .waits (n + 1) .nothing (some .nothing)]

/-- How many functions have begun and are not past. -/
def Phase.count : Phase ρ → Nat
  | .idle => 0
  | _ => 1

def Phase.job : Phase ρ → Option ρ
  | .busy r => some r
  | _ => none

/-- A queue of functions, of which some have ended and some wait. -/
def serial (oks : List Bool) (ph : Phase ρ) (waiting : List ρ) : Loop ρ :=
  past oks ++ (ph.futures (2 * oks.length) ++ queue (2 * (oks.length + ph.count)) waiting)

section
variable {oks : List Bool} {ph : Phase ρ} {waiting : List ρ} {r : ρ} {f : Future ρ} {n t : Nat}

@[simp] theorem length_past : (past oks : Loop ρ).length = 2 * oks.length + 1 := by
  unfold past
  induction oks with
  | nil => rfl
  | cons ok oks ih =>
    simp only [List.flatMap_cons, List.length_cons, List.length_append, List.length_nil] at ih ⊢
    omega

@[simp] theorem length_queue : (queue n waiting).length = 2 * waiting.length := by
  induction waiting generalizing n with
  | nil => rfl
  | cons r rs ih =>
    simp only [queue, List.length_cons, ih]
    omega

@[simp] theorem length_futures : (ph.futures n).length = 2 * ph.count := by
  cases ph <;> rfl

theorem length_serial :
    (serial oks ph waiting).length = 2 * (oks.length + ph.count + waiting.length) + 1 := by
  simp [serial]
  omega

theorem past_append (ok : Bool) : (past (oks ++ [ok]) : Loop ρ) = past oks ++
    [.settled ok, .settled true] := by
  simp [past]

theorem queue_append : queue n (waiting ++ [r]) = queue n waiting ++
    queue (n + 2 * waiting.length) [r] := by
  induction waiting generalizing n with
  | nil => rfl
  | cons w ws ih =>
    have hn : n + 2 * (ws.length + 1) = n + 2 + 2 * ws.length := by omega
    simp only [List.cons_append, queue, ih, List.length_cons, hn]

/-- The functions that are past are settled. -/
theorem past_settled (h : (past oks)[t]? = some f) : ∃ ok, f = .settled ok := by
  have hm := List.mem_of_getElem? h
  simp only [past, List.mem_append, List.mem_cons, List.mem_flatMap, List.not_mem_nil,
      or_false] at hm
  obtain ⟨ok, -, rfl | rfl⟩ | rfl := hm
  · exact ⟨_, rfl⟩
  · exact ⟨_, rfl⟩
  · exact ⟨_, rfl⟩

/-- The last one is settled with a value. -/
theorem past_last : (past oks : Loop ρ)[2 * oks.length]? = some (.settled true) := by
  have hlen : (oks.flatMap fun ok => ([.settled true, .settled ok] : Loop ρ)).length =
      2 * oks.length := by
    have h : (past oks : Loop ρ).length = 2 * oks.length + 1 := length_past
    simp only [past, List.length_append, List.length_cons, List.length_nil] at h
    omega
  unfold past
  rw [List.getElem?_append_right (by omega), hlen, Nat.sub_self]
  rfl

/-- A future of the queue waits for the one before it. -/
theorem queue_waits (h : (queue n waiting)[t]? = some f) :
    ∃ onValue onError, f = .waits (n + t) onValue onError ∧
      (t = 0 → ∃ r rs, waiting = r :: rs ∧ onValue = .body r ∧ onError = none) := by
  induction waiting generalizing n t with
  | nil => cases h
  | cons r rs ih =>
    match t, h with
    | 0, h =>
      cases h
      exact ⟨_, _, rfl, fun _ => ⟨r, rs, rfl, rfl, rfl⟩⟩
    | 1, h =>
      cases h
      exact ⟨_, _, rfl, fun h => by cases h⟩
    | t + 2, h =>
      obtain ⟨onValue, onError, rfl, -⟩ := ih (n := n + 2) (t := t) h
      refine ⟨onValue, onError, ?_, fun h => by cases h⟩
      congr 1
      omega

/-! ### The steps of a queue -/

theorem serial_start : serial [] .idle ([] : List ρ) = [.settled true] := rfl

/-- A function is put behind the queue. -/
theorem serial_thenDo :
    ((serial oks ph waiting).thenDo ((serial oks ph waiting).length - 1) (.body r) none).thenDo
      (serial oks ph waiting).length .nothing (some .nothing) = serial oks ph (waiting ++ [r]) := by
  have hlen : (serial oks ph waiting).length = 2 * (oks.length + ph.count + waiting.length) +
      1 := length_serial
  have hn : 2 * (oks.length + ph.count + waiting.length) = 2 * (oks.length + ph.count) +
      2 * waiting.length := by
    omega
  unfold Loop.thenDo
  rw [hlen, Nat.add_sub_cancel, hn]
  unfold serial
  rw [queue_append]
  simp only [queue, List.append_assoc, List.cons_append, List.nil_append]

theorem serial_job : (serial oks ph waiting).job = ph.job := by
  have hpast : (past oks : Loop ρ).findSome? Future.run? = none := by
    rw [List.findSome?_eq_none_iff]
    intro f hm
    obtain ⟨i, hi⟩ := List.mem_iff_getElem?.1 hm
    obtain ⟨ok, rfl⟩ := past_settled hi
    rfl
  have hqueue : (queue (2 * (oks.length + ph.count)) waiting).findSome? Future.run? = none := by
    rw [List.findSome?_eq_none_iff]
    intro f hm
    obtain ⟨i, hi⟩ := List.mem_iff_getElem?.1 hm
    obtain ⟨onValue, onError, rfl, -⟩ := queue_waits hi
    rfl
  unfold Loop.job serial
  rw [List.findSome?_append, List.findSome?_append, hpast, hqueue]
  cases ph <;> rfl

/-- Where the futures of a queue are. -/
theorem serial_get (h : (serial oks ph waiting)[t]? = some f) :
    (t ≤ 2 * oks.length ∧ (past oks)[t]? = some f) ∨
    (∃ j, t = 2 * oks.length + 1 + j ∧ j < 2 * ph.count ∧
    (ph.futures (2 * oks.length))[j]? = some f) ∨
    ∃ j, t = 2 * (oks.length + ph.count) + 1 + j ∧
        (queue (2 * (oks.length + ph.count)) waiting)[j]? = some f := by
  unfold serial at h
  by_cases hp : t < 2 * oks.length + 1
  · rw [List.getElem?_append_left (by simpa using hp)] at h
    exact .inl ⟨by omega, h⟩
  · rw [List.getElem?_append_right (by simpa using Nat.le_of_not_lt hp), length_past] at h
    by_cases hf : t - (2 * oks.length + 1) < 2 * ph.count
    · rw [List.getElem?_append_left (by simpa using hf)] at h
      exact .inr (.inl ⟨_, by omega, hf, h⟩)
    · rw [List.getElem?_append_right (by simpa using Nat.le_of_not_lt hf), length_futures] at h
      exact .inr (.inr ⟨_, by omega, h⟩)

/-- The futures behind those that are past. -/
theorem serial_get_rest (j : Nat) : (serial oks ph waiting)[2 * oks.length + 1 + j]? =
    (ph.futures (2 * oks.length) ++ queue (2 * (oks.length + ph.count)) waiting)[j]? := by
  unfold serial
  rw [List.getElem?_append_right (by simp), length_past, Nat.add_sub_cancel_left]

/-- **At most one function runs**, the one that the queue has come to. -/
theorem serial_running (h : (serial oks ph waiting).running t = some r) :
    ph = .busy r ∧ t = 2 * oks.length + 1 := by
  obtain ⟨f, hf, hr⟩ := Option.bind_eq_some_iff.1 h
  obtain ⟨-, hp⟩ | ⟨j, rfl, hj, hp⟩ | ⟨j, -, hp⟩ := serial_get hf
  · obtain ⟨ok, rfl⟩ := past_settled hp
    cases hr
  · cases ph with
    | idle => cases hj
    | busy r' =>
      match j, hj with
      | 0, _ =>
        cases hp
        cases hr
        exact ⟨rfl, rfl⟩
      | 1, _ =>
        cases hp
        cases hr
    | ended ok =>
      match j, hj with
      | 0, _ | 1, _ =>
        cases hp
        cases hr
  · obtain ⟨onValue, onError, rfl, -⟩ := queue_waits hp
    cases hr

/-- The first future that is not past. -/
theorem serial_set (f : Future ρ) (rest : Loop ρ) :
    (past oks ++ rest).set (2 * oks.length + 1) f = past oks ++ rest.set 0 f := by
  rw [List.set_append_right _ _ (by simp), length_past, Nat.sub_self]

/-- The future of the one that runs. -/
theorem serial_set_busy (f : Future ρ) : (serial oks (.busy r) waiting).set (2 * oks.length + 1) f =
    past oks ++ (f :: .waits (2 * oks.length + 1) .nothing (some .nothing) ::
      queue (2 * (oks.length + 1)) waiting) := by
  unfold serial
  rw [serial_set]
  rfl

theorem serial_advance (r' : ρ) : (serial oks (.busy r) waiting).advance (2 * oks.length + 1) r' =
    serial oks (.busy r') waiting := serial_set_busy _

theorem serial_finish (ok : Bool) : (serial oks (.busy r) waiting).finish (2 * oks.length + 1) ok =
    serial oks (.ended ok) waiting := serial_set_busy _

theorem serial_begin {rs : List ρ} :
    (serial oks .idle (r :: rs)).set (2 * oks.length + 1) (.runs r) = serial oks (.busy r) rs := by
  unfold serial
  rw [serial_set]
  rfl

theorem serial_release (ok : Bool) :
    (serial oks (.ended ok) waiting).set (2 * oks.length + 2) (.settled true) =
      serial (oks ++ [ok]) .idle waiting := by
  have hlen : 2 * oks.length + 2 - (2 * oks.length + 1) = 1 := by omega
  unfold serial
  rw [List.set_append_right _ _ (by simp), length_past, hlen, past_append, List.append_assoc]
  simp [Phase.futures, Phase.count]

/-- **A callback begins the function in front**, when none has begun that is not past, or releases
the queue. -/
theorem serial_callback {s' : Loop ρ} (h : (serial oks ph waiting).callback t = some s') :
    (∃ r rs, ph = .idle ∧ waiting = r :: rs ∧ t = 2 * oks.length + 1 ∧
    s' = serial oks (.busy r) rs) ∨
      ∃ ok, ph = .ended ok ∧ t = 2 * oks.length + 2 ∧ s' = serial (oks ++ [ok]) .idle waiting := by
  unfold Loop.callback at h
  split at h
  · rename_i source onValue onError ht
    split at h
    · rename_i ok hsource
      cases h
      obtain ⟨-, hp⟩ | ⟨j, rfl, hj, hp⟩ | ⟨j, rfl, hp⟩ := serial_get ht
      · obtain ⟨ok', he⟩ := past_settled hp
        cases he
      · -- the future behind the function that has ended
        cases ph with
        | idle => cases hj
        | busy r =>
          match j, hj with
          | 0, _ => cases hp
          | 1, _ =>
            cases hp
            have hrun : (serial oks (.busy r) waiting)[2 * oks.length + 1]? = some (.runs r) :=
              serial_get_rest 0
            rw [hrun] at hsource
            cases hsource
        | ended ok' =>
          match j, hj with
          | 0, _ => cases hp
          | 1, _ =>
            cases hp
            have hans : answer ok .nothing (some .nothing) = (.settled true : Future ρ) := by
              cases ok <;> rfl
            rw [hans]
            exact .inr ⟨ok', rfl, rfl, serial_release ok'⟩
      · -- a function of the queue, and the future that it waits for
        obtain ⟨onValue', onError', he, hfront⟩ := queue_waits hp
        cases he
        obtain ⟨hle, hp'⟩ | ⟨j', hj', hlt, hp'⟩ | ⟨j', hj', hp'⟩ := serial_get hsource
        · have hcount : ph.count = 0 ∧ j = 0 := by omega
          obtain ⟨hcount, rfl⟩ := hcount
          cases ph with
          | idle =>
            -- the first in the queue begins
            obtain ⟨r, rs, rfl, rfl, rfl⟩ := hfront rfl
            have hlast : (past oks :
                Loop ρ)[2 * (oks.length + Phase.count (.idle : Phase ρ)) + 0]? =
                some (.settled true) := past_last
            rw [hlast] at hp'
            cases hp'
            exact .inl ⟨r, rs, rfl, rfl, rfl, serial_begin⟩
          | busy r | ended ok' => cases hcount
        · cases ph with
          | idle => cases hlt
          | busy r | ended ok' =>
            -- a function that runs is not settled
            have hone : j' = 1 := by
              simp only [Phase.count] at hj' hlt
              omega
            subst hone
            cases hp'
        · obtain ⟨onValue', onError', he, -⟩ := queue_waits hp'
          cases he
    · cases h
  · cases h

/-- **The queue goes on** while a function waits: one runs, or there is a callback to be called. -/
theorem serial_ready (hj : (serial oks ph waiting).job = none)
    (hc : ∀ t, (serial oks ph waiting).callback t = none) : ph = .idle ∧ waiting = [] := by
  rw [serial_job] at hj
  cases ph with
  | busy r => cases hj
  | idle =>
    cases waiting with
    | nil => exact ⟨rfl, rfl⟩
    | cons r rs =>
      have hlast : (serial oks .idle (r :: rs))[2 * oks.length]? = some (.settled true) := by
        unfold serial
        rw [List.getElem?_append_left (by simp)]
        exact past_last
      have hfront : (serial oks .idle (r :: rs))[2 * oks.length + 1]? =
          some (.waits (2 * oks.length) (.body r) none) := serial_get_rest 0
      have hn := hc (2 * oks.length + 1)
      unfold Loop.callback at hn
      rw [hfront] at hn
      dsimp only at hn
      rw [hlast] at hn
      cases hn
  | ended ok =>
    have hended : (serial oks (.ended ok) waiting)[2 * oks.length + 1]? = some (.settled ok) :=
      serial_get_rest 0
    have hbehind : (serial oks (.ended ok) waiting)[2 * oks.length + 2]? =
        some (.waits (2 * oks.length + 1) .nothing (some .nothing)) := serial_get_rest 1
    have hn := hc (2 * oks.length + 2)
    unfold Loop.callback at hn
    rw [hbehind] at hn
    dsimp only at hn
    rw [hended] at hn
    cases hn

end

end Lib.Futures
