import Mathlib.Logic.Relation

/-!
# Programs that make calls

A `Prog I ε α` runs until it needs its environment: it then makes one of the calls of the interface
`I` and goes on with the answer. It ends with a value (`ret`) or an error (`raise`). Code that
awaits storage or network requests is such a program, one call for each await, so its runs can be
interleaved, cut short or answered by an adversary without changing the code.

* `Runs T p s r s'`: from the state `s` the program `p` ends with `r` in `s'`, every call being
  answered as the transition relation `T` allows.
* `Progress T p s tr q s'`: a run cut short: after the calls and answers `tr`, `p` has come to `q`.
* `Env.run`: the executable form, the environment's decisions given as a list (`Env.run_sound`).
* `Prog.exec`: the run against an environment that answers every call in one way.
* `Session`: operations done one after another, and what all of them preserve (`Session.inv_run`).
* `runAll`: functions on a state done one after another, and the refinement of such runs
  (`runAll_refines`).
* `Safe T R G Q p s`: whatever the answers, every call of `p` is a step in `G` and the end is in
  `Q`, although other parties may change the state by steps in `R` before each call and at the end.
  The rules `safe_bind`, `Safe.mono`, `Safe.imp` compose it, `Safe.adapt` takes it to another
  setting; `Safe.runs` is what it says about `Runs`, and `Safe.progress` about runs cut short.
-/

namespace Lib

/-- The parts of a computation that succeeds. -/
theorem ok_of_bind {ε α β : Type} {x : Except ε α} {f : α → Except ε β} {b : β}
    (h : x >>= f = .ok b) : ∃ a, x = .ok a ∧ f a = .ok b := by
  cases x with
  | ok a => exact ⟨a, rfl, h⟩
  | error e => cases h

theorem ok_bind {ε α β : Type} (a : α) (f : α → Except ε β) : (Except.ok a >>= f) = f a := rfl

theorem ok_of_mapError {ε ε' α : Type} {x : Except ε α} {f : ε → ε'} {a : α}
    (h : x.mapError f = .ok a) : x = .ok a := by
  cases x with
  | ok b =>
    cases h
    rfl
  | error e => cases h

/-- The calls a program can make, and the type of each call's answer. -/
structure Iface where
  Call : Type
  Ans : Call → Type

inductive Prog (I : Iface) (ε α : Type) : Type
  | ret (a : α)
  | raise (e : ε)
  | call (c : I.Call) (k : I.Ans c → Prog I ε α)

namespace Prog

variable {I : Iface} {ε α β : Type}

protected def bind : Prog I ε α → (α → Prog I ε β) → Prog I ε β
  | ret a, f => f a
  | raise e, _ => raise e
  | call c k, f => call c fun x => (k x).bind f

instance : Monad (Prog I ε) where
  pure := ret
  bind := Prog.bind

/-- A value that is already there, or its error. -/
def ofExcept : Except ε α → Prog I ε α
  | .ok a => ret a
  | .error e => raise e

/-- `p`, with the errors that `h` handles handled. -/
def handle (p : Prog I ε α) (h : ε → Prog I ε α) : Prog I ε α :=
  match p with
  | ret a => ret a
  | raise e => h e
  | call c k => call c fun x => (k x).handle h

/-- The outcome of `p` as a value. -/
def attempt : Prog I ε α → Prog I ε (Except ε α)
  | ret a => ret (.ok a)
  | raise e => ret (.error e)
  | call c k => call c fun x => (k x).attempt

/-- `p`, with its errors as `f` has them. -/
def mapError {ε' : Type} (f : ε → ε') : Prog I ε α → Prog I ε' α
  | ret a => ret a
  | raise e => raise (f e)
  | call c k => call c fun x => (k x).mapError f

/-- Every call of `p` is in `P`, whatever it is answered. -/
def Within (P : I.Call → Prop) : Prog I ε α → Prop
  | ret _ => True
  | raise _ => True
  | call c k => P c ∧ ∀ a, (k a).Within P

@[simp] theorem pure_eq (a : α) : (pure a : Prog I ε α) = ret a := rfl
@[simp] theorem ret_bind (a : α) (f : α → Prog I ε β) : (ret a >>= f) = f a := rfl
@[simp] theorem raise_bind (e : ε) (f : α → Prog I ε β) : (raise e >>= f) = raise e := rfl
@[simp] theorem call_bind (c : I.Call) (k : I.Ans c → Prog I ε α) (f : α → Prog I ε β) :
    (call c k >>= f) = call c fun x => k x >>= f := rfl

theorem bind_ret (p : Prog I ε α) : p >>= ret = p := by
  induction p with
  | ret a => rfl
  | raise e => rfl
  | call c k ih => exact congrArg (call c) (funext ih)

theorem bind_assoc {ζ : Type} (p : Prog I ε α) (f : α → Prog I ε β) (h : β → Prog I ε ζ) :
    p >>= f >>= h = p >>= fun a => f a >>= h := by
  induction p with
  | ret a => rfl
  | raise e => rfl
  | call c k ih => exact congrArg (call c) (funext ih)

theorem within_bind {P : I.Call → Prop} {p : Prog I ε α} {f : α → Prog I ε β} (h : p.Within P)
    (hf : ∀ a, (f a).Within P) : (p >>= f).Within P := by
  induction p with
  | ret a => exact hf a
  | raise e => exact h
  | call c k ih => exact ⟨h.1, fun a => ih a (h.2 a)⟩

theorem within_ofExcept (P : I.Call → Prop) (x : Except ε α) :
    (ofExcept x : Prog I ε α).Within P := by
  cases x <;> exact trivial

theorem within_attempt {P : I.Call → Prop} {p : Prog I ε α} (h : p.Within P) :
    p.attempt.Within P := by
  induction p with
  | ret a => exact trivial
  | raise e => exact trivial
  | call c k ih => exact ⟨h.1, fun a => ih a (h.2 a)⟩

theorem within_true (p : Prog I ε α) : p.Within fun _ => True := by
  induction p with
  | ret a => exact trivial
  | raise e => exact trivial
  | call c k ih => exact ⟨trivial, ih⟩

@[simp] theorem ofExcept_ok (a : α) : (ofExcept (.ok a) : Prog I ε α) = ret a := rfl
@[simp] theorem ofExcept_error (e : ε) : (ofExcept (.error e) : Prog I ε α) = raise e := rfl

end Prog

/-- The outcome and the last state, each call being answered by `h`. -/
def Prog.exec {I : Iface} {ε α σ : Type} (h : (c : I.Call) → σ → I.Ans c × σ) :
    Prog I ε α → σ → Except ε α × σ
  | .ret a, s => (.ok a, s)
  | .raise e, s => (.error e, s)
  | .call c k, s => (k (h c s).1).exec h (h c s).2

@[simp] theorem Prog.exec_ofExcept {I : Iface} {ε α σ : Type} (h : (c : I.Call) → σ → I.Ans c × σ)
    (x : Except ε α) (s : σ) : (Prog.ofExcept x : Prog I ε α).exec h s = (x, s) := by
  cases x <;> rfl

theorem Prog.exec_bind {I : Iface} {ε α β σ : Type} (h : (c : I.Call) → σ → I.Ans c × σ)
    (p : Prog I ε α) (f : α → Prog I ε β) (s : σ) :
    (p >>= f).exec h s = match p.exec h s with
      | (.ok a, s') => (f a).exec h s'
      | (.error e, s') => (.error e, s') := by
  induction p generalizing s with
  | ret a => rfl
  | raise e => rfl
  | call c k ih => exact ih _ _

theorem Prog.exec_attempt {I : Iface} {ε α σ : Type} (h : (c : I.Call) → σ → I.Ans c × σ)
    (p : Prog I ε α) (s : σ) : p.attempt.exec h s = (.ok (p.exec h s).1, (p.exec h s).2) := by
  induction p generalizing s with
  | ret a => rfl
  | raise e => rfl
  | call c k ih => exact ih _ _

/-! ## Runs -/

section
variable {I : Iface} {ε α β σ : Type}

/-- `p` runs from `s` to its end in `s'` with outcome `r`, its calls answered as `T` allows. -/
inductive Runs (T : (c : I.Call) → σ → I.Ans c → σ → Prop) :
    Prog I ε α → σ → Except ε α → σ → Prop
  | ret {a : α} {s : σ} : Runs T (.ret a) s (.ok a) s
  | raise {e : ε} {s : σ} : Runs T (.raise e) s (.error e) s
  | call {c : I.Call} {k : I.Ans c → Prog I ε α} {s s' s'' : σ} {a : I.Ans c} {r : Except ε α} :
      T c s a s' → Runs T (k a) s' r s'' → Runs T (.call c k) s r s''

/-- A program whose calls can all be answered has a run. -/
theorem Runs.exists_of_within {T : (c : I.Call) → σ → I.Ans c → σ → Prop} {P : I.Call → Prop}
    (hT : ∀ c, P c → ∀ s, ∃ a s', T c s a s') {p : Prog I ε α} (hp : p.Within P) (s : σ) :
    ∃ r s', Runs T p s r s' := by
  induction p generalizing s with
  | ret a => exact ⟨_, _, .ret⟩
  | raise e => exact ⟨_, _, .raise⟩
  | call c k ih =>
    obtain ⟨a, s', ht⟩ := hT c hp.1 s
    obtain ⟨r, s'', hr⟩ := ih a (hp.2 a) s'
    exact ⟨r, s'', .call ht hr⟩

theorem Runs.exists {T : (c : I.Call) → σ → I.Ans c → σ → Prop} (hT : ∀ c s, ∃ a s', T c s a s')
    (p : Prog I ε α) (s : σ) : ∃ r s', Runs T p s r s' :=
  Runs.exists_of_within (P := fun _ => True) (fun c _ => hT c) p.within_true s

/-! ## Runs cut short -/

/-- A call with the answer it got. -/
structure Event (I : Iface) where
  call : I.Call
  ans : I.Ans call

/-- From `s`, the program `p` has made the calls `tr`: `q` is left to run, from `s'`. -/
inductive Progress (T : (c : I.Call) → σ → I.Ans c → σ → Prop) :
    Prog I ε α → σ → List (Event I) → Prog I ε α → σ → Prop
  | refl {p : Prog I ε α} {s : σ} : Progress T p s [] p s
  | call {c : I.Call} {k : I.Ans c → Prog I ε α} {q : Prog I ε α} {s s' s'' : σ} {a : I.Ans c}
      {tr : List (Event I)} :
      T c s a s' → Progress T (k a) s' tr q s'' → Progress T (.call c k) s (⟨c, a⟩ :: tr) q s''

/-- A run is the progress that leaves an outcome. -/
theorem Runs.progress {T : (c : I.Call) → σ → I.Ans c → σ → Prop} {p : Prog I ε α} {s s' : σ}
    {r : Except ε α} (h : Runs T p s r s') : ∃ tr, Progress T p s tr (.ofExcept r) s' := by
  induction h with
  | ret => exact ⟨[], .refl⟩
  | raise => exact ⟨[], .refl⟩
  | call ht _ ih =>
    obtain ⟨tr, h⟩ := ih
    exact ⟨_, .call ht h⟩

/-- The first part of a sequence has run to its value: the second part is left. -/
theorem Runs.progress_bind {T : (c : I.Call) → σ → I.Ans c → σ → Prop} {p : Prog I ε α}
    {f : α → Prog I ε β} {a : α} {s s' : σ} (h : Runs T p s (.ok a) s') :
    ∃ tr, Progress T (p >>= f) s tr (f a) s' := by
  generalize hr : Except.ok a = r at h
  induction h with
  | ret =>
    cases hr
    exact ⟨[], .refl⟩
  | raise => cases hr
  | call ht _ ih =>
    obtain ⟨tr, h⟩ := ih hr
    exact ⟨_, .call ht h⟩

namespace Progress

variable {T : (c : I.Call) → σ → I.Ans c → σ → Prop} {tr : List (Event I)} {s s' : σ}

theorem trans {p q q' : Prog I ε α} {s'' : σ} {tr' : List (Event I)} (h : Progress T p s tr q s')
    (h' : Progress T q s' tr' q' s'') : Progress T p s (tr ++ tr') q' s'' := by
  induction h with
  | refl => exact h'
  | call ht _ ih => exact .call ht (ih h')

/-- A cut of a sequence lies in its first part, or the first part has ended. -/
theorem of_bind {p : Prog I ε α} {f : α → Prog I ε β} {q : Prog I ε β}
    (h : Progress T (p >>= f) s tr q s') :
    (∃ p', Progress T p s tr p' s' ∧ q = p' >>= f) ∨
      ∃ a tr₁ tr₂ s₁, tr = tr₁ ++ tr₂ ∧ Progress T p s tr₁ (.ret a) s₁ ∧
        Progress T (f a) s₁ tr₂ q s' := by
  induction p generalizing s tr with
  | ret a => exact .inr ⟨a, [], tr, s, rfl, .refl, h⟩
  | raise e =>
    cases h
    exact .inl ⟨.raise e, .refl, rfl⟩
  | call c k ih =>
    rw [Prog.call_bind] at h
    cases h with
    | refl => exact .inl ⟨.call c k, .refl, rfl⟩
    | call ht h =>
      rcases ih _ h with ⟨p', hp, hq⟩ | ⟨a, tr₁, tr₂, s₁, htr, hp, hf⟩
      · exact .inl ⟨p', .call ht hp, hq⟩
      · subst htr
        exact .inr ⟨a, _, tr₂, s₁, rfl, .call ht hp, hf⟩

theorem ofExcept_inj {x y : Except ε α}
    (h : (Prog.ofExcept x : Prog I ε α) = .ofExcept y) : x = y := by
  cases x <;> cases y <;> cases h <;> rfl

/-- Nothing is left to do of a program that has its value. -/
theorem of_ret {a : α} {r : Except ε α} (h : Progress T (.ret a) s tr (.ofExcept r) s') :
    r = .ok a ∧ s' = s := by
  generalize hq : Prog.ofExcept r = q at h
  cases h
  have hx : Prog.ofExcept r = .ofExcept (.ok a) := hq
  exact ⟨ofExcept_inj hx, rfl⟩

theorem of_raise {e : ε} {r : Except ε α} (h : Progress T (.raise e) s tr (.ofExcept r) s') :
    r = .error e ∧ s' = s := by
  generalize hq : Prog.ofExcept r = q at h
  cases h
  have hx : Prog.ofExcept r = .ofExcept (.error e) := hq
  exact ⟨ofExcept_inj hx, rfl⟩

/-- A call that has an outcome has got an answer. -/
theorem of_call {c : I.Call} {k : I.Ans c → Prog I ε α} {r : Except ε α}
    (h : Progress T (.call c k) s tr (.ofExcept r) s') :
    ∃ a s₁ tr', tr = ⟨c, a⟩ :: tr' ∧ T c s a s₁ ∧ Progress T (k a) s₁ tr' (.ofExcept r) s' := by
  generalize hq : Prog.ofExcept r = q at h
  cases h with
  | refl => cases r <;> cases hq
  | call ht h => exact ⟨_, _, _, rfl, ht, hq ▸ h⟩

/-- A sequence that has an outcome: the error of its first part, or what the second part makes of
its value. -/
theorem of_bind_ofExcept {p : Prog I ε α} {f : α → Prog I ε β} {r : Except ε β}
    (h : Progress T (p >>= f) s tr (.ofExcept r) s') :
    (∃ e, Progress T p s tr (.raise e) s' ∧ r = .error e) ∨
      ∃ a tr₁ tr₂ s₁, tr = tr₁ ++ tr₂ ∧ Progress T p s tr₁ (.ret a) s₁ ∧
        Progress T (f a) s₁ tr₂ (.ofExcept r) s' := by
  rcases of_bind h with ⟨p', hp, hq⟩ | h
  · cases p' with
    | ret a => exact .inr ⟨a, tr, [], s', (List.append_nil tr).symm, hp, hq ▸ .refl⟩
    | raise e => exact .inl ⟨e, hp, ofExcept_inj hq⟩
    | call c k => cases r <;> cases hq
  · exact .inr h

theorem runs {p : Prog I ε α} {r : Except ε α} (h : Progress T p s tr (.ofExcept r) s') :
    Runs T p s r s' := by
  generalize hq : Prog.ofExcept r = q at h
  induction h with
  | refl =>
    subst hq
    cases r with
    | ok a => exact .ret
    | error e => exact .raise
  | call ht _ ih => exact .call ht (ih hq)

/-- An attempt does not end with an error. -/
theorem attempt_ne_raise {p : Prog I ε α} {e : ε} : ¬ Progress T p.attempt s tr (.raise e) s' := by
  intro h
  induction p generalizing s tr with
  | ret a => cases h
  | raise e' => cases h
  | call c k ih =>
    cases h with
    | call ht h => exact ih _ h

/-- The calls of a program are those it may make. -/
theorem within {P : I.Call → Prop} {p q : Prog I ε α} (hp : p.Within P)
    (h : Progress T p s tr q s') :
    ∀ e ∈ tr, P e.call := by
  induction h with
  | refl =>
    intro e he
    cases he
  | call ht _ ih =>
    intro e he
    rcases List.mem_cons.1 he with rfl | he
    · exact hp.1
    · exact ih (hp.2 _) e he

/-- Calls that change nothing. -/
theorem same_of_within {P : I.Call → Prop} (hT : ∀ {c s a s'}, P c → T c s a s' → s' = s)
    {p q : Prog I ε α} (hp : p.Within P) (h : Progress T p s tr q s') : s' = s := by
  induction h with
  | refl => rfl
  | call ht _ ih => rw [ih (hp.2 _), hT hp.1 ht]

end Progress

/-- An environment that decides what happens at a call: its answer and the next state. `none`: this
is no decision about this call. -/
structure Env (I : Iface) (σ : Type) where
  Ev : Type
  step : (c : I.Call) → Ev → σ → Option (I.Ans c × σ)

namespace Env

/-- The transitions of the environment that `ok` admits. -/
def Allowed (E : Env I σ) (ok : (c : I.Call) → σ → I.Ans c → σ → Prop) (c : I.Call) (s : σ)
    (a : I.Ans c) (s' : σ) : Prop :=
  (∃ ev, E.step c ev s = some (a, s')) ∧ ok c s a s'

/-- The run of `p` under the decisions `evs`; `none` unless they are one for each call. -/
def run (E : Env I σ) : List E.Ev → Prog I ε α → σ → Option (Except ε α × σ)
  | [], .ret a, s => some (.ok a, s)
  | [], .raise e, s => some (.error e, s)
  | ev :: evs, .call c k, s =>
    match E.step c ev s with
    | some (a, s') => run E evs (k a) s'
    | none => none
  | _, _, _ => none

/-- Every call of the run is answered as `ok` admits. -/
def RunOk (E : Env I σ) (ok : (c : I.Call) → σ → I.Ans c → σ → Prop) :
    List E.Ev → Prog I ε α → σ → Prop
  | ev :: evs, .call c k, s =>
    match E.step c ev s with
    | some (a, s') => ok c s a s' ∧ RunOk E ok evs (k a) s'
    | none => True
  | _, _, _ => True

instance RunOk.decidable (E : Env I σ) (ok : (c : I.Call) → σ → I.Ans c → σ → Prop)
    [∀ c s a s', Decidable (ok c s a s')] :
    (evs : List E.Ev) → (p : Prog I ε α) → (s : σ) → Decidable (RunOk E ok evs p s)
  | [], _, _ => .isTrue (by simp [RunOk])
  | _ :: _, .ret _, _ => .isTrue (by simp [RunOk])
  | _ :: _, .raise _, _ => .isTrue (by simp [RunOk])
  | ev :: evs, .call c k, s =>
    match h : E.step c ev s with
    | some (a, s') =>
      have := RunOk.decidable E ok evs (k a) s'
      decidable_of_iff (ok c s a s' ∧ RunOk E ok evs (k a) s') (by simp [RunOk, h])
    | none => .isTrue (by simp [RunOk, h])

theorem RunOk.mono (E : Env I σ) {ok ok' : (c : I.Call) → σ → I.Ans c → σ → Prop}
    (h : ∀ c s a s', ok c s a s' → ok' c s a s') :
    ∀ {evs : List E.Ev} {p : Prog I ε α} {s : σ}, RunOk E ok evs p s → RunOk E ok' evs p s
  | [], _, _, _ => by simp [RunOk]
  | _ :: _, .ret _, _, _ => by simp [RunOk]
  | _ :: _, .raise _, _, _ => by simp [RunOk]
  | ev :: evs, .call c k, s, hr => by
    simp only [RunOk] at hr ⊢
    split
    · rename_i a s' hs
      rw [hs] at hr
      exact ⟨h _ _ _ _ hr.1, RunOk.mono E h hr.2⟩
    · trivial

/-- The calls of the run of `p` under the decisions `evs`. -/
def calls (E : Env I σ) : List E.Ev → Prog I ε α → σ → List (Event I)
  | ev :: evs, .call c k, s =>
    match E.step c ev s with
    | some (a, s') => ⟨c, a⟩ :: calls E evs (k a) s'
    | none => []
  | _, _, _ => []

/-- An evaluated run, with its calls. -/
theorem run_progress (E : Env I σ) {ok : (c : I.Call) → σ → I.Ans c → σ → Prop} :
    ∀ (evs : List E.Ev) {p : Prog I ε α} {s s' : σ} {r : Except ε α},
      E.run evs p s = some (r, s') → RunOk E ok evs p s →
        Progress (E.Allowed ok) p s (E.calls evs p s) (.ofExcept r) s'
  | [], .ret a, s, s', r, h, _ => by
    simp only [run, Option.some.injEq, Prod.mk.injEq] at h
    obtain ⟨rfl, rfl⟩ := h
    exact .refl
  | [], .raise e, s, s', r, h, _ => by
    simp only [run, Option.some.injEq, Prod.mk.injEq] at h
    obtain ⟨rfl, rfl⟩ := h
    exact .refl
  | [], .call c k, s, s', r, h, _ => by simp [run] at h
  | ev :: evs, .ret a, s, s', r, h, _ => by simp [run] at h
  | ev :: evs, .raise e, s, s', r, h, _ => by simp [run] at h
  | ev :: evs, .call c k, s, s', r, h, hok => by
    simp only [run] at h
    split at h
    · rename_i a s1 hs
      simp only [RunOk, hs] at hok
      simp only [calls, hs]
      exact .call ⟨⟨ev, hs⟩, hok.1⟩ (run_progress E evs h hok.2)
    · cases h

/-- A run that evaluates is a run of the transitions. -/
theorem run_sound (E : Env I σ) {ok : (c : I.Call) → σ → I.Ans c → σ → Prop} (evs : List E.Ev)
    {p : Prog I ε α} {s s' : σ} {r : Except ε α} (h : E.run evs p s = some (r, s'))
    (hok : RunOk E ok evs p s) : Runs (E.Allowed ok) p s r s' :=
  (run_progress E evs h hok).runs

end Env

/-! ## Safety under interference -/

section
variable (T : (c : I.Call) → σ → I.Ans c → σ → Prop) (R G : σ → σ → Prop)

/-- Every call of `p` from `s` is a step in `G`, and the end is in `Q`, where others may take steps
in `R` before each call and at the end. -/
def Safe (Q : Except ε α → σ → Prop) : Prog I ε α → σ → Prop
  | .ret a, s => ∀ s', R s s' → Q (.ok a) s'
  | .raise e, s => ∀ s', R s s' → Q (.error e) s'
  | .call c k, s => ∀ s', R s s' → ∀ a s'', T c s' a s'' → G s' s'' ∧ Safe Q (k a) s''

end

variable {T : (c : I.Call) → σ → I.Ans c → σ → Prop} {R G : σ → σ → Prop}
  {Q Q' : Except ε α → σ → Prop}

/-- Steps of others keep a program safe. -/
theorem Safe.mono (htr : ∀ {a b c}, R a b → R b c → R a c) {p : Prog I ε α} {s s' : σ}
    (h : Safe T R G Q p s) (hr : R s s') : Safe T R G Q p s' := by
  cases p with
  | ret a => exact fun s1 h1 => h s1 (htr hr h1)
  | raise e => exact fun s1 h1 => h s1 (htr hr h1)
  | call c k => exact fun s1 h1 => h s1 (htr hr h1)

theorem Safe.imp {p : Prog I ε α} {s : σ} (h : Safe T R G Q p s)
    (hq : ∀ r s, Q r s → Q' r s) : Safe T R G Q' p s := by
  induction p generalizing s with
  | ret a => exact fun s1 h1 => hq _ _ (h s1 h1)
  | raise e => exact fun s1 h1 => hq _ _ (h s1 h1)
  | call c k ih =>
    intro s1 h1 a s2 h2
    obtain ⟨hg, hs⟩ := h s1 h1 a s2 h2
    exact ⟨hg, ih a hs⟩

/-- Fewer answers. -/
theorem Safe.weaken {T' : (c : I.Call) → σ → I.Ans c → σ → Prop}
    (hT : ∀ {c s a s'}, T' c s a s' → T c s a s') {p : Prog I ε α} {s : σ} (h : Safe T R G Q p s) :
    Safe T' R G Q p s := by
  induction p generalizing s with
  | ret a => exact h
  | raise e => exact h
  | call c k ih =>
    intro s1 h1 a s2 h2
    obtain ⟨hg, hs⟩ := h s1 h1 a s2 (hT h2)
    exact ⟨hg, ih a hs⟩

/-- Fewer answers and less interference; a call guarantees what its guarantee and its answer say. -/
theorem Safe.adapt {T' : (c : I.Call) → σ → I.Ans c → σ → Prop} {R' G' : σ → σ → Prop}
    (hR : ∀ {s s'}, R' s s' → R s s') (hT : ∀ {c s a s'}, T' c s a s' → T c s a s')
    (hG : ∀ {c s a s'}, T' c s a s' → G s s' → G' s s') {p : Prog I ε α} {s : σ}
    (h : Safe T R G Q p s) : Safe T' R' G' Q p s := by
  induction p generalizing s with
  | ret a => exact fun s1 h1 => h s1 (hR h1)
  | raise e => exact fun s1 h1 => h s1 (hR h1)
  | call c k ih =>
    intro s1 h1 a s2 h2
    obtain ⟨hg, hs⟩ := h s1 (hR h1) a s2 (hT h2)
    exact ⟨hG h2 hg, ih a hs⟩

/-- What all steps keep holds at the end. -/
theorem Safe.keeps {J : σ → Prop} (hR : ∀ {s s'}, R s s' → J s → J s')
    (hG : ∀ {s s'}, G s s' → J s → J s')
    {p : Prog I ε α} {s : σ} (h : Safe T R G Q p s) (hs : J s) :
    Safe T R G (fun r s => Q r s ∧ J s) p s := by
  induction p generalizing s with
  | ret a => exact fun s1 h1 => ⟨h s1 h1, hR h1 hs⟩
  | raise e => exact fun s1 h1 => ⟨h s1 h1, hR h1 hs⟩
  | call c k ih =>
    intro s1 h1 a s2 h2
    obtain ⟨hg, hk⟩ := h s1 h1 a s2 h2
    exact ⟨hg, ih a hk (hG hg (hR h1 hs))⟩

/-- Two arguments about one program, of which the first gives the guarantee. -/
theorem Safe.and {T' : (c : I.Call) → σ → I.Ans c → σ → Prop} {G' : σ → σ → Prop} {p : Prog I ε α}
    {s : σ} (h : Safe T R G Q p s) (h' : Safe T' R G' Q' p s) :
    Safe (fun c s a s' => T c s a s' ∧ T' c s a s') R G (fun r s => Q r s ∧ Q' r s) p s := by
  induction p generalizing s with
  | ret a => exact fun s1 h1 => ⟨h s1 h1, h' s1 h1⟩
  | raise e => exact fun s1 h1 => ⟨h s1 h1, h' s1 h1⟩
  | call c k ih =>
    intro s1 h1 a s2 h2
    obtain ⟨hg, hs⟩ := h s1 h1 a s2 h2.1
    exact ⟨hg, ih a hs (h' s1 h1 a s2 h2.2).2⟩

theorem safe_of_forall (hg : ∀ s s', G s s') (hq : ∀ r s, Q r s) {p : Prog I ε α} {s : σ} :
    Safe T R G Q p s := by
  induction p generalizing s with
  | ret a => exact fun s1 _ => hq _ _
  | raise e => exact fun s1 _ => hq _ _
  | call c k ih => exact fun s1 _ a s2 _ => ⟨hg s1 s2, ih a⟩

/-- A safe program ends where its own steps and those of the others lead. -/
theorem Safe.path {p : Prog I ε α} {s : σ} (h : Safe T R G Q p s) :
    Safe T R G (fun r s' => Q r s' ∧ Relation.ReflTransGen (fun a b => R a b ∨ G a b)
        s s') p s := by
  suffices hgo : ∀ s₀, Relation.ReflTransGen (fun a b => R a b ∨ G a b) s₀ s → Safe T R G
      (fun r s' => Q r s' ∧ Relation.ReflTransGen (fun a b => R a b ∨ G a b) s₀ s') p s from
    hgo s .refl
  induction p generalizing s with
  | ret a => exact fun s₀ hp s' hr => ⟨h s' hr, hp.tail (.inl hr)⟩
  | raise e => exact fun s₀ hp s' hr => ⟨h s' hr, hp.tail (.inl hr)⟩
  | call c k ih =>
    intro s₀ hp s₁ hr a s₂ ht
    obtain ⟨hg, hs⟩ := h s₁ hr a s₂ ht
    exact ⟨hg, ih a hs s₀ ((hp.tail (.inl hr)).tail (.inr hg))⟩

/-- The end of a sequence: the second program from wherever the first ends, or its error. -/
def Then (T : (c : I.Call) → σ → I.Ans c → σ → Prop) (R G : σ → σ → Prop)
    (Q : Except ε β → σ → Prop) (f : α → Prog I ε β) : Except ε α → σ → Prop
  | .ok a, s => Safe T R G Q (f a) s
  | .error e, s => Q (.error e) s

theorem safe_bind {Q : Except ε β → σ → Prop} {p : Prog I ε α} {f : α → Prog I ε β} {s : σ}
    (hrf : ∀ s, R s s) (h : Safe T R G (Then T R G Q f) p s) : Safe T R G Q (p >>= f) s := by
  induction p generalizing s with
  | ret a => exact h s (hrf s)
  | raise e => exact h
  | call c k ih =>
    intro s1 h1 a s2 h2
    obtain ⟨hg, hs⟩ := h s1 h1 a s2 h2
    exact ⟨hg, ih a hs⟩

theorem then_of_bind {Q : Except ε β → σ → Prop} {p : Prog I ε α} {f : α → Prog I ε β} {s : σ}
    (htr : ∀ {a b c}, R a b → R b c → R a c) (h : Safe T R G Q (p >>= f) s) :
    Safe T R G (Then T R G Q f) p s := by
  induction p generalizing s with
  | ret a =>
    intro s1 h1
    have hs : Safe T R G Q (f a) s := h
    exact Safe.mono (R := R) htr hs h1
  | raise e => exact h
  | call c k ih =>
    intro s1 h1 a s2 h2
    obtain ⟨hg, hs⟩ := h s1 h1 a s2 h2
    exact ⟨hg, ih a hs⟩

theorem safe_attempt {Q : Except ε (Except ε α) → σ → Prop} {p : Prog I ε α} {s : σ}
    (h : Safe T R G (fun r s => Q (.ok r) s) p s) : Safe T R G Q p.attempt s := by
  induction p generalizing s with
  | ret a => exact h
  | raise e => exact h
  | call c k ih =>
    intro s1 h1 a s2 h2
    obtain ⟨hg, hs⟩ := h s1 h1 a s2 h2
    exact ⟨hg, ih a hs⟩

theorem safe_mapError {ε' : Type} {f : ε → ε'} {Q : Except ε' α → σ → Prop} {p : Prog I ε α} {s : σ}
    (h : Safe T R G (fun r s => Q (r.mapError f) s) p s) : Safe T R G Q (p.mapError f) s := by
  induction p generalizing s with
  | ret a => exact h
  | raise e => exact h
  | call c k ih =>
    intro s1 h1 a s2 h2
    obtain ⟨hg, hs⟩ := h s1 h1 a s2 h2
    exact ⟨hg, ih a hs⟩

theorem safe_handle {Q : Except ε α → σ → Prop} {p : Prog I ε α} {h : ε → Prog I ε α} {s : σ}
    (hrf : ∀ s, R s s)
    (hp : Safe T R G (fun r s => match r with
      | .ok a => Q (.ok a) s
      | .error e => Safe T R G Q (h e) s) p s) : Safe T R G Q (p.handle h) s := by
  induction p generalizing s with
  | ret a => exact hp
  | raise e => exact hp s (hrf s)
  | call c k ih =>
    intro s1 h1 a s2 h2
    obtain ⟨hg, hs⟩ := hp s1 h1 a s2 h2
    exact ⟨hg, ih a hs⟩

/-- What safety says about a part of a run on its own: it takes steps in `G`, and the rest is
safe. -/
theorem Safe.progress (hrf : ∀ s, R s s) {p q : Prog I ε α} {s s' : σ} {tr : List (Event I)}
    (h : Safe T R G Q p s) (hp : Progress T p s tr q s') :
    Relation.ReflTransGen G s s' ∧ Safe T R G Q q s' := by
  induction hp with
  | refl => exact ⟨.refl, h⟩
  | call ht _ ih =>
    obtain ⟨hg, hs⟩ := h _ (hrf _) _ _ ht
    obtain ⟨hgs, hq⟩ := ih hs
    exact ⟨.head hg hgs, hq⟩

/-- What safety says about a run on its own: its end is in `Q`. -/
theorem Safe.runs (hrf : ∀ s, R s s) {p : Prog I ε α} {s s' : σ} {r : Except ε α}
    (h : Safe T R G Q p s) (hr : Runs T p s r s') : Q r s' := by
  induction hr with
  | ret => exact h _ (hrf _)
  | raise => exact h _ (hrf _)
  | call ht _ ih => exact ih (h _ (hrf _) _ _ ht).2

end

/-! ## Sessions -/

/-- Operations done one after another: the program of each, the answers its calls can get, and the
states it may be started in. -/
structure Session (I : Iface) (ε σ Op : Type) where
  prog : Op → Prog I ε Unit
  trans : Op → (c : I.Call) → σ → I.Ans c → σ → Prop
  pre : Op → σ → Prop

namespace Session

variable {I : Iface} {ε σ Op : Type} (S : Session I ε σ Op)

def Step (s s' : σ) : Prop := ∃ op r, S.pre op s ∧ Runs (S.trans op) (S.prog op) s r s'

def Reaches : σ → σ → Prop := Relation.ReflTransGen S.Step

theorem inv_run (Inv : σ → Prop)
    (hstep : ∀ {op s r s'}, Inv s → S.pre op s → Runs (S.trans op) (S.prog op) s r s' → Inv s')
    {s s' : σ} (hs : Inv s) (h : S.Reaches s s') : Inv s' := by
  induction h with
  | refl => exact hs
  | tail _ h ih =>
    obtain ⟨op, r, hp, hr⟩ := h
    exact hstep ih hp hr

end Session

/-- The replies of operations done one after another, and the last state. -/
def runAll {Op R σ : Type} (f : Op → σ → R × σ) : List Op → σ → List R × σ
  | [], s => ([], s)
  | op :: ops, s =>
    let (r, s) := f op s
    let (rs, s) := runAll f ops s
    (r :: rs, s)

theorem runAll_append {Op R σ : Type} (f : Op → σ → R × σ) (ops later : List Op) (s : σ) :
    (runAll f (ops ++ later) s).2 = (runAll f later (runAll f ops s).2).2 := by
  induction ops generalizing s with
  | nil => rfl
  | cons op ops ih => exact ih _

/-- What every operation keeps, a run keeps. -/
theorem runAll_inv {Op R σ : Type} {f : Op → σ → R × σ} (Inv : σ → Prop)
    (hstep : ∀ op s, Inv s → Inv (f op s).2) (ops : List Op) {s : σ} (h : Inv s) :
    Inv (runAll f ops s).2 := by
  induction ops generalizing s with
  | nil => exact h
  | cons op ops ih => exact ih (hstep op s h)

/-- Two systems whose operations keep `Rel` and reply alike are alike in every run. -/
theorem runAll_refines {Op R σ τ : Type} {f : Op → σ → R × σ} {g : Op → τ → R × τ}
    (Rel : σ → τ → Prop)
    (hstep : ∀ op s t, Rel s t → (f op s).1 = (g op t).1 ∧ Rel (f op s).2 (g op t).2)
    (ops : List Op) {s : σ} {t : τ} (h : Rel s t) :
    (runAll f ops s).1 = (runAll g ops t).1 ∧ Rel (runAll f ops s).2 (runAll g ops t).2 := by
  induction ops generalizing s t with
  | nil => exact ⟨rfl, h⟩
  | cons op ops ih =>
    obtain ⟨hr, hs⟩ := hstep op s t h
    obtain ⟨hrs, hlast⟩ := ih hs
    exact ⟨congrArg₂ List.cons hr hrs, hlast⟩

end Lib
