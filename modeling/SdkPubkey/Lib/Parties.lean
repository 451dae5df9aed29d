import SdkPubkey.Lib.Prog
import Mathlib.Logic.Function.Basic

/-!
# Parties that share a state

A `World` has parties `i : ι`, each with a state of its own (`dev i`) and at most one program
running (`job i`), and one shared state. `Protocol.step` does one action of one party: it starts an
operation, makes the next call of its program, ends, or crashes (the program is gone, the state is
what `reset` leaves of it). Actions of the parties interleave in any order.

`Roles` is the rely/guarantee argument: when every operation of party `i` is `Safe` from an idle
party, although the others change the shared state by `Rely i`, and every call guarantees `Rely j`
to each other party `j`, then `Inv` holds after any run (`inv_run`) and every action is one the
argument allows (`step_effect`). `Discipline` is the case where all parties have the same part.

Where a protocol does on its shared state what another does on its own (`Simulates`), a run of the
one is a run of the other (`Simulates.reaches`).
-/

namespace Lib

/-- The parties' own states and programs, and the state they share. -/
structure World (ι δ γ Op : Type) (I : Iface) (ε : Type) where
  shared : γ
  dev : ι → δ
  job : ι → Option (Op × Prog I ε Unit)

/-- What happens next, and to which party. -/
inductive Act (ι Op Ev : Type) : Type
  | start (i : ι) (op : Op)
  | call (i : ι) (ev : Ev)
  | finish (i : ι)
  | crash (i : ι)

/-- The same action, where the environments decide what `M` relates. -/
inductive Act.Matches {ι Op Ev Ev' : Type} (M : Ev → Ev' → Prop) : Act ι Op Ev → Act ι Op Ev' → Prop
  | start (i : ι) (op : Op) : Matches M (.start i op) (.start i op)
  | call {ev : Ev} {ev' : Ev'} (i : ι) (h : M ev ev') : Matches M (.call i ev) (.call i ev')
  | finish (i : ι) : Matches M (.finish i) (.finish i)
  | crash (i : ι) : Matches M (.crash i) (.crash i)

/-- The programs of the operations, the environment of their calls, and what a crash leaves. -/
structure Protocol (δ γ Op : Type) (I : Iface) (ε : Type) where
  env : Env I (δ × γ)
  prog : Op → Prog I ε Unit
  reset : δ → δ

namespace Protocol

variable {ι δ γ Op ε : Type} {I : Iface} [DecidableEq ι]

/-- One action; `none` where the party cannot take it. -/
def step (P : Protocol δ γ Op I ε) : Act ι Op P.env.Ev → World ι δ γ Op I ε →
    Option (World ι δ γ Op I ε)
  | .start i op, w =>
    match w.job i with
    | none => some { w with job := Function.update w.job i (some (op, P.prog op)) }
    | some _ => none
  | .call i ev, w =>
    match w.job i with
    | some (op, .call c k) =>
      match P.env.step c ev (w.dev i, w.shared) with
      | some (a, d, g) =>
        some ⟨g, Function.update w.dev i d, Function.update w.job i (some (op, k a))⟩
      | none => none
    | _ => none
  | .finish i, w =>
    match w.job i with
    | some (_, .ret _) | some (_, .raise _) => some { w with job := Function.update w.job i none }
    | _ => none
  | .crash i, w =>
    some { w with dev := Function.update w.dev i (P.reset (w.dev i)),
                  job := Function.update w.job i none }

/-- The run of a list of actions. -/
def exec (P : Protocol δ γ Op I ε) : List (Act ι Op P.env.Ev) → World ι δ γ Op I ε →
    Option (World ι δ γ Op I ε)
  | [], w => some w
  | a :: as, w => (P.step a w).bind (exec P as)

/-- The run of a list of actions that all meet the test `ok`. -/
def execIf (P : Protocol δ γ Op I ε) (ok : World ι δ γ Op I ε → Act ι Op P.env.Ev → Bool) :
    List (Act ι Op P.env.Ev) → World ι δ γ Op I ε → Option (World ι δ γ Op I ε)
  | [], w => some w
  | a :: as, w => if ok w a then (P.step a w).bind (execIf P ok as) else none

/-- A run whose actions all meet `cond`. -/
def Reaches (P : Protocol δ γ Op I ε)
    (cond : World ι δ γ Op I ε → Act ι Op P.env.Ev → Prop) :
    World ι δ γ Op I ε → World ι δ γ Op I ε → Prop :=
  Relation.ReflTransGen fun w w' => ∃ a, cond w a ∧ P.step a w = some w'

section
variable {P : Protocol δ γ Op I ε} {w w' : World ι δ γ Op I ε} {i : ι}

theorem step_start {op : Op} (h : P.step (.start i op) w = some w') :
    w.job i = none ∧ w' = { w with job := Function.update w.job i (some (op, P.prog op)) } := by
  simp only [step] at h
  split at h
  · rename_i hj
    exact ⟨hj, by simpa using h.symm⟩
  · cases h

theorem step_call {ev : P.env.Ev} (h : P.step (.call i ev) w = some w') :
    ∃ op c k a d g, w.job i = some (op, .call c k) ∧
      P.env.step c ev (w.dev i, w.shared) = some (a, d, g) ∧
      w' = ⟨g, Function.update w.dev i d, Function.update w.job i (some (op, k a))⟩ := by
  simp only [step] at h
  split at h
  · rename_i op c k hj
    split at h
    · rename_i a d g hs
      exact ⟨op, c, k, a, d, g, hj, hs, by simpa using h.symm⟩
    · cases h
  · cases h

theorem step_finish (h : P.step (.finish i) w = some w') :
    (∃ op r, w.job i = some (op, Prog.ofExcept r)) ∧
      w' = { w with job := Function.update w.job i none } := by
  simp only [step] at h
  split at h
  · rename_i op a hj
    exact ⟨⟨op, .ok a, hj⟩, by simpa using h.symm⟩
  · rename_i op e hj
    exact ⟨⟨op, .error e, hj⟩, by simpa using h.symm⟩
  · cases h

theorem step_crash (h : P.step (.crash i) w = some w') :
    w' = { w with dev := Function.update w.dev i (P.reset (w.dev i)),
                  job := Function.update w.job i none } := by
  simpa [step] using h.symm

theorem Reaches.mono {cond cond' : World ι δ γ Op I ε → Act ι Op P.env.Ev → Prop}
    (hc : ∀ w a, cond w a → cond' w a) (h : P.Reaches cond w w') : P.Reaches cond' w w' := by
  induction h with
  | refl => exact .refl
  | tail _ hs ih =>
    obtain ⟨a, ha, hs⟩ := hs
    exact ih.tail ⟨a, hc _ a ha, hs⟩

/-- The job of `i` in `w` was started in `w₀`, and has gone on since. -/
structure Started (P : Protocol δ γ Op I ε) (cond : World ι δ γ Op I ε → Act ι Op P.env.Ev → Prop)
    (w₀ : World ι δ γ Op I ε) (i : ι) (op : Op) (w : World ι δ γ Op I ε) : Prop where
  idle : w₀.job i = none
  starts : cond w₀ (.start i op)
  goesOn : P.Reaches (fun w a => cond w a ∧ a ≠ .finish i ∧ a ≠ .crash i)
    { w₀ with job := Function.update w₀.job i (some (op, P.prog op)) } w

/-- A job that is there was there before and goes on, or starts. -/
theorem step_job {a : Act ι Op P.env.Ev} (h : P.step a w = some w') {op : Op} {p : Prog I ε Unit}
    (hj : w'.job i = some (op, p)) :
    (a = .start i op ∧ w.job i = none ∧
        w' = { w with job := Function.update w.job i (some (op, P.prog op)) }) ∨
      (∃ p', w.job i = some (op, p')) ∧ a ≠ .finish i ∧ a ≠ .crash i := by
  cases a with
  | start j op' =>
    obtain ⟨hn, rfl⟩ := step_start h
    by_cases hij : i = j
    · subst hij
      obtain ⟨rfl, -⟩ : op' = op ∧ P.prog op' = p := by simpa using hj
      exact .inl ⟨rfl, hn, rfl⟩
    · exact .inr ⟨⟨p, by simpa [hij] using hj⟩, by simp, by simp⟩
  | call j ev =>
    obtain ⟨op', c, k, a, d, g, hn, -, rfl⟩ := step_call h
    by_cases hij : i = j
    · subst hij
      obtain ⟨rfl, -⟩ : op' = op ∧ k a = p := by simpa using hj
      exact .inr ⟨⟨_, hn⟩, by simp, by simp⟩
    · exact .inr ⟨⟨p, by simpa [hij] using hj⟩, by simp, by simp⟩
  | finish j =>
    obtain ⟨-, rfl⟩ := step_finish h
    by_cases hij : i = j
    · subst hij
      simp at hj
    · refine .inr ⟨⟨p, by simpa [hij] using hj⟩, fun he => ?_, by simp⟩
      cases he
      exact hij rfl
  | crash j =>
    obtain rfl := step_crash h
    by_cases hij : i = j
    · subst hij
      simp at hj
    · refine .inr ⟨⟨p, by simpa [hij] using hj⟩, by simp, fun he => ?_⟩
      cases he
      exact hij rfl

/-- Where a run shows a job that was not there at first, the run has started it. -/
theorem Reaches.started {cond : World ι δ γ Op I ε → Act ι Op P.env.Ev → Prop}
    {w₀ : World ι δ γ Op I ε} (h : P.Reaches cond w₀ w) (h₀ : w₀.job i = none) {op : Op}
    {p : Prog I ε Unit} (hj : w.job i = some (op, p)) :
    ∃ w₁, P.Reaches cond w₀ w₁ ∧ P.Started cond w₁ i op w := by
  induction h generalizing p with
  | refl =>
    rw [h₀] at hj
    cases hj
  | tail hreach hs ih =>
    obtain ⟨a, hc, hs⟩ := hs
    rcases step_job hs hj with ⟨rfl, hn, rfl⟩ | ⟨⟨p', hp'⟩, hfinish, hcrash⟩
    · exact ⟨_, hreach, hn, hc, .refl⟩
    · obtain ⟨w₁, hreach₁, hst⟩ := ih hp'
      exact ⟨w₁, hreach₁, hst.idle, hst.starts, hst.goesOn.tail ⟨a, ⟨hc, hfinish, hcrash⟩, hs⟩⟩

theorem Started.mono {cond cond' : World ι δ γ Op I ε → Act ι Op P.env.Ev → Prop}
    (hc : ∀ w a, cond w a → cond' w a) {w₀ : World ι δ γ Op I ε} {op : Op}
    (h : P.Started cond w₀ i op w) : P.Started cond' w₀ i op w :=
  ⟨h.idle, hc _ _ h.starts, h.goesOn.mono fun _ _ ha => ⟨hc _ _ ha.1, ha.2⟩⟩

/-- What every call keeps of the shared state, every run keeps. -/
theorem Reaches.shared_kept {cond : World ι δ γ Op I ε → Act ι Op P.env.Ev → Prop} {Kept : γ → Prop}
    (hcall : ∀ {c ev d g a d₁ g₁}, P.env.step c ev (d, g) = some (a, d₁, g₁) → Kept g → Kept g₁)
    (h : P.Reaches cond w w') (hw : Kept w.shared) : Kept w'.shared := by
  induction h with
  | refl => exact hw
  | tail _ hs ih =>
    obtain ⟨a, -, hs⟩ := hs
    cases a with
    | start i op =>
      obtain ⟨-, rfl⟩ := step_start hs
      exact ih
    | call i ev =>
      obtain ⟨op, c, k, a, d, g, -, he, rfl⟩ := step_call hs
      exact hcall he ih
    | finish i =>
      obtain ⟨-, rfl⟩ := step_finish hs
      exact ih
    | crash i =>
      obtain rfl := step_crash hs
      exact ih

/-- A concrete run, checked action by action, is a run under `cond`. -/
theorem reaches_of_exec {cond : World ι δ γ Op I ε → Act ι Op P.env.Ev → Prop}
    (hc : ∀ w a, cond w a) : ∀ {as : List (Act ι Op P.env.Ev)} {w w' : World ι δ γ Op I ε},
    P.exec as w = some w' → P.Reaches cond w w'
  | [], w, w', h => by
    cases h
    exact .refl
  | a :: as, w, w', h => by
    obtain ⟨w1, h1, h2⟩ := Option.bind_eq_some_iff.1 h
    exact .head ⟨a, hc w a, h1⟩ (reaches_of_exec hc h2)

/-- A concrete run, its actions tested one by one, is a run under what the test decides about
them. -/
theorem reaches_of_tested {cond : World ι δ γ Op I ε → Act ι Op P.env.Ev → Prop}
    {ok : World ι δ γ Op I ε → Act ι Op P.env.Ev → Bool} :
    ∀ {as : List (Act ι Op P.env.Ev)} {w w' : World ι δ γ Op I ε},
    (∀ a ∈ as, ∀ w, ok w a = true → cond w a) → P.execIf ok as w = some w' → P.Reaches cond w w'
  | [], w, w', _, h => by
    cases h
    exact .refl
  | a :: as, w, w', hc, h => by
    unfold execIf at h
    split at h
    · rename_i ha
      obtain ⟨w1, h1, h2⟩ := Option.bind_eq_some_iff.1 h
      obtain ⟨hca, hcs⟩ := List.forall_mem_cons.1 hc
      exact .head ⟨a, hca w ha, h1⟩ (reaches_of_tested hcs h2)
    · cases h

theorem reaches_of_execIf {cond : World ι δ γ Op I ε → Act ι Op P.env.Ev → Prop}
    {ok : World ι δ γ Op I ε → Act ι Op P.env.Ev → Bool} (hc : ∀ w a, ok w a = true → cond w a)
    {as : List (Act ι Op P.env.Ev)} {w w' : World ι δ γ Op I ε} (h : P.execIf ok as w = some w') :
    P.Reaches cond w w' :=
  reaches_of_tested (fun a _ w => hc w a) h

/-- The actions of party `i` that does `op`, its calls answered as `evs` decide. -/
def actsOf {Ev : Type} (i : ι) (op : Op) (evs : List Ev) : List (Act ι Op Ev) :=
  .start i op :: evs.map (.call i) ++ [.finish i]

/-- The world when the program of party `i` has come to `p`, in the state `s`. -/
def World.put (w : World ι δ γ Op I ε) (i : ι) (op : Op) (p : Prog I ε Unit) (s : δ × γ) :
    World ι δ γ Op I ε :=
  ⟨s.2, Function.update w.dev i s.1, Function.update w.job i (some (op, p))⟩

theorem put_self {op : Op} {p : Prog I ε Unit} (hj : w.job i = some (op, p)) :
    World.put w i op p (w.dev i, w.shared) = w := by
  unfold World.put
  rw [Function.update_eq_self, ← hj, Function.update_eq_self]

theorem step_put_start {op : Op} (hj : w.job i = none) :
    P.step (.start i op) w = some (World.put w i op (P.prog op) (w.dev i, w.shared)) := by
  simp only [step, hj, World.put, Function.update_eq_self]

theorem step_put_call {op : Op} {c : I.Call} {k : I.Ans c → Prog I ε Unit} {ev : P.env.Ev}
    {s : δ × γ} {a : I.Ans c} {s' : δ × γ} (hs : P.env.step c ev s = some (a, s')) :
    P.step (.call i ev) (World.put w i op (.call c k) s) = some (World.put w i op (k a) s') := by
  unfold step
  simp only [World.put, Function.update_self, hs, Function.update_idem]

/-- A party whose calls are all decided in one way goes on to the end of its program. -/
theorem reaches_prog {cond : World ι δ γ Op I ε → Act ι Op P.env.Ev → Prop} {ev : P.env.Ev}
    {h : (c : I.Call) → δ × γ → I.Ans c × (δ × γ)} (hc : ∀ w, cond w (.call i ev))
    (hev : ∀ c s, P.env.step c ev s = some (h c s)) {op : Op} (p : Prog I ε Unit) (s : δ × γ) :
    P.Reaches cond (World.put w i op p s)
      (World.put w i op (Prog.ofExcept (p.exec h s).1) (p.exec h s).2) := by
  induction p generalizing s with
  | ret a => exact .refl
  | raise e => exact .refl
  | call c k ih => exact .head ⟨_, hc _, step_put_call (hev c s)⟩ (ih _ _)

/-- Party `i` makes its first call, `j` does a whole operation, and then `i` goes on to its end. -/
theorem reaches_overtaken {cond : World ι δ γ Op I ε → Act ι Op P.env.Ev → Prop} {ev : P.env.Ev}
    {h : (c : I.Call) → δ × γ → I.Ans c × (δ × γ)} (hc : ∀ w i, cond w (.call i ev))
    (hev : ∀ c s, P.env.step c ev s = some (h c s)) {j : ι} (hij : j ≠ i) {late first : Op}
    (hlate : ∀ w, cond w (.start i late)) (hfirst : ∀ w, cond w (.start j first))
    (hi : w.job i = none) (hj : w.job j = none) {c : I.Call} {k : I.Ans c → Prog I ε Unit}
    (hp : P.prog late = .call c k) :
    ∃ w', P.Reaches cond w w' ∧ w'.dev i = ((k (h c (w.dev i, w.shared)).1).exec h
      ((h c (w.dev i, w.shared)).2.1,
        ((P.prog first).exec h (w.dev j, (h c (w.dev i, w.shared)).2.2)).2.2)).2.1 := by
  rcases hs : h c (w.dev i, w.shared) with ⟨a, d, g⟩
  have h₁ : P.step (.start i late) w =
      some (World.put w i late (P.prog late) (w.dev i, w.shared)) := step_put_start hi
  rw [hp] at h₁
  have h₂ : P.step (.call i ev) (World.put w i late (.call c k) (w.dev i, w.shared)) =
      some (World.put w i late (k a) (d, g)) := step_put_call ((hev _ _).trans (by rw [hs]))
  -- the other party sees what the first call has done to the shared state
  obtain ⟨w₂, hw₂⟩ : ∃ w₂, w₂ = World.put w i late (k a) (d, g) := ⟨_, rfl⟩
  have hj₂ : w₂.job j = none := by
    rw [hw₂]
    exact (Function.update_of_ne hij ..).trans hj
  have hd₂ : (w₂.dev j, w₂.shared) = (w.dev j, g) := by
    rw [hw₂]
    exact Prod.ext (Function.update_of_ne hij ..) rfl
  have hi₂ : w₂.job i = some (late, k a) ∧ w₂.dev i = d := by
    rw [hw₂]
    exact ⟨Function.update_self .., Function.update_self ..⟩
  have h₃ : P.step (.start j first) w₂ =
      some (World.put w₂ j first (P.prog first) (w₂.dev j, w₂.shared)) := step_put_start hj₂
  rw [hd₂] at h₃
  have h₄ : P.Reaches cond (World.put w₂ j first (P.prog first) (w.dev j, g)) _ :=
    reaches_prog (fun w => hc w j) hev (P.prog first) (w.dev j, g)
  obtain ⟨r, hr⟩ : ∃ r, r = (P.prog first).exec h (w.dev j, g) := ⟨_, rfl⟩
  rw [← hr] at h₄
  obtain ⟨w₄, hw₄⟩ : ∃ w₄, w₄ = World.put w₂ j first (Prog.ofExcept r.1) r.2 := ⟨_, rfl⟩
  have hi₄ : w₄.job i = some (late, k a) ∧ w₄.dev i = d ∧ w₄.shared = r.2.2 := by
    rw [hw₄]
    exact ⟨(Function.update_of_ne hij.symm ..).trans hi₂.1,
      (Function.update_of_ne hij.symm ..).trans hi₂.2, rfl⟩
  have h₅ : P.Reaches cond (World.put w₄ i late (k a) (w₄.dev i, w₄.shared)) _ :=
    reaches_prog (fun w => hc w i) hev (k a) (w₄.dev i, w₄.shared)
  rw [put_self hi₄.1] at h₅
  rw [← hw₂] at h₂
  rw [← hw₄] at h₄
  refine ⟨_, .head ⟨_, hlate w, h₁⟩ (.head ⟨_, hc _ i, h₂⟩ (.head ⟨_, hfirst _, h₃⟩
    (h₄.trans h₅))), ?_⟩
  rw [hi₄.2.1, hi₄.2.2]
  dsimp only
  rw [← hr]
  exact Function.update_self ..

end

/-! ## The rely/guarantee argument -/

/-- The state a party sees changes under it only by `Rely` on the shared part. -/
def Interfere (Rely : γ → γ → Prop) (s s' : δ × γ) : Prop := s'.1 = s.1 ∧ Rely s.2 s'.2

/-- A rely/guarantee argument for the runs under `cond` where each party has its own part: `Always
i` holds of party `i` at every moment, `Idle i` between its operations, `Post i op r` when its `op`
has ended with `r`. -/
structure Roles (P : Protocol δ γ Op I ε)
    (cond : World ι δ γ Op I ε → Act ι Op P.env.Ev → Prop) where
  T : ι → (c : I.Call) → δ × γ → I.Ans c → δ × γ → Prop
  Rely : ι → γ → γ → Prop
  G : ι → δ × γ → δ × γ → Prop
  Always : ι → δ × γ → Prop
  Idle : ι → δ × γ → Prop
  Post : ι → Op → Except ε Unit → δ × γ → Prop
  rely_refl : ∀ i g, Rely i g g
  rely_trans : ∀ {i a b c}, Rely i a b → Rely i b c → Rely i a c
  always_mono : ∀ {i d g g'}, Always i (d, g) → Rely i g g' → Always i (d, g')
  idle_mono : ∀ {i d g g'}, Idle i (d, g) → Rely i g g' → Idle i (d, g')
  guarantee : ∀ {i s s'}, Always i s → G i s s' → (∀ j ≠ i, Rely j s.2 s'.2) ∧ Always i s'
  calls : ∀ {w : World ι δ γ Op I ε} {i ev op c k a s'}, cond w (.call i ev) →
    w.job i = some (op, .call c k) → P.env.step c ev (w.dev i, w.shared) = some (a, s') →
    T i c (w.dev i, w.shared) a s'
  starts : ∀ {w : World ι δ γ Op I ε} {i op}, cond w (.start i op) → w.job i = none →
    Always i (w.dev i, w.shared) → Idle i (w.dev i, w.shared) →
    Safe (T i) (Interfere (Rely i)) (G i) (fun r s => Post i op r s ∧ Idle i s) (P.prog op)
      (w.dev i, w.shared)
  crashes : ∀ {w : World ι δ γ Op I ε} {i}, cond w (.crash i) → Always i (w.dev i, w.shared) →
    Always i (P.reset (w.dev i), w.shared) ∧ Idle i (P.reset (w.dev i), w.shared)

namespace Roles

variable {P : Protocol δ γ Op I ε} {cond : World ι δ γ Op I ε → Act ι Op P.env.Ev → Prop}
  (R : Roles P cond)

/-- The rest of party `i`'s program is safe from the present state. -/
def JobOk (w : World ι δ γ Op I ε) (i : ι) : Prop :=
  match w.job i with
  | none => R.Idle i (w.dev i, w.shared)
  | some (op, p) => Safe (R.T i) (Interfere (R.Rely i)) (R.G i)
      (fun r s => R.Post i op r s ∧ R.Idle i s) p (w.dev i, w.shared)

structure Inv (w : World ι δ γ Op I ε) : Prop where
  always : ∀ i, R.Always i (w.dev i, w.shared)
  jobs : ∀ i, R.JobOk w i

omit [DecidableEq ι] in
theorem jobOk_mono {w w' : World ι δ γ Op I ε} {i : ι} (h : R.JobOk w i)
    (hd : w'.dev i = w.dev i) (hj : w'.job i = w.job i) (hr : R.Rely i w.shared w'.shared) :
    R.JobOk w' i := by
  unfold JobOk at h ⊢
  rw [hj, hd]
  split
  · rename_i hn
    rw [hn] at h
    exact R.idle_mono h hr
  · rename_i op p hn
    rw [hn] at h
    exact Safe.mono (fun h1 h2 => ⟨h2.1.trans h1.1, R.rely_trans h1.2 h2.2⟩) h ⟨rfl, hr⟩

omit [DecidableEq ι] in
/-- The call a party makes next is one its program allows, and keeps it safe. -/
theorem call_effect {w : World ι δ γ Op I ε} (hw : R.Inv w) {i : ι} {ev : P.env.Ev} {op : Op}
    {c : I.Call} {k : I.Ans c → Prog I ε Unit} {a : I.Ans c} {s' : δ × γ}
    (hc : cond w (.call i ev)) (hj : w.job i = some (op, .call c k))
    (hs : P.env.step c ev (w.dev i, w.shared) = some (a, s')) :
    R.G i (w.dev i, w.shared) s' ∧ Safe (R.T i) (Interfere (R.Rely i)) (R.G i)
      (fun r s => R.Post i op r s ∧ R.Idle i s) (k a) s' := by
  have h := hw.jobs i
  unfold JobOk at h
  rw [hj] at h
  exact h _ ⟨rfl, R.rely_refl i _⟩ _ _ (R.calls hc hj hs)

theorem inv_step {w w' : World ι δ γ Op I ε} {a : Act ι Op P.env.Ev} (hw : R.Inv w)
    (hc : cond w a) (hs : P.step a w = some w') : R.Inv w' := by
  cases a with
  | start i op =>
    obtain ⟨hj, rfl⟩ := step_start hs
    refine ⟨hw.always, fun j => ?_⟩
    -- only the new job has to be safe
    by_cases hij : j = i
    · subst hij
      have hi := hw.jobs j
      unfold JobOk at hi
      rw [hj] at hi
      unfold JobOk
      simpa using R.starts hc hj (hw.always j) hi
    · exact R.jobOk_mono (hw.jobs j) rfl (by simp [hij]) (R.rely_refl j _)
  | call i ev =>
    obtain ⟨op, c, k, a, d, g, hj, he, rfl⟩ := step_call hs
    obtain ⟨hg, hsafe⟩ := R.call_effect hw hc hj he
    -- the one that moves keeps its guarantee, the others take it as their rely
    obtain ⟨hr, hal⟩ := R.guarantee (hw.always i) hg
    refine ⟨fun j => ?_, fun j => ?_⟩
    · by_cases hij : j = i
      · subst hij
        simpa using hal
      · simpa [hij] using R.always_mono (hw.always j) (hr j hij)
    · by_cases hij : j = i
      · subst hij
        unfold JobOk
        simpa using hsafe
      · exact R.jobOk_mono (hw.jobs j) (by simp [hij]) (by simp [hij]) (hr j hij)
  | finish i =>
    obtain ⟨⟨op, r, hj⟩, rfl⟩ := step_finish hs
    refine ⟨hw.always, fun j => ?_⟩
    -- the idle state is what a finished job leaves
    by_cases hij : j = i
    · subst hij
      have hi := hw.jobs j
      unfold JobOk at hi
      rw [hj] at hi
      unfold JobOk
      cases r with
      | ok _ => simpa using (hi _ ⟨rfl, R.rely_refl j _⟩).2
      | error _ => simpa using (hi _ ⟨rfl, R.rely_refl j _⟩).2
    · exact R.jobOk_mono (hw.jobs j) rfl (by simp [hij]) (R.rely_refl j _)
  | crash i =>
    obtain rfl := step_crash hs
    obtain ⟨hal, hid⟩ := R.crashes hc (hw.always i)
    refine ⟨fun j => ?_, fun j => ?_⟩
    · by_cases hij : j = i
      · subst hij
        simpa using hal
      · simpa [hij] using hw.always j
    · by_cases hij : j = i
      · subst hij
        unfold JobOk
        simpa using hid
      · exact R.jobOk_mono (hw.jobs j) (by simp [hij]) (by simp [hij]) (R.rely_refl j _)

/-- **The invariant holds after every run.** -/
theorem inv_run {w w' : World ι δ γ Op I ε} (hw : R.Inv w) (h : P.Reaches cond w w') :
    R.Inv w' := by
  induction h with
  | refl => exact hw
  | tail _ hs ih =>
    obtain ⟨a, hc, hs⟩ := hs
    exact R.inv_step ih hc hs

omit [DecidableEq ι] in
/-- When an operation has ended, its postcondition holds. -/
theorem post_of_ended {w : World ι δ γ Op I ε} (hw : R.Inv w) {i : ι} {op : Op}
    {r : Except ε Unit} (hj : w.job i = some (op, Prog.ofExcept r)) :
    R.Post i op r (w.dev i, w.shared) := by
  have h := hw.jobs i
  unfold JobOk at h
  rw [hj] at h
  cases r with
  | ok _ => exact (h _ ⟨rfl, R.rely_refl i _⟩).1
  | error _ => exact (h _ ⟨rfl, R.rely_refl i _⟩).1

/-- A program that is safe where it starts stays safe, and ends in `Q`. -/
theorem safe_started {w₀ w : World ι δ γ Op I ε} {i : ι} {op : Op} (hw : R.Inv w₀)
    (h : P.Started cond w₀ i op w) {Q : Except ε Unit → δ × γ → Prop}
    (hsafe : Safe (R.T i) (Interfere (R.Rely i)) (R.G i) Q (P.prog op) (w₀.dev i, w₀.shared)) :
    ∃ p, w.job i = some (op, p) ∧
      Safe (R.T i) (Interfere (R.Rely i)) (R.G i) Q p (w.dev i, w.shared) := by
  have hstart : P.step (.start i op) w₀ =
      some { w₀ with job := Function.update w₀.job i (some (op, P.prog op)) } := by
    simp [Protocol.step, h.idle]
  have hinv := R.inv_step hw h.starts hstart
  -- by induction on the steps since the start, none of which ends this job
  have hgoes := h.goesOn
  induction hgoes with
  | refl => exact ⟨P.prog op, by simp, hsafe⟩
  | tail hreach hs ih =>
    rename_i w₁ w₂
    obtain ⟨a, ⟨hc, hfinish, hcrash⟩, hs⟩ := hs
    obtain ⟨p, hj, hp⟩ := ih ⟨h.idle, h.starts, hreach⟩
    have hinv₁ : R.Inv w₁ := R.inv_run hinv (Reaches.mono (fun _ _ hc => hc.1) hreach)
    -- a step of another party leaves the job and stays within the rely
    have hothers : w₂.dev i = w₁.dev i → w₂.job i = w₁.job i → R.Rely i w₁.shared w₂.shared →
        ∃ p, w₂.job i = some (op, p) ∧
          Safe (R.T i) (Interfere (R.Rely i)) (R.G i) Q p (w₂.dev i, w₂.shared) := by
      intro hd hsame hr
      refine ⟨p, hsame.trans hj, ?_⟩
      rw [hd]
      exact Safe.mono (fun h1 h2 => ⟨h2.1.trans h1.1, R.rely_trans h1.2 h2.2⟩) hp ⟨rfl, hr⟩
    cases a with
    | start j op' =>
      obtain ⟨hn, rfl⟩ := step_start hs
      have hij : i ≠ j := by
        rintro rfl
        rw [hj] at hn
        cases hn
      exact hothers rfl (by simp [hij]) (R.rely_refl i _)
    | call j ev =>
      obtain ⟨op', c, k, a, d, g, hn, he, rfl⟩ := step_call hs
      by_cases hij : i = j
      · -- its own step goes on with the answer
        subst hij
        obtain ⟨rfl, rfl⟩ : op = op' ∧ p = .call c k := by simpa using hj.symm.trans hn
        refine ⟨k a, by simp, ?_⟩
        have hnext := (hp _ ⟨rfl, R.rely_refl i _⟩ a (d, g) (R.calls hc hn he)).2
        simpa using hnext
      · have hg := (R.call_effect hinv₁ hc hn he).1
        exact hothers (by simp [hij]) (by simp [hij]) ((R.guarantee (hinv₁.always j) hg).1 i hij)
    | finish j =>
      obtain ⟨-, rfl⟩ := step_finish hs
      have hij : i ≠ j := by
        rintro rfl
        exact hfinish rfl
      exact hothers rfl (by simp [hij]) (R.rely_refl i _)
    | crash j =>
      obtain rfl := step_crash hs
      have hij : i ≠ j := by
        rintro rfl
        exact hcrash rfl
      exact hothers (by simp [hij]) (by simp [hij]) (R.rely_refl i _)

/-- When a job has ended, what its program ends with from where it started holds. -/
theorem ended_started {w₀ w : World ι δ γ Op I ε} {i : ι} {op : Op} (hw : R.Inv w₀)
    (h : P.Started cond w₀ i op w) {Q : Except ε Unit → δ × γ → Prop}
    (hsafe : Safe (R.T i) (Interfere (R.Rely i)) (R.G i) Q (P.prog op) (w₀.dev i, w₀.shared))
    {r : Except ε Unit} (hj : w.job i = some (op, Prog.ofExcept r)) : Q r (w.dev i, w.shared) := by
  obtain ⟨p, hp, hend⟩ := R.safe_started hw h hsafe
  obtain rfl : p = Prog.ofExcept r := (Prod.ext_iff.1 (Option.some.inj (hp.symm.trans hj))).2
  cases r with
  | ok _ => exact hend _ ⟨rfl, R.rely_refl i _⟩
  | error _ => exact hend _ ⟨rfl, R.rely_refl i _⟩

/-- What one action does to the party `j`: nothing but what it relies on, a crash of its own, or a
call in `G j`. -/
theorem step_effect {w w' : World ι δ γ Op I ε} {a : Act ι Op P.env.Ev} (hw : R.Inv w)
    (hc : cond w a) (hs : P.step a w = some w') (j : ι) :
    (w'.dev j = w.dev j ∧ R.Rely j w.shared w'.shared) ∨
      (a = .crash j ∧ w'.dev j = P.reset (w.dev j) ∧ w'.shared = w.shared) ∨
      R.G j (w.dev j, w.shared) (w'.dev j, w'.shared) := by
  cases a with
  | start i op =>
    obtain ⟨-, rfl⟩ := step_start hs
    exact .inl ⟨rfl, R.rely_refl j _⟩
  | call i ev =>
    obtain ⟨op, c, k, a, d, g, hj, he, rfl⟩ := step_call hs
    have hg := (R.call_effect hw hc hj he).1
    by_cases hij : j = i
    · subst hij
      exact .inr (.inr (by simpa using hg))
    · exact .inl ⟨by simp [hij], (R.guarantee (hw.always i) hg).1 j hij⟩
  | finish i =>
    obtain ⟨-, rfl⟩ := step_finish hs
    exact .inl ⟨rfl, R.rely_refl j _⟩
  | crash i =>
    obtain rfl := step_crash hs
    by_cases hij : j = i
    · subst hij
      exact .inr (.inl ⟨rfl, by simp, rfl⟩)
    · exact .inl ⟨by simp [hij], R.rely_refl j _⟩

/-- What one action does to the shared state: nothing, or what a call in `G` does. -/
theorem step_shared {w w' : World ι δ γ Op I ε} {a : Act ι Op P.env.Ev} (hw : R.Inv w)
    (hc : cond w a) (hs : P.step a w = some w') :
    w'.shared = w.shared ∨ ∃ i, R.G i (w.dev i, w.shared) (w'.dev i, w'.shared) := by
  cases a with
  | start i op =>
    obtain ⟨-, rfl⟩ := step_start hs
    exact .inl rfl
  | call i ev =>
    obtain ⟨op, c, k, a, d, g, hj, he, rfl⟩ := step_call hs
    exact .inr ⟨i, by simpa using (R.call_effect hw hc hj he).1⟩
  | finish i =>
    obtain ⟨-, rfl⟩ := step_finish hs
    exact .inl rfl
  | crash i =>
    obtain rfl := step_crash hs
    exact .inl rfl

end Roles

/-- A rely/guarantee discipline for the runs under `cond`: `Always` holds at every moment, `Idle`
between operations, `Post op r` when `op` has ended with `r`. -/
structure Discipline (P : Protocol δ γ Op I ε)
    (cond : World ι δ γ Op I ε → Act ι Op P.env.Ev → Prop) where
  T : (c : I.Call) → δ × γ → I.Ans c → δ × γ → Prop
  Rely : γ → γ → Prop
  G : δ × γ → δ × γ → Prop
  Always : δ × γ → Prop
  Idle : δ × γ → Prop
  Post : Op → Except ε Unit → δ × γ → Prop
  rely_refl : ∀ g, Rely g g
  rely_trans : ∀ {a b c}, Rely a b → Rely b c → Rely a c
  always_mono : ∀ {d g g'}, Always (d, g) → Rely g g' → Always (d, g')
  idle_mono : ∀ {d g g'}, Idle (d, g) → Rely g g' → Idle (d, g')
  guarantee : ∀ {s s'}, Always s → G s s' → Rely s.2 s'.2 ∧ Always s'
  calls : ∀ {w : World ι δ γ Op I ε} {i ev op c k a s'}, cond w (.call i ev) →
    w.job i = some (op, .call c k) → P.env.step c ev (w.dev i, w.shared) = some (a, s') →
        T c (w.dev i, w.shared) a s'
  starts : ∀ {w : World ι δ γ Op I ε} {i op}, cond w (.start i op) → w.job i = none →
    Always (w.dev i, w.shared) → Idle (w.dev i, w.shared) →
    Safe T (Interfere Rely) G (fun r s => Post op r s ∧ Idle s) (P.prog op) (w.dev i, w.shared)
  crashes : ∀ {w : World ι δ γ Op I ε} {i}, cond w (.crash i) → Always (w.dev i, w.shared) →
    Always (P.reset (w.dev i), w.shared) ∧ Idle (P.reset (w.dev i), w.shared)

namespace Discipline

variable {P : Protocol δ γ Op I ε} {cond : World ι δ γ Op I ε → Act ι Op P.env.Ev → Prop}
  (D : Discipline P cond)

/-- The rest of party `i`'s program is safe from the present state. -/
def JobOk (w : World ι δ γ Op I ε) (i : ι) : Prop :=
  match w.job i with
  | none => D.Idle (w.dev i, w.shared)
  | some (op, p) => Safe D.T (Interfere D.Rely) D.G (fun r s => D.Post op r s ∧ D.Idle s) p
      (w.dev i, w.shared)

structure Inv (w : World ι δ γ Op I ε) : Prop where
  always : ∀ i, D.Always (w.dev i, w.shared)
  jobs : ∀ i, D.JobOk w i

/-- All parties have the same part. -/
def roles : Roles P cond where
  T _ := D.T
  Rely _ := D.Rely
  G _ := D.G
  Always _ := D.Always
  Idle _ := D.Idle
  Post _ := D.Post
  rely_refl _ := D.rely_refl
  rely_trans := D.rely_trans
  always_mono := D.always_mono
  idle_mono := D.idle_mono
  guarantee h hg := ⟨fun _ _ => (D.guarantee h hg).1, (D.guarantee h hg).2⟩
  calls := D.calls
  starts := D.starts
  crashes := D.crashes

omit [DecidableEq ι] in
theorem roles_inv {w : World ι δ γ Op I ε} : D.roles.Inv w ↔ D.Inv w :=
  ⟨fun h => ⟨h.always, h.jobs⟩, fun h => ⟨h.always, h.jobs⟩⟩

/-- **The invariant holds after every run.** -/
theorem inv_run {w w' : World ι δ γ Op I ε} (hw : D.Inv w) (h : P.Reaches cond w w') :
    D.Inv w' :=
  D.roles_inv.1 (D.roles.inv_run (D.roles_inv.2 hw) h)

omit [DecidableEq ι] in
/-- When an operation has ended, its postcondition holds. -/
theorem post_of_ended {w : World ι δ γ Op I ε} (hw : D.Inv w) {i : ι} {op : Op}
    {r : Except ε Unit} (hj : w.job i = some (op, Prog.ofExcept r)) :
    D.Post op r (w.dev i, w.shared) :=
  D.roles.post_of_ended (D.roles_inv.2 hw) hj

/-- When a job has ended, what its program ends with from where it started holds. -/
theorem ended_started {w₀ w : World ι δ γ Op I ε} {i : ι} {op : Op} (hw : D.Inv w₀)
    (h : P.Started cond w₀ i op w) {Q : Except ε Unit → δ × γ → Prop}
    (hsafe : Safe D.T (Interfere D.Rely) D.G Q (P.prog op) (w₀.dev i, w₀.shared))
    {r : Except ε Unit} (hj : w.job i = some (op, Prog.ofExcept r)) : Q r (w.dev i, w.shared) :=
  D.roles.ended_started (D.roles_inv.2 hw) h hsafe hj

/-- What one action does to the party `j`: nothing, a crash of its own, or a call in `G`. -/
theorem step_effect {w w' : World ι δ γ Op I ε} {a : Act ι Op P.env.Ev} (hw : D.Inv w)
    (hc : cond w a) (hs : P.step a w = some w') (j : ι) :
    (w'.dev j = w.dev j ∧ D.Rely w.shared w'.shared) ∨
      (a = .crash j ∧ w'.dev j = P.reset (w.dev j) ∧ w'.shared = w.shared) ∨
      D.G (w.dev j, w.shared) (w'.dev j, w'.shared) :=
  D.roles.step_effect (D.roles_inv.2 hw) hc hs j

/-- What one action does to the shared state: nothing, or what a call in `G` does. -/
theorem step_shared {w w' : World ι δ γ Op I ε} {a : Act ι Op P.env.Ev} (hw : D.Inv w)
    (hc : cond w a) (hs : P.step a w = some w') :
    w'.shared = w.shared ∨ ∃ i, D.G (w.dev i, w.shared) (w'.dev i, w'.shared) :=
  D.roles.step_shared (D.roles_inv.2 hw) hc hs

/-- The argument for fewer runs. -/
def under {cond' : World ι δ γ Op I ε → Act ι Op P.env.Ev → Prop}
    (hc : ∀ {w a}, cond' w a → cond w a) : Discipline P cond' where
  T := D.T
  Rely := D.Rely
  G := D.G
  Always := D.Always
  Idle := D.Idle
  Post := D.Post
  rely_refl := D.rely_refl
  rely_trans := D.rely_trans
  always_mono := D.always_mono
  idle_mono := D.idle_mono
  guarantee := D.guarantee
  calls h := D.calls (hc h)
  starts h := D.starts (hc h)
  crashes h := D.crashes (hc h)

/-- What single parties know beside the part that all have: of what they have between their
operations and of how these end. They guarantee nothing more to the others. -/
structure Local (D : Discipline P cond) where
  T : ι → (c : I.Call) → δ × γ → I.Ans c → δ × γ → Prop
  Idle : ι → δ × γ → Prop
  Post : ι → Op → Except ε Unit → δ × γ → Prop
  idle_mono : ∀ {i d g g'}, Idle i (d, g) → D.Rely g g' → Idle i (d, g')
  calls : ∀ {w : World ι δ γ Op I ε} {i ev op c k a s'}, cond w (.call i ev) →
    w.job i = some (op, .call c k) → P.env.step c ev (w.dev i, w.shared) = some (a, s') →
    T i c (w.dev i, w.shared) a s'
  starts : ∀ {w : World ι δ γ Op I ε} {i op}, cond w (.start i op) →
    D.Idle (w.dev i, w.shared) → Idle i (w.dev i, w.shared) →
    Safe (T i) (Interfere D.Rely) (fun _ _ => True)
        (fun r s => Post i op r s ∧ Idle i s) (P.prog op)
      (w.dev i, w.shared)
  crashes : ∀ {w : World ι δ γ Op I ε} {i}, cond w (.crash i) → Idle i (P.reset (w.dev i), w.shared)

/-- The argument of all with what single parties know. -/
def Local.roles {D : Discipline P cond} (K : D.Local) : Roles P cond where
  T i c s a s' := D.T c s a s' ∧ K.T i c s a s'
  Rely _ := D.Rely
  G _ := D.G
  Always _ := D.Always
  Idle i s := D.Idle s ∧ K.Idle i s
  Post i op r s := D.Post op r s ∧ K.Post i op r s
  rely_refl _ := D.rely_refl
  rely_trans := D.rely_trans
  always_mono := D.always_mono
  idle_mono h hr := ⟨D.idle_mono h.1 hr, K.idle_mono h.2 hr⟩
  guarantee h hg := ⟨fun _ _ => (D.guarantee h hg).1, (D.guarantee h hg).2⟩
  calls hc hj hs := ⟨D.calls hc hj hs, K.calls hc hj hs⟩
  starts hc hj ha hi := by
    refine ((D.starts hc hj ha hi.1).and (K.starts hc hi.1 hi.2)).imp ?_
    intro r s hx
    obtain ⟨⟨hp, hd⟩, hk, hl⟩ := hx
    exact ⟨⟨hp, hk⟩, hd, hl⟩
  crashes hc ha := by
    obtain ⟨hal, hid⟩ := D.crashes hc ha
    exact ⟨hal, hid, K.crashes hc⟩

end Discipline

/-! ## Simulation -/

section
variable {γ' : Type} {P : Protocol δ γ Op I ε} {P' : Protocol δ γ' Op I ε}

/-- `P'` does what `P` does at a call in `ok`, where its shared state is `R` of the one of `P` and
its environment decides what `M` allows: the parties see the same. -/
structure Simulates (P : Protocol δ γ Op I ε) (P' : Protocol δ γ' Op I ε) (ok : I.Call → Prop)
    (R : γ → γ' → Prop) (M : P.env.Ev → P'.env.Ev → Prop) : Prop where
  prog : P'.prog = P.prog
  reset : P'.reset = P.reset
  call : ∀ {c ev d g g' a d₁ g₁}, ok c → R g g' → P.env.step c ev (d, g) = some (a, d₁, g₁) →
    ∃ ev' g₁', M ev ev' ∧ P'.env.step c ev' (d, g') = some (a, d₁, g₁') ∧ R g₁ g₁'

/-- The action is no call, or one in `ok`. -/
def CallsIn {Ev : Type} (ok : I.Call → Prop) (w : World ι δ γ Op I ε) (a : Act ι Op Ev) : Prop :=
  ∀ i ev op c k, a = .call i ev → w.job i = some (op, .call c k) → ok c

namespace Simulates

variable {ok : I.Call → Prop} {R : γ → γ' → Prop} {M : P.env.Ev → P'.env.Ev → Prop}
    {w w₁ : World ι δ γ Op I ε}
  {g' : γ'}

theorem step (h : Simulates P P' ok R M) {a : Act ι Op P.env.Ev} (hok : CallsIn ok w a)
    (hr : R w.shared g') (hs : P.step a w = some w₁) :
    ∃ a' g₁', a.Matches M a' ∧ R w₁.shared g₁' ∧
      P'.step a' ⟨g', w.dev, w.job⟩ = some ⟨g₁', w₁.dev, w₁.job⟩ := by
  cases a with
  | start i op =>
    obtain ⟨hj, rfl⟩ := step_start hs
    refine ⟨_, g', .start i op, hr, ?_⟩
    simp only [Protocol.step, hj, h.prog]
  | call i ev =>
    obtain ⟨op, c, k, a, d, g, hj, he, rfl⟩ := step_call hs
    obtain ⟨ev', g₁', hm, he', hr'⟩ := h.call (hok i ev op c k rfl hj) hr he
    refine ⟨_, g₁', .call i hm, hr', ?_⟩
    simp only [Protocol.step, hj, he']
  | finish i =>
    obtain ⟨⟨op, r, hj⟩, rfl⟩ := step_finish hs
    refine ⟨_, g', .finish i, hr, ?_⟩
    cases r with
    | ok a => simp only [Protocol.step, hj, Prog.ofExcept]
    | error e => simp only [Protocol.step, hj, Prog.ofExcept]
  | crash i =>
    obtain rfl := step_crash hs
    refine ⟨_, g', .crash i, hr, ?_⟩
    simp only [Protocol.step, h.reset]

/-- **A run of `P` is a run of `P'`** with the same parties. -/
theorem reaches (h : Simulates P P' ok R M) {cond : World ι δ γ Op I ε → Act ι Op P.env.Ev → Prop}
    {cond' : World ι δ γ' Op I ε → Act ι Op P'.env.Ev → Prop}
    (hok : ∀ {w a}, cond w a → CallsIn ok w a)
    (hc : ∀ {w a g' a'}, cond w a → R w.shared g' → a.Matches M a' → cond' ⟨g', w.dev, w.job⟩ a')
    (hr : R w.shared g') (hw : P.Reaches cond w w₁) :
    ∃ g₁', R w₁.shared g₁' ∧ P'.Reaches cond' ⟨g', w.dev, w.job⟩ ⟨g₁', w₁.dev, w₁.job⟩ := by
  induction hw with
  | refl => exact ⟨g', hr, .refl⟩
  | tail _ hs ih =>
    obtain ⟨a, ha, hs⟩ := hs
    obtain ⟨g₁', hr₁, hw₁⟩ := ih
    obtain ⟨a', g₂', hm, hr₂, hs'⟩ := h.step (hok ha) hr₁ hs
    exact ⟨g₂', hr₂, hw₁.tail ⟨_, hc ha hr₁ hm, hs'⟩⟩

end Simulates

end

end Protocol

end Lib
