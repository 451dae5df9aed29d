import SdkPubkey.Lib.Parties

/-!
# Two programs side by side

A `Joint` has two programs, each with a state of its own and a result of its own, and the state they
share. `Joint.Step` is the next call of either; the calls of the two come in any order.

* `Guarded`: each of the two is `Safe` where the other guarantees what it relies on. That stays so
  in every order (`Guarded.reaches`), and says how each of them ends (`Guarded.left_ended`,
  `Guarded.right_ended`).
* `Joint.acc`: no order of the calls goes on for ever; `Joint.goes_on`: where all calls can be
  answered, one of the two makes its next call unless both have ended.
* `Joint.left_progress`, `Joint.right_progress`: what a program does on its own, it can do beside
  the other.
-/

namespace Lib

open Protocol

/-- Two programs, the states of their own and the state they share. -/
structure Joint (I : Iface) (ε α β δ γ : Type) where
  left : Prog I ε α
  right : Prog I ε β
  leftOwn : δ
  rightOwn : δ
  shared : γ

namespace Joint

variable {I : Iface} {ε α β δ γ : Type} (T : (c : I.Call) → δ × γ → I.Ans c → δ × γ → Prop)

inductive Step : Joint I ε α β δ γ → Joint I ε α β δ γ → Prop
  | left {c : I.Call} {k : I.Ans c → Prog I ε α} {q : Prog I ε β} {d d' e : δ}
      {g g' : γ} {a : I.Ans c}
      (h : T c (d, g) a (d', g')) : Step ⟨.call c k, q, d, e, g⟩ ⟨k a, q, d', e, g'⟩
  | right {c : I.Call} {k : I.Ans c → Prog I ε β} {p : Prog I ε α} {d e e' : δ}
      {g g' : γ} {a : I.Ans c}
      (h : T c (e, g) a (e', g')) : Step ⟨p, .call c k, d, e, g⟩ ⟨p, k a, d, e', g'⟩

abbrev Reaches : Joint I ε α β δ γ → Joint I ε α β δ γ → Prop := Relation.ReflTransGen (Step T)

/-- Both programs have ended. -/
def Ended (w : Joint I ε α β δ γ) : Prop := ∃ r r', w.left = .ofExcept r ∧ w.right = .ofExcept r'

variable {T} {w w' : Joint I ε α β δ γ}

/-! ## Progress -/

/-- The calls of the two come to an end in every order. -/
theorem acc (w : Joint I ε α β δ γ) : Acc (flip (Step T)) w := by
  obtain ⟨p, q, d, e, g⟩ := w
  -- a step leaves a part of one of the two programs
  induction p generalizing q d e g with
  | call c k ih =>
    induction q generalizing d e g with
    | call c' k' ih' =>
      refine ⟨_, fun w h => ?_⟩
      cases h with
      | left h => exact ih _ _ _ _ _
      | right h => exact ih' _ _ _ _
    | _ =>
      refine ⟨_, fun w h => ?_⟩
      cases h with
      | left h => exact ih _ _ _ _ _
  | _ =>
    induction q generalizing d e g with
    | call c' k' ih' =>
      refine ⟨_, fun w h => ?_⟩
      cases h with
      | right h => exact ih' _ _ _ _
    | _ =>
      refine ⟨_, fun w h => ?_⟩
      cases h

section
variable {P : I.Call → Prop}

theorem Step.within (h : Step T w w') (hw : w.left.Within P ∧ w.right.Within P) :
    w'.left.Within P ∧ w'.right.Within P := by
  cases h with
  | left h => exact ⟨hw.1.2 _, hw.2⟩
  | right h => exact ⟨hw.1, hw.2.2 _⟩

theorem within_reaches (h : Reaches T w w') (hw : w.left.Within P ∧ w.right.Within P) :
    w'.left.Within P ∧ w'.right.Within P := by
  induction h with
  | refl => exact hw
  | tail _ hs ih => exact hs.within ih

variable (hT : ∀ c, P c → ∀ s, ∃ a s', T c s a s')
include hT

/-- Neither waits for the other: unless both have ended, there is a next call. -/
theorem goes_on (hw : w.left.Within P ∧ w.right.Within P) : w.Ended ∨ ∃ w', Step T w w' := by
  obtain ⟨p, q, d, e, g⟩ := w
  cases p with
  | call c k =>
    obtain ⟨a, ⟨d', g'⟩, ht⟩ := hT c hw.1.1 (d, g)
    exact .inr ⟨_, .left ht⟩
  | ret x =>
    cases q with
    | call c k =>
      obtain ⟨a, ⟨e', g'⟩, ht⟩ := hT c hw.2.1 (e, g)
      exact .inr ⟨_, .right ht⟩
    | ret y => exact .inl ⟨.ok x, .ok y, rfl, rfl⟩
    | raise y => exact .inl ⟨.ok x, .error y, rfl, rfl⟩
  | raise x =>
    cases q with
    | call c k =>
      obtain ⟨a, ⟨e', g'⟩, ht⟩ := hT c hw.2.1 (e, g)
      exact .inr ⟨_, .right ht⟩
    | ret y => exact .inl ⟨.error x, .ok y, rfl, rfl⟩
    | raise y => exact .inl ⟨.error x, .error y, rfl, rfl⟩

end

/-- The first program makes the calls it makes on its own. -/
theorem left_progress {p p' : Prog I ε α} {q : Prog I ε β} {d d' e : δ} {g g' : γ}
    {tr : List (Event I)} (h : Progress T p (d, g) tr p' (d', g')) :
    Reaches T ⟨p, q, d, e, g⟩ ⟨p', q, d', e, g'⟩ := by
  suffices hgo : ∀ {s s'}, Progress T p s tr p' s' →
      Reaches T ⟨p, q, s.1, e, s.2⟩ ⟨p', q, s'.1, e, s'.2⟩ from hgo h
  clear h
  intro s s' h
  induction h with
  | refl => exact .refl
  | call ht _ ih => exact .head (.left ht) ih

theorem right_progress {p : Prog I ε α} {q q' : Prog I ε β} {d e e' : δ} {g g' : γ}
    {tr : List (Event I)} (h : Progress T q (e, g) tr q' (e', g')) :
    Reaches T ⟨p, q, d, e, g⟩ ⟨p, q', d, e', g'⟩ := by
  suffices hgo : ∀ {s s'}, Progress T q s tr q' s' →
      Reaches T ⟨p, q, d, s.1, s.2⟩ ⟨p, q', d, s'.1, s'.2⟩ from hgo h
  clear h
  intro s s' h
  induction h with
  | refl => exact .refl
  | call ht _ ih => exact .head (.right ht) ih

/-! ## Rely and guarantee -/

/-- Each of the two is safe beside the other: the steps of the first are in `R₂`, which the second
relies on, those of the second in `R₁`. -/
structure Guarded (T : (c : I.Call) → δ × γ → I.Ans c → δ × γ → Prop) (R₁ R₂ : γ → γ → Prop)
    (Q₁ : Except ε α → δ × γ → Prop) (Q₂ : Except ε β → δ × γ → Prop) (w : Joint I ε α β δ γ) :
    Prop where
  left : Safe T (Interfere R₁) (fun s s' => R₂ s.2 s'.2) Q₁ w.left (w.leftOwn, w.shared)
  right : Safe T (Interfere R₂) (fun s s' => R₁ s.2 s'.2) Q₂ w.right (w.rightOwn, w.shared)

namespace Guarded

variable {R₁ R₂ : γ → γ → Prop} {Q₁ : Except ε α → δ × γ → Prop} {Q₂ : Except ε β → δ × γ → Prop}
  (hrf₁ : ∀ g, R₁ g g) (hrf₂ : ∀ g, R₂ g g)
include hrf₁ hrf₂

theorem step (htr₁ : ∀ {a b c}, R₁ a b → R₁ b c → R₁ a c)
    (htr₂ : ∀ {a b c}, R₂ a b → R₂ b c → R₂ a c) (hw : Guarded T R₁ R₂ Q₁ Q₂ w) (h : Step T w w') :
    Guarded T R₁ R₂ Q₁ Q₂ w' := by
  cases h with
  | left h =>
    obtain ⟨hg, hs⟩ := hw.left _ ⟨rfl, hrf₁ _⟩ _ _ h
    exact ⟨hs, hw.right.mono (fun h1 h2 => ⟨h2.1.trans h1.1, htr₂ h1.2 h2.2⟩) ⟨rfl, hg⟩⟩
  | right h =>
    obtain ⟨hg, hs⟩ := hw.right _ ⟨rfl, hrf₂ _⟩ _ _ h
    exact ⟨hw.left.mono (fun h1 h2 => ⟨h2.1.trans h1.1, htr₁ h1.2 h2.2⟩) ⟨rfl, hg⟩, hs⟩

theorem reaches (htr₁ : ∀ {a b c}, R₁ a b → R₁ b c → R₁ a c)
    (htr₂ : ∀ {a b c}, R₂ a b → R₂ b c → R₂ a c) (hw : Guarded T R₁ R₂ Q₁ Q₂ w)
    (h : Reaches T w w') : Guarded T R₁ R₂ Q₁ Q₂ w' := by
  induction h with
  | refl => exact hw
  | tail _ hs ih => exact ih.step hrf₁ hrf₂ htr₁ htr₂ hs

omit hrf₂ in
/-- Where the first program has ended, its postcondition holds. -/
theorem left_ended (hw : Guarded T R₁ R₂ Q₁ Q₂ w) {r : Except ε α} (h : w.left = .ofExcept r) :
    Q₁ r (w.leftOwn, w.shared) := by
  have hl := hw.left
  rw [h] at hl
  cases r <;> exact hl _ ⟨rfl, hrf₁ _⟩

omit hrf₁ in
theorem right_ended (hw : Guarded T R₁ R₂ Q₁ Q₂ w) {r : Except ε β} (h : w.right = .ofExcept r) :
    Q₂ r (w.rightOwn, w.shared) := by
  have hr := hw.right
  rw [h] at hr
  cases r <;> exact hr _ ⟨rfl, hrf₂ _⟩

end Guarded

end Joint

end Lib
