import Mathlib.Algebra.Group.Nat.Defs
import Mathlib.Logic.Basic

/-!
# Runs that may fault

`Outcome` is what a run of imperative code ends with: a value, an early return of nothing, a fault
(an index out of range, an overflow, an exception), or no end at all, which is running out of fuel.
The accesses and the arithmetic of machine integers are checked, so that the lack of a fault is
something to prove.

`loop` is a `while` loop. `loop_rule` is total correctness: a measure that each turn lowers, and a
specification that each turn carries from the rest of the loop to the whole.
-/

namespace Lib

inductive Outcome (α : Type) where
  | ok (a : α)
  | none
  | fault
  | spin
deriving DecidableEq

/-- The width of `usize`. -/
inductive PointerWidth where
  | w32
  | w64
deriving DecidableEq

def PointerWidth.bits : PointerWidth → Nat
  | w32 => 32
  | w64 => 64

/-- Bytes in memory: no allocation has more than half of the addresses. -/
abbrev Slice (w : PointerWidth) := { bytes : List UInt8 // bytes.length < 2 ^ (w.bits - 1) }

namespace Outcome

variable {α β σ : Type}

def bind : Outcome α → (α → Outcome β) → Outcome β
  | ok a, f => f a
  | none, _ => none
  | fault, _ => fault
  | spin, _ => spin

instance : Monad Outcome where
  pure := ok
  bind := bind

@[simp] theorem pure_eq (a : α) : (pure a : Outcome α) = ok a := rfl
@[simp] theorem ok_bind (a : α) (f : α → Outcome β) : (ok a >>= f) = f a := rfl
@[simp] theorem none_bind (f : α → Outcome β) : (none >>= f) = none := rfl
@[simp] theorem fault_bind (f : α → Outcome β) : (fault >>= f) = fault := rfl
@[simp] theorem spin_bind (f : α → Outcome β) : (spin >>= f) = spin := rfl

/-! ## Checked operations -/

/-- The operator `?`. -/
def ofOption : Option α → Outcome α
  | some a => ok a
  | .none => none

/-- An access that faults outside of the list. -/
def index (xs : List α) (i : Nat) : Outcome α :=
  match xs[i]? with
  | some a => ok a
  | .none => fault

/-- `get` of a range. -/
def getRange (xs : List α) (start stop : Nat) : Option (List α) :=
  if start ≤ stop ∧ stop ≤ xs.length then some ((xs.take stop).drop start) else .none

/-- A range that faults outside of the list. -/
def slice (xs : List α) (start stop : Nat) : Outcome (List α) :=
  match getRange xs start stop with
  | some ys => ok ys
  | .none => fault

def checkedAdd (w : PointerWidth) (a b : Nat) : Option Nat :=
  if a + b < 2 ^ w.bits then some (a + b) else .none

def add (w : PointerWidth) (a b : Nat) : Outcome Nat :=
  if a + b < 2 ^ w.bits then ok (a + b) else fault

def sub (a b : Nat) : Outcome Nat := if b ≤ a then ok (a - b) else fault

def mul (w : PointerWidth) (a b : Nat) : Outcome Nat :=
  if a * b < 2 ^ w.bits then ok (a * b) else fault

@[simp] theorem ofOption_some (a : α) : ofOption (some a) = ok a := rfl
@[simp] theorem ofOption_none : ofOption (.none : Option α) = none := rfl

theorem index_eq {xs : List α} {i : Nat} (h : i < xs.length) : index xs i = ok xs[i] := by
  rw [index, List.getElem?_eq_getElem h]

theorem add_eq {w : PointerWidth} {a b : Nat} (h : a + b < 2 ^ w.bits) : add w a b = ok (a + b) :=
  if_pos h

theorem sub_eq {a b : Nat} (h : b ≤ a) : sub a b = ok (a - b) := if_pos h

theorem mul_eq {w : PointerWidth} {a b : Nat} (h : a * b < 2 ^ w.bits) : mul w a b = ok (a * b) :=
  if_pos h

/-- The smallest width is enough for a bound. -/
theorem lt_bits {n : Nat} (w : PointerWidth) (h : n < 2 ^ 32) : n < 2 ^ w.bits := by
  cases w with
  | w32 => exact h
  | w64 => exact Nat.lt_of_lt_of_le h (by decide)

/-! ## What is left from an offset on -/

theorem drop_cases (xs : List α) (offset : Nat) :
    (xs.length ≤ offset ∧ xs.drop offset = []) ∨
      ∃ first tail, offset < xs.length ∧ xs.drop offset = first :: tail := by
  by_cases hlt : offset < xs.length
  · exact .inr ⟨_, _, hlt, List.drop_eq_getElem_cons hlt⟩
  · exact .inl ⟨by omega, List.drop_eq_nil_of_le (by omega)⟩

theorem getElem?_drop_eq {xs tail : List α} {offset : Nat} (ht : xs.drop offset = tail) (i : Nat) :
    xs[offset + i]? = tail[i]? := by
  rw [← ht, List.getElem?_drop]

/-! ## Loops -/

/-- A turn goes on from a state, or ends the loop with a value. -/
def loop (turn : σ → Outcome (σ ⊕ α)) : Nat → σ → Outcome α
  | 0, _ => spin
  | fuel + 1, s => do
    match ← turn s with
    | .inl s => loop turn fuel s
    | .inr a => ok a

/-- What a turn from `s` must do: lower the measure and leave the rest to the specification, or meet
it. -/
def TurnMeets (inv : σ → Prop) (measure : σ → Nat) (spec : σ → Outcome α → Prop) (s : σ) :
    Outcome (σ ⊕ α) → Prop
  | ok (.inl t) => inv t ∧ measure t < measure s ∧ ∀ r, spec t r → spec s r
  | ok (.inr a) => spec s (ok a)
  | none => spec s none
  | fault => spec s fault
  | spin => spec s spin

theorem loop_rule {turn : σ → Outcome (σ ⊕ α)} {inv : σ → Prop} {measure : σ → Nat}
    {spec : σ → Outcome α → Prop} (h : ∀ s, inv s → TurnMeets inv measure spec s (turn s)) :
    ∀ fuel s, inv s → measure s < fuel → spec s (loop turn fuel s) := by
  intro fuel
  induction fuel with
  | zero =>
    intro s _ hm
    omega
  | succ fuel ih =>
    intro s hs hm
    have ht := h s hs
    unfold loop
    cases hr : turn s with
    | ok r =>
      rw [hr] at ht
      cases r with
      | inl t =>
        obtain ⟨hinv, hlt, hspec⟩ := ht
        exact hspec _ (ih t hinv (by omega))
      | inr a => exact ht
    | none =>
      rw [hr] at ht
      exact ht
    | fault =>
      rw [hr] at ht
      exact ht
    | spin =>
      rw [hr] at ht
      exact ht

end Outcome

end Lib
