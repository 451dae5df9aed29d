import Mathlib.Data.Nat.Bitwise
import Mathlib.Data.List.Induction
import Mathlib.Tactic.Ring

/-!
# Changing the base of a number with an accumulator

`numeral b ds` is the number with the digits `ds` in the base `b`, the most significant first. A
number can be written in another base word by word: words are shifted into an accumulator, and whole
digits are taken off above the bits that are left. `Buffers` is the invariant of such a loop. A word
shifted in (`Buffers.refill`), a digit taken off (`Buffers.emit`) and whatever happens above the
bits that are left (`Buffers.keep`) preserve it.
-/

namespace Lib.Radix

/-! ## Numerals -/

def numeral (b : Nat) : List Nat → Nat := List.foldl (fun n d => n * b + d) 0

theorem numeral_concat (b : Nat) (ds : List Nat) (d : Nat) : numeral b (ds ++ [d]) =
    numeral b ds * b + d := by
  simp [numeral]

/-! ## The accumulator -/

/-- The number is the digits of `v` bits written so far, and behind them the low `bits` of the
accumulator. -/
def Buffers (v n : Nat) (ds : List Nat) (acc bits : Nat) : Prop :=
  n = numeral (2 ^ v) ds * 2 ^ bits + acc % 2 ^ bits

variable {v n bits acc : Nat} {ds : List Nat}

theorem Buffers.start (v : Nat) : Buffers v 0 [] 0 0 := rfl

theorem Buffers.done (h : Buffers v n ds acc 0) : numeral (2 ^ v) ds = n := by
  rw [h, Nat.pow_zero, Nat.mod_one, Nat.mul_one, Nat.add_zero]

/-- Only the low bits of the accumulator matter. -/
theorem Buffers.keep {acc' : Nat} (hkeep : ∀ j < bits, acc'.testBit j = acc.testBit j)
    (h : Buffers v n ds acc bits) : Buffers v n ds acc' bits := by
  have hmod : acc' % 2 ^ bits = acc % 2 ^ bits := by
    apply Nat.eq_of_testBit_eq
    intro j
    rw [Nat.testBit_mod_two_pow, Nat.testBit_mod_two_pow]
    by_cases hj : j < bits
    · rw [hkeep j hj]
    · simp [hj]
  rw [Buffers, hmod]
  exact h

theorem Buffers.refill {w x : Nat} (hx : x < 2 ^ w) (h : Buffers v n ds acc bits) :
    Buffers v (n * 2 ^ w + x) ds (acc <<< w ||| x) (bits + w) := by
  have hor : acc <<< w ||| x = acc * 2 ^ w + x := by
    rw [← Nat.shiftLeft_add_eq_or_of_lt hx, Nat.shiftLeft_eq]
  have hmod : (acc * 2 ^ w + x) % 2 ^ (bits + w) = acc % 2 ^ bits * 2 ^ w + x := by
    have hdiv : (acc * 2 ^ w + x) / 2 ^ w = acc := by
      rw [Nat.mul_comm, Nat.mul_add_div (Nat.two_pow_pos w), Nat.div_eq_of_lt hx, Nat.add_zero]
    have hrem : (acc * 2 ^ w + x) % 2 ^ w = x := by
      rw [Nat.mul_comm, Nat.mul_add_mod, Nat.mod_eq_of_lt hx]
    rw [Nat.add_comm bits w, Nat.pow_add, Nat.mod_mul, hdiv, hrem, Nat.add_comm, Nat.mul_comm]
  have hnum : n * 2 ^ w + x = numeral (2 ^ v) ds * 2 ^ (bits + w) +
      (acc % 2 ^ bits * 2 ^ w + x) := by
    have hn : n = _ := h
    rw [hn, Nat.pow_add]
    ring
  rw [Buffers, hor, hmod]
  exact hnum

theorem Buffers.emit (h : Buffers v n ds acc (bits + v)) :
    Buffers v n (ds ++ [(acc >>> bits) &&& (2 ^ v - 1)]) acc bits := by
  have hdigit : (acc >>> bits) &&& (2 ^ v - 1) = acc / 2 ^ bits % 2 ^ v := by
    rw [Nat.and_two_pow_sub_one_eq_mod, Nat.shiftRight_eq_div_pow]
  have hsplit : acc % 2 ^ (bits + v) = acc % 2 ^ bits + 2 ^ bits * (acc / 2 ^ bits % 2 ^ v) := by
    rw [Nat.pow_add, Nat.mod_mul]
  have hn : n = numeral (2 ^ v) ds * 2 ^ (bits + v) + acc % 2 ^ (bits + v) := h
  rw [Buffers, hdigit, numeral_concat, hn, hsplit, Nat.pow_add]
  ring

end Lib.Radix
