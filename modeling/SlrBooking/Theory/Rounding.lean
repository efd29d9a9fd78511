import Mathlib.Algebra.BigOperators.Group.List.Basic
import Mathlib.Algebra.Order.Round
import Mathlib.Data.Rat.Floor
import Mathlib.Tactic.Linarith
import Mathlib.Tactic.Push

/-!
# `Theory.Rounding` — sums of rounded parts against the rounded sum

`round` rounds half up: it exceeds its argument by at most a half and falls short of it by less than a half. The
errors of `k` parts and of their sum add up to less than `(k + 1) / 2`.

## Contents
- `round_error`, `sum_round_error`.
- `abs_sum_round_sub_round_sum`.
-/

namespace Theory
namespace Rounding

/-- The error of one rounding. -/
theorem round_error (x : ℚ) : -(1 / 2 : ℚ) < round x - x ∧ (round x : ℚ) - x ≤ 1 / 2 := by
  obtain ⟨hlow, hhigh⟩ := round_eq_iff.mp (rfl : round x = round x)
  constructor <;> linarith

/-- The errors of the parts add up. -/
theorem sum_round_error (xs : List ℚ) :
    -(xs.length / 2 : ℚ) ≤ ((xs.map round).sum : ℤ) - xs.sum ∧
      (((xs.map round).sum : ℤ) : ℚ) - xs.sum ≤ xs.length / 2 := by
  induction xs with
  | nil => simp
  | cons x xs ih =>
      obtain ⟨hlow, hhigh⟩ := round_error x
      obtain ⟨ihlow, ihhigh⟩ := ih
      simp only [List.map_cons, List.sum_cons, List.length_cons, Int.cast_add, Nat.cast_add, Nat.cast_one]
      constructor <;> linarith

/-- One part at least falls short of its value by less than a half. -/
theorem neg_lt_sum_round_error {xs : List ℚ} (h : xs ≠ []) :
    -(xs.length / 2 : ℚ) < ((xs.map round).sum : ℤ) - xs.sum := by
  cases xs with
  | nil => exact absurd rfl h
  | cons x xs =>
      obtain ⟨hlow, -⟩ := round_error x
      obtain ⟨hrest, -⟩ := sum_round_error xs
      simp only [List.map_cons, List.sum_cons, List.length_cons, Int.cast_add, Nat.cast_add, Nat.cast_one]
      linarith

/-- **Rounding the parts or the sum** differs by at most half the number of parts, rounded down. -/
theorem abs_sum_round_sub_round_sum {xs : List ℚ} (h : xs ≠ []) :
    |(xs.map round).sum - round xs.sum| ≤ (xs.length / 2 : ℕ) := by
  have hlow := neg_lt_sum_round_error h
  obtain ⟨-, hhigh⟩ := sum_round_error xs
  obtain ⟨hlow', hhigh'⟩ := round_error xs.sum
  generalize (xs.map round).sum = parts at hlow hhigh ⊢
  generalize round xs.sum = whole at hlow' hhigh' ⊢
  -- the difference is an integer whose double lies strictly within k + 1
  have hupper : (2 : ℚ) * (parts - whole : ℤ) < xs.length + 1 := by
    push_cast
    linarith
  have hlower : -((xs.length : ℚ) + 1) < 2 * (parts - whole : ℤ) := by
    push_cast
    linarith
  have hupper' : 2 * (parts - whole) < (xs.length : ℤ) + 1 := by exact_mod_cast hupper
  have hlower' : -((xs.length : ℤ) + 1) < 2 * (parts - whole) := by exact_mod_cast hlower
  rw [abs_le]
  omega

end Rounding
end Theory
