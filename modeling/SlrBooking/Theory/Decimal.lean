import Mathlib.Data.List.Basic
import Mathlib.Data.List.Induction
import Mathlib.Data.Nat.Digits.Defs
import Mathlib.Order.Lattice

/-!
# `Theory.Decimal` — decimal numerals as digit lists

Digits stand most significant first. `Nat.toDigits 10` prints without a leading zero.

## Contents
- `value`, with `value_append`; `value_le_of_prefix`, `ten_mul_value_le`: a prefix writes a smaller number.
- `front_of_toDigits`: what stands in front in a printed number is itself a printed number.
- `toDigits_eq_append`: **when a text in front of a printed number prints a number.**
-/

namespace Theory.Decimal

/-- The number the digits write. -/
def value (ds : List Nat) : Nat := ds.foldl (fun n d => 10 * n + d) 0

@[simp] theorem value_nil : value [] = 0 := rfl

theorem foldl_value (ds : List Nat) (n : Nat) :
    ds.foldl (fun n d => 10 * n + d) n = n * 10 ^ ds.length + value ds := by
  induction ds generalizing n with
  | nil => simp
  | cons d ds ih =>
      have hvalue : value (d :: ds) = d * 10 ^ ds.length + value ds := by
        rw [value, List.foldl_cons, ih]
        simp
      rw [List.foldl_cons, ih, hvalue, List.length_cons, Nat.pow_succ]
      ring

theorem value_append (xs ys : List Nat) : value (xs ++ ys) = value xs * 10 ^ ys.length + value ys := by
  rw [value, List.foldl_append, foldl_value]
  rfl

theorem value_le_of_prefix {xs ys : List Nat} (h : xs <+: ys) : value xs ≤ value ys := by
  obtain ⟨zs, rfl⟩ := h
  rw [value_append]
  have hpos : 0 < 10 ^ zs.length := Nat.pow_pos (by decide)
  have hle : value xs * 1 ≤ value xs * 10 ^ zs.length := Nat.mul_le_mul_left _ hpos
  omega

/-- A digit cut off divides by ten. -/
theorem ten_mul_value_le (xs zs : List Nat) (h : zs ≠ []) : 10 * value xs ≤ value (xs ++ zs) := by
  rw [value_append]
  have hlen := List.length_pos_iff.mpr h
  have hpow : 10 ^ 1 ≤ 10 ^ zs.length := Nat.pow_le_pow_right (by decide) hlen
  have hle : value xs * 10 ^ 1 ≤ value xs * 10 ^ zs.length := Nat.mul_le_mul_left _ hpow
  omega

/-! ## Printed numbers -/

theorem toDigits_inj {m n : Nat} (h : Nat.toDigits 10 m = Nat.toDigits 10 n) : m = n := by
  have hread := congrArg (fun cs => Nat.ofDigitChars 10 cs 0) h
  simpa using hread

/-- What stands in front in a printed number is a printed number, and the number grows by the digits behind. -/
theorem front_of_toDigits {n : Nat} {front back : List Char} (h : Nat.toDigits 10 n = front ++ back)
    (hfront : front ≠ []) : front = Nat.toDigits 10 (n / 10 ^ back.length) := by
  induction back using List.reverseRecOn generalizing n with
  | nil => simpa using h.symm
  | append_singleton back c ih =>
      rw [← List.append_assoc] at h
      have hbig : 10 ≤ n := by
        by_contra hsmall
        rw [Nat.toDigits_of_lt_base (by omega)] at h
        have hlen := congrArg List.length h
        have hpos := List.length_pos_iff.mpr hfront
        simp at hlen
        omega
      -- The last digit goes first.
      rw [Nat.toDigits_of_base_le (by decide) hbig] at h
      have hrest := (List.append_inj' h rfl).1
      rw [ih hrest, List.length_append, List.length_singleton, Nat.pow_succ', Nat.div_div_eq_div_mul]

/-- **When a text in front of a printed number prints a number**: it is itself a printed number other than 0, and with a
    single digit behind it already prints ten times as much. -/
theorem toDigits_eq_append {m n : Nat} {front : List Char} (h : Nat.toDigits 10 m = front ++ Nat.toDigits 10 n)
    (hfront : front ≠ []) (hn : 1 ≤ n) : ∃ k, 1 ≤ k ∧ front = Nat.toDigits 10 k ∧ 10 * k + 1 ≤ m := by
  have hprinted := front_of_toDigits h hfront
  generalize m / 10 ^ (Nat.toDigits 10 n).length = k at hprinted
  -- Read back, the text is the front shifted plus the number behind it.
  have hread : m = 10 ^ (Nat.toDigits 10 n).length * k + n := by
    have hvalue := congrArg (fun cs => Nat.ofDigitChars 10 cs 0) h
    rw [hprinted] at hvalue
    simp only [Nat.ofDigitChars_append, Nat.ofDigitChars_ten_toDigits] at hvalue
    rw [Nat.ofDigitChars_eq_ofDigitChars_zero, Nat.ofDigitChars_ten_toDigits] at hvalue
    exact hvalue
  refine ⟨k, ?_, hprinted, ?_⟩
  · -- A front of 0 would be dropped in printing.
    by_contra hzero
    obtain rfl : k = 0 := by omega
    rw [Nat.mul_zero, Nat.zero_add] at hread
    have hlong := congrArg List.length h
    have hpos := List.length_pos_iff.mpr hfront
    rw [hread, List.length_append] at hlong
    omega
  · have hlen : 0 < (Nat.toDigits 10 n).length := Nat.length_toDigits_pos
    have hpow : 10 ^ 1 ≤ 10 ^ (Nat.toDigits 10 n).length := Nat.pow_le_pow_right (by decide) hlen
    have hle := Nat.mul_le_mul_right k hpow
    omega

end Theory.Decimal
