import Mathlib.Algebra.BigOperators.Ring.List
import Mathlib.Algebra.Order.Field.Basic
import Mathlib.Tactic.GCongr

/-!
# `Theory.WeightedMean` — weighted averages

A list of weighted values, each a weight with a value; the mean is the weighted sum over the sum of the weights.

## Contents
- `total`, `weighted`, `mean`. `foldl_eq`: the two sums computed in one pass.
- `mean_mono`: raising values raises the mean. `mean_bounds`: values in `[0, 1]` have their mean there.
-/

namespace Theory
namespace WeightedMean

variable {K : Type} [Field K]

def total (xs : List (K × K)) : K := (xs.map Prod.fst).sum

def weighted (xs : List (K × K)) : K := (xs.map fun x => x.1 * x.2).sum

def mean (xs : List (K × K)) : K := weighted xs / total xs

/-- One pass with two accumulators computes both sums. -/
theorem foldl_eq (xs : List (K × K)) (t w : K) :
    xs.foldl (fun acc x => (acc.1 + x.1, acc.2 + x.1 * x.2)) (t, w) = (t + total xs, w + weighted xs) := by
  induction xs generalizing t w with
  | nil => simp [total, weighted]
  | cons x xs ih =>
      rw [List.foldl_cons, ih]
      simp only [total, weighted, List.map_cons, List.sum_cons, add_assoc]

variable [LinearOrder K] [IsStrictOrderedRing K]

/-- `ys` has the weights of `xs`, none negative, and no value below that of `xs`. -/
def Below (xs ys : List (K × K)) : Prop := List.Forall₂ (fun x y => x.1 = y.1 ∧ 0 ≤ x.1 ∧ x.2 ≤ y.2) xs ys

omit [IsStrictOrderedRing K] in
theorem total_eq {xs ys : List (K × K)} (h : Below xs ys) : total xs = total ys := by
  induction h with
  | nil => rfl
  | cons hxy _ ih =>
      simp only [total, List.map_cons, List.sum_cons] at ih ⊢
      rw [hxy.1, ih]

theorem weighted_le {xs ys : List (K × K)} (h : Below xs ys) : weighted xs ≤ weighted ys := by
  induction h with
  | nil => exact le_refl _
  | @cons x y xs ys hxy _ ih =>
      obtain ⟨hweight, hnonneg, hvalue⟩ := hxy
      have hhead : x.1 * x.2 ≤ y.1 * y.2 := by
        rw [← hweight]
        exact mul_le_mul_of_nonneg_left hvalue hnonneg
      simp only [weighted, List.map_cons, List.sum_cons] at ih ⊢
      exact add_le_add hhead ih

/-- **Raising values raises the mean.** -/
theorem mean_mono {xs ys : List (K × K)} (h : Below xs ys) (htotal : 0 < total xs) : mean xs ≤ mean ys := by
  unfold mean
  rw [← total_eq h]
  have := weighted_le h
  gcongr

omit [IsStrictOrderedRing K] in
/-- A list whose values are all `c` has mean `c`. -/
theorem mean_const {xs : List (K × K)} {c : K} (h : ∀ x ∈ xs, x.2 = c) (htotal : 0 < total xs) : mean xs = c := by
  have hweighted : weighted xs = total xs * c := by
    unfold weighted total
    rw [← List.sum_map_mul_right]
    exact congrArg List.sum (List.map_congr_left fun x hx => by rw [h x hx])
  rw [mean, hweighted, mul_div_cancel_left₀ c htotal.ne']

/-- **Values in `[0, 1]` have their mean there.** -/
theorem mean_bounds {xs : List (K × K)} (h : ∀ x ∈ xs, 0 ≤ x.1 ∧ 0 ≤ x.2 ∧ x.2 ≤ 1) (htotal : 0 < total xs) :
    0 ≤ mean xs ∧ mean xs ≤ 1 := by
  have hlevel : ∀ c : K, total (xs.map fun x => (x.1, c)) = total xs := fun c => by
    simp only [total, List.map_map, Function.comp_def]
  have hmean : ∀ c : K, mean (xs.map fun x => (x.1, c)) = c := fun c =>
    mean_const (fun y hy => by obtain ⟨x, _, rfl⟩ := List.mem_map.mp hy; rfl) (by rwa [hlevel])
  have hzero : Below (xs.map fun x => (x.1, 0)) xs :=
    List.forall₂_map_left_iff.mpr (List.forall₂_same.mpr fun x hx => ⟨rfl, (h x hx).1, (h x hx).2.1⟩)
  have hone : Below xs (xs.map fun x => (x.1, 1)) :=
    List.forall₂_map_right_iff.mpr (List.forall₂_same.mpr fun x hx => ⟨rfl, (h x hx).1, (h x hx).2.2⟩)
  constructor
  · calc 0 = mean (xs.map fun x => (x.1, 0)) := (hmean 0).symm
      _ ≤ mean xs := mean_mono hzero (by rwa [hlevel])
  · calc mean xs ≤ mean (xs.map fun x => (x.1, 1)) := mean_mono hone htotal
      _ = 1 := hmean 1

end WeightedMean
end Theory
