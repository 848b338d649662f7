import Mathlib.Algebra.BigOperators.Group.List.Basic
import Mathlib.Algebra.Order.BigOperators.Group.List
import Mathlib.Algebra.Order.Field.Basic
import Mathlib.Data.List.Forall2

/-! Means of lists, and means by weights. -/
namespace Means
open List
universe u
variable {α : Type u} [Field α]

def mean (xs : List α) : α := xs.sum / xs.length

theorem mean_perm {xs ys : List α} (h : xs.Perm ys) : mean xs = mean ys := by
  rw [mean, mean, h.sum_eq, h.length_eq]

/-- The mean of the second components by the weights in the first. -/
def weightedMean (parts : List (α × α)) : α := (parts.map fun p => p.1 * p.2).sum / (parts.map Prod.fst).sum

variable [LinearOrder α] [IsStrictOrderedRing α]

theorem sum_le_sum {xs ys : List α} (h : List.Forall₂ (· ≤ ·) xs ys) : xs.sum ≤ ys.sum := by
  induction h with
  | nil => exact le_refl _
  | cons hle _ ih =>
    rw [sum_cons, sum_cons]
    exact add_le_add hle ih

theorem mean_mono {xs ys : List α} (h : List.Forall₂ (· ≤ ·) xs ys) : mean xs ≤ mean ys := by
  rw [mean, mean, h.length_eq]
  exact div_le_div_of_nonneg_right (sum_le_sum h) (Nat.cast_nonneg _)

theorem weightedMean_mono {ps qs : List (α × α)}
    (h : List.Forall₂ (fun p q => p.1 = q.1 ∧ 0 ≤ p.1 ∧ p.2 ≤ q.2) ps qs) : weightedMean ps ≤ weightedMean qs := by
  have hweights : ps.map Prod.fst = qs.map Prod.fst := by
    induction h with
    | nil => rfl
    | cons hpq _ ih => rw [map_cons, map_cons, hpq.1, ih]
  have hnonneg : 0 ≤ (ps.map Prod.fst).sum := by
    induction h with
    | nil => exact le_refl _
    | cons hpq _ ih =>
      rw [map_cons, sum_cons]
      exact add_nonneg hpq.2.1 (ih (tail_eq_of_cons_eq hweights))
  have hsum : (ps.map fun p => p.1 * p.2).sum ≤ (qs.map fun p => p.1 * p.2).sum := by
    refine sum_le_sum (forall₂_map_left_iff.mpr (forall₂_map_right_iff.mpr (h.imp ?_)))
    intro p q hpq
    rw [← hpq.1]
    exact mul_le_mul_of_nonneg_left hpq.2.2 hpq.2.1
  rw [weightedMean, weightedMean, ← hweights]
  exact div_le_div_of_nonneg_right hsum hnonneg

end Means
