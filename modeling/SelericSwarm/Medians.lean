import Mathlib.Algebra.Order.Field.Basic
import Mathlib.Data.List.GetD
import Mathlib.Data.List.Sort
import Mathlib.Tactic.FieldSimp
import Mathlib.Tactic.Linarith
import Mathlib.Tactic.Ring

/-! The median of a list: the item in the middle of the sorted list, or the mean of the two items there. -/
namespace Medians
open List
universe u
variable {α : Type u}

/-- What holds of no item of a part of the list holds of no more items than the rest has. -/
theorem length_filter_le_sub (p : α → Bool) (s : List α) (k : ℕ) (h : ∀ i, ∀ hi : i < s.length, i < k → p s[i] = false) :
    (s.filter p).length ≤ s.length - k := by
  have hfirst : (s.take k).filter p = [] := by
    refine filter_eq_nil_iff.mpr fun x hx => ?_
    obtain ⟨i, hi, rfl⟩ := mem_iff_getElem.mp hx
    rw [length_take] at hi
    rw [getElem_take, h i (by omega) (by omega)]
    exact Bool.false_ne_true
  calc (s.filter p).length = ((s.take k).filter p ++ (s.drop k).filter p).length := by
        rw [← filter_append, take_append_drop]
    _ = ((s.drop k).filter p).length := by rw [hfirst, nil_append]
    _ ≤ (s.drop k).length := length_filter_le _ _
    _ = s.length - k := length_drop

section Order
variable [LinearOrder α]

def inOrder (xs : List α) : List α := xs.mergeSort fun a b => decide (a ≤ b)

theorem inOrder_perm (xs : List α) : (inOrder xs).Perm xs := mergeSort_perm xs _

theorem inOrder_pairwise (xs : List α) : (inOrder xs).Pairwise (· ≤ ·) := pairwise_mergeSort' (· ≤ ·) xs

theorem length_inOrder (xs : List α) : (inOrder xs).length = xs.length := (inOrder_perm xs).length_eq

theorem inOrder_eq {xs s : List α} (hperm : s.Perm xs) (hs : s.Pairwise (· ≤ ·)) : inOrder xs = s :=
  ((inOrder_perm xs).trans hperm.symm).eq_of_pairwise' (inOrder_pairwise xs) hs

end Order

section Middle
variable [Field α]

def middle (s : List α) : α :=
  if s.length % 2 = 1 then s.getD (s.length / 2) 0
  else (s.getD (s.length / 2 - 1) 0 + s.getD (s.length / 2) 0) / 2

theorem getD_map (f : α → α) (s : List α) {i : ℕ} (h : i < s.length) : (s.map f).getD i 0 = f (s.getD i 0) := by
  rw [getD_eq_getElem _ _ (by rwa [length_map]), getD_eq_getElem _ _ h, getElem_map]

theorem getD_reverse (s : List α) {i : ℕ} (h : i < s.length) : s.reverse.getD i 0 = s.getD (s.length - 1 - i) 0 := by
  rw [getD_eq_getElem _ _ (by rwa [length_reverse]), getD_eq_getElem _ _ (by omega), getElem_reverse]

theorem middle_reverse {s : List α} (h : s ≠ []) : middle s.reverse = middle s := by
  have hpos := length_pos_iff.mpr h
  rw [middle, middle, length_reverse]
  split
  · next hodd =>
    have hsame : s.length - 1 - s.length / 2 = s.length / 2 := by omega
    rw [getD_reverse s (by omega), hsame]
  · next heven =>
    have hlow : s.length - 1 - (s.length / 2 - 1) = s.length / 2 := by omega
    have hhigh : s.length - 1 - s.length / 2 = s.length / 2 - 1 := by omega
    rw [getD_reverse s (by omega), getD_reverse s (by omega), hlow, hhigh, add_comm]

end Middle

variable [Field α] [LinearOrder α]

def median (xs : List α) : α := middle (inOrder xs)

theorem median_perm {xs ys : List α} (h : xs.Perm ys) : median xs = median ys := by
  rw [median, median, inOrder_eq ((inOrder_perm ys).trans h.symm) (inOrder_pairwise ys)]

theorem getD_le_getD {s : List α} (hs : s.Pairwise (· ≤ ·)) {i j : ℕ} (hij : i ≤ j) (hj : j < s.length) :
    s.getD i 0 ≤ s.getD j 0 := by
  obtain rfl | hlt := Nat.eq_or_lt_of_le hij
  · exact le_refl _
  · rw [getD_eq_getElem _ _ (hlt.trans hj), getD_eq_getElem _ _ hj]
    exact pairwise_iff_getElem.mp hs i j (hlt.trans hj) hj hlt

variable [IsStrictOrderedRing α]

theorem middle_map {s : List α} (h : s ≠ []) (a b : α) : middle (s.map fun x => a * x + b) = a * middle s + b := by
  have hpos := length_pos_iff.mpr h
  rw [middle, middle, length_map]
  split
  · rw [getD_map _ s (by omega)]
  · next heven =>
    rw [getD_map _ s (by omega), getD_map _ s (by omega)]
    ring

theorem median_affine {xs : List α} (h : xs ≠ []) {a : α} (ha : a ≠ 0) (b : α) :
    median (xs.map fun x => a * x + b) = a * median xs + b := by
  have hne : inOrder xs ≠ [] := by
    intro hnil
    have hlength := length_inOrder xs
    rw [hnil] at hlength
    exact h (eq_nil_of_length_eq_zero hlength.symm)
  have hperm := (inOrder_perm xs).map fun x => a * x + b
  obtain hneg | hpos := lt_or_gt_of_ne ha
  · have hsorted : ((inOrder xs).map fun x => a * x + b).reverse.Pairwise (· ≤ ·) := by
      rw [pairwise_reverse, pairwise_map]
      refine (inOrder_pairwise xs).imp ?_
      intro x y hxy
      have hmul := mul_le_mul_of_nonpos_left hxy hneg.le
      linarith
    have hne' : (inOrder xs).map (fun x => a * x + b) ≠ [] := fun hnil => hne (map_eq_nil_iff.mp hnil)
    rw [median, inOrder_eq ((reverse_perm _).trans hperm) hsorted, middle_reverse hne', middle_map hne, median]
  · have hsorted : ((inOrder xs).map fun x => a * x + b).Pairwise (· ≤ ·) := by
      rw [pairwise_map]
      refine (inOrder_pairwise xs).imp ?_
      intro x y hxy
      have hmul := mul_le_mul_of_nonneg_left hxy hpos.le
      linarith
    rw [median, inOrder_eq hperm hsorted, middle_map hne, median]

/-! Half of the items lie on either side. -/

theorem getD_le_middle {s : List α} (hs : s.Pairwise (· ≤ ·)) {i : ℕ} (hi : 2 * i < s.length) :
    s.getD i 0 ≤ middle s := by
  rw [middle]
  split
  · exact getD_le_getD hs (by omega) (by omega)
  · have hlow : s.getD i 0 ≤ s.getD (s.length / 2 - 1) 0 := getD_le_getD hs (by omega) (by omega)
    have hhigh : s.getD i 0 ≤ s.getD (s.length / 2) 0 := getD_le_getD hs (by omega) (by omega)
    linarith

theorem middle_le_getD {s : List α} (hs : s.Pairwise (· ≤ ·)) {i : ℕ} (hi : i < s.length) (hhalf : s.length / 2 ≤ i) :
    middle s ≤ s.getD i 0 := by
  rw [middle]
  split
  · exact getD_le_getD hs hhalf hi
  · have hlow : s.getD (s.length / 2 - 1) 0 ≤ s.getD i 0 := getD_le_getD hs (by omega) hi
    have hhigh : s.getD (s.length / 2) 0 ≤ s.getD i 0 := getD_le_getD hs hhalf hi
    linarith

theorem above_median (xs : List α) : 2 * (xs.filter fun x => median xs < x).length ≤ xs.length := by
  have hcount : (xs.filter fun x => median xs < x).length = ((inOrder xs).filter fun x => median xs < x).length :=
    ((inOrder_perm xs).symm.filter _).length_eq
  have hsorted := inOrder_pairwise xs
  have hbelow := length_filter_le_sub (fun x => decide (median xs < x)) (inOrder xs) ((xs.length + 1) / 2) fun i hi hlow => by
    have hle := getD_le_middle hsorted (i := i) (by rw [length_inOrder]; omega)
    rw [getD_eq_getElem _ _ hi] at hle
    exact decide_eq_false (not_lt.mpr hle)
  rw [length_inOrder] at hbelow
  omega

theorem below_median (xs : List α) : 2 * (xs.filter fun x => x < median xs).length ≤ xs.length := by
  have hcount : (xs.filter fun x => x < median xs).length = ((inOrder xs).reverse.filter fun x => x < median xs).length :=
    (((reverse_perm _).trans (inOrder_perm xs)).symm.filter _).length_eq
  have hsorted := inOrder_pairwise xs
  have habove := length_filter_le_sub (fun x => decide (x < median xs)) (inOrder xs).reverse ((xs.length + 1) / 2)
    fun i hi hlow => by
      rw [length_reverse] at hi
      rw [length_inOrder] at hi
      have hle := middle_le_getD hsorted (i := (inOrder xs).length - 1 - i) (by rw [length_inOrder]; omega)
        (by rw [length_inOrder]; omega)
      rw [getD_eq_getElem _ _ (by rw [length_inOrder]; omega)] at hle
      rw [getElem_reverse]
      exact decide_eq_false (not_lt.mpr hle)
  rw [length_reverse, length_inOrder] at habove
  omega

theorem median_nonneg {xs : List α} (h : ∀ x ∈ xs, 0 ≤ x) : 0 ≤ median xs := by
  have hget : ∀ i, 0 ≤ (inOrder xs).getD i 0 := by
    intro i
    rw [getD_eq_getElem?_getD]
    cases hi : (inOrder xs)[i]? with
    | none => exact le_refl _
    | some x => exact h x ((inOrder_perm xs).mem_iff.mp (mem_of_getElem? hi))
  rw [median, middle]
  split
  · exact hget _
  · exact div_nonneg (add_nonneg (hget _) (hget _)) (by norm_num)

end Medians
