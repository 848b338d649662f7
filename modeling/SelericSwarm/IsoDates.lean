import Mathlib.Data.Nat.Digits.Defs
import SelericSwarm.Calendar

/-! How dates are printed. -/
namespace SelericSwarm.Date
open List

theorem isDigit_of_mem_padded {width n : Nat} {c : Char} (h : c ∈ (padded width n).toList) : c.isDigit = true := by
  rw [padded, String.toList_append, String.toList_ofList] at h
  obtain h | h := mem_append.mp h
  · obtain rfl := eq_of_mem_replicate h
    rfl
  · have hdigits : c ∈ Nat.toDigits 10 n := by simpa [Nat.repr_eq_ofList_toDigits] using h
    exact Nat.isDigit_of_mem_toDigits (by decide) (by decide) hdigits

theorem length_padded (width n : Nat) : width ≤ (padded width n).toList.length := by
  rw [padded, String.toList_append, String.toList_ofList, length_append, length_replicate, String.length_toList]
  omega

theorem length_padded_of_lt {width n : Nat} (hwidth : 0 < width) (h : n < 10 ^ width) :
    (padded width n).toList.length = width := by
  have hdigits : (toString n).length ≤ width := Nat.repr_length n width hwidth h
  rw [padded, String.toList_append, String.toList_ofList, length_append, length_replicate, String.length_toList]
  omega

/-- The zeros in front add nothing. -/
theorem value_padded (width n : Nat) : Nat.ofDigitChars 10 (padded width n).toList 0 = n := by
  rw [padded, String.toList_append, String.toList_ofList, Nat.ofDigitChars_append, Nat.ofDigitChars_replicate_zero,
    Nat.mul_zero, Nat.toString_eq_ofList_toDigits, String.toList_ofList, Nat.ofDigitChars_ten_toDigits]

theorem dash_notMem_padded (width n : Nat) : '-' ∉ (padded width n).toList :=
  fun h => absurd (isDigit_of_mem_padded h) (by decide)

theorem toList_isoformat (d : Date) : d.isoformat.toList =
    (padded 4 d.year).toList ++ '-' :: ((padded 2 d.month).toList ++ '-' :: (padded 2 d.day).toList) := by
  simp [isoformat]

theorem append_cons_inj {α : Type} {a : α} {xs ys s t : List α} (hx : a ∉ xs) (hy : a ∉ ys)
    (h : xs ++ a :: s = ys ++ a :: t) : xs = ys ∧ s = t := by
  induction xs generalizing ys with
  | nil =>
    cases ys with
    | nil => exact ⟨rfl, (List.cons.inj h).2⟩
    | cons y ys => exact absurd ((List.cons.inj h).1 ▸ mem_cons_self) hy
  | cons x xs ih =>
    cases ys with
    | nil => exact absurd ((List.cons.inj h).1 ▸ mem_cons_self) hx
    | cons y ys =>
      obtain ⟨hxy, hrest⟩ := List.cons.inj h
      obtain ⟨hsame, hst⟩ := ih (not_mem_of_not_mem_cons hx) (not_mem_of_not_mem_cons hy) hrest
      exact ⟨by rw [hxy, hsame], hst⟩

theorem isoformat_injective {d e : Date} (h : d.isoformat = e.isoformat) : d = e := by
  have hchars := congrArg String.toList h
  rw [toList_isoformat, toList_isoformat] at hchars
  obtain ⟨hyear, hrest⟩ := append_cons_inj (dash_notMem_padded _ _) (dash_notMem_padded _ _) hchars
  obtain ⟨hmonth, hday⟩ := append_cons_inj (dash_notMem_padded _ _) (dash_notMem_padded _ _) hrest
  ext
  · rw [← value_padded 4 d.year, hyear, value_padded]
  · rw [← value_padded 2 d.month, hmonth, value_padded]
  · rw [← value_padded 2 d.day, hday, value_padded]

theorem length_isoformat (d : Date) : d.isoformat.toList.length = 10 := by
  have hyear := length_padded_of_lt (n := d.year) (by decide : 0 < 4) (by have := d.year_range.2; omega)
  have hmonth := length_padded_of_lt (n := d.month) (by decide : 0 < 2) (by have := d.month_range.2; omega)
  have hday : (padded 2 d.day).toList.length = 2 := by
    refine length_padded_of_lt (by decide) ?_
    have hlast := d.day_range.2
    have hlength : monthrange d.year d.month ≤ 31 := by
      unfold monthrange
      repeat' split
      all_goals omega
    omega
  rw [toList_isoformat, length_append, length_cons, length_append, length_cons, hyear, hmonth, hday]

theorem isoformat_ne_empty (d : Date) : d.isoformat ≠ "" := by
  intro h
  have hchars := congrArg String.toList h
  rw [toList_isoformat] at hchars
  simp at hchars

end SelericSwarm.Date
