import Mathlib.Order.Monotone.Basic
import SelericSwarm.PeriodWindows

/-! The order of the days, and which days there are before a day. -/
namespace SelericSwarm
namespace Date

theorem toordinal_pos (d : Date) : 1 ≤ d.toordinal := by
  have hday := d.day_range.1
  rw [toordinal]
  omega

theorem daysBeforeMonth_mono (year : Nat) : Monotone (daysBeforeMonth year) := by
  refine monotone_nat_of_le_succ fun month => ?_
  cases month with
  | zero => exact Nat.le_refl _
  | succ month => exact Nat.le_add_right _ _

theorem daysBeforeYear_mono : Monotone daysBeforeYear := by
  refine monotone_nat_of_le_succ fun year => ?_
  cases year with
  | zero => exact Nat.le_refl _
  | succ year =>
    rw [daysBeforeYear_succ (Nat.succ_pos year), Nat.add_assoc]
    exact Nat.le_add_right _ _

theorem toordinal_lt_of_month {d e : Date} (hyear : d.year = e.year) (h : d.month < e.month) : d.toordinal < e.toordinal := by
  have hmonth := daysBeforeMonth_succ d.year d.month_range.1
  have hlater : daysBeforeMonth d.year (d.month + 1) ≤ daysBeforeMonth d.year e.month := daysBeforeMonth_mono d.year h
  have hday := d.day_range.2
  have hday' := e.day_range.1
  rw [toordinal, toordinal, ← hyear]
  omega

theorem toordinal_lt_of_year {d e : Date} (h : d.year < e.year) : d.toordinal < e.toordinal := by
  have hyear := daysBeforeYear_succ d.year_range.1
  have hlater : daysBeforeYear (d.year + 1) ≤ daysBeforeYear e.year := daysBeforeYear_mono h
  have hdecember := daysBeforeMonth_succ d.year (by omega : 1 ≤ 12)
  have hmonth := daysBeforeMonth_succ d.year d.month_range.1
  have hlast : daysBeforeMonth d.year (d.month + 1) ≤ daysBeforeMonth d.year (12 + 1) :=
    daysBeforeMonth_mono d.year (Nat.succ_le_succ d.month_range.2)
  have hlength : monthrange d.year 12 = 31 := rfl
  have hday := d.day_range.2
  have hday' := e.day_range.1
  rw [toordinal, toordinal]
  omega

/-- There is a day before every day but the first. -/
theorem exists_prev {d : Date} (h : 1 < d.toordinal) : ∃ e, d.prev = some e := by
  unfold prev
  split
  · exact ⟨_, rfl⟩
  · next hday =>
    split
    · exact ⟨_, rfl⟩
    · next hmonth =>
      split
      · exact ⟨_, rfl⟩
      · next hyear =>
        have hfirst : d.year = 1 ∧ d.month = 1 ∧ d.day = 1 :=
          ⟨by have := d.year_range.1; omega, by have := d.month_range.1; omega, by have := d.day_range.1; omega⟩
        rw [toordinal, hfirst.1, hfirst.2.1, hfirst.2.2] at h
        exact absurd h (by decide)

theorem exists_subDays_iff {d : Date} (n : Nat) : (∃ e, d.subDays n = some e) ↔ n < d.toordinal := by
  induction n with
  | zero => exact ⟨fun _ => d.toordinal_pos, fun _ => ⟨d, rfl⟩⟩
  | succ n ih =>
    constructor
    · intro ⟨e, he⟩
      have hdays := subDays_toordinal (n + 1) he
      have hpos := e.toordinal_pos
      omega
    · intro h
      obtain ⟨f, hf⟩ := ih.mpr (by omega)
      have hdays := subDays_toordinal n hf
      obtain ⟨e, he⟩ := exists_prev (by omega : 1 < f.toordinal)
      exact ⟨e, by rw [subDays, hf, Option.bind_some, he]⟩

end Date

namespace TimeRange

theorem exists_subMonths_iff {anchor : Date} (n : Nat) :
    (∃ d, subMonths anchor n = some d) ↔ n + 12 ≤ anchor.year * 12 + anchor.month - 1 := by
  have hyear := anchor.year_range
  have hmonth := anchor.month_range
  unfold subMonths
  dsimp only
  split
  · next h => exact ⟨fun _ => by omega, fun _ => ⟨_, rfl⟩⟩
  · next h =>
    constructor
    · rintro ⟨d, hd⟩
      cases hd
    · intro hlast
      exact absurd ⟨by omega, by omega⟩ h

theorem subMonths_months {anchor d : Date} {n : Nat} (h : subMonths anchor n = some d) :
    d.year * 12 + d.month + n = anchor.year * 12 + anchor.month ∧ d.day = Nat.min anchor.day (monthrange d.year d.month) := by
  have hmonth := anchor.month_range
  unfold subMonths at h
  dsimp only at h
  split at h
  · cases h
    exact ⟨by dsimp only; omega, rfl⟩
  · cases h

theorem subMonths_toordinal_le {anchor d : Date} {n : Nat} (h : subMonths anchor n = some d) :
    d.toordinal ≤ anchor.toordinal := by
  obtain ⟨hmonths, hday⟩ := subMonths_months h
  have hmonth := anchor.month_range
  have hmonth' := d.month_range
  obtain hyear | hyear : d.year < anchor.year ∨ d.year = anchor.year := by omega
  · exact (Date.toordinal_lt_of_year hyear).le
  · obtain hearlier | hsame : d.month < anchor.month ∨ d.month = anchor.month := by omega
    · exact (Date.toordinal_lt_of_month hyear hearlier).le
    · have hclamped : d.day ≤ anchor.day := hday ▸ Nat.min_le_left _ _
      rw [Date.toordinal, Date.toordinal, hyear, hsame]
      omega

theorem firstOfMonth_toordinal_le (d : Date) : (firstOfMonth d).toordinal ≤ d.toordinal := by
  have hday := d.day_range.1
  simp only [Date.toordinal, firstOfMonth]
  omega

theorem firstOfYear_toordinal_le (d : Date) : (firstOfYear d).toordinal ≤ d.toordinal := by
  have hday := d.day_range.1
  have hjanuary : Date.daysBeforeMonth d.year 1 = 0 := rfl
  simp only [Date.toordinal, firstOfYear, hjanuary]
  omega

end TimeRange
end SelericSwarm
