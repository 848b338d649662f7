import SelericSwarm.GrainSet

/-! A period so far and the one before it, and what the grain gate says to the two. -/
namespace SelericSwarm.TimeRange
open Agent List

/-! `time_range.py`. -/

inductive DateError where
  | unrecognizedUnit (unit : String)
  | outOfRange

/-- `_sub_months`: nothing where the year is not in the calendar. -/
def subMonths (anchor : Date) (n : Int) : Option Date :=
  let total : Int := anchor.year * 12 + anchor.month - 1 - n
  let year := total / 12
  let month := (total % 12).toNat + 1
  if h : 1 ≤ year ∧ year ≤ 9999 then
    some {
      year := year.toNat, month, day := min anchor.day (monthrange year.toNat month)
      year_range := ⟨by omega, by omega⟩, month_range := ⟨by omega, by omega⟩
      day_range := ⟨Nat.le_min.mpr ⟨anchor.day_range.1, monthrange_pos _ _⟩, Nat.min_le_right _ _⟩ }
  else none

/-- `replace(day=1)` -/
def firstOfMonth (d : Date) : Date := { d with day := 1, day_range := ⟨Nat.le_refl _, monthrange_pos _ _⟩ }

/-- `replace(month=1, day=1)` -/
def firstOfYear (d : Date) : Date where
  year := d.year
  month := 1
  day := 1
  year_range := d.year_range
  month_range := Date.january_range
  day_range := ⟨Nat.le_refl _, monthrange_pos _ _⟩

/-- A period so far, and the matching one before it. -/
structure Windows where
  aStart : Date
  aEnd : Date
  bStart : Date
  bEnd : Date

def dated : Option Date → Except DateError Date
  | none => .error .outOfRange
  | some d => .ok d

def periodVsPrior (anchor : Date) (unit : String) : Except DateError Windows :=
  if unit = "week" then do
    let aStart ← dated (anchor.subDays anchor.weekday)
    let bStart ← dated (aStart.subDays 7)
    let bEnd ← dated (anchor.subDays 7)
    .ok { aStart, aEnd := anchor, bStart, bEnd }
  else if unit = "month" then do
    let prior ← dated (subMonths anchor 1)
    .ok { aStart := firstOfMonth anchor, aEnd := anchor, bStart := firstOfMonth prior, bEnd := prior }
  else if unit = "year" then do
    let prior ← dated (subMonths anchor 12)
    .ok { aStart := firstOfYear anchor, aEnd := anchor, bStart := firstOfYear prior, bEnd := prior }
  else .error (.unrecognizedUnit unit)

theorem dated_bind {d : Option Date} {f : Date → Except DateError Windows} {w : Windows} :
    dated d >>= f = .ok w ↔ ∃ date, d = some date ∧ f date = .ok w := by
  cases d with
  | none =>
    constructor
    · intro h
      cases h
    · intro ⟨date, hdate, _⟩
      cases hdate
  | some date =>
    constructor
    · intro h
      exact ⟨date, rfl, h⟩
    · intro ⟨_, hdate, h⟩
      cases hdate
      exact h

/-! The lengths of the windows. -/

/-- The number of days from one date to another, both of them included. -/
def daysFrom (start stop : Date) : Int := (stop.toordinal : Int) - start.toordinal + 1

theorem daysFrom_firstOfMonth (d : Date) : daysFrom (firstOfMonth d) d = d.day := by
  simp only [daysFrom, Date.toordinal, firstOfMonth]
  omega

theorem daysFrom_firstOfYear (d : Date) : daysFrom (firstOfYear d) d = Date.daysBeforeMonth d.year d.month + d.day := by
  have hjanuary : Date.daysBeforeMonth d.year 1 = 0 := rfl
  simp only [daysFrom, Date.toordinal, firstOfYear, hjanuary]
  omega

theorem monthrange_eq {month : Nat} (year year' : Nat) (h : month ≠ 2) : monthrange year month = monthrange year' month := by
  unfold monthrange
  split
  · exact absurd rfl h
  all_goals rfl

/-- After February a leap day counts. -/
theorem daysBeforeMonth_eq (year : Nat) {month : Nat} (h : 2 ≤ month) :
    Date.daysBeforeMonth year (month + 1) = Date.daysBeforeMonth 1 (month + 1) + if isLeap year then 1 else 0 := by
  induction month, h using Nat.le_induction with
  | base =>
    have hplain : isLeap 1 = false := by decide
    cases hleap : isLeap year <;> simp [Date.daysBeforeMonth, monthrange, hleap, hplain]
  | succ month h ih =>
    have hsame : monthrange year (month + 1) = monthrange 1 (month + 1) := monthrange_eq year 1 (by omega)
    rw [Date.daysBeforeMonth_succ year (by omega), Date.daysBeforeMonth_succ 1 (by omega), ih, hsame]
    omega

theorem not_both_leap (year : Nat) (h : isLeap (year + 1) = true) : isLeap year = false := by
  have hfour : (year + 1) % 4 = 0 := by
    unfold isLeap at h
    simp only [Bool.and_eq_true, decide_eq_true_eq] at h
    exact h.1
  have hne : year % 4 ≠ 0 := by omega
  simp [isLeap, hne]

/-! The windows before. -/

def previousMonthDays (d : Date) : Nat := if d.month = 1 then 31 else monthrange d.year (d.month - 1)

theorem subMonths_one {d prior : Date} (h : subMonths d 1 = some prior) : prior.day = min d.day (previousMonthDays d) := by
  have hmonth := d.month_range
  unfold subMonths at h
  dsimp only at h
  split at h
  · obtain rfl := Option.some.inj h
    dsimp only
    unfold previousMonthDays
    split
    · next hjanuary =>
      have hlast : (((d.year : Int) * 12 + d.month - 1 - 1) % 12).toNat + 1 = 12 := by omega
      rw [hlast]
      rfl
    · next hlater =>
      have hyear : (((d.year : Int) * 12 + d.month - 1 - 1) / 12).toNat = d.year := by omega
      have hbefore : (((d.year : Int) * 12 + d.month - 1 - 1) % 12).toNat + 1 = d.month - 1 := by omega
      rw [hyear, hbefore]
  · cases h

theorem subMonths_twelve {d prior : Date} (h : subMonths d 12 = some prior) :
    prior.year + 1 = d.year ∧ prior.month = d.month ∧ prior.day = min d.day (monthrange prior.year d.month) := by
  have hmonth := d.month_range
  unfold subMonths at h
  dsimp only at h
  split at h
  · next hyear =>
    obtain rfl := Option.some.inj h
    have hsame : (((d.year : Int) * 12 + d.month - 1 - 12) % 12).toNat + 1 = d.month := by omega
    exact ⟨by dsimp only; omega, hsame, congrArg (fun month => min d.day (monthrange _ month)) hsame⟩
  · cases h

/-! What the gate says to the two windows. -/

/-- Evidence of a window, with no grain to contradict. -/
structure Covers (e : PeriodFact) (start stop : Date) : Prop where
  grain : e.grain = "none"
  periodStart : e.periodStart.date = start
  periodEnd : e.periodEnd.date = stop

theorem Covers.span {e : PeriodFact} {start stop : Date} (h : Covers e start stop) : e.span = daysFrom start stop := by
  rw [PeriodFact.span, h.periodStart, h.periodEnd, daysFrom]

/-- Two windows are compared where they are of one length. -/
theorem Covers.accepted_iff {e e' : PeriodFact} {start stop start' stop' : Date} (h : Covers e start stop)
    (h' : Covers e' start' stop') : validateGrainSet [e, e'] = none ↔ daysFrom start stop = daysFrom start' stop' := by
  rw [validateGrainSet_eq_none, ← h.span, ← h'.span]
  constructor
  · intro hcomparable
    exact hcomparable.span e mem_cons_self e' (mem_cons_of_mem e mem_cons_self)
  · intro hspan
    have hgrain : ∀ f ∈ [e, e'], f.grain = "none" := by
      intro f hf
      simp only [mem_cons, not_mem_nil, or_false] at hf
      obtain rfl | rfl := hf
      · exact h.grain
      · exact h'.grain
    have hlength : ∀ f ∈ [e, e'], f.span = e.span := by
      intro f hf
      simp only [mem_cons, not_mem_nil, or_false] at hf
      obtain rfl | rfl := hf
      · rfl
      · exact hspan.symm
    constructor
    · intro f hf f' hf'
      rw [hgrain f hf, hgrain f' hf']
    · intro f hf range hrange
      rw [hgrain f hf] at hrange
      cases hrange
    · intro f hf f' hf'
      rw [hlength f hf, hlength f' hf']

section Accepted
variable {anchor : Date} {w : Windows} {a b : PeriodFact} (ha : Covers a w.aStart w.aEnd) (hb : Covers b w.bStart w.bEnd)

include ha hb

theorem week_accepted (h : periodVsPrior anchor "week" = .ok w) : validateGrainSet [a, b] = none := by
  rw [periodVsPrior, if_pos rfl] at h
  obtain ⟨aStart, hstart, h⟩ := dated_bind.mp h
  obtain ⟨bStart, hearlier, h⟩ := dated_bind.mp h
  obtain ⟨bEnd, hend, h⟩ := dated_bind.mp h
  cases h
  have hfirst := Date.subDays_toordinal 7 hearlier
  have hlast := Date.subDays_toordinal 7 hend
  refine (ha.accepted_iff hb).mpr ?_
  simp only [daysFrom]
  omega

theorem month_accepted_iff (h : periodVsPrior anchor "month" = .ok w) :
    validateGrainSet [a, b] = none ↔ anchor.day ≤ previousMonthDays anchor := by
  rw [periodVsPrior, if_neg (by decide), if_pos rfl] at h
  obtain ⟨prior, hprior, h⟩ := dated_bind.mp h
  cases h
  rw [ha.accepted_iff hb, daysFrom_firstOfMonth, daysFrom_firstOfMonth, subMonths_one hprior]
  omega

theorem year_accepted_iff (h : periodVsPrior anchor "year" = .ok w) : validateGrainSet [a, b] = none ↔
    (anchor.month = 1 ∨ anchor.month = 2 ∧ anchor.day ≤ 28) ∨ isLeap anchor.year = false ∧ isLeap (anchor.year - 1) = false := by
  rw [periodVsPrior, if_neg (by decide), if_neg (by decide), if_pos rfl] at h
  obtain ⟨prior, hprior, h⟩ := dated_bind.mp h
  cases h
  obtain ⟨hyear, hmonth, hday⟩ := subMonths_twelve hprior
  have hbefore : anchor.year - 1 = prior.year := by omega
  rw [ha.accepted_iff hb, daysFrom_firstOfYear, daysFrom_firstOfYear, hbefore, hmonth, hday]
  have hrange := anchor.month_range
  have hlast := anchor.day_range.2
  have hleaps : isLeap anchor.year = true → isLeap prior.year = false := by
    rw [← hyear]
    exact not_both_leap prior.year
  obtain hjanuary | hfebruary | hlater : anchor.month = 1 ∨ anchor.month = 2 ∨ 2 < anchor.month := by omega
  · have hlength : ∀ year, monthrange year 1 = 31 := fun _ => rfl
    have hbefore : ∀ year, Date.daysBeforeMonth year 1 = 0 := fun _ => rfl
    rw [hjanuary, hlength] at hlast
    simp only [hjanuary, hlength, hbefore, Nat.min_eq_left hlast, true_or]
  · have hlength : ∀ year, monthrange year 2 = if isLeap year then 29 else 28 := fun _ => rfl
    have hbefore : ∀ year, Date.daysBeforeMonth year 2 = 31 := fun _ => rfl
    rw [hfebruary, hlength] at hlast
    simp only [hfebruary, hlength, hbefore]
    cases hleap : isLeap anchor.year with
    | false =>
      rw [hleap] at hlast
      simp only [Bool.false_eq_true, if_false] at hlast
      cases isLeap prior.year <;> simp <;> omega
    | true =>
      simp [hleaps hleap] <;> omega
  · obtain ⟨month, hmonth⟩ : ∃ month, anchor.month = month + 1 := ⟨anchor.month - 1, by omega⟩
    have hlength := monthrange_eq anchor.year prior.year (Nat.ne_of_gt hlater)
    rw [hlength] at hlast
    rw [hmonth] at hlast ⊢
    rw [daysBeforeMonth_eq anchor.year (by omega), daysBeforeMonth_eq prior.year (by omega), Nat.min_eq_left hlast]
    cases hleap : isLeap anchor.year with
    | false =>
      cases isLeap prior.year with
      | false => simp
      | true =>
        simp
        omega
    | true =>
      simp [hleaps hleap]
      omega

end Accepted
end SelericSwarm.TimeRange
