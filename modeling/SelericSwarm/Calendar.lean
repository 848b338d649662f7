import Mathlib.Data.Nat.Notation

/-! Dates and datetimes as the tools compute with them: years 1 to 9999, no local rules. -/
namespace SelericSwarm

def isLeap (year : Nat) : Bool := year % 4 = 0 && (year % 100 ≠ 0 || year % 400 = 0)

/-- `calendar.monthrange(year, month)[1]`. -/
def monthrange (year month : Nat) : Nat :=
  match month with
  | 2 => if isLeap year then 29 else 28
  | 4 | 6 | 9 | 11 => 30
  | _ => 31

theorem monthrange_pos (year month : Nat) : 1 ≤ monthrange year month := by
  unfold monthrange
  repeat' split
  all_goals omega

@[ext] structure Date where
  year : Nat
  month : Nat
  day : Nat
  year_range : 1 ≤ year ∧ year ≤ 9999
  month_range : 1 ≤ month ∧ month ≤ 12
  day_range : 1 ≤ day ∧ day ≤ monthrange year month
  deriving DecidableEq

namespace Date

/-! The ranges of the sample dates. -/

theorem year_2026_range : 1 ≤ 2026 ∧ 2026 ≤ 9999 := by decide

theorem january_range : 1 ≤ 1 ∧ 1 ≤ 12 := by decide

theorem july_range : 1 ≤ 7 ∧ 7 ≤ 12 := by decide

theorem august_range : 1 ≤ 8 ∧ 8 ≤ 12 := by decide

theorem september_range : 1 ≤ 9 ∧ 9 ≤ 12 := by decide

theorem first_of_september : 1 ≤ 1 ∧ 1 ≤ monthrange 2026 9 := by decide

/-- Decimal digits, with zeros in front up to the width. -/
def padded (width n : Nat) : String :=
  String.ofList (List.replicate (width - (toString n).length) '0') ++ toString n

def isoformat (d : Date) : String := padded 4 d.year ++ "-" ++ padded 2 d.month ++ "-" ++ padded 2 d.day

def before (d e : Date) : Bool :=
  d.year < e.year || d.year = e.year && (d.month < e.month || d.month = e.month && d.day < e.day)

def max (d e : Date) : Date := if d.before e then e else d

def min (d e : Date) : Date := if e.before d then e else d

/-- `replace(day=last)`. -/
def monthEnd (d : Date) : Date :=
  { d with day := monthrange d.year d.month, day_range := ⟨monthrange_pos _ _, Nat.le_refl _⟩ }

/-- The next day; there is none after the last year. -/
def next (d : Date) : Option Date :=
  if hd : d.day < monthrange d.year d.month then
    some { d with day := d.day + 1, day_range := ⟨by omega, by omega⟩ }
  else if hm : d.month < 12 then
    some { year := d.year, month := d.month + 1, day := 1, year_range := d.year_range
           month_range := ⟨by omega, by omega⟩, day_range := ⟨Nat.le_refl _, monthrange_pos _ _⟩ }
  else if hy : d.year < 9999 then
    some { year := d.year + 1, month := 1, day := 1, year_range := ⟨by omega, by omega⟩
           month_range := ⟨Nat.le_refl _, by omega⟩, day_range := ⟨Nat.le_refl _, monthrange_pos _ _⟩ }
  else none

/-- `+ timedelta(days=n)`. -/
def addDays (d : Date) : Nat → Option Date
  | 0 => some d
  | n + 1 => (d.addDays n).bind next

/-- The day before; there is none before the first year. -/
def prev (d : Date) : Option Date :=
  if hd : 1 < d.day then
    some { d with day := d.day - 1, day_range := ⟨by omega, by have := d.day_range.2; omega⟩ }
  else if hm : 1 < d.month then
    some { year := d.year, month := d.month - 1, day := monthrange d.year (d.month - 1), year_range := d.year_range
           month_range := ⟨by omega, by have := d.month_range.2; omega⟩
           day_range := ⟨monthrange_pos _ _, Nat.le_refl _⟩ }
  else if hy : 1 < d.year then
    some { year := d.year - 1, month := 12, day := 31, year_range := ⟨by omega, by have := d.year_range.2; omega⟩
           month_range := ⟨by omega, Nat.le_refl _⟩, day_range := ⟨by omega, Nat.le_refl _⟩ }
  else none

/-- `- timedelta(days=n)`. -/
def subDays (d : Date) : Nat → Option Date
  | 0 => some d
  | n + 1 => (d.subDays n).bind prev

/-- `toordinal()`, in two parts: the days before the year and those before the month. -/
def daysBeforeYear (year : Nat) : Nat := (year - 1) * 365 + (year - 1) / 4 - (year - 1) / 100 + (year - 1) / 400

def daysBeforeMonth (year : Nat) : Nat → Nat
  | 0 | 1 => 0
  | month + 2 => daysBeforeMonth year (month + 1) + monthrange year (month + 1)

def toordinal (d : Date) : Nat := daysBeforeYear d.year + daysBeforeMonth d.year d.month + d.day

/-- `weekday()`: 0 on Mondays. -/
def weekday (d : Date) : Nat := (d.toordinal + 6) % 7

theorem daysBeforeMonth_succ (year : Nat) {month : Nat} (h : 1 ≤ month) :
    daysBeforeMonth year (month + 1) = daysBeforeMonth year month + monthrange year month := by
  obtain ⟨k, rfl⟩ : ∃ k, month = k + 1 := ⟨month - 1, by omega⟩
  rfl

theorem daysBeforeYear_succ {year : Nat} (h : 1 ≤ year) :
    daysBeforeYear (year + 1) = daysBeforeYear year + daysBeforeMonth year 12 + 31 := by
  have hmonths : daysBeforeMonth year 12 = if isLeap year then 335 else 334 := by
    cases hleap : isLeap year <;> simp [daysBeforeMonth, monthrange, hleap]
  obtain ⟨k, rfl⟩ : ∃ k, year = k + 1 := ⟨year - 1, by omega⟩
  have hfour : (k + 1) / 4 = k / 4 + if (k + 1) % 4 = 0 then 1 else 0 := by split <;> omega
  have hcentury : (k + 1) / 100 = k / 100 + if (k + 1) % 100 = 0 then 1 else 0 := by split <;> omega
  have hcycle : (k + 1) / 400 = k / 400 + if (k + 1) % 400 = 0 then 1 else 0 := by split <;> omega
  have hnested : (k + 1) % 400 = 0 → (k + 1) % 100 = 0 := by omega
  have hnested' : (k + 1) % 100 = 0 → (k + 1) % 4 = 0 := by omega
  have hless : k / 100 ≤ k / 4 := by omega
  rw [hmonths]
  simp only [daysBeforeYear, isLeap, Nat.add_sub_cancel, hfour, hcentury, hcycle]
  by_cases h4 : (k + 1) % 4 = 0
  · by_cases h100 : (k + 1) % 100 = 0
    · by_cases h400 : (k + 1) % 400 = 0
      · simp [h4, h100, h400]
        omega
      · simp [h4, h100, h400]
        omega
    · simp [h4, h100, mt hnested h100]
      omega
  · simp [h4, mt hnested' h4, mt hnested (mt hnested' h4)]
    omega

theorem next_toordinal {d e : Date} (h : d.next = some e) : e.toordinal = d.toordinal + 1 := by
  unfold next at h
  split at h
  · obtain rfl := Option.some.inj h
    rfl
  · next hlast =>
    have hday : d.day = monthrange d.year d.month := Nat.le_antisymm d.day_range.2 (Nat.not_lt.mp hlast)
    split at h
    · obtain rfl := Option.some.inj h
      simp only [toordinal, daysBeforeMonth_succ d.year d.month_range.1, hday]
      omega
    · next hdecember =>
      have hmonth : d.month = 12 := Nat.le_antisymm d.month_range.2 (Nat.not_lt.mp hdecember)
      split at h
      · obtain rfl := Option.some.inj h
        have hlength : monthrange d.year 12 = 31 := rfl
        have hfirst : daysBeforeMonth (d.year + 1) 1 = 0 := rfl
        simp only [toordinal, daysBeforeYear_succ d.year_range.1, hday, hmonth, hlength, hfirst]
      · cases h

theorem addDays_toordinal {d : Date} (n : Nat) : ∀ {e : Date}, d.addDays n = some e → e.toordinal = d.toordinal + n := by
  induction n with
  | zero =>
    intro e h
    obtain rfl := Option.some.inj h
    rfl
  | succ n ih =>
    intro e h
    obtain ⟨f, hf, he⟩ := Option.bind_eq_some_iff.mp h
    rw [next_toordinal he, ih hf]
    omega

theorem prev_toordinal {d e : Date} (h : d.prev = some e) : e.toordinal + 1 = d.toordinal := by
  unfold prev at h
  split at h
  · obtain rfl := Option.some.inj h
    simp only [toordinal]
    omega
  · next hfirst =>
    have hday : d.day = 1 := Nat.le_antisymm (Nat.not_lt.mp hfirst) d.day_range.1
    split at h
    · next hmonth =>
      obtain rfl := Option.some.inj h
      have hbefore := daysBeforeMonth_succ d.year (Nat.le_sub_one_of_lt hmonth)
      rw [Nat.sub_add_cancel (Nat.le_of_lt hmonth)] at hbefore
      simp only [toordinal, hbefore, hday]
      omega
    · next hjanuary =>
      have hmonth : d.month = 1 := Nat.le_antisymm (Nat.not_lt.mp hjanuary) d.month_range.1
      split at h
      · next hyear =>
        obtain rfl := Option.some.inj h
        have hbefore := daysBeforeYear_succ (Nat.le_sub_one_of_lt hyear)
        rw [Nat.sub_add_cancel (Nat.le_of_lt hyear)] at hbefore
        have hfirst : daysBeforeMonth d.year 1 = 0 := rfl
        simp only [toordinal, hbefore, hday, hmonth, hfirst]
      · cases h

theorem subDays_toordinal {d : Date} (n : Nat) : ∀ {e : Date}, d.subDays n = some e → e.toordinal + n = d.toordinal := by
  induction n with
  | zero =>
    intro e h
    obtain rfl := Option.some.inj h
    rfl
  | succ n ih =>
    intro e h
    obtain ⟨f, hf, he⟩ := Option.bind_eq_some_iff.mp h
    have hprev := prev_toordinal he
    have hdays := ih hf
    omega

theorem monthEnd_toordinal (d : Date) : d.monthEnd.toordinal = d.toordinal + (monthrange d.year d.month - d.day) := by
  have hday := d.day_range.2
  simp only [toordinal, monthEnd]
  omega

end Date

/-- An offset from UTC in microseconds, of less than a day. -/
structure UtcOffset where
  micros : Int
  lt_day : micros.natAbs < 86400000000
  deriving DecidableEq

def UtcOffset.utc : UtcOffset := ⟨0, by decide⟩

theorem day_pos : 0 < 86400000000 := by decide

def midnight : Fin 86400000000 := ⟨0, day_pos⟩

/-- A datetime: microseconds of its day, and its offset from UTC unless it is naive. -/
structure Datetime where
  date : Date
  time : Fin 86400000000 := midnight
  tzinfo : Option UtcOffset := none
  deriving DecidableEq

end SelericSwarm
