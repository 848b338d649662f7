import SelericSwarm.WindowAgreement

/-! The same look back in two units. -/
namespace SelericSwarm.TimeRange

/-- A question is read as the last `n` days, weeks, months or quarters. -/
def AsksFor (py : WindowText) (query : String) (unit : LookBack) (n : Nat) : Prop :=
  ∃ digits, py.asked query = .lookBack unit (some digits) ∧ py.int digits = some n

theorem absolute_dates (start stop : Date) (token token' : Option String) :
    (absolute start stop token').start = (absolute start stop token).start ∧
      (absolute start stop token').stop = (absolute start stop token).stop := ⟨rfl, rfl⟩

theorem capped_of_ne {unit : LookBack} (h : unit ≠ .days) (n : Nat) : unit.capped n = n := if_neg h

section Units
variable {py : WindowText} {anchor : Date}

theorem windowFromQuery_asksFor {query : String} {unit : LookBack} {n : Nat} (h : AsksFor py query unit n) :
    windowFromQuery py query anchor =
      (inCalendar (unit.start anchor (unit.capped n))).map fun start =>
        some (absolute start anchor (some (unit.token (unit.capped n)))) := by
  obtain ⟨digits, hasked, hint⟩ := h
  rw [windowFromQuery, hasked]
  simp only [windowOf, Option.elim_some, readInt, hint]
  change (lookBackWindow unit (unit.capped n) anchor _ >>= _) = _
  rw [lookBackWindow]
  cases unit.start anchor (unit.capped n) with
  | none => rfl
  | some start => rfl

theorem windowFromQuery_start {query : String} {unit : LookBack} {n : Nat} (h : AsksFor py query unit n) {w : TimeRangeV1}
    (hw : windowFromQuery py query anchor = .ok (some w)) :
    ∃ start, unit.start anchor (unit.capped n) = some start ∧
      w = absolute start anchor (some (unit.token (unit.capped n))) := by
  rw [windowFromQuery_asksFor h] at hw
  cases hstart : unit.start anchor (unit.capped n) with
  | none =>
    rw [hstart] at hw
    cases hw
  | some start =>
    rw [hstart] at hw
    cases hw
    exact ⟨start, rfl, rfl⟩

theorem weeks_daysFrom {start : Date} {n : Nat} (h : LookBack.weeks.start anchor n = some start) :
    daysFrom start anchor = 7 * n + 1 := by
  have hdays := Date.subDays_toordinal (7 * n) h
  rw [daysFrom]
  omega

theorem days_start_eq_weeks {n : Nat} (h : 7 * n + 1 ≤ 90) :
    LookBack.days.start anchor (LookBack.days.capped (7 * n + 1)) = LookBack.weeks.start anchor n := by
  have hcapped : LookBack.days.capped (7 * n + 1) - 1 = 7 * n := by
    rw [LookBack.capped, if_pos rfl]
    omega
  rw [LookBack.start, hcapped]
  rfl

theorem quarters_start_eq_months (n : Nat) : LookBack.quarters.start anchor n = LookBack.months.start anchor (3 * n) := by
  rw [LookBack.start, LookBack.start, Nat.mul_comm]

theorem months_start_twelve {start : Date} (h : LookBack.months.start anchor 12 = some start) :
    start.year + 1 = anchor.year ∧ start.month = anchor.month ∧
      start.day = Nat.min anchor.day (monthrange start.year anchor.month) :=
  subMonths_twelve h

end Units

def datesFound (found : Except WindowError (Option TimeRangeV1)) : Option (Option (Option String × Option String)) :=
  match found with
  | .error _ => none
  | .ok w => some (w.map fun w => (w.start, w.stop))

/-- The last `n` weeks are the last `7 * n + 1` days, the last `n` quarters are the last `3 * n` months, and the last twelve
months run from the same date of the year before. -/
theorem units_agree (py : WindowText) (anchor : Date) (n : Nat) :
    (∀ query w, AsksFor py query .weeks n → windowFromQuery py query anchor = .ok (some w) →
      ∃ start : Date, w.start = some start.isoformat ∧ w.stop = some anchor.isoformat ∧
        daysFrom start anchor = 7 * n + 1 ∧
        (7 * n + 1 ≤ 90 → ∀ query', AsksFor py query' .days (7 * n + 1) →
          ∃ w', windowFromQuery py query' anchor = .ok (some w') ∧ w'.start = w.start ∧ w'.stop = w.stop)) ∧
    (∀ query query', AsksFor py query .quarters n → AsksFor py query' .months (3 * n) →
      datesFound (windowFromQuery py query anchor) = datesFound (windowFromQuery py query' anchor)) ∧
    ∀ query w, AsksFor py query .months 12 → windowFromQuery py query anchor = .ok (some w) →
      ∃ start : Date, w.start = some start.isoformat ∧ w.stop = some anchor.isoformat ∧
        start.year + 1 = anchor.year ∧ start.month = anchor.month ∧
        start.day = Nat.min anchor.day (monthrange start.year anchor.month) := by
  refine ⟨fun query w h hw => ?_, fun query query' h h' => ?_, fun query w h hw => ?_⟩
  · obtain ⟨start, hstart, rfl⟩ := windowFromQuery_start h hw
    rw [capped_of_ne (by decide)] at hstart
    refine ⟨start, rfl, rfl, weeks_daysFrom hstart, fun hshort query' h' => ?_⟩
    have hdays := (days_start_eq_weeks hshort).trans hstart
    refine ⟨absolute start anchor (some (LookBack.days.token (LookBack.days.capped (7 * n + 1)))), ?_,
      absolute_dates start anchor _ _⟩
    rw [windowFromQuery_asksFor h', hdays]
    rfl
  · rw [windowFromQuery_asksFor h, windowFromQuery_asksFor h', capped_of_ne (by decide), capped_of_ne (by decide),
      quarters_start_eq_months]
    cases LookBack.months.start anchor (3 * n) with
    | none => rfl
    | some start => rfl
  · obtain ⟨start, hstart, rfl⟩ := windowFromQuery_start h hw
    rw [capped_of_ne (by decide)] at hstart
    exact ⟨start, rfl, rfl, months_start_twelve hstart⟩

theorem twoWeeks_asked : AsksFor asciiWindows "sales in the last 2 weeks" .weeks 2 :=
  ⟨['2'], by decide +kernel, by decide +kernel⟩

theorem fifteenDays_asked : AsksFor asciiWindows "sales in the last 15 days" .days 15 :=
  ⟨['1', '5'], by decide +kernel, by decide +kernel⟩

theorem twoWeeks_fifteenDays : ∃ w w',
    windowFromQuery asciiWindows "sales in the last 2 weeks" thirdOfSeptember = .ok (some w) ∧
    windowFromQuery asciiWindows "sales in the last 15 days" thirdOfSeptember = .ok (some w') ∧
    w'.start = w.start ∧ w'.stop = w.stop := by
  have hquery : windowFromQuery asciiWindows "sales in the last 2 weeks" thirdOfSeptember =
      .ok (some (absolute ⟨2026, 8, 20, by decide, by decide, by decide⟩ thirdOfSeptember (some "last_2w"))) := by
    rw [windowFromQuery_asksFor twoWeeks_asked]
    rfl
  obtain ⟨start, -, -, -, hdays⟩ := (units_agree asciiWindows thirdOfSeptember 2).1 _ _ twoWeeks_asked hquery
  obtain ⟨w', hw', hsame⟩ := hdays (by decide) _ fifteenDays_asked
  exact ⟨_, w', hquery, hw', hsame⟩

/-- A week has eight days, and a year both ends. -/
theorem oneWeek_eightDays :
    (∃ start : Date, windowFromQuery asciiWindows "last 1 weeks" thirdOfSeptember =
        .ok (some (absolute start thirdOfSeptember (some "last_1w"))) ∧ daysFrom start thirdOfSeptember ≠ 7 * 1) ∧
    ∃ start : Date, windowFromQuery asciiWindows "last 12 months" thirdOfSeptember =
        .ok (some (absolute start thirdOfSeptember (some "last_12m"))) ∧
      start.year + 1 = thirdOfSeptember.year ∧ start.month = thirdOfSeptember.month ∧ start.day = thirdOfSeptember.day := by
  have hweek : AsksFor asciiWindows "last 1 weeks" .weeks 1 := ⟨['1'], by decide +kernel, by decide +kernel⟩
  have hyear : AsksFor asciiWindows "last 12 months" .months 12 := ⟨['1', '2'], by decide +kernel, by decide +kernel⟩
  refine ⟨⟨⟨2026, 8, 27, by decide, by decide, by decide⟩, ?_, by decide⟩,
    ⟨2025, 9, 3, by decide, by decide, by decide⟩, ?_, rfl, rfl, rfl⟩
  · rw [windowFromQuery_asksFor hweek]
    rfl
  · rw [windowFromQuery_asksFor hyear]
    rfl

end SelericSwarm.TimeRange
