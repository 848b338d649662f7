import SelericSwarm.LookBackUnits

/-! Which questions have a window of real dates. -/
namespace SelericSwarm.TimeRange
open Option

/-- From a date of the calendar to one that is not before it. -/
def Span (start stop : String) : Prop :=
  ∃ first last : Date, start = first.isoformat ∧ stop = last.isoformat ∧ first.toordinal ≤ last.toordinal

/-- A window of real dates. -/
structure Real (w : TimeRangeV1) : Prop where
  dated : ∃ start stop, w.start = some start ∧ w.stop = some stop ∧ Span start stop
  compared : (w.startB = none ∧ w.stopB = none) ∨
    ∃ startB stopB, w.startB = some startB ∧ w.stopB = some stopB ∧ Span startB stopB

def Sound : Except WindowError (Option TimeRangeV1) → Prop
  | .error _ => False
  | .ok none => True
  | .ok (some w) => Real w

/-! What is asked for is there. -/

/-- The month of a date, counted from the first of the calendar. -/
def monthsSoFar (d : Date) : Nat := (d.year - 1) * 12 + d.month

def LookBack.GoesBack : LookBack → Date → Nat → Prop
  | days, anchor, n => min n 90 ≤ anchor.toordinal
  | weeks, anchor, n => 7 * n < anchor.toordinal
  | months, anchor, n => n < monthsSoFar anchor
  | quarters, anchor, n => 3 * n < monthsSoFar anchor

/-- A month of the table in a year of the calendar. -/
def MonthFits (py : WindowText) (named : List Char × List Char) : Prop :=
  (∃ year, py.int named.2 = some year ∧ 1 ≤ year ∧ year ≤ 9999) ∧
    ∃ month, monthNames.lookup (py.lower (.ofList named.1)) = some month

def SpanFits (range : List Char × List Char) : Prop := Span (.ofList range.1) (.ofList range.2)

def DayFits (day : List Char) : Prop := ∃ date : Date, String.ofList day = date.isoformat

/-- The period before is in the calendar. -/
def PeriodUnit.GoesBack : PeriodUnit → Date → Prop
  | week, anchor => anchor.weekday + 7 < anchor.toordinal
  | month, anchor => 1 < monthsSoFar anchor
  | year, anchor => 1 < anchor.year

def Asked.Fits (py : WindowText) (anchor : Date) : Asked → Prop
  | lookBack unit digits => ∃ n, digits.elim (some 1) py.int = some n ∧ unit.GoesBack anchor n
  | ranges first second => SpanFits first ∧ ∀ range ∈ second, SpanFits range
  | months first second => MonthFits py first ∧ ∀ named ∈ second, MonthFits py named
  | days first second => DayFits first ∧ ∀ day ∈ second, DayFits day
  | priorPeriod unit => unit.GoesBack anchor
  | named .yesterday => 1 < anchor.toordinal
  | named _ | nothing => True

theorem span_isoformat {start stop : Date} : Span start.isoformat stop.isoformat ↔ start.toordinal ≤ stop.toordinal := by
  constructor
  · intro ⟨first, last, hfirst, hlast, hle⟩
    rw [Date.isoformat_injective hfirst, Date.isoformat_injective hlast]
    exact hle
  · intro hle
    exact ⟨start, stop, rfl, rfl, hle⟩

theorem span_self {day : String} : Span day day ↔ ∃ date : Date, day = date.isoformat := by
  constructor
  · intro ⟨first, _, hfirst, _, _⟩
    exact ⟨first, hfirst⟩
  · intro ⟨date, hdate⟩
    exact ⟨date, date, hdate, hdate, Nat.le_refl _⟩

theorem real_absolute {start stop : Date} {token : Option String} :
    Real (absolute start stop token) ↔ start.toordinal ≤ stop.toordinal := by
  constructor
  · intro ⟨⟨_, _, hstart, hstop, hspan⟩, _⟩
    rw [← Option.some.inj hstart, ← Option.some.inj hstop] at hspan
    exact span_isoformat.mp hspan
  · intro hle
    exact ⟨⟨_, _, rfl, rfl, span_isoformat.mpr hle⟩, .inl ⟨rfl, rfl⟩⟩

theorem real_comparison {start stop startB stopB : String} {token : Option String} :
    Real (comparison start stop startB stopB token) ↔ Span start stop ∧ Span startB stopB := by
  constructor
  · intro ⟨⟨_, _, hstart, hstop, hspan⟩, hcompared⟩
    rw [← Option.some.inj hstart, ← Option.some.inj hstop] at hspan
    refine ⟨hspan, ?_⟩
    obtain ⟨hnone, _⟩ | ⟨_, _, hstartB, hstopB, hspanB⟩ := hcompared
    · cases hnone
    · rw [← Option.some.inj hstartB, ← Option.some.inj hstopB] at hspanB
      exact hspanB
  · intro ⟨hspan, hspanB⟩
    exact ⟨⟨_, _, rfl, rfl, hspan⟩, .inr ⟨_, _, rfl, rfl, hspanB⟩⟩

theorem sound_bind {α : Type} {x : Except WindowError α} {f : α → Except WindowError (Option TimeRangeV1)} :
    Sound (x >>= f) ↔ ∃ a, x = .ok a ∧ Sound (f a) := by
  cases x with
  | error e => exact ⟨fun h => h.elim, fun ⟨_, ha, _⟩ => (by cases ha)⟩
  | ok a =>
    constructor
    · intro h
      exact ⟨a, rfl, h⟩
    · intro ⟨a', ha, h⟩
      cases ha
      exact h

section Pieces
variable {anchor : Date}

theorem exists_start_iff (unit : LookBack) (n : Nat) :
    (∃ start, unit.start anchor (unit.capped n) = some start) ↔ unit.GoesBack anchor n := by
  have hpos := anchor.toordinal_pos
  have hyear := anchor.year_range
  cases unit with
  | days =>
    rw [LookBack.start, Date.exists_subDays_iff, LookBack.capped, if_pos rfl, LookBack.GoesBack]
    omega
  | weeks =>
    rw [capped_of_ne (by decide), LookBack.start, Date.exists_subDays_iff]
    rfl
  | months =>
    rw [capped_of_ne (by decide), LookBack.start, exists_subMonths_iff, LookBack.GoesBack, monthsSoFar]
    omega
  | quarters =>
    rw [capped_of_ne (by decide), LookBack.start, exists_subMonths_iff, LookBack.GoesBack, monthsSoFar]
    omega

theorem start_toordinal_le {unit : LookBack} {n : Nat} {start : Date} (h : unit.start anchor n = some start) :
    start.toordinal ≤ anchor.toordinal := by
  cases unit with
  | days => exact (Nat.le_add_right _ _).trans (Date.subDays_toordinal _ h).le
  | weeks => exact (Nat.le_add_right _ _).trans (Date.subDays_toordinal _ h).le
  | months => exact subMonths_toordinal_le h
  | quarters => exact subMonths_toordinal_le h

theorem lookBack_sound_iff (unit : LookBack) (n : Nat) (token : String) :
    Sound (lookBackWindow unit (unit.capped n) anchor token >>= fun window => .ok (some window)) ↔ unit.GoesBack anchor n := by
  rw [sound_bind, ← exists_start_iff]
  constructor
  · intro ⟨window, hwindow, _⟩
    obtain ⟨start, hstart, _⟩ := Outcomes.bind_eq_ok.mp hwindow
    exact ⟨start, inCalendar_eq_ok.mp hstart⟩
  · intro ⟨start, hstart⟩
    refine ⟨absolute start anchor (some token), ?_, real_absolute.mpr (start_toordinal_le hstart)⟩
    rw [lookBackWindow, hstart]
    rfl

theorem prior_sound_iff (unit : PeriodUnit) :
    Sound (versusPrior anchor unit >>= fun window => .ok (some window)) ↔ ∃ window, versusPrior anchor unit = .ok window := by
  rw [sound_bind]
  constructor
  · intro ⟨window, hwindow, _⟩
    exact ⟨window, hwindow⟩
  · intro ⟨window, hwindow⟩
    refine ⟨window, hwindow, ?_⟩
    obtain ⟨⟨start, startB, stopB, hstart, hstop, hstartB, hstopB, _, hle, hleB, _⟩, _⟩ := versusPrior_periods hwindow
    exact ⟨⟨_, _, hstart, hstop, span_isoformat.mpr hle⟩, .inr ⟨_, _, hstartB, hstopB, span_isoformat.mpr hleB⟩⟩

theorem exists_versusPrior_iff (unit : PeriodUnit) : (∃ window, versusPrior anchor unit = .ok window) ↔ unit.GoesBack anchor := by
  have hyear := anchor.year_range
  have hmonth := anchor.month_range
  have hwindows : (∃ window, versusPrior anchor unit = .ok window) ↔ ∃ w, periodVsPrior anchor unit.word = .ok w := by
    constructor
    · rintro ⟨window, hwindow⟩
      obtain ⟨w, hw, _⟩ := Outcomes.bind_eq_ok.mp hwindow
      exact ⟨w, mapError_eq_ok.mp hw⟩
    · rintro ⟨w, hw⟩
      exact ⟨_, Outcomes.bind_eq_ok.mpr ⟨w, mapError_eq_ok.mpr hw, rfl⟩⟩
  rw [hwindows]
  cases unit with
  | week =>
    change (∃ w, periodVsPrior anchor "week" = .ok w) ↔ _
    rw [periodVsPrior, if_pos rfl]
    constructor
    · rintro ⟨w, hw⟩
      obtain ⟨start, hstart, hw⟩ := dated_bind.mp hw
      obtain ⟨startB, hstartB, _⟩ := dated_bind.mp hw
      have hfirst := Date.subDays_toordinal _ hstart
      have hfirstB := Date.subDays_toordinal _ hstartB
      have hpos := startB.toordinal_pos
      show anchor.weekday + 7 < anchor.toordinal
      omega
    · intro (h : anchor.weekday + 7 < anchor.toordinal)
      obtain ⟨start, hstart⟩ := (Date.exists_subDays_iff anchor.weekday).mpr (by omega : anchor.weekday < anchor.toordinal)
      have hfirst := Date.subDays_toordinal _ hstart
      obtain ⟨startB, hstartB⟩ := (Date.exists_subDays_iff 7).mpr (by omega : 7 < start.toordinal)
      obtain ⟨stopB, hstopB⟩ := (Date.exists_subDays_iff 7).mpr (by omega : 7 < anchor.toordinal)
      exact ⟨_, dated_bind.mpr ⟨start, hstart, dated_bind.mpr ⟨startB, hstartB, dated_bind.mpr ⟨stopB, hstopB, rfl⟩⟩⟩⟩
  | month =>
    change (∃ w, periodVsPrior anchor "month" = .ok w) ↔ 1 < monthsSoFar anchor
    have hexists : (∃ prior, subMonths anchor 1 = some prior) ↔ 1 < monthsSoFar anchor :=
      (exists_subMonths_iff 1).trans (by rw [monthsSoFar]; omega)
    rw [periodVsPrior, if_neg (by decide), if_pos rfl, ← hexists]
    constructor
    · rintro ⟨w, hw⟩
      obtain ⟨prior, hprior, _⟩ := dated_bind.mp hw
      exact ⟨prior, hprior⟩
    · rintro ⟨prior, hprior⟩
      exact ⟨_, dated_bind.mpr ⟨prior, hprior, rfl⟩⟩
  | year =>
    change (∃ w, periodVsPrior anchor "year" = .ok w) ↔ 1 < anchor.year
    have hexists : (∃ prior, subMonths anchor 12 = some prior) ↔ 1 < anchor.year :=
      (exists_subMonths_iff 12).trans (by omega)
    rw [periodVsPrior, if_neg (by decide), if_neg (by decide), if_pos rfl, ← hexists]
    constructor
    · rintro ⟨w, hw⟩
      obtain ⟨prior, hprior, _⟩ := dated_bind.mp hw
      exact ⟨prior, hprior⟩
    · rintro ⟨prior, hprior⟩
      exact ⟨_, dated_bind.mpr ⟨prior, hprior, rfl⟩⟩

theorem named_sound_iff (py : WindowText) (period : NamedPeriod) :
    Sound (period.window anchor >>= fun window => .ok (some window)) ↔ (Asked.named period).Fits py anchor := by
  have hpos := anchor.toordinal_pos
  cases period with
  | yesterday =>
    show _ ↔ 1 < anchor.toordinal
    rw [sound_bind, ← Date.exists_subDays_iff]
    constructor
    · intro ⟨window, hwindow, _⟩
      obtain ⟨day, hday, _⟩ := Outcomes.bind_eq_ok.mp hwindow
      exact ⟨day, inCalendar_eq_ok.mp hday⟩
    · intro ⟨day, hday⟩
      exact ⟨absolute day day _, Outcomes.bind_eq_ok.mpr ⟨day, inCalendar_eq_ok.mpr hday, rfl⟩, real_absolute.mpr (Nat.le_refl _)⟩
  | today => exact ⟨fun _ => trivial, fun _ => real_absolute.mpr (Nat.le_refl _)⟩
  | thisMonth => exact ⟨fun _ => trivial, fun _ => real_absolute.mpr (firstOfMonth_toordinal_le anchor)⟩
  | thisWeek =>
    refine ⟨fun _ => trivial, fun _ => sound_bind.mpr ?_⟩
    -- the first day of the calendar is a Monday
    have hweekday : anchor.weekday < anchor.toordinal := by
      rw [Date.weekday]
      omega
    obtain ⟨start, hstart⟩ := (Date.exists_subDays_iff anchor.weekday).mpr hweekday
    have hfirst := Date.subDays_toordinal _ hstart
    exact ⟨absolute start anchor _, Outcomes.bind_eq_ok.mpr ⟨start, inCalendar_eq_ok.mpr hstart, rfl⟩, real_absolute.mpr (by omega)⟩
  | thisYear => exact ⟨fun _ => trivial, fun _ => real_absolute.mpr (firstOfYear_toordinal_le anchor)⟩

end Pieces

section Months
variable {py : WindowText}

theorem month_range_of_lookup {name : String} {month : Nat} (h : monthNames.lookup name = some month) :
    1 ≤ month ∧ month ≤ 12 := by
  have hall : ∀ entry ∈ monthNames, 1 ≤ entry.2 ∧ entry.2 ≤ 12 := by decide
  obtain ⟨l₁, l₂, hsplit, _⟩ := List.lookup_eq_some_iff.mp h
  exact hall (name, month) (hsplit ▸ by simp)

theorem exists_dateOf_iff {year month day : Nat} (hmonth : 1 ≤ month ∧ month ≤ 12)
    (hday : 1 ≤ day ∧ day ≤ monthrange year month) : (∃ d, dateOf year month day = some d) ↔ 1 ≤ year ∧ year ≤ 9999 := by
  unfold dateOf
  split
  · next h => exact ⟨fun _ => h.1, fun _ => ⟨_, rfl⟩⟩
  · next h =>
    constructor
    · rintro ⟨d, hd⟩
      cases hd
    · intro hyear
      exact absurd ⟨hyear, hmonth, hday⟩ h

theorem dateOf_parts {year month day : Nat} {d : Date} (h : dateOf year month day = some d) :
    d.year = year ∧ d.month = month ∧ d.day = day := by
  unfold dateOf at h
  split at h
  · cases h
    exact ⟨rfl, rfl, rfl⟩
  · cases h

theorem monthRange_cases {named : List Char × List Char} {dates : Date × Date} (h : monthRange py named = .ok dates) :
    MonthFits py named ∧ dates.1.toordinal ≤ dates.2.toordinal := by
  obtain ⟨year, hyear, h⟩ := Outcomes.bind_eq_ok.mp h
  have hint : py.int named.2 = some year := by
    cases hint : py.int named.2 with
    | none =>
      rw [readInt, hint] at hyear
      cases hyear
    | some n =>
      rw [readInt, hint] at hyear
      exact congrArg some (Except.ok.inj hyear)
  dsimp only at h
  cases hlookup : monthNames.lookup (py.lower (String.ofList named.1)) with
  | none =>
    rw [hlookup] at h
    cases h
  | some month =>
    rw [hlookup] at h
    obtain ⟨first, hfirst, h⟩ := Outcomes.bind_eq_ok.mp h
    obtain ⟨last, hlast, h⟩ := Outcomes.bind_eq_ok.mp h
    cases h
    have hmonth := month_range_of_lookup hlookup
    have hfirst := inCalendar_eq_ok.mp hfirst
    have hlast := inCalendar_eq_ok.mp hlast
    have hrange := (exists_dateOf_iff hmonth ⟨Nat.le_refl 1, monthrange_pos year month⟩).mp ⟨first, hfirst⟩
    refine ⟨⟨⟨year, hint, hrange⟩, month, hlookup⟩, ?_⟩
    obtain ⟨hyear₁, hmonth₁, hday₁⟩ := dateOf_parts hfirst
    obtain ⟨hyear₂, hmonth₂, hday₂⟩ := dateOf_parts hlast
    have hpos := monthrange_pos year month
    simp only [Date.toordinal, hyear₁, hmonth₁, hday₁, hyear₂, hmonth₂, hday₂]
    omega

theorem exists_monthRange {named : List Char × List Char} (h : MonthFits py named) :
    ∃ dates, monthRange py named = .ok dates := by
  obtain ⟨⟨year, hint, hyear⟩, month, hlookup⟩ := h
  have hmonth := month_range_of_lookup hlookup
  have hpos := monthrange_pos year month
  obtain ⟨first, hfirst⟩ := (exists_dateOf_iff hmonth ⟨Nat.le_refl 1, hpos⟩).mpr hyear
  obtain ⟨last, hlast⟩ := (exists_dateOf_iff hmonth ⟨hpos, Nat.le_refl _⟩).mpr hyear
  refine ⟨(first, last), Outcomes.bind_eq_ok.mpr ⟨year, by rw [readInt, hint], ?_⟩⟩
  dsimp only
  rw [hlookup]
  exact Outcomes.bind_eq_ok.mpr ⟨first, inCalendar_eq_ok.mpr hfirst, Outcomes.bind_eq_ok.mpr ⟨last, inCalendar_eq_ok.mpr hlast, rfl⟩⟩

theorem months_sound_iff (anchor : Date) (first : List Char × List Char) (second : Option (List Char × List Char)) :
    Sound (windowOf py anchor (.months first second)) ↔ (Asked.months first second).Fits py anchor := by
  cases second with
  | none =>
    show Sound (monthRange py first >>= _) ↔ _
    rw [sound_bind]
    constructor
    · intro ⟨dates, hdates, _⟩
      exact ⟨(monthRange_cases hdates).1, fun _ h => (by cases h)⟩
    · intro ⟨hfirst, _⟩
      obtain ⟨dates, hdates⟩ := exists_monthRange hfirst
      exact ⟨dates, hdates, real_absolute.mpr (monthRange_cases hdates).2⟩
  | some second =>
    show Sound (monthRange py first >>= _) ↔ _
    rw [sound_bind]
    constructor
    · intro ⟨dates, hdates, h⟩
      obtain ⟨dates', hdates', _⟩ := sound_bind.mp h
      refine ⟨(monthRange_cases hdates).1, fun named h => ?_⟩
      cases h
      exact (monthRange_cases hdates').1
    · intro ⟨hfirst, hsecond⟩
      obtain ⟨dates, hdates⟩ := exists_monthRange hfirst
      obtain ⟨dates', hdates'⟩ := exists_monthRange (hsecond second rfl)
      refine ⟨dates, hdates, sound_bind.mpr ⟨dates', hdates', real_comparison.mpr ?_⟩⟩
      exact ⟨span_isoformat.mpr (monthRange_cases hdates).2, span_isoformat.mpr (monthRange_cases hdates').2⟩

end Months

theorem real_copied {start stop : String} :
    Real { kind := .absolute, start := some start, stop := some stop } ↔ Span start stop := by
  constructor
  · intro ⟨⟨_, _, hstart, hstop, hspan⟩, _⟩
    rw [← Option.some.inj hstart, ← Option.some.inj hstop] at hspan
    exact hspan
  · intro hspan
    exact ⟨⟨_, _, rfl, rfl, hspan⟩, .inl ⟨rfl, rfl⟩⟩

theorem forall_mem_none {α : Type} {p : α → Prop} : (∀ a ∈ (none : Option α), p a) ↔ True :=
  ⟨fun _ => trivial, fun _ _ h => (by cases h)⟩

theorem forall_mem_some {α : Type} {p : α → Prop} {b : α} : (∀ a ∈ some b, p a) ↔ p b :=
  ⟨fun h => h b rfl, fun h _ ha => Option.some.inj ha ▸ h⟩

/-- A question has no window or one of real dates exactly where what it asks for is in the calendar. -/
theorem windowFromQuery_sound_iff (py : WindowText) (query : String) (anchor : Date) :
    Sound (windowFromQuery py query anchor) ↔ (py.asked query).Fits py anchor := by
  rw [windowFromQuery]
  cases py.asked query with
  | lookBack unit digits =>
    show Sound (digits.elim (.ok 1) (readInt py) >>= _) ↔ ∃ n, digits.elim (some 1) py.int = some n ∧ unit.GoesBack anchor n
    rw [sound_bind]
    have hread : ∀ n, digits.elim (.ok 1) (readInt py) = .ok n ↔ digits.elim (some 1) py.int = some n := by
      intro n
      cases digits with
      | none =>
        rw [elim_none, elim_none, Except.ok.injEq, Option.some.injEq]
      | some digits =>
        rw [elim_some, elim_some, readInt]
        cases py.int digits with
        | none => exact ⟨fun h => (by cases h), fun h => (by cases h)⟩
        | some m =>
          dsimp only
          rw [Except.ok.injEq, Option.some.injEq]
    constructor
    · rintro ⟨n, hn, h⟩
      exact ⟨n, (hread n).mp hn, (lookBack_sound_iff unit n _).mp h⟩
    · rintro ⟨n, hn, h⟩
      exact ⟨n, (hread n).mpr hn, (lookBack_sound_iff unit n _).mpr h⟩
  | ranges first second =>
    cases second with
    | none =>
      show Real _ ↔ SpanFits first ∧ _
      rw [real_copied, forall_mem_none, and_true, SpanFits]
    | some second =>
      show Real (comparison _ _ _ _) ↔ SpanFits first ∧ _
      rw [real_comparison, forall_mem_some, SpanFits, SpanFits]
  | months first second => exact months_sound_iff anchor first second
  | days first second =>
    cases second with
    | none =>
      show Real _ ↔ DayFits first ∧ _
      rw [real_copied, forall_mem_none, and_true, span_self, DayFits]
    | some second =>
      show Real (comparison _ _ _ _) ↔ DayFits first ∧ _
      rw [real_comparison, forall_mem_some, span_self, span_self, DayFits, DayFits]
  | priorPeriod unit => exact (prior_sound_iff unit).trans (exists_versusPrior_iff unit)
  | named period => exact named_sound_iff py period
  | nothing => exact ⟨fun _ => trivial, fun _ => trivial⟩

/-- So many months ago there was no calendar, and a range may run backwards. -/
theorem longAgo_backwards :
    ¬ Sound (windowFromQuery asciiWindows "orders in the last 99999 months" thirdOfSeptember) ∧
      ¬ Sound (windowFromQuery asciiWindows "sales 2026-08-31 to 2026-08-01" thirdOfSeptember) := by
  constructor
  · rw [windowFromQuery, show asciiWindows.asked "orders in the last 99999 months" =
      .lookBack .months (some ['9', '9', '9', '9', '9']) by decide +kernel]
    intro h
    obtain ⟨n, hn, h⟩ := sound_bind.mp h
    cases hn
    exact absurd ((lookBack_sound_iff .months 99999 _).mp h) (by decide : ¬ 99999 < monthsSoFar thirdOfSeptember)
  · rw [windowFromQuery, show asciiWindows.asked "sales 2026-08-31 to 2026-08-01" =
      .ranges ("2026-08-31".toList, "2026-08-01".toList) none by decide +kernel]
    intro h
    obtain ⟨first, last, hfirst, hlast, hle⟩ := real_copied.mp h
    have hstart : (⟨2026, 8, 31, by decide, by decide, by decide⟩ : Date).isoformat = first.isoformat := hfirst
    have hstop : (⟨2026, 8, 1, by decide, by decide, by decide⟩ : Date).isoformat = last.isoformat := hlast
    rw [← Date.isoformat_injective hstart, ← Date.isoformat_injective hstop] at hle
    exact absurd hle (by decide)

end SelericSwarm.TimeRange
