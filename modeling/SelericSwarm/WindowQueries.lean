import SelericSwarm.CalendarOrder
import SelericSwarm.IsoDates
import SelericSwarm.WindowPatterns

/-! The windows that questions and classified ranges stand for. -/
namespace SelericSwarm.TimeRange
open Backtracking

/-! `lookup.py`. -/

inductive RangeKind where
  | absolute
  | relative
  | comparison
  | none
  deriving DecidableEq

structure TimeRangeV1 where
  kind : RangeKind := .none
  start : Option String := none
  stop : Option String := none
  startB : Option String := none
  stopB : Option String := none
  relativeToken : Option String := none
  deriving DecidableEq

/-! `time_range.py`. -/

/-- What is raised: out of the calendar, too many digits for `int`, no such month, or a value error with its text. -/
inductive WindowError where
  | date (error : DateError)
  | digits
  | month (name : String)
  | value (message : String)

def inCalendar (d : Option Date) : Except WindowError Date := (dated d).mapError .date

/-- `date(year, month, day)` -/
def dateOf (year month day : Nat) : Option Date :=
  if h : (1 ≤ year ∧ year ≤ 9999) ∧ (1 ≤ month ∧ month ≤ 12) ∧ 1 ≤ day ∧ day ≤ monthrange year month then
    some { year, month, day, year_range := h.1, month_range := h.2.1, day_range := h.2.2 }
  else none

def absolute (start stop : Date) (token : Option String) : TimeRangeV1 where
  kind := .absolute
  start := some start.isoformat
  stop := some stop.isoformat
  relativeToken := token

def comparison (start stop startB stopB : String) (token : Option String := none) : TimeRangeV1 where
  kind := .comparison
  start := some start
  stop := some stop
  startB := some startB
  stopB := some stopB
  relativeToken := token

def LookBack.capped (unit : LookBack) (n : Nat) : Nat := if unit = .days then max 1 (min n 90) else n

def LookBack.start (unit : LookBack) (anchor : Date) (n : Nat) : Option Date :=
  match unit with
  | days => anchor.subDays (n - 1)
  | weeks => anchor.subDays (7 * n)
  | months => subMonths anchor n
  | quarters => subMonths anchor (n * 3 : Nat)

def LookBack.letter : LookBack → String
  | days => "d"
  | weeks => "w"
  | months => "m"
  | quarters => "q"

def LookBack.token (unit : LookBack) (n : Nat) : String := "last_" ++ toString n ++ unit.letter

/-- `_PERIOD_VS_PRIOR_TOKENS` -/
def PeriodUnit.token (unit : PeriodUnit) : String := "this_" ++ unit.word ++ "_vs_last_" ++ unit.word

/-- The windows of `_period_vs_prior`, as a comparison. -/
def versusPrior (anchor : Date) (unit : PeriodUnit) : Except WindowError TimeRangeV1 := do
  let w ← (periodVsPrior anchor unit.word).mapError .date
  .ok (comparison w.aStart.isoformat w.aEnd.isoformat w.bStart.isoformat w.bEnd.isoformat unit.token)

def NamedPeriod.token : NamedPeriod → String
  | yesterday => "yesterday"
  | today => "today"
  | thisMonth => "this_month"
  | thisWeek => "this_week"
  | thisYear => "this_year"

def NamedPeriod.window (period : NamedPeriod) (anchor : Date) : Except WindowError TimeRangeV1 := do
  let token := some period.token
  match period with
  | yesterday =>
    let day ← inCalendar (anchor.subDays 1)
    .ok (absolute day day token)
  | today => .ok (absolute anchor anchor token)
  | thisMonth => .ok (absolute (firstOfMonth anchor) anchor token)
  | thisWeek =>
    let start ← inCalendar (anchor.subDays anchor.weekday)
    .ok (absolute start anchor token)
  | thisYear => .ok (absolute (firstOfYear anchor) anchor token)

section Windows
variable (py : WindowText)

def readInt (digits : List Char) : Except WindowError Nat :=
  match py.int digits with
  | some n => .ok n
  | none => .error .digits

/-- The last so many days, weeks, months or quarters. -/
def lookBackWindow (unit : LookBack) (n : Nat) (anchor : Date) (token : String) : Except WindowError TimeRangeV1 := do
  let start ← inCalendar (unit.start anchor n)
  .ok (absolute start anchor (some token))

/-- `_month_range` of a name and a year. -/
def monthRange (named : List Char × List Char) : Except WindowError (Date × Date) := do
  let year ← readInt py named.2
  let name := py.lower (String.ofList named.1)
  match monthNames.lookup name with
  | none => .error (.month name)
  | some month =>
    let first ← inCalendar (dateOf year month 1)
    let last ← inCalendar (dateOf year month (monthrange year month))
    .ok (first, last)

def windowOf (anchor : Date) : Asked → Except WindowError (Option TimeRangeV1)
  | .lookBack unit digits => do
    let n ← digits.elim (.ok 1) (readInt py)
    let window ← lookBackWindow unit (unit.capped n) anchor (unit.token (unit.capped n))
    .ok (some window)
  | .ranges (aStart, aStop) (some (bStart, bStop)) =>
    .ok (some (comparison (.ofList aStart) (.ofList aStop) (.ofList bStart) (.ofList bStop)))
  | .ranges (start, stop) none =>
    .ok (some { kind := .absolute, start := some (.ofList start), stop := some (.ofList stop) })
  | .months a (some b) => do
    let (aStart, aStop) ← monthRange py a
    let (bStart, bStop) ← monthRange py b
    .ok (some (comparison aStart.isoformat aStop.isoformat bStart.isoformat bStop.isoformat))
  | .months a none => do
    let (start, stop) ← monthRange py a
    .ok (some (absolute start stop none))
  | .days a (some b) => .ok (some (comparison (.ofList a) (.ofList a) (.ofList b) (.ofList b)))
  | .days a none => .ok (some { kind := .absolute, start := some (.ofList a), stop := some (.ofList a) })
  | .priorPeriod unit => do
    let window ← versusPrior anchor unit
    .ok (some window)
  | .named period => do
    let window ← period.window anchor
    .ok (some window)
  | .nothing => .ok none

/-- `window_from_query`, behind `as_of_date`. -/
def windowFromQuery (query : String) (anchor : Date) : Except WindowError (Option TimeRangeV1) :=
  windowOf py anchor (py.asked query)

/-- `last_(\d+)d` and the like. -/
def tokenPattern (unit : LookBack) : Regex :=
  .seq (exactly "last_") (.seq (.group 1 py.digits) (exactly unit.letter))

/-- `text[:10]` -/
def tenChars (text : String) : String := .ofList (text.toList.take 10)

def given (text : Option String) : Option String := text.filter fun s => s ≠ ""

def relativeWindow (token : Option String) (anchor : Date) : Except WindowError TimeRangeV1 :=
  match given token with
  | none => .error (.value "relative time_range requires a relative_token")
  | some token =>
    match LookBack.all.findSome? fun unit => ((tokenPattern py unit).captures token.toList).map (Prod.mk unit) with
    | some (unit, groups) => do
      let n ← readInt py ((groups.lookup 1).getD [])
      lookBackWindow unit (unit.capped n) anchor token
    | none =>
      match NamedPeriod.all.find? fun period => period.token = token with
      | some period => period.window anchor
      | none => .error (.value ("unrecognized relative_token: " ++ py.repr token))

def undatedComparison : String :=
  "comparison needs two dated periods — give explicit start/end dates " ++
    "for both periods, or a period-over-period phrase " ++
    "(e.g. 'this week vs last week', 'June 2026 vs August 2026')"

def comparedDates (w : TimeRangeV1) (anchor : Date) : Except WindowError TimeRangeV1 :=
  if w.relativeToken = some "yesterday_vs_as_of" then do
    let day ← inCalendar (anchor.subDays 1)
    .ok (comparison day.isoformat day.isoformat anchor.isoformat anchor.isoformat w.relativeToken)
  else
    match PeriodUnit.all.find? fun unit => w.relativeToken = some unit.token with
    | some unit => versusPrior anchor unit
    | none => .ok w

def comparisonWindow (w : TimeRangeV1) (anchor : Date) : Except WindowError TimeRangeV1 := do
  let dates ← comparedDates w anchor
  match given dates.start, given dates.stop with
  | some start, some stop =>
    let result : TimeRangeV1 :=
      { kind := .comparison, start := some (tenChars start), stop := some (tenChars stop), relativeToken := w.relativeToken }
    match given dates.startB, given dates.stopB with
    | some startB, some stopB => .ok { result with startB := some (tenChars startB), stopB := some (tenChars stopB) }
    | _, _ => .ok result
  | _, _ => .error (.value undatedComparison)

/-- `resolve_time_range`, behind `as_of_date`. -/
def resolveTimeRange (w : TimeRangeV1) (anchor : Date) : Except WindowError TimeRangeV1 :=
  match w.kind, given w.start with
  | .absolute, some start =>
    let day := tenChars start
    .ok { kind := .absolute, start := some day, stop := some ((given w.stop).elim day tenChars) }
  | .relative, _ => relativeWindow py w.relativeToken anchor
  | .comparison, _ => comparisonWindow w anchor
  | _, _ => .ok w

end Windows
end SelericSwarm.TimeRange
