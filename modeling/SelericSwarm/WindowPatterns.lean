import SelericSwarm.RedactionPatterns
import SelericSwarm.RegexSearch

/-! What a question asks for: the patterns in the order in which they are tried. -/
namespace SelericSwarm.TimeRange
open Backtracking

/-- What Python knows of texts with numbers: the values of the digits (what else has one does not matter), and `repr`. -/
structure WindowText extends PythonText String where
  decimal : Char → Nat
  repr : String → String
  decimal_lt : ∀ c, decimal c < 10
  decimal_ascii : ∀ c : Char, c.isDigit = true → decimal c = c.toNat - 48

inductive LookBack where
  | days
  | weeks
  | months
  | quarters
  deriving DecidableEq

inductive PeriodUnit where
  | week
  | month
  | year
  deriving DecidableEq

inductive NamedPeriod where
  | yesterday
  | today
  | thisMonth
  | thisWeek
  | thisYear
  deriving DecidableEq

/-- The first thing that a question asks for, with what the groups of its pattern hold. -/
inductive Asked where
  | lookBack (unit : LookBack) (digits : Option (List Char))
  | ranges (first : List Char × List Char) (second : Option (List Char × List Char))
  | months (first : List Char × List Char) (second : Option (List Char × List Char))
  | days (first : List Char) (second : Option (List Char))
  | priorPeriod (unit : PeriodUnit)
  | named (period : NamedPeriod)
  | nothing
  deriving DecidableEq

def LookBack.word : LookBack → String
  | days => "day"
  | weeks => "week"
  | months => "month"
  | quarters => "quarter"

def LookBack.all : List LookBack := [days, weeks, months, quarters]

def PeriodUnit.word : PeriodUnit → String
  | week => "week"
  | month => "month"
  | year => "year"

/-- `wow`, `mom` and `yoy`. -/
def PeriodUnit.short : PeriodUnit → String
  | week => "wow"
  | month => "mom"
  | year => "yoy"

def PeriodUnit.all : List PeriodUnit := [week, month, year]

/-- In the order in which they are looked for. -/
def NamedPeriod.all : List NamedPeriod := [yesterday, today, thisMonth, thisWeek, thisYear]

def monthNames : List (String × Nat) :=
  [("january", 1), ("jan", 1), ("february", 2), ("feb", 2), ("march", 3), ("mar", 3), ("april", 4), ("apr", 4), ("may", 5),
    ("june", 6), ("jun", 6), ("july", 7), ("jul", 7), ("august", 8), ("aug", 8), ("september", 9), ("sep", 9), ("sept", 9),
    ("october", 10), ("oct", 10), ("november", 11), ("nov", 11), ("december", 12), ("dec", 12)]

/-- The names as the pattern tries them: the longest first. -/
def monthAlternatives : List String :=
  ["september", "february", "november", "december", "january", "october", "august", "march", "april", "june", "july", "sept",
    "jan", "feb", "mar", "apr", "may", "jun", "jul", "aug", "sep", "oct", "nov", "dec"]

def alternatives : List String → Regex
  | [] => .empty
  | [word] => insensitive word
  | word :: words => .alt (insensitive word) (alternatives words)

/-- Letters in the case in which they are given. -/
def exactly (text : String) : Regex := .literal (text.toList.map fun letter c => c = letter)

namespace WindowText
variable (py : WindowText)

/-- What `int()` takes at most. -/
def maxDigits : Nat := 4300

def int (digits : List Char) : Option Nat :=
  if digits.length ≤ maxDigits then some (digits.foldl (fun n c => 10 * n + py.decimal c) 0) else none

def spaces : Regex := .many 1 (.char py.space)

def digits : Regex := .many 1 (.char py.digit)

def boundary : Regex := .boundary py.word

/-- `_LAST_N_DAYS`, `_LAST_N_WEEKS`, `_LAST_N_MONTHS` and `_LAST_N_QTRS`: quarters need no number. -/
def lastN (unit : LookBack) : Regex :=
  let number : Regex := .seq (.group 1 py.digits) py.spaces
  .seq py.boundary (.seq (insensitive "last") (.seq py.spaces (.seq (if unit = .quarters then .opt number else number)
    (.seq (insensitive unit.word) (.seq (.opt (insensitive "s")) py.boundary)))))

/-- `20\d{2}-\d{2}-\d{2}` -/
def isoDate : Regex :=
  let dash (c : Char) : Bool := c = '-'
  .literal [(· = '2'), (· = '0'), py.digit, py.digit, dash, py.digit, py.digit, dash, py.digit, py.digit]

def isoDay : Regex := .seq py.boundary (.seq (.group 1 py.isoDate) py.boundary)

def isoRange : Regex :=
  .seq (.group 1 py.isoDate) (.seq py.spaces (.seq (alternatives ["to", "through", "-", "–"])
    (.seq py.spaces (.group 2 py.isoDate))))

def monthYear : Regex :=
  .seq py.boundary (.seq (.group 1 (alternatives monthAlternatives)) (.seq py.spaces
    (.seq (.group 2 (.literal [py.digit, py.digit, py.digit, py.digit])) py.boundary)))

def comparisonVerb : Regex :=
  let versus : Regex := .seq (insensitive "vs") (.opt (.char (· = '.')))
  .seq py.boundary (.seq (.alt (alternatives ["compare", "versus"]) (.alt versus
    (alternatives ["against", "change", "delta", "over"]))) py.boundary)

def relativeCompare (unit : PeriodUnit) : Regex :=
  let gap : Regex := .many 0 (.char fun c => py.space c || c = '-')
  let overPeriod : Regex :=
    .seq (insensitive unit.word) (.seq gap (.seq (insensitive "over") (.seq gap (insensitive unit.word))))
  let thisLast : Regex := .seq (insensitive ("this " ++ unit.word)) (.seq py.boundary (.seq (.many 0 (.char (· ≠ '\n')))
    (.seq py.boundary (insensitive ("last " ++ unit.word)))))
  .seq py.boundary (.seq (.alt overPeriod (.alt (insensitive unit.short) (.alt thisLast
    (insensitive ("last " ++ unit.word))))) py.boundary)

/-- `\byesterday\b`, `\bthis\s+month\b` and the like, in the lower text. -/
def namedPeriod (period : NamedPeriod) : Regex :=
  let thisPeriod (word : String) : Regex := .seq (exactly "this") (.seq py.spaces (exactly word))
  .seq py.boundary (.seq (match period with
    | .yesterday => exactly "yesterday"
    | .today => exactly "today"
    | .thisMonth => thisPeriod "month"
    | .thisWeek => thisPeriod "week"
    | .thisYear => thisPeriod "year") py.boundary)

def twoGroups (found : List Char × Groups) : List Char × List Char :=
  ((found.2.lookup 1).getD [], (found.2.lookup 2).getD [])

/-- The first two matches of a pattern, where it matches. -/
def firstTwo {α : Type} : List α → Option (α × Option α)
  | [] => none
  | [a] => some (a, none)
  | a :: b :: _ => some (a, some b)

/-- What `window_from_query` finds first in a text. -/
def asked (query : String) : Asked :=
  let text := query.toList
  match LookBack.all.findSome? fun unit => ((py.lastN unit).search text).map fun groups => (unit, groups.lookup 1) with
  | some (unit, digits) => .lookBack unit digits
  | none =>
    match firstTwo ((py.isoRange.finditer text).map twoGroups) with
    | some (first, second) => .ranges first second
    | none =>
      match firstTwo ((py.monthYear.finditer text).map twoGroups) with
      | some (first, second) => .months first second
      | none =>
        match firstTwo ((py.isoDay.finditer text).map fun found => (twoGroups found).1) with
        | some (first, second) => .days first second
        | none =>
          let comparing := (py.comparisonVerb.search text).isSome
          match PeriodUnit.all.find? fun unit => comparing && ((py.relativeCompare unit).search text).isSome with
          | some unit => .priorPeriod unit
          | none =>
            match NamedPeriod.all.find? fun period => ((py.namedPeriod period).search (py.lower query).toList).isSome with
            | some period => .named period
            | none => .nothing

end WindowText
end SelericSwarm.TimeRange
