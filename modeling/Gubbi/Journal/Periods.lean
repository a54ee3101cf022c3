import Gubbi.Journal.Dates
import Gubbi.Journal.Rows
import Gubbi.Library.Search
import Gubbi.Library.Splitting

/-!
# Resolving a period

`resolve_period` turns the text of a period into two dates and a label. Keywords are
relative to the date of the user; the numeric forms are tried one after the other, and a
form whose `ValueError` is caught leaves the text to the next one.
-/

namespace Periods

open Text Validation Numerals JournalTables JournalRows Dates Splitting

/-- What the interpreter and its C library contribute. -/
structure PyLocale where
  lowering : Lowering
  digits : Digits
  /-- `strftime("%Y")`, which may leave out leading zeros. -/
  yearText : Nat → PyStr
  yearText_eq : ∀ year, yearText year = number year ∨ yearText year = padded 4 year

/-- `[\s_]`. -/
def isGap (c : CodePoint) : Bool := isSpace c || c = ofChar '_'

/-- `re.sub(r"[\s_]+", "-", text)`. -/
def dashGaps : PyStr → PyStr
  | [] => []
  | c :: rest =>
    if isGap c then
      if rest.head?.any isGap then dashGaps rest else ofChar '-' :: dashGaps rest
    else c :: dashGaps rest

/-- `_normalize_period`. -/
def normalizePeriod (low : Lowering) (period : PyStr) : PyStr := dashGaps (low.lower (strip period))

structure Resolved where
  dateFrom : PyStr
  dateTo : PyStr
  label : PyStr
  deriving DecidableEq

inductive PeriodError
  /-- What an operation on dates raised. -/
  | calendar (error : CalendarError)
  /-- The `ValueError` of the last line. -/
  | invalidPeriod (message : PyStr)
  deriving DecidableEq

def PeriodError.isValueError : PeriodError → Bool
  | .calendar error => error = .valueError
  | .invalidPeriod _ => true

/-- `%B`. -/
def monthNames : List PyStr :=
  [py "January", py "February", py "March", py "April", py "May", py "June", py "July",
    py "August", py "September", py "October", py "November", py "December"]

/-- `strftime("%B %Y")`. -/
def monthLabel (loc : PyLocale) (d : Date) : PyStr :=
  monthNames.getD (d.month - 1) [] ++ py " " ++ loc.yearText d.year

/-- `Week {week}, {year}`. -/
def weekLabel (week year : Int) : PyStr :=
  py "Week " ++ py (toString week) ++ py ", " ++ py (toString year)

/-- `_month_end`. -/
def monthEnd (year month : Int) : Except CalendarError Date :=
  if month = 12 then newDate year 12 31
  else do
    let next ← newDate year (month + 1) 1
    addDays next (-1)

/-- `int(text)`. -/
def PyLocale.int (loc : PyLocale) (text : PyStr) : Except CalendarError Int :=
  match loc.digits.int text with
  | none => .error .valueError
  | some value => .ok value

def today (today : Date) : Resolved :=
  ⟨today.text, today.text, py "Today (" ++ today.text ++ py ")"⟩

def thisWeek (today : Date) : Except CalendarError Resolved := do
  let start ← addDays today (-weekday today)
  let stop ← addDays start 6
  return ⟨start.text, stop.text, weekLabel (isocalendar today).2 today.year⟩

def lastWeek (today : Date) : Except CalendarError Resolved := do
  let start ← addDays today (-(weekday today + 7))
  let stop ← addDays start 6
  return ⟨start.text, stop.text, weekLabel (isocalendar start).2 start.year⟩

def thisMonth (loc : PyLocale) (today : Date) : Except CalendarError Resolved := do
  let start ← firstOfMonth today
  let stop ← monthEnd today.year today.month
  return ⟨start.text, stop.text, monthLabel loc today⟩

def lastMonth (loc : PyLocale) (today : Date) : Except CalendarError Resolved := do
  let first ← firstOfMonth today
  let stop ← addDays first (-1)
  let start ← firstOfMonth stop
  return ⟨start.text, stop.text, monthLabel loc start⟩

def yearPeriod (loc : PyLocale) (period : PyStr) : Except CalendarError Resolved := do
  let year ← loc.int period
  let first ← newDate year 1 1
  let last ← newDate year 12 31
  return ⟨first.text, last.text, period⟩

def monthPeriod (loc : PyLocale) (period : PyStr) : Except CalendarError Resolved := do
  let year ← loc.int (period.take 4)
  let month ← loc.int (period.drop 5)
  let start ← newDate year month 1
  let stop ← monthEnd year month
  return ⟨start.text, stop.text, monthLabel loc start⟩

def weekPeriod (loc : PyLocale) (yearText weekText : PyStr) : Except CalendarError Resolved := do
  let year ← loc.int yearText
  let week ← loc.int weekText
  let start ← fromIsocalendar year week
  let stop ← addDays start 6
  return ⟨start.text, stop.text, weekLabel week year⟩

/-- `try: … except caught: pass`; `none` is what falls through. -/
def passing (caught : CalendarError → Bool) (body : Except CalendarError Resolved) :
    Except CalendarError (Option Resolved) :=
  match body with
  | .ok found => .ok (some found)
  | .error error => if caught error then .ok none else .error error

def yearBranch (loc : PyLocale) (period : PyStr) : Except CalendarError (Option Resolved) :=
  if period.length = 4 ∧ loc.digits.isdigits period = true then
    passing (· = .valueError) (yearPeriod loc period)
  else .ok none

def monthBranch (loc : PyLocale) (period : PyStr) : Except CalendarError (Option Resolved) :=
  if period.length = 7 ∧ period[4]? = some (ofChar '-') ∧
      loc.digits.isdigits (period.drop 5) = true then
    passing (· = .valueError) (monthPeriod loc period)
  else .ok none

def weekBranch (loc : PyLocale) (period : PyStr) : Except CalendarError (Option Resolved) :=
  if Search.search (py "-w").isPrefixOf period then
    match split (py "-w") period with
    | [yearText, weekText] =>
      if yearText ≠ [] ∧ loc.digits.isdigits weekText = true then
        passing (fun _ => true) (weekPeriod loc yearText weekText)
      else .ok none
    | _ => .ok none
  else .ok none

/-- The numeric forms in their order. -/
def explicitPeriod (loc : PyLocale) (period : PyStr) : Except CalendarError (Option Resolved) := do
  match ← yearBranch loc period with
  | some found => return some found
  | none =>
    match ← monthBranch loc period with
    | some found => return some found
    | none => weekBranch loc period

def invalidMessage (period : PyStr) : PyStr :=
  py "Invalid period '" ++ period ++ py "'. Use: 'today', 'YYYY', 'YYYY-MM', " ++
    py "'YYYY-WNN', 'this-week', 'last-week', 'this-month', 'last-month'."

def resolvePeriod (loc : PyLocale) (period : PyStr) (day : Date) : Except PeriodError Resolved :=
  let period := normalizePeriod loc.lowering period
  if period = py "today" then .ok (today day)
  else if period = py "this-week" then (thisWeek day).mapError .calendar
  else if period = py "last-week" then (lastWeek day).mapError .calendar
  else if period = py "this-month" then (thisMonth loc day).mapError .calendar
  else if period = py "last-month" then (lastMonth loc day).mapError .calendar
  else
    match explicitPeriod loc period with
    | .error error => .error (.calendar error)
    | .ok (some found) => .ok found
    | .ok none => .error (.invalidPeriod (invalidMessage period))

theorem yearText_number (year : Nat) : number year = number year ∨ number year = padded 4 year :=
  Or.inl rfl

/-- English, ASCII and Arabic digits, years without leading zeros. -/
def sampleLocale : PyLocale where
  lowering := ⟨lowerAscii, lowerAscii_ascii⟩
  digits := sampleDigits
  yearText := number
  yearText_eq := yearText_number

theorem sampleToday_valid : (1 ≤ 2026 ∧ 2026 ≤ 9999) ∧ (1 ≤ 1 ∧ 1 ≤ 12) ∧ 1 ≤ 1 ∧
    1 ≤ daysInMonth 2026 1 := by decide

/-- A Thursday. -/
def sampleToday : Date := ⟨2026, 1, 1, sampleToday_valid⟩

example : (resolvePeriod sampleLocale (py " Last_Week") sampleToday).toOption =
    some ⟨py "2025-12-22", py "2025-12-28", py "Week 52, 2025"⟩ := by decide +kernel

end Periods
