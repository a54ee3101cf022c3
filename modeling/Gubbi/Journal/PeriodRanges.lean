import Gubbi.Journal.Periods
import Gubbi.Library.Fallible

/-!
# What a period covers

The documented forms of a period, the dates each of them names by year, month and
ISO week, and the bounds that `resolve_period` returns for it.
-/

namespace PeriodRanges

open Text Validation Numerals JournalTables JournalRows Dates Splitting Periods Fallible

inductive Period
  | today
  | thisWeek
  | lastWeek
  | thisMonth
  | lastMonth
  | year (year : Nat)
  | month (year month : Nat)
  | week (year week : Nat)
  deriving DecidableEq

/-- The form in lower case, as `_normalize_period` leaves it. -/
def Period.text : Period → PyStr
  | .today => py "today"
  | .thisWeek => py "this-week"
  | .lastWeek => py "last-week"
  | .thisMonth => py "this-month"
  | .lastMonth => py "last-month"
  | .year y => padded 4 y
  | .month y m => padded 4 y ++ (py "-" ++ padded 2 m)
  | .week y w => padded 4 y ++ (py "-w" ++ padded 2 w)

/-- Four digits for a year and two for a month or a week are enough. -/
def Period.Fits : Period → Prop
  | .year y => y < 10000
  | .month y m => y < 10000 ∧ m < 100
  | .week y w => y < 10000 ∧ w < 100
  | _ => True

/-- The period, in any case and with any white space or underscores for a hyphen. -/
def Written (low : Lowering) (text : PyStr) (p : Period) : Prop :=
  p.Fits ∧ normalizePeriod low text = p.text

/-- The month before. -/
def previousMonth (year month : Nat) : Nat × Nat :=
  if month = 1 then (year - 1, 12) else (year, month - 1)

/-- The dates that a period names, by the calendar. -/
def Period.Names (day d : Date) : Period → Prop
  | .today => d = day
  | .thisWeek => isoWeek d = isoWeek day
  | .lastWeek => ∃ e : Date, dayNumber e + 7 = dayNumber day ∧ isoWeek d = isoWeek e
  | .thisMonth => d.year = day.year ∧ d.month = day.month
  | .lastMonth => (d.year, d.month) = previousMonth day.year day.month
  | .year y => d.year = y
  | .month y m => d.year = y ∧ d.month = m
  | .week y w => isoWeek d = (y, w)

/-- From the first to the last of a month. -/
structure MonthBounds (year month : Nat) (first last : Date) : Prop where
  first_year : first.year = year
  first_month : first.month = month
  first_day : first.day = 1
  last_year : last.year = year
  last_month : last.month = month
  last_day : last.day = daysInMonth year month

/-- From the Monday with this number to the Sunday. -/
structure WeekBounds (monday : Nat) (first last : Date) : Prop where
  first_number : dayNumber first = monday
  last_number : dayNumber last = monday + 6

structure YearBounds (year : Nat) (first last : Date) : Prop where
  first_year : first.year = year
  first_month : first.month = 1
  first_day : first.day = 1
  last_year : last.year = year
  last_month : last.month = 12
  last_day : last.day = 31

def Period.Bounds (day first last : Date) : Period → Prop
  | .today => first = day ∧ last = day
  | .thisWeek => WeekBounds (dayNumber day / 7 * 7) first last
  | .lastWeek => 7 ≤ dayNumber day ∧ WeekBounds (dayNumber day / 7 * 7 - 7) first last
  | .thisMonth => MonthBounds day.year day.month first last
  | .lastMonth =>
    MonthBounds (previousMonth day.year day.month).1 (previousMonth day.year day.month).2 first last
  | .year y => YearBounds y first last
  | .month y m => MonthBounds y m first last
  | .week y w => isoWeek first = (y, w) ∧ WeekBounds (dayNumber first / 7 * 7) first last

section Bounds
variable {day d first last : Date} {p : Period} {year month monday : Nat}

theorem MonthBounds.iff (b : MonthBounds year month first last) :
    (dayNumber first ≤ dayNumber d ∧ dayNumber d ≤ dayNumber last) ↔
      d.year = year ∧ d.month = month := by
  obtain ⟨fy, fm, fd, ly, lm, ld⟩ := b
  have valid := d.valid
  rw [← le_iff, ← le_iff, le_iff_not_earlier, le_iff_not_earlier, Earlier, Earlier, fy, fm, fd, ly,
    lm, ld]
  constructor
  · omega
  · rintro ⟨rfl, rfl⟩
    omega

theorem YearBounds.iff (b : YearBounds year first last) :
    (dayNumber first ≤ dayNumber d ∧ dayNumber d ≤ dayNumber last) ↔ d.year = year := by
  obtain ⟨fy, fm, fd, ly, lm, ld⟩ := b
  have valid := d.valid
  have length := le_daysInMonth d.year d.month
  rw [← le_iff, ← le_iff, le_iff_not_earlier, le_iff_not_earlier, Earlier, Earlier, fy, fm, fd, ly,
    lm, ld]
  omega

theorem WeekBounds.iff (b : WeekBounds (monday * 7) first last) :
    (dayNumber first ≤ dayNumber d ∧ dayNumber d ≤ dayNumber last) ↔ dayNumber d / 7 = monday := by
  obtain ⟨hfirst, hlast⟩ := b
  omega

/-- The dates between the bounds are those that the period names. -/
theorem Period.Bounds.iff (b : p.Bounds day first last) :
    (dayNumber first ≤ dayNumber d ∧ dayNumber d ≤ dayNumber last) ↔ p.Names day d := by
  cases p with
  | today =>
    obtain ⟨rfl, rfl⟩ := b
    rw [Period.Names, ← dayNumber_inj]
    omega
  | thisWeek => exact (WeekBounds.iff b).trans isoWeek_eq_isoWeek.symm
  | lastWeek =>
    obtain ⟨enough, b⟩ := b
    have monday : dayNumber day / 7 * 7 - 7 = (dayNumber day / 7 - 1) * 7 := by omega
    rw [monday] at b
    rw [b.iff, Period.Names]
    constructor
    · intro week
      have := dayNumber_lt day
      refine ⟨ofDayNumber (dayNumber day - 7) (by omega), ?_, ?_⟩
      · rw [dayNumber_ofDayNumber]
        omega
      · rw [isoWeek_eq_isoWeek, dayNumber_ofDayNumber]
        omega
    · rintro ⟨e, before, same⟩
      rw [isoWeek_eq_isoWeek] at same
      omega
  | thisMonth => exact MonthBounds.iff b
  | lastMonth =>
    rw [MonthBounds.iff b, Period.Names, Prod.ext_iff]
  | year y => exact YearBounds.iff b
  | month y m => exact MonthBounds.iff b
  | week y w =>
    obtain ⟨named, b⟩ := b
    rw [b.iff, Period.Names, ← named, isoWeek_eq_isoWeek]

end Bounds

section Branches
variable {loc : PyLocale} {day : Date} {r : Resolved} {year month : Nat}

/-- The first of a month comes after the last of the month before. -/
theorem dayNumber_next {last next : Date}
    (before : (last.year, last.month) = previousMonth next.year next.month)
    (hlast : last.day = daysInMonth last.year last.month) (hnext : next.day = 1) :
    dayNumber next = dayNumber last + 1 := by
  have valid := last.valid
  have valid' := next.valid
  obtain ⟨k, hk⟩ : ∃ k, last.month = k + 1 := ⟨last.month - 1, by omega⟩
  have month : monthStart last.year (last.month - 1) + last.day =
      monthStart last.year last.month := by
    rw [hlast, hk]
    rfl
  rw [previousMonth] at before
  split at before
  · next january =>
    obtain ⟨year, december⟩ := Prod.mk.inj before
    have first : dayNumber next = yearStart last.year := by
      have year' : next.year - 1 = last.year := by omega
      rw [dayNumber, year', january, hnext]
      rfl
    have final : dayNumber last + 1 = yearStart (last.year - 1) + yearLength last.year := by
      rw [dayNumber, ← monthStart_twelve]
      rw [december] at month ⊢
      omega
    have step := yearStart_succ (last.year - 1)
    have same : last.year - 1 + 1 = last.year := by omega
    rw [same] at step
    rw [first, final, step]
  · obtain ⟨year, earlier⟩ := Prod.mk.inj before
    rw [dayNumber, dayNumber, hnext, ← year, ← earlier]
    omega

/-- Every month but the first has a month before it. -/
theorem exists_previous {next : Date} (hnext : next.day = 1) (later : 0 < dayNumber next) :
    ∃ last : Date, (last.year, last.month) = previousMonth next.year next.month ∧
      last.day = daysInMonth last.year last.month := by
  have valid := next.valid
  by_cases january : next.month = 1
  · have second : next.year ≠ 1 := by
      intro first
      rw [dayNumber, first, january, hnext] at later
      exact absurd later (by decide)
    refine ⟨⟨next.year - 1, 12, 31, ⟨by omega, by omega⟩, by omega, by omega, ?_⟩, ?_, rfl⟩
    · exact Nat.le_refl 31
    · rw [previousMonth, if_pos january]
  · have length := le_daysInMonth next.year (next.month - 1)
    refine ⟨⟨next.year, next.month - 1, daysInMonth next.year (next.month - 1), by omega⟩, ?_, rfl⟩
    rw [previousMonth, if_neg january]

theorem monthEnd_eq_ok {d last : Date} : monthEnd d.year d.month = .ok last ↔
    last.year = d.year ∧ last.month = d.month ∧ last.day = daysInMonth d.year d.month := by
  have valid := d.valid
  have length := le_daysInMonth d.year d.month
  have nextLength := le_daysInMonth d.year (d.month + 1)
  rw [monthEnd]
  split
  · have twelve : d.month = 12 := by omega
    have thirtyOne : daysInMonth d.year 12 = 31 := rfl
    rw [newDate_eq_ok, twelve, thirtyOne]
    omega
  · have hnext : (1 ≤ d.year ∧ d.year ≤ 9999) ∧ (1 ≤ d.month + 1 ∧ d.month + 1 ≤ 12) ∧ 1 ≤ 1 ∧
        1 ≤ daysInMonth d.year (d.month + 1) := by omega
    have hlast : (1 ≤ d.year ∧ d.year ≤ 9999) ∧ (1 ≤ d.month ∧ d.month ≤ 12) ∧
        1 ≤ daysInMonth d.year d.month ∧
          daysInMonth d.year d.month ≤ daysInMonth d.year d.month := by omega
    have number : dayNumber ⟨d.year, d.month + 1, 1, hnext⟩ =
        dayNumber ⟨d.year, d.month, daysInMonth d.year d.month, hlast⟩ + 1 := by
      refine dayNumber_next ?_ rfl rfl
      simp only [previousMonth]
      rw [if_neg (by omega), Nat.add_sub_cancel]
    have first : newDate d.year (d.month + 1) 1 = .ok ⟨d.year, d.month + 1, 1, hnext⟩ :=
      newDate_eq_ok.mpr ⟨rfl, rfl, rfl⟩
    have same : addDays ⟨d.year, d.month + 1, 1, hnext⟩ (-1) = .ok last ↔
        last = ⟨d.year, d.month, daysInMonth d.year d.month, hlast⟩ := by
      rw [addDays_eq_ok, ← dayNumber_inj]
      omega
    rw [first]
    refine same.trans ?_
    cases last
    simp only [Date.mk.injEq]

theorem firstOfMonth_eq {first : Date} : firstOfMonth day = .ok first ↔
    first.year = day.year ∧ first.month = day.month ∧ first.day = 1 := by
  rw [firstOfMonth, newDate_eq_ok]
  omega

theorem thisWeek_eq_ok : thisWeek day = .ok r ↔ ∃ first last,
    Period.thisWeek.Bounds day first last ∧
      r = ⟨first.text, last.text, weekLabel (isoWeek day).2 day.year⟩ := by
  rw [thisWeek, isocalendar_eq, weekday]
  simp only [bind_eq_ok, addDays_eq_ok, pure, Except.pure, Except.ok.injEq]
  constructor
  · rintro ⟨first, hfirst, last, hlast, rfl⟩
    exact ⟨first, last, ⟨by omega, by omega⟩, rfl⟩
  · rintro ⟨first, last, ⟨hfirst, hlast⟩, rfl⟩
    exact ⟨first, by omega, last, by omega, rfl⟩

theorem lastWeek_eq_ok : lastWeek day = .ok r ↔ ∃ first last,
    Period.lastWeek.Bounds day first last ∧
      r = ⟨first.text, last.text, weekLabel (isoWeek first).2 first.year⟩ := by
  simp only [lastWeek, isocalendar_eq, weekday, bind_eq_ok, addDays_eq_ok, pure, Except.pure,
    Except.ok.injEq]
  constructor
  · rintro ⟨first, hfirst, last, hlast, rfl⟩
    exact ⟨first, last, ⟨by omega, by omega, by omega⟩, rfl⟩
  · rintro ⟨first, last, ⟨enough, hfirst, hlast⟩, rfl⟩
    exact ⟨first, by omega, last, by omega, rfl⟩

theorem thisMonth_eq_ok : thisMonth loc day = .ok r ↔ ∃ first last,
    Period.thisMonth.Bounds day first last ∧ r = ⟨first.text, last.text, monthLabel loc first⟩ := by
  simp only [thisMonth, bind_eq_ok, firstOfMonth_eq, monthEnd_eq_ok, pure, Except.pure,
    Except.ok.injEq]
  constructor
  · rintro ⟨first, ⟨fy, fm, fd⟩, last, ⟨ly, lm, ld⟩, rfl⟩
    exact ⟨first, last, ⟨fy, fm, fd, ly, lm, ld⟩, by rw [monthLabel, monthLabel, fy, fm]⟩
  · rintro ⟨first, last, ⟨fy, fm, fd, ly, lm, ld⟩, rfl⟩
    exact ⟨first, ⟨fy, fm, fd⟩, last, ⟨ly, lm, ld⟩, by rw [monthLabel, monthLabel, fy, fm]⟩

theorem lastMonth_eq_ok : lastMonth loc day = .ok r ↔ ∃ first last,
    Period.lastMonth.Bounds day first last ∧ r = ⟨first.text, last.text, monthLabel loc first⟩ := by
  simp only [lastMonth, bind_eq_ok, firstOfMonth_eq, addDays_eq_ok, pure, Except.pure,
    Except.ok.injEq]
  constructor
  · rintro ⟨next, ⟨ny, nm, nd⟩, last, hlast, first, ⟨fy, fm, fd⟩, rfl⟩
    obtain ⟨previous, before, hprevious⟩ := exists_previous nd (by omega)
    have number := dayNumber_next before hprevious nd
    obtain rfl : last = previous := dayNumber_injective (by omega)
    obtain ⟨ly, lm⟩ := Prod.mk.inj before
    rw [ny, nm] at ly lm
    rw [ly, lm] at hprevious
    exact ⟨first, last, ⟨fy.trans ly, fm.trans lm, fd, ly, lm, hprevious⟩, rfl⟩
  · rintro ⟨first, last, ⟨fy, fm, fd, ly, lm, ld⟩, rfl⟩
    obtain ⟨next, _, hnext⟩ := firstOfMonth_eq_ok day
    have number : dayNumber next = dayNumber last + 1 :=
      dayNumber_next (by rw [hnext.1, hnext.2.1, ly, lm]) (by rw [ld, ly, lm]) hnext.2.2
    exact ⟨next, hnext, last, by omega, first, ⟨by rw [fy, ly], by rw [fm, lm], fd⟩, rfl⟩

end Branches

section Explicit
variable {loc : PyLocale} {day : Date} {r : Resolved} {text period : PyStr} {y m w width n : Nat}

theorem int_eq_ok {value : Int} : loc.int text = .ok value ↔ loc.digits.int text = some value := by
  rw [PyLocale.int]
  cases loc.digits.int text with
  | none => simp
  | some found => simp

/-- A year in four digits, a month or a week in two. -/
theorem int_number (loc : PyLocale) {width : Nat} (fits : n < 10 ^ width) (positive : width ≠ 0)
    (short : width ≤ maxStrDigits) : loc.int (padded width n) = .ok (n : Int) := by
  obtain ⟨width, rfl⟩ := Nat.exists_eq_succ_of_ne_zero positive
  exact int_eq_ok.mpr (int_padded loc.digits fits short)

theorem passing_eq_some {caught : CalendarError → Bool} {body : Except CalendarError Resolved} :
    passing caught body = .ok (some r) ↔ body = .ok r := by
  cases body with
  | ok found => simp [passing]
  | error e => cases h : caught e <;> simp [passing, h]

theorem yearPeriod_padded (fits : y < 10000) : yearPeriod loc (padded 4 y) = .ok r ↔
    ∃ first last, YearBounds y first last ∧ r = ⟨first.text, last.text, padded 4 y⟩ := by
  have year : loc.int (padded 4 y) = .ok (y : Int) := int_number loc fits (by decide) (by decide)
  simp only [yearPeriod, bind_eq_ok, year, newDate_eq_ok, pure, Except.pure, Except.ok.injEq]
  constructor
  · rintro ⟨_, rfl, first, ⟨fy, fm, fd⟩, last, ⟨ly, lm, ld⟩, rfl⟩
    exact ⟨first, last, ⟨by omega, by omega, by omega, by omega, by omega, by omega⟩, rfl⟩
  · rintro ⟨first, last, ⟨fy, fm, fd, ly, lm, ld⟩, rfl⟩
    exact ⟨y, rfl, first, by omega, last, by omega, rfl⟩

theorem monthPeriod_padded (fits : y < 10000) (fits' : m < 100) :
    monthPeriod loc (Period.month y m).text = .ok r ↔ ∃ first last,
      MonthBounds y m first last ∧ r = ⟨first.text, last.text, monthLabel loc first⟩ := by
  have year : (Period.month y m).text.take 4 = padded 4 y :=
    List.take_left' (length_padded 4 y)
  have month : (Period.month y m).text.drop 5 = padded 2 m := by
    rw [Period.text, ← List.append_assoc]
    exact List.drop_left' (by rw [List.length_append, length_padded]; rfl)
  rw [monthPeriod, year, month, int_number loc (show y < 10 ^ 4 from fits) (by decide) (by decide),
    int_number loc (show m < 10 ^ 2 from fits') (by decide) (by decide)]
  simp only [bind_eq_ok, newDate_eq_ok, pure, Except.pure, Except.ok.injEq]
  constructor
  · rintro ⟨_, rfl, _, rfl, first, ⟨fy, fm, fd⟩, last, hlast, rfl⟩
    rw [← fy, ← fm, monthEnd_eq_ok] at hlast
    obtain ⟨ly, lm, ld⟩ := hlast
    have hy : first.year = y := by omega
    have hm : first.month = m := by omega
    rw [hy] at ly ld
    rw [hm] at lm ld
    exact ⟨first, last, ⟨hy, hm, by omega, ly, lm, ld⟩, rfl⟩
  · rintro ⟨first, last, ⟨rfl, rfl, fd, ly, lm, ld⟩, rfl⟩
    exact ⟨_, rfl, _, rfl, first, by omega, last, monthEnd_eq_ok.mpr ⟨ly, lm, ld⟩, rfl⟩

theorem weekPeriod_padded (day : Date) (fits : y < 10000) (fits' : w < 100) :
    weekPeriod loc (padded 4 y) (padded 2 w) = .ok r ↔ ∃ first last,
      (Period.week y w).Bounds day first last ∧ r = ⟨first.text, last.text, weekLabel w y⟩ := by
  rw [weekPeriod, int_number loc (show y < 10 ^ 4 from fits) (by decide) (by decide),
    int_number loc (show w < 10 ^ 2 from fits') (by decide) (by decide)]
  simp only [bind_eq_ok, fromIsocalendar_eq_ok, addDays_eq_ok, pure, Except.pure, Except.ok.injEq,
    weekday]
  constructor
  · rintro ⟨_, rfl, _, rfl, first, ⟨hy, hw, monday⟩, last, hlast, rfl⟩
    refine ⟨first, last, ⟨Prod.ext_iff.mpr ⟨by omega, by omega⟩, ⟨by omega, by omega⟩⟩, rfl⟩
  · rintro ⟨first, last, ⟨named, hfirst, hlast⟩, rfl⟩
    obtain ⟨hy, hw⟩ := Prod.ext_iff.mp named
    exact ⟨_, rfl, _, rfl, first, ⟨by omega, by omega, by omega⟩, last, by omega, rfl⟩

/-- Whichever branch returns first. -/
theorem explicitPeriod_eq_some : explicitPeriod loc period = .ok (some r) ↔
    yearBranch loc period = .ok (some r) ∨ yearBranch loc period = .ok none ∧
      (monthBranch loc period = .ok (some r) ∨
        monthBranch loc period = .ok none ∧ weekBranch loc period = .ok (some r)) := by
  simp only [explicitPeriod, bind, Except.bind]
  cases yearBranch loc period with
  | error e => simp
  | ok found =>
    cases found with
    | some found => simp [pure, Except.pure]
    | none =>
      cases monthBranch loc period with
      | error e => simp
      | ok found =>
        cases found with
        | some found => simp [pure, Except.pure]
        | none => simp

theorem yearBranch_none (h : period.length ≠ 4) : yearBranch loc period = .ok none := by
  rw [yearBranch, if_neg (fun test => h test.1)]

theorem monthBranch_none (h : period.length ≠ 7) : monthBranch loc period = .ok none := by
  rw [monthBranch, if_neg (fun test => h test.1)]

theorem weekBranch_none (h : ofChar 'w' ∉ period) : weekBranch loc period = .ok none := by
  rw [weekBranch, if_neg]
  intro met
  have whole := Search.search_isPrefixOf.mp met
  exact h (whole.subset (List.mem_cons_of_mem _ List.mem_cons_self))

theorem mem_padded_ne {c : CodePoint} (other : isDigit c = false) : c ∉ padded width n := by
  intro mem
  rw [isDigit_padded width n c mem] at other
  cases other

theorem length_week (y w : Nat) : (Period.week y w).text.length = 8 := by
  simp only [Period.text, List.length_append, length_padded]
  rfl

theorem length_month (y m : Nat) : (Period.month y m).text.length = 7 := by
  simp only [Period.text, List.length_append, length_padded]
  rfl

theorem length_year (y : Nat) : (Period.year y).text.length = 4 := length_padded 4 y

/-- The first part ends at the first `-w`. -/
theorem split_week {a b : PyStr} (first : ofChar 'w' ∉ a) (second : ofChar 'w' ∉ b) :
    split (py "-w") (a ++ (py "-w" ++ b)) = [a, b] := by
  have rest : split (py "-w") b = [b] := split_of_not_infix fun met =>
    second (met.subset (List.mem_cons_of_mem _ List.mem_cons_self))
  have cut : ∀ tail, tail <:+ a → tail ≠ [] → ¬ py "-w" <+: tail ++ (py "-w" ++ b) := ?_
  · rw [split_append (by decide) cut, rest]
  -- a `-` at the end of the first part is followed by the `-` of the separator
  rintro tail ⟨front, rfl⟩ nonempty met
  obtain ⟨c, more, rfl⟩ := List.exists_cons_of_ne_nil nonempty
  obtain ⟨_, next⟩ := List.cons_prefix_cons.mp met
  cases more with
  | nil => exact absurd (List.cons_prefix_cons.mp next).1 (by decide)
  | cons d more =>
    have letter : ofChar 'w' = d := (List.cons_prefix_cons.mp next).1
    exact first (by simp [letter])

theorem explicitPeriod_year :
    explicitPeriod loc (Period.year y).text = .ok (some r) ↔
      yearPeriod loc (padded 4 y) = .ok r := by
  have month : monthBranch loc (Period.year y).text = .ok none :=
    monthBranch_none (by rw [length_year]; decide)
  have week : weekBranch loc (Period.year y).text = .ok none :=
    weekBranch_none (mem_padded_ne (by decide))
  have year : yearBranch loc (Period.year y).text =
      passing (· = .valueError) (yearPeriod loc (padded 4 y)) := by
    rw [yearBranch, if_pos ⟨length_year y, isdigits_padded loc.digits 3 y⟩]
    rfl
  rw [explicitPeriod_eq_some, month, week, year, passing_eq_some]
  simp

theorem explicitPeriod_month : explicitPeriod loc (Period.month y m).text = .ok (some r) ↔
    monthPeriod loc (Period.month y m).text = .ok r := by
  have length := length_month y m
  have hyphen : (Period.month y m).text[4]? = some (ofChar '-') := by
    rw [Period.text, List.getElem?_append_right (by rw [length_padded]), length_padded]
    rfl
  have rest : (Period.month y m).text.drop 5 = padded 2 m := by
    rw [Period.text, ← List.append_assoc]
    exact List.drop_left' (by rw [List.length_append, length_padded]; rfl)
  have year : yearBranch loc (Period.month y m).text = .ok none :=
    yearBranch_none (by rw [length]; decide)
  have week : weekBranch loc (Period.month y m).text = .ok none := by
    refine weekBranch_none ?_
    simp only [Period.text, List.mem_append, not_or]
    exact ⟨mem_padded_ne (by decide), by decide, mem_padded_ne (by decide)⟩
  have month : monthBranch loc (Period.month y m).text =
      passing (· = .valueError) (monthPeriod loc (Period.month y m).text) := by
    rw [monthBranch, if_pos ⟨length, hyphen, by rw [rest]; exact isdigits_padded loc.digits 1 m⟩]
  rw [explicitPeriod_eq_some, year, week, month, passing_eq_some]
  simp

theorem explicitPeriod_week : explicitPeriod loc (Period.week y w).text = .ok (some r) ↔
    weekPeriod loc (padded 4 y) (padded 2 w) = .ok r := by
  have length := length_week y w
  have year : yearBranch loc (Period.week y w).text = .ok none :=
    yearBranch_none (by rw [length]; decide)
  have month : monthBranch loc (Period.week y w).text = .ok none :=
    monthBranch_none (by rw [length]; decide)
  have met : Search.search (py "-w").isPrefixOf (Period.week y w).text = true :=
    Search.search_isPrefixOf.mpr ⟨padded 4 y, padded 2 w, by rw [Period.text, List.append_assoc]⟩
  have parts : split (py "-w") (Period.week y w).text = [padded 4 y, padded 2 w] :=
    split_week (mem_padded_ne (by decide)) (mem_padded_ne (by decide))
  have week : weekBranch loc (Period.week y w).text =
      passing (fun _ => true) (weekPeriod loc (padded 4 y) (padded 2 w)) := by
    have nonempty : padded 4 y ≠ [] := by
      rw [← List.length_pos_iff, length_padded]
      decide
    simp only [weekBranch, if_pos met, parts]
    rw [if_pos ⟨nonempty, isdigits_padded loc.digits 1 w⟩]
  rw [explicitPeriod_eq_some, year, month, week, passing_eq_some]
  simp

end Explicit

def keywords : List PyStr :=
  [Period.today.text, Period.thisWeek.text, Period.lastWeek.text, Period.thisMonth.text,
    Period.lastMonth.text]

/-- The label of a period whose first date is `first`. -/
def Period.label (loc : PyLocale) (day first : Date) : Period → PyStr
  | .today => py "Today (" ++ day.text ++ py ")"
  | .thisWeek => weekLabel (isoWeek day).2 day.year
  | .lastWeek => weekLabel (isoWeek first).2 first.year
  | .year y => padded 4 y
  | .week y w => weekLabel w y
  | _ => monthLabel loc first

section Resolve
variable {loc : PyLocale} {day : Date} {r : Resolved} {text : PyStr} {p : Period}

theorem resolvePeriod_explicit (other : normalizePeriod loc.lowering text ∉ keywords) :
    resolvePeriod loc text day = .ok r ↔
      explicitPeriod loc (normalizePeriod loc.lowering text) = .ok (some r) := by
  simp only [keywords, Period.text, List.mem_cons, List.not_mem_nil, or_false, not_or] at other
  simp only [resolvePeriod, other, if_false]
  cases explicitPeriod loc (normalizePeriod loc.lowering text) with
  | error e => simp
  | ok found => cases found <;> simp

theorem not_mem_keywords (length : text.length ≠ 5 ∧ text.length ≠ 9 ∧ text.length ≠ 10) :
    text ∉ keywords := by
  intro mem
  have lengths : ∀ word ∈ keywords, word.length = 5 ∨ word.length = 9 ∨ word.length = 10 := by
    decide
  have := lengths text mem
  omega

/-- The keyword branches. -/
theorem resolvePeriod_keyword (normal : normalizePeriod loc.lowering text = p.text) :
    match p with
    | .today => resolvePeriod loc text day = .ok (today day)
    | .thisWeek => resolvePeriod loc text day = (thisWeek day).mapError .calendar
    | .lastWeek => resolvePeriod loc text day = (lastWeek day).mapError .calendar
    | .thisMonth => resolvePeriod loc text day = (thisMonth loc day).mapError .calendar
    | .lastMonth => resolvePeriod loc text day = (lastMonth loc day).mapError .calendar
    | _ => True := by
  cases p with
  | today =>
    simp only [resolvePeriod, normal, Period.text]
    rw [if_true]
  | thisWeek =>
    simp only [resolvePeriod, normal, Period.text]
    rw [if_neg (by decide), if_true]
  | lastWeek =>
    simp only [resolvePeriod, normal, Period.text]
    rw [if_neg (by decide), if_neg (by decide), if_true]
  | thisMonth =>
    simp only [resolvePeriod, normal, Period.text]
    rw [if_neg (by decide), if_neg (by decide), if_neg (by decide), if_true]
  | lastMonth =>
    simp only [resolvePeriod, normal, Period.text]
    rw [if_neg (by decide), if_neg (by decide), if_neg (by decide), if_neg (by decide), if_true]
  | year y => exact True.intro
  | month y m => exact True.intro
  | week y w => exact True.intro

/-- What `resolve_period` returns for a text in a documented form. -/
theorem resolvePeriod_written (written : Written loc.lowering text p) :
    resolvePeriod loc text day = .ok r ↔ ∃ first last, p.Bounds day first last ∧
      r = ⟨first.text, last.text, p.label loc day first⟩ := by
  obtain ⟨fits, normal⟩ := written
  have explicit : p.text ∉ keywords → (resolvePeriod loc text day = .ok r ↔
      explicitPeriod loc p.text = .ok (some r)) := by
    rw [← normal]
    exact resolvePeriod_explicit
  cases p with
  | year y =>
    rw [explicit (not_mem_keywords (by rw [length_year]; decide)), explicitPeriod_year,
      yearPeriod_padded fits]
    rfl
  | month y m =>
    rw [explicit (not_mem_keywords (by rw [length_month]; decide)), explicitPeriod_month,
      monthPeriod_padded fits.1 fits.2]
    rfl
  | week y w =>
    rw [explicit (not_mem_keywords (by rw [length_week]; decide)), explicitPeriod_week,
      weekPeriod_padded day fits.1 fits.2]
    rfl
  | today =>
    rw [resolvePeriod_keyword (p := .today) normal, Except.ok.injEq]
    constructor
    · rintro rfl
      exact ⟨day, day, ⟨rfl, rfl⟩, rfl⟩
    · rintro ⟨_, _, ⟨rfl, rfl⟩, rfl⟩
      rfl
  | thisWeek =>
    rw [resolvePeriod_keyword (p := .thisWeek) normal, mapError_eq_ok, thisWeek_eq_ok]
    rfl
  | lastWeek =>
    rw [resolvePeriod_keyword (p := .lastWeek) normal, mapError_eq_ok, lastWeek_eq_ok]
    rfl
  | thisMonth =>
    rw [resolvePeriod_keyword (p := .thisMonth) normal, mapError_eq_ok, thisMonth_eq_ok]
    rfl
  | lastMonth =>
    rw [resolvePeriod_keyword (p := .lastMonth) normal, mapError_eq_ok, lastMonth_eq_ok]
    rfl

end Resolve

/-- The range that some text of the form resolves to. -/
def Returns (loc : PyLocale) (day : Date) (p : Period) (first last : Date) : Prop :=
  ∃ text r, Written loc.lowering text p ∧ resolvePeriod loc text day = .ok r ∧
    r.dateFrom = first.text ∧ r.dateTo = last.text

/-- No date is strictly between. -/
def Follows (d e : Date) : Prop :=
  d.le e = true ∧ d ≠ e ∧ ∀ f : Date, d.le f = true → f.le e = true → f = d ∨ f = e

/-- The week after, in the same ISO year or in the next one when the year has no more. -/
def NextWeek (year week year' week' : Nat) : Prop :=
  year' = year ∧ week' = week + 1 ∨
    year' = year + 1 ∧ week' = 1 ∧ ∀ d : Date, isoWeek d ≠ (year, week + 1)

section Sides
variable {loc : PyLocale} {day d e first last first' last' : Date} {p : Period} {text : PyStr}
variable {low : Lowering} {y m w : Nat}

theorem follows_iff : Follows d e ↔ dayNumber e = dayNumber d + 1 := by
  simp only [Follows, le_iff, ← dayNumber_inj, ne_eq]
  constructor
  · rintro ⟨before, distinct, between⟩
    have bound := dayNumber_lt e
    have next := between (ofDayNumber (dayNumber d + 1) (by omega))
    rw [dayNumber_ofDayNumber] at next
    omega
  · intro step
    exact ⟨by omega, by omega, fun f _ _ => by omega⟩

/-- What the forms are written with. -/
def isPlain (c : CodePoint) : Bool := isLower c || isDigit c || c = ofChar '-'

/-- A plain text is normal already. -/
theorem normalizePeriod_plain (plain : ∀ c ∈ text, isPlain c = true) :
    normalizePeriod low text = text := by
  have each : ∀ c ∈ text,
      isSpace c = false ∧ c.val < 128 ∧ isUpper c = false ∧ isGap c = false := by
    intro c mem
    have kind := plain c mem
    simp only [isPlain, isLower, isDigit, Bool.or_eq_true, Bool.and_eq_true,
      decide_eq_true_eq] at kind
    have hyphen : ∀ d : CodePoint, d = ofChar '-' → d.val = 0x2d := fun d h => h ▸ rfl
    have range : 0x2d ≤ c.val ∧ c.val ≤ 0x7a ∧ (c.val ≤ 0x39 ∨ 0x61 ≤ c.val) := by
      rcases kind with (h | h) | h
      · omega
      · omega
      · have := hyphen c h
        omega
    have underscore : c ≠ ofChar '_' := by
      intro h
      have : c.val = 0x5f := h ▸ rfl
      omega
    have space : isSpace c = false := by
      simp only [isSpace, Bool.or_eq_false_iff, Bool.and_eq_false_iff, decide_eq_false_iff_not]
      omega
    refine ⟨space, by omega, ?_, ?_⟩
    · simp only [isUpper, Bool.and_eq_false_iff, decide_eq_false_iff_not]
      omega
    · simp [isGap, space, underscore]
  have lower : low.lower text = text := by
    rw [low.lower_ascii _ (List.all_eq_true.mpr fun c mem => decide_eq_true (each c mem).2.1),
      lowerAscii]
    refine (List.map_congr_left fun c mem => ?_).trans (List.map_id _)
    exact dif_neg (by simp [(each c mem).2.2.1])
  have gaps : ∀ s : PyStr, (∀ c ∈ s, isGap c = false) → dashGaps s = s := by
    intro s none
    induction s with
    | nil => rfl
    | cons c rest ih =>
      have here := none c List.mem_cons_self
      rw [dashGaps, if_neg (by simp [here]), ih fun c mem => none c (List.mem_cons_of_mem _ mem)]
  rw [normalizePeriod, strip, stripOf_of_forall fun c mem => (each c mem).1, lower,
    gaps _ fun c mem => (each c mem).2.2.2]

/-- The form itself is a text in that form. -/
theorem written_text (low : Lowering) (fits : p.Fits) : Written low p.text p := by
  have digit : ∀ width n, ∀ c ∈ padded width n, isPlain c = true := by
    intro width n c mem
    simp [isPlain, isDigit_padded width n c mem]
  refine ⟨fits, normalizePeriod_plain ?_⟩
  cases p with
  | year y => exact digit 4 y
  | month y m =>
    simp only [Period.text, List.forall_mem_append]
    exact ⟨digit 4 y, List.all_eq_true.mp (by decide), digit 2 m⟩
  | week y w =>
    simp only [Period.text, List.forall_mem_append]
    exact ⟨digit 4 y, List.all_eq_true.mp (by decide), digit 2 w⟩
  | today => exact List.all_eq_true.mp (by decide)
  | thisWeek => exact List.all_eq_true.mp (by decide)
  | lastWeek => exact List.all_eq_true.mp (by decide)
  | thisMonth => exact List.all_eq_true.mp (by decide)
  | lastMonth => exact List.all_eq_true.mp (by decide)

theorem returns_iff : Returns loc day p first last ↔ p.Fits ∧ p.Bounds day first last := by
  constructor
  · rintro ⟨text, r, written, resolved, hfirst, hlast⟩
    obtain ⟨a, b, bounds, rfl⟩ := (resolvePeriod_written written).mp resolved
    rw [text_inj] at hfirst hlast
    exact ⟨written.1, hfirst ▸ hlast ▸ bounds⟩
  · rintro ⟨fits, bounds⟩
    have written := written_text loc.lowering fits
    exact ⟨p.text, _, written, (resolvePeriod_written written).mpr ⟨first, last, bounds, rfl⟩,
      rfl, rfl⟩

theorem MonthBounds.ordered (b : MonthBounds y m first last) :
    dayNumber first ≤ dayNumber last := by
  obtain ⟨fy, fm, fd, ly, lm, ld⟩ := b
  have length := le_daysInMonth y m
  rw [← le_iff, le_iff_not_earlier, Earlier, fy, fm, fd, ly, lm, ld]
  omega

theorem Period.Bounds.ordered (b : p.Bounds day first last) :
    dayNumber first ≤ dayNumber last := by
  have week : ∀ {monday}, WeekBounds monday first last → dayNumber first ≤ dayNumber last := by
    rintro _ ⟨hfirst, hlast⟩
    omega
  cases p with
  | today =>
    obtain ⟨rfl, rfl⟩ := b
    exact le_rfl
  | thisWeek => exact week b
  | lastWeek => exact week b.2
  | thisMonth => exact MonthBounds.ordered b
  | lastMonth => exact MonthBounds.ordered b
  | year y =>
    obtain ⟨fy, fm, fd, ly, lm, ld⟩ := b
    rw [← le_iff, le_iff_not_earlier, Earlier, fy, fm, fd, ly, lm, ld]
    omega
  | month y m => exact MonthBounds.ordered b
  | week y w => exact week b.2

theorem exists_monthBounds (hy : 1 ≤ y ∧ y ≤ 9999) (hm : 1 ≤ m ∧ m ≤ 12) :
    ∃ first last, MonthBounds y m first last := by
  have length := le_daysInMonth y m
  exact ⟨⟨y, m, 1, by omega⟩, ⟨y, m, daysInMonth y m, by omega⟩, rfl, rfl, rfl, rfl, rfl, rfl⟩

/-- The months of a year cover it, each date once. -/
theorem months_of_year (whole : Returns loc day (.year y) first last) :
    (∀ m, 1 ≤ m ∧ m ≤ 12 → ∃ a b, Returns loc day (.month y m) a b) ∧
      (∀ d : Date, (first.le d = true ∧ d.le last = true) ↔
        ∃ m, (1 ≤ m ∧ m ≤ 12) ∧ ∃ a b, Returns loc day (.month y m) a b ∧
          a.le d = true ∧ d.le b = true) ∧
      ∀ (d : Date) m m' a b a' b', Returns loc day (.month y m) a b →
        Returns loc day (.month y m') a' b' → a.le d = true ∧ d.le b = true →
        a'.le d = true ∧ d.le b' = true → m = m' := by
  obtain ⟨fits, bounds⟩ := returns_iff.mp whole
  have valid := first.valid
  have year : first.year = y := YearBounds.first_year bounds
  have each : ∀ m, 1 ≤ m ∧ m ≤ 12 → ∃ a b, Returns loc day (.month y m) a b := by
    intro m hm
    obtain ⟨a, b, month⟩ := exists_monthBounds (y := y) (m := m) (by omega) hm
    exact ⟨a, b, returns_iff.mpr ⟨⟨fits, by omega⟩, month⟩⟩
  have inMonth : ∀ {d : Date} {m a b}, Returns loc day (.month y m) a b →
      ((a.le d = true ∧ d.le b = true) ↔ d.year = y ∧ d.month = m) := by
    intro d m a b month
    rw [le_iff, le_iff]
    exact (returns_iff.mp month).2.iff
  refine ⟨each, ?_, ?_⟩
  · intro d
    have inYear : (first.le d = true ∧ d.le last = true) ↔ d.year = y := by
      rw [le_iff, le_iff]
      exact bounds.iff
    rw [inYear]
    constructor
    · intro hd
      have months := d.valid.2.1
      obtain ⟨a, b, month⟩ := each d.month months
      exact ⟨d.month, months, a, b, month, (inMonth month).mpr ⟨hd, rfl⟩⟩
    · rintro ⟨m, _, a, b, month, within⟩
      exact ((inMonth month).mp within).1
  · intro d m m' a b a' b' month month' within within'
    exact ((inMonth month).mp within).2.symm.trans ((inMonth month').mp within').2

/-- The week after begins on the day after the Sunday. -/
theorem nextWeek_follows {y' w' : Nat} (next : NextWeek y w y' w')
    (week : Returns loc day (.week y w) first last)
    (week' : Returns loc day (.week y' w') first' last') : Follows last first' := by
  obtain ⟨_, named, hfirst, hlast⟩ := returns_iff.mp week
  obtain ⟨_, named', hfirst', _⟩ := returns_iff.mp week'
  obtain ⟨k, v, split⟩ := isoWeek_pos first
  obtain ⟨rfl, rfl⟩ := Prod.mk.inj (named.symm.trans split)
  have number := dayNumber_of_monday split (by rw [weekday]; omega)
  rw [follows_iff]
  rcases next with ⟨rfl, rfl⟩ | ⟨rfl, rfl, none⟩
  · have number' := dayNumber_of_monday named' (by rw [weekday]; omega)
    omega
  · have first_week : isoWeek first' = (k + 1 + 1, 0 + 1) := named'
    have number' := dayNumber_of_monday first_week (by rw [weekday]; omega)
    have inYear := (isoWeek_eq_iff.mp split).2.1
    have monday := isoWeek1Monday_mod (k + 1 + 1)
    have range := dayNumber_lt first'
    -- a Monday in between would start one more week of the year
    by_contra apart
    have between : dayNumber first + 7 < daysTotal := by omega
    refine none (ofDayNumber (dayNumber first + 7) between) (isoWeek_eq_iff.mpr ?_)
    rw [dayNumber_ofDayNumber]
    omega

end Sides

/-- Exactly the dates that the period names. -/
structure Exact (day : Date) (p : Period) (r : Resolved) (first last : Date) : Prop where
  dateFrom : r.dateFrom = first.text
  dateTo : r.dateTo = last.text
  ordered : first.le last = true
  exact : ∀ d : Date, (first.le d = true ∧ d.le last = true) ↔ p.Names day d
  present : p = .today ∨ p = .thisWeek ∨ p = .thisMonth →
    first.le day = true ∧ day.le last = true

theorem exact_of_bounds {day first last : Date} {p : Period} {r : Resolved}
    (bounds : p.Bounds day first last) (hfirst : r.dateFrom = first.text)
    (hlast : r.dateTo = last.text) : Exact day p r first last := by
  have names : ∀ d : Date, (first.le d = true ∧ d.le last = true) ↔ p.Names day d := by
    intro d
    rw [le_iff, le_iff]
    exact bounds.iff
  refine ⟨hfirst, hlast, le_iff.mpr bounds.ordered, names, ?_⟩
  intro current
  refine (names day).mpr ?_
  rcases current with rfl | rfl | rfl
  · exact rfl
  · exact rfl
  · exact ⟨rfl, rfl⟩

/-- A period in a documented form is resolved to the dates it names, and periods that
follow one another to ranges that do. -/
theorem resolvePeriod_exact (loc : PyLocale) (day : Date) :
    (∀ p text r, Written loc.lowering text p → resolvePeriod loc text day = .ok r →
      ∃ first last, Exact day p r first last) ∧
    (∀ a b a' b', Returns loc day .lastWeek a b → Returns loc day .thisWeek a' b' →
      Follows b a') ∧
    (∀ a b a' b', Returns loc day .lastMonth a b → Returns loc day .thisMonth a' b' →
      Follows b a') ∧
    (∀ y first last, Returns loc day (.year y) first last →
      (∀ m, 1 ≤ m ∧ m ≤ 12 → ∃ a b, Returns loc day (.month y m) a b) ∧
      (∀ d : Date, (first.le d = true ∧ d.le last = true) ↔
        ∃ m, (1 ≤ m ∧ m ≤ 12) ∧ ∃ a b, Returns loc day (.month y m) a b ∧
          a.le d = true ∧ d.le b = true) ∧
      ∀ (d : Date) m m' a b a' b', Returns loc day (.month y m) a b →
        Returns loc day (.month y m') a' b' → a.le d = true ∧ d.le b = true →
        a'.le d = true ∧ d.le b' = true → m = m') ∧
    ∀ y w y' w' a b a' b', NextWeek y w y' w' → Returns loc day (.week y w) a b →
      Returns loc day (.week y' w') a' b' →
      Follows b a' ∧ ∀ d : Date, ¬((a.le d = true ∧ d.le b = true) ∧
        (a'.le d = true ∧ d.le b' = true)) := by
  refine ⟨?_, ?_, ?_, fun y first last => months_of_year, ?_⟩
  · intro p text r written resolved
    obtain ⟨first, last, bounds, rfl⟩ := (resolvePeriod_written written).mp resolved
    exact ⟨first, last, exact_of_bounds bounds rfl rfl⟩
  · intro a b a' b' before now
    obtain ⟨_, enough, _, hb⟩ := returns_iff.mp before
    obtain ⟨_, ha', _⟩ := returns_iff.mp now
    rw [follows_iff]
    omega
  · intro a b a' b' before now
    obtain ⟨_, before⟩ := returns_iff.mp before
    obtain ⟨_, now⟩ := returns_iff.mp now
    obtain ⟨_, _, _, ly, lm, ld⟩ := before
    obtain ⟨fy, fm, fd, _, _, _⟩ := now
    rw [follows_iff]
    refine dayNumber_next ?_ (by rw [ld, ly, lm]) fd
    rw [ly, lm, fy, fm]
  · intro y w y' w' a b a' b' next week week'
    have follows := nextWeek_follows next week week'
    refine ⟨follows, ?_⟩
    rintro d ⟨⟨_, upper⟩, lower, _⟩
    rw [follows_iff] at follows
    rw [le_iff] at upper lower
    omega

/-- The last week of 2026, which has 53. -/
theorem resolvePeriod_exact_sample : ∃ first last, Exact sampleToday (.week 2026 53)
    ⟨py "2026-12-28", py "2027-01-03", py "Week 53, 2026"⟩ first last :=
  (resolvePeriod_exact sampleLocale sampleToday).1 (.week 2026 53) (py "2026 W53") _
    ⟨⟨by decide, by decide⟩, by decide +kernel⟩ (by decide +kernel)

end PeriodRanges
