import Gubbi.Library.Blocks
import Gubbi.Journal.Tables
import Gubbi.Numerals

/-!
# Date arithmetic

`datetime.date` as the standard library computes it: days are counted from 0001-01-01,
a Monday, and a result outside the years 1 to 9999 raises `OverflowError`. The ISO week
of a date is stated twice, by the Monday of week 1 as `isocalendar()` does and by the
Thursday of the week, which is what the standard says.
-/

namespace Dates

open Text Validation Numerals JournalTables Blocks

def yearLength (year : Nat) : Nat := if isLeap year then 366 else 365

/-- The days before the first of January of the year `k + 1`. -/
def yearStart (k : Nat) : Nat := 365 * k + k / 4 - k / 100 + k / 400

theorem isLeap_iff {year : Nat} :
    isLeap year = true ↔ year % 4 = 0 ∧ (year % 100 ≠ 0 ∨ year % 400 = 0) := by
  simp [isLeap]

theorem yearStart_succ (k : Nat) : yearStart (k + 1) = yearStart k + yearLength (k + 1) := by
  have fourth : (k + 1) / 4 = k / 4 + if (k + 1) % 4 = 0 then 1 else 0 := by split <;> omega
  have hundredth : (k + 1) / 100 = k / 100 + if (k + 1) % 100 = 0 then 1 else 0 := by
    split <;> omega
  have rest : (k + 1) / 400 = k / 400 + if (k + 1) % 400 = 0 then 1 else 0 := by split <;> omega
  have order : k / 100 ≤ k / 4 := Nat.div_le_div_left (by decide) (by decide)
  have nested : (k + 1) % 400 = 0 → (k + 1) % 100 = 0 := by omega
  have nested' : (k + 1) % 100 = 0 → (k + 1) % 4 = 0 := by omega
  rw [yearStart, yearStart, fourth, hundredth, rest, yearLength]
  generalize k / 4 = a at *
  generalize k / 100 = b at *
  generalize k / 400 = d at *
  by_cases h400 : (k + 1) % 400 = 0
  · rw [if_pos (isLeap_iff.mpr ⟨nested' (nested h400), Or.inr h400⟩), if_pos h400,
      if_pos (nested h400), if_pos (nested' (nested h400))]
    omega
  · by_cases h100 : (k + 1) % 100 = 0
    · rw [if_neg (mt isLeap_iff.mp (by simp [h400, h100])), if_neg h400, if_pos h100,
        if_pos (nested' h100)]
      omega
    · by_cases h4 : (k + 1) % 4 = 0
      · rw [if_pos (isLeap_iff.mpr ⟨h4, Or.inl h100⟩), if_neg h400, if_neg h100, if_pos h4]
        omega
      · rw [if_neg (mt isLeap_iff.mp (fun h => h4 h.1)), if_neg h400, if_neg h100, if_neg h4]
        omega

theorem le_yearLength (year : Nat) : 365 ≤ yearLength year ∧ yearLength year ≤ 366 := by
  rw [yearLength]
  split <;> omega

def years : Cut where
  start := yearStart
  width := 365
  start_zero := rfl
  width_pos := by decide
  wide k := by
    have := yearStart_succ k
    have := le_yearLength (k + 1)
    omega

theorem le_daysInMonth (year month : Nat) :
    28 ≤ daysInMonth year month ∧ daysInMonth year month ≤ 31 := by
  rw [daysInMonth]
  split
  · split <;> omega
  · split <;> omega

/-- The days of a year before the first of the month `k + 1`. -/
def monthStart (year : Nat) : Nat → Nat
  | 0 => 0
  | k + 1 => monthStart year k + daysInMonth year (k + 1)

def months (year : Nat) : Cut where
  start := monthStart year
  width := 28
  start_zero := rfl
  width_pos := by decide
  wide k := by
    have := le_daysInMonth year (k + 1)
    rw [monthStart]
    omega

theorem monthStart_twelve (year : Nat) : monthStart year 12 = yearLength year := by
  have sum : monthStart year 12 = 337 + daysInMonth year 2 := by
    cases h : isLeap year <;> simp [monthStart, daysInMonth, h]
  rw [sum, yearLength, daysInMonth, if_pos rfl]
  split <;> rfl

/-- The days from 0001-01-01 to the date, `toordinal() - 1`. -/
def dayNumber (d : Date) : Nat :=
  yearStart (d.year - 1) + (monthStart d.year (d.month - 1) + (d.day - 1))

/-- The days of the years 1 to 9999. -/
def daysTotal : Nat := 3652059

theorem yearStart_last : yearStart 9999 = daysTotal := by decide

section DayNumbers
variable {d e : Date}

theorem month_fits (d : Date) :
    monthStart d.year (d.month - 1) + (d.day - 1) < monthStart d.year (d.month - 1 + 1) := by
  have := d.valid
  have month : d.month - 1 + 1 = d.month := by omega
  rw [monthStart, month]
  omega

theorem year_fits (d : Date) :
    yearStart (d.year - 1) + (monthStart d.year (d.month - 1) + (d.day - 1)) <
      yearStart (d.year - 1 + 1) := by
  have := d.valid
  have year : d.year - 1 + 1 = d.year := by omega
  have fits := month_fits d
  have whole := (months d.year).strictMono_start.monotone (show d.month - 1 + 1 ≤ 12 by omega)
  have last := monthStart_twelve d.year
  have next := yearStart_succ (d.year - 1)
  rw [year] at next ⊢
  change monthStart _ _ ≤ monthStart _ _ at whole
  omega

theorem index_years (d : Date) : years.index (dayNumber d) = d.year - 1 :=
  years.index_add (year_fits d)

theorem offset_years (d : Date) :
    years.offset (dayNumber d) = monthStart d.year (d.month - 1) + (d.day - 1) :=
  years.offset_add (year_fits d)

theorem dayNumber_lt (d : Date) : dayNumber d < daysTotal := by
  have := d.valid
  have fits := year_fits d
  have := years.strictMono_start.monotone (show d.year - 1 + 1 ≤ 9999 by omega)
  exact Nat.lt_of_lt_of_le fits (this.trans (by rw [← yearStart_last]; rfl))

theorem offset_lt_yearLength (n : Nat) :
    years.offset n < monthStart (years.index n + 1) 12 := by
  have inside := years.offset_lt n
  have next := yearStart_succ (years.index n)
  rw [monthStart_twelve]
  change yearStart _ + _ < yearStart _ at inside
  omega

theorem valid_ofDayNumber {n : Nat} (h : n < daysTotal) :
    let year := years.index n + 1
    let month := (months year).index (years.offset n) + 1
    let day := (months year).offset (years.offset n) + 1
    (1 ≤ year ∧ year ≤ 9999) ∧ (1 ≤ month ∧ month ≤ 12) ∧ 1 ≤ day ∧
      day ≤ daysInMonth year month := by
  intro year month day
  have hyear : years.index n < 9999 := years.index_lt_iff.mpr h
  have hmonth : (months year).index (years.offset n) < 12 :=
    (months year).index_lt_iff.mpr (offset_lt_yearLength n)
  have hday := (months year).offset_lt (years.offset n)
  have fits : day - 1 < daysInMonth year month := by
    change monthStart _ _ + _ < monthStart _ _ + _ at hday
    exact Nat.lt_of_add_lt_add_left hday
  exact ⟨⟨by omega, by omega⟩, ⟨by omega, by omega⟩, by omega, by omega⟩

/-- `fromordinal(n + 1)`. -/
def ofDayNumber (n : Nat) (h : n < daysTotal) : Date where
  year := years.index n + 1
  month := (months (years.index n + 1)).index (years.offset n) + 1
  day := (months (years.index n + 1)).offset (years.offset n) + 1
  valid := valid_ofDayNumber h

theorem dayNumber_ofDayNumber {n : Nat} (h : n < daysTotal) : dayNumber (ofDayNumber n h) = n := by
  have inMonth := (months (years.index n + 1)).start_add_offset (years.offset n)
  have inYear := years.start_add_offset n
  change monthStart _ _ + _ = _ at inMonth
  change yearStart _ + _ = _ at inYear
  simp only [dayNumber, ofDayNumber, Nat.add_sub_cancel]
  omega

theorem ofDayNumber_dayNumber (d : Date) : ofDayNumber (dayNumber d) (dayNumber_lt d) = d := by
  have valid := d.valid
  have year : years.index (dayNumber d) + 1 = d.year := by
    have := index_years d
    omega
  have month : (months d.year).index (years.offset (dayNumber d)) + 1 = d.month := by
    have := (months d.year).index_add (month_fits d)
    rw [offset_years]
    change (months d.year).index (monthStart _ _ + _) = _ at this
    omega
  have day : (months d.year).offset (years.offset (dayNumber d)) + 1 = d.day := by
    have := (months d.year).offset_add (month_fits d)
    rw [offset_years]
    change (months d.year).offset (monthStart _ _ + _) = _ at this
    omega
  rw [← year] at month day
  cases d
  simp only [ofDayNumber, Date.mk.injEq]
  exact ⟨year, month, day⟩

theorem dayNumber_injective (h : dayNumber d = dayNumber e) : d = e := by
  rw [← ofDayNumber_dayNumber d, ← ofDayNumber_dayNumber e]
  simp only [h]

theorem dayNumber_inj : dayNumber d = dayNumber e ↔ d = e :=
  ⟨dayNumber_injective, congrArg dayNumber⟩

/-- The year of a date, read off its day number. -/
theorem year_eq_iff {year : Nat} (h : 1 ≤ year) :
    d.year = year ↔ yearStart (year - 1) ≤ dayNumber d ∧ dayNumber d < yearStart year := by
  have valid := d.valid
  have index := index_years d
  have cut := years.index_eq_iff (k := year - 1) (n := dayNumber d)
  have next : year - 1 + 1 = year := by omega
  rw [next, index] at cut
  change _ ↔ yearStart _ ≤ _ ∧ _ < yearStart _ at cut
  rw [← cut]
  omega

/-- The order of year, month and day. -/
def Earlier (d e : Date) : Prop :=
  d.year < e.year ∨ d.year = e.year ∧ (d.month < e.month ∨ d.month = e.month ∧ d.day < e.day)

theorem le_iff_not_earlier : d.le e = true ↔ ¬ Earlier e d := by
  change ((compare d.year e.year).then
    ((compare d.month e.month).then (compare d.day e.day))).isLE = true ↔ _
  rw [Ordering.isLE_then_iff_or, Ordering.isLE_then_iff_or, Nat.compare_eq_lt, Nat.compare_eq_eq,
    Nat.compare_eq_lt, Nat.compare_eq_eq, Nat.isLE_compare, Earlier]
  omega

theorem dayNumber_lt_of_earlier (h : Earlier d e) : dayNumber d < dayNumber e := by
  have hd := d.valid
  have he := e.valid
  rcases h with year | ⟨year, month | ⟨month, day⟩⟩
  · have whole := years.strictMono_start.monotone (show d.year - 1 + 1 ≤ e.year - 1 by omega)
    change yearStart _ ≤ yearStart _ at whole
    have fits := year_fits d
    rw [dayNumber, dayNumber]
    omega
  · have whole := (months d.year).strictMono_start.monotone
      (show d.month - 1 + 1 ≤ e.month - 1 by omega)
    change monthStart _ _ ≤ monthStart _ _ at whole
    have fits := month_fits d
    rw [dayNumber, dayNumber, ← year]
    omega
  · rw [dayNumber, dayNumber, ← year, ← month]
    omega

/-- Dates are ordered as their day numbers are. -/
theorem le_iff : d.le e = true ↔ dayNumber d ≤ dayNumber e := by
  rw [le_iff_not_earlier]
  constructor
  · intro h
    by_cases reverse : Earlier d e
    · exact (dayNumber_lt_of_earlier reverse).le
    · have valid := d.valid
      have same : d = e := by
        cases d
        cases e
        simp only [Earlier] at h reverse
        simp only [Date.mk.injEq]
        omega
      rw [same]
  · intro h earlier
    have := dayNumber_lt_of_earlier earlier
    omega

end DayNumbers

/-- What the methods of `date` raise. -/
inductive CalendarError
  | valueError
  | overflowError
  deriving DecidableEq

/-- Arguments are converted to a C `int`. -/
def FitsInt (n : Int) : Prop := -2 ^ 31 ≤ n ∧ n < 2 ^ 31

instance (n : Int) : Decidable (FitsInt n) := inferInstanceAs (Decidable (_ ∧ _))

/-- `date(year, month, day)`. -/
def newDate (year month day : Int) : Except CalendarError Date :=
  if ¬(FitsInt year ∧ FitsInt month ∧ FitsInt day) then .error .overflowError
  else if h : (1 ≤ year ∧ year ≤ 9999) ∧ (1 ≤ month ∧ month ≤ 12) ∧ 1 ≤ day ∧
      day ≤ daysInMonth year.toNat month.toNat then
    .ok ⟨year.toNat, month.toNat, day.toNat, by omega⟩
  else .error .valueError

/-- `d + timedelta(days=n)`. -/
def addDays (d : Date) (n : Int) : Except CalendarError Date :=
  if h : 0 ≤ dayNumber d + n ∧ dayNumber d + n < daysTotal then
    .ok (ofDayNumber (dayNumber d + n).toNat (by omega))
  else .error .overflowError

/-- `weekday()`: 0 is Monday. -/
def weekday (d : Date) : Nat := dayNumber d % 7

/-- `d.replace(day=1)`. -/
def firstOfMonth (d : Date) : Except CalendarError Date := newDate d.year d.month 1

/-- `_isoweek1monday`: the day number of the Monday of week 1. -/
def isoWeek1Monday (year : Nat) : Nat :=
  let first := yearStart (year - 1)
  if 3 < first % 7 then first - first % 7 + 7 else first - first % 7

/-- `isocalendar()`, without the day of the week. -/
def isocalendar (d : Date) : Nat × Nat :=
  if dayNumber d < isoWeek1Monday d.year then
    (d.year - 1, (dayNumber d - isoWeek1Monday (d.year - 1)) / 7 + 1)
  else if isoWeek1Monday (d.year + 1) ≤ dayNumber d then (d.year + 1, 1)
  else (d.year, (dayNumber d - isoWeek1Monday d.year) / 7 + 1)

/-- The year of the Thursday of the week, and how many Thursdays of that year it is. -/
def isoWeek (d : Date) : Nat × Nat :=
  let thursday := dayNumber d / 7 * 7 + 3
  (years.index thursday + 1, years.offset thursday / 7 + 1)

/-- A 53rd week is in the years that start on a Thursday and the leap years that
start on a Wednesday. -/
def hasWeek (year week : Int) : Bool :=
  (0 < week && week < 53) || (week = 53 &&
    (yearStart (year.toNat - 1) % 7 = 3 ||
      (yearStart (year.toNat - 1) % 7 = 2 && isLeap year.toNat)))

section Weeks
variable {d e : Date} {year week n : Nat}

theorem isoWeek1Monday_mod (year : Nat) : isoWeek1Monday year % 7 = 0 := by
  rw [isoWeek1Monday]
  split <;> omega

/-- The Monday of week 1 has come exactly when the Thursday of the week is in the year. -/
theorem isoWeek1Monday_le_iff (year n : Nat) :
    isoWeek1Monday (year + 1) ≤ n ↔ yearStart year ≤ n / 7 * 7 + 3 := by
  rw [isoWeek1Monday, Nat.add_sub_cancel]
  split <;> omega

theorem hasWeek_iff (h : 1 ≤ year) : hasWeek year week = true ↔
    1 ≤ week ∧ isoWeek1Monday year + 7 * (week - 1) < isoWeek1Monday (year + 1) := by
  obtain ⟨k, rfl⟩ : ∃ k, year = k + 1 := ⟨year - 1, by omega⟩
  have next := yearStart_succ k
  have length : yearLength (k + 1) = if isLeap (k + 1) then 366 else 365 := rfl
  have first := isoWeek1Monday.eq_def (k + 1)
  have second := isoWeek1Monday.eq_def (k + 1 + 1)
  simp only [Nat.add_sub_cancel] at first second
  rw [next, length] at second
  clear next length
  simp only [hasWeek, Int.toNat_natCast, Nat.add_sub_cancel, Bool.or_eq_true, Bool.and_eq_true,
    decide_eq_true_eq]
  by_cases leap : isLeap (k + 1) = true
  · rw [if_pos leap] at second
    simp only [leap, and_true]
    split at first <;> split at second <;> omega
  · rw [if_neg leap] at second
    simp only [leap, Bool.false_eq_true, and_false, or_false]
    split at first <;> split at second <;> omega

theorem isoWeek1Monday_near (year : Nat) : yearStart year ≤ isoWeek1Monday (year + 1) + 3 ∧
    isoWeek1Monday (year + 1) ≤ yearStart year + 3 := by
  rw [isoWeek1Monday, Nat.add_sub_cancel]
  split <;> omega

/-- The Thursdays of a year are counted as its Mondays from that of week 1 on. -/
theorem thursdays_eq (started : isoWeek1Monday (year + 1) ≤ n) :
    (n / 7 * 7 + 3 - yearStart year) / 7 = (n - isoWeek1Monday (year + 1)) / 7 := by
  rw [isoWeek1Monday, Nat.add_sub_cancel] at started ⊢
  split at started <;> split <;> omega

/-- The week of a date, counted from the Monday of week 1. -/
theorem isoWeek_eq_iff : isoWeek d = (year + 1, week + 1) ↔
    isoWeek1Monday (year + 1) ≤ dayNumber d ∧ dayNumber d < isoWeek1Monday (year + 1 + 1) ∧
      (dayNumber d - isoWeek1Monday (year + 1)) / 7 = week := by
  have started := isoWeek1Monday_le_iff year (dayNumber d)
  have ended := isoWeek1Monday_le_iff (year + 1) (dayNumber d)
  have cut : years.index (dayNumber d / 7 * 7 + 3) = year ↔
      isoWeek1Monday (year + 1) ≤ dayNumber d ∧ dayNumber d < isoWeek1Monday (year + 1 + 1) := by
    rw [years.index_eq_iff]
    change yearStart _ ≤ _ ∧ _ < yearStart _ ↔ _
    omega
  simp only [isoWeek, Cut.offset, Prod.mk.injEq, Nat.add_right_cancel_iff]
  constructor
  · rintro ⟨same, count⟩
    have inside := cut.mp same
    rw [same] at count
    exact ⟨inside.1, inside.2, (thursdays_eq inside.1).symm.trans count⟩
  · rintro ⟨lower, upper, count⟩
    have same := cut.mpr ⟨lower, upper⟩
    rw [same]
    exact ⟨rfl, (thursdays_eq lower).trans count⟩

/-- Both readings of the standard agree. -/
theorem isocalendar_eq (d : Date) : isocalendar d = isoWeek d := by
  have valid := d.valid
  obtain ⟨k, hk⟩ : ∃ k, d.year = k + 1 := ⟨d.year - 1, by omega⟩
  have inYear := (year_eq_iff (d := d) (by omega)).mp hk
  rw [Nat.add_sub_cancel] at inYear
  have next := yearStart_succ (k + 1)
  have length := le_yearLength (k + 1 + 1)
  rw [isocalendar, hk]
  split
  · next before =>
    obtain ⟨j, rfl⟩ : ∃ j, k = j + 1 := by
      cases k with
      | zero => exact absurd before (by simp [isoWeek1Monday, yearStart])
      | succ j => exact ⟨j, rfl⟩
    have earlier := yearStart_succ j
    have length' := le_yearLength (j + 1)
    exact (isoWeek_eq_iff.mpr ⟨(isoWeek1Monday_le_iff j _).mpr (by omega), before, rfl⟩).symm
  · split
    · next after =>
      have near := (isoWeek1Monday_near (k + 1)).1
      refine (isoWeek_eq_iff.mpr ⟨after, ?_, by omega⟩).symm
      have := isoWeek1Monday_le_iff (k + 1 + 1) (dayNumber d)
      omega
    · next started within =>
      exact (isoWeek_eq_iff.mpr ⟨by omega, by omega, rfl⟩).symm

theorem isoWeek_pos (d : Date) : ∃ year week, isoWeek d = (year + 1, week + 1) :=
  ⟨_, _, rfl⟩

/-- Two dates are in the same ISO week when the same Monday precedes them. -/
theorem isoWeek_eq_isoWeek : isoWeek d = isoWeek e ↔ dayNumber d / 7 = dayNumber e / 7 := by
  constructor
  · intro same
    obtain ⟨year, week, hd⟩ := isoWeek_pos d
    have he := same.symm.trans hd
    rw [isoWeek_eq_iff] at hd he
    have monday := isoWeek1Monday_mod (year + 1)
    omega
  · intro same
    rw [isoWeek, isoWeek, same]

theorem isoMonday_lt {year week : Int}
    (h : 1 ≤ year ∧ year ≤ 9999 ∧ hasWeek year week = true) :
    isoWeek1Monday year.toNat + 7 * (week.toNat - 1) < daysTotal := by
  obtain ⟨lower, upper, has⟩ := h
  have positive : 0 < week := by
    simp only [hasWeek, Bool.or_eq_true, Bool.and_eq_true, decide_eq_true_eq] at has
    omega
  obtain ⟨k, rfl⟩ : ∃ k : Nat, year = (k + 1 : Nat) := ⟨(year - 1).toNat, by omega⟩
  obtain ⟨w, rfl⟩ : ∃ w : Nat, week = w := ⟨week.toNat, by omega⟩
  have inYear := ((hasWeek_iff (by omega)).mp has).2
  have monday := isoWeek1Monday_mod (k + 1)
  have monday' := isoWeek1Monday_mod (k + 1 + 1)
  have near := (isoWeek1Monday_near (k + 1)).2
  have last := years.strictMono_start.monotone (show k + 1 ≤ 9999 by omega)
  change yearStart _ ≤ yearStart _ at last
  rw [yearStart_last] at last
  rw [Int.toNat_natCast, Int.toNat_natCast]
  omega

/-- `date.fromisocalendar(year, week, 1)`. -/
def fromIsocalendar (year week : Int) : Except CalendarError Date :=
  if h : 1 ≤ year ∧ year ≤ 9999 ∧ hasWeek year week = true then
    .ok (ofDayNumber (isoWeek1Monday year.toNat + 7 * (week.toNat - 1)) (isoMonday_lt h))
  else .error .valueError

theorem isoYear_le (d : Date) : 1 ≤ (isoWeek d).1 ∧ (isoWeek d).1 ≤ 9999 := by
  have last : dayNumber d / 7 * 7 + 3 < years.start 9999 := by
    have := dayNumber_lt d
    have total : years.start 9999 = 3652059 := yearStart_last
    rw [daysTotal] at this
    omega
  have := years.index_lt_iff.mpr last
  simp only [isoWeek]
  omega

theorem hasWeek_isoWeek (h : isoWeek d = (year + 1, week + 1)) :
    hasWeek (year + 1 : Nat) (week + 1 : Nat) = true := by
  rw [isoWeek_eq_iff] at h
  have monday := isoWeek1Monday_mod (year + 1)
  have monday' := isoWeek1Monday_mod (year + 1 + 1)
  refine (hasWeek_iff (by omega)).mpr ⟨by omega, ?_⟩
  rw [Nat.add_sub_cancel]
  omega

/-- The Monday of a week is 7 days after the one before. -/
theorem isoWeek_of_monday (has : hasWeek (year + 1 : Nat) (week + 1 : Nat) = true)
    (number : dayNumber d = isoWeek1Monday (year + 1) + 7 * week) :
    isoWeek d = (year + 1, week + 1) := by
  have inYear := ((hasWeek_iff (by omega)).mp has).2
  rw [Nat.add_sub_cancel] at inYear
  exact isoWeek_eq_iff.mpr ⟨by omega, by omega, by omega⟩

theorem dayNumber_of_monday (h : isoWeek d = (year + 1, week + 1)) (monday : weekday d = 0) :
    dayNumber d = isoWeek1Monday (year + 1) + 7 * week := by
  rw [isoWeek_eq_iff] at h
  have first := isoWeek1Monday_mod (year + 1)
  rw [weekday] at monday
  omega

/-- `fromisocalendar` gives the Monday of the week. -/
theorem fromIsocalendar_eq_ok {year week : Int} : fromIsocalendar year week = .ok d ↔
    (isoWeek d).1 = year ∧ (isoWeek d).2 = week ∧ weekday d = 0 := by
  constructor
  · intro h
    rw [fromIsocalendar] at h
    split at h
    · next inside =>
      obtain rfl := Except.ok.inj h
      obtain ⟨lower, upper, has⟩ := inside
      have positive : 0 < week := by
        simp only [hasWeek, Bool.or_eq_true, Bool.and_eq_true, decide_eq_true_eq] at has
        omega
      obtain ⟨y, rfl⟩ : ∃ y : Nat, year = (y + 1 : Nat) := ⟨(year - 1).toNat, by omega⟩
      obtain ⟨w, rfl⟩ : ∃ w : Nat, week = (w + 1 : Nat) := ⟨(week - 1).toNat, by omega⟩
      have number := dayNumber_ofDayNumber (isoMonday_lt ⟨lower, upper, has⟩)
      have monday := isoWeek1Monday_mod (y + 1)
      simp only [Int.toNat_natCast, Nat.add_sub_cancel] at number ⊢
      rw [isoWeek_of_monday has number, weekday, number]
      exact ⟨rfl, rfl, by omega⟩
    · cases h
  · rintro ⟨hyear, hweek, monday⟩
    obtain ⟨y, w, hd⟩ := isoWeek_pos d
    have range := isoYear_le d
    have number := dayNumber_of_monday hd monday
    have has := hasWeek_isoWeek hd
    rw [hd] at hyear hweek range
    obtain rfl := hyear
    obtain rfl := hweek
    rw [fromIsocalendar, dif_pos ⟨by omega, by omega, has⟩]
    refine congrArg Except.ok (dayNumber_injective ?_)
    rw [dayNumber_ofDayNumber, number]
    simp

end Weeks

section Arithmetic
variable {d e : Date} {n year month day : Int} {error : CalendarError}

theorem newDate_eq_ok :
    newDate year month day = .ok d ↔ d.year = year ∧ d.month = month ∧ d.day = day := by
  constructor
  · intro h
    rw [newDate] at h
    split at h
    · cases h
    · split at h
      · obtain rfl := Except.ok.inj h
        simp only
        omega
      · cases h
  · rintro ⟨rfl, rfl, rfl⟩
    have valid := d.valid
    have fits : FitsInt d.year ∧ FitsInt d.month ∧ FitsInt d.day := by
      have := le_daysInMonth d.year d.month
      simp only [FitsInt]
      omega
    rw [newDate, if_neg (not_not.mpr fits), dif_pos]
    · simp
    · simp only [Int.toNat_natCast]
      omega

theorem newDate_eq_error (fits : FitsInt year ∧ FitsInt month ∧ FitsInt day)
    (h : newDate year month day = .error error) : error = .valueError := by
  rw [newDate, if_neg (not_not.mpr fits)] at h
  split at h
  · cases h
  · exact (Except.error.inj h).symm

theorem addDays_eq_ok : addDays d n = .ok e ↔ dayNumber e = dayNumber d + n := by
  constructor
  · intro h
    rw [addDays] at h
    split at h
    · obtain rfl := Except.ok.inj h
      rw [dayNumber_ofDayNumber]
      omega
    · cases h
  · intro h
    have inRange := dayNumber_lt e
    rw [addDays, dif_pos ⟨by omega, by omega⟩]
    refine congrArg Except.ok (dayNumber_injective ?_)
    rw [dayNumber_ofDayNumber]
    omega

theorem addDays_eq_error : addDays d n = .error error ↔
    error = .overflowError ∧ ¬(0 ≤ dayNumber d + n ∧ dayNumber d + n < daysTotal) := by
  rw [addDays]
  split
  · next inside => simp [inside]
  · next outside => simp [outside, eq_comm]

theorem firstOfMonth_eq_ok (d : Date) : ∃ e, firstOfMonth d = .ok e ∧
    e.year = d.year ∧ e.month = d.month ∧ e.day = 1 := by
  have valid := d.valid
  have month := le_daysInMonth d.year d.month
  refine ⟨⟨d.year, d.month, 1, by omega⟩, newDate_eq_ok.mpr ⟨rfl, rfl, rfl⟩, rfl, rfl, rfl⟩

end Arithmetic

section Padded
variable {digits : Digits} {width n m : Nat}

theorem padded_succ (width n : Nat) : ∃ c : CodePoint, isDigit c = true ∧ c.val = 0x30 + n % 10 ∧
    padded (width + 1) n = padded width (n / 10) ++ [c] := by
  refine ⟨_, ?_, rfl, rfl⟩
  simp only [isDigit, Bool.and_eq_true, decide_eq_true_eq]
  omega

theorem isDigit_padded (width n : Nat) : ∀ c ∈ padded width n, isDigit c = true := by
  induction width generalizing n with
  | zero => exact fun c mem => absurd mem List.not_mem_nil
  | succ width ih =>
    obtain ⟨last, digit, _, split⟩ := padded_succ width n
    intro c mem
    rw [split] at mem
    rcases List.mem_append.mp mem with mem | mem
    · exact ih (n / 10) c mem
    · rw [List.mem_singleton.mp mem]
      exact digit

theorem padded_inj : padded width n = padded width m ↔ n % 10 ^ width = m % 10 ^ width := by
  induction width generalizing n m with
  | zero => simp [padded, Nat.mod_one]
  | succ width ih =>
    obtain ⟨c, _, hc, hn⟩ := padded_succ width n
    obtain ⟨d, _, hd, hm⟩ := padded_succ width m
    have same : c = d ↔ n % 10 = m % 10 := by
      rw [Fin.ext_iff]
      omega
    rw [hn, hm, List.append_singleton_inj, ih, same, Nat.pow_succ, Nat.mul_comm, Nat.mod_mul,
      Nat.mod_mul]
    omega

/-- A text of ASCII digits is a padded number. -/
theorem exists_padded {text : PyStr} (all : ∀ c ∈ text, isDigit c = true) :
    ∃ n, n < 10 ^ text.length ∧ text = padded text.length n := by
  induction text using List.reverseRecOn with
  | nil => exact ⟨0, by simp, rfl⟩
  | append_singleton front last ih =>
    obtain ⟨n, bound, hn⟩ := ih fun c mem => all c (List.mem_append_left _ mem)
    have digit := all last (List.mem_append_right _ List.mem_cons_self)
    simp only [isDigit, Bool.and_eq_true, decide_eq_true_eq] at digit
    obtain ⟨c, _, hc, split⟩ := padded_succ front.length (10 * n + (last.val - 0x30))
    refine ⟨10 * n + (last.val - 0x30), ?_, ?_⟩
    · rw [List.length_append, List.length_singleton, Nat.pow_succ]
      omega
    · have same : last = c := Fin.ext (by omega)
      have tens : (10 * n + (last.val - 0x30)) / 10 = n := by omega
      rw [List.length_append, List.length_singleton, split, tens, ← hn, same]

theorem mapM_padded (digits : Digits) (width n : Nat) :
    ∃ found, (padded width n).mapM digits.decimal = some found ∧ found.length = width ∧
      valueOf found = n % 10 ^ width := by
  induction width generalizing n with
  | zero => exact ⟨[], rfl, rfl, by simp [valueOf, Nat.mod_one]⟩
  | succ width ih =>
    obtain ⟨found, hfound, length, value⟩ := ih (n / 10)
    obtain ⟨c, digit, hc, split⟩ := padded_succ width n
    refine ⟨found ++ [n % 10], ?_, ?_, ?_⟩
    · have last : c.val - 0x30 = n % 10 := by omega
      rw [split, List.mapM_append, hfound, List.mapM_cons, digits.decimal_ascii c digit, last]
      rfl
    · rw [List.length_append, length, List.length_singleton]
    · rw [valueOf_append, value, Nat.pow_succ, Nat.mul_comm _ 10, Nat.mod_mul]
      omega

theorem isdigits_padded (digits : Digits) (width n : Nat) :
    digits.isdigits (padded (width + 1) n) = true := by
  refine digits.isdigits_iff.mpr ⟨?_, ?_⟩
  · rw [← List.length_pos_iff, length_padded]
    omega
  · intro c mem
    exact digits.isdigit_decimal c _ (digits.decimal_ascii c (isDigit_padded _ n c mem))

/-- A padded number is read as what it pads. -/
theorem int_padded (digits : Digits) (fits : n < 10 ^ (width + 1)) (short : width < maxStrDigits) :
    digits.int (padded (width + 1) n) = some (n : Int) := by
  obtain ⟨found, hfound, length, value⟩ := mapM_padded digits (width + 1) n
  rw [digits.int_of_isdigits (isdigits_padded digits width n), hfound, Option.bind_some,
    if_pos (by omega), value, Nat.mod_eq_of_lt fits]

end Padded

theorem monthText_inj {d e : Date} :
    d.monthText = e.monthText ↔ d.year = e.year ∧ d.month = e.month := by
  have hd := d.valid
  have he := e.valid
  constructor
  · intro h
    rw [Date.monthText, Date.monthText, List.append_assoc, List.append_assoc] at h
    obtain ⟨year, rest⟩ := List.append_inj h (by rw [length_padded, length_padded])
    have month := List.append_cancel_left rest
    rw [padded_inj] at year month
    omega
  · rintro ⟨year, month⟩
    rw [Date.monthText, Date.monthText, year, month]

theorem text_inj {d e : Date} : d.text = e.text ↔ d = e := by
  have hd := d.valid
  have he := e.valid
  have short := le_daysInMonth d.year d.month
  have short' := le_daysInMonth e.year e.month
  constructor
  · intro h
    rw [Date.text, Date.text, List.append_assoc, List.append_assoc] at h
    have length : d.monthText.length = e.monthText.length := by
      simp only [Date.monthText, List.length_append, length_padded]
    obtain ⟨month, rest⟩ := List.append_inj h length
    have day := List.append_cancel_left rest
    rw [padded_inj] at day
    rw [monthText_inj] at month
    cases d
    cases e
    simp only [Date.mk.injEq] at *
    omega
  · exact congrArg Date.text

end Dates
