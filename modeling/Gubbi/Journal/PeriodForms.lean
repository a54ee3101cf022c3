import Gubbi.Journal.PeriodRanges

/-!
# What `resolve_period` rejects

The numeric forms never raise anything but the last `ValueError`. The keywords are not
guarded: at the two ends of the calendar a range may not be representable, and the
`OverflowError` of the date arithmetic gets out. Apart from loose spellings, which
`int()` and `isdigit()` let through, a numeric form is accepted exactly when it is written as
documented and names a range that dates can represent.
-/

namespace PeriodForms

open Text Validation Numerals JournalTables Dates Splitting Periods PeriodRanges Fallible

section NoError
variable {loc : PyLocale} {day : Date} {text period : PyStr} {e : CalendarError}

theorem int_eq_error (h : loc.int text = .error e) : e = .valueError := by
  rw [PyLocale.int] at h
  split at h
  · exact (Except.error.inj h).symm
  · cases h

theorem fitsInt_of_short {value : Int} (h : loc.int text = .ok value) (short : text.length ≤ 4) :
    FitsInt value := by
  have bound := Digits.natAbs_int_lt (int_eq_ok.mp h)
  have small : 10 ^ text.length ≤ 10 ^ 4 := Nat.pow_le_pow_right (by decide) short
  rw [FitsInt]
  omega

theorem yearPeriod_eq_error (length : period.length = 4) (h : yearPeriod loc period = .error e) :
    e = .valueError := by
  rw [yearPeriod, bind_eq_error] at h
  rcases h with h | ⟨year, hyear, h⟩
  · exact int_eq_error h
  · have fits := fitsInt_of_short hyear (by omega)
    rw [bind_eq_error] at h
    rcases h with h | ⟨first, _, h⟩
    · exact newDate_eq_error ⟨fits, by decide, by decide⟩ h
    · rw [bind_eq_error] at h
      rcases h with h | ⟨last, _, h⟩
      · exact newDate_eq_error ⟨fits, by decide, by decide⟩ h
      · cases h

theorem monthPeriod_eq_error (length : period.length = 7) (h : monthPeriod loc period = .error e) :
    e = .valueError := by
  rw [monthPeriod, bind_eq_error] at h
  rcases h with h | ⟨year, hyear, h⟩
  · exact int_eq_error h
  · rw [bind_eq_error] at h
    rcases h with h | ⟨month, hmonth, h⟩
    · exact int_eq_error h
    · have fits := fitsInt_of_short hyear (by rw [List.length_take]; omega)
      have fits' := fitsInt_of_short hmonth (by rw [List.length_drop]; omega)
      rw [bind_eq_error] at h
      rcases h with h | ⟨start, hstart, h⟩
      · exact newDate_eq_error ⟨fits, fits', by decide⟩ h
      · -- the end of a month that has a first day is a date
        obtain ⟨hy, hm, _⟩ := newDate_eq_ok.mp hstart
        have valid := start.valid
        obtain ⟨_, last, b⟩ := exists_monthBounds valid.1 valid.2.1
        have stop : monthEnd year month = .ok last := by
          rw [← hy, ← hm]
          exact monthEnd_eq_ok.mpr ⟨b.last_year, b.last_month, b.last_day⟩
        rw [stop] at h
        cases h

theorem passing_ne_error {caught : CalendarError → Bool} {body : Except CalendarError Resolved}
    (all : ∀ e, body = .error e → caught e = true) : passing caught body ≠ .error e := by
  intro h
  cases body with
  | ok found => cases h
  | error e' =>
    have := all e' rfl
    simp [passing, this] at h

/-- Every exception of a numeric form is caught. -/
theorem explicitPeriod_ne_error : explicitPeriod loc period ≠ .error e := by
  have ok_ne_error : ∀ {found : Option Resolved}, Except.ok found ≠ .error e := by
    intro found h
    cases h
  have year : yearBranch loc period ≠ .error e := by
    rw [yearBranch]
    split
    · next test =>
      exact passing_ne_error fun e h => decide_eq_true (yearPeriod_eq_error test.1 h)
    · exact ok_ne_error
  have month : monthBranch loc period ≠ .error e := by
    rw [monthBranch]
    split
    · next test =>
      exact passing_ne_error fun e h => decide_eq_true (monthPeriod_eq_error test.1 h)
    · exact ok_ne_error
  have week : weekBranch loc period ≠ .error e := by
    rw [weekBranch]
    split
    · split
      · split
        · exact passing_ne_error fun _ _ => rfl
        · exact ok_ne_error
      · exact ok_ne_error
    · exact ok_ne_error
  intro h
  rw [explicitPeriod, bind_eq_error] at h
  rcases h with h | ⟨found, _, h⟩
  · exact year h
  · cases found with
    | some found => cases h
    | none =>
      rw [bind_eq_error] at h
      rcases h with h | ⟨found, _, h⟩
      · exact month h
      · cases found with
        | some found => cases h
        | none => exact week h

/-- A text that is no keyword is resolved or rejected with the message. -/
theorem resolvePeriod_rejected (other : normalizePeriod loc.lowering text ∉ keywords)
    (none : ¬ ∃ r, resolvePeriod loc text day = .ok r) : resolvePeriod loc text day =
      .error (.invalidPeriod (invalidMessage (normalizePeriod loc.lowering text))) := by
  have unresolved : ∀ r, explicitPeriod loc (normalizePeriod loc.lowering text) ≠ .ok (some r) :=
    fun r h => none ⟨r, (resolvePeriod_explicit other).mpr h⟩
  simp only [keywords, Period.text, List.mem_cons, List.not_mem_nil, or_false, not_or] at other
  simp only [resolvePeriod, other, if_false]
  cases found : explicitPeriod loc (normalizePeriod loc.lowering text) with
  | error e => exact absurd found explicitPeriod_ne_error
  | ok found' =>
    cases found' with
    | none => rfl
    | some r => exact absurd found (unresolved r)

end NoError

/-- It returns or raises `ValueError`. -/
def OnlyValueError (loc : PyLocale) (text : PyStr) (day : Date) : Prop :=
  (∃ r, resolvePeriod loc text day = .ok r) ∨
    ∃ e, resolvePeriod loc text day = .error e ∧ e.isValueError = true

theorem lastMonday_valid : (1 ≤ 9999 ∧ 9999 ≤ 9999) ∧ (1 ≤ 12 ∧ 12 ≤ 12) ∧ 1 ≤ 27 ∧
    27 ≤ daysInMonth 9999 12 := by decide

/-- The Monday of the week whose Sunday is not a date any more. -/
def lastMonday : Date := ⟨9999, 12, 27, lastMonday_valid⟩

theorem firstSunday_valid : (1 ≤ 1 ∧ 1 ≤ 9999) ∧ (1 ≤ 1 ∧ 1 ≤ 12) ∧ 1 ≤ 7 ∧
    7 ≤ daysInMonth 1 1 := by decide

/-- The Sunday of the first week. -/
def firstSunday : Date := ⟨1, 1, 7, firstSunday_valid⟩

/-- The keywords and days whose range cannot be represented. -/
def Escapes (period : PyStr) (day : Date) : Prop :=
  period = Period.thisWeek.text ∧ lastMonday.le day = true ∨
    period = Period.lastWeek.text ∧ day.le firstSunday = true ∨
      period = Period.lastMonth.text ∧ day.year = 1 ∧ day.month = 1

section Keywords
variable {loc : PyLocale} {day : Date} {text : PyStr} {e : CalendarError} {p : Period}

theorem exists_weekBounds {monday : Nat} : (∃ first last, WeekBounds monday first last) ↔
    monday + 6 < daysTotal := by
  constructor
  · rintro ⟨first, last, _, hlast⟩
    have := dayNumber_lt last
    omega
  · intro h
    exact ⟨ofDayNumber monday (by omega), ofDayNumber (monday + 6) h, dayNumber_ofDayNumber _,
      dayNumber_ofDayNumber _⟩

theorem thisWeek_bounds : (∃ first last, Period.thisWeek.Bounds day first last) ↔
    ¬ lastMonday.le day = true := by
  have number : dayNumber lastMonday = 3652054 := rfl
  have total : daysTotal = 3652059 := rfl
  simp only [Period.Bounds]
  rw [exists_weekBounds, le_iff, number]
  omega

theorem lastWeek_bounds : (∃ first last, Period.lastWeek.Bounds day first last) ↔
    ¬ day.le firstSunday = true := by
  have number : dayNumber firstSunday = 6 := rfl
  have range := dayNumber_lt day
  simp only [Period.Bounds, exists_and_left]
  rw [exists_weekBounds, le_iff, number]
  omega

theorem thisMonth_bounds (day : Date) : ∃ first last, Period.thisMonth.Bounds day first last :=
  exists_monthBounds day.valid.1 day.valid.2.1

theorem lastMonth_bounds : (∃ first last, Period.lastMonth.Bounds day first last) ↔
    ¬(day.year = 1 ∧ day.month = 1) := by
  have valid := day.valid
  simp only [Period.Bounds, previousMonth]
  constructor
  · rintro ⟨first, last, b⟩ ⟨year, month⟩
    have := first.valid
    have first_year := b.first_year
    rw [if_pos month] at first_year
    simp only at first_year
    omega
  · intro h
    split
    · exact exists_monthBounds (by omega) (by omega)
    · exact exists_monthBounds (by omega) (by omega)

/-- A week that is found from its Monday. -/
theorem week_eq_error {n : Int} {made : Date → Date → Resolved}
    (h : (do
      let start ← addDays day n
      let stop ← addDays start 6
      return made start stop : Except CalendarError Resolved) = .error e) :
    e = .overflowError := by
  rw [bind_eq_error] at h
  rcases h with h | ⟨start, _, h⟩
  · exact (addDays_eq_error.mp h).1
  · rw [bind_eq_error] at h
    rcases h with h | ⟨stop, _, h⟩
    · exact (addDays_eq_error.mp h).1
    · cases h

theorem thisWeek_eq_error (h : thisWeek day = .error e) : e = .overflowError := by
  rw [thisWeek] at h
  exact week_eq_error h

theorem lastWeek_eq_error (h : lastWeek day = .error e) : e = .overflowError := by
  rw [lastWeek] at h
  exact week_eq_error h

theorem lastMonth_eq_error (h : lastMonth loc day = .error e) : e = .overflowError := by
  obtain ⟨first, hfirst, _⟩ := firstOfMonth_eq_ok day
  rw [lastMonth, hfirst, bind_eq_error] at h
  rcases h with h | ⟨_, hfirst', h⟩
  · cases h
  · cases hfirst'
    rw [bind_eq_error] at h
    rcases h with h | ⟨stop, _, h⟩
    · exact (addDays_eq_error.mp h).1
    · obtain ⟨start, hstart, _⟩ := firstOfMonth_eq_ok stop
      rw [hstart] at h
      cases h

/-- What a keyword raises is not a `ValueError`. -/
theorem keyword_only (body : Except CalendarError Resolved)
    (overflow : ∀ e, body = .error e → e = .overflowError)
    (same : resolvePeriod loc text day = body.mapError .calendar) :
    OnlyValueError loc text day ↔ ∃ r, resolvePeriod loc text day = .ok r := by
  constructor
  · rintro (resolved | ⟨e, raised, valueError⟩)
    · exact resolved
    · rw [same] at raised
      cases found : body with
      | ok r =>
        rw [found] at raised
        cases raised
      | error e' =>
        rw [found, overflow e' found] at raised
        cases raised
        cases valueError
  · exact Or.inl

theorem resolves_iff (written : Written loc.lowering text p) :
    (∃ r, resolvePeriod loc text day = .ok r) ↔ ∃ first last, p.Bounds day first last := by
  constructor
  · rintro ⟨r, resolved⟩
    obtain ⟨first, last, bounds, _⟩ := (resolvePeriod_written written).mp resolved
    exact ⟨first, last, bounds⟩
  · rintro ⟨first, last, bounds⟩
    exact ⟨_, (resolvePeriod_written written).mpr ⟨first, last, bounds, rfl⟩⟩

/-- `resolve_period` raises nothing but `ValueError`, except at the ends of the calendar. -/
theorem resolvePeriod_onlyValueError (loc : PyLocale) (text : PyStr) (day : Date) :
    OnlyValueError loc text day ↔ ¬ Escapes (normalizePeriod loc.lowering text) day := by
  by_cases keyword : normalizePeriod loc.lowering text ∈ keywords
  · simp only [keywords, List.mem_cons, List.not_mem_nil, or_false] at keyword
    rcases keyword with normal | normal | normal | normal | normal
    · have resolved : resolvePeriod loc text day = .ok (today day) :=
        resolvePeriod_keyword (p := .today) normal
      have quiet : ¬ Escapes Period.today.text day := by
        rintro (⟨h, _⟩ | ⟨h, _⟩ | ⟨h, _⟩) <;> exact absurd h (by decide)
      rw [normal]
      exact iff_of_true (Or.inl ⟨_, resolved⟩) quiet
    · have escapes : Escapes Period.thisWeek.text day ↔ lastMonday.le day = true := by
        rw [Escapes, eq_self, eq_false (by decide : ¬ Period.thisWeek.text = Period.lastWeek.text),
          eq_false (by decide : ¬ Period.thisWeek.text = Period.lastMonth.text)]
        simp
      rw [keyword_only _ (fun _ => thisWeek_eq_error)
          (resolvePeriod_keyword (p := .thisWeek) normal),
        resolves_iff (p := .thisWeek) ⟨True.intro, normal⟩, normal, escapes, thisWeek_bounds]
    · have escapes : Escapes Period.lastWeek.text day ↔ day.le firstSunday = true := by
        rw [Escapes, eq_self, eq_false (by decide : ¬ Period.lastWeek.text = Period.thisWeek.text),
          eq_false (by decide : ¬ Period.lastWeek.text = Period.lastMonth.text)]
        simp
      rw [keyword_only _ (fun _ => lastWeek_eq_error)
          (resolvePeriod_keyword (p := .lastWeek) normal),
        resolves_iff (p := .lastWeek) ⟨True.intro, normal⟩, normal, escapes, lastWeek_bounds]
    · have quiet : ¬ Escapes Period.thisMonth.text day := by
        rintro (⟨h, _⟩ | ⟨h, _⟩ | ⟨h, _⟩) <;> exact absurd h (by decide)
      rw [normal]
      refine iff_of_true (Or.inl ?_) quiet
      exact (resolves_iff (p := .thisMonth) ⟨True.intro, normal⟩).mpr (thisMonth_bounds day)
    · have escapes : Escapes Period.lastMonth.text day ↔ day.year = 1 ∧ day.month = 1 := by
        rw [Escapes, eq_self, eq_false (by decide : ¬ Period.lastMonth.text = Period.thisWeek.text),
          eq_false (by decide : ¬ Period.lastMonth.text = Period.lastWeek.text)]
        simp
      rw [keyword_only _ (fun _ => lastMonth_eq_error)
          (resolvePeriod_keyword (p := .lastMonth) normal),
        resolves_iff (p := .lastMonth) ⟨True.intro, normal⟩, normal, escapes, lastMonth_bounds]
  · have quiet : ¬ Escapes (normalizePeriod loc.lowering text) day := by
      simp only [keywords, List.mem_cons, List.not_mem_nil, or_false, not_or] at keyword
      rintro (⟨h, _⟩ | ⟨h, _⟩ | ⟨h, _⟩)
      · exact keyword.2.1 h
      · exact keyword.2.2.1 h
      · exact keyword.2.2.2.2 h
    refine iff_of_true ?_ quiet
    by_cases resolved : ∃ r, resolvePeriod loc text day = .ok r
    · exact Or.inl resolved
    · exact Or.inr ⟨_, resolvePeriod_rejected keyword resolved, rfl⟩

theorem thisWeek_overflows : OnlyValueError sampleLocale (py "this-week") sampleToday ∧
    ¬ OnlyValueError sampleLocale (py "this-week") lastMonday := by
  have returns : (resolvePeriod sampleLocale (py "this-week") sampleToday).isOk = true := by
    decide +kernel
  have raises : resolvePeriod sampleLocale (py "this-week") lastMonday =
      .error (.calendar .overflowError) := by decide +kernel
  refine ⟨Or.inl (isOk_iff.mp returns), ?_⟩
  rintro (⟨r, resolved⟩ | ⟨e, raised, valueError⟩)
  · rw [resolved] at raises
    cases raises
  · rw [raised] at raises
    obtain rfl := Except.error.inj raises
    cases valueError

end Keywords

/-- A year, a month 01 to 12 of a year, or a week that its ISO year has. -/
def Documented : Period → Prop
  | .year _ => True
  | .month _ m => 1 ≤ m ∧ m ≤ 12
  | .week y w => ∃ d : Date, isoWeek d = (y, w)
  | _ => False

/-- A numeric form whose first and last day are dates. -/
def Representable : Period → Prop
  | .year y => 1 ≤ y
  | .month y m => 1 ≤ y ∧ 1 ≤ m ∧ m ≤ 12
  | .week y w => ∃ sunday : Date, isoWeek sunday = (y, w) ∧ weekday sunday = 6
  | _ => False

/-- What `int()` and `isdigit()` read although it is not written in the documented digits:
other scripts, signs, shorter and longer years and weeks. -/
def Loose (digits : Digits) (period : PyStr) : Prop :=
  (∀ p : Period, p.Fits → period ≠ p.text) ∧
    (period.length = 4 ∧ digits.isdigits period = true ∨
      period.length = 7 ∧ period[4]? = some (ofChar '-') ∧
        (digits.int (period.take 4)).isSome = true ∧ digits.isdigits (period.drop 5) = true ∨
      ∃ year week, period = year ++ (py "-w" ++ week) ∧ (digits.int year).isSome = true ∧
        digits.isdigits week = true)

section Forms
variable {loc : PyLocale} {day : Date} {text period : PyStr} {p : Period} {r : Resolved}

theorem representable_iff (day : Date) (fits : p.Fits) (numeric : p.text ∉ keywords) :
    (∃ first last, p.Bounds day first last) ↔ Representable p := by
  cases p with
  | year y =>
    have fits : y < 10000 := fits
    constructor
    · rintro ⟨first, _, b⟩
      have := first.valid
      rw [YearBounds.first_year b] at this
      exact this.1.1
    · intro (positive : 1 ≤ y)
      have january : 31 ≤ daysInMonth y 12 := Nat.le_refl 31
      have length := le_daysInMonth y 1
      exact ⟨⟨y, 1, 1, by omega⟩, ⟨y, 12, 31, by omega⟩, rfl, rfl, rfl, rfl, rfl, rfl⟩
  | month y m =>
    have fits : y < 10000 ∧ m < 100 := fits
    constructor
    · rintro ⟨first, _, b⟩
      have := first.valid
      rw [MonthBounds.first_year b, MonthBounds.first_month b] at this
      exact ⟨this.1.1, this.2.1⟩
    · rintro ⟨positive, month⟩
      exact exists_monthBounds (by omega) month
  | week y w =>
    constructor
    · rintro ⟨first, last, named, hfirst, hlast⟩
      have same : isoWeek last = isoWeek first := by
        rw [isoWeek_eq_isoWeek]
        omega
      refine ⟨last, same.trans named, ?_⟩
      rw [weekday]
      omega
    · rintro ⟨sunday, named, last⟩
      have range := dayNumber_lt sunday
      rw [weekday] at last
      have number := dayNumber_ofDayNumber (n := dayNumber sunday - 6) (by omega)
      refine ⟨ofDayNumber (dayNumber sunday - 6) (by omega), sunday, ?_, ?_, ?_⟩
      · rw [← named, isoWeek_eq_isoWeek]
        omega
      · omega
      · omega
  | today => exact absurd List.mem_cons_self numeric
  | thisWeek => exact absurd (by simp [keywords]) numeric
  | lastWeek => exact absurd (by simp [keywords]) numeric
  | thisMonth => exact absurd (by simp [keywords]) numeric
  | lastMonth => exact absurd (by simp [keywords]) numeric

/-- Whatever a branch reads is written as documented or loose. -/
theorem written_or_loose (h : explicitPeriod loc period = .ok (some r)) :
    (∃ p : Period, p.Fits ∧ period = p.text) ∨ Loose loc.digits period := by
  have readable : ∀ {text : PyStr} {value : Int}, loc.int text = .ok value →
      (loc.digits.int text).isSome = true := by
    intro text value hvalue
    rw [int_eq_ok.mp hvalue]
    rfl
  by_cases strict : ∃ p : Period, p.Fits ∧ period = p.text
  · exact Or.inl strict
  · refine Or.inr ⟨fun p fits same => strict ⟨p, fits, same⟩, ?_⟩
    rcases explicitPeriod_eq_some.mp h with year | ⟨_, month | ⟨_, week⟩⟩
    · rw [yearBranch] at year
      split at year
      · next test => exact Or.inl test
      · cases year
    · rw [monthBranch] at month
      split at month
      · next test =>
        rw [passing_eq_some, monthPeriod, bind_eq_ok] at month
        obtain ⟨value, hvalue, _⟩ := month
        exact Or.inr (Or.inl ⟨test.1, test.2.1, readable hvalue, test.2.2⟩)
      · cases month
    · rw [weekBranch] at week
      split at week
      · split at week
        · next year week' parts =>
          split at week
          · next test =>
            rw [passing_eq_some, weekPeriod, bind_eq_ok] at week
            obtain ⟨value, hvalue, _⟩ := week
            exact Or.inr (Or.inr ⟨year, week', eq_append_of_split_pair (by decide) parts,
              readable hvalue, test.2⟩)
          · cases week
        · cases week
      · cases week

/-- Loose spellings apart, a text that is no keyword is resolved exactly when it is a
numeric form that dates can represent, and rejected with `ValueError` otherwise. -/
theorem resolvePeriod_forms (loc : PyLocale) (text : PyStr) (day : Date)
    (other : normalizePeriod loc.lowering text ∉ keywords)
    (strict : ¬ Loose loc.digits (normalizePeriod loc.lowering text)) :
    ((∃ r, resolvePeriod loc text day = .ok r) ↔
      ∃ p : Period, Written loc.lowering text p ∧ Representable p) ∧
    ((¬ ∃ p : Period, Written loc.lowering text p ∧ Representable p) →
      resolvePeriod loc text day =
        .error (.invalidPeriod (invalidMessage (normalizePeriod loc.lowering text)))) := by
  have resolved : (∃ r, resolvePeriod loc text day = .ok r) ↔
      ∃ p : Period, Written loc.lowering text p ∧ Representable p := by
    constructor
    · rintro ⟨r, h⟩
      rcases written_or_loose ((resolvePeriod_explicit other).mp h) with ⟨p, written⟩ | loose
      · have numeric : p.text ∉ keywords := written.2 ▸ other
        exact ⟨p, written, (representable_iff day written.1 numeric).mp
          ((resolves_iff written).mp ⟨r, h⟩)⟩
      · exact absurd loose strict
    · rintro ⟨p, written, representable⟩
      have numeric : p.text ∉ keywords := written.2 ▸ other
      exact (resolves_iff written).mpr ((representable_iff day written.1 numeric).mpr representable)
  exact ⟨resolved, fun none => resolvePeriod_rejected other fun some => none (resolved.mp some)⟩

theorem sampleSunday_valid : (1 ≤ 2026 ∧ 2026 ≤ 9999) ∧ (1 ≤ 2 ∧ 2 ≤ 12) ∧ 1 ≤ 1 ∧
    1 ≤ daysInMonth 2026 2 := by decide

theorem resolvePeriod_forms_sample :
    ∃ r, resolvePeriod sampleLocale (py " 2026_w05") sampleToday = .ok r := by
  have fits : (Period.week 2026 5).Fits := ⟨by decide, by decide⟩
  have normal : normalizePeriod sampleLocale.lowering (py " 2026_w05") =
      (Period.week 2026 5).text := by decide +kernel
  refine (resolvePeriod_forms sampleLocale (py " 2026_w05") sampleToday (by decide +kernel)
    (fun loose => loose.1 _ fits normal)).1.mpr ⟨.week 2026 5, ⟨fits, normal⟩, ?_⟩
  exact ⟨⟨2026, 2, 1, sampleSunday_valid⟩, by decide +kernel, by decide +kernel⟩

/-- The year 0 and the week that ends after 9999-12-31 are rejected on purpose. -/
theorem documented_rejected :
    (Documented (.year 0) ∧ Written sampleLocale.lowering (py "0000") (.year 0) ∧
      ¬ ∃ r, resolvePeriod sampleLocale (py "0000") sampleToday = .ok r) ∧
    Documented (.week 9999 52) ∧ Written sampleLocale.lowering (py "9999-W52") (.week 9999 52) ∧
      ¬ ∃ r, resolvePeriod sampleLocale (py "9999-W52") sampleToday = .ok r := by
  have year : (resolvePeriod sampleLocale (py "0000") sampleToday).isOk = false := by decide +kernel
  have week : (resolvePeriod sampleLocale (py "9999-W52") sampleToday).isOk = false := by
    decide +kernel
  have fits : (Period.year 0).Fits := by
    change 0 < 10000
    decide
  refine ⟨⟨True.intro, ⟨fits, by decide +kernel⟩, ?_⟩, ⟨lastMonday, by decide +kernel⟩,
    ⟨⟨by decide, by decide⟩, by decide +kernel⟩, ?_⟩
  · rw [← isOk_iff, year]
    decide
  · rw [← isOk_iff, week]
    decide

end Forms

end PeriodForms
