import Gubbi.Journal.PeriodRanges

/-!
# What a label says

`Week 5, 2026` can be read as the period 2026-W05, `May 2026` as 2026-05. A label that is
returned with a range denotes it, except where the number of the ISO week is printed with
the calendar year of a date that belongs to a week of another year.
-/

namespace PeriodLabels

open Text Validation Numerals JournalTables JournalRows Dates Periods PeriodRanges Fallible

section Numbers
variable {digits : Digits} {n m : Nat}

theorem py_append (s t : String) : py (s ++ t) = py s ++ py t := by
  rw [py, py, py, String.toList_append, List.map_append]

/-- A number is printed as it is padded to its own length. -/
theorem number_eq_padded (n : Nat) : ∃ width, number n = padded (width + 1) n ∧
    n < 10 ^ (width + 1) := by
  have small : ∀ n < 10, number n = padded 1 n := by decide
  induction n using Nat.strongRecOn with
  | ind n ih =>
    by_cases single : n < 10
    · exact ⟨0, small n single, by omega⟩
    · obtain ⟨width, front, bound⟩ := ih (n / 10) (by omega)
      have last : number (n % 10) = padded 1 (n % 10) := small _ (by omega)
      have split : number n = number (n / 10) ++ number (n % 10) := by
        rw [number, number, number, ← py_append]
        exact congrArg py (Nat.repr_eq_repr_append_repr (by omega))
      refine ⟨width + 1, ?_, ?_⟩
      · obtain ⟨c, _, hc, whole⟩ := padded_succ (width + 1) n
        obtain ⟨d, _, hd, single⟩ := padded_succ 0 (n % 10)
        have same : c = d := Fin.ext (by omega)
        rw [split, front, last, whole, single, same]
        rfl
      · rw [Nat.pow_succ]
        omega

theorem isDigit_number (n : Nat) : ∀ c ∈ number n, isDigit c = true := by
  obtain ⟨width, padding, _⟩ := number_eq_padded n
  rw [padding]
  exact isDigit_padded (width + 1) n

/-- `int` reads back what `str` of a number prints. -/
theorem int_number (digits : Digits) (short : n < 10 ^ maxStrDigits) :
    digits.int (number n) = some (n : Int) := by
  obtain ⟨width, padding, fits⟩ := number_eq_padded n
  have length : (number n).length ≤ maxStrDigits := by
    rw [number, py, List.length_map, String.length_toList]
    exact (Nat.length_repr_le_iff (by decide)).mpr short
  rw [padding, length_padded] at length
  rw [padding]
  exact int_padded digits fits length

theorem number_injective (h : number n = number m) : n = m := by
  obtain ⟨width, padding, fits⟩ := number_eq_padded n
  obtain ⟨width', padding', fits'⟩ := number_eq_padded m
  have length := congrArg List.length h
  rw [padding, padding', length_padded, length_padded] at length
  rw [padding, padding', length, padded_inj, ← length, Nat.mod_eq_of_lt fits,
    Nat.mod_eq_of_lt (length ▸ fits')] at h
  exact h

theorem mem_number_ne {c : CodePoint} (other : isDigit c = false) : c ∉ number n := by
  intro mem
  rw [isDigit_number n c mem] at other
  cases other

end Numbers

/-- The numeric form that a label spells out. -/
inductive Denotes (loc : PyLocale) : PyStr → Period → Prop
  | week (week year : Nat) : Denotes loc (weekLabel week year) (.week year week)
  | month (month year : Nat) (yearText : PyStr) (name : PyStr)
      (named : monthNames[month]? = some name)
      (read : loc.digits.int yearText = some (year : Int)) :
      Denotes loc (name ++ py " " ++ yearText) (.month year (month + 1))
  | year (year : Nat) (text : PyStr) (length : text.length = 4)
      (digits : loc.digits.isdigits text = true) (read : loc.digits.int text = some (year : Int)) :
      Denotes loc text (.year year)

/-- The label, read as a period, resolves to the range it was returned with. -/
def LabelNames (loc : PyLocale) (day : Date) (r : Resolved) : Prop :=
  ∃ p, Denotes loc r.label p ∧ ∃ r', resolvePeriod loc p.text day = .ok r' ∧
    r'.dateFrom = r.dateFrom ∧ r'.dateTo = r.dateTo

/-- The keywords and days where the label takes the year of the calendar for that of the week. -/
def Mislabelled (period : PyStr) (day : Date) : Prop :=
  period = Period.thisWeek.text ∧ (isoWeek day).1 ≠ day.year ∨
    period = Period.lastWeek.text ∧ ∃ monday : Date,
      dayNumber monday + 7 = dayNumber day / 7 * 7 ∧ (isoWeek monday).1 ≠ monday.year

section Labels
variable {loc : PyLocale} {day first last : Date} {text label : PyStr} {p : Period} {r : Resolved}
variable {week year week' year' : Nat}

theorem weekLabel_eq (week year : Nat) : weekLabel week year =
    py "Week " ++ (number week ++ ofChar ',' :: (ofChar ' ' :: number year)) := by
  rw [weekLabel, List.append_assoc, List.append_assoc]
  rfl

theorem weekLabel_inj :
    weekLabel week year = weekLabel week' year' ↔ week = week' ∧ year = year' := by
  constructor
  · intro h
    rw [weekLabel_eq, weekLabel_eq] at h
    have spaces : ofChar ',' ∉ ofChar ' ' :: number year :=
      List.not_mem_cons_of_ne_of_not_mem (by decide) (mem_number_ne (by decide))
    obtain ⟨weeks, _, years⟩ := (List.append_cons_inj_of_notMem (mem_number_ne (by decide))
      spaces).mp (List.append_cancel_left h)
    exact ⟨number_injective weeks, number_injective (List.cons_inj_right _ |>.mp years)⟩
  · rintro ⟨rfl, rfl⟩
    rfl

/-- A week label is read in one way. -/
theorem denotes_weekLabel (h : Denotes loc label p) (spelled : label = weekLabel week year) :
    p = .week year week := by
  rw [weekLabel_eq] at spelled
  cases h with
  | week w y =>
    rw [← weekLabel_eq] at spelled
    obtain ⟨rfl, rfl⟩ := weekLabel_inj.mp spelled
    rfl
  | month m y yearText name named read =>
    -- no month begins with a W
    have starts : ∀ word ∈ monthNames, ∃ c rest, word = c :: rest ∧ c ≠ ofChar 'W' := by
      simp only [monthNames, List.forall_mem_cons]
      exact ⟨⟨_, _, rfl, by decide⟩, ⟨_, _, rfl, by decide⟩, ⟨_, _, rfl, by decide⟩,
        ⟨_, _, rfl, by decide⟩, ⟨_, _, rfl, by decide⟩, ⟨_, _, rfl, by decide⟩,
        ⟨_, _, rfl, by decide⟩, ⟨_, _, rfl, by decide⟩, ⟨_, _, rfl, by decide⟩,
        ⟨_, _, rfl, by decide⟩, ⟨_, _, rfl, by decide⟩, ⟨_, _, rfl, by decide⟩,
        fun _ mem => absurd mem List.not_mem_nil⟩
    obtain ⟨c, rest, rfl, other⟩ := starts name (List.mem_of_getElem? named)
    exact absurd (List.cons.inj spelled).1 other
  | year y text length digits read =>
    have letter : ofChar 'W' ∈ label := by
      rw [spelled]
      exact List.mem_cons_self
    have digit := (loc.digits.isdigits_iff.mp digits).2 _ letter
    rw [loc.digits.isdigit_false (by decide) (by decide)] at digit
    cases digit

theorem isoWeek_fits (d : Date) : (Period.week (isoWeek d).1 (isoWeek d).2).Fits := by
  have range := isoYear_le d
  obtain ⟨y, w, split⟩ := isoWeek_pos d
  have has := hasWeek_isoWeek split
  simp only [hasWeek, Bool.or_eq_true, Bool.and_eq_true, decide_eq_true_eq] at has
  rw [split] at range ⊢
  exact ⟨by omega, by omega⟩

/-- A week labelled with its ISO year is found again. -/
theorem labelNames_week (b : WeekBounds (dayNumber first / 7 * 7) first last) :
    LabelNames loc day ⟨first.text, last.text, weekLabel (isoWeek first).2 (isoWeek first).1⟩ := by
  have written := written_text loc.lowering (isoWeek_fits first)
  refine ⟨_, .week _ _, _, (resolvePeriod_written written).mpr ?_, rfl, rfl⟩
  exact ⟨first, last, ⟨rfl, b⟩, rfl⟩

/-- With another year it is not. -/
theorem labelNames_week_iff (b : WeekBounds (dayNumber first / 7 * 7) first last)
    (fits : year < 10000) :
    LabelNames loc day ⟨first.text, last.text, weekLabel (isoWeek first).2 year⟩ ↔
      (isoWeek first).1 = year := by
  constructor
  · rintro ⟨p, denotes, r', resolved, hfirst, _⟩
    obtain rfl := denotes_weekLabel denotes rfl
    have written := written_text loc.lowering (p := .week year (isoWeek first).2)
      ⟨fits, (isoWeek_fits first).2⟩
    obtain ⟨first', last', ⟨named, _⟩, rfl⟩ := (resolvePeriod_written written).mp resolved
    obtain rfl : first' = first := text_inj.mp hfirst
    exact congrArg Prod.fst named
  · rintro rfl
    exact labelNames_week b

theorem labelNames_month {y m : Nat} (b : MonthBounds y m first last) :
    LabelNames loc day ⟨first.text, last.text, monthLabel loc first⟩ := by
  obtain rfl := b.first_year
  obtain rfl := b.first_month
  have valid := first.valid
  have written := written_text loc.lowering (p := .month first.year first.month)
    ⟨by omega, by omega⟩
  have read : loc.digits.int (loc.yearText first.year) = some (first.year : Int) := by
    rcases loc.yearText_eq first.year with plain | zeros
    · rw [plain]
      refine int_number loc.digits (lt_of_lt_of_le (b := 10 ^ 4) (by omega) ?_)
      exact Nat.pow_le_pow_right (by decide) (by decide)
    · rw [zeros]
      exact int_padded loc.digits (by omega) (by decide)
  have month : first.month - 1 + 1 = first.month := by omega
  have inside : first.month - 1 < monthNames.length := by
    change _ < 12
    omega
  have named : monthNames[first.month - 1]? = some (monthNames.getD (first.month - 1) []) := by
    rw [List.getD_eq_getElem?_getD, List.getElem?_eq_getElem inside, Option.getD_some]
  have denotes : Denotes loc _ _ := Denotes.month _ _ _ _ named read
  rw [month] at denotes
  exact ⟨_, denotes, _, (resolvePeriod_written written).mpr ⟨first, last, b, rfl⟩, rfl, rfl⟩

theorem labelNames_year {value : Int} (length : text.length = 4)
    (digits : loc.digits.isdigits text = true) (read : loc.digits.int text = some value)
    (hfirst : newDate value 1 1 = .ok first) (hlast : newDate value 12 31 = .ok last) :
    LabelNames loc day ⟨first.text, last.text, text⟩ := by
  obtain ⟨fy, fm, fd⟩ := newDate_eq_ok.mp hfirst
  obtain ⟨ly, lm, ld⟩ := newDate_eq_ok.mp hlast
  have valid := first.valid
  have written := written_text loc.lowering (p := .year first.year)
    (by change _ < 10000; omega)
  refine ⟨_, .year first.year text length digits (fy ▸ read), _,
    (resolvePeriod_written written).mpr ⟨first, last, ?_, rfl⟩, rfl, rfl⟩
  exact ⟨rfl, by omega, by omega, by omega, by omega, by omega⟩

/-- The labels of all numeric forms are right, loose spellings included. -/
theorem labelNames_explicit (h : explicitPeriod loc text = .ok (some r)) :
    LabelNames loc day r := by
  rcases explicitPeriod_eq_some.mp h with year | ⟨_, month | ⟨_, week⟩⟩
  · rw [yearBranch] at year
    split at year
    · next test =>
      rw [passing_eq_some] at year
      simp only [yearPeriod, bind_eq_ok, pure, Except.pure, Except.ok.injEq] at year
      obtain ⟨value, hvalue, first, hfirst, last, hlast, rfl⟩ := year
      exact labelNames_year test.1 test.2 (int_eq_ok.mp hvalue) hfirst hlast
    · cases year
  · rw [monthBranch] at month
    split at month
    · rw [passing_eq_some] at month
      simp only [monthPeriod, bind_eq_ok, pure, Except.pure, Except.ok.injEq] at month
      obtain ⟨y, _, m, _, first, hfirst, last, hlast, rfl⟩ := month
      obtain ⟨fy, fm, fd⟩ := newDate_eq_ok.mp hfirst
      rw [← fy, ← fm, monthEnd_eq_ok] at hlast
      exact labelNames_month ⟨rfl, rfl, by omega, hlast.1, hlast.2.1, hlast.2.2⟩
    · cases month
  · rw [weekBranch] at week
    split at week
    · split at week
      · split at week
        · rw [passing_eq_some] at week
          simp only [weekPeriod, bind_eq_ok, fromIsocalendar_eq_ok, addDays_eq_ok, pure,
            Except.pure, Except.ok.injEq] at week
          obtain ⟨_, _, _, _, first, ⟨rfl, rfl, monday⟩, last, hlast, rfl⟩ := week
          rw [weekday] at monday
          exact labelNames_week ⟨by omega, by omega⟩
        · cases week
      · cases week
    · cases week

/-- Every label but that of a day denotes the range returned with it, except for the weeks
whose number belongs to another year. -/
theorem labelNames_iff (loc : PyLocale) (text : PyStr) (day : Date) (r : Resolved)
    (resolved : resolvePeriod loc text day = .ok r)
    (labelled : normalizePeriod loc.lowering text ≠ Period.today.text) :
    LabelNames loc day r ↔ ¬ Mislabelled (normalizePeriod loc.lowering text) day := by
  by_cases keyword : normalizePeriod loc.lowering text ∈ keywords
  · simp only [keywords, List.mem_cons, List.not_mem_nil, or_false] at keyword
    rcases keyword with normal | normal | normal | normal | normal
    · exact absurd normal labelled
    · obtain ⟨first, last, b, rfl⟩ :=
        (resolvePeriod_written (p := .thisWeek) ⟨True.intro, normal⟩).mp resolved
      have same : isoWeek first = isoWeek day := by
        obtain ⟨hfirst, _⟩ := b
        rw [isoWeek_eq_isoWeek]
        omega
      have monday : WeekBounds (dayNumber first / 7 * 7) first last := by
        obtain ⟨hfirst, hlast⟩ := b
        exact ⟨by omega, by omega⟩
      have valid := day.valid
      have wrong : Mislabelled Period.thisWeek.text day ↔ (isoWeek day).1 ≠ day.year := by
        rw [Mislabelled, eq_self,
          eq_false (by decide : ¬ Period.thisWeek.text = Period.lastWeek.text)]
        simp
      rw [normal, wrong, not_not, ← same]
      simp only [Period.label]
      rw [← same]
      exact labelNames_week_iff monday (by omega)
    · obtain ⟨first, last, ⟨enough, b⟩, rfl⟩ :=
        (resolvePeriod_written (p := .lastWeek) ⟨True.intro, normal⟩).mp resolved
      have monday : WeekBounds (dayNumber first / 7 * 7) first last := by
        obtain ⟨hfirst, hlast⟩ := b
        exact ⟨by omega, by omega⟩
      have valid := first.valid
      have wrong : Mislabelled Period.lastWeek.text day ↔ (isoWeek first).1 ≠ first.year := by
        rw [Mislabelled, eq_self,
          eq_false (by decide : ¬ Period.lastWeek.text = Period.thisWeek.text)]
        have before := b.first_number
        constructor
        · rintro (⟨h, _⟩ | ⟨_, d, hd, h⟩)
          · exact h.elim
          · obtain rfl : d = first := dayNumber_injective (by omega)
            exact h
        · intro h
          exact Or.inr ⟨True.intro, first, by omega, h⟩
      rw [normal, wrong, not_not]
      exact labelNames_week_iff monday (by omega)
    · obtain ⟨first, last, b, rfl⟩ :=
        (resolvePeriod_written (p := .thisMonth) ⟨True.intro, normal⟩).mp resolved
      have right : ¬ Mislabelled Period.thisMonth.text day := by
        rintro (⟨h, _⟩ | ⟨h, _⟩) <;> exact absurd h (by decide)
      rw [normal]
      exact iff_of_true (labelNames_month b) right
    · obtain ⟨first, last, b, rfl⟩ :=
        (resolvePeriod_written (p := .lastMonth) ⟨True.intro, normal⟩).mp resolved
      have right : ¬ Mislabelled Period.lastMonth.text day := by
        rintro (⟨h, _⟩ | ⟨h, _⟩) <;> exact absurd h (by decide)
      rw [normal]
      exact iff_of_true (labelNames_month b) right
  · have right : ¬ Mislabelled (normalizePeriod loc.lowering text) day := by
      simp only [keywords, List.mem_cons, List.not_mem_nil, or_false, not_or] at keyword
      rintro (⟨h, _⟩ | ⟨h, _⟩)
      · exact keyword.2.1 h
      · exact keyword.2.2.1 h
    exact iff_of_true (labelNames_explicit ((resolvePeriod_explicit keyword).mp resolved)) right

/-- The first days of 2026 are in the first week of 2026. -/
theorem labelNames_iff_sample : LabelNames sampleLocale sampleToday
    ⟨py "2025-12-29", py "2026-01-04", py "Week 1, 2026"⟩ := by
  refine (labelNames_iff sampleLocale (py "this-week") sampleToday _ (by decide +kernel)
    (by decide +kernel)).mpr ?_
  rintro (⟨_, other⟩ | ⟨other, _⟩)
  · exact other (by decide +kernel)
  · exact absurd other (by decide +kernel)

theorem newYearMonday_valid : (1 ≤ 2025 ∧ 2025 ≤ 9999) ∧ (1 ≤ 12 ∧ 12 ≤ 12) ∧ 1 ≤ 29 ∧
    29 ≤ daysInMonth 2025 12 := by decide

theorem newYearSunday_valid : (1 ≤ 2026 ∧ 2026 ≤ 9999) ∧ (1 ≤ 1 ∧ 1 ≤ 12) ∧ 1 ≤ 4 ∧
    4 ≤ daysInMonth 2026 1 := by decide

/-- So are the last days of 2025, but their label says 2025. -/
theorem week_mislabelled :
    resolvePeriod sampleLocale (py "this-week") ⟨2025, 12, 29, newYearMonday_valid⟩ =
        .ok ⟨py "2025-12-29", py "2026-01-04", py "Week 1, 2025"⟩ ∧
      ¬ LabelNames sampleLocale ⟨2025, 12, 29, newYearMonday_valid⟩
        ⟨py "2025-12-29", py "2026-01-04", py "Week 1, 2025"⟩ := by
  refine ⟨by decide +kernel, ?_⟩
  have week : WeekBounds (dayNumber ⟨2025, 12, 29, newYearMonday_valid⟩ / 7 * 7)
      ⟨2025, 12, 29, newYearMonday_valid⟩ ⟨2026, 1, 4, newYearSunday_valid⟩ :=
    ⟨by decide +kernel, by decide +kernel⟩
  have label : (⟨py "2025-12-29", py "2026-01-04", py "Week 1, 2025"⟩ : Resolved) =
      ⟨Date.text ⟨2025, 12, 29, newYearMonday_valid⟩, Date.text ⟨2026, 1, 4, newYearSunday_valid⟩,
        weekLabel (isoWeek ⟨2025, 12, 29, newYearMonday_valid⟩).2 (2025 : Nat)⟩ := by
    decide +kernel
  rw [label, labelNames_week_iff week (by decide)]
  decide +kernel

end Labels

end PeriodLabels
