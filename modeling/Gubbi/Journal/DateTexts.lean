import Gubbi.Journal.Dates
import Gubbi.Library.Fallible

/-!
# Texts of dates

The two parsers of the standard library that read `YYYY-MM-DD`. `strptime` goes by a
regular expression whose `\d` takes the digits of every script and whose other classes
are ASCII; `date.fromisoformat` takes ASCII digits only.
-/

namespace DateTexts

open Text Validation Numerals JournalTables Dates Fallible

/-- A class of code points in a regular expression. -/
abbrev CharClass := CodePoint → Bool

def only (c : Char) : CharClass := fun d => d = ofChar c

/-- `[low-high]`. -/
def between (low high : Char) : CharClass := fun c =>
  (ofChar low).val ≤ c.val && c.val ≤ (ofChar high).val

/-- Whether a text starts with one code point of each class. -/
def starts : List CharClass → PyStr → Bool
  | [], _ => true
  | _ :: _, [] => false
  | accepts :: shape, c :: rest => accepts c && starts shape rest

section Patterns
variable (digits : Digits)

/-- `\d`. -/
def isDecimal : CharClass := fun c => (digits.decimal c).isSome

/-- `%Y-`. -/
def yearShape : List CharClass :=
  [isDecimal digits, isDecimal digits, isDecimal digits, isDecimal digits, only '-']

/-- `%m`: `1[0-2]|0[1-9]|[1-9]`. -/
def monthShapes : List (List CharClass) :=
  [[only '1', between '0' '2'], [only '0', between '1' '9'], [between '1' '9']]

/-- `%d`: `3[0-1]|[1-2]\d|0[1-9]|[1-9]| [1-9]`. -/
def dayShapes : List (List CharClass) :=
  [[only '3', between '0' '1'], [between '1' '2', isDecimal digits],
    [only '0', between '1' '9'], [between '1' '9'], [only ' ', between '1' '9']]

/-- The first alternatives for month and day that match. -/
def strptimeShapes (text : PyStr) : Option (List CharClass × List CharClass) :=
  monthShapes.findSome? fun month =>
    if starts (yearShape digits ++ month ++ [only '-']) text then
      ((dayShapes digits).find? fun day => starts day (text.drop (6 + month.length))).map
        fun day => (month, day)
    else none

/-- The groups of the match as numbers, and the date they make. -/
def dateOf (year month day : PyStr) : Option Date :=
  (digits.int year).bind fun y => (digits.int month).bind fun m => (digits.int day).bind fun d =>
    (newDate y m d).toOption

/-- `datetime.strptime(text, "%Y-%m-%d").date()`; `none` is the `ValueError`. -/
def strptime (text : PyStr) : Option Date :=
  (strptimeShapes digits text).bind fun shape =>
    let month := shape.1.length
    if text.length ≠ 6 + month + shape.2.length then none
    else dateOf digits (text.take 4) ((text.drop 5).take month) (text.drop (6 + month))

end Patterns

/-- The template with an ASCII digit for each of its zeros. -/
def shaped (template text : PyStr) : Bool :=
  decide (template.length = text.length) &&
    (template.zip text).all (fun p => if p.1 = ofChar '0' then isDigit p.2 else p.2 = p.1)

def asciiValue (text : PyStr) : Nat := valueOf (text.map (fun c => c.val - 0x30))

/-- `parse_digits`: so many ASCII digits, and what follows them. -/
def parseDigits (count : Nat) (text : PyStr) : Option (Nat × PyStr) :=
  if (text.take count).length = count ∧ (text.take count).all isDigit = true then
    some (asciiValue (text.take count), text.drop count)
  else none

/-- What follows a dash. -/
def afterDash (text : PyStr) : Option PyStr :=
  if text.head? = some (ofChar '-') then some text.tail else none

/-- Behind the first separator there has to be a second. -/
def separated (usesSeparator : Bool) (text : PyStr) : Option PyStr :=
  if usesSeparator then afterDash text else some text

/-- A day of an ISO week; the days are 1 to 7. -/
def isoToYmd (year week day : Nat) : Option Date :=
  if 1 ≤ day ∧ day ≤ 7 then
    ((fromIsocalendar year week).toOption).bind fun monday =>
      (addDays monday (day - 1)).toOption
  else none

/-- `Www` and a day, or the Monday; what follows the day is not looked at. -/
def parseWeek (year : Nat) (usesSeparator : Bool) (text : PyStr) : Option Date := do
  let (week, rest) ← parseDigits 2 text
  if rest = [] then isoToYmd year week 1
  else
    let rest ← separated usesSeparator rest
    let (day, _) ← parseDigits 1 rest
    isoToYmd year week day

/-- A month and a day; what follows the day is not looked at. -/
def parseMonth (year : Nat) (usesSeparator : Bool) (text : PyStr) : Option Date := do
  let (month, rest) ← parseDigits 2 text
  let rest ← separated usesSeparator rest
  let (day, _) ← parseDigits 2 rest
  (newDate year month day).toOption

/-- `parse_isoformat_date`. -/
def parseIsoformatDate (text : PyStr) : Option Date := do
  let (year, rest) ← parseDigits 4 text
  let usesSeparator := rest.head? = some (ofChar '-')
  let rest := if usesSeparator then rest.tail else rest
  if rest.head? = some (ofChar 'W') then parseWeek year usesSeparator rest.tail
  else parseMonth year usesSeparator rest

/-- `date.fromisoformat(text)`, whose length is that of its UTF-8; `none` is the `ValueError`. -/
def fromIsoformat (text : PyStr) : Option Date := do
  let bytes ← encodeUtf8 text
  if bytes.length ∈ [7, 8, 10] then parseIsoformatDate text else none

example : fromIsoformat (py "2026W09600") = some ⟨2026, 2, 28, by decide⟩ := by decide +kernel

example : strptime sampleDigits (py "2026-2-28") = some ⟨2026, 2, 28, by decide⟩ := by decide

/-- `YYYY-MM-DD` from its parts. -/
def tenPlaces (year month day : PyStr) : PyStr := year ++ py "-" ++ month ++ py "-" ++ day

/-- The texts of ten places that `strptime` takes for a date: the year in the digits of
any script, and the last digit of a day from 10 to 29 too. -/
def Spells (digits : Digits) (text : PyStr) (d : Date) : Prop :=
  ∃ year unit found,
    text = tenPlaces year (padded 2 d.month) (padded 1 (d.day / 10) ++ [unit]) ∧
    year.length = 4 ∧ year.mapM digits.decimal = some found ∧ valueOf found = d.year ∧
    digits.decimal unit = some (d.day % 10) ∧ (isDigit unit = true ∨ 10 ≤ d.day ∧ d.day < 30)

section Spellings
variable {digits : Digits} {text year month day : PyStr} {d : Date} {c : CodePoint} {n : Nat}

theorem text_eq_tenPlaces (d : Date) :
    d.text = tenPlaces (padded 4 d.year) (padded 2 d.month) (padded 2 d.day) := rfl

theorem exists_four (h : year.length = 4) : ∃ a b c e, year = [a, b, c, e] :=
  match year, h with
  | [a, b, c, e], _ => ⟨a, b, c, e, rfl⟩

theorem exists_ten (h : text.length = 10) :
    ∃ a b c e f i j k l m, text = [a, b, c, e, f, i, j, k, l, m] :=
  match text, h with
  | [a, b, c, e, f, i, j, k, l, m], _ => ⟨a, b, c, e, f, i, j, k, l, m, rfl⟩

theorem parts (hyear : year.length = 4) (hmonth : month.length = 2) (day : PyStr) :
    (tenPlaces year month day).take 4 = year ∧
      ((tenPlaces year month day).drop 5).take 2 = month ∧
      (tenPlaces year month day).drop 8 = day := by
  obtain ⟨a, b, c, e, rfl⟩ := exists_four hyear
  obtain ⟨m₀, m₁, rfl⟩ := List.length_eq_two.mp hmonth
  exact ⟨rfl, rfl, rfl⟩

theorem isAscii_iff : isAscii text = true ↔ ∀ c ∈ text, c.val < 128 := by
  simp [isAscii]

theorem isDigit_iff : isDigit c = true ↔ 0x30 ≤ c.val ∧ c.val ≤ 0x39 := by
  simp [isDigit]

theorem ascii_of_isDigit (h : isDigit c = true) : c.val < 128 := by
  simp only [isDigit, Bool.and_eq_true, decide_eq_true_eq] at h
  omega

theorem isAscii_padded (width n : Nat) : ∀ c ∈ padded width n, c.val < 128 :=
  fun c mem => ascii_of_isDigit (isDigit_padded width n c mem)

theorem padded_two (n : Nat) : padded 2 n = padded 1 (n / 10) ++ padded 1 n := by
  obtain ⟨c, _, hc, split⟩ := padded_succ 1 n
  obtain ⟨e, _, he, single⟩ := padded_succ 0 n
  have same : c = e := Fin.ext (by omega)
  rw [split, single, same]
  rfl

theorem eq_padded_one : [c] = padded 1 n ↔ c.val = 0x30 + n % 10 := by
  obtain ⟨e, _, he, single⟩ := padded_succ 0 n
  rw [single]
  simp only [padded, List.nil_append, List.cons.injEq, and_true, Fin.ext_iff]
  omega

theorem isAscii_text (d : Date) : isAscii d.text = true := by
  refine isAscii_iff.mpr fun c mem => ?_
  have dash : ∀ c ∈ py "-", c.val < 128 := isAscii_iff.mp (by decide)
  simp only [text_eq_tenPlaces, tenPlaces, List.mem_append] at mem
  rcases mem with (((mem | mem) | mem) | mem) | mem
  · exact isAscii_padded _ _ c mem
  · exact dash c mem
  · exact isAscii_padded _ _ c mem
  · exact dash c mem
  · exact isAscii_padded _ _ c mem

theorem spells_text (digits : Digits) (d : Date) : Spells digits d.text d := by
  have valid := d.valid
  obtain ⟨found, hfound, _, value⟩ := mapM_padded digits 4 d.year
  obtain ⟨unit, digit, hunit, single⟩ := padded_succ 0 d.day
  refine ⟨padded 4 d.year, unit, found, ?_, length_padded _ _, hfound, by omega, ?_, Or.inl digit⟩
  · rw [text_eq_tenPlaces, padded_two d.day, ← eq_padded_one.mpr hunit]
  · rw [digits.decimal_ascii unit digit]
    exact congrArg some (by omega)

/-- In ASCII there is one spelling. -/
theorem eq_text_of_spells (h : Spells digits text d) (ascii : isAscii text = true) :
    text = d.text := by
  obtain ⟨year, unit, found, rfl, length, hfound, value, hunit, _⟩ := h
  rw [isAscii_iff] at ascii
  have digit := isDigit_of_decimal hunit (ascii unit (by simp [tenPlaces]))
  have digitsOnly : ∀ c ∈ year, isDigit c = true := by
    intro c mem
    obtain ⟨n, hn⟩ := Option.isSome_iff_exists.mp
      (digits.isSome_mapM.mp (Option.isSome_iff_exists.mpr ⟨found, hfound⟩) c mem)
    exact (isDigit_of_decimal hn (ascii c (by simp [tenPlaces, mem]))).1
  obtain ⟨n, bound, same⟩ := exists_padded digitsOnly
  rw [length] at bound same
  obtain ⟨found', hfound', _, value'⟩ := mapM_padded digits 4 n
  rw [← same, hfound] at hfound'
  obtain rfl := Option.some.inj hfound'
  have hyear : n = d.year := by omega
  rw [text_eq_tenPlaces, padded_two d.day, ← eq_padded_one.mpr digit.2, same, hyear]

end Spellings

section Strptime
variable {digits : Digits} {text rest : PyStr} {d : Date} {m₀ m₁ t u : CodePoint}
  {month day first second : List CharClass} {n : Nat}

theorem only_iff {c : Char} : only c t = true ↔ t = ofChar c := by simp [only]

theorem between_iff {low high : Char} :
    between low high t = true ↔ (ofChar low).val ≤ t.val ∧ t.val ≤ (ofChar high).val := by
  simp [between]

theorem eq_padded_two : [m₀, m₁] = padded 2 n ↔
    m₀.val = 0x30 + n / 10 % 10 ∧ m₁.val = 0x30 + n % 10 := by
  obtain ⟨a, _, ha, front⟩ := padded_succ 0 (n / 10)
  obtain ⟨b, _, hb, split⟩ := padded_succ 1 n
  rw [split, front]
  simp only [padded, List.nil_append, List.cons_append, List.cons.injEq, and_true, Fin.ext_iff]
  omega

/-- The month shapes of two places. -/
theorem month_iff : (∃ month ∈ monthShapes.take 2, starts month [m₀, m₁] = true) ↔
    ∃ n, 1 ≤ n ∧ n ≤ 12 ∧ [m₀, m₁] = padded 2 n := by
  have low : (ofChar '0').val = 0x30 ∧ (ofChar '1').val = 0x31 := ⟨rfl, rfl⟩
  have high : (ofChar '2').val = 0x32 ∧ (ofChar '9').val = 0x39 := ⟨rfl, rfl⟩
  simp only [monthShapes, List.take_succ_cons, List.take_zero, List.mem_cons, List.not_mem_nil,
    or_false, exists_eq_or_imp, exists_eq_left, starts, Bool.and_true, Bool.and_eq_true, only_iff,
    between_iff, eq_padded_two, Fin.ext_iff]
  constructor
  · intro h
    exact ⟨10 * (m₀.val - 0x30) + (m₁.val - 0x30), by omega⟩
  · rintro ⟨n, lower, upper, tens, units⟩
    omega

/-- The day shapes of two places without a blank. -/
theorem day_iff : (∃ day ∈ (dayShapes digits).take 3, starts day [t, u] = true) ↔
    ∃ n, 1 ≤ n ∧ n ≤ 31 ∧ [t] = padded 1 (n / 10) ∧ digits.decimal u = some (n % 10) ∧
      (isDigit u = true ∨ 10 ≤ n ∧ n < 30) := by
  have low : (ofChar '0').val = 0x30 ∧ (ofChar '1').val = 0x31 := ⟨rfl, rfl⟩
  have high : (ofChar '2').val = 0x32 ∧ (ofChar '3').val = 0x33 ∧ (ofChar '9').val = 0x39 :=
    ⟨rfl, rfl, rfl⟩
  simp only [dayShapes, List.take_succ_cons, List.take_zero, List.mem_cons, List.not_mem_nil,
    or_false, exists_eq_or_imp, exists_eq_left, starts, Bool.and_true, Bool.and_eq_true, only_iff,
    between_iff, eq_padded_one, Fin.ext_iff]
  constructor
  · rintro (⟨tens, units⟩ | ⟨tens, units⟩ | ⟨tens, units⟩)
    · refine ⟨10 * 3 + (u.val - 0x30), by omega, by omega, by omega, ?_, ?_⟩
      · rw [digits.decimal_ascii u (isDigit_iff.mpr (by omega))]
        exact congrArg some (by omega)
      · exact Or.inl (isDigit_iff.mpr (by omega))
    · obtain ⟨k, hk⟩ := Option.isSome_iff_exists.mp units
      have small := digits.decimal_lt u k hk
      refine ⟨10 * (t.val - 0x30) + k, by omega, by omega, by omega, ?_, Or.inr (by omega)⟩
      rw [hk]
      exact congrArg some (by omega)
    · refine ⟨u.val - 0x30, by omega, by omega, by omega, ?_, ?_⟩
      · rw [digits.decimal_ascii u (isDigit_iff.mpr (by omega))]
        exact congrArg some (by omega)
      · exact Or.inl (isDigit_iff.mpr (by omega))
  · rintro ⟨n, lower, upper, tens, units, script⟩
    have decimal : isDecimal digits u = true := by rw [isDecimal, units, Option.isSome_some]
    rcases script with digit | middle
    · have value := (isDigit_of_decimal units (ascii_of_isDigit digit)).2
      simp only [decimal, and_true]
      omega
    · exact Or.inr (Or.inl ⟨by omega, decimal⟩)

theorem length_monthShapes : ∀ month ∈ monthShapes.take 2, month.length = 2 := by
  simp [monthShapes]

theorem length_dayShapes : ∀ day ∈ (dayShapes digits).take 3, day.length = 2 := by
  simp [dayShapes]

/-- The alternatives of two places are tried before the others. -/
theorem find_day (fits : ∃ day ∈ (dayShapes digits).take 3, starts day rest = true) :
    ∃ day, (dayShapes digits).find? (starts · rest) = some day ∧ day.length = 2 := by
  obtain ⟨shape, mem, hshape⟩ := fits
  have some := List.find?_isSome (p := (starts · rest)) |>.mpr ⟨shape, mem, hshape⟩
  obtain ⟨day, hday⟩ := Option.isSome_iff_exists.mp some
  refine ⟨day, ?_, length_dayShapes day (List.mem_of_find?_eq_some hday)⟩
  rw [← List.take_append_drop 3 (dayShapes digits), List.find?_append, hday, Option.some_or]

theorem find_month {f : List CharClass → Option (List CharClass × List CharClass)}
    (value : ∀ month ∈ monthShapes.take 2,
      f month = if starts month text then some (month, day) else none)
    (fits : ∃ month ∈ monthShapes.take 2, starts month text = true) :
    ∃ month ∈ monthShapes.take 2, monthShapes.findSome? f = some (month, day) := by
  obtain ⟨shape, mem, hshape⟩ := fits
  have some : (f shape).isSome = true := by
    rw [value shape mem, if_pos hshape, Option.isSome_some]
  obtain ⟨found, hfound⟩ := Option.isSome_iff_exists.mp
    (List.findSome?_isSome_iff.mpr ⟨shape, mem, some⟩)
  obtain ⟨month, hmem, hmonth⟩ := List.exists_of_findSome?_eq_some hfound
  refine ⟨month, hmem, ?_⟩
  rw [← List.take_append_drop 2 monthShapes, List.findSome?_append, hfound, Option.some_or,
    ← hmonth]
  rw [value month hmem] at hmonth ⊢
  split at hmonth
  · next started => exact if_pos started
  · cases hmonth

/-- Whether a month shape fits in front of a dash does not depend on the rest. -/
theorem starts_tenPlaces {year : PyStr} (length : year.length = 4)
    (decimals : (year.mapM digits.decimal).isSome = true) (two : month.length = 2) :
    starts (yearShape digits ++ month ++ [only '-']) (tenPlaces year [m₀, m₁] [t, u]) =
      starts month [m₀, m₁] := by
  rw [digits.isSome_mapM] at decimals
  obtain ⟨a, b, c, e, rfl⟩ := exists_four length
  obtain ⟨first, second, rfl⟩ := List.length_eq_two.mp two
  simp only [List.forall_mem_cons] at decimals
  obtain ⟨ha, hb, hc, he, _⟩ := decimals
  simp [tenPlaces, yearShape, starts, isDecimal, only, py, ha, hb, hc, he]

/-- What `strptime` reads in a text of ten places. -/
theorem strptimeShapes_of_fits {year : PyStr} (length : year.length = 4)
    (decimals : (year.mapM digits.decimal).isSome = true)
    (fitsMonth : ∃ month ∈ monthShapes.take 2, starts month [m₀, m₁] = true)
    (fitsDay : ∃ day ∈ (dayShapes digits).take 3, starts day [t, u] = true) :
    ∃ month day, strptimeShapes digits (tenPlaces year [m₀, m₁] [t, u]) = some (month, day) ∧
      month.length = 2 ∧ day.length = 2 := by
  obtain ⟨day, hday, two⟩ := find_day fitsDay
  have rest : (tenPlaces year [m₀, m₁] [t, u]).drop (6 + 2) = [t, u] :=
    (parts length rfl [t, u]).2.2
  have value : ∀ month ∈ monthShapes.take 2,
      (if starts (yearShape digits ++ month ++ [only '-']) (tenPlaces year [m₀, m₁] [t, u]) then
        ((dayShapes digits).find? fun day => starts day
          ((tenPlaces year [m₀, m₁] [t, u]).drop (6 + month.length))).map fun day => (month, day)
      else none) = if starts month [m₀, m₁] then some (month, day) else none := by
    intro month mem
    have two := length_monthShapes month mem
    rw [starts_tenPlaces length decimals two, two, rest, hday, Option.map_some]
  obtain ⟨month, mem, found⟩ := find_month value fitsMonth
  exact ⟨month, day, found, length_monthShapes month mem, two⟩

theorem int_day (tens : [t] = padded 1 (n / 10)) (units : digits.decimal u = some (n % 10))
    (small : n < 100) : digits.int [t, u] = some (n : Int) := by
  have single := eq_padded_one.mp tens
  have digit : isDigit t = true := isDigit_iff.mpr (by omega)
  have read : [t, u].mapM digits.decimal = some [n / 10, n % 10] := by
    have value : t.val - 0x30 = n / 10 := by omega
    rw [List.mapM_cons, digits.decimal_ascii t digit, value, List.mapM_cons, units]
    rfl
  rw [digits.int_of_mapM (List.cons_ne_nil _ _) read (Nat.le_of_ble_eq_true rfl)]
  refine congrArg some (congrArg Nat.cast ?_)
  rw [← List.singleton_append, valueOf_append, valueOf, List.reverse_singleton,
    Nat.ofDigits_singleton]
  omega

/-- A text of ten places with the date its parts stand for. -/
theorem strptime_tenPlaces {year : PyStr} {found : List Nat} {months days : Nat}
    (length : year.length = 4) (hfound : year.mapM digits.decimal = some found)
    (hmonth : [m₀, m₁] = padded 2 months) (inYear : 1 ≤ months ∧ months ≤ 12)
    (tens : [t] = padded 1 (days / 10)) (units : digits.decimal u = some (days % 10))
    (script : isDigit u = true ∨ 10 ≤ days ∧ days < 30) (inMonth : 1 ≤ days ∧ days ≤ 31) :
    strptime digits (tenPlaces year [m₀, m₁] [t, u]) =
      (newDate (valueOf found) months days).toOption := by
  obtain ⟨month, day, shapes, twoMonth, twoDay⟩ := strptimeShapes_of_fits length
    (Option.isSome_iff_exists.mpr ⟨found, hfound⟩)
    (month_iff.mpr ⟨months, inYear.1, inYear.2, hmonth⟩)
    (day_iff.mpr ⟨days, inMonth.1, inMonth.2, tens, units, script⟩)
  obtain ⟨hyear, hmid, htail⟩ : (tenPlaces year [m₀, m₁] [t, u]).take 4 = year ∧
    ((tenPlaces year [m₀, m₁] [t, u]).drop 5).take 2 = [m₀, m₁] ∧
    (tenPlaces year [m₀, m₁] [t, u]).drop 8 = [t, u] := parts length rfl [t, u]
  have ten : (tenPlaces year [m₀, m₁] [t, u]).length = 10 := by simp [tenPlaces, length, py]
  have nonempty : year ≠ [] := by
    rintro rfl
    cases length
  have y : digits.int year = some (valueOf found : Int) :=
    digits.int_of_mapM nonempty hfound (by rw [length]; decide)
  have m : digits.int [m₀, m₁] = some (months : Int) := by
    rw [hmonth]
    exact int_padded digits (by omega) (by decide)
  have n : digits.int [t, u] = some (days : Int) := int_day tens units (by omega)
  have whole : ¬ 10 ≠ 6 + 2 + 2 := by decide
  rw [strptime, shapes, Option.bind_some]
  simp only [twoMonth, twoDay, ten]
  rw [if_neg whole, hyear, hmid, htail, dateOf, y, m, n, Option.bind_some, Option.bind_some,
    Option.bind_some]

/-- Every spelling of a date is parsed. -/
theorem strptime_of_spells (h : Spells digits text d) : strptime digits text = some d := by
  have valid := d.valid
  have short := le_daysInMonth d.year d.month
  obtain ⟨year, unit, found, rfl, length, hfound, value, hunit, script⟩ := h
  obtain ⟨m₀, m₁, hmonth⟩ := List.length_eq_two.mp (length_padded 2 d.month)
  obtain ⟨t, ht⟩ := List.length_eq_one_iff.mp (length_padded 1 (d.day / 10))
  have same : newDate (valueOf found) d.month d.day = .ok d :=
    newDate_eq_ok.mpr ⟨by rw [value], rfl, rfl⟩
  rw [hmonth, ht, List.singleton_append, strptime_tenPlaces length hfound hmonth.symm valid.2.1
    ht.symm hunit script (by omega), same]
  rfl

/-- What `DATE_PATTERN` asks of ten code points. -/
def dateShape (digits : Digits) : List CharClass :=
  yearShape digits ++ [isDecimal digits, isDecimal digits, only '-', isDecimal digits,
    isDecimal digits]

theorem isDecimal_of_isDigit (digits : Digits) {c : CodePoint} (h : isDigit c = true) :
    isDecimal digits c = true := by
  rw [isDecimal, digits.decimal_ascii c h, Option.isSome_some]

/-- A spelling has that shape. -/
theorem starts_of_spells (h : Spells digits text d) :
    text.length = 10 ∧ starts (dateShape digits) text = true := by
  obtain ⟨year, unit, found, rfl, length, hfound, _, hunit, _⟩ := h
  have decimals : ∀ c ∈ year, isDecimal digits c = true :=
    digits.isSome_mapM.mp (Option.isSome_iff_exists.mpr ⟨found, hfound⟩)
  have months := isDigit_padded 2 d.month
  have tens := isDigit_padded 1 (d.day / 10)
  obtain ⟨a, b, c, e, rfl⟩ := exists_four length
  obtain ⟨m₀, m₁, hmonth⟩ := List.length_eq_two.mp (length_padded 2 d.month)
  obtain ⟨t, ht⟩ := List.length_eq_one_iff.mp (length_padded 1 (d.day / 10))
  rw [hmonth] at months ⊢
  rw [ht] at tens ⊢
  simp only [List.forall_mem_cons] at decimals months tens
  obtain ⟨ha, hb, hc, he, _⟩ := decimals
  have last : isDecimal digits unit = true := by rw [isDecimal, hunit, Option.isSome_some]
  have first := isDecimal_of_isDigit digits months.1
  have second := isDecimal_of_isDigit digits months.2.1
  have third := isDecimal_of_isDigit digits tens.1
  refine ⟨rfl, ?_⟩
  simp [tenPlaces, dateShape, yearShape, starts, only, py, ha, hb, hc, he, first, second, third,
    last]

theorem month_mem (mem : month ∈ monthShapes) :
    month.length ≤ 2 ∧ (month.length = 2 → month ∈ monthShapes.take 2) := by
  simp only [monthShapes, List.mem_cons, List.not_mem_nil, or_false, List.take_succ_cons,
    List.take_zero] at mem ⊢
  rcases mem with rfl | rfl | rfl <;> simp

theorem day_length (mem : day ∈ dayShapes digits) : day.length ≤ 2 := by
  simp only [dayShapes, List.mem_cons, List.not_mem_nil, or_false] at mem
  rcases mem with rfl | rfl | rfl | rfl | rfl <;> simp

/-- The shape with a blank does not fit a digit. -/
theorem day_mem (mem : day ∈ dayShapes digits) (two : day.length = 2)
    (digit : isDecimal digits t = true) (fits : starts day (t :: rest) = true) :
    day ∈ (dayShapes digits).take 3 := by
  simp only [dayShapes, List.mem_cons, List.not_mem_nil, or_false, List.take_succ_cons,
    List.take_zero] at mem ⊢
  rcases mem with rfl | rfl | rfl | rfl | rfl
  · simp
  · simp
  · simp
  · cases two
  · simp only [starts, Bool.and_eq_true, only_iff] at fits
    rw [isDecimal, fits.1, digits.decimal_none (digits.isdigit_false (by decide) (by decide))]
      at digit
    cases digit

/-- What is parsed fits as a whole. -/
theorem shapes_of_strptime (h : strptime digits text = some d) : ∃ month day,
    month ∈ monthShapes ∧ starts (yearShape digits ++ month ++ [only '-']) text = true ∧
      day ∈ dayShapes digits ∧ starts day (text.drop (6 + month.length)) = true ∧
      text.length = 6 + month.length + day.length := by
  obtain ⟨⟨month, day⟩, hshapes, whole⟩ := Option.bind_eq_some_iff.mp h
  have total : text.length = 6 + month.length + day.length := by
    by_contra partly
    simp only at whole
    rw [if_pos partly] at whole
    cases whole
  obtain ⟨shape, mem, hshape⟩ := List.exists_of_findSome?_eq_some hshapes
  split at hshape
  · next started =>
    obtain ⟨found, hfound, same⟩ := Option.map_eq_some_iff.mp hshape
    obtain ⟨rfl, rfl⟩ := Prod.mk.inj same
    exact ⟨shape, found, mem, started, List.mem_of_find?_eq_some hfound,
      List.find?_some (p := fun day => starts day (text.drop (6 + shape.length))) hfound, total⟩
  · cases hshape

theorem length_of_strptime (h : strptime digits text = some d) : text.length ≤ 10 := by
  obtain ⟨month, day, memMonth, _, memDay, _, total⟩ := shapes_of_strptime h
  have shortMonth := month_mem memMonth
  have shortDay := day_length memDay
  omega

/-- Nothing else of that shape is parsed. -/
theorem spells_of_strptime (ten : text.length = 10) (shape : starts (dateShape digits) text = true)
    (h : strptime digits text = some d) : Spells digits text d := by
  obtain ⟨a, b, c, e, dash, m₀, m₁, dash', t, u, rfl⟩ := exists_ten ten
  simp only [dateShape, yearShape, List.cons_append, List.nil_append, starts, Bool.and_true,
    Bool.and_eq_true, only_iff] at shape
  obtain ⟨ha, hb, hc, he, rfl, _, _, rfl, ht, _⟩ := shape
  have split : [a, b, c, e, ofChar '-', m₀, m₁, ofChar '-', t, u] =
      tenPlaces [a, b, c, e] [m₀, m₁] [t, u] := rfl
  have decimals : ([a, b, c, e].mapM digits.decimal).isSome = true := by
    refine digits.isSome_mapM.mpr ?_
    simp only [List.forall_mem_cons]
    exact ⟨ha, hb, hc, he, fun c mem => absurd mem List.not_mem_nil⟩
  obtain ⟨found, hfound⟩ := Option.isSome_iff_exists.mp decimals
  rw [split] at h ⊢
  obtain ⟨month, day, memMonth, fitsMonth, memDay, fitsDay, total⟩ := shapes_of_strptime h
  have shortMonth := month_mem memMonth
  have shortDay := day_length memDay
  have ten : (tenPlaces [a, b, c, e] [m₀, m₁] [t, u]).length = 10 := rfl
  have twoMonth : month.length = 2 := by omega
  have twoDay : day.length = 2 := by omega
  rw [twoMonth] at fitsDay
  rw [starts_tenPlaces rfl decimals twoMonth] at fitsMonth
  obtain ⟨months, first, last, hmonth⟩ := month_iff.mp ⟨month, shortMonth.2 twoMonth, fitsMonth⟩
  obtain ⟨days, first', last', tens, units, script⟩ :=
    day_iff.mp ⟨day, day_mem memDay twoDay ht fitsDay, fitsDay⟩
  rw [strptime_tenPlaces rfl hfound hmonth ⟨first, last⟩ tens units script ⟨first', last'⟩] at h
  obtain ⟨hyear, hmonth', hday⟩ := newDate_eq_ok.mp (toOption_eq_some.mp h)
  obtain rfl : d.month = months := by omega
  obtain rfl : d.day = days := by omega
  refine ⟨[a, b, c, e], u, found, ?_, rfl, hfound, by omega, units, script⟩
  rw [hmonth, ← tens]
  rfl

end Strptime

section Isoformat
variable {digits : Digits} {text template : PyStr} {d : Date} {width n : Nat}

/-- A template in ASCII leaves room for ASCII only. -/
theorem isAscii_of_shaped (plain : isAscii template = true) (h : shaped template text = true) :
    isAscii text = true := by
  rw [isAscii_iff] at plain ⊢
  simp only [shaped, Bool.and_eq_true, decide_eq_true_eq] at h
  obtain ⟨length, all⟩ := h
  induction template generalizing text with
  | nil =>
    rw [List.length_eq_zero_iff.mp length.symm]
    exact fun c mem => absurd mem List.not_mem_nil
  | cons p template ih =>
    cases text with
    | nil => cases length
    | cons c text =>
      simp only [List.length_cons, Nat.add_right_cancel_iff] at length
      rw [List.zip_cons_cons, List.all_cons, Bool.and_eq_true] at all
      rw [List.forall_mem_cons] at plain ⊢
      refine ⟨?_, ih plain.2 length all.2⟩
      obtain ⟨first, _⟩ := all
      simp only at first
      split at first
      · exact ascii_of_isDigit first
      · rw [of_decide_eq_true first]
        exact plain.1

/-- What is parsed can be encoded. -/
theorem encodes_of_fromIsoformat (h : fromIsoformat text = some d) :
    (encodeUtf8 text).isSome = true := by
  obtain ⟨bytes, encoded, _⟩ := Option.bind_eq_some_iff.mp h
  exact Option.isSome_iff_exists.mpr ⟨bytes, encoded⟩

theorem asciiValue_padded (width n : Nat) : asciiValue (padded width n) = n % 10 ^ width := by
  induction width generalizing n with
  | zero => simp [asciiValue, valueOf, padded, Nat.mod_one]
  | succ width ih =>
    obtain ⟨c, _, hc, split⟩ := padded_succ width n
    have last : c.val - 0x30 = n % 10 := by omega
    have front : valueOf ((padded width (n / 10)).map (fun c => c.val - 0x30)) =
        n / 10 % 10 ^ width := ih (n / 10)
    rw [asciiValue, split, List.map_append, List.map_cons, List.map_nil, valueOf_append, front,
      last, Nat.pow_succ, Nat.mul_comm _ 10, Nat.mod_mul]
    omega

theorem shaped_tenPlaces {year month day : PyStr} (hyear : year.length = 4)
    (hmonth : month.length = 2) (hday : day.length = 2) :
    shaped (py "0000-00-00") (tenPlaces year month day) = true ↔
      (∀ c ∈ year, isDigit c = true) ∧ (∀ c ∈ month, isDigit c = true) ∧
        ∀ c ∈ day, isDigit c = true := by
  obtain ⟨a, b, c, e, rfl⟩ := exists_four hyear
  obtain ⟨m₀, m₁, rfl⟩ := List.length_eq_two.mp hmonth
  obtain ⟨t, u, rfl⟩ := List.length_eq_two.mp hday
  have dash : ofChar '-' ≠ ofChar '0' := by decide
  simp [shaped, tenPlaces, py, dash, and_assoc]

/-- The form with dashes. -/
theorem shaped_iff : shaped (py "0000-00-00") text = true ↔
    ∃ y m n, y < 10 ^ 4 ∧ m < 10 ^ 2 ∧ n < 10 ^ 2 ∧
      text = tenPlaces (padded 4 y) (padded 2 m) (padded 2 n) := by
  constructor
  · intro h
    obtain ⟨year, month, day, hyear, hmonth, hday, rfl⟩ : ∃ year month day : PyStr,
        year.length = 4 ∧ month.length = 2 ∧ day.length = 2 ∧ text = tenPlaces year month day := by
      simp only [shaped, Bool.and_eq_true, decide_eq_true_eq] at h
      obtain ⟨a, b, c, e, dash, m₀, m₁, dash', t, u, rfl⟩ := exists_ten h.1.symm
      have places := List.all_eq_true.mp h.2
      have first : dash = ofChar '-' := of_decide_eq_true (places (ofChar '-', dash) (by simp [py]))
      have second : dash' = ofChar '-' :=
        of_decide_eq_true (places (ofChar '-', dash') (by simp [py]))
      exact ⟨[a, b, c, e], [m₀, m₁], [t, u], rfl, rfl, rfl, by rw [first, second]; rfl⟩
    obtain ⟨years, months, days⟩ := (shaped_tenPlaces hyear hmonth hday).mp h
    obtain ⟨y, hy, yearText⟩ := exists_padded years
    obtain ⟨m, hm, monthText⟩ := exists_padded months
    obtain ⟨n, hn, dayText⟩ := exists_padded days
    rw [hyear] at hy yearText
    rw [hmonth] at hm monthText
    rw [hday] at hn dayText
    exact ⟨y, m, n, hy, hm, hn, by rw [yearText, monthText, dayText]⟩
  · rintro ⟨y, m, n, _, _, _, rfl⟩
    exact (shaped_tenPlaces (length_padded 4 y) (length_padded 2 m) (length_padded 2 n)).mpr
      ⟨isDigit_padded 4 y, isDigit_padded 2 m, isDigit_padded 2 n⟩

theorem parseDigits_append {front rest : PyStr} {count : Nat} (long : front.length = count) :
    parseDigits count (front ++ rest) =
      if ∀ c ∈ front, isDigit c = true then some (asciiValue front, rest) else none := by
  rw [parseDigits, List.take_left' long, List.drop_left' long]
  simp only [long, true_and, List.all_eq_true]

theorem separated_dash (rest : PyStr) : separated true (ofChar '-' :: rest) = some rest := rfl

theorem parseMonth_dashed {year : Nat} {month day : PyStr} (hmonth : month.length = 2)
    (hday : day.length = 2) : parseMonth year true (month ++ ofChar '-' :: day) =
      if (∀ c ∈ month, isDigit c = true) ∧ ∀ c ∈ day, isDigit c = true then
        (newDate year (asciiValue month) (asciiValue day)).toOption
      else none := by
  have last : parseDigits 2 day =
      if ∀ c ∈ day, isDigit c = true then some (asciiValue day, []) else none := by
    rw [← parseDigits_append hday, List.append_nil]
  rw [parseMonth, parseDigits_append hmonth]
  by_cases months : ∀ c ∈ month, isDigit c = true
  · simp only [if_pos months, Option.bind_eq_bind, Option.bind_some]
    rw [separated_dash, Option.bind_some, last]
    by_cases days : ∀ c ∈ day, isDigit c = true
    · rw [if_pos days, if_pos ⟨months, days⟩, Option.bind_some]
    · rw [if_neg days, if_neg fun both => days both.2]
      rfl
  · rw [if_neg months, if_neg fun both => months both.1]
    rfl

/-- Behind a dash and no week, the rest has to be a month, a dash and a day. -/
theorem parse_tenPlaces {year month day : PyStr} (hyear : year.length = 4)
    (hmonth : month.length = 2) (hday : day.length = 2) (noWeek : ofChar 'W' ∉ month) :
    parseIsoformatDate (tenPlaces year month day) =
      if shaped (py "0000-00-00") (tenPlaces year month day) = true then
        (newDate (asciiValue year) (asciiValue month) (asciiValue day)).toOption
      else none := by
  have split : tenPlaces year month day =
      year ++ (ofChar '-' :: (month ++ ofChar '-' :: day)) := by simp [tenPlaces, py]
  simp only [shaped_tenPlaces hyear hmonth hday]
  rw [split, parseIsoformatDate, parseDigits_append hyear]
  by_cases years : ∀ c ∈ year, isDigit c = true
  · have other : (month ++ ofChar '-' :: day).head? ≠ some (ofChar 'W') := by
      obtain ⟨m₀, m₁, rfl⟩ := List.length_eq_two.mp hmonth
      exact fun same => noWeek (Option.some.inj same ▸ List.mem_cons_self)
    simp only [if_pos years, Option.bind_eq_bind, Option.bind_some, List.head?_cons, if_true,
      List.tail_cons, decide_true]
    rw [if_neg other, parseMonth_dashed hmonth hday]
    exact if_congr (and_iff_right years).symm rfl rfl
  · rw [if_neg years, if_neg fun all => years all.1]
    rfl

theorem no_week (n : Nat) : ofChar 'W' ∉ padded 2 n := by
  intro mem
  cases isDigit_padded 2 n _ mem

theorem fromIsoformat_tenPlaces {y m n : Nat} (year : y < 10 ^ 4) (month : m < 10 ^ 2)
    (day : n < 10 ^ 2) : fromIsoformat (tenPlaces (padded 4 y) (padded 2 m) (padded 2 n)) =
      (newDate y m n).toOption := by
  have shape := shaped_iff.mpr ⟨y, m, n, year, month, day, rfl⟩
  obtain ⟨bytes, encoded, length⟩ := length_encodeUtf8 (isAscii_of_shaped (by decide) shape)
  have ten : (tenPlaces (padded 4 y) (padded 2 m) (padded 2 n)).length = 10 := by
    simp [tenPlaces, py, length_padded]
  have allowed : bytes.length ∈ [7, 8, 10] := by simp [length, ten]
  have parsed := parse_tenPlaces (length_padded 4 y) (length_padded 2 m) (length_padded 2 n)
    (no_week m)
  rw [fromIsoformat, encoded, Option.bind_eq_bind, Option.bind_some, if_pos allowed, parsed,
    if_pos shape, asciiValue_padded, asciiValue_padded, asciiValue_padded, Nat.mod_eq_of_lt year,
    Nat.mod_eq_of_lt month, Nat.mod_eq_of_lt day]

/-- Of the spellings, those in ASCII are read. -/
theorem isAscii_of_spells {e : Date} (h : Spells digits text e)
    (read : fromIsoformat text = some d) : isAscii text = true := by
  obtain ⟨year, unit, found, rfl, length, _⟩ := h
  obtain ⟨bytes, _, parsed⟩ := Option.bind_eq_some_iff.mp read
  split at parsed
  · have two : (padded 1 (e.day / 10) ++ [unit]).length = 2 := by simp [length_padded]
    rw [parse_tenPlaces length (length_padded 2 e.month) two (no_week e.month)] at parsed
    split at parsed
    · next shape => exact isAscii_of_shaped (by decide) shape
    · cases parsed
  · cases parsed

/-- `fromisoformat` reads what `isoformat` writes, and nothing else in that form. -/
theorem fromIsoformat_eq_some : shaped (py "0000-00-00") text = true ∧
    fromIsoformat text = some d ↔ text = d.text := by
  constructor
  · rintro ⟨shape, h⟩
    obtain ⟨y, m, n, hy, hm, hn, rfl⟩ := shaped_iff.mp shape
    rw [fromIsoformat_tenPlaces hy hm hn] at h
    obtain ⟨hyear, hmonth, hday⟩ := newDate_eq_ok.mp (toOption_eq_some.mp h)
    rw [text_eq_tenPlaces, Int.ofNat.inj hyear, Int.ofNat.inj hmonth, Int.ofNat.inj hday]
  · rintro rfl
    have valid := d.valid
    have short := le_daysInMonth d.year d.month
    rw [text_eq_tenPlaces, fromIsoformat_tenPlaces (by omega) (by omega) (by omega)]
    exact ⟨shaped_iff.mpr ⟨d.year, d.month, d.day, by omega, by omega, by omega, rfl⟩,
      toOption_eq_some.mpr (newDate_eq_ok.mpr ⟨rfl, rfl, rfl⟩)⟩

end Isoformat

end DateTexts
