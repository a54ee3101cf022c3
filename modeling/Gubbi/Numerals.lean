import Mathlib.Data.Nat.Digits.Defs
import Gubbi.Validation

/-!
# Decimal numerals

`int()` on a string and the digit classes `\d` and `str.isdigit`, which accept the digits of
every script. The tables of the Unicode database are taken as a parameter; on ASCII
they are known.
-/

namespace Numerals

open Text Validation

structure Digits where
  /-- The value of a code point of category `Nd`, which is what `\d` matches. -/
  decimal : CodePoint → Option Nat
  /-- `str.isdigit()` of one code point: superscripts and the like count too. -/
  isdigit : CodePoint → Bool
  decimal_lt : ∀ c digit, decimal c = some digit → digit < 10
  isdigit_decimal : ∀ c digit, decimal c = some digit → isdigit c = true
  isdigit_space : ∀ c, isSpace c = true → isdigit c = false
  decimal_ascii : ∀ c, isDigit c = true → decimal c = some (c.val - 0x30)
  isdigit_ascii : ∀ c, c.val < 128 → isdigit c = isDigit c

/-- `str.isdigit()`. -/
def Digits.isdigits (digits : Digits) (text : PyStr) : Bool :=
  decide (text ≠ []) && text.all digits.isdigit

/-- The digits of a numeral in their order; an underscore may stand between two of them. -/
def Digits.numeral (digits : Digits) : PyStr → Option (List Nat)
  | [] => none
  | [c] => (digits.decimal c).map ([·])
  | c :: d :: rest =>
    match digits.decimal c with
    | none => none
    | some first =>
      (if d = ofChar '_' then digits.numeral rest else digits.numeral (d :: rest)).map (first :: ·)

/-- What a list of digits, the most significant one first, stands for. -/
def valueOf (digits : List Nat) : Nat := Nat.ofDigits 10 digits.reverse

/-- The white space that `int()` skips: the separators 0x1c to 0x1f are not among it. -/
def isIntSpace (c : CodePoint) : Bool := isSpace c && !(0x1c ≤ c.val && c.val ≤ 0x1f)

/-- `sys.int_info.default_max_str_digits`. -/
def maxStrDigits : Nat := 4300

/-- A sign and the text after it. -/
def signed : PyStr → Int × PyStr
  | [] => (1, [])
  | c :: rest =>
    if c = ofChar '-' then (-1, rest) else if c = ofChar '+' then (1, rest) else (1, c :: rest)

/-- `int(text)`; `none` is the `ValueError`. -/
def Digits.int (digits : Digits) (text : PyStr) : Option Int :=
  let (sign, body) := signed (stripOf isIntSpace text)
  match digits.numeral body with
  | none => none
  | some found => if found.length ≤ maxStrDigits then some (sign * valueOf found) else none

section Values
variable {found : List Nat}

theorem valueOf_append (found : List Nat) (digit : Nat) :
    valueOf (found ++ [digit]) = 10 * valueOf found + digit := by
  rw [valueOf, List.reverse_append, List.reverse_singleton, List.singleton_append,
    Nat.ofDigits_cons, valueOf]
  simp [Nat.add_comm]

theorem valueOf_lt (small : ∀ digit ∈ found, digit < 10) : valueOf found < 10 ^ found.length := by
  have bound := Nat.ofDigits_lt_base_pow_length (b := 10) (l := found.reverse) (by decide)
    (fun digit mem => small digit (List.mem_reverse.mp mem))
  rwa [List.length_reverse] at bound

/-- The digits of a numeral without the zeros at its front. -/
def significant (found : List Nat) : List Nat := found.dropWhile (fun digit => digit = 0)

theorem valueOf_zero (found : List Nat) : valueOf (0 :: found) = valueOf found := by
  rw [valueOf, List.reverse_cons, Nat.ofDigits_append_zero, valueOf]

theorem valueOf_significant (found : List Nat) : valueOf (significant found) = valueOf found := by
  rw [significant]
  induction found with
  | nil => rfl
  | cons digit rest ih =>
    by_cases zero : digit = 0
    · rw [List.dropWhile_cons_of_pos (by simpa using zero), ih, zero, valueOf_zero]
    · rw [List.dropWhile_cons_of_neg (by simpa using zero)]

/-- The significant digits are those of the number. -/
theorem digits_valueOf (small : ∀ digit ∈ found, digit < 10) :
    Nat.digits 10 (valueOf found) = (significant found).reverse := by
  rw [← valueOf_significant, valueOf]
  refine Nat.digits_ofDigits 10 (by decide) _ ?_ ?_
  · intro digit mem
    exact small digit (List.dropWhile_subset _ (List.mem_reverse.mp mem))
  · intro nonempty
    have head := List.head_dropWhile_not (fun digit => decide (digit = 0))
      (List.reverse_eq_nil_iff.not.mp nonempty)
    rw [List.getLast_reverse]
    simpa [significant] using head

/-- Two numerals stand for one number when they agree up to zeros at their fronts. -/
theorem valueOf_eq_iff {other : List Nat} (small : ∀ digit ∈ found, digit < 10)
    (small' : ∀ digit ∈ other, digit < 10) :
    valueOf found = valueOf other ↔ significant found = significant other := by
  constructor
  · intro same
    have written := digits_valueOf small
    rw [same, digits_valueOf small'] at written
    exact (List.reverse_injective written).symm
  · intro same
    rw [← valueOf_significant found, same, valueOf_significant]

end Values

section Reading
variable {digits : Digits} {text : PyStr} {found : List Nat} {value : Int}

theorem Digits.isdigits_iff : digits.isdigits text = true ↔
    text ≠ [] ∧ ∀ c ∈ text, digits.isdigit c = true := by
  simp [Digits.isdigits]

/-- An ASCII code point that is no digit is none of `str.isdigit()` either. -/
theorem Digits.isdigit_false {c : CodePoint} (ascii : c.val < 128) (other : isDigit c = false) :
    digits.isdigit c = false := by
  rw [digits.isdigit_ascii c ascii, other]

theorem Digits.decimal_none {c : CodePoint} (h : digits.isdigit c = false) :
    digits.decimal c = none := by
  cases value : digits.decimal c with
  | none => rfl
  | some digit =>
    have := digits.isdigit_decimal c digit value
    rw [h] at this
    cases this

/-- The decimal digits of ASCII are ten. -/
theorem isDigit_of_decimal {c : CodePoint} {n : Nat} (h : digits.decimal c = some n)
    (ascii : c.val < 128) : isDigit c = true ∧ c.val = 0x30 + n := by
  have digit : isDigit c = true := by
    rw [← digits.isdigit_ascii c ascii]
    exact digits.isdigit_decimal c n h
  have value := digits.decimal_ascii c digit
  rw [h] at value
  simp only [isDigit, Bool.and_eq_true, decide_eq_true_eq] at digit
  have same := Option.some.inj value
  exact ⟨by simp only [isDigit, Bool.and_eq_true, decide_eq_true_eq]; omega, by omega⟩

theorem Digits.numeral_cons {c : CodePoint} {rest : PyStr} (nonempty : rest ≠ [])
    (plain : ofChar '_' ∉ rest) :
    digits.numeral (c :: rest) =
      (digits.decimal c).bind fun first => (digits.numeral rest).map (first :: ·) := by
  cases rest with
  | nil => exact absurd rfl nonempty
  | cons d more =>
    have differs : d ≠ ofChar '_' := fun same => plain (same ▸ List.mem_cons_self)
    rw [Digits.numeral, if_neg differs]
    cases digits.decimal c <;> rfl

/-- Without underscores a numeral is read digit by digit. -/
theorem Digits.numeral_plain (nonempty : text ≠ []) (plain : ofChar '_' ∉ text) :
    digits.numeral text = text.mapM digits.decimal := by
  induction text with
  | nil => exact absurd rfl nonempty
  | cons c rest ih =>
    cases rest with
    | nil =>
      rw [Digits.numeral, List.mapM_cons, List.mapM_nil]
      cases digits.decimal c <;> rfl
    | cons d more =>
      have plain' : ofChar '_' ∉ d :: more := fun mem => plain (List.mem_cons_of_mem _ mem)
      have step : (c :: d :: more).mapM digits.decimal =
          (digits.decimal c).bind fun first =>
            ((d :: more).mapM digits.decimal).bind fun others => some (first :: others) :=
        List.mapM_cons
      rw [Digits.numeral_cons (List.cons_ne_nil _ _) plain', ih (List.cons_ne_nil _ _) plain', step]
      cases digits.decimal c with
      | none => rfl
      | some first =>
        cases (d :: more).mapM digits.decimal <;> rfl

theorem Digits.isSome_mapM : (text.mapM digits.decimal).isSome = true ↔
    ∀ c ∈ text, (digits.decimal c).isSome = true := by
  induction text with
  | nil => simp
  | cons c rest ih =>
    rw [List.forall_mem_cons, ← ih, List.mapM_cons]
    cases digits.decimal c with
    | none => simp
    | some first =>
      cases rest.mapM digits.decimal <;> simp

theorem Digits.numeral_lt (h : digits.numeral text = some found) : ∀ digit ∈ found, digit < 10 := by
  fun_induction Digits.numeral digits text generalizing found with
  | case1 => cases h
  | case2 c =>
    obtain ⟨digit, hdigit, rfl⟩ := Option.map_eq_some_iff.mp h
    intro other mem
    rw [List.mem_singleton.mp mem]
    exact digits.decimal_lt c digit hdigit
  | case3 => cases h
  | case4 c d rest first hfirst ih ih' =>
    obtain ⟨more, hmore, rfl⟩ := Option.map_eq_some_iff.mp h
    intro digit mem
    rcases List.mem_cons.mp mem with rfl | mem
    · exact digits.decimal_lt c _ hfirst
    · split at hmore
      · exact ih hmore digit mem
      · exact ih' hmore digit mem

theorem Digits.numeral_length (h : digits.numeral text = some found) :
    found.length ≤ text.length := by
  fun_induction Digits.numeral digits text generalizing found with
  | case1 => cases h
  | case2 c =>
    obtain ⟨digit, _, rfl⟩ := Option.map_eq_some_iff.mp h
    rfl
  | case3 => cases h
  | case4 c d rest first _ ih ih' =>
    obtain ⟨more, hmore, rfl⟩ := Option.map_eq_some_iff.mp h
    split at hmore
    · have := ih hmore
      simp only [List.length_cons]
      omega
    · have := ih' hmore
      simp only [List.length_cons] at this ⊢
      omega

theorem isSpace_of_isIntSpace {c : CodePoint} (h : isIntSpace c = true) : isSpace c = true :=
  (Bool.and_eq_true_iff.mp h).1

theorem Digits.not_isIntSpace {c : CodePoint} (h : digits.isdigit c = true) :
    isIntSpace c = false := by
  cases space : isIntSpace c with
  | false => rfl
  | true =>
    rw [digits.isdigit_space c (isSpace_of_isIntSpace space)] at h
    cases h

theorem signed_of_digit (digits : Digits) {c : CodePoint} {rest : PyStr}
    (h : digits.isdigit c = true) :
    signed (c :: rest) = (1, c :: rest) := by
  have minus : c ≠ ofChar '-' := by
    rintro rfl
    rw [digits.isdigit_false (by decide) (by decide)] at h
    cases h
  have plus : c ≠ ofChar '+' := by
    rintro rfl
    rw [digits.isdigit_false (by decide) (by decide)] at h
    cases h
  rw [signed, if_neg minus, if_neg plus]

/-- What `\d+` takes passes `str.isdigit()`. -/
theorem Digits.isdigits_of_decimals (nonempty : text ≠ [])
    (all : ∀ c ∈ text, (digits.decimal c).isSome = true) : digits.isdigits text = true := by
  refine digits.isdigits_iff.mpr ⟨nonempty, fun c mem => ?_⟩
  obtain ⟨digit, hdigit⟩ := Option.isSome_iff_exists.mp (all c mem)
  exact digits.isdigit_decimal c digit hdigit

/-- What `int()` makes of a text of digits. -/
theorem Digits.int_of_isdigits (h : digits.isdigits text = true) :
    digits.int text = (text.mapM digits.decimal).bind fun found =>
      if found.length ≤ maxStrDigits then some (valueOf found : Int) else none := by
  obtain ⟨nonempty, all⟩ := digits.isdigits_iff.mp h
  have stripped : stripOf isIntSpace text = text :=
    stripOf_of_forall fun c mem => digits.not_isIntSpace (all c mem)
  have plain : ofChar '_' ∉ text := by
    intro mem
    have digit := all _ mem
    rw [digits.isdigit_false (by decide) (by decide)] at digit
    cases digit
  have unsigned : signed text = (1, text) := by
    cases text with
    | nil => exact absurd rfl nonempty
    | cons c rest => exact signed_of_digit digits (all c List.mem_cons_self)
  simp only [Digits.int, stripped, unsigned, digits.numeral_plain nonempty plain]
  cases text.mapM digits.decimal with
  | none => rfl
  | some found => simp

/-- What `int()` makes of a short text of decimal digits. -/
theorem Digits.int_of_mapM (nonempty : text ≠ []) (h : text.mapM digits.decimal = some found)
    (short : text.length ≤ maxStrDigits) : digits.int text = some (valueOf found : Int) := by
  have decimals := digits.isSome_mapM.mp (Option.isSome_iff_exists.mpr ⟨found, h⟩)
  have all := digits.isdigits_of_decimals nonempty decimals
  have plain : ofChar '_' ∉ text := by
    intro mem
    have digit := (digits.isdigits_iff.mp all).2 _ mem
    rw [digits.isdigit_false (by decide) (by decide)] at digit
    cases digit
  have length := digits.numeral_length ((digits.numeral_plain nonempty plain).trans h)
  rw [digits.int_of_isdigits all, h, Option.bind_some, if_pos (length.trans short)]

theorem length_signed (text : PyStr) : (signed text).2.length ≤ text.length := by
  rw [signed.eq_def]
  split
  · rfl
  · split
    · simp
    · split <;> simp

theorem natAbs_signed (text : PyStr) : (signed text).1.natAbs = 1 := by
  rw [signed.eq_def]
  split
  · rfl
  · split
    · rfl
    · split <;> rfl

/-- A short text is a small number. -/
theorem Digits.natAbs_int_lt (h : digits.int text = some value) :
    value.natAbs < 10 ^ text.length := by
  have shorter : (signed (stripOf isIntSpace text)).2.length ≤ text.length :=
    (length_signed _).trans stripOf_within.length_le
  have unit := natAbs_signed (stripOf isIntSpace text)
  simp only [Digits.int] at h
  split at h
  · cases h
  · next found hfound =>
    split at h
    · obtain rfl := Option.some.inj h
      have below := valueOf_lt (digits.numeral_lt hfound)
      have length := (digits.numeral_length hfound).trans shorter
      rw [Int.natAbs_mul, unit, Nat.one_mul]
      exact below.trans_le (Nat.pow_le_pow_right (by decide) length)
    · cases h

end Reading

def isArabicDigit (c : CodePoint) : Bool := 0x660 ≤ c.val && c.val ≤ 0x669

def sampleDecimal (c : CodePoint) : Option Nat :=
  if isDigit c then some (c.val - 0x30)
  else if isArabicDigit c then some (c.val - 0x660) else none

def sampleIsdigit (c : CodePoint) : Bool := isDigit c || isArabicDigit c

theorem sampleDecimal_lt (c : CodePoint) (digit : Nat) (h : sampleDecimal c = some digit) :
    digit < 10 := by
  rw [sampleDecimal] at h
  split at h
  · next ascii =>
    simp only [isDigit, Bool.and_eq_true, decide_eq_true_eq] at ascii
    have value := Option.some.inj h
    omega
  · split at h
    · next arabic =>
      simp only [isArabicDigit, Bool.and_eq_true, decide_eq_true_eq] at arabic
      have value := Option.some.inj h
      omega
    · cases h

theorem sampleIsdigit_decimal (c : CodePoint) (digit : Nat) (h : sampleDecimal c = some digit) :
    sampleIsdigit c = true := by
  rw [sampleDecimal] at h
  split at h
  · next ascii => rw [sampleIsdigit, ascii, Bool.true_or]
  · split at h
    · next arabic => rw [sampleIsdigit, arabic, Bool.or_true]
    · cases h

theorem sampleIsdigit_space (c : CodePoint) (h : isSpace c = true) : sampleIsdigit c = false := by
  simp only [isSpace, sampleIsdigit, isArabicDigit, isDigit, Bool.or_eq_true, Bool.and_eq_true,
    decide_eq_true_eq, Bool.or_eq_false_iff, Bool.and_eq_false_iff, decide_eq_false_iff_not] at h ⊢
  omega

theorem sampleDecimal_ascii (c : CodePoint) (h : isDigit c = true) :
    sampleDecimal c = some (c.val - 0x30) := if_pos h

theorem sampleIsdigit_ascii (c : CodePoint) (h : c.val < 128) : sampleIsdigit c = isDigit c := by
  have plain : isArabicDigit c = false := by
    simp only [isArabicDigit, Bool.and_eq_false_iff, decide_eq_false_iff_not]
    omega
  rw [sampleIsdigit, plain, Bool.or_false]

/-- The digits of ASCII and those of Arabic script from U+0660 on. -/
def sampleDigits : Digits where
  decimal := sampleDecimal
  isdigit := sampleIsdigit
  decimal_lt := sampleDecimal_lt
  isdigit_decimal := sampleIsdigit_decimal
  isdigit_space := sampleIsdigit_space
  decimal_ascii := sampleDecimal_ascii
  isdigit_ascii := sampleIsdigit_ascii

example : sampleDigits.int (py " -1_000 ") = some (-1000) := by decide

example : sampleDigits.int (py "1__0") = none := by decide

end Numerals
