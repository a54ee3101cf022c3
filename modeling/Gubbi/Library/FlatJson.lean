import Mathlib.Data.Nat.Digits.Defs

/-!
# Flat JSON objects

Objects whose values are strings, integers and `null`, as a writer that escapes everything
beyond ASCII puts them down, and as a reader of JSON gets them back. A string is a list of
UTF-16 code units: a writer that escapes a character beyond the basic plane writes its two
units, and the reader does not look whether units pair up.
-/

namespace FlatJson

abbrev Unit16 := Fin 0x10000

inductive Value
  | null
  | int (n : Int)
  | text (units : List Unit16)
  deriving DecidableEq

/-- Names and values, in the order of the text. -/
abbrev Members := List (List Unit16 × Value)

def hexChar (digit : Nat) : Char :=
  if digit < 10 then Char.ofNat (0x30 + digit) else Char.ofNat (0x57 + digit)

/-- `\uXXXX`. -/
def escapeHex (unit : Unit16) : List Char :=
  ['\\', 'u', hexChar (unit / 4096), hexChar (unit / 256 % 16), hexChar (unit / 16 % 16),
    hexChar (unit % 16)]

/-- The letter of a short escape. -/
def shortEscape (unit : Unit16) : Option Char :=
  match unit.val with
  | 0x22 => some '"'
  | 0x5c => some '\\'
  | 0x0a => some 'n'
  | 0x0d => some 'r'
  | 0x09 => some 't'
  | 0x0c => some 'f'
  | 0x08 => some 'b'
  | _ => none

def escape (unit : Unit16) : List Char :=
  match shortEscape unit with
  | some letter => ['\\', letter]
  | none => if 0x20 ≤ unit.val ∧ unit.val ≤ 0x7e then [Char.ofNat unit.val] else escapeHex unit

def dumpText (units : List Unit16) : List Char := '"' :: (units.flatMap escape ++ ['"'])

def digitChar (digit : Nat) : Char := Char.ofNat (0x30 + digit)

def decimal (n : Nat) : List Char :=
  if n = 0 then ['0'] else ((Nat.digits 10 n).reverse).map digitChar

def dumpInt : Int → List Char
  | .ofNat n => decimal n
  | .negSucc n => '-' :: decimal (n + 1)

def dumpValue : Value → List Char
  | .null => "null".toList
  | .int n => dumpInt n
  | .text units => dumpText units

def dumpMember (member : List Unit16 × Value) : List Char :=
  dumpText member.1 ++ ": ".toList ++ dumpValue member.2

/-- The members behind the first one. -/
def dumpMore (members : Members) : List Char :=
  members.flatMap (fun member => ", ".toList ++ dumpMember member)

def dumps : Members → List Char
  | [] => "{}".toList
  | first :: more => '{' :: (dumpMember first ++ dumpMore more ++ ['}'])

def isSpace (c : Char) : Bool := c = ' ' || c = '\n' || c = '\r' || c = '\t'

def skip (text : List Char) : List Char := text.dropWhile isSpace

def hexValue (c : Char) : Option Nat :=
  if '0' ≤ c ∧ c ≤ '9' then some (c.toNat - 0x30)
  else if 'a' ≤ c ∧ c ≤ 'f' then some (c.toNat - 0x57)
  else if 'A' ≤ c ∧ c ≤ 'F' then some (c.toNat - 0x37)
  else none

def hexUnit (a b c d : Char) : Option Unit16 := do
  let a ← hexValue a
  let b ← hexValue b
  let c ← hexValue c
  let d ← hexValue d
  pure (Fin.ofNat 0x10000 (4096 * a + 256 * b + 16 * c + d))

def unescape : Char → Option Unit16
  | '"' => some 0x22
  | '\\' => some 0x5c
  | '/' => some 0x2f
  | 'n' => some 0x0a
  | 'r' => some 0x0d
  | 't' => some 0x09
  | 'f' => some 0x0c
  | 'b' => some 0x08
  | _ => none

/-- The code units of a character. -/
def utf16 (n : Nat) : List Unit16 :=
  if n < 0x10000 then [Fin.ofNat 0x10000 n]
  else [Fin.ofNat 0x10000 (0xd800 + (n - 0x10000) / 0x400),
    Fin.ofNat 0x10000 (0xdc00 + (n - 0x10000) % 0x400)]

/-- Put a code unit in front of what the rest of a string reads as. -/
def prepend (units : Option (List Unit16)) (read : Option (List Unit16 × List Char)) :
    Option (List Unit16 × List Char) :=
  match units, read with
  | some units, some (more, after) => some (units ++ more, after)
  | _, _ => none

/-- A string behind its opening quote, with the text behind its closing one. -/
def readText : List Char → Option (List Unit16 × List Char)
  | [] => none
  | '"' :: rest => some ([], rest)
  | '\\' :: 'u' :: a :: b :: c :: d :: rest => prepend ((hexUnit a b c d).map ([·])) (readText rest)
  | '\\' :: letter :: rest => prepend ((unescape letter).map ([·])) (readText rest)
  | c :: rest =>
    if c.toNat < 0x20 then none else prepend (some (utf16 c.toNat)) (readText rest)

def isDigit (c : Char) : Bool := '0' ≤ c && c ≤ '9'

def digitsValue (digits : List Char) : Nat :=
  Nat.ofDigits 10 (digits.reverse.map (fun c => c.toNat - 0x30))

def readNat (text : List Char) : Option (Nat × List Char) :=
  let digits := text.takeWhile isDigit
  if digits = [] then none else some (digitsValue digits, text.drop digits.length)

def readValue (text : List Char) : Option (Value × List Char) :=
  match text with
  | '"' :: rest => (readText rest).map (fun read => (.text read.1, read.2))
  | 'n' :: 'u' :: 'l' :: 'l' :: rest => some (.null, rest)
  | '-' :: rest => (readNat rest).map (fun read => (.int (-read.1), read.2))
  | _ => (readNat text).map (fun read => (.int read.1, read.2))

/-- A member and the text behind it. -/
def readMember (text : List Char) : Option ((List Unit16 × Value) × List Char) :=
  match skip text with
  | '"' :: rest =>
    match readText rest with
    | none => none
    | some (name, rest) =>
      match skip rest with
      | ':' :: rest => (readValue (skip rest)).map (fun read => ((name, read.1), skip read.2))
      | _ => none
  | _ => none

/-- The members up to the closing brace. -/
def readMembers : Nat → List Char → Option (Members × List Char)
  | 0, _ => none
  | fuel + 1, text =>
    match readMember text with
    | none => none
    | some (member, rest) =>
      match rest with
      | ',' :: rest => (readMembers fuel rest).map (fun read => (member :: read.1, read.2))
      | '}' :: rest => some ([member], rest)
      | _ => none

def readObject (text : List Char) : Option (Members × List Char) :=
  match skip text with
  | '{' :: rest =>
    match skip rest with
    | '}' :: rest => some ([], rest)
    | _ => readMembers rest.length rest
  | _ => none

/-- The object that is the whole text. -/
def loads (text : List Char) : Option Members :=
  match readObject text with
  | some (members, rest) => if skip rest = [] then some members else none
  | none => none

theorem toNat_ofNat {n : Nat} (low : n < 0xd800) : (Char.ofNat n).toNat = n := by
  rw [Char.ofNat, dif_pos (Or.inl low)]
  rfl

def Printable (c : Char) : Prop := 0x20 ≤ c.toNat ∧ c.toNat ≤ 0x7e

def PrintableText (text : List Char) : Prop := ∀ c ∈ text, Printable c

instance (c : Char) : Decidable (Printable c) := inferInstanceAs (Decidable (_ ∧ _))

instance (text : List Char) : Decidable (PrintableText text) := List.decidableBAll _ text

theorem printableText_append {front text : List Char} (first : PrintableText front)
    (rest : PrintableText text) : PrintableText (front ++ text) :=
  fun c mem => (List.mem_append.mp mem).elim (first c) (rest c)

theorem printable_hexChar {digit : Nat} (small : digit < 16) : Printable (hexChar digit) := by
  revert digit
  decide

theorem shortEscape_spec {unit : Unit16} {letter : Char} (short : shortEscape unit = some letter) :
    unescape letter = some unit ∧ letter ≠ 'u' ∧ Printable letter := by
  have code : ∀ n, unit.val = n → unit = Fin.ofNat 0x10000 n := by
    rintro n rfl
    exact Fin.ext (Nat.mod_eq_of_lt unit.isLt).symm
  unfold shortEscape at short
  split at short
  all_goals first
    | next value =>
      cases short
      rw [code _ value]
      decide
    | cases short

theorem printable_escapeHex (unit : Unit16) : PrintableText (escapeHex unit) := by
  have digits : ∀ n, Printable (hexChar (n % 16)) :=
    fun n => printable_hexChar (Nat.mod_lt n (by decide))
  have high : unit.val / 4096 < 16 := by omega
  intro c mem
  simp only [escapeHex, List.mem_cons, List.not_mem_nil, or_false] at mem
  rcases mem with rfl | rfl | rfl | rfl | rfl | rfl
  · decide
  · decide
  · exact printable_hexChar high
  · exact digits _
  · exact digits _
  · exact digits _

theorem printable_escape (unit : Unit16) : PrintableText (escape unit) := by
  unfold escape
  split
  · next letter short =>
    have printable := (shortEscape_spec short).2.2
    intro c mem
    simp only [List.mem_cons, List.not_mem_nil, or_false] at mem
    rcases mem with rfl | rfl
    · decide
    · exact printable
  · split
    · next range =>
      intro c mem
      rw [List.mem_singleton.mp mem, Printable, toNat_ofNat (by omega)]
      exact range
    · exact printable_escapeHex unit

theorem printable_dumpText (units : List Unit16) : PrintableText (dumpText units) := by
  refine @printableText_append ['"'] _ (by decide) (printableText_append ?_ (by decide))
  intro c mem
  obtain ⟨unit, _, mem⟩ := List.mem_flatMap.mp mem
  exact printable_escape unit c mem

theorem digitChar_spec {digit : Nat} (small : digit < 10) :
    isDigit (digitChar digit) = true ∧ (digitChar digit).toNat - 0x30 = digit ∧
      Printable (digitChar digit) := by
  revert digit
  decide

theorem digitChars_spec (n : Nat) : ∀ c ∈ ((Nat.digits 10 n).reverse).map digitChar,
    isDigit c = true ∧ Printable c := by
  intro c mem
  obtain ⟨digit, found, rfl⟩ := List.mem_map.mp mem
  have small := Nat.digits_lt_base (by decide) (List.mem_reverse.mp found)
  exact ⟨(digitChar_spec small).1, (digitChar_spec small).2.2⟩

theorem printable_decimal (n : Nat) : PrintableText (decimal n) := by
  unfold decimal
  split
  · decide
  · exact fun c mem => (digitChars_spec n c mem).2

theorem printable_dumpValue (value : Value) : PrintableText (dumpValue value) := by
  cases value with
  | null => decide
  | text units => exact printable_dumpText units
  | int n =>
    cases n with
    | ofNat n => exact printable_decimal n
    | negSucc n => exact @printableText_append ['-'] _ (by decide) (printable_decimal (n + 1))

theorem printable_dumpMember (member : List Unit16 × Value) : PrintableText (dumpMember member) :=
  printableText_append (printableText_append (printable_dumpText member.1) (by decide))
    (printable_dumpValue member.2)

theorem printable_dumps (members : Members) : PrintableText (dumps members) := by
  cases members with
  | nil => decide
  | cons first more =>
    refine @printableText_append ['{'] _ (by decide) (printableText_append (printableText_append
      (printable_dumpMember first) ?_) (by decide))
    intro c mem
    obtain ⟨member, _, mem⟩ := List.mem_flatMap.mp mem
    exact printableText_append (by decide) (printable_dumpMember member) c mem

theorem hexValue_hexChar {digit : Nat} (small : digit < 16) :
    hexValue (hexChar digit) = some digit := by
  revert digit
  decide

theorem hexUnit_escape (unit : Unit16) :
    hexUnit (hexChar (unit / 4096)) (hexChar (unit / 256 % 16)) (hexChar (unit / 16 % 16))
      (hexChar (unit % 16)) = some unit := by
  have size := unit.isLt
  rw [hexUnit, hexValue_hexChar (by omega), hexValue_hexChar (Nat.mod_lt _ (by decide)),
    hexValue_hexChar (Nat.mod_lt _ (by decide)), hexValue_hexChar (Nat.mod_lt _ (by decide))]
  refine congrArg some (Fin.ext ?_)
  simp only [Fin.ofNat]
  omega

theorem readText_escape (unit : Unit16) (rest : List Char) :
    readText (escape unit ++ rest) = prepend (some [unit]) (readText rest) := by
  unfold escape
  split
  · next letter short =>
    obtain ⟨value, notHex, _⟩ := shortEscape_spec short
    simp [readText, notHex, value]
  · next long =>
    split
    · next range =>
      have code : (Char.ofNat unit.val).toNat = unit.val := toNat_ofNat (by omega)
      have plain : ∀ c : Char, shortEscape unit = none → unit.val = c.toNat →
          c ≠ '"' ∧ c ≠ '\\' := by
        rintro c none same
        constructor
        · rintro rfl
          rw [shortEscape, same] at none
          cases none
        · rintro rfl
          rw [shortEscape, same] at none
          cases none
      obtain ⟨notQuote, notBackslash⟩ := plain _ long code.symm
      have units : utf16 unit.val = [unit] := by
        rw [utf16, if_pos unit.isLt]
        exact congrArg ([·]) (Fin.ext (Nat.mod_eq_of_lt unit.isLt))
      rw [List.cons_append, readText, code, if_neg (by omega), units]
      · rfl
      · exact notQuote
      · exact fun a b c d more same _ => notBackslash same
      · exact fun letter more same _ => notBackslash same
    · simp [escapeHex, readText, hexUnit_escape]

theorem readText_dump (units : List Unit16) (rest : List Char) :
    readText (units.flatMap escape ++ '"' :: rest) = some (units, rest) := by
  induction units with
  | nil => simp [readText]
  | cons unit units ih =>
    rw [List.flatMap_cons, List.append_assoc, readText_escape, ih]
    rfl

/-- The text begins with no digit. -/
def NoDigit (text : List Char) : Prop := text.takeWhile isDigit = []

theorem readNat_digits {digits rest : List Char} (nonempty : digits ≠ [])
    (all : ∀ c ∈ digits, isDigit c = true) (stop : NoDigit rest) :
    readNat (digits ++ rest) = some (digitsValue digits, rest) := by
  have taken : (digits ++ rest).takeWhile isDigit = digits := by
    rw [List.takeWhile_append_of_pos all, stop, List.append_nil]
  simp only [readNat, taken, if_neg nonempty, List.drop_left]

theorem digitsValue_digits (n : Nat) :
    digitsValue (((Nat.digits 10 n).reverse).map digitChar) = n := by
  have back : ((Nat.digits 10 n).map digitChar).map (fun c => c.toNat - 0x30) =
      Nat.digits 10 n := by
    rw [List.map_map, List.map_congr_left, List.map_id]
    intro digit found
    exact (digitChar_spec (Nat.digits_lt_base (by decide) found)).2.1
  rw [digitsValue, ← List.map_reverse, List.reverse_reverse, back, Nat.ofDigits_digits]

theorem decimal_spec (n : Nat) : decimal n ≠ [] ∧ (∀ c ∈ decimal n, isDigit c = true) ∧
    digitsValue (decimal n) = n := by
  unfold decimal
  split
  · next zero =>
    rw [zero]
    refine ⟨List.cons_ne_nil _ _, fun c mem => ?_, rfl⟩
    rw [List.mem_singleton.mp mem]
    rfl
  · next positive =>
    have digits : ((Nat.digits 10 n).reverse).map digitChar ≠ [] := by
      simpa [Nat.digits_eq_nil_iff_eq_zero] using positive
    exact ⟨digits, fun c mem => (digitChars_spec n c mem).1, digitsValue_digits n⟩

theorem readNat_decimal (n : Nat) {rest : List Char} (stop : NoDigit rest) :
    readNat (decimal n ++ rest) = some (n, rest) := by
  obtain ⟨digits, all, value⟩ := decimal_spec n
  rw [readNat_digits digits all stop, value]

/-- A number is read where no other value begins. -/
theorem readValue_digit {c : Char} (digit : isDigit c = true) (rest : List Char) :
    readValue (c :: rest) = (readNat (c :: rest)).map (fun read => (.int read.1, read.2)) := by
  unfold readValue
  split
  · next same =>
    cases same
    cases digit
  · next same =>
    cases same
    cases digit
  · next same =>
    cases same
    cases digit
  · rfl

/-- The first character of a number. -/
theorem decimal_cons (n : Nat) : ∃ c more, decimal n = c :: more ∧ isDigit c = true := by
  obtain ⟨nonempty, all, _⟩ := decimal_spec n
  obtain ⟨c, more, text⟩ := List.exists_cons_of_ne_nil nonempty
  exact ⟨c, more, text, all c (by rw [text]; exact List.mem_cons_self)⟩

theorem readValue_dump (value : Value) {rest : List Char} (stop : NoDigit rest) :
    readValue (dumpValue value ++ rest) = some (value, rest) := by
  cases value with
  | null => rfl
  | text units =>
    have read := readText_dump units rest
    simp [dumpValue, dumpText, readValue, read]
  | int n =>
    cases n with
    | negSucc n =>
      show (readNat (decimal (n + 1) ++ rest)).map _ = _
      rw [readNat_decimal _ stop]
      rfl
    | ofNat n =>
      have read := readNat_decimal n stop
      obtain ⟨c, more, text, first⟩ := decimal_cons n
      show readValue (decimal n ++ rest) = _
      rw [text, List.cons_append] at read ⊢
      rw [readValue_digit first, read]
      rfl

/-- No space begins what is written. -/
theorem skip_cons {c : Char} (solid : isSpace c = false) (rest : List Char) :
    skip (c :: rest) = c :: rest := by
  rw [skip, List.dropWhile_cons, if_neg (by simp [solid])]

theorem skip_blank (rest : List Char) : skip (' ' :: rest) = skip rest := rfl

theorem isSpace_digit {c : Char} (digit : isDigit c = true) : isSpace c = false := by
  cases space : isSpace c with
  | false => rfl
  | true =>
    simp only [isSpace, Bool.or_eq_true, decide_eq_true_eq] at space
    rcases space with ((rfl | rfl) | rfl) | rfl
    all_goals cases digit

theorem skip_dumpValue (value : Value) (rest : List Char) :
    skip (dumpValue value ++ rest) = dumpValue value ++ rest := by
  cases value with
  | null => rfl
  | text units => exact skip_cons (by decide) _
  | int n =>
    cases n with
    | negSucc n => exact skip_cons (by decide) _
    | ofNat n =>
      obtain ⟨c, more, text, first⟩ := decimal_cons n
      show skip (decimal n ++ rest) = decimal n ++ rest
      rw [text]
      exact skip_cons (isSpace_digit first) _

theorem readMember_dump (member : List Unit16 × Value) {rest : List Char} (stop : NoDigit rest)
    (solid : skip rest = rest) :
    readMember (dumpMember member ++ rest) = some (member, rest) := by
  obtain ⟨name, value⟩ := member
  have text : dumpMember (name, value) ++ rest =
      '"' :: (name.flatMap escape ++ '"' :: ':' :: ' ' :: (dumpValue value ++ rest)) := by
    simp [dumpMember, dumpText]
  rw [text, readMember, skip_cons (by decide)]
  simp only [readText_dump]
  show (readValue (skip (' ' :: _))).map _ = _
  rw [skip_blank, skip_dumpValue, readValue_dump value stop]
  simp [solid]

theorem readMembers_blank (fuel : Nat) (rest : List Char) :
    readMembers fuel (' ' :: rest) = readMembers fuel rest := by
  cases fuel with
  | zero => rfl
  | succ fuel => rfl

/-- What stands behind a member is a comma and the next one, or the closing brace. -/
theorem readMembers_dump (member : List Unit16 × Value) (more : Members) (rest : List Char)
    {fuel : Nat} (enough : more.length < fuel) :
    readMembers fuel (dumpMember member ++ (dumpMore more ++ '}' :: rest)) =
      some (member :: more, rest) := by
  induction more generalizing member fuel with
  | nil =>
    obtain _ | fuel := fuel
    · cases enough
    · have read : readMember (dumpMember member ++ '}' :: rest) = some (member, '}' :: rest) :=
        readMember_dump member rfl (skip_cons (by decide) rest)
      show readMembers (fuel + 1) (dumpMember member ++ '}' :: rest) = _
      rw [readMembers, read]
      rfl
  | cons next more ih =>
    obtain _ | fuel := fuel
    · cases enough
    · let behind := ' ' :: (dumpMember next ++ (dumpMore more ++ '}' :: rest))
      have text : dumpMore (next :: more) ++ '}' :: rest = ',' :: behind := by
        simp [behind, dumpMore]
      have read : readMember (dumpMember member ++ ',' :: behind) = some (member, ',' :: behind) :=
        readMember_dump member rfl (skip_cons (by decide) behind)
      have later : readMembers fuel behind = some (next :: more, rest) := by
        rw [← ih next (Nat.lt_of_succ_lt_succ enough)]
        exact readMembers_blank fuel _
      rw [text, readMembers, read]
      show (readMembers fuel behind).map _ = _
      rw [later]
      rfl

theorem length_dumpMore (more : Members) : more.length ≤ (dumpMore more).length := by
  induction more with
  | nil => exact Nat.zero_le _
  | cons next more ih =>
    have text : dumpMore (next :: more) = ", ".toList ++ dumpMember next ++ dumpMore more := rfl
    rw [text, List.length_append, List.length_append, List.length_cons]
    have comma : (", ".toList).length = 2 := rfl
    omega

theorem readObject_dumps (members : Members) (rest : List Char) :
    readObject (dumps members ++ rest) = some (members, rest) := by
  cases members with
  | nil => rfl
  | cons first more =>
    have text : dumps (first :: more) ++ rest =
        '{' :: (dumpMember first ++ (dumpMore more ++ '}' :: rest)) := by
      simp [dumps]
    have quote : ∃ behind, dumpMember first ++ (dumpMore more ++ '}' :: rest) = '"' :: behind :=
      ⟨_, rfl⟩
    obtain ⟨behind, opening⟩ := quote
    have enough : more.length < ('"' :: behind).length := by
      have room := length_dumpMore more
      rw [← opening]
      simp only [List.length_append, List.length_cons]
      omega
    have read := readMembers_dump first more rest enough
    rw [opening] at read
    rw [text, readObject, skip_cons (by decide), opening]
    simp only [skip_cons (c := '"') (by decide)]
    exact read

/-- What is written is read back. -/
theorem loads_dumps (members : Members) : loads (dumps members) = some members := by
  have read := readObject_dumps members []
  rw [List.append_nil] at read
  rw [loads, read]
  rfl

end FlatJson
