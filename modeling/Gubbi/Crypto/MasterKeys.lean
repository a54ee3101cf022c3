import Mathlib.Data.List.TakeWhile
import Gubbi.Crypto.KeyMaps
import Gubbi.Library.Fallible
import Gubbi.Numerals

/-!
# Master keys from the environment

A variable whose name matches the pattern gives one key, under the number that its
name ends with. The names of two variables may spell one number: the digits of a name are
those of any script, zeros of other scripts may lead them, and a line feed may end the name.
Such names apart, a loaded map and the variables correspond one to one.
-/

namespace MasterKeys

open Text Validation Numerals Cipher

/-- The six bits of a code point of the alphabet. -/
def sextet (c : CodePoint) : Option Nat :=
  if isUpper c then some (c.val - 0x41)
  else if isLower c then some (c.val - 0x61 + 26)
  else if isDigit c then some (c.val - 0x30 + 52)
  else if c = ofChar '+' then some 62
  else if c = ofChar '/' then some 63
  else none

/-- `base64.b64decode(value, validate=True)`; `none` is a `ValueError`, `binascii.Error` included.
Padding closes the text, and nothing of another alphabet may stand in it. -/
def b64decode : PyStr → Option Bytes
  | [] => some []
  | a :: b :: c :: d :: rest => do
    let w ← sextet a
    let x ← sextet b
    if c = ofChar '=' ∧ d = ofChar '=' ∧ rest = [] then
      some [UInt8.ofNat (w * 4 + x / 16)]
    else
      let y ← sextet c
      if d = ofChar '=' ∧ rest = [] then
        some [UInt8.ofNat (w * 4 + x / 16), UInt8.ofNat (x % 16 * 16 + y / 4)]
      else
        let z ← sextet d
        let more ← b64decode rest
        some (UInt8.ofNat (w * 4 + x / 16) :: UInt8.ofNat (x % 16 * 16 + y / 4) ::
          UInt8.ofNat (y % 4 * 64 + z) :: more)
  | _ => none

structure ValueError where
  message : PyStr
  deriving DecidableEq, Repr

def KEY_ENV_START : PyStr := py "JOURNAL_ENCRYPTION_MASTER_KEY_V"

/-- `_KEY_ENV_PATTERN.match(name)`, its group. Python's `$` also stands before a line feed that
ends the text. -/
def keyEnvVersion (digits : Digits) (name : PyStr) : Option PyStr :=
  if KEY_ENV_START.isPrefixOf name then
    let rest := name.drop KEY_ENV_START.length
    let raw := rest.takeWhile (fun c => (digits.decimal c).isSome)
    let tail := rest.drop raw.length
    if raw ≠ [] ∧ (tail = [] ∨ tail = [ofChar '\n']) then some raw else none
  else none

def leadingZeros (raw : PyStr) : Bool := decide (1 < raw.length ∧ raw.head? = some (ofChar '0'))

/-- What the loop makes of a variable that matches: its version and its key. -/
def readKey (digits : Digits) (name raw value : PyStr) : Except ValueError (Nat × Bytes) :=
  if leadingZeros raw then .error ⟨name ++ py ": version must not have leading zeros"⟩
  else
    match digits.int raw with
    | none => .error ⟨py "Exceeds the limit (4300 digits) for integer string conversion: " ++
        py s!"value has {raw.length} digits; " ++
        py "use sys.set_int_max_str_digits() to increase the limit"⟩
    | some version =>
      if version < 1 ∨ 255 < version then
        .error ⟨name ++ py s!": version {version} out of range [1, 255]"⟩
      else
        match b64decode value with
        | none => .error ⟨name ++ py ": invalid base64"⟩
        | some key =>
          if key.length ≠ KEY_LEN then
            .error ⟨name ++ py s!": decoded key must be 32 bytes, got {key.length}"⟩
          else .ok (version.toNat, key)

/-- One turn of the loop. -/
def loadVariable (digits : Digits) (keys : Table Nat Bytes) (name value : PyStr) :
    Except ValueError (Table Nat Bytes) :=
  match keyEnvVersion digits name with
  | none => .ok keys
  | some raw =>
    match readKey digits name raw value with
    | .error e => .error e
    | .ok (version, key) => .ok (keys.put version key)

def loadMasterKeysFromEnv (digits : Digits) (env : Table PyStr PyStr) :
    Except ValueError (Table Nat Bytes) :=
  env.rows.foldlM (fun keys row => loadVariable digits keys row.1 row.2) Table.empty

section Pattern
variable {digits : Digits} {name raw value : PyStr}

/-- The number that the digits of a name spell. -/
def number (digits : Digits) (raw : PyStr) : Nat := valueOf (raw.filterMap digits.decimal)

/-- The digits of a name by their values, without the zeros at their front. -/
def spelling (digits : Digits) (raw : PyStr) : List Nat :=
  significant (raw.filterMap digits.decimal)

theorem lineFeed_none (digits : Digits) : digits.decimal (ofChar '\n') = none :=
  digits.decimal_none (digits.isdigit_space _ (by decide))

theorem keyEnvVersion_eq_some : keyEnvVersion digits name = some raw ↔
    ∃ tail, name = KEY_ENV_START ++ (raw ++ tail) ∧ raw ≠ [] ∧
      (∀ c ∈ raw, (digits.decimal c).isSome = true) ∧ (tail = [] ∨ tail = [ofChar '\n']) := by
  constructor
  · intro h
    rw [keyEnvVersion] at h
    split at h
    · next start =>
      obtain ⟨rest, rfl⟩ := List.isPrefixOf_iff_prefix.mp start
      simp only [List.drop_left] at h
      split at h
      · next matched =>
        obtain rfl := Option.some.inj h
        refine ⟨_, ?_, matched.1, fun c mem => ?_, matched.2⟩
        · exact congrArg _ (List.prefix_iff_eq_append.mp (List.takeWhile_prefix _)).symm
        · exact List.mem_takeWhile_imp (p := fun c => (digits.decimal c).isSome) mem
      · cases h
    · cases h
  · rintro ⟨tail, rfl, nonempty, all, closing⟩
    have start : KEY_ENV_START.isPrefixOf (KEY_ENV_START ++ (raw ++ tail)) = true :=
      List.isPrefixOf_iff_prefix.mpr (List.prefix_append _ _)
    have stops : tail.takeWhile (fun c => (digits.decimal c).isSome) = [] := by
      rcases closing with rfl | rfl
      · rfl
      · rw [List.takeWhile_cons_of_neg (by rw [lineFeed_none]; decide)]
    have taken : (raw ++ tail).takeWhile (fun c => (digits.decimal c).isSome) = raw := by
      rw [List.takeWhile_append_of_pos all, stops, List.append_nil]
    rw [keyEnvVersion, if_pos start]
    simp only [List.drop_left, taken]
    exact if_pos ⟨nonempty, closing⟩

theorem mapM_decimal (all : ∀ c ∈ raw, (digits.decimal c).isSome = true) :
    raw.mapM digits.decimal = some (raw.filterMap digits.decimal) := by
  induction raw with
  | nil => rfl
  | cons c rest ih =>
    obtain ⟨first, others⟩ := List.forall_mem_cons.mp all
    obtain ⟨digit, hdigit⟩ := Option.isSome_iff_exists.mp first
    rw [List.mapM_cons, hdigit, ih others, List.filterMap_cons_some hdigit]
    rfl

theorem small_decimals (digits : Digits) (raw : PyStr) :
    ∀ digit ∈ raw.filterMap digits.decimal, digit < 10 := by
  intro digit mem
  obtain ⟨c, _, hc⟩ := List.mem_filterMap.mp mem
  exact digits.decimal_lt c digit hc

/-- `int()` of the digits of a name. -/
theorem int_raw (matched : keyEnvVersion digits name = some raw) :
    digits.int raw =
      if raw.length ≤ maxStrDigits then some (number digits raw : Int) else none := by
  obtain ⟨_, _, nonempty, all, _⟩ := keyEnvVersion_eq_some.mp matched
  have length : (raw.filterMap digits.decimal).length = raw.length :=
    List.filterMap_length_eq_length.mpr all
  rw [digits.int_of_isdigits (digits.isdigits_of_decimals nonempty all), mapM_decimal all,
    Option.bind_some, length, number]

theorem number_eq_iff {other : PyStr} :
    number digits raw = number digits other ↔ spelling digits raw = spelling digits other :=
  valueOf_eq_iff (small_decimals digits raw) (small_decimals digits other)

end Pattern

section Variable
variable {digits : Digits} {name raw value : PyStr} {version : Nat} {key : Bytes}

/-- A variable that matches and does not pass the checks. -/
def Faulty (digits : Digits) (name value : PyStr) : Prop :=
  ∃ raw, keyEnvVersion digits name = some raw ∧
    (leadingZeros raw = true ∨ maxStrDigits < raw.length ∨
      ¬ (1 ≤ number digits raw ∧ number digits raw ≤ 255) ∨
      ∀ key, b64decode value = some key → key.length ≠ KEY_LEN)

/-- The row that a variable which matches and passes the checks stands for. -/
def Gives (digits : Digits) (name value : PyStr) (version : Nat) (key : Bytes) : Prop :=
  ∃ raw, keyEnvVersion digits name = some raw ∧ leadingZeros raw = false ∧
    raw.length ≤ maxStrDigits ∧ version = number digits raw ∧ (1 ≤ version ∧ version ≤ 255) ∧
    b64decode value = some key ∧ key.length = KEY_LEN

theorem readKey_eq_ok (matched : keyEnvVersion digits name = some raw) :
    readKey digits name raw value = .ok (version, key) ↔ Gives digits name value version key := by
  have same : ∀ other, keyEnvVersion digits name = some other → raw = other := by
    intro other hother
    exact Option.some.inj (matched.symm.trans hother)
  have int := int_raw matched
  constructor
  · intro h
    rw [readKey] at h
    split at h
    · cases h
    · next plain =>
      rw [int] at h
      by_cases short : raw.length ≤ maxStrDigits
      · simp only [if_pos short] at h
        split at h
        · cases h
        · next inside =>
          split at h
          · cases h
          · next decoded hdecoded =>
            split at h
            · cases h
            · next length =>
              obtain ⟨hversion, rfl⟩ := Prod.mk.inj (Except.ok.inj h)
              rw [Int.toNat_natCast] at hversion
              exact ⟨raw, matched, Bool.eq_false_iff.mpr plain, short, hversion.symm, by omega,
                hdecoded, not_not.mp length⟩
      · simp only [if_neg short] at h
        cases h
  · rintro ⟨other, hother, plain, short, rfl, range, decoded, length⟩
    obtain rfl := same other hother
    have inside : ¬ ((number digits raw : Int) < 1 ∨ 255 < (number digits raw : Int)) := by omega
    rw [readKey, if_neg (Bool.eq_false_iff.mp plain), int, if_pos short]
    simp only [if_neg inside, decoded, if_neg (not_not.mpr length), Int.toNat_natCast]

/-- A variable is passed over, stops the loader, or gives one row. -/
theorem variable_cases (digits : Digits) (name value : PyStr) :
    keyEnvVersion digits name = none ∨ Faulty digits name value ∨
      ∃ version key, Gives digits name value version key := by
  cases matched : keyEnvVersion digits name with
  | none => exact Or.inl rfl
  | some raw =>
    by_cases faulty : Faulty digits name value
    · exact Or.inr (Or.inl faulty)
    · simp only [Faulty, not_exists, not_and, not_or, not_forall, not_not] at faulty
      obtain ⟨plain, short, ⟨above, below⟩, key, decoded, length⟩ := faulty raw matched
      exact Or.inr (Or.inr ⟨number digits raw, key, raw, matched, Bool.eq_false_iff.mpr plain,
        not_lt.mp short, rfl, ⟨above, below⟩, decoded, length⟩)

theorem not_faulty (gives : Gives digits name value version key) :
    ¬ Faulty digits name value := by
  obtain ⟨raw, matched, plain, short, rfl, range, decoded, length⟩ := gives
  rintro ⟨other, hother, fault⟩
  obtain rfl : raw = other := Option.some.inj (matched.symm.trans hother)
  rcases fault with zeros | long | outside | bad
  · rw [plain] at zeros
    cases zeros
  · omega
  · exact outside range
  · exact bad key decoded length

theorem gives_unique {version' : Nat} {key' : Bytes} (gives : Gives digits name value version key)
    (gives' : Gives digits name value version' key') : version = version' ∧ key = key' := by
  obtain ⟨raw, matched, _, _, rfl, _, decoded, _⟩ := gives
  obtain ⟨other, hother, _, _, rfl, _, decoded', _⟩ := gives'
  obtain rfl : raw = other := Option.some.inj (matched.symm.trans hother)
  exact ⟨rfl, Option.some.inj (decoded.symm.trans decoded')⟩

end Variable

section Loop
variable {digits : Digits} {keys loaded : Table Nat Bytes} {name value : PyStr}
  {rows : List (PyStr × PyStr)} {pairs : List (Nat × Bytes)}

theorem loadVariable_eq_ok : loadVariable digits keys name value = .ok loaded ↔
    (keyEnvVersion digits name = none ∧ loaded = keys) ∨
      ∃ version key, Gives digits name value version key ∧ loaded = keys.put version key := by
  rw [loadVariable]
  constructor
  · intro h
    split at h
    · next unmatched => exact Or.inl ⟨unmatched, (Except.ok.inj h).symm⟩
    · next raw matched =>
      split at h
      · cases h
      · next version key read =>
        exact Or.inr ⟨version, key, (readKey_eq_ok matched).mp read, (Except.ok.inj h).symm⟩
  · rintro (⟨unmatched, rfl⟩ | ⟨version, key, gives, rfl⟩)
    · rw [unmatched]
    · obtain ⟨raw, matched, _⟩ := id gives
      simp only [matched, (readKey_eq_ok matched).mpr gives]

/-- The rows that the variables of a list give, in their order. -/
inductive Loaded (digits : Digits) : List (PyStr × PyStr) → List (Nat × Bytes) → Prop
  | nil : Loaded digits [] []
  | skip {name value : PyStr} {rows : List (PyStr × PyStr)} {pairs : List (Nat × Bytes)} :
      keyEnvVersion digits name = none → Loaded digits rows pairs →
        Loaded digits ((name, value) :: rows) pairs
  | give {name value : PyStr} {version : Nat} {key : Bytes} {rows : List (PyStr × PyStr)}
      {pairs : List (Nat × Bytes)} :
      Gives digits name value version key → Loaded digits rows pairs →
        Loaded digits ((name, value) :: rows) ((version, key) :: pairs)

/-- The loop succeeds when every variable that matches gives a row, and writes these rows. -/
theorem foldlM_eq_ok :
    rows.foldlM (fun keys row => loadVariable digits keys row.1 row.2) keys = .ok loaded ↔
      ∃ pairs, Loaded digits rows pairs ∧ loaded = keys.putAll pairs := by
  induction rows generalizing keys with
  | nil =>
    constructor
    · intro h
      exact ⟨[], .nil, (Except.ok.inj h).symm⟩
    · rintro ⟨pairs, ⟨⟩, rfl⟩
      rfl
  | cons row rest ih =>
    obtain ⟨name, value⟩ := row
    simp only [List.foldlM_cons, Fallible.bind_eq_ok, ih, loadVariable_eq_ok]
    constructor
    · rintro ⟨next, ⟨unmatched, rfl⟩ | ⟨version, key, gives, rfl⟩, pairs, others, rfl⟩
      · exact ⟨pairs, .skip unmatched others, rfl⟩
      · exact ⟨(version, key) :: pairs, .give gives others, rfl⟩
    · rintro ⟨pairs, loadedRows, rfl⟩
      cases loadedRows with
      | skip unmatched others => exact ⟨keys, Or.inl ⟨unmatched, rfl⟩, pairs, others, rfl⟩
      | give gives others => exact ⟨_, Or.inr ⟨_, _, gives, rfl⟩, _, others, rfl⟩

theorem exists_loaded :
    (∃ pairs, Loaded digits rows pairs) ↔ ∀ row ∈ rows, ¬ Faulty digits row.1 row.2 := by
  induction rows with
  | nil => exact iff_of_true ⟨[], .nil⟩ (fun row mem => absurd mem List.not_mem_nil)
  | cons row rest ih =>
    obtain ⟨name, value⟩ := row
    rw [List.forall_mem_cons, ← ih]
    constructor
    · rintro ⟨pairs, loadedRows⟩
      cases loadedRows with
      | skip unmatched others =>
        refine ⟨?_, _, others⟩
        rintro ⟨raw, matched, _⟩
        rw [unmatched] at matched
        cases matched
      | give gives others => exact ⟨not_faulty gives, _, others⟩
    · rintro ⟨sound, pairs, others⟩
      rcases variable_cases digits name value with unmatched | faulty | ⟨version, key, gives⟩
      · exact ⟨pairs, .skip unmatched others⟩
      · exact absurd faulty sound
      · exact ⟨(version, key) :: pairs, .give gives others⟩

theorem mem_loaded (loadedRows : Loaded digits rows pairs) {version : Nat} {key : Bytes} :
    (version, key) ∈ pairs ↔ ∃ row ∈ rows, Gives digits row.1 row.2 version key := by
  induction loadedRows with
  | nil => simp
  | @skip name value _ _ unmatched others ih =>
    have silent : ¬ Gives digits name value version key := by
      rintro ⟨raw, matched, _⟩
      rw [unmatched] at matched
      cases matched
    simp [ih, silent]
  | give gives others ih =>
    rw [List.mem_cons, ih, List.exists_mem_cons_iff]
    refine or_congr_left ?_
    constructor
    · intro same
      obtain ⟨rfl, rfl⟩ := Prod.mk.inj same
      exact gives
    · intro given
      obtain ⟨rfl, rfl⟩ := gives_unique given gives
      rfl

/-- Variables that give different versions are written to different rows. -/
theorem nodup_loaded (loadedRows : Loaded digits rows pairs) (names : (rows.map Prod.fst).Nodup)
    (apart : ∀ row ∈ rows, ∀ other ∈ rows, ∀ version key key',
      Gives digits row.1 row.2 version key → Gives digits other.1 other.2 version key' →
        row.1 = other.1) : (pairs.map Prod.fst).Nodup := by
  induction loadedRows with
  | nil => exact List.nodup_nil
  | skip _ _ ih =>
    refine ih (List.nodup_cons.mp names).2 ?_
    intro row mem other mem'
    exact apart row (List.mem_cons_of_mem _ mem) other (List.mem_cons_of_mem _ mem')
  | give gives others ih =>
    obtain ⟨fresh, names'⟩ := List.nodup_cons.mp names
    refine List.nodup_cons.mpr ⟨?_, ih names' ?_⟩
    · intro mem
      obtain ⟨⟨version, key⟩, pair, rfl⟩ := List.mem_map.mp mem
      obtain ⟨other, mem', gives'⟩ := (mem_loaded others).mp pair
      refine fresh (List.mem_map.mpr ⟨other, mem', ?_⟩)
      exact apart other (List.mem_cons_of_mem _ mem') _ List.mem_cons_self _ _ _ gives' gives
    · intro row mem other mem'
      exact apart row (List.mem_cons_of_mem _ mem) other (List.mem_cons_of_mem _ mem')

theorem loadMasterKeysFromEnv_eq_ok {env : Table PyStr PyStr} :
    loadMasterKeysFromEnv digits env = .ok loaded ↔
      ∃ pairs, Loaded digits env.rows pairs ∧ loaded = Table.empty.putAll pairs :=
  foldlM_eq_ok

end Loop

section Correspondence
variable {digits : Digits} {env : Table PyStr PyStr} {keys : Table Nat Bytes}

/-- The rows of a loaded map are one to one with the variables that match. -/
structure OneToOne (digits : Digits) (env : Table PyStr PyStr) (keys : Table Nat Bytes) :
    Prop where
  row_of_variable : ∀ name value raw, env.get name = some value →
    keyEnvVersion digits name = some raw →
      ∃ (version : Nat) (key : Bytes), digits.int raw = some (version : Int) ∧
        b64decode value = some key ∧ keys.get version = some key
  variable_of_row : ∀ version key, keys.get version = some key →
    ∃ name value raw, env.get name = some value ∧ keyEnvVersion digits name = some raw ∧
      digits.int raw = some (version : Int) ∧ b64decode value = some key
  apart : ∀ name ∈ env.keys, ∀ other ∈ env.keys, ∀ raw raw' version,
    keyEnvVersion digits name = some raw → keyEnvVersion digits other = some raw' →
      digits.int raw = some version → digits.int raw' = some version → name = other
  checked : ∀ version key, keys.get version = some key →
    (1 ≤ version ∧ version ≤ 255) ∧ key.length = KEY_LEN

/-- The loader either refuses the environment or does not alias. -/
def NeverAliases (digits : Digits) (env : Table PyStr PyStr) : Prop :=
  (∃ e, loadMasterKeysFromEnv digits env = .error e) ∨
    ∃ keys, loadMasterKeysFromEnv digits env = .ok keys ∧ OneToOne digits env keys

/-- No two names that match have the same digits, zeros at their fronts and a line feed at the end
of the name apart. -/
def NamesApart (digits : Digits) (env : Table PyStr PyStr) : Prop :=
  ∀ name ∈ env.keys, ∀ other ∈ env.keys, ∀ raw raw',
    keyEnvVersion digits name = some raw → keyEnvVersion digits other = some raw' →
      spelling digits raw = spelling digits raw' → name = other

theorem int_of_gives {name value : PyStr} {version : Nat} {key : Bytes}
    (gives : Gives digits name value version key) :
    ∃ raw, keyEnvVersion digits name = some raw ∧ digits.int raw = some (version : Int) ∧
      b64decode value = some key := by
  obtain ⟨raw, matched, _, short, rfl, _, decoded, _⟩ := gives
  exact ⟨raw, matched, by rw [int_raw matched, if_pos short], decoded⟩

theorem mem_env_keys {row : PyStr × PyStr} (mem : row ∈ env.rows) : row.1 ∈ env.keys :=
  List.mem_map.mpr ⟨row, mem, rfl⟩

/-- Every row of a loaded map comes from a variable. -/
theorem gives_of_row {pairs : List (Nat × Bytes)} (loadedRows : Loaded digits env.rows pairs)
    {version : Nat} {key : Bytes} (known : (Table.empty.putAll pairs).get version = some key) :
    ∃ row ∈ env.rows, Gives digits row.1 row.2 version key := by
  rcases Table.get_putAll known with old | mem
  · rw [Table.get_empty] at old
    cases old
  · exact (mem_loaded loadedRows).mp mem

theorem nodup_of_namesApart {pairs : List (Nat × Bytes)} (loadedRows : Loaded digits env.rows pairs)
    (apart : NamesApart digits env) : (pairs.map Prod.fst).Nodup := by
  refine nodup_loaded loadedRows env.unique ?_
  rintro row mem other mem' version key key' ⟨raw, matched, _, _, rfl, _⟩
    ⟨raw', matched', _, _, same, _⟩
  exact apart row.1 (mem_env_keys mem) other.1 (mem_env_keys mem') raw raw' matched matched'
    (number_eq_iff.mp same)

theorem oneToOne_of_namesApart {pairs : List (Nat × Bytes)}
    (loadedRows : Loaded digits env.rows pairs) (apart : NamesApart digits env) :
    OneToOne digits env (Table.empty.putAll pairs) := by
  have sound := exists_loaded.mp ⟨pairs, loadedRows⟩
  refine ⟨?_, ?_, ?_, ?_⟩
  · intro name value raw present matched
    have mem := Table.get_eq_some_iff.mp present
    rcases variable_cases digits name value with unmatched | faulty | ⟨version, key, gives⟩
    · rw [unmatched] at matched
      cases matched
    · exact absurd faulty (sound (name, value) mem)
    · obtain ⟨other, hother, int, decoded⟩ := int_of_gives gives
      obtain rfl : raw = other := Option.some.inj (matched.symm.trans hother)
      have pair : (version, key) ∈ pairs := (mem_loaded loadedRows).mpr ⟨_, mem, gives⟩
      exact ⟨version, key, int, decoded,
        Table.get_putAll_of_mem (nodup_of_namesApart loadedRows apart) pair⟩
  · intro version key known
    obtain ⟨row, mem, gives⟩ := gives_of_row loadedRows known
    obtain ⟨raw, matched, int, decoded⟩ := int_of_gives gives
    exact ⟨row.1, row.2, raw, Table.get_eq_some_iff.mpr mem, matched, int, decoded⟩
  · intro name mem other mem' raw raw' version matched matched' int int'
    refine apart name mem other mem' raw raw' matched matched' (number_eq_iff.mp ?_)
    rw [int_raw matched] at int
    rw [int_raw matched'] at int'
    split at int
    · split at int'
      · have same := (Option.some.inj int).trans (Option.some.inj int').symm
        exact Int.ofNat.inj same
      · cases int'
    · cases int
  · intro version key known
    obtain ⟨row, mem, raw, _, _, _, _, range, _, length⟩ := gives_of_row loadedRows known
    exact ⟨range, length⟩

/-- Where every variable passes its checks, a one-to-one map needs names that are apart. -/
theorem namesApart_of_oneToOne (sound : ∀ row ∈ env.rows, ¬ Faulty digits row.1 row.2)
    (matching : OneToOne digits env keys) : NamesApart digits env := by
  intro name mem other mem' raw raw' matched matched' same
  have int : ∀ name ∈ env.keys, ∀ raw, keyEnvVersion digits name = some raw →
      digits.int raw = some (number digits raw : Int) := by
    intro name mem raw matched
    obtain ⟨row, hrow, rfl⟩ := List.mem_map.mp mem
    rcases variable_cases digits row.1 row.2 with unmatched | faulty | ⟨version, key, gives⟩
    · rw [unmatched] at matched
      cases matched
    · exact absurd faulty (sound row hrow)
    · obtain ⟨found, hfound, _, short, _⟩ := gives
      obtain rfl : raw = found := Option.some.inj (matched.symm.trans hfound)
      rw [int_raw matched, if_pos short]
  have number_same := number_eq_iff.mpr same
  refine matching.apart name mem other mem' raw raw' _ matched matched'
    (int name mem raw matched) ?_
  rw [int other mem' raw' matched', number_same]

/-- The loader aliases exactly when all variables pass their checks and two names that match spell
one number. -/
theorem neverAliases_iff (digits : Digits) (env : Table PyStr PyStr) :
    NeverAliases digits env ↔
      (∃ name value, env.get name = some value ∧ Faulty digits name value) ∨
        NamesApart digits env := by
  constructor
  · intro safe
    by_cases sound : ∀ row ∈ env.rows, ¬ Faulty digits row.1 row.2
    · rcases safe with ⟨e, failed⟩ | ⟨keys, _, matching⟩
      · obtain ⟨pairs, loadedRows⟩ := exists_loaded.mpr sound
        rw [loadMasterKeysFromEnv_eq_ok.mpr ⟨pairs, loadedRows, rfl⟩] at failed
        cases failed
      · exact Or.inr (namesApart_of_oneToOne sound matching)
    · obtain ⟨row, mem, faulty⟩ := by simpa only [not_forall, not_not] using sound
      exact Or.inl ⟨row.1, row.2, Table.get_eq_some_iff.mpr mem, faulty⟩
  · intro condition
    cases result : loadMasterKeysFromEnv digits env with
    | error e => exact Or.inl ⟨e, result⟩
    | ok keys =>
      obtain ⟨pairs, loadedRows, rfl⟩ := loadMasterKeysFromEnv_eq_ok.mp result
      refine Or.inr ⟨_, result, ?_⟩
      rcases condition with ⟨name, value, present, faulty⟩ | apart
      · have sound := exists_loaded.mp ⟨pairs, loadedRows⟩
        exact absurd faulty (sound (name, value) (Table.get_eq_some_iff.mp present))
      · exact oneToOne_of_namesApart loadedRows apart

theorem checked_of_loaded (result : loadMasterKeysFromEnv digits env = .ok keys) :
    ∀ version key, keys.get version = some key →
      (1 ≤ version ∧ version ≤ 255) ∧ key.length = KEY_LEN := by
  obtain ⟨pairs, loadedRows, rfl⟩ := loadMasterKeysFromEnv_eq_ok.mp result
  intro version key known
  obtain ⟨row, mem, raw, _, _, _, _, range, _, length⟩ := gives_of_row loadedRows known
  exact ⟨range, length⟩

/-- Whatever the names, the constructor accepts a loaded map that is not empty. -/
theorem ofMasterKeys_of_loaded (result : loadMasterKeysFromEnv digits env = .ok keys)
    (nonempty : keys.rows ≠ []) {masterKeys : Table KeyMaps.KeyVersion KeyMaps.KeyMaterial}
    (items : masterKeys.rows = keys.rows.map KeyMaps.toItem) :
    ∃ cipher, KeyMaps.ofMasterKeys masterKeys = .ok cipher ∧ cipher.keys = keys :=
  ⟨⟨keys, nonempty, checked_of_loaded result⟩, KeyMaps.ofMasterKeys_eq_ok.mpr items, rfl⟩

theorem filterMap_ascii {raw : PyStr} (all : ∀ c ∈ raw, isDigit c = true) :
    raw.filterMap digits.decimal = raw.map (fun c => c.val - 0x30) := by
  induction raw with
  | nil => rfl
  | cons c rest ih =>
    obtain ⟨first, others⟩ := List.forall_mem_cons.mp all
    rw [List.filterMap_cons_some (digits.decimal_ascii c first), ih others, List.map_cons]

/-- Without zeros in front the spelling of ASCII digits is the digits themselves. -/
theorem spelling_ascii {raw : PyStr} (all : ∀ c ∈ raw, isDigit c = true)
    (plain : leadingZeros raw = false) (positive : 1 ≤ number digits raw) :
    spelling digits raw = raw.map (fun c => c.val - 0x30) := by
  rw [spelling, filterMap_ascii all, significant]
  cases raw with
  | nil => rfl
  | cons c rest =>
    have digit := all c List.mem_cons_self
    rw [List.map_cons, List.dropWhile_cons_of_neg]
    intro zero
    have first : c = ofChar '0' := by
      simp only [decide_eq_true_eq] at zero
      simp only [isDigit, Bool.and_eq_true, decide_eq_true_eq] at digit
      refine Fin.ext ?_
      have value : (ofChar '0').val = 0x30 := by decide
      omega
    cases rest with
    | nil =>
      rw [number, filterMap_ascii all, first] at positive
      exact absurd positive (by decide)
    | cons d more =>
      have zeros : leadingZeros (c :: d :: more) = true := by
        simp [leadingZeros, first]
      rw [plain] at zeros
      cases zeros

theorem map_digit_injective {raw raw' : PyStr} (all : ∀ c ∈ raw, isDigit c = true)
    (all' : ∀ c ∈ raw', isDigit c = true)
    (same : raw.map (fun c => c.val - 0x30) = raw'.map (fun c => c.val - 0x30)) : raw = raw' := by
  induction raw generalizing raw' with
  | nil => exact (List.map_eq_nil_iff.mp same.symm).symm
  | cons c rest ih =>
    cases raw' with
    | nil => cases same
    | cons d more =>
      obtain ⟨first, others⟩ := List.forall_mem_cons.mp all
      obtain ⟨first', others'⟩ := List.forall_mem_cons.mp all'
      obtain ⟨head, tail⟩ := List.cons.inj same
      simp only [isDigit, Bool.and_eq_true, decide_eq_true_eq] at first first' head
      have equal : c = d := Fin.ext (by omega)
      rw [equal, ih others others' tail]

/-- Names of ASCII without a line feed never alias, which is what the check of leading zeros
is for. -/
theorem neverAliases_of_ascii
    (plain : ∀ name ∈ env.keys, isAscii name = true ∧ ofChar '\n' ∉ name) :
    NeverAliases digits env := by
  cases result : loadMasterKeysFromEnv digits env with
  | error e => exact Or.inl ⟨e, result⟩
  | ok keys =>
    obtain ⟨pairs, loadedRows, rfl⟩ := loadMasterKeysFromEnv_eq_ok.mp result
    have sound := exists_loaded.mp ⟨pairs, loadedRows⟩
    -- a name that matches is the start of the pattern and its digits, nothing else
    have shape : ∀ name ∈ env.keys, ∀ raw, keyEnvVersion digits name = some raw →
        name = KEY_ENV_START ++ raw ∧ (∀ c ∈ raw, isDigit c = true) ∧
          spelling digits raw = raw.map (fun c => c.val - 0x30) := by
      intro name mem raw matched
      obtain ⟨ascii, noFeed⟩ := plain name mem
      obtain ⟨tail, rfl, _, all, closing⟩ := keyEnvVersion_eq_some.mp matched
      have numeric : ∀ c ∈ raw, isDigit c = true := by
        intro c hc
        obtain ⟨digit, hdigit⟩ := Option.isSome_iff_exists.mp (all c hc)
        refine (isDigit_of_decimal hdigit ?_).1
        simpa using List.all_eq_true.mp ascii c (by simp [hc])
      obtain ⟨row, hrow, hname⟩ := List.mem_map.mp mem
      rcases variable_cases digits row.1 row.2 with unmatched | faulty | ⟨version, key, gives⟩
      · rw [hname, matched] at unmatched
        cases unmatched
      · exact absurd faulty (sound row hrow)
      · rw [hname] at gives
        obtain ⟨found, hfound, noZeros, _, rfl, range, _⟩ := gives
        obtain rfl : raw = found := Option.some.inj (matched.symm.trans hfound)
        refine ⟨?_, numeric, spelling_ascii numeric noZeros range.1⟩
        rcases closing with rfl | rfl
        · rw [List.append_nil]
        · exact absurd (by simp) noFeed
    refine Or.inr ⟨_, result, oneToOne_of_namesApart loadedRows ?_⟩
    intro name mem other mem' raw raw' matched matched' same
    obtain ⟨hname, all, spelled⟩ := shape name mem raw matched
    obtain ⟨hother, all', spelled'⟩ := shape other mem' raw' matched'
    rw [spelled, spelled'] at same
    rw [hname, hother, map_digit_injective all all' same]

end Correspondence

/-- The base64 text of a key of equal bytes, from the texts of three and of two of them. -/
def keyText (three two : PyStr) : PyStr := (List.replicate 10 three).flatten ++ two

/-- The Arabic digit one. -/
def arabicOne : CodePoint := 0x661

/-- `…_V1` with an ASCII digit, and the same with the Arabic one. -/
def aliasEnv : Table PyStr PyStr :=
  (Table.empty.put (KEY_ENV_START ++ py "1") (keyText (py "AQEB") (py "AQE="))).put
    (KEY_ENV_START ++ [arabicOne]) (keyText (py "AgIC") (py "AgI="))

theorem aliasEnv_aliases : ¬ NeverAliases sampleDigits aliasEnv := by
  have loaded : (loadMasterKeysFromEnv sampleDigits aliasEnv).toOption.map Table.rows =
      some [(1, List.replicate 32 2)] := by decide +kernel
  rintro (⟨e, failed⟩ | ⟨keys, _, matching⟩)
  · rw [failed] at loaded
    cases loaded
  · have same := matching.apart (KEY_ENV_START ++ py "1") (by decide +kernel)
      (KEY_ENV_START ++ [arabicOne]) (by decide +kernel) (py "1") [arabicOne] 1
      (by decide +kernel) (by decide +kernel) (by decide +kernel) (by decide +kernel)
    exact absurd same (by decide +kernel)

end MasterKeys
