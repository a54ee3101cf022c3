import Mathlib.Data.List.Basic
import Mathlib.Data.Fin.Basic

/-!
# Python strings

A Python `str` is a sequence of code points. Lone surrogates are allowed, so
Lean's `Char` does not cover it; equality is equality of code points. UTF-8 is
that of the core library, on the scalar values.
-/

namespace Text

instance neZeroCodePoints : @NeZero Nat Zero.ofOfNat0 0x110000 := ⟨by decide⟩

abbrev CodePoint := Fin 0x110000

abbrev PyStr := List CodePoint

instance decidableMemPyStr (s : PyStr) (texts : List PyStr) : Decidable (s ∈ texts) :=
  decidable_of_iff (texts.any (fun text => text = s) = true) (by simp)

instance decidableMemPair (pair : PyStr × PyStr) (pairs : List (PyStr × PyStr)) :
    Decidable (pair ∈ pairs) :=
  decidable_of_iff (pairs.any (fun other => other = pair) = true) (by simp)

def ofChar (c : Char) : CodePoint := ⟨c.toNat % 0x110000, Nat.mod_lt _ (by decide)⟩

/-- The Python string of a Lean literal. -/
def py (s : String) : PyStr := s.toList.map ofChar

/-- The scalar value of a code point; a surrogate has none. -/
def toChar (c : CodePoint) : Option Char :=
  if h : c.val.isValidChar then some (Char.ofNatAux c.val h) else none

theorem val_ofChar (c : Char) : (ofChar c).val = c.toNat := by
  refine Nat.mod_eq_of_lt ?_
  rcases c.valid with h | ⟨_, h⟩
  · exact Nat.lt_trans h (by decide)
  · exact h

theorem toChar_ofChar (c : Char) : toChar (ofChar c) = some c := by
  have value := val_ofChar c
  have valid : (ofChar c).val.isValidChar := value ▸ c.valid
  rw [toChar, dif_pos valid]
  refine congrArg some (Char.ext (UInt32.toNat_inj.mp ?_))
  exact value

theorem ofChar_of_toChar {c : CodePoint} {char : Char} (h : toChar c = some char) :
    ofChar char = c := by
  by_cases valid : c.val.isValidChar
  · rw [toChar, dif_pos valid] at h
    cases h
    exact Fin.ext (Nat.mod_eq_of_lt c.isLt)
  · rw [toChar, dif_neg valid] at h
    cases h

abbrev Bytes := List UInt8

/-- `str.encode("utf-8")`; a surrogate cannot be encoded. -/
def encodeUtf8 (s : PyStr) : Option Bytes :=
  (s.mapM toChar).map (fun chars => chars.flatMap String.utf8EncodeChar)

/-- `bytes.decode("utf-8")`. -/
def decodeUtf8 (bytes : Bytes) : Option PyStr :=
  bytes.toByteArray.utf8Decode?.map (fun chars => chars.toList.map ofChar)

/-- The built-in exceptions the modelled functions raise or let through. -/
inductive PyError
  | valueError (message : String)
  | typeError
  deriving DecidableEq, Repr

/-- The code points that `str.isspace` accepts. -/
def isSpace (c : CodePoint) : Bool :=
  (0x09 ≤ c.val && c.val ≤ 0x0d) || (0x1c ≤ c.val && c.val ≤ 0x20) || c.val = 0x85 ||
    c.val = 0xa0 || c.val = 0x1680 || (0x2000 ≤ c.val && c.val ≤ 0x200a) || c.val = 0x2028 ||
    c.val = 0x2029 || c.val = 0x202f || c.val = 0x205f || c.val = 0x3000

/-- Strip the code points of a class from both ends. -/
def stripOf (drop : CodePoint → Bool) (s : PyStr) : PyStr :=
  ((s.dropWhile drop).reverse.dropWhile drop).reverse

section Strip
variable {drop : CodePoint → Bool} {s tail : PyStr}

theorem dropWhile_eq_nil : s.dropWhile drop = [] ↔ ∀ c ∈ s, drop c = true := by
  induction s with
  | nil => simp
  | cons c rest ih =>
    by_cases h : drop c = true
    · simp [h, ih]
    · simp [h]

/-- What is stripped at the end of a string whose tail is kept in part. -/
theorem stripEnd_append (kept : ¬ ∀ c ∈ tail, drop c = true) :
    ((s ++ tail).reverse.dropWhile drop).reverse = s ++ (tail.reverse.dropWhile drop).reverse := by
  have nonempty : tail.reverse.dropWhile drop ≠ [] := by
    intro empty
    refine kept fun c mem => ?_
    exact dropWhile_eq_nil.mp empty c (List.mem_reverse.mpr mem)
  rw [List.reverse_append, List.dropWhile_append, if_neg (by simpa using nonempty),
    List.reverse_append, List.reverse_reverse]

/-- What is left of a string starts with a code point that is not stripped. -/
theorem head_stripOf {c : CodePoint} {rest : PyStr} (h : stripOf drop s = c :: rest) :
    drop c = false := by
  have start : (c :: rest) <+: s.dropWhile drop := by
    rw [← h, stripOf, ← List.reverse_suffix, List.reverse_reverse]
    exact List.dropWhile_suffix _
  obtain ⟨more, hmore⟩ := start
  have nonempty : s.dropWhile drop ≠ [] := by
    rw [← hmore]
    exact List.cons_ne_nil _ _
  have head := List.head_dropWhile_not drop nonempty
  simpa [← hmore] using head

theorem stripOf_append_of_all (all : ∀ c ∈ tail, drop c = true) :
    stripOf drop (s ++ tail) = stripOf drop s := by
  have dropped : tail.dropWhile drop = [] := dropWhile_eq_nil.mpr all
  rw [stripOf, List.dropWhile_append]
  split
  · rename_i empty
    rw [stripOf, List.isEmpty_iff.mp empty, dropped]
  · rw [List.reverse_append,
      List.dropWhile_append_of_pos (fun c mem => all c (List.mem_reverse.mp mem)), stripOf]

/-- Stripping gives back the string without a tail exactly when the tail is
stripped as a whole and the string has nothing to strip. -/
theorem stripOf_append_eq_left :
    stripOf drop (s ++ tail) = s ↔ (∀ c ∈ tail, drop c = true) ∧ stripOf drop s = s := by
  constructor
  · intro h
    have all : ∀ c ∈ tail, drop c = true := by
      cases s with
      | nil =>
        intro c mem
        have empty := List.reverse_eq_nil_iff.mp h
        have none := dropWhile_eq_nil.mp empty
        by_cases gone : tail.dropWhile drop = []
        · exact dropWhile_eq_nil.mp gone c mem
        · have head := List.head_dropWhile_not drop gone
          have dropped : drop ((tail.dropWhile drop).head gone) = true :=
            none _ (List.mem_reverse.mpr (List.head_mem gone))
          rw [dropped] at head
          cases head
      | cons first rest =>
        by_contra kept
        have start : (first :: rest ++ tail).dropWhile drop = first :: rest ++ tail := by
          simp [head_stripOf h]
        rw [stripOf, start, stripEnd_append kept] at h
        have empty := List.append_right_eq_self.mp h
        refine kept fun c mem => ?_
        exact dropWhile_eq_nil.mp (List.reverse_eq_nil_iff.mp empty) c (List.mem_reverse.mpr mem)
    exact ⟨all, (stripOf_append_of_all all).symm.trans h⟩
  · rintro ⟨all, h⟩
    rw [stripOf_append_of_all all, h]

/-- A code point that is not stripped stays. -/
theorem mem_stripOf {c : CodePoint} (kept : drop c = false) : c ∈ stripOf drop s ↔ c ∈ s := by
  have stays : ∀ t : PyStr, c ∈ t.dropWhile drop ↔ c ∈ t := by
    intro t
    constructor
    · exact fun mem => (List.dropWhile_suffix drop).subset mem
    · intro mem
      have split : t.takeWhile drop ++ t.dropWhile drop = t := List.takeWhile_append_dropWhile
      rw [← split] at mem
      rcases List.mem_append.mp mem with dropped | mem
      · rw [List.all_eq_true.mp List.all_takeWhile c dropped] at kept
        cases kept
      · exact mem
  rw [stripOf, List.mem_reverse, stays, List.mem_reverse, stays]

theorem stripOf_within : stripOf drop s <:+: s := by
  have start : (s.dropWhile drop).reverse.dropWhile drop <:+ (s.dropWhile drop).reverse :=
    List.dropWhile_suffix _
  have front := List.reverse_prefix.mpr start
  rw [List.reverse_reverse] at front
  exact front.isInfix.trans (List.dropWhile_suffix _).isInfix

/-- What is left of a string ends in a code point that is not stripped. -/
theorem last_stripOf {c : CodePoint} (h : (stripOf drop s).getLast? = some c) :
    drop c = false := by
  rw [stripOf, List.getLast?_reverse] at h
  have nonempty : (s.dropWhile drop).reverse.dropWhile drop ≠ [] := by
    intro empty
    rw [empty] at h
    cases h
  have head := List.head_dropWhile_not drop nonempty
  rw [List.head?_eq_some_head nonempty] at h
  cases h
  exact head

/-- Nothing is stripped off a string whose ends are kept. -/
theorem stripOf_eq_self (first : ∀ c, s.head? = some c → drop c = false)
    (last : ∀ c, s.getLast? = some c → drop c = false) : stripOf drop s = s := by
  have kept : ∀ text : PyStr, (∀ c, text.head? = some c → drop c = false) →
      text.dropWhile drop = text := by
    intro text ends
    cases text with
    | nil => rfl
    | cons c rest => rw [List.dropWhile_cons_of_neg (by simp [ends c rfl])]
  rw [stripOf, kept s first, kept s.reverse, List.reverse_reverse]
  rwa [List.head?_reverse]

theorem stripOf_stripOf : stripOf drop (stripOf drop s) = stripOf drop s := by
  refine stripOf_eq_self (fun c head => ?_) (fun c last => last_stripOf last)
  obtain ⟨rest, hrest⟩ := List.head?_eq_some_iff.mp head
  exact head_stripOf hrest

theorem stripOf_of_forall (none : ∀ c ∈ s, drop c = false) : stripOf drop s = s :=
  stripOf_eq_self (fun c h => none c (List.mem_of_head? h))
    (fun c h => none c (List.mem_of_getLast? h))

end Strip

/-- `str.strip()`. -/
def strip (s : PyStr) : PyStr := stripOf isSpace s

theorem forall_mem_strip {p : CodePoint → Prop} {s : PyStr}
    (spaces : ∀ c, isSpace c = true → p c) : (∀ c ∈ strip s, p c) ↔ ∀ c ∈ s, p c := by
  refine forall_congr' fun c => ?_
  cases space : isSpace c with
  | true => exact iff_of_true (fun _ => spaces c space) (fun _ => spaces c space)
  | false => rw [strip, mem_stripOf space]

def isAscii (s : PyStr) : Bool := s.all (fun c => c.val < 128)

/-- `secrets.compare_digest` on two `str` values: both have to be ASCII. -/
def compareDigest (a b : PyStr) : Except PyError Bool :=
  if isAscii a && isAscii b then .ok (a = b) else .error .typeError

theorem eq_of_compareDigest {a b : PyStr} (same : compareDigest a b = .ok true) : a = b := by
  rw [compareDigest] at same
  split at same
  · simpa using same
  · cases same

theorem mapM_toChar_ofChar (chars : List Char) :
    (chars.map ofChar).mapM toChar = some chars := by
  induction chars with
  | nil => rfl
  | cons c rest ih => simp [List.mapM_cons, toChar_ofChar, ih]

theorem map_ofChar_of_mapM {s : PyStr} {chars : List Char} (h : s.mapM toChar = some chars) :
    chars.map ofChar = s := by
  induction s generalizing chars with
  | nil =>
    cases h
    rfl
  | cons c rest ih =>
    simp only [List.mapM_cons, Option.bind_eq_bind, Option.bind_eq_some_iff, Option.pure_def,
      Option.some.injEq] at h
    obtain ⟨char, hchar, tail, htail, rfl⟩ := h
    simp [ofChar_of_toChar hchar, ih htail]

theorem encodeUtf8_isSome {s : PyStr} :
    (encodeUtf8 s).isSome = true ↔ ∀ c ∈ s, (toChar c).isSome = true := by
  rw [encodeUtf8, Option.isSome_map]
  induction s with
  | nil => simp
  | cons c rest ih =>
    rw [List.forall_mem_cons, ← ih, List.mapM_cons]
    cases toChar c with
    | none => simp
    | some char => cases rest.mapM toChar <;> simp

theorem toChar_isSome {c : CodePoint} (low : c.val < 0xd800) : (toChar c).isSome = true := by
  rw [toChar, dif_pos (Or.inl low)]
  rfl

theorem toChar_of_isSpace {c : CodePoint} (space : isSpace c = true) :
    (toChar c).isSome = true ∧ c.val ≠ 0 := by
  simp only [isSpace, Bool.or_eq_true, Bool.and_eq_true, decide_eq_true_eq] at space
  exact ⟨toChar_isSome (by omega), by omega⟩

theorem length_utf8EncodeChar {char : Char} (low : char.val.toNat < 128) :
    (String.utf8EncodeChar char).length = 1 := by
  rw [String.length_utf8EncodeChar, Char.utf8Size_eq_one_iff]
  exact UInt32.le_iff_toNat_le.mpr (by simpa using Nat.le_of_lt_succ low)

/-- One byte for each code point. -/
theorem length_encodeUtf8 {s : PyStr} (ascii : isAscii s = true) :
    ∃ bytes, encodeUtf8 s = some bytes ∧ bytes.length = s.length := by
  simp only [isAscii, List.all_eq_true, decide_eq_true_eq] at ascii
  induction s with
  | nil => exact ⟨[], rfl, rfl⟩
  | cons c rest ih =>
    rw [List.forall_mem_cons] at ascii
    obtain ⟨bytes, encoded, length⟩ := ih ascii.2
    obtain ⟨chars, hchars, rfl⟩ := Option.map_eq_some_iff.mp encoded
    obtain ⟨char, hchar⟩ := Option.isSome_iff_exists.mp
      (toChar_isSome (c := c) (by omega))
    have low : char.val.toNat < 128 := by
      have bound := ascii.1
      rw [← ofChar_of_toChar hchar, val_ofChar] at bound
      exact bound
    refine ⟨String.utf8EncodeChar char ++ chars.flatMap String.utf8EncodeChar, ?_, ?_⟩
    · simp [encodeUtf8, List.mapM_cons, hchar, hchars]
    · rw [List.length_append, length, length_utf8EncodeChar low, List.length_cons, Nat.add_comm]

/-- What decoding returns can be encoded again. -/
theorem encodeUtf8_of_decodeUtf8 {bytes : Bytes} {s : PyStr} (h : decodeUtf8 bytes = some s) :
    ∃ encoded, encodeUtf8 s = some encoded := by
  obtain ⟨chars, _, rfl⟩ := Option.map_eq_some_iff.mp h
  exact ⟨_, by rw [encodeUtf8, mapM_toChar_ofChar]; rfl⟩

theorem decodeUtf8_of_encodeUtf8 {s : PyStr} {bytes : Bytes} (h : encodeUtf8 s = some bytes) :
    decodeUtf8 bytes = some s := by
  obtain ⟨chars, hchars, rfl⟩ := Option.map_eq_some_iff.mp h
  have encoded : (chars.flatMap String.utf8EncodeChar).toByteArray = chars.utf8Encode := rfl
  rw [decodeUtf8, encoded, List.utf8Decode?_utf8Encode]
  simp [map_ofChar_of_mapM hchars]

end Text
