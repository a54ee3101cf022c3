import Mathlib.Data.List.Induction

/-!
# Searching a text

A pattern is given by its matches at the head of a text, and a search tries every
position. A match that cannot see past a delimiter lies in one part of a text that
is put together with delimiters, and stripping delimiters loses no match.
-/

namespace Search

universe u
variable {A : Type u}

/-- The pattern matches at some position. -/
def search (atHead : List A → Bool) : List A → Bool
  | [] => atHead []
  | c :: rest => atHead (c :: rest) || search atHead rest

/-- A literal that no word character follows. -/
def bounded [BEq A] (word : A → Bool) (literal text : List A) : Bool :=
  literal.isPrefixOf text && !(text.drop literal.length).head?.any word

/-- A match at the head is decided before the first delimiter. -/
structure Delimited (delim : A → Bool) (atHead : List A → Bool) : Prop where
  nil : atHead [] = false
  append : ∀ text c rest, delim c = true → atHead (text ++ c :: rest) = atHead text

section Search
variable {delim drop : A → Bool} {p q : List A → Bool} {text : List A}

theorem search_eq_false : search p text = false ↔ ∀ rest, rest <:+ text → p rest = false := by
  induction text with
  | nil => simp [search]
  | cons c tail ih =>
    rw [search, Bool.or_eq_false_iff, ih]
    constructor
    · rintro ⟨head, others⟩ rest suffix
      rcases List.suffix_cons_iff.mp suffix with rfl | suffix
      · exact head
      · exact others rest suffix
    · intro all
      refine ⟨all _ List.suffix_rfl, fun rest suffix => ?_⟩
      exact all rest (suffix.trans (List.suffix_cons c tail))

/-- A pattern that implies another is found where the other is. -/
theorem search_eq_false_of_imp (implies : ∀ text, p text = true → q text = true)
    (none : search q text = false) : search p text = false := by
  refine search_eq_false.mpr fun rest suffix => ?_
  have unmatched := search_eq_false.mp none rest suffix
  cases h : p rest with
  | false => rfl
  | true => exact (implies rest h).symm.trans unmatched

/-- A pattern that starts with a certain character is not found without it. -/
theorem search_eq_false_of_head {first : A}
    (starts : ∀ text, p text = true → text.head? = some first) (absent : first ∉ text) :
    search p text = false := by
  refine search_eq_false.mpr fun rest suffix => ?_
  cases h : p rest with
  | false => rfl
  | true =>
    have mem : first ∈ rest := List.mem_of_head? (starts rest h)
    exact absurd (suffix.subset mem) absent

theorem Delimited.search_append (d : Delimited delim p) {c : A} (hc : delim c = true)
    (text rest : List A) :
    search p (text ++ c :: rest) = (search p text || search p rest) := by
  induction text with
  | nil =>
    have head : p (c :: rest) = p [] := d.append [] c rest hc
    rw [List.nil_append, search, search, head]
  | cons first more ih =>
    have head : p (first :: (more ++ c :: rest)) = p (first :: more) :=
      d.append (first :: more) c rest hc
    rw [List.cons_append, search, head, ih, search, Bool.or_assoc]

theorem Delimited.search_dropWhile (d : Delimited delim p)
    (drops : ∀ c, drop c = true → delim c = true) (text : List A) :
    search p (text.dropWhile drop) = search p text := by
  induction text with
  | nil => rfl
  | cons c rest ih =>
    cases hc : drop c with
    | false => rw [List.dropWhile_cons_of_neg (by simp [hc])]
    | true =>
      have split : search p (c :: rest) = (search p [] || search p rest) :=
        d.search_append (drops c hc) [] rest
      rw [List.dropWhile_cons_of_pos hc, ih, split, search, d.nil, Bool.false_or]

theorem Delimited.search_dropWhile_reverse (d : Delimited delim p)
    (drops : ∀ c, drop c = true → delim c = true) (text : List A) :
    search p (text.reverse.dropWhile drop).reverse = search p text := by
  induction text using List.reverseRecOn with
  | nil => rfl
  | append_singleton rest c ih =>
    rw [List.reverse_append, List.reverse_singleton, List.singleton_append]
    cases hc : drop c with
    | false =>
      rw [List.dropWhile_cons_of_neg (by simp [hc]), List.reverse_cons, List.reverse_reverse]
    | true =>
      have split : search p (rest ++ [c]) = (search p rest || search p []) :=
        d.search_append (drops c hc) rest []
      rw [List.dropWhile_cons_of_pos hc, ih, split, search, d.nil, Bool.or_false]

end Search

section Literals
variable [BEq A] [LawfulBEq A] {delim word : A → Bool} {literal : List A}

/-- A literal is found wherever it stands. -/
theorem search_isPrefixOf {text : List A} :
    search literal.isPrefixOf text = true ↔ literal <:+: text := by
  rw [← not_iff_not, Bool.not_eq_true, search_eq_false, List.infix_iff_prefix_suffix]
  constructor
  · rintro none ⟨rest, start, suffix⟩
    have unmatched := none rest suffix
    rw [List.isPrefixOf_iff_prefix.mpr start] at unmatched
    cases unmatched
  · intro none rest suffix
    exact Bool.eq_false_iff.mpr fun start =>
      none ⟨rest, List.isPrefixOf_iff_prefix.mp start, suffix⟩

theorem isPrefixOf_append (plain : literal.any delim = false) (text : List A) {c : A}
    (rest : List A) (hc : delim c = true) :
    literal.isPrefixOf (text ++ c :: rest) = literal.isPrefixOf text := by
  induction literal generalizing text with
  | nil => rfl
  | cons first more ih =>
    obtain ⟨head, others⟩ := Bool.or_eq_false_iff.mp plain
    cases text with
    | nil =>
      have differs : first ≠ c := by
        rintro rfl
        exact Bool.false_ne_true (head.symm.trans hc)
      simp [List.isPrefixOf, differs]
    | cons d tail => rw [List.cons_append, List.isPrefixOf, List.isPrefixOf, ih others]

/-- A literal without delimiters. -/
theorem delimited_isPrefixOf (nonempty : literal ≠ []) (plain : literal.any delim = false) :
    Delimited delim literal.isPrefixOf where
  nil := by
    cases literal with
    | nil => exact absurd rfl nonempty
    | cons first more => rfl
  append := fun text _ rest hc => isPrefixOf_append plain text rest hc

/-- A delimiter is not a word character, so it bounds a literal like the end does. -/
theorem delimited_bounded (nonempty : literal ≠ []) (plain : literal.any delim = false)
    (outside : ∀ c, delim c = true → word c = false) : Delimited delim (bounded word literal) where
  nil := by rw [bounded, (delimited_isPrefixOf nonempty plain).nil, Bool.false_and]
  append := by
    intro text c rest hc
    rw [bounded, bounded, isPrefixOf_append plain text rest hc]
    cases start : literal.isPrefixOf text with
    | false => rfl
    | true =>
      obtain ⟨more, rfl⟩ := List.isPrefixOf_iff_prefix.mp start
      rw [List.append_assoc, List.drop_left, List.drop_left]
      cases more with
      | nil => simp [outside c hc]
      | cons d tail => rfl

end Literals

end Search
