import Mathlib.Data.List.Infix

/-!
# LIKE patterns

`LIKE` with an escape character, over any alphabet: a pattern is read as tokens
first, then matched. A text whose special characters are escaped stands for
itself, so with a `many` behind it the pattern selects the texts with that prefix.
-/

namespace Like

universe u
variable {A : Type u}

/-- The special characters of `LIKE`. -/
structure Alphabet (A : Type u) where
  many : A
  one : A
  escape : A
  many_ne_one : many ≠ one
  many_ne_escape : many ≠ escape
  one_ne_escape : one ≠ escape

inductive Token (A : Type u)
  | many
  | one
  | char (c : A)
  deriving DecidableEq

section Matching
variable [DecidableEq A] (x : Alphabet A)

/-- `none` for a pattern that ends in its escape character. -/
def tokens : List A → Option (List (Token A))
  | [] => some []
  | c :: rest =>
    if c = x.escape then
      match rest with
      | [] => none
      | d :: rest => (tokens rest).map (fun tail => .char d :: tail)
    else if c = x.many then (tokens rest).map (fun tail => .many :: tail)
    else if c = x.one then (tokens rest).map (fun tail => .one :: tail)
    else (tokens rest).map (fun tail => .char c :: tail)

def matchTokens : List (Token A) → List A → Bool
  | [], text => text.isEmpty
  | .many :: rest, text => text.tails.any (matchTokens rest)
  | .one :: rest, text =>
    match text with
    | [] => false
    | _ :: tail => matchTokens rest tail
  | .char c :: rest, text =>
    match text with
    | [] => false
    | d :: tail => d = c && matchTokens rest tail

/-- `text LIKE pattern ESCAPE escape`. -/
def like (pattern text : List A) : Bool := (tokens x pattern).any (fun ts => matchTokens ts text)

/-- The escape character in front of every special one. -/
def escaped (text : List A) : List A :=
  text.flatMap (fun c => if c = x.escape ∨ c = x.many ∨ c = x.one then [x.escape, c] else [c])

variable {x}

theorem tokens_char {c : A} (hescape : c ≠ x.escape) (hmany : c ≠ x.many) (hone : c ≠ x.one)
    (rest : List A) : tokens x (c :: rest) = (tokens x rest).map (fun tail => .char c :: tail) := by
  rw [tokens.eq_def]
  simp only [if_neg hescape, if_neg hmany, if_neg hone]

theorem tokens_escaped_append (text rest : List A) :
    tokens x (escaped x text ++ rest) =
      (tokens x rest).map (fun tail => text.map Token.char ++ tail) := by
  induction text with
  | nil => simp [escaped]
  | cons c text ih =>
    have step : escaped x (c :: text) =
        (if c = x.escape ∨ c = x.many ∨ c = x.one then [x.escape, c] else [c]) ++
          escaped x text := rfl
    rw [step, List.append_assoc]
    by_cases special : c = x.escape ∨ c = x.many ∨ c = x.one
    · rw [if_pos special]
      simp [tokens, ih, Option.map_map, Function.comp_def]
    · rw [if_neg special]
      obtain ⟨hescape, hmany, hone⟩ := (not_or.mp special).imp id not_or.mp
      rw [List.singleton_append, tokens_char hescape hmany hone, ih, Option.map_map]
      rfl

/-- Only the escape character is added. -/
theorem forall_mem_escaped {p : A → Prop} {text : List A} (escape : p x.escape) :
    (∀ c ∈ escaped x text, p c) ↔ ∀ c ∈ text, p c := by
  constructor
  · intro all c mem
    refine all c (List.mem_flatMap.mpr ⟨c, mem, ?_⟩)
    split
    · exact List.mem_cons_of_mem _ List.mem_cons_self
    · exact List.mem_cons_self
  · intro all c mem
    obtain ⟨d, inside, found⟩ := List.mem_flatMap.mp mem
    split at found
    · rcases List.mem_cons.mp found with rfl | same
      · exact escape
      · exact List.mem_singleton.mp same ▸ all d inside
    · exact List.mem_singleton.mp found ▸ all d inside

theorem matchTokens_many (text : List A) : matchTokens [Token.many] text = true := by
  rw [matchTokens, List.any_eq_true]
  exact ⟨[], (List.mem_tails _ _).mpr List.nil_suffix, rfl⟩

theorem matchTokens_prefix (first text : List A) :
    matchTokens (first.map Token.char ++ [Token.many]) text = first.isPrefixOf text := by
  induction first generalizing text with
  | nil => exact matchTokens_many text
  | cons c first ih =>
    cases text with
    | nil => rfl
    | cons d tail =>
      rw [List.map_cons, List.cons_append, matchTokens, List.isPrefixOf_cons_cons, ih]
      by_cases h : d = c
      · simp [h]
      · simp [h, Ne.symm h]

/-- Escaped, and with `many` behind it, a text is a prefix filter. -/
theorem like_escaped_many (first text : List A) :
    like x (escaped x first ++ [x.many]) text = first.isPrefixOf text := by
  have last : tokens x [x.many] = some [Token.many] := by
    simp [tokens, x.many_ne_escape]
  rw [like, tokens_escaped_append, last, Option.map_some, Option.any_some, matchTokens_prefix]

end Matching

end Like
