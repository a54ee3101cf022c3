import Gubbi.Journal.TopicPaths
import Gubbi.Library.Splitting

/-!
# Paths made from what was proposed

The suggestion of an `INVALID_TOPIC` error is made from a text that a client sent, and
`harden_llm_topic_path` makes a path of what a model wrote. Both start from any text, and both
leave a path of the grammar as it is.
-/

namespace ProposedPaths

open Text Validation Titles Words TopicPaths

/-- `str.lower()` by the case mappings of Unicode. A code point is mapped to one code point, or
to several that are not all of ASCII. What is of ASCII in the result is a small letter, or no
letter and there before. -/
structure CaseMapping extends Lowering where
  parts : ∀ s, ∃ parts : List PyStr, parts.length = s.length ∧ lower s = parts.flatten ∧
    ∀ part ∈ parts, part.length = 1 ∨ isAscii part = false
  ascii : ∀ s, ∀ c ∈ lower s, c.val < 0x80 → isLower c = true ∨ isUpper c = false ∧ c ∈ s

/-- `[a-z0-9/]`. -/
def isPathChar (c : CodePoint) : Bool := isSlugChar c || c = ofChar '/'

/-- `re.sub(r"[^a-z0-9/]+", "-", text)`. -/
def dashOthers (text : PyStr) : PyStr := replaceRuns isPathChar (ofChar '-') text

/-- `re.sub(r"-{2,}", "-", text)`; a single dash stays a dash. -/
def collapseDashes (text : PyStr) : PyStr :=
  replaceRuns (fun c => c ≠ ofChar '-') (ofChar '-') text

/-- `part.strip("-")`. -/
def stripDashes (part : PyStr) : PyStr := stripOf (fun c => c = ofChar '-') part

def suggestionParts (low : Lowering) (raw : PyStr) : List PyStr :=
  let cleaned := stripOf (fun c => c = ofChar '-' || c = ofChar '/') (dashOthers (low.lower raw))
  let cleaned := collapseDashes cleaned
  (((cleaned.splitOn (ofChar '/')).map stripDashes).filter (fun part => part ≠ [])).take 2

/-- `_topic_suggestions`. -/
def topicSuggestions (low : Lowering) (raw : PyStr) : List PyStr :=
  let parts := suggestionParts low raw
  if parts ≠ [] then [(py "/").intercalate parts] else []

/-- `[\x00-\x20\x7f]`. -/
def isStripped (c : CodePoint) : Bool := c.val ≤ 0x20 || c.val = 0x7f

/-- `harden_llm_topic_path` with its `max_len`; an error would be the message of a `ValueError`. -/
def hardenWithin (low : Lowering) (maxLen : Int) (raw : Option PyStr) :
    Except PyStr (Option PyStr) :=
  match raw with
  | none => .ok none
  | some raw =>
    if raw = [] ∨ maxLen < raw.length then .ok none
    else
      let cleaned := raw.filter (fun c => !isStripped c)
      if cleaned = [] then .ok none
      else tryCatch ((validateTopic low cleaned).map some) (fun _ => .ok none)

section Paths
variable {low : Lowering} {s p : PyStr}

/-- One or two slugs with a slash between them. -/
theorem path_iff : Path p ↔ ∃ levels : List PyStr, levels ≠ [] ∧ levels.length ≤ 2 ∧
    (∀ level ∈ levels, Slug level) ∧ p = (py "/").intercalate levels := by
  constructor
  · rintro (one | ⟨a, b, ha, hb, rfl⟩)
    · refine ⟨[p], List.cons_ne_nil _ _, Nat.le_succ 1, ?_, List.intercalate_singleton.symm⟩
      exact fun level mem => List.mem_singleton.mp mem ▸ one
    · refine ⟨[a, b], List.cons_ne_nil _ _, Nat.le_refl 2, ?_, ?_⟩
      · exact List.forall_mem_cons.mpr ⟨ha, fun level mem => List.mem_singleton.mp mem ▸ hb⟩
      · rw [List.intercalate_cons_cons, List.intercalate_singleton, List.append_assoc]
        rfl
  · rintro ⟨levels, nonempty, two, slugs, rfl⟩
    match levels with
    | [] => exact absurd rfl nonempty
    | [a] =>
      rw [List.intercalate_singleton]
      exact Or.inl (slugs a List.mem_cons_self)
    | [a, b] =>
      refine Or.inr ⟨a, b, slugs a List.mem_cons_self,
        slugs b (List.mem_cons_of_mem a List.mem_cons_self), ?_⟩
      rw [List.intercalate_cons_cons, List.intercalate_singleton, List.append_assoc]
      rfl
    | _ :: _ :: _ :: _ =>
      simp only [List.length_cons] at two
      omega

theorem ne_nil_of_path (path : Path p) : p ≠ [] := by
  rcases path with one | ⟨a, b, _, _, rfl⟩
  · exact one.ne_nil
  · exact List.append_ne_nil_of_right_ne_nil a (List.cons_ne_nil _ _)

theorem isPathChar_of_path (path : Path p) : ∀ c ∈ p, isPathChar c = true ∨ c = ofChar '-' := by
  intro c mem
  rw [isPathChar, Bool.or_eq_true, decide_eq_true_eq, or_assoc, or_comm (a := c = ofChar '/')]
  exact path.mem c mem

/-- A path consists of visible ASCII and has no capitals. -/
theorem visible_of_path (path : Path p) :
    ∀ c ∈ p, (0x20 < c.val ∧ c.val < 0x7f) ∧ isUpper c = false := by
  intro c mem
  have chars := path.mem c mem
  have dash : (ofChar '-').val = 0x2d := rfl
  have slash : (ofChar '/').val = 0x2f := rfl
  simp only [isSlugChar, isUpper, isLower, isDigit, Bool.or_eq_true, Bool.and_eq_true,
    decide_eq_true_eq, Bool.and_eq_false_iff, decide_eq_false_iff_not, Fin.ext_iff] at chars ⊢
  omega

theorem isAscii_of_path (path : Path p) : isAscii p = true := by
  refine List.all_eq_true.mpr fun c mem => decide_eq_true ?_
  have visible := (visible_of_path path c mem).1
  omega

theorem lower_of_path (path : Path p) : low.lower p = p := by
  rw [low.lower_ascii p (isAscii_of_path path)]
  exact lowerAscii_of_forall fun c mem => (visible_of_path path c mem).2

theorem validateTopic_path (path : Path p) : validateTopic low p = .ok p := by
  have lowered : low.lower p = p := lower_of_path path
  rw [validateTopic_eq_ok, lowered]
  exact ⟨rfl, matchesTopicPattern_iff.mpr (Or.inl path)⟩

end Paths

/-- Nothing is suggested, or a path that is valid and that suggests itself; and a letter or
digit of ASCII is enough for a suggestion. -/
structure Acceptable (low : Lowering) (raw : PyStr) : Prop where
  valid : topicSuggestions low raw = [] ∨
    ∃ p, topicSuggestions low raw = [p] ∧ validateTopic low p = .ok p
  nonempty : (∃ c ∈ low.lower raw, isAlnum c = true) → topicSuggestions low raw ≠ []
  again : ∀ p ∈ topicSuggestions low raw, topicSuggestions low p = [p]

/-- A valid text is suggested as it is validated. -/
def Agrees (low : Lowering) (raw : PyStr) : Prop :=
  ∀ path, validateTopic low raw = .ok path → topicSuggestions low raw = [path]

section Suggestions
variable {low : Lowering} {raw p : PyStr} {c : CodePoint}

/-- The text that is split. The second rewriting finds no two dashes in a row. -/
def cleaned (low : Lowering) (raw : PyStr) : PyStr :=
  stripOf (fun c => c = ofChar '-' || c = ofChar '/') (dashOthers (low.lower raw))

theorem noDouble_cleaned : NoDouble (ofChar '-') (cleaned low raw) :=
  List.IsChain.infix (noDouble_replaceRuns (by decide) _) stripOf_within

theorem collapseDashes_of_noDouble (single : NoDouble (ofChar '-') p) : collapseDashes p = p := by
  refine replaceRuns_of_noDouble (fun c _ => ?_) single
  rw [decide_eq_true_eq]
  exact (em (c = ofChar '-')).symm

theorem suggestionParts_eq : suggestionParts low raw =
    ((((cleaned low raw).splitOn (ofChar '/')).map stripDashes).filter
      (fun part => part ≠ [])).take 2 := by
  have same : collapseDashes (cleaned low raw) = cleaned low raw :=
    collapseDashes_of_noDouble noDouble_cleaned
  rw [cleaned] at same
  simp only [suggestionParts, cleaned, same]

theorem topicSuggestions_eq (nonempty : suggestionParts low raw ≠ []) :
    topicSuggestions low raw = [(py "/").intercalate (suggestionParts low raw)] :=
  if_pos nonempty

/-- A part that is kept is a slug. -/
theorem slug_of_part {part : PyStr} (mem : part ∈ suggestionParts low raw) : Slug part := by
  rw [suggestionParts_eq] at mem
  obtain ⟨found, kept⟩ := List.mem_filter.mp (List.mem_of_mem_take mem)
  obtain ⟨piece, hpiece, rfl⟩ := List.mem_map.mp found
  rw [List.splitOn_eq_splitOnP] at hpiece
  have within := (Splitting.splitOnP_within _).2 piece hpiece
  have chars : ∀ c ∈ stripDashes piece, isSlugChar c = true ∨ c = ofChar '-' := by
    intro c inside
    have unslashed := (Splitting.mem_splitOnP.mp ⟨piece, hpiece, stripOf_within.subset inside⟩).2
    have allowed : isPathChar c = true ∨ c = ofChar '-' :=
      forall_mem_replaceRuns _ c (stripOf_within.subset (within.subset
        (stripOf_within.subset inside)))
    rw [isPathChar, Bool.or_eq_true, decide_eq_true_eq, or_assoc] at allowed
    refine allowed.imp_right fun rest => rest.resolve_left fun slash => ?_
    rw [slash] at unslashed
    exact absurd unslashed (by decide)
  have inner : NoDouble (ofChar '-') piece := List.IsChain.infix noDouble_cleaned within
  have single : NoDouble (ofChar '-') (stripDashes piece) :=
    List.IsChain.infix inner stripOf_within
  refine joined_of_noDouble (of_decide_eq_true kept) chars single (fun c head => ?_)
    fun c last => ?_
  · obtain ⟨rest, hrest⟩ := List.head?_eq_some_iff.mp head
    exact of_decide_eq_false (head_stripOf hrest)
  · exact of_decide_eq_false (last_stripOf last)

theorem topicSuggestions_cases : topicSuggestions low raw = [] ∨
    ∃ p, Path p ∧ topicSuggestions low raw = [p] := by
  by_cases nonempty : suggestionParts low raw = []
  · exact Or.inl (if_neg (not_not.mpr nonempty))
  · refine Or.inr ⟨_, path_iff.mpr ⟨_, nonempty, ?_, fun _ => slug_of_part, rfl⟩,
      topicSuggestions_eq nonempty⟩
    rw [suggestionParts_eq]
    exact List.length_take_le _ _

theorem isSlugChar_of_isAlnum (alnum : isAlnum c = true) (small : isUpper c = false) :
    isSlugChar c = true := by
  rwa [isAlnum, small, Bool.false_or] at alnum

theorem ne_slash (h : isSlugChar c = true) : c ≠ ofChar '/' := by
  rintro rfl
  exact absurd h (by decide)

/-- A letter or digit of the lowered text is in one of the parts. -/
theorem suggestionParts_ne_nil (mem : c ∈ low.lower raw) (word : isSlugChar c = true) :
    suggestionParts low raw ≠ [] := by
  have dashed : c ∈ dashOthers (low.lower raw) := by
    refine (mem_replaceRuns (by decide) ?_).mpr mem
    rw [isPathChar, word, Bool.true_or]
  have kept : c ∈ cleaned low raw := by
    refine (mem_stripOf ?_).mpr dashed
    simp [ne_dash word, ne_slash word]
  have apart : (c == ofChar '/') = false := beq_eq_false_iff_ne.mpr (ne_slash word)
  have found : ∃ piece ∈ (cleaned low raw).splitOnP (· == ofChar '/'), c ∈ piece :=
    Splitting.mem_splitOnP.mpr ⟨kept, apart⟩
  obtain ⟨piece, hpiece, inside⟩ := found
  have stripped : c ∈ stripDashes piece :=
    (mem_stripOf (decide_eq_false (ne_dash word))).mpr inside
  rw [← List.splitOn_eq_splitOnP] at hpiece
  have part : stripDashes piece ∈ (((cleaned low raw).splitOn (ofChar '/')).map stripDashes).filter
      (fun part => part ≠ []) :=
    List.mem_filter.mpr ⟨List.mem_map_of_mem hpiece, decide_eq_true (List.ne_nil_of_mem stripped)⟩
  rw [suggestionParts_eq]
  intro none
  rcases List.take_eq_nil_iff.mp none with zero | empty
  · cases zero
  · rw [empty] at part
    exact List.not_mem_nil part

theorem stripDashes_slug (slug : Slug p) : stripDashes p = p := by
  refine stripOf_eq_self (fun c head => ?_) fun c last => ?_
  · obtain ⟨rest, rfl⟩ := List.head?_eq_some_iff.mp head
    exact decide_eq_false (ne_dash slug.head)
  · exact decide_eq_false (ne_dash (slug.getLast c last))

/-- The first and the last code point of a path belong to slugs. -/
theorem ends_of_path (path : Path p) :
    (∀ c, p.head? = some c → isSlugChar c = true) ∧
      ∀ c, p.getLast? = some c → isSlugChar c = true := by
  have head : ∀ {a rest : PyStr}, Slug a → ∀ c, (a ++ rest).head? = some c →
      isSlugChar c = true := by
    intro a rest slug c found
    obtain ⟨first, tail, rfl⟩ := List.exists_cons_of_ne_nil slug.ne_nil
    obtain rfl := Option.some.inj found
    exact slug.head
  rcases path with one | ⟨a, b, ha, hb, rfl⟩
  · refine ⟨fun c found => ?_, one.getLast⟩
    rw [← List.append_nil p] at found
    exact head one c found
  · refine ⟨head ha, fun c found => hb.getLast c ?_⟩
    rwa [List.getLast?_append_of_ne_nil _ (List.cons_ne_nil _ _),
      List.getLast?_cons_of_ne_nil hb.ne_nil] at found

theorem noDouble_of_path (path : Path p) : NoDouble (ofChar '-') p := by
  have other : isSlugChar (ofChar '-') = false := by decide
  rcases path with one | ⟨a, b, ha, hb, rfl⟩
  · exact one.noDouble other
  · have slash : ofChar '/' ≠ ofChar '-' := by decide
    refine List.isChain_append.mpr ⟨ha.noDouble other, ?_, fun c last d _ dash => ?_⟩
    · exact List.isChain_cons.mpr ⟨fun _ _ same => absurd same slash, hb.noDouble other⟩
    · exact absurd dash (ne_dash (ha.getLast c last))

/-- A text that is lowered to a path suggests this path. -/
theorem topicSuggestions_of_path (path : Path p) (lowered : low.lower raw = p) :
    topicSuggestions low raw = [p] := by
  have dashed : dashOthers p = p :=
    replaceRuns_of_noDouble (isPathChar_of_path path) (noDouble_of_path path)
  have plain : ∀ c, isSlugChar c = true → (decide (c = ofChar '-') || decide (c = ofChar '/')) =
      false := by
    intro c word
    simp [ne_dash word, ne_slash word]
  have whole : cleaned low raw = p := by
    rw [cleaned, lowered, dashed]
    exact stripOf_eq_self (fun c head => plain c ((ends_of_path path).1 c head))
      fun c last => plain c ((ends_of_path path).2 c last)
  obtain ⟨levels, nonempty, two, slugs, rfl⟩ := path_iff.mp path
  have unslashed : ∀ level ∈ levels, ofChar '/' ∉ level := by
    intro level mem slash
    rcases (slugs level mem).mem _ slash with word | dash
    · exact ne_slash word rfl
    · exact absurd dash (by decide)
  have kept : (levels.map stripDashes).filter (fun part => part ≠ []) = levels := by
    rw [List.map_congr_left fun level mem => stripDashes_slug (slugs level mem), List.map_id']
    exact List.filter_eq_self.mpr fun level mem => decide_eq_true (slugs level mem).ne_nil
  have parts : suggestionParts low raw = levels := by
    have split := List.splitOn_intercalate (ofChar '/') unslashed nonempty
    rw [suggestionParts_eq, whole]
    exact (congrArg _ (congrArg _ (congrArg _ split))).trans
      ((congrArg _ kept).trans (List.take_of_length_le two))
  rw [topicSuggestions_eq (parts ▸ nonempty), parts]

theorem acceptable (low : CaseMapping) (raw : PyStr) : Acceptable low.toLowering raw where
  valid := by
    rcases @topicSuggestions_cases low.toLowering raw with none | ⟨p, path, found⟩
    · exact Or.inl none
    · exact Or.inr ⟨p, found, validateTopic_path path⟩
  nonempty := by
    rintro ⟨c, mem, alnum⟩
    have small : isUpper c = false := by
      have plain : c.val < 0x80 := by
        simp only [isAlnum, isUpper, isLower, isDigit, Bool.or_eq_true, Bool.and_eq_true,
          decide_eq_true_eq] at alnum
        omega
      rcases low.ascii raw c mem plain with lower | ⟨upper, _⟩
      · simp only [isLower, Bool.and_eq_true, decide_eq_true_eq] at lower
        simp only [isUpper, Bool.and_eq_false_iff, decide_eq_false_iff_not]
        omega
      · exact upper
    rw [topicSuggestions_eq (suggestionParts_ne_nil mem (isSlugChar_of_isAlnum alnum small))]
    exact List.cons_ne_nil _ _
  again := by
    intro p mem
    rcases @topicSuggestions_cases low.toLowering raw with none | ⟨q, path, found⟩
    · rw [none] at mem
      exact absurd mem List.not_mem_nil
    · rw [found, List.mem_singleton] at mem
      rw [mem]
      exact topicSuggestions_of_path path (lower_of_path path)

theorem agrees_iff : Agrees low raw ↔ ¬ ∃ p, Path p ∧ low.lower raw = p ++ py "\n" := by
  constructor
  · rintro agrees ⟨p, path, ended⟩
    have accepted : validateTopic low raw = .ok (p ++ py "\n") := by
      rw [validateTopic_eq_ok, ended]
      exact ⟨rfl, matchesTopicPattern_iff.mpr (Or.inr ⟨p, path, rfl⟩)⟩
    have suggested := agrees _ accepted
    rcases @topicSuggestions_cases low raw with none | ⟨q, other, found⟩
    · rw [none] at suggested
      cases suggested
    · -- what is suggested has no line feed
      rw [found] at suggested
      refine other.plain.1 ?_
      rw [(List.cons.inj suggested).1]
      exact List.mem_append_right p List.mem_cons_self
  · intro unended path accepted
    obtain ⟨rfl, matched⟩ := validateTopic_eq_ok.mp accepted
    have grammar := (matchesTopicPattern_iff.mp matched).resolve_right unended
    exact topicSuggestions_of_path grammar rfl

/-- A suggestion is always acceptable, and it is what `validate_topic` returns on exactly the
texts that are not lowered to a path with a line feed after it. -/
theorem topicSuggestions_iff (low : CaseMapping) (raw : PyStr) :
    Acceptable low.toLowering raw ∧ (Acceptable low.toLowering raw ∧ Agrees low.toLowering raw ↔
      ¬ ∃ p, Path p ∧ low.lower raw = p ++ py "\n") :=
  ⟨acceptable low raw, (and_iff_right (acceptable low raw)).trans agrees_iff⟩

end Suggestions

theorem lowerAscii_parts (s : PyStr) : ∃ parts : List PyStr, parts.length = s.length ∧
    lowerAscii s = parts.flatten ∧ ∀ part ∈ parts, part.length = 1 ∨ isAscii part = false := by
  refine ⟨(lowerAscii s).map (fun c => [c]), ?_, ?_, fun part mem => ?_⟩
  · rw [List.length_map, lowerAscii, List.length_map]
  · rw [← List.flatMap_def, List.flatMap_singleton']
  · obtain ⟨c, _, rfl⟩ := List.mem_map.mp mem
    exact Or.inl rfl

theorem lowerAscii_ascii_mem (s : PyStr) : ∀ c ∈ lowerAscii s, c.val < 0x80 →
    isLower c = true ∨ isUpper c = false ∧ c ∈ s := by
  intro c mem _
  obtain ⟨d, inside, rfl⟩ := List.mem_map.mp mem
  split
  · next upper =>
    simp only [isUpper, Bool.and_eq_true, decide_eq_true_eq] at upper
    simp only [isLower, Bool.and_eq_true, decide_eq_true_eq]
    omega
  · next other => exact Or.inr ⟨Bool.eq_false_iff.mpr other, inside⟩

/-- Letters outside ASCII are left alone. -/
def sampleMapping : CaseMapping where
  lower := lowerAscii
  lower_ascii := lowerAscii_ascii
  parts := lowerAscii_parts
  ascii := lowerAscii_ascii_mem

example : topicSuggestions sampleMapping.toLowering (py "/Work-- Plans//q2_/x") =
    [py "work-plans/q2"] := by decide

theorem lineFeed_not_suggested : ¬ (Acceptable sampleMapping.toLowering (py "work\n") ∧
    Agrees sampleMapping.toLowering (py "work\n")) := by
  rintro ⟨_, agrees⟩
  have suggested := agrees (py "work\n") (by decide)
  revert suggested
  decide

/-- A control character, of any code point. -/
def isControl (c : CodePoint) : Bool := c.val < 0x20 || (0x7f ≤ c.val && c.val < 0xa0)

/-- The call returns, and a path it returns is one of the language that is returned again. -/
structure Retracts (low : Lowering) (maxLen : Int) (raw : Option PyStr) : Prop where
  returns : ∃ result, hardenWithin low maxLen raw = .ok result
  grammar : ∀ path, hardenWithin low maxLen raw = .ok (some path) →
    Path path ∧ path.length ≤ maxLen ∧ ∀ c ∈ path, isSpace c = false ∧ isControl c = false
  again : ∀ path, hardenWithin low maxLen raw = .ok (some path) →
    hardenWithin low maxLen (some path) = .ok (some path)

section Hardened
variable {low : Lowering} {maxLen : Int} {raw path : PyStr}

theorem caught (attempt : Except PyStr PyStr) :
    tryCatch (attempt.map some) (fun _ => .ok none) = .ok attempt.toOption := by
  cases attempt with
  | error message => rfl
  | ok path => rfl

theorem hardenWithin_some : hardenWithin low maxLen (some raw) =
    .ok (if raw = [] ∨ maxLen < raw.length then none
      else if raw.filter (fun c => !isStripped c) = [] then none
      else (validateTopic low (raw.filter fun c => !isStripped c)).toOption) := by
  simp only [hardenWithin, caught, apply_ite (Except.ok (ε := PyStr))]

/-- The default is 256. -/
theorem hardenWithin_default (low : Lowering) (raw : Option PyStr) :
    hardenWithin low 256 raw = .ok (hardenLlmTopicPath low raw) := by
  cases raw with
  | none => rfl
  | some raw =>
    have long : (256 : Int) < raw.length ↔ 256 < raw.length := by omega
    rw [hardenWithin_some]
    exact congrArg Except.ok (if_congr (or_congr_right long) rfl rfl)

/-- Case mappings that end in ASCII keep the length. -/
theorem length_lower (low : CaseMapping) (ascii : isAscii (low.lower raw) = true) :
    (low.lower raw).length = raw.length := by
  obtain ⟨parts, length, whole, each⟩ := low.parts raw
  have single : ∀ part ∈ parts, part.length = 1 := by
    intro part mem
    refine (each part mem).resolve_right ?_
    rw [Bool.not_eq_false]
    refine List.all_eq_true.mpr fun c inside => List.all_eq_true.mp ascii c ?_
    rw [whole]
    exact List.mem_flatten.mpr ⟨part, mem, inside⟩
  rw [whole, List.length_flatten, List.map_congr_left single, List.map_const',
    List.sum_replicate_nat, length, Nat.mul_one]

theorem hardenWithin_eq_some (low : CaseMapping)
    (h : hardenWithin low.toLowering maxLen (some raw) = .ok (some path)) :
    Path path ∧ (path.length : Int) ≤ maxLen := by
  rw [hardenWithin_some, Except.ok.injEq] at h
  split at h
  · cases h
  · next within =>
    split at h
    · cases h
    · obtain ⟨rfl, matched⟩ := validateTopic_eq_ok.mp (Fallible.toOption_eq_some.mp h)
      have grammar : Path (low.lower (raw.filter fun c => !isStripped c)) := by
        refine (matchesTopicPattern_iff.mp matched).resolve_right ?_
        rintro ⟨p, _, ended⟩
        -- the line feed would have been in the text, but it was stripped
        have mem : ofChar '\n' ∈ low.lower (raw.filter fun c => !isStripped c) := by
          rw [ended]
          exact List.mem_append_right p List.mem_cons_self
        rcases low.ascii _ _ mem (by decide) with letter | ⟨_, there⟩
        · exact absurd letter (by decide)
        · exact absurd (List.mem_filter.mp there).2 (by decide)
      have length := length_lower low (isAscii_of_path grammar)
      have shorter := List.length_filter_le (fun c => !isStripped c) raw
      exact ⟨grammar, by omega⟩

theorem hardenWithin_path (grammar : Path path) (fits : (path.length : Int) ≤ maxLen) :
    hardenWithin low maxLen (some path) = .ok (some path) := by
  have nonempty := ne_nil_of_path grammar
  have kept : path.filter (fun c => !isStripped c) = path := by
    refine List.filter_eq_self.mpr fun c mem => ?_
    have visible := (visible_of_path grammar c mem).1
    simp only [isStripped, Bool.not_eq_true', Bool.or_eq_false_iff, decide_eq_false_iff_not]
    omega
  have admitted : ¬ (path = [] ∨ maxLen < path.length) := by
    rintro (empty | long)
    · exact nonempty empty
    · omega
  rw [hardenWithin_some, if_neg admitted, kept, if_neg nonempty, validateTopic_path grammar]
  rfl

theorem retracts (low : CaseMapping) (maxLen : Int) (raw : Option PyStr) :
    Retracts low.toLowering maxLen raw := by
  have found : ∀ path, hardenWithin low.toLowering maxLen raw = .ok (some path) →
      Path path ∧ (path.length : Int) ≤ maxLen := by
    intro path h
    cases raw with
    | none => cases h
    | some raw => exact hardenWithin_eq_some low h
  refine ⟨?_, fun path h => ⟨(found path h).1, (found path h).2, fun c mem => ?_⟩, fun path h => ?_⟩
  · cases raw with
    | none => exact ⟨none, rfl⟩
    | some raw => exact ⟨_, hardenWithin_some⟩
  · have visible := (visible_of_path (found path h).1 c mem).1
    simp only [isSpace, isControl, Bool.or_eq_false_iff, Bool.and_eq_false_iff,
      decide_eq_false_iff_not]
    omega
  · exact hardenWithin_path (found path h).1 (found path h).2

/-- `harden_llm_topic_path` returns for every text, a path of the grammar that fits or nothing,
and it leaves the paths that fit as they are. -/
theorem hardenWithin_retracts (low : CaseMapping) (maxLen : Int) (raw : Option PyStr) :
    Retracts low.toLowering maxLen raw ∧
      ∀ path : PyStr, Path path → path.length ≤ maxLen →
        hardenWithin low.toLowering maxLen (some path) = .ok (some path) :=
  ⟨retracts low maxLen raw, fun _ => hardenWithin_path⟩

end Hardened

end ProposedPaths
