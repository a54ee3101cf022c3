import Gubbi.Library.Search
import Gubbi.Text

/-!
# Titles, slugs, topic paths and free text

`validate_title` throws characters away and `slugify` maps what is left to lower
case words, so many titles share a slug. `validate_topic` only lowers its input.
Free text loses its control characters and is rejected when it holds what is left of
a tool call. The regular expressions are written out on code points.
-/

namespace Validation

open Text

def isUpper (c : CodePoint) : Bool := 0x41 ≤ c.val && c.val ≤ 0x5a
def isLower (c : CodePoint) : Bool := 0x61 ≤ c.val && c.val ≤ 0x7a
def isDigit (c : CodePoint) : Bool := 0x30 ≤ c.val && c.val ≤ 0x39

/-- `[a-zA-Z0-9]`. -/
def isAlnum (c : CodePoint) : Bool := isUpper c || isLower c || isDigit c

/-- `[a-zA-Z0-9 _-]`, what `_TITLE_STRIP` leaves. -/
def isTitleChar (c : CodePoint) : Bool :=
  isAlnum c || c = ofChar ' ' || c = ofChar '_' || c = ofChar '-'

/-- `re.sub(r" {2,}", " ", value)`. -/
def collapseSpaces : PyStr → PyStr
  | [] => []
  | [c] => [c]
  | c :: d :: rest =>
    if c = ofChar ' ' ∧ d = ofChar ' ' then collapseSpaces (d :: rest)
    else c :: collapseSpaces (d :: rest)

theorem collapseSpaces_sublist (s : PyStr) : (collapseSpaces s).Sublist s := by
  fun_induction collapseSpaces s with
  | case1 => exact .slnil
  | case2 c => exact .refl _
  | case3 c d rest _ ih => exact ih.cons c
  | case4 c d rest _ ih => exact ih.cons_cons c

/-- `TITLE_PATTERN`: up to 100 title characters, an alphanumeric one at each end. -/
def matchesTitlePattern (value : PyStr) : Bool :=
  value.all isTitleChar && decide (value.length ≤ 100) && value.head?.any isAlnum &&
    value.getLast?.any isAlnum

def validateTitle (value : PyStr) : Except PyError PyStr :=
  let kept := strip ((strip value).filter isTitleChar)
  let title := (collapseSpaces kept).take 100
  if title ≠ [] ∧ matchesTitlePattern title then .ok title
  else .error (.valueError ("Title could not be sanitized to a valid value. " ++
    "Use alphanumeric characters with spaces, hyphens, or underscores."))

theorem titleChars_of_ok {value title : PyStr} (h : validateTitle value = .ok title) :
    ∀ c ∈ title, isTitleChar c = true := by
  rw [validateTitle] at h
  split at h
  · next accepted =>
    cases h
    have pattern := accepted.2
    simp only [matchesTitlePattern, Bool.and_eq_true] at pattern
    exact List.all_eq_true.mp pattern.1.1.1
  · cases h

/-- `str.lower()` on the ASCII titles that `validate_title` returns. -/
def lowerAscii (s : PyStr) : PyStr :=
  s.map (fun c => if h : isUpper c then
    ⟨c.val + 0x20, by simp only [isUpper, Bool.and_eq_true, decide_eq_true_eq] at h; omega⟩ else c)

theorem lowerAscii_of_forall {s : PyStr} (none : ∀ c ∈ s, isUpper c = false) :
    lowerAscii s = s := by
  refine (List.map_congr_left fun c mem => ?_).trans (List.map_id _)
  exact dif_neg (by simp [none c mem])

/-- `SLUG_PATTERN.sub("-", slug)`: each run of other characters becomes one dash. -/
def dashRuns : PyStr → PyStr
  | [] => []
  | c :: rest =>
    if isLower c || isDigit c then c :: dashRuns rest
    else match dashRuns rest with
      | [] => [ofChar '-']
      | d :: tail => if d = ofChar '-' then d :: tail else ofChar '-' :: d :: tail

def slugify (text : PyStr) : PyStr :=
  stripOf (fun c => c = ofChar '-') (dashRuns (strip (lowerAscii text)))

example : validateTitle (py "  Trip: to  Rome! ") = .ok (py "Trip to Rome") := by decide

example : slugify (py "Trip to_Rome - 2") = py "trip-to-rome-2" := by decide

/-- `TOPIC_PATTERN` from a point on: whether a second level may follow, and whether a
word has begun. Its `$` also matches before a last line feed. -/
def topicChars : Bool → Bool → PyStr → Bool
  | _, inWord, [] => inWord
  | slash, inWord, c :: rest =>
    if isLower c || isDigit c then topicChars slash true rest
    else if c = ofChar '-' then inWord && topicChars slash false rest
    else if c = ofChar '/' then slash && inWord && topicChars false false rest
    else c = ofChar '\n' && inWord && rest.isEmpty

def matchesTopicPattern (value : PyStr) : Bool := topicChars true false value

/-- `str.lower()`, which maps some letters outside ASCII into it. -/
structure Lowering where
  lower : PyStr → PyStr
  lower_ascii : ∀ s, isAscii s = true → lower s = lowerAscii s

theorem lowerAscii_ascii (text : PyStr) (_ : isAscii text = true) :
    lowerAscii text = lowerAscii text := rfl

/-- The message of the `ValueError`, or the path. -/
def validateTopic (low : Lowering) (value : PyStr) : Except PyStr PyStr :=
  let value := low.lower value
  if matchesTopicPattern value then .ok value
  else .error (py "Invalid topic '" ++ value ++ py "'. Must be 1-2 levels of " ++
    py "lowercase alphanumeric with hyphens (e.g. 'work/acme').")

/-- A path that a model proposes, without its white space and control characters. -/
def hardenLlmTopicPath (low : Lowering) (raw : Option PyStr) : Option PyStr :=
  match raw with
  | none => none
  | some raw =>
    if raw = [] ∨ 256 < raw.length then none
    else
      let cleaned := raw.filter (fun c => !(c.val ≤ 0x20 || c.val = 0x7f))
      if cleaned = [] then none else (validateTopic low cleaned).toOption

example : matchesTopicPattern (py "work/acme-2\n") = true := by decide

example : matchesTopicPattern (py "work/-acme") = false := by decide

section Topics
variable {slash inWord : Bool} {s path : PyStr} {low : Lowering}

theorem ascii_of_topicChars (h : topicChars slash inWord s = true) :
    ∀ c ∈ s, c.val < 128 ∧ isUpper c = false := by
  have word : ∀ c : CodePoint, (isLower c || isDigit c) = true →
      c.val < 128 ∧ isUpper c = false := by
    intro c hc
    simp only [isLower, isDigit, Bool.or_eq_true, Bool.and_eq_true, decide_eq_true_eq] at hc
    simp only [isUpper, Bool.and_eq_false_iff, decide_eq_false_iff_not]
    omega
  induction s generalizing slash inWord with
  | nil => exact fun c mem => absurd mem List.not_mem_nil
  | cons d rest ih =>
    have first : (d.val < 128 ∧ isUpper d = false) ∧
        ∀ c ∈ rest, c.val < 128 ∧ isUpper c = false := by
      rw [topicChars] at h
      split at h
      · next hword => exact ⟨word d hword, ih h⟩
      · split at h
        · next dash =>
          rw [dash]
          exact ⟨by decide, ih (Bool.and_eq_true_iff.mp h).2⟩
        · split at h
          · next level =>
            rw [level]
            exact ⟨by decide, ih (Bool.and_eq_true_iff.mp h).2⟩
          · simp only [Bool.and_eq_true, decide_eq_true_eq, List.isEmpty_iff] at h
            rw [h.1.1, h.2]
            exact ⟨by decide, fun c mem => absurd mem List.not_mem_nil⟩
    intro c mem
    rcases List.mem_cons.mp mem with rfl | mem
    · exact first.1
    · exact first.2 c mem

/-- A path that was accepted is accepted again as it is. -/
theorem validateTopic_of_ok {value : PyStr} (h : validateTopic low value = .ok path) :
    validateTopic low path = .ok path ∧ path ≠ [] := by
  rw [validateTopic] at h
  split at h
  · next accepted =>
    cases h
    have ascii := ascii_of_topicChars accepted
    have same : low.lower (low.lower value) = low.lower value := by
      rw [low.lower_ascii _ (List.all_eq_true.mpr fun c mem => decide_eq_true (ascii c mem).1)]
      exact lowerAscii_of_forall fun c mem => (ascii c mem).2
    refine ⟨?_, ?_⟩
    · rw [validateTopic, same]
      exact if_pos accepted
    · intro empty
      rw [empty] at accepted
      cases accepted
  · cases h

theorem hardenLlmTopicPath_some {raw : Option PyStr} (h : hardenLlmTopicPath low raw = some path) :
    validateTopic low path = .ok path := by
  have settled : ∀ value, (validateTopic low value).toOption = some path →
      validateTopic low path = .ok path := by
    intro value accepted
    cases valid : validateTopic low value with
    | error e =>
      rw [valid] at accepted
      cases accepted
    | ok found =>
      rw [valid] at accepted
      cases accepted
      exact (validateTopic_of_ok valid).1
  unfold hardenLlmTopicPath at h
  split at h
  · cases h
  · split at h
    · cases h
    · simp only at h
      split at h
      · cases h
      · exact settled _ h

end Topics

/-- `_CONTROL_CHARS`. -/
def isControlChar (c : CodePoint) : Bool :=
  c.val ≤ 0x08 || c.val = 0x0b || c.val = 0x0c || (0x0e ≤ c.val && c.val ≤ 0x1f) || c.val = 0x7f

def sanitizeFreetext (value : PyStr) : PyStr :=
  (value.filter (fun c => !isControlChar c)).take 1000000

/-- `[a-zA-Z0-9 ._-]`, what `_SAFE_LABEL` leaves. -/
def isLabelChar (c : CodePoint) : Bool := isTitleChar c || c = ofChar '.'

def sanitizeLabel (value : PyStr) : PyStr :=
  ((strip (value.filter (fun c => !isControlChar c))).filter isLabelChar).take 50

/-- `\w` of a pattern, on any script. -/
structure Words where
  isWord : CodePoint → Bool
  ascii : ∀ c, c.val < 128 → isWord c = (isAlnum c || c = ofChar '_')
  space : ∀ c, isSpace c = true → isWord c = false

/-- `<parameter\s+name=`. -/
def namedParameter (text : PyStr) : Bool :=
  (py "<parameter").isPrefixOf text && (text.drop 10).head?.any isSpace &&
    (py "name=").isPrefixOf ((text.drop 10).dropWhile isSpace)

/-- `_TOOL_CALL_PATTERNS`; the last one is `<parameter\b`. -/
def toolCallPatterns (words : Words) : List (PyStr → Bool) :=
  [namedParameter, (py "</parameter>").isPrefixOf, Search.bounded words.isWord (py "<parameter")]

/-- The message of the `ValueError`. -/
def rejectToolCallSyntax (words : Words) (text : PyStr) : Except PyStr Unit :=
  if (toolCallPatterns words).any (fun pattern => Search.search pattern text) then
    .error (py "Input contains unparsed tool-call syntax; " ++
      py "client likely failed to emit a valid tool call.")
  else .ok ()

/-- Free of what `sanitize_freetext` removes and of what `reject_tool_call_syntax` matches. -/
def CleanText (words : Words) (text : PyStr) : Prop :=
  text.any isControlChar = false ∧ rejectToolCallSyntax words text = .ok ()

instance (words : Words) (text : PyStr) : Decidable (CleanText words text) :=
  inferInstanceAs (Decidable (_ ∧ _))

section FreeText
variable {words : Words} {text value : PyStr}

theorem sanitizeFreetext_any : (sanitizeFreetext value).any isControlChar = false := by
  refine List.any_eq_false.mpr fun c mem => ?_
  have kept := (List.mem_filter.mp (List.mem_of_mem_take mem)).2
  simpa using kept

/-- A named parameter is found by the last pattern too. -/
theorem bounded_of_namedParameter (h : namedParameter text = true) :
    Search.bounded words.isWord (py "<parameter") text = true := by
  simp only [namedParameter, Bool.and_eq_true] at h
  obtain ⟨⟨start, space⟩, _⟩ := h
  have length : (py "<parameter").length = 10 := by decide
  rw [Search.bounded, start, Bool.true_and, length, Bool.not_eq_true']
  cases next : (text.drop 10).head? with
  | none => rfl
  | some c =>
    rw [next, Option.any_some] at space
    exact words.space c space

theorem rejectToolCallSyntax_ok : rejectToolCallSyntax words text = .ok () ↔
    Search.search (py "</parameter>").isPrefixOf text = false ∧
      Search.search (Search.bounded words.isWord (py "<parameter")) text = false := by
  constructor
  · intro h
    rw [rejectToolCallSyntax] at h
    split at h
    · cases h
    · next unmatched =>
      simp only [toolCallPatterns, List.any_cons, List.any_nil, Bool.or_false, Bool.or_eq_true,
        not_or, Bool.not_eq_true] at unmatched
      exact unmatched.2
  · rintro ⟨closing, opening⟩
    have named : Search.search namedParameter text = false :=
      Search.search_eq_false_of_imp (fun _ => bounded_of_namedParameter) opening
    simp [rejectToolCallSyntax, toolCallPatterns, named, closing, opening]

/-- What the patterns find starts with `<`. -/
theorem rejectToolCallSyntax_of_absent (absent : ofChar '<' ∉ text) :
    rejectToolCallSyntax words text = .ok () := by
  have starts : ∀ (more text : PyStr), (ofChar '<' :: more).isPrefixOf text = true →
      text.head? = some (ofChar '<') := by
    intro more text h
    obtain ⟨rest, rfl⟩ := List.isPrefixOf_iff_prefix.mp h
    rfl
  refine rejectToolCallSyntax_ok.mpr ⟨?_, ?_⟩
  · exact Search.search_eq_false_of_head (fun text => starts (py "/parameter>") text) absent
  · refine Search.search_eq_false_of_head (fun text h => ?_) absent
    exact starts (py "parameter") text (Bool.and_eq_true_iff.mp h).1

/-- White space delimits the two patterns that matter. -/
theorem delimited_patterns (words : Words) :
    Search.Delimited isSpace (py "</parameter>").isPrefixOf ∧
      Search.Delimited isSpace (Search.bounded words.isWord (py "<parameter")) :=
  ⟨Search.delimited_isPrefixOf (by decide) (by decide),
    Search.delimited_bounded (by decide) (by decide) words.space⟩

theorem rejectToolCallSyntax_append {c : CodePoint} (space : isSpace c = true) (rest : PyStr) :
    rejectToolCallSyntax words (text ++ c :: rest) = .ok () ↔
      rejectToolCallSyntax words text = .ok () ∧ rejectToolCallSyntax words rest = .ok () := by
  obtain ⟨closing, opening⟩ := delimited_patterns words
  rw [rejectToolCallSyntax_ok, rejectToolCallSyntax_ok, rejectToolCallSyntax_ok,
    closing.search_append space, opening.search_append space, Bool.or_eq_false_iff,
    Bool.or_eq_false_iff]
  exact and_and_and_comm

theorem rejectToolCallSyntax_strip :
    rejectToolCallSyntax words (strip text) = .ok () ↔
      rejectToolCallSyntax words text = .ok () := by
  obtain ⟨closing, opening⟩ := delimited_patterns words
  have same : ∀ {pattern : PyStr → Bool}, Search.Delimited isSpace pattern →
      Search.search pattern (strip text) = Search.search pattern text := by
    intro pattern d
    exact (d.search_dropWhile_reverse (fun _ h => h) _).trans (d.search_dropWhile (fun _ h => h) _)
  rw [rejectToolCallSyntax_ok, rejectToolCallSyntax_ok, same closing, same opening]

end FreeText

end Validation
