import Gubbi.Library.Words
import Gubbi.Validation

/-!
# Titles and slugs

What `validate_title` accepts, as a condition on the text before the cut at 100 code points,
and the form of a slug. The cut is the one step after which nothing is stripped again.
-/

namespace Titles

open Text Validation Words

section Collapse
variable {s : PyStr}

theorem head_collapseSpaces (s : PyStr) : (collapseSpaces s).head? = s.head? := by
  fun_induction collapseSpaces s with
  | case1 => rfl
  | case2 c => rfl
  | case3 c d rest spaces ih => rw [ih, List.head?_cons, List.head?_cons, spaces.1, spaces.2]
  | case4 c d rest _ ih => rfl

theorem getLast_collapseSpaces (s : PyStr) : (collapseSpaces s).getLast? = s.getLast? := by
  fun_induction collapseSpaces s with
  | case1 => rfl
  | case2 c => rfl
  | case3 c d rest spaces ih => rw [ih, List.getLast?_cons_cons]
  | case4 c d rest _ ih => rw [List.getLast?_cons, ih, ← List.getLast?_cons]

theorem noDouble_collapseSpaces (s : PyStr) : NoDouble (ofChar ' ') (collapseSpaces s) := by
  fun_induction collapseSpaces s with
  | case1 => exact .nil
  | case2 c => exact .singleton c
  | case3 c d rest _ ih => exact ih
  | case4 c d rest apart ih =>
    refine List.isChain_cons.mpr ⟨fun e head => ?_, ih⟩
    rw [head_collapseSpaces, List.head?_cons] at head
    obtain rfl := Option.some.inj head
    exact fun first second => apart ⟨first, second⟩

theorem collapseSpaces_of_noDouble (h : NoDouble (ofChar ' ') s) : collapseSpaces s = s := by
  fun_induction collapseSpaces s with
  | case1 => rfl
  | case2 c => rfl
  | case3 c d rest spaces ih => exact absurd spaces.2 ((List.isChain_cons_cons.mp h).1 spaces.1)
  | case4 c d rest _ ih => rw [ih (List.isChain_cons_cons.mp h).2]

end Collapse

/-- The title before it is cut to 100 code points. -/
def salvage (value : PyStr) : PyStr :=
  collapseSpaces (strip ((strip value).filter isTitleChar))

/-- A letter or digit of ASCII at each end. -/
def AlnumEnds (s : PyStr) : Prop :=
  (∃ c, s.head? = some c ∧ isAlnum c = true) ∧ ∃ c, s.getLast? = some c ∧ isAlnum c = true

section Accepted
variable {value title : PyStr}

theorem isTitleChar_salvage : ∀ c ∈ salvage value, isTitleChar c = true := by
  intro c mem
  have kept := stripOf_within.subset ((collapseSpaces_sublist _).subset mem)
  exact (List.mem_filter.mp kept).2

theorem any_isAlnum {c : Option CodePoint} :
    c.any isAlnum = true ↔ ∃ d, c = some d ∧ isAlnum d = true := by
  cases c <;> simp

theorem validateTitle_eq_ok : validateTitle value = .ok title ↔
    title = (salvage value).take 100 ∧ AlnumEnds title := by
  have chars : ((salvage value).take 100).all isTitleChar = true :=
    List.all_eq_true.mpr fun c mem => isTitleChar_salvage c (List.mem_of_mem_take mem)
  have short : decide (((salvage value).take 100).length ≤ 100) = true :=
    decide_eq_true (List.length_take_le _ _)
  have pattern : matchesTitlePattern ((salvage value).take 100) = true ↔
      AlnumEnds ((salvage value).take 100) := by
    rw [matchesTitlePattern, chars, short, Bool.true_and, Bool.true_and, Bool.and_eq_true,
      any_isAlnum, any_isAlnum]
    rfl
  constructor
  · intro h
    rw [Validation.validateTitle] at h
    split at h
    · next accepted =>
      obtain rfl := Except.ok.inj h
      exact ⟨rfl, pattern.mp accepted.2⟩
    · cases h
  · rintro ⟨rfl, ends⟩
    have nonempty : (salvage value).take 100 ≠ [] := by
      intro empty
      obtain ⟨⟨c, head, _⟩, _⟩ := ends
      rw [empty] at head
      cases head
    exact if_pos ⟨nonempty, pattern.mpr ends⟩

theorem not_isSpace_of_isAlnum {c : CodePoint} (h : isAlnum c = true) : isSpace c = false := by
  simp only [isAlnum, isUpper, isLower, isDigit, isSpace, Bool.or_eq_true, Bool.and_eq_true,
    decide_eq_true_eq, Bool.or_eq_false_iff, Bool.and_eq_false_iff, decide_eq_false_iff_not] at h ⊢
  omega

theorem strip_of_alnumEnds (ends : AlnumEnds value) : strip value = value := by
  obtain ⟨⟨first, hfirst, alnum⟩, last, hlast, alnum'⟩ := ends
  refine stripOf_eq_self (fun c head => ?_) (fun c tail => ?_)
  · rw [hfirst] at head
    obtain rfl := Option.some.inj head
    exact not_isSpace_of_isAlnum alnum
  · rw [hlast] at tail
    obtain rfl := Option.some.inj tail
    exact not_isSpace_of_isAlnum alnum'

/-- Letters and digits at the ends stay there. -/
theorem alnumEnds_salvage (ends : AlnumEnds value) : AlnumEnds (salvage value) := by
  have titled : ∀ c, isAlnum c = true → isTitleChar c = true := by
    intro c h
    rw [isTitleChar, h, Bool.true_or, Bool.true_or, Bool.true_or]
  have filtered : AlnumEnds (value.filter isTitleChar) := by
    obtain ⟨⟨first, hfirst, alnum⟩, last, hlast, alnum'⟩ := ends
    constructor
    · obtain ⟨rest, rfl⟩ := List.head?_eq_some_iff.mp hfirst
      exact ⟨first, by rw [List.filter_cons_of_pos (titled first alnum)]; rfl, alnum⟩
    · obtain ⟨front, rfl⟩ := List.getLast?_eq_some_iff.mp hlast
      refine ⟨last, ?_, alnum'⟩
      rw [List.filter_append, List.filter_cons_of_pos (titled last alnum'), List.filter_nil,
        List.getLast?_append]
      rfl
  rw [salvage, strip_of_alnumEnds ends, strip_of_alnumEnds filtered, AlnumEnds,
    head_collapseSpaces, getLast_collapseSpaces]
  exact filtered

theorem length_salvage (value : PyStr) : (salvage value).length ≤ value.length :=
  ((collapseSpaces_sublist _).length_le.trans stripOf_within.length_le).trans
    ((List.length_filter_le _ _).trans stripOf_within.length_le)

/-- The last code point of a title is the hundredth where there is one. -/
theorem alnumEnds_take (ends : AlnumEnds (salvage value)) :
    AlnumEnds ((salvage value).take 100) ↔
      (salvage value).length ≤ 100 ∨ ∃ c, (salvage value)[99]? = some c ∧ isAlnum c = true := by
  obtain ⟨first, last, hlast, alnum⟩ := ends
  rw [AlnumEnds, List.head?_take, if_neg (by decide), List.getLast?_take, if_neg (by decide)]
  refine (and_iff_right first).trans ?_
  cases hundredth : (salvage value)[99]? with
  | none =>
    have short : (salvage value).length ≤ 99 := List.getElem?_eq_none_iff.mp hundredth
    rw [Option.none_or]
    exact iff_of_true ⟨last, hlast, alnum⟩ (Or.inl (by omega))
  | some c =>
    rw [Option.some_or]
    constructor
    · exact Or.inr
    · rintro (exact | found)
      · -- the hundredth is the last one
        have long := (List.getElem?_eq_some_iff.mp hundredth).1
        have whole : (salvage value).length - 1 = 99 := by omega
        rw [List.getLast?_eq_getElem?, whole, hundredth] at hlast
        exact ⟨last, hlast, alnum⟩
      · exact found

/-- `validate_title` keeps what can be salvaged exactly when the cut leaves a letter or digit
at the end. -/
theorem validateTitle_salvages_iff (value : PyStr) :
    (AlnumEnds (salvage value) →
        ∃ title, validateTitle value = .ok title ∧ title.length ≤ 100 ∧ title <+: salvage value) ↔
      (AlnumEnds (salvage value) → (salvage value).length ≤ 100 ∨
        ∃ c, (salvage value)[99]? = some c ∧ isAlnum c = true) := by
  constructor
  · intro h ends
    obtain ⟨title, accepted, _, _⟩ := h ends
    obtain ⟨rfl, cut⟩ := validateTitle_eq_ok.mp accepted
    exact (alnumEnds_take ends).mp cut
  · intro h ends
    have cut := (alnumEnds_take ends).mpr (h ends)
    exact ⟨(salvage value).take 100, validateTitle_eq_ok.mpr ⟨rfl, cut⟩,
      List.length_take_le _ _, List.take_prefix _ _⟩

/-- A short text with letters or digits at its ends makes a title. -/
theorem validateTitle_of_ends (ends : AlnumEnds value) (short : value.length ≤ 100) :
    ∃ title, validateTitle value = .ok title :=
  ⟨_, validateTitle_eq_ok.mpr ⟨rfl, (alnumEnds_take (alnumEnds_salvage ends)).mpr
    (Or.inl ((length_salvage value).trans short))⟩⟩

/-- A title is its own title. -/
theorem validateTitle_of_ok (h : validateTitle value = .ok title) :
    validateTitle title = .ok title := by
  obtain ⟨cut, ends⟩ := validateTitle_eq_ok.mp h
  have chars : ∀ c ∈ title, isTitleChar c = true := titleChars_of_ok h
  have apart : NoDouble (ofChar ' ') title := by
    rw [cut]
    exact (noDouble_collapseSpaces _).take 100
  have kept : salvage title = title := by
    rw [salvage, strip_of_alnumEnds ends, List.filter_eq_self.mpr chars, strip_of_alnumEnds ends,
      collapseSpaces_of_noDouble apart]
  have short : title.length ≤ 100 := by
    rw [cut]
    exact List.length_take_le _ _
  refine validateTitle_eq_ok.mpr ⟨?_, ends⟩
  rw [kept, List.take_of_length_le short]

end Accepted

/-- A title of 101 code points whose hundredth is a blank. -/
def longTitle : PyStr := List.replicate 99 (ofChar 'a') ++ py " b"

theorem longTitle_rejected :
    ¬ (AlnumEnds (salvage longTitle) → ∃ title, validateTitle longTitle = .ok title ∧
      title.length ≤ 100 ∧ title <+: salvage longTitle) := by
  intro h
  have ends : AlnumEnds (salvage longTitle) :=
    ⟨⟨ofChar 'a', by decide +kernel, by decide⟩, ofChar 'b', by decide +kernel, by decide⟩
  obtain ⟨title, accepted, _⟩ := h ends
  have rejected : (validateTitle longTitle).isOk = false := by decide +kernel
  rw [accepted] at rejected
  cases rejected

/-- `[a-z0-9]`. -/
def isSlugChar (c : CodePoint) : Bool := isLower c || isDigit c

/-- `[a-z0-9]+(-[a-z0-9]+)*`. -/
abbrev Slug (s : PyStr) : Prop := Joined isSlugChar (ofChar '-') s

section Slugs
variable {s text : PyStr} {c : CodePoint}

theorem ne_dash (h : isSlugChar c = true) : c ≠ ofChar '-' := by
  rintro rfl
  exact absurd h (by decide)

/-- A run of other code points is one dash, however it goes on. -/
theorem dashRuns_eq (s : PyStr) : dashRuns s = replaceRuns isSlugChar (ofChar '-') s := by
  induction s with
  | nil => rfl
  | cons c rest ih =>
    by_cases word : isSlugChar c = true
    · have same : (isLower c || isDigit c) = true := word
      rw [dashRuns, replaceRuns, if_pos same, if_pos word, ih]
    · have other : ¬ (isLower c || isDigit c) = true := word
      rw [dashRuns, replaceRuns, if_neg other, if_neg word, ih]
      cases next : rest.head?.all isSlugChar with
      | false =>
        obtain ⟨tail, runs⟩ := List.head?_eq_some_iff.mp (@head_replaceRuns_of_other _ _
          (ofChar '-') _ next)
        simp [runs]
      | true =>
        have head := @head_replaceRuns _ _ (ofChar '-') _ next
        cases rest with
        | nil => rfl
        | cons d tail =>
          obtain ⟨more, runs⟩ := List.head?_eq_some_iff.mp head
          rw [List.head?_cons, Option.all_some] at next
          simp [runs, ne_dash next]

theorem mem_dashRuns (h : isSlugChar c = true) : c ∈ dashRuns s ↔ c ∈ s := by
  rw [dashRuns_eq]
  exact mem_replaceRuns (by decide) h

theorem forall_mem_dashRuns (s : PyStr) :
    ∀ c ∈ dashRuns s, isSlugChar c = true ∨ c = ofChar '-' := by
  rw [dashRuns_eq]
  exact forall_mem_replaceRuns s

theorem noDouble_dashRuns (s : PyStr) : NoDouble (ofChar '-') (dashRuns s) := by
  rw [dashRuns_eq]
  exact noDouble_replaceRuns (by decide) s

/-- What is left of the runs without the dashes at the ends. -/
theorem slug_of_stripped (h : stripOf (fun c => c = ofChar '-') (dashRuns s) ≠ []) :
    Slug (stripOf (fun c => c = ofChar '-') (dashRuns s)) := by
  have single : NoDouble (ofChar '-') (stripOf (fun c => c = ofChar '-') (dashRuns s)) :=
    List.IsChain.infix (noDouble_dashRuns s) stripOf_within
  refine joined_of_noDouble h (fun c mem => forall_mem_dashRuns s c (stripOf_within.subset mem))
    single (fun c head => ?_) (fun c last => ?_)
  · obtain ⟨rest, hrest⟩ := List.head?_eq_some_iff.mp head
    exact of_decide_eq_false (head_stripOf hrest)
  · exact of_decide_eq_false (last_stripOf last)

/-- A slug has no other dashes to collapse. -/
theorem dashRuns_of_slug (h : Slug s) : dashRuns s = s := by
  rw [dashRuns_eq]
  exact replaceRuns_of_noDouble h.mem (h.noDouble (by decide))

theorem slugChar_plain (h : isSlugChar c = true ∨ c = ofChar '-') :
    isUpper c = false ∧ isSpace c = false := by
  have dash : (ofChar '-').val = 0x2d := rfl
  simp only [isSlugChar, isUpper, isLower, isDigit, isSpace, Bool.or_eq_true, Bool.and_eq_true,
    decide_eq_true_eq, Bool.or_eq_false_iff, Bool.and_eq_false_iff, decide_eq_false_iff_not,
    Fin.ext_iff] at h ⊢
  omega

/-- A slug is its own slug. -/
theorem slugify_of_slug (h : Slug s) : slugify s = s := by
  have plain := fun c mem => slugChar_plain (h.mem c mem)
  have lowered : lowerAscii s = s := lowerAscii_of_forall fun c mem => (plain c mem).1
  have stripped : strip s = s := stripOf_of_forall fun c mem => (plain c mem).2
  rw [slugify, lowered, stripped, dashRuns_of_slug h]
  refine stripOf_eq_self (fun c head => ?_) (fun c last => ?_)
  · obtain ⟨rest, rfl⟩ := List.head?_eq_some_iff.mp head
    exact decide_eq_false (ne_dash h.head)
  · exact decide_eq_false (ne_dash (h.getLast c last))

/-- The slug of a text with a letter or digit. -/
theorem slug_slugify (mem : c ∈ lowerAscii text) (word : isSlugChar c = true) :
    Slug (slugify text) := by
  have kept : c ∈ stripOf (fun c => c = ofChar '-') (dashRuns (strip (lowerAscii text))) := by
    refine (mem_stripOf (decide_eq_false (ne_dash word))).mpr ((mem_dashRuns word).mpr ?_)
    exact (mem_stripOf (slugChar_plain (Or.inl word)).2).mpr mem
  exact slug_of_stripped (List.ne_nil_of_mem kept)

theorem exists_slugChar (mem : c ∈ s) (alnum : isAlnum c = true) :
    ∃ d ∈ lowerAscii s, isSlugChar d = true := by
  refine ⟨_, List.mem_map.mpr ⟨c, mem, rfl⟩, ?_⟩
  split
  · next upper =>
    simp only [isUpper, Bool.and_eq_true, decide_eq_true_eq] at upper
    simp only [isSlugChar, isLower, Bool.or_eq_true, Bool.and_eq_true, decide_eq_true_eq]
    omega
  · next lower =>
    rw [Bool.not_eq_true] at lower
    rwa [isAlnum, lower, Bool.false_or] at alnum

theorem slug_of_title {value title : PyStr} (h : validateTitle value = .ok title) :
    Slug (slugify title) := by
  obtain ⟨_, ⟨c, head, alnum⟩, _⟩ := validateTitle_eq_ok.mp h
  obtain ⟨d, mem, word⟩ := exists_slugChar (List.mem_of_head? head) alnum
  exact slug_slugify mem word

theorem strip_lowerAscii (s : PyStr) : strip (lowerAscii s) = lowerAscii (strip s) := by
  have kept : ∀ c : CodePoint, isSpace (if h : isUpper c then
      ⟨c.val + 0x20, by simp only [isUpper, Bool.and_eq_true, decide_eq_true_eq] at h; omega⟩
      else c) = isSpace c := by
    intro c
    split
    · next upper =>
      rw [Bool.eq_iff_iff]
      simp only [isUpper, isSpace, Bool.and_eq_true, Bool.or_eq_true, decide_eq_true_eq] at upper ⊢
      omega
    · rfl
  simp only [strip, stripOf, lowerAscii, List.dropWhile_map, Function.comp_def, kept,
    ← List.map_reverse]

theorem dashRuns_congr {rest rest' : PyStr} (same : dashRuns rest = dashRuns rest')
    (c : CodePoint) : dashRuns (c :: rest) = dashRuns (c :: rest') := by
  rw [dashRuns, dashRuns, same]

theorem dashRuns_spaces (rest : PyStr) :
    dashRuns (ofChar ' ' :: ofChar ' ' :: rest) = dashRuns (ofChar ' ' :: rest) := by
  have other : ¬ isSlugChar (ofChar ' ') = true := by decide
  rw [dashRuns_eq, dashRuns_eq, replaceRuns, if_neg other, List.head?_cons, Option.all_some,
    if_neg other]

/-- Spaces that are collapsed were one dash already. -/
theorem dashRuns_collapseSpaces (s : PyStr) :
    dashRuns (lowerAscii (collapseSpaces s)) = dashRuns (lowerAscii s) := by
  fun_induction collapseSpaces s with
  | case1 => rfl
  | case2 c => rfl
  | case3 c d rest spaces ih =>
    obtain ⟨rfl, rfl⟩ := spaces
    exact ih.trans (dashRuns_spaces (lowerAscii rest)).symm
  | case4 c d rest _ ih => exact dashRuns_congr ih _

/-- A text of title characters that is not cut has the slug of its title. -/
theorem slugify_of_titleChars {value title : PyStr} (chars : ∀ c ∈ value, isTitleChar c = true)
    (short : value.length ≤ 100) (h : validateTitle value = .ok title) :
    slugify title = slugify value := by
  obtain ⟨cut, ends⟩ := validateTitle_eq_ok.mp h
  have whole : title = salvage value := by
    rw [cut, List.take_of_length_le ((length_salvage value).trans short)]
  have permitted : (strip value).filter isTitleChar = strip value :=
    List.filter_eq_self.mpr fun c mem => chars c (stripOf_within.subset mem)
  have collapsed : title = collapseSpaces (strip value) := by
    rw [whole, salvage, permitted]
    exact congrArg collapseSpaces stripOf_stripOf
  have runs : dashRuns (strip (lowerAscii title)) = dashRuns (strip (lowerAscii value)) := by
    rw [strip_lowerAscii, strip_of_alnumEnds ends, collapsed, dashRuns_collapseSpaces,
      strip_lowerAscii]
  rw [slugify, runs, slugify]

end Slugs

end Titles
