import Gubbi.Journal.Tables
import Gubbi.Titles

/-!
# The grammar of topic paths

`TOPIC_PATTERN` as a language, read off its automaton: one slug or two with a slash between
them, and either may be followed by the line feed that `$` lets through.
-/

namespace TopicPaths

open Text Validation Titles Words JournalTables

/-- One level or two. -/
def Path (s : PyStr) : Prop := Slug s ∨ ∃ a b, Slug a ∧ Slug b ∧ s = a ++ ofChar '/' :: b

/-- What may follow in the pattern: a path, of one level where no slash may come. -/
def Level (slash : Bool) (s : PyStr) : Prop :=
  Slug s ∨ slash = true ∧ ∃ a b, Slug a ∧ Slug b ∧ s = a ++ ofChar '/' :: b

/-- A level and what `$` allows after it. -/
def Matched (slash : Bool) (s : PyStr) : Prop :=
  Level slash s ∨ ∃ p, Level slash p ∧ s = p ++ py "\n"

section Automaton
variable {slash inWord : Bool} {s p : PyStr} {c : CodePoint}

theorem level_true : Level true s ↔ Path s := by simp [Level, Path]

/-- A level goes on to the left, within its first word or with a dash. -/
theorem Level.next (hc : isSlugChar c = true) (h : Level slash s) : Level slash (c :: s) := by
  rcases h with one | ⟨two, a, b, ha, hb, rfl⟩
  · exact Or.inl (.next hc one)
  · exact Or.inr ⟨two, c :: a, b, .next hc ha, hb, rfl⟩

theorem Level.gap (hc : isSlugChar c = true) (h : Level slash s) :
    Level slash (c :: ofChar '-' :: s) := by
  rcases h with one | ⟨two, a, b, ha, hb, rfl⟩
  · exact Or.inl (.gap hc one)
  · exact Or.inr ⟨two, c :: ofChar '-' :: a, b, .gap hc ha, hb, rfl⟩

theorem Matched.next (hc : isSlugChar c = true) (h : Matched slash s) :
    Matched slash (c :: s) := by
  rcases h with level | ⟨p, level, rfl⟩
  · exact Or.inl (level.next hc)
  · exact Or.inr ⟨c :: p, level.next hc, rfl⟩

theorem Matched.gap (hc : isSlugChar c = true) (h : Matched slash s) :
    Matched slash (c :: ofChar '-' :: s) := by
  rcases h with level | ⟨p, level, rfl⟩
  · exact Or.inl (level.gap hc)
  · exact Or.inr ⟨c :: ofChar '-' :: p, level.gap hc, rfl⟩

theorem Matched.second (hc : isSlugChar c = true) (h : Matched false s) :
    Matched true (c :: ofChar '/' :: s) := by
  have two : ∀ p, Level false p → Level true (c :: ofChar '/' :: p) := by
    intro p level
    rcases level with one | ⟨more, _⟩
    · exact Or.inr ⟨rfl, [c], p, .last hc, one, rfl⟩
    · cases more
  rcases h with level | ⟨p, level, rfl⟩
  · exact Or.inl (two s level)
  · exact Or.inr ⟨c :: ofChar '/' :: p, two p level, rfl⟩

/-- What the automaton takes within a word goes on with any word, and what it takes
elsewhere is matched. -/
theorem matched_of_topicChars (s : PyStr) :
    (∀ slash, topicChars slash true s = true →
      ∀ c, isSlugChar c = true → Matched slash (c :: s)) ∧
    ∀ slash, topicChars slash false s = true → Matched slash s := by
  induction s with
  | nil =>
    refine ⟨fun slash _ c hc => Or.inl (Or.inl (.last hc)), fun slash h => ?_⟩
    cases h
  | cons d rest ih =>
    obtain ⟨inside, outside⟩ := ih
    constructor
    · intro slash h c hc
      rw [topicChars] at h
      split at h
      · next word => exact (inside slash h d word).next hc
      · split at h
        · next dash =>
          rw [dash]
          exact (outside slash h).gap hc
        · split at h
          · next level =>
            simp only [Bool.and_true, Bool.and_eq_true] at h
            rw [level, h.1]
            exact (outside false h.2).second hc
          · simp only [Bool.and_true, Bool.and_eq_true, decide_eq_true_eq, List.isEmpty_iff] at h
            rw [h.1, h.2]
            exact Or.inr ⟨[c], Or.inl (.last hc), rfl⟩
    · intro slash h
      rw [topicChars] at h
      split at h
      · next word => exact inside slash h d word
      · split at h
        · cases h
        · split at h
          · simp only [Bool.and_false, Bool.false_and, Bool.false_eq_true] at h
          · simp only [Bool.and_false, Bool.false_and, Bool.false_eq_true] at h

/-- A slug leads from anywhere into a word. -/
theorem topicChars_slug (h : Slug p) (slash inWord : Bool) (rest : PyStr) :
    topicChars slash inWord (p ++ rest) = topicChars slash true rest := by
  induction h generalizing inWord with
  | last hc =>
    rw [List.cons_append, List.nil_append, topicChars]
    exact if_pos hc
  | next hc _ ih =>
    rw [List.cons_append, topicChars, ih]
    exact if_pos hc
  | gap hc more ih =>
    have dash : ¬ (isLower (ofChar '-') || isDigit (ofChar '-')) = true := by decide
    rw [List.cons_append, List.cons_append, topicChars, topicChars, if_neg dash, if_pos rfl,
      Bool.true_and, ih]
    exact if_pos hc

theorem topicChars_of_level (h : Level slash p) (rest : PyStr)
    (ended : ∀ slash, topicChars slash true rest = true) :
    topicChars slash false (p ++ rest) = true := by
  rcases h with one | ⟨two, a, b, ha, hb, rfl⟩
  · rw [topicChars_slug one]
    exact ended slash
  · have level : ¬ (isLower (ofChar '/') || isDigit (ofChar '/')) = true := by decide
    have differs : ofChar '/' ≠ ofChar '-' := by decide
    rw [List.append_assoc, topicChars_slug ha, List.cons_append, topicChars, if_neg level,
      if_neg differs, if_pos rfl, two, topicChars_slug hb]
    exact ended false

/-- The pattern takes the paths, and the paths with a line feed at the end. -/
theorem matchesTopicPattern_iff : matchesTopicPattern s = true ↔
    Path s ∨ ∃ p, Path p ∧ s = p ++ py "\n" := by
  constructor
  · intro h
    have matched := (matched_of_topicChars s).2 true h
    simpa only [Matched, level_true] using matched
  · rintro (path | ⟨p, path, rfl⟩)
    · have accepted := topicChars_of_level (level_true.mpr path) [] fun _ => rfl
      rwa [List.append_nil] at accepted
    · exact topicChars_of_level (level_true.mpr path) (py "\n") fun slash => by cases slash <;> rfl

end Automaton

/-- `validate_topic` decides the grammar on `s`, and the path it returns is plain. -/
def Canonical (low : Lowering) (s : PyStr) : Prop :=
  ((∃ path, validateTopic low s = .ok path) ↔ Path (low.lower s)) ∧
    ∀ path, validateTopic low s = .ok path → path = low.lower s ∧ ofChar '\n' ∉ path ∧
      (∀ c ∈ path, c ∉ py "%_\\!") ∧ validateTopic low path = .ok path

/-- The topic row that an accepted string stands for. -/
def Names (low : Lowering) (db : Tables) (s : PyStr) (id : TopicId) : Prop :=
  ∃ row, (id, row) ∈ db.topics.rows ∧ validateTopic low s = .ok row.path

section Canonical
variable {low : Lowering} {s path : PyStr}

theorem validateTopic_eq_ok : validateTopic low s = .ok path ↔
    path = low.lower s ∧ matchesTopicPattern (low.lower s) = true := by
  constructor
  · intro h
    rw [validateTopic] at h
    split at h
    · next accepted => exact ⟨(Except.ok.inj h).symm, accepted⟩
    · cases h
  · rintro ⟨rfl, accepted⟩
    exact if_pos accepted

theorem Path.mem (h : Path s) :
    ∀ c ∈ s, isSlugChar c = true ∨ c = ofChar '-' ∨ c = ofChar '/' := by
  rcases h with one | ⟨a, b, ha, hb, rfl⟩
  · exact fun c mem => (one.mem c mem).imp_right Or.inl
  · intro c mem
    rcases List.mem_append.mp mem with first | rest
    · exact (ha.mem c first).imp_right Or.inl
    · rcases List.mem_cons.mp rest with rfl | second
      · exact Or.inr (Or.inr rfl)
      · exact (hb.mem c second).imp_right Or.inl

/-- Neither a line feed nor what `LIKE` reads in a special way. -/
theorem Path.plain (h : Path s) : ofChar '\n' ∉ s ∧ ∀ c ∈ s, c ∉ py "%_\\!" := by
  have none : ((py "\n%_\\!").all fun c =>
      !(isSlugChar c || c = ofChar '-' || c = ofChar '/')) = true := by decide
  have other : ∀ c ∈ py "\n%_\\!", ¬ (isSlugChar c = true ∨ c = ofChar '-' ∨ c = ofChar '/') := by
    intro c mem
    simpa [and_assoc] using List.all_eq_true.mp none c mem
  refine ⟨fun mem => other _ List.mem_cons_self (h.mem _ mem), fun c mem special => ?_⟩
  exact other c (List.mem_cons_of_mem _ special) (h.mem c mem)

theorem canonical_iff : Canonical low s ↔ ¬ ∃ p, Path p ∧ low.lower s = p ++ py "\n" := by
  constructor
  · rintro ⟨decides, _⟩ ⟨p, path, ending⟩
    have accepted : matchesTopicPattern (low.lower s) = true :=
      matchesTopicPattern_iff.mpr (Or.inr ⟨p, path, ending⟩)
    have grammar := decides.mp ⟨_, validateTopic_eq_ok.mpr ⟨rfl, accepted⟩⟩
    refine grammar.plain.1 ?_
    rw [ending]
    exact List.mem_append_right _ List.mem_cons_self
  · intro unended
    have grammar : matchesTopicPattern (low.lower s) = true ↔ Path (low.lower s) :=
      matchesTopicPattern_iff.trans (or_iff_left unended)
    refine ⟨⟨fun ⟨path, accepted⟩ => ?_, fun path => ?_⟩, fun path accepted => ?_⟩
    · exact grammar.mp (validateTopic_eq_ok.mp accepted).2
    · exact ⟨_, validateTopic_eq_ok.mpr ⟨rfl, grammar.mpr path⟩⟩
    · obtain ⟨rfl, matched⟩ := validateTopic_eq_ok.mp accepted
      have plain := (grammar.mp matched).plain
      exact ⟨rfl, plain.1, plain.2, (validateTopic_of_ok accepted).1⟩

/-- Two strings that stand for a row stand for the same one when they are lowered alike. -/
theorem names_iff {db : Tables} {other : PyStr} {i j : TopicId} (hi : Names low db s i)
    (hj : Names low db other j) : i = j ↔ low.lower s = low.lower other := by
  obtain ⟨first, memFirst, acceptedFirst⟩ := hi
  obtain ⟨second, memSecond, acceptedSecond⟩ := hj
  rw [← (validateTopic_eq_ok.mp acceptedFirst).1, ← (validateTopic_eq_ok.mp acceptedSecond).1]
  constructor
  · rintro rfl
    have same := List.inj_on_of_nodup_map db.topics.unique memFirst memSecond rfl
    rw [(Prod.mk.inj same).2]
  · intro same
    have row := List.inj_on_of_nodup_map db.paths memFirst memSecond same
    exact (Prod.mk.inj row).1

/-- `validate_topic` decides the grammar on exactly the strings that are not lowered to a path
with a line feed after it, and what it accepts is told apart by lower case alone. -/
theorem validateTopic_grammar (low : Lowering) (s : PyStr) :
    (Canonical low s ↔ ¬ ∃ p, Path p ∧ low.lower s = p ++ py "\n") ∧
      ∀ (db : Tables) (other : PyStr) (i j : TopicId), Names low db s i → Names low db other j →
        (i = j ↔ low.lower s = low.lower other) :=
  ⟨canonical_iff, fun _ _ _ _ hi hj => names_iff hi hj⟩

theorem lineFeed_accepted : ¬ Canonical ⟨lowerAscii, fun _ _ => rfl⟩ (py "work\n") := by
  rintro ⟨_, plain⟩
  have accepted : validateTopic ⟨lowerAscii, fun _ _ => rfl⟩ (py "work\n") = .ok (py "work\n") := by
    decide
  exact (plain _ accepted).2.1 (by decide)

end Canonical

end TopicPaths
