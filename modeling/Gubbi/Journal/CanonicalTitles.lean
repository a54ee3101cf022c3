import Gubbi.Journal.Dates
import Gubbi.Journal.Ingest
import Gubbi.Titles

/-!
# Titles that are saved

A tool validates a title and `save_conversation` validates it again; ingest makes one up from
`created_at` where there is none. Validation is idempotent and so is `slugify`, which makes
the row the same either way.
-/

namespace CanonicalTitles

open Text Validation JournalConversations Ingest Titles Dates

universe u

/-- Clock time on a day, and the offset from UTC in microseconds where there is one. -/
structure Datetime where
  wall : JournalTables.Timestamp
  offset : Option Int
  bounded : ∀ micros, offset = some micros → micros.natAbs < 86400000000

/-- `HH:MM:SS`. -/
def clock (seconds : Nat) : PyStr :=
  JournalTables.padded 2 (seconds / 3600) ++ py ":" ++
    JournalTables.padded 2 (seconds / 60 % 60) ++ py ":" ++ JournalTables.padded 2 (seconds % 60)

/-- Microseconds, left out when there are none. -/
def fraction (micros : Nat) : PyStr :=
  if micros % 1000000 = 0 then [] else py "." ++ JournalTables.padded 6 (micros % 1000000)

/-- `format_utcoffset`: whole minutes leave the seconds out. -/
def formatOffset (micros : Int) : PyStr :=
  (if micros < 0 then py "-" else py "+") ++
    if micros.natAbs % 60000000 = 0 then
      JournalTables.padded 2 (micros.natAbs / 3600000000) ++ py ":" ++
        JournalTables.padded 2 (micros.natAbs / 60000000 % 60)
    else clock (micros.natAbs / 1000000) ++ fraction micros.natAbs

def Datetime.isoformat (created : Datetime) : PyStr :=
  created.wall.date.text ++ py "T" ++ clock (created.wall.micros / 1000000) ++
    fraction created.wall.micros ++ (created.offset.map formatOffset).getD []

section Isoformat
variable {text first second : PyStr}

/-- A text that ends in a digit. -/
def DigitLast (text : PyStr) : Prop := ∃ c, text.getLast? = some c ∧ isDigit c = true

theorem digitLast_append (first : PyStr) (h : DigitLast second) : DigitLast (first ++ second) := by
  obtain ⟨c, last, digit⟩ := h
  exact ⟨c, by rw [List.getLast?_append, last, Option.some_or], digit⟩

theorem digitLast_padded (width n : Nat) : DigitLast (JournalTables.padded (width + 1) n) := by
  obtain ⟨c, digit, _, split⟩ := padded_succ width n
  exact ⟨c, by rw [split, List.getLast?_concat], digit⟩

theorem digitLast_clock (seconds : Nat) : DigitLast (clock seconds) :=
  digitLast_append _ (digitLast_padded 1 _)

theorem digitLast_fraction (micros : Nat) (h : DigitLast first) :
    DigitLast (first ++ fraction micros) := by
  rw [fraction]
  split
  · rwa [List.append_nil]
  · exact digitLast_append _ (digitLast_append _ (digitLast_padded 5 _))

theorem digitLast_offset (micros : Int) : DigitLast (formatOffset micros) := by
  refine digitLast_append _ ?_
  split
  · exact digitLast_append _ (digitLast_padded 1 _)
  · exact digitLast_fraction _ (digitLast_clock _)

theorem digitLast_isoformat (created : Datetime) : DigitLast created.isoformat := by
  have clockLast : DigitLast (created.wall.date.text ++ py "T" ++
      clock (created.wall.micros / 1000000) ++ fraction created.wall.micros) :=
    digitLast_fraction _ (digitLast_append _ (digitLast_clock _))
  rw [Datetime.isoformat]
  cases created.offset with
  | none => rwa [Option.map_none, Option.getD_none, List.append_nil]
  | some micros => exact digitLast_append _ (digitLast_offset micros)

theorem length_clock (seconds : Nat) : (clock seconds).length = 8 := by
  simp [clock, JournalTables.length_padded, py]

theorem length_fraction (micros : Nat) : (fraction micros).length ≤ 7 := by
  rw [fraction]
  split
  · exact Nat.zero_le 7
  · simp [JournalTables.length_padded, py]

theorem length_offset (micros : Int) : (formatOffset micros).length ≤ 16 := by
  have parts := length_clock (micros.natAbs / 1000000)
  have more := length_fraction micros.natAbs
  have sign : (if micros < 0 then py "-" else py "+").length = 1 := by split <;> rfl
  rw [formatOffset, List.length_append, sign]
  split
  · simp [JournalTables.length_padded, py]
  · rw [List.length_append]
    omega

theorem length_isoformat (created : Datetime) : created.isoformat.length ≤ 42 := by
  have parts := length_clock (created.wall.micros / 1000000)
  have more := length_fraction created.wall.micros
  have day : (created.wall.date.text ++ py "T").length = 11 := by
    simp [JournalTables.Date.text, JournalTables.Date.monthText, JournalTables.length_padded, py]
  rw [Datetime.isoformat, List.length_append, List.length_append, List.length_append, day]
  cases created.offset with
  | none =>
    rw [Option.map_none, Option.getD_none, List.length_nil]
    omega
  | some micros =>
    have last := length_offset micros
    rw [Option.map_some, Option.getD_some]
    omega

end Isoformat

theorem validateTitle_fallback (created : Datetime) :
    ∃ title, validateTitle (py "Conversation " ++ created.isoformat) = .ok title := by
  obtain ⟨c, last, digit⟩ := digitLast_append (py "Conversation ") (digitLast_isoformat created)
  have alnum : isAlnum c = true := by rw [isAlnum, digit, Bool.or_true]
  have short := length_isoformat created
  have name : (py "Conversation ").length = 13 := rfl
  refine validateTitle_of_ends ⟨⟨ofChar 'C', rfl, by decide⟩, c, last, alnum⟩ ?_
  rw [List.length_append, name]
  omega

/-- Ingest has a title for every payload. -/
theorem ingestTitle_isOk (payload : ConversationPayload) (created : Datetime) :
    ∃ title, ingestTitle { payload with createdAt := created.isoformat } = .ok title := by
  rw [ingestTitle]
  cases validateTitle payload.title with
  | ok title => exact ⟨title, rfl⟩
  | error e => exact validateTitle_fallback created

section Saved
variable {E : Type u} {value title : PyStr}

/-- A conversation is saved alike under a title and under what that is validated to. -/
theorem saveConversation_validated (h : validateTitle value = .ok title) (db : JournalDb E)
    (topic : PyStr) (messages : List Message) (summary source : PyStr) (tags : List PyStr)
    (date : PyStr) : saveConversation db topic title messages summary source tags date =
      saveConversation db topic value messages summary source tags date := by
  rw [saveConversation, saveConversation, h, validateTitle_of_ok h]

/-- What `validate_title` returns is a fixed point with a slug that is one too, so validating
twice saves the same row; and the title ingest falls back to is always accepted. -/
theorem titles_canonical (h : validateTitle value = .ok title) (created : Datetime) :
    (1 ≤ title.length ∧ title.length ≤ 100) ∧ (∀ c ∈ title, isTitleChar c = true) ∧
      AlnumEnds title ∧ validateTitle title = .ok title ∧ slugify title ≠ [] ∧
      Slug (slugify title) ∧ slugify (slugify title) = slugify title ∧
      (∀ (db : JournalDb E) topic messages summary source tags date,
        saveConversation db topic title messages summary source tags date =
          saveConversation db topic value messages summary source tags date) ∧
      (∃ fallback, validateTitle (py "Conversation " ++ created.isoformat) = .ok fallback) ∧
      ∀ payload : ConversationPayload,
        ∃ saved, ingestTitle { payload with createdAt := created.isoformat } = .ok saved := by
  have slug := slug_of_title h
  obtain ⟨cut, ends⟩ := validateTitle_eq_ok.mp h
  have short : title.length ≤ 100 := by
    rw [cut]
    exact List.length_take_le _ _
  have nonempty : 1 ≤ title.length := by
    obtain ⟨⟨c, head, _⟩, _⟩ := ends
    exact List.length_pos_of_mem (List.mem_of_head? head)
  exact ⟨⟨nonempty, short⟩, titleChars_of_ok h, ends, validateTitle_of_ok h, slug.ne_nil, slug,
    slugify_of_slug slug, saveConversation_validated h, validateTitle_fallback created,
    fun payload => ingestTitle_isOk payload created⟩

end Saved

theorem sampleDate_valid : (1 ≤ 2026 ∧ 2026 ≤ 9999) ∧ (1 ≤ 2 ∧ 2 ≤ 12) ∧ 1 ≤ 28 ∧
    28 ≤ JournalTables.daysInMonth 2026 2 := by decide

theorem sampleOffset_bounded (micros : Int) (h : some 19800000000 = some micros) :
    micros.natAbs < 86400000000 := by
  obtain rfl := Option.some.inj h
  decide

theorem sampleWall_valid : 36672000123 < 86400000000 := by decide

/-- Half an hour off the hour, with microseconds. -/
def sampleCreated : Datetime :=
  ⟨⟨⟨2026, 2, 28, sampleDate_valid⟩, 36672000123, sampleWall_valid⟩, some 19800000000,
    sampleOffset_bounded⟩

example : sampleCreated.isoformat = py "2026-02-28T10:11:12.000123+05:30" := by decide +kernel

theorem titles_canonical_sample :
    validateTitle (py " Trip: to  Rome! ") = .ok (py "Trip to Rome") ∧
      validateTitle (py "Trip to Rome") = .ok (py "Trip to Rome") ∧
      Slug (slugify (py "Trip to Rome")) := by
  have accepted : validateTitle (py " Trip: to  Rome! ") = .ok (py "Trip to Rome") := by decide
  obtain ⟨_, _, _, again, _, slug, _⟩ := titles_canonical (E := Unit) accepted sampleCreated
  exact ⟨accepted, again, slug⟩

end CanonicalTitles
