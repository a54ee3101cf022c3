import Mathlib.Data.List.Basic

/-!
# Event streams

The text format of server-sent events. A reader goes through the complete lines of the
stream: a line of the field `data` is collected, an empty line dispatches what was collected,
and a line that begins with a colon is a comment. A writer that sends one line of data or one
comment at a time, each with an empty line behind it, is understood entry by entry.
-/

namespace EventStream

/-- The complete lines of a text; they end with LF, with CR or with both. -/
def completeLines (afterCR : Bool) (line : List Char) : List Char → List (List Char)
  | [] => []
  | c :: rest =>
    if c = '\n' then
      if afterCR then completeLines false [] rest else line :: completeLines false [] rest
    else if c = '\r' then line :: completeLines true [] rest
    else completeLines false (line ++ [c]) rest

/-- Name and value of the field of a line; one space behind the colon is no part of it. -/
def field (line : List Char) : List Char × List Char :=
  let value := (line.dropWhile (· ≠ ':')).drop 1
  (line.takeWhile (· ≠ ':'), if value.head? = some ' ' then value.drop 1 else value)

/-- The data that the lines dispatch; `collected` ends with LF unless it is empty. -/
def dispatch (collected : List Char) : List (List Char) → List (List Char)
  | [] => []
  | line :: rest =>
    if line = [] then
      if collected = [] then dispatch [] rest else collected.dropLast :: dispatch [] rest
    else if (field line).1 = "data".toList then
      dispatch (collected ++ (field line).2 ++ ['\n']) rest
    else dispatch collected rest

def parse (text : List Char) : List (List Char) := dispatch [] (completeLines false [] text)

theorem completeLines_prefix (afterCR : Bool) (line front rest : List Char) :
    completeLines afterCR line front <+: completeLines afterCR line (front ++ rest) := by
  induction front generalizing afterCR line with
  | nil => exact List.nil_prefix
  | cons c front ih =>
    rw [List.cons_append, completeLines, completeLines]
    split
    · split
      · exact ih false []
      · exact (List.prefix_cons_inj line).mpr (ih false [])
    · split
      · exact (List.prefix_cons_inj line).mpr (ih true [])
      · exact ih false (line ++ [c])

theorem dispatch_prefix (collected : List Char) (front rest : List (List Char)) :
    dispatch collected front <+: dispatch collected (front ++ rest) := by
  induction front generalizing collected with
  | nil => exact List.nil_prefix
  | cons line front ih =>
    rw [List.cons_append, dispatch, dispatch]
    split
    · split
      · exact ih []
      · exact (List.prefix_cons_inj _).mpr (ih [])
    · split
      · exact ih _
      · exact ih collected

/-- A reader that has a part of the stream has dispatched the first of its events. -/
theorem parse_prefix {front text : List Char} (part : front <+: text) :
    parse front <+: parse text := by
  obtain ⟨rest, rfl⟩ := part
  obtain ⟨lines, split⟩ := completeLines_prefix false [] front rest
  rw [parse, parse, ← split]
  exact dispatch_prefix [] _ lines

inductive Entry
  | data (text : List Char)
  | comment (text : List Char)
  deriving DecidableEq

def Entry.text : Entry → List Char
  | .data text => text
  | .comment text => text

def Entry.data? : Entry → Option (List Char)
  | .data text => some text
  | .comment _ => none

def Entry.line : Entry → List Char
  | .data text => "data: ".toList ++ text
  | .comment text => ": ".toList ++ text

/-- The line of an entry, and an empty one. -/
def Entry.render (entry : Entry) : List Char := entry.line ++ "\n\n".toList

def OneLine (text : List Char) : Prop := ∀ c ∈ text, c ≠ '\n' ∧ c ≠ '\r'

instance (text : List Char) : Decidable (OneLine text) := List.decidableBAll _ text

theorem oneLine_append {front text : List Char} (first : OneLine front) (rest : OneLine text) :
    OneLine (front ++ text) :=
  fun c mem => (List.mem_append.mp mem).elim (first c) (rest c)

theorem Entry.oneLine_line {entry : Entry} (oneLine : OneLine entry.text) :
    OneLine entry.line := by
  cases entry with
  | data text => exact oneLine_append (by decide) oneLine
  | comment text => exact oneLine_append (by decide) oneLine

theorem completeLines_append {text : List Char} (oneLine : OneLine text) (line rest : List Char) :
    completeLines false line (text ++ '\n' :: rest) =
      (line ++ text) :: completeLines false [] rest := by
  induction text generalizing line with
  | nil => simp [completeLines]
  | cons c text ih =>
    obtain ⟨notLF, notCR⟩ := oneLine c List.mem_cons_self
    have later := ih (fun d mem => oneLine d (List.mem_cons_of_mem c mem)) (line ++ [c])
    rw [List.cons_append, completeLines, if_neg notLF, if_neg notCR, later, List.append_assoc]
    rfl

theorem completeLines_render {entry : Entry} (oneLine : OneLine entry.text) (rest : List Char) :
    completeLines false [] (entry.render ++ rest) =
      entry.line :: [] :: completeLines false [] rest := by
  rw [Entry.render, List.append_assoc]
  exact completeLines_append (Entry.oneLine_line oneLine) [] ('\n' :: rest)

theorem field_data (text : List Char) : field (Entry.data text).line = ("data".toList, text) := by
  simp [field, Entry.line]

theorem field_comment (text : List Char) : (field (Entry.comment text).line).1 = [] := by
  simp [field, Entry.line]

theorem line_ne_nil (entry : Entry) : entry.line ≠ [] := by
  cases entry <;> simp [Entry.line]

/-- The reader gets the data of the entries, one dispatch for each. -/
theorem parse_render {entries : List Entry} (oneLine : ∀ entry ∈ entries, OneLine entry.text) :
    parse (entries.flatMap Entry.render) = entries.filterMap Entry.data? := by
  induction entries with
  | nil => rfl
  | cons entry entries ih =>
    have later := ih fun other mem => oneLine other (List.mem_cons_of_mem entry mem)
    rw [parse] at later
    rw [List.flatMap_cons, parse, completeLines_render (oneLine entry List.mem_cons_self), dispatch,
      if_neg (line_ne_nil entry)]
    cases entry with
    | data text =>
      show _ = text :: entries.filterMap Entry.data?
      simp [field_data, dispatch, later]
    | comment text =>
      show _ = entries.filterMap Entry.data?
      simp [field_comment, dispatch, later]

end EventStream
