import Gubbi.Journal.Conversations
import Gubbi.Library.Replay

/-!
# Archive files of saved conversations

`save_conversation` reads the old `json_path`, writes a file under a new name and
upserts the row, all before its transaction commits; the caller deletes the
superseded file afterwards, or never. Any number of saves run side by side. The
upsert locks its row until the end of the transaction, and what it finds is what
is committed by then; the read of the old path came earlier and may be stale.

The file of a row is found by the last component of its `json_path`.
-/

namespace Archives

open Text Validation JournalConversations

def slash : CodePoint := ofChar '/'

/-- `str(uuid4())`. -/
structure FileId where
  text : PyStr
  plain : slash ∉ text
  deriving DecidableEq

/-- The path that `_write_conversation_json` returns. -/
def jsonPath (fileId : FileId) : PyStr := py "conversations_json/" ++ fileId.text ++ py ".json"

/-- The name it writes the file under. -/
def fileName (fileId : FileId) : PyStr := fileId.text ++ py ".json"

def splitSlash : PyStr → List PyStr
  | [] => [[]]
  | c :: rest =>
    if c = slash then [] :: splitSlash rest
    else
      match splitSlash rest with
      | [] => [[c]]
      | part :: parts => (c :: part) :: parts

/-- `Path(path).name`: empty components and dots do not count. -/
def pathName (path : PyStr) : PyStr :=
  ((splitSlash path).filter (fun part => part ≠ [] ∧ part ≠ py ".")).getLast?.getD []

theorem splitSlash_ne_nil (path : PyStr) : splitSlash path ≠ [] := by
  cases path with
  | nil => simp [splitSlash]
  | cons c rest =>
    rw [splitSlash]
    split
    · simp
    · split <;> simp

theorem splitSlash_plain {name : PyStr} (plain : slash ∉ name) : splitSlash name = [name] := by
  induction name with
  | nil => rfl
  | cons c rest ih =>
    simp only [List.mem_cons, not_or] at plain
    obtain ⟨hc, hrest⟩ := plain
    simp only [splitSlash, if_neg (Ne.symm hc), ih hrest]

theorem splitSlash_append (dir name : PyStr) :
    splitSlash (dir ++ slash :: name) = splitSlash dir ++ splitSlash name := by
  induction dir with
  | nil => simp [splitSlash]
  | cons c rest ih =>
    rw [List.cons_append, splitSlash, splitSlash, ih]
    by_cases hc : c = slash
    · simp only [if_pos hc, List.cons_append]
    · simp only [if_neg hc]
      cases hrest : splitSlash rest with
      | nil => exact absurd hrest (splitSlash_ne_nil rest)
      | cons part parts => rfl

theorem slash_not_mem_fileName (fileId : FileId) : slash ∉ fileName fileId := by
  have suffix : slash ∉ py ".json" := by decide
  simp only [fileName, List.mem_append, not_or]
  exact ⟨fileId.plain, suffix⟩

/-- Deleting by the name of the path that was returned hits the file that was
written. -/
theorem pathName_jsonPath (fileId : FileId) : pathName (jsonPath fileId) = fileName fileId := by
  have directory : py "conversations_json/" = py "conversations_json" ++ [slash] := by decide
  have path : jsonPath fileId = py "conversations_json" ++ slash :: fileName fileId := by
    rw [jsonPath, fileName, directory, List.append_assoc, List.append_assoc]
    rfl
  have long : 5 ≤ (fileName fileId).length := by
    rw [fileName, List.length_append]
    exact Nat.le_add_left _ _
  have kept : fileName fileId ≠ [] ∧ fileName fileId ≠ py "." := by
    constructor
    · intro empty
      rw [empty] at long
      revert long
      decide
    · intro dot
      rw [dot] at long
      revert long
      decide
  rw [pathName, path, splitSlash_append, splitSlash_plain (slash_not_mem_fileName fileId),
    List.filter_append, List.filter_cons_of_pos (by simpa using kept)]
  simp

theorem fileName_injective {a b : FileId} (same : fileName a = fileName b) : a = b := by
  obtain ⟨a, _⟩ := a
  obtain ⟨b, _⟩ := b
  have text : a = b := List.append_cancel_right same
  subst text
  rfl

theorem jsonPath_injective {a b : FileId} (same : jsonPath a = jsonPath b) : a = b := by
  apply fileName_injective
  rw [← pathName_jsonPath, ← pathName_jsonPath, same]

theorem jsonPath_ne_nil (fileId : FileId) : jsonPath fileId ≠ [] := by
  simp [jsonPath, py]

abbrev Key := TopicId × PyStr
abbrev SaveId := Nat

/-- What a committed row of `conversations` shows, with its rows of `messages`. -/
structure Row where
  jsonPath : Option PyStr
  messages : List Message

inductive Phase
  | preRead
  | archived
  | upserted (isUpdate : Bool)
  | committed (superseded : Option PyStr)
  | returned (superseded : Option PyStr)
  | rolledBack
  deriving DecidableEq

/-- One call of `save_conversation` and its caller. -/
structure Save where
  key : Key
  messages : List Message
  fileId : FileId
  oldJsonPath : Option PyStr
  phase : Phase

structure State where
  rows : Table Key Row
  files : Table PyStr (List Message)
  saves : Table SaveId Save

def initial : State := ⟨Table.empty, Table.empty, Table.empty⟩

/-- The row it writes. -/
def Save.row (save : Save) : Row := ⟨some (Archives.jsonPath save.fileId), save.messages⟩

def Save.at (save : Save) (phase : Phase) : Save := { save with phase := phase }

@[simp] theorem Save.at_key (save : Save) (phase : Phase) : (save.at phase).key = save.key := rfl

/-- The transaction is open and the file is on disk. -/
def Phase.pending : Phase → Bool
  | .archived => true
  | .upserted _ => true
  | _ => false

def Phase.locks : Phase → Bool
  | .upserted _ => true
  | _ => false

/-- The transaction has committed. -/
def Phase.published : Phase → Bool
  | .committed _ => true
  | .returned _ => true
  | _ => false

/-- `superseded_json_path`, as the caller of a committed save has it. -/
def Phase.superseded : Phase → Option PyStr
  | .committed superseded => superseded
  | .returned superseded => superseded
  | _ => none

def Phase.over : Phase → Bool
  | .returned _ => true
  | .rolledBack => true
  | _ => false

theorem not_published_of_pending {phase : Phase} (pending : phase.pending = true) :
    phase.published = false := by
  cases phase with
  | preRead => cases pending
  | archived => rfl
  | upserted isUpdate => rfl
  | committed superseded => cases pending
  | returned superseded => cases pending
  | rolledBack => cases pending

/-- A value of `uuid4` that has been drawn before. -/
def State.drawn (s : State) (fileId : FileId) : Bool :=
  s.saves.rows.any (fun row => row.2.fileId = fileId)

/-- Another transaction holds the row, or the place in the unique index. -/
def State.locked (s : State) (key : Key) : Bool :=
  s.saves.rows.any (fun row => row.2.phase.locks && row.2.key = key)

def State.jsonPathAt (s : State) (key : Key) : Option PyStr := (s.rows.get key).bind Row.jsonPath

def supersededJsonPath (isUpdate : Bool) (oldJsonPath : Option PyStr) (path : PyStr) :
    Option PyStr :=
  if isUpdate then oldJsonPath.filter (fun old => old ≠ [] ∧ old ≠ path) else none

def deleteSupersededJsonArchive (files : Table PyStr (List Message)) (path : PyStr) :
    Table PyStr (List Message) :=
  files.erase (pathName path)

inductive Action
  | preRead (id : SaveId) (topicId : TopicId) (title : PyStr) (messages : List Message)
      (fileId : FileId)
  | writeJson (id : SaveId)
  | upsert (id : SaveId)
  | commit (id : SaveId)
  | rollback (id : SaveId)
  | deleteSuperseded (id : SaveId)

/-- The save goes on to a phase. -/
def State.move (s : State) (id : SaveId) (save : Save) (phase : Phase) : State :=
  { s with saves := s.saves.put id (save.at phase) }

/-- The pre-check reads what is committed. The new name is drawn with it: nothing
looks at the name before the file is written. -/
def State.preRead (s : State) (id : SaveId) (topicId : TopicId) (title : PyStr)
    (messages : List Message) (fileId : FileId) : State :=
  let key : Key := (topicId, slugify title)
  { s with saves := s.saves.put id ⟨key, messages, fileId, s.jsonPathAt key, .preRead⟩ }

def State.writeJson (s : State) (id : SaveId) (save : Save) : State :=
  { s.move id save .archived with files := s.files.put (fileName save.fileId) save.messages }

def State.commit (s : State) (id : SaveId) (save : Save) (isUpdate : Bool) : State :=
  let superseded := supersededJsonPath isUpdate save.oldJsonPath (jsonPath save.fileId)
  { s.move id save (.committed superseded) with rows := s.rows.put save.key save.row }

def State.deleteSuperseded (s : State) (id : SaveId) (save : Save) (superseded : Option PyStr) :
    State :=
  { s.move id save (.returned superseded) with
    files :=
      match superseded with
      | some path => deleteSupersededJsonArchive s.files path
      | none => s.files }

def step (s : State) : Action → Option State
  | .preRead id topicId title messages fileId =>
    if s.saves.get id = none ∧ s.drawn fileId = false then
      some (s.preRead id topicId title messages fileId)
    else none
  | .writeJson id =>
    (s.saves.get id).bind fun save =>
      if save.phase = .preRead then some (s.writeJson id save) else none
  | .upsert id =>
    (s.saves.get id).bind fun save =>
      if save.phase = .archived ∧ s.locked save.key = false then
        some (s.move id save (.upserted (s.rows.get save.key).isSome))
      else none
  | .commit id =>
    (s.saves.get id).bind fun save =>
      match save.phase with
      | .upserted isUpdate => some (s.commit id save isUpdate)
      | _ => none
  | .rollback id =>
    (s.saves.get id).bind fun save =>
      if save.phase.published = false ∧ save.phase.over = false then
        some (s.move id save .rolledBack)
      else none
  | .deleteSuperseded id =>
    (s.saves.get id).bind fun save =>
      match save.phase with
      | .committed superseded => some (s.deleteSuperseded id save superseded)
      | _ => none

section Inversion
variable {s t : State} {id : SaveId}

theorem step_preRead {topicId : TopicId} {title : PyStr} {messages : List Message}
    {fileId : FileId} : step s (.preRead id topicId title messages fileId) = some t ↔
    (s.saves.get id = none ∧ s.drawn fileId = false) ∧
      t = s.preRead id topicId title messages fileId :=
  Replay.guarded_eq_some

theorem step_writeJson : step s (.writeJson id) = some t ↔
    ∃ save, s.saves.get id = some save ∧ save.phase = .preRead ∧ t = s.writeJson id save := by
  simp only [step, Option.bind_eq_some_iff, Replay.guarded_eq_some]

theorem step_upsert : step s (.upsert id) = some t ↔
    ∃ save, s.saves.get id = some save ∧ (save.phase = .archived ∧ s.locked save.key = false) ∧
      t = s.move id save (.upserted (s.rows.get save.key).isSome) := by
  simp only [step, Option.bind_eq_some_iff, Replay.guarded_eq_some]

theorem step_commit (enabled : step s (.commit id) = some t) :
    ∃ save isUpdate, s.saves.get id = some save ∧ save.phase = .upserted isUpdate ∧
      t = s.commit id save isUpdate := by
  obtain ⟨save, hsave, enabled⟩ := Option.bind_eq_some_iff.mp enabled
  cases hphase : save.phase with
  | upserted isUpdate =>
    simp only [hphase, Option.some.injEq] at enabled
    exact ⟨save, isUpdate, hsave, hphase, enabled.symm⟩
  | preRead => simp [hphase] at enabled
  | archived => simp [hphase] at enabled
  | committed superseded => simp [hphase] at enabled
  | returned superseded => simp [hphase] at enabled
  | rolledBack => simp [hphase] at enabled

theorem step_rollback : step s (.rollback id) = some t ↔
    ∃ save, s.saves.get id = some save ∧
      (save.phase.published = false ∧ save.phase.over = false) ∧
      t = s.move id save .rolledBack := by
  simp only [step, Option.bind_eq_some_iff, Replay.guarded_eq_some]

theorem step_deleteSuperseded (enabled : step s (.deleteSuperseded id) = some t) :
    ∃ save superseded, s.saves.get id = some save ∧ save.phase = .committed superseded ∧
      t = s.deleteSuperseded id save superseded := by
  obtain ⟨save, hsave, enabled⟩ := Option.bind_eq_some_iff.mp enabled
  cases hphase : save.phase with
  | committed superseded =>
    simp only [hphase, Option.some.injEq] at enabled
    exact ⟨save, superseded, hsave, hphase, enabled.symm⟩
  | preRead => simp [hphase] at enabled
  | archived => simp [hphase] at enabled
  | upserted isUpdate => simp [hphase] at enabled
  | returned superseded => simp [hphase] at enabled
  | rolledBack => simp [hphase] at enabled

theorem not_drawn {fileId : FileId} (fresh : s.drawn fileId = false) {save : Save}
    (hsave : s.saves.get id = some save) : save.fileId ≠ fileId := by
  intro same
  have member := Table.get_eq_some_iff.mp hsave
  simp only [State.drawn, List.any_eq_false, decide_eq_true_eq] at fresh
  exact fresh (id, save) member same

theorem not_locked {key : Key} (free : s.locked key = false) {save : Save}
    (hsave : s.saves.get id = some save) (locks : save.phase.locks = true) : save.key ≠ key := by
  intro same
  have member := Table.get_eq_some_iff.mp hsave
  simp only [State.locked, List.any_eq_false, Bool.and_eq_true, decide_eq_true_eq] at free
  exact free (id, save) member ⟨locks, same⟩

end Inversion

/-- A transaction that put the file in a row of the key has committed. -/
def Published (s : State) (key : Key) (fileId : FileId) : Prop :=
  ∃ id save, s.saves.get id = some save ∧ save.phase.published = true ∧ save.key = key ∧
    save.fileId = fileId

/-- A published file leaves its row once and for all, which is why the stale read
of a path can do no harm: the path is published, so the row either still has it,
and the commit takes it away, or will never have it again. -/
structure Sound (s : State) : Prop where
  ownFile : ∀ {a b A B}, s.saves.get a = some A → s.saves.get b = some B →
    A.fileId = B.fileId → a = b
  rows : ∀ {key row}, s.rows.get key = some row →
    ∃ fileId, row.jsonPath = some (jsonPath fileId) ∧ Published s key fileId
  live : ∀ {key row path}, s.rows.get key = some row → row.jsonPath = some path →
    s.files.get (pathName path) = some row.messages
  pending : ∀ {id save}, s.saves.get id = some save → save.phase.pending = true →
    s.files.get (fileName save.fileId) = some save.messages
  read : ∀ {id save path}, s.saves.get id = some save → save.oldJsonPath = some path →
    ∃ fileId, path = jsonPath fileId ∧ Published s save.key fileId
  superseded : ∀ {id save path}, s.saves.get id = some save →
    save.phase.superseded = some path → save.oldJsonPath = some path ∧
      s.jsonPathAt save.key ≠ some path

/-- One save has gone on to a phase. -/
def Moved (s t : State) (id : SaveId) (save : Save) (phase : Phase) : Prop :=
  s.saves.get id = some save ∧ t.saves = s.saves.put id (save.at phase)

section Moves
variable {s t : State} {id : SaveId} {save : Save} {phase : Phase}

theorem Moved.self (moved : Moved s t id save phase) :
    t.saves.get id = some (save.at phase) := by
  rw [moved.2, Table.get_put_self]

theorem Moved.other (moved : Moved s t id save phase) {a : SaveId} (hne : a ≠ id) :
    t.saves.get a = s.saves.get a := by
  rw [moved.2, Table.get_put_ne _ _ hne]

/-- Every save was there before, and only its phase may have changed. -/
theorem Moved.origin (moved : Moved s t id save phase) {a : SaveId} {A : Save}
    (hA : t.saves.get a = some A) :
    (a = id ∧ A = save.at phase) ∨ (a ≠ id ∧ s.saves.get a = some A) := by
  rw [moved.2] at hA
  exact Table.get_put_eq_some hA

theorem Moved.before (moved : Moved s t id save phase) {a : SaveId} {A : Save}
    (hA : t.saves.get a = some A) :
    ∃ B, s.saves.get a = some B ∧ A.key = B.key ∧ A.fileId = B.fileId ∧
      A.messages = B.messages ∧ A.oldJsonPath = B.oldJsonPath := by
  rcases moved.origin hA with ⟨rfl, rfl⟩ | ⟨_, hA⟩
  · exact ⟨save, moved.1, rfl, rfl, rfl, rfl⟩
  · exact ⟨A, hA, rfl, rfl, rfl, rfl⟩

theorem Moved.published (moved : Moved s t id save phase)
    (keeps : save.phase.published = true → phase.published = true) {key : Key}
    {fileId : FileId} (was : Published s key fileId) : Published t key fileId := by
  obtain ⟨a, A, hA, hphase, hkey, hfile⟩ := was
  by_cases ha : a = id
  · subst ha
    have same : save = A := Option.some.inj (moved.1.symm.trans hA)
    subst same
    exact ⟨a, save.at phase, moved.self, keeps hphase, hkey, hfile⟩
  · exact ⟨a, A, (moved.other ha).trans hA, hphase, hkey, hfile⟩

end Moves

section Facts
variable {s : State} (sound : Sound s)
include sound

theorem Sound.published_key {key key' : Key} {fileId : FileId} (h : Published s key fileId)
    (h' : Published s key' fileId) : key = key' := by
  obtain ⟨a, A, hA, _, rfl, hfile⟩ := h
  obtain ⟨b, B, hB, _, rfl, hfile'⟩ := h'
  have same : a = b := sound.ownFile hA hB (hfile.trans hfile'.symm)
  subst same
  exact congrArg Save.key (Option.some.inj (hA.symm.trans hB))

/-- The file of an open transaction is in no row and is read by nobody. -/
theorem Sound.not_published {id : SaveId} {save : Save} (hsave : s.saves.get id = some save)
    (uncommitted : save.phase.published = false) {key : Key} {fileId : FileId}
    (h : Published s key fileId) : fileId ≠ save.fileId := by
  rintro rfl
  obtain ⟨a, A, hA, hphase, _, hfile⟩ := h
  have same : a = id := sound.ownFile hA hsave hfile
  subst same
  have same : A = save := Option.some.inj (hA.symm.trans hsave)
  subst same
  rw [uncommitted] at hphase
  cases hphase

theorem Sound.jsonPathAt {key : Key} {path : PyStr} (h : s.jsonPathAt key = some path) :
    ∃ fileId, path = Archives.jsonPath fileId ∧ Published s key fileId := by
  obtain ⟨row, hrow, hpath⟩ := Option.bind_eq_some_iff.mp h
  obtain ⟨fileId, hfile, published⟩ := sound.rows hrow
  exact ⟨fileId, Option.some.inj (hpath.symm.trans hfile), published⟩

end Facts

section Frames
variable {s t : State} {id : SaveId} {save : Save} {phase : Phase}

theorem Sound.ownFile_moved (sound : Sound s) (moved : Moved s t id save phase)
    {a b : SaveId} {A B : Save} (hA : t.saves.get a = some A) (hB : t.saves.get b = some B)
    (same : A.fileId = B.fileId) : a = b := by
  obtain ⟨A', oldA, _, fileA, _⟩ := moved.before hA
  obtain ⟨B', oldB, _, fileB, _⟩ := moved.before hB
  exact sound.ownFile oldA oldB (fileA.symm.trans (same.trans fileB))

theorem Sound.read_moved (sound : Sound s) (moved : Moved s t id save phase)
    (keeps : save.phase.published = true → phase.published = true) {a : SaveId} {A : Save}
    {path : PyStr} (hA : t.saves.get a = some A) (hpath : A.oldJsonPath = some path) :
    ∃ fileId, path = Archives.jsonPath fileId ∧ Published t A.key fileId := by
  obtain ⟨B, oldB, hkey, _, _, hold⟩ := moved.before hA
  rw [hold] at hpath
  obtain ⟨fileId, hfile, published⟩ := sound.read oldB hpath
  rw [hkey]
  exact ⟨fileId, hfile, moved.published keeps published⟩

end Frames

theorem Sound.initial : Sound initial where
  ownFile := fun hA => by cases hA
  rows := fun hrow => by cases hrow
  live := fun hrow => by cases hrow
  pending := fun hsave => by cases hsave
  read := fun hsave => by cases hsave
  superseded := fun hsave => by cases hsave

theorem Sound.preRead {s : State} (sound : Sound s) {id : SaveId} {topicId : TopicId}
    {title : PyStr} {messages : List Message} {fileId : FileId}
    (unused : s.saves.get id = none) (fresh : s.drawn fileId = false) :
    Sound (s.preRead id topicId title messages fileId) := by
  have kept : ∀ {key file}, Published s key file →
      Published (s.preRead id topicId title messages fileId) key file := by
    rintro key file ⟨a, A, hA, published⟩
    exact ⟨a, A, Table.get_put_of_absent _ unused hA, published⟩
  constructor
  · intro a b A B hA hB hfile
    rcases Table.get_put_eq_some hA with ⟨rfl, rfl⟩ | ⟨_, oldA⟩
    · rcases Table.get_put_eq_some hB with ⟨rfl, _⟩ | ⟨_, oldB⟩
      · rfl
      · exact absurd hfile.symm (not_drawn fresh oldB)
    · rcases Table.get_put_eq_some hB with ⟨rfl, rfl⟩ | ⟨_, oldB⟩
      · exact absurd hfile (not_drawn fresh oldA)
      · exact sound.ownFile oldA oldB hfile
  · intro key row hrow
    obtain ⟨file, hpath, published⟩ := sound.rows hrow
    exact ⟨file, hpath, kept published⟩
  · exact sound.live
  · intro a A hA hpending
    rcases Table.get_put_eq_some hA with ⟨rfl, rfl⟩ | ⟨_, oldA⟩
    · cases hpending
    · exact sound.pending oldA hpending
  · intro a A path hA hpath
    rcases Table.get_put_eq_some hA with ⟨rfl, rfl⟩ | ⟨_, oldA⟩
    · obtain ⟨file, hfile, published⟩ := sound.jsonPathAt hpath
      exact ⟨file, hfile, kept published⟩
    · obtain ⟨file, hfile, published⟩ := sound.read oldA hpath
      exact ⟨file, hfile, kept published⟩
  · intro a A path hA hpath
    rcases Table.get_put_eq_some hA with ⟨rfl, rfl⟩ | ⟨_, oldA⟩
    · cases hpath
    · exact sound.superseded oldA hpath

/-- What a step that writes no row has to show: the files that rows and open
transactions rely on are still there. -/
theorem Sound.quiet {s t : State} {id : SaveId} {save : Save} {phase : Phase} (sound : Sound s)
    (moved : Moved s t id save phase) (rows : t.rows = s.rows)
    (keeps : save.phase.published = true → phase.published = true)
    (target : ∀ path, phase.superseded = some path → save.phase.superseded = some path)
    (live : ∀ key fileId, Published s key fileId → s.jsonPathAt key = some (jsonPath fileId) →
      t.files.get (fileName fileId) = s.files.get (fileName fileId))
    (own : phase.pending = true → t.files.get (fileName save.fileId) = some save.messages)
    (others : ∀ a A, a ≠ id → s.saves.get a = some A → A.phase.pending = true →
      t.files.get (fileName A.fileId) = s.files.get (fileName A.fileId)) : Sound t := by
  have pathAt : ∀ key, t.jsonPathAt key = s.jsonPathAt key := by
    intro key
    rw [State.jsonPathAt, State.jsonPathAt, rows]
  constructor
  · exact sound.ownFile_moved moved
  · intro key row hrow
    rw [rows] at hrow
    obtain ⟨file, hpath, published⟩ := sound.rows hrow
    exact ⟨file, hpath, moved.published keeps published⟩
  · intro key row path hrow hpath
    rw [rows] at hrow
    obtain ⟨file, hfile, published⟩ := sound.rows hrow
    have same : path = jsonPath file := Option.some.inj (hpath.symm.trans hfile)
    subst same
    have now : s.jsonPathAt key = some (jsonPath file) := by
      rw [State.jsonPathAt, hrow]
      exact hfile
    have content := sound.live hrow hpath
    rw [pathName_jsonPath] at content ⊢
    rw [live key file published now, content]
  · intro a A hA hpending
    rcases moved.origin hA with ⟨rfl, rfl⟩ | ⟨hne, oldA⟩
    · exact own hpending
    · rw [others a A hne oldA hpending]
      exact sound.pending oldA hpending
  · exact sound.read_moved moved keeps
  · intro a A path hA hpath
    rw [pathAt]
    rcases moved.origin hA with ⟨rfl, rfl⟩ | ⟨_, oldA⟩
    · have was := sound.superseded moved.1 (target path hpath)
      exact was
    · exact sound.superseded oldA hpath

/-- The file is written while nothing refers to it. -/
theorem Sound.writeJson {s : State} (sound : Sound s) {id : SaveId} {save : Save}
    (hsave : s.saves.get id = some save) (hphase : save.phase = .preRead) :
    Sound (s.writeJson id save) := by
  have moved : Moved s (s.writeJson id save) id save .archived := ⟨hsave, rfl⟩
  have uncommitted : save.phase.published = false := by
    rw [hphase]
    rfl
  refine sound.quiet moved rfl ?_ ?_ ?_ ?_ ?_
  · intro published
    rw [uncommitted] at published
    cases published
  · intro path hpath
    cases hpath
  · intro key fileId published _
    have hne := sound.not_published hsave uncommitted published
    exact Table.get_put_ne _ _ (fun same => hne (fileName_injective same))
  · intro _
    exact Table.get_put_self _ _ _
  · intro a A hne hA _
    refine Table.get_put_ne _ _ ?_
    intro same
    exact hne (sound.ownFile hA hsave (fileName_injective same))

theorem Sound.upsert {s : State} (sound : Sound s) {id : SaveId} {save : Save}
    (hsave : s.saves.get id = some save) (hphase : save.phase = .archived) (isUpdate : Bool) :
    Sound (s.move id save (.upserted isUpdate)) := by
  have moved : Moved s (s.move id save (.upserted isUpdate)) id save (.upserted isUpdate) :=
    ⟨hsave, rfl⟩
  refine sound.quiet moved rfl ?_ ?_ ?_ ?_ ?_
  · intro published
    rw [hphase] at published
    cases published
  · intro path hpath
    cases hpath
  · exact fun _ _ _ _ => rfl
  · intro _
    exact sound.pending hsave (by rw [hphase]; rfl)
  · exact fun _ _ _ _ _ => rfl

/-- The row of a rolled back save is the old one, and nothing has deleted the
file of that. -/
theorem Sound.rollback {s : State} (sound : Sound s) {id : SaveId} {save : Save}
    (hsave : s.saves.get id = some save) (uncommitted : save.phase.published = false) :
    Sound (s.move id save .rolledBack) := by
  have moved : Moved s (s.move id save .rolledBack) id save .rolledBack := ⟨hsave, rfl⟩
  refine sound.quiet moved rfl ?_ ?_ ?_ ?_ ?_
  · intro published
    rw [uncommitted] at published
    cases published
  · intro path hpath
    cases hpath
  · exact fun _ _ _ _ => rfl
  · intro hpending
    cases hpending
  · exact fun _ _ _ _ _ => rfl

/-- The file that is deleted is published, so no open transaction owns it, and it
has left its row. -/
theorem Sound.deleteSuperseded {s : State} (sound : Sound s) {id : SaveId} {save : Save}
    {superseded : Option PyStr} (hsave : s.saves.get id = some save)
    (hphase : save.phase = .committed superseded) :
    Sound (s.deleteSuperseded id save superseded) := by
  have moved : Moved s (s.deleteSuperseded id save superseded) id save (.returned superseded) :=
    ⟨hsave, rfl⟩
  have target : save.phase.superseded = superseded := by
    rw [hphase]
    rfl
  -- the file is that of a published save of the same key
  have deleted : ∀ path, superseded = some path → ∃ fileId, path = jsonPath fileId ∧
      Published s save.key fileId ∧ s.jsonPathAt save.key ≠ some path := by
    intro path hpath
    obtain ⟨hold, gone⟩ := sound.superseded hsave (target.trans hpath)
    obtain ⟨fileId, hfile, published⟩ := sound.read hsave hold
    exact ⟨fileId, hfile, published, gone⟩
  -- and every other name is left alone
  have spares : ∀ other, (∀ fileId, Published s save.key fileId →
      s.jsonPathAt save.key ≠ some (jsonPath fileId) → other ≠ fileId) →
      (s.deleteSuperseded id save superseded).files.get (fileName other) =
        s.files.get (fileName other) := by
    intro other differs
    cases hsup : superseded with
    | none => rfl
    | some path =>
      obtain ⟨fileId, rfl, published, gone⟩ := deleted path hsup
      have hne := differs fileId published gone
      show (s.files.erase (pathName (jsonPath fileId))).get (fileName other) = _
      rw [pathName_jsonPath, Table.get_erase, if_neg (fun same => hne (fileName_injective same))]
  refine sound.quiet moved rfl ?_ ?_ ?_ ?_ ?_
  · exact fun _ => rfl
  · intro path hpath
    exact target.trans hpath
  · intro key other published now
    refine spares other ?_
    rintro fileId published' gone rfl
    have same := sound.published_key published published'
    subst same
    exact gone now
  · intro hpending
    cases hpending
  · intro a A _ hA hpending
    refine spares A.fileId ?_
    intro fileId published _
    exact (sound.not_published hA (not_published_of_pending hpending) published).symm

theorem supersededJsonPath_eq_some {isUpdate : Bool} {old : Option PyStr} {path new : PyStr} :
    supersededJsonPath isUpdate old new = some path ↔
      isUpdate = true ∧ old = some path ∧ path ≠ [] ∧ path ≠ new := by
  cases isUpdate with
  | true => simp [supersededJsonPath, Option.filter_eq_some_iff]
  | false => simp [supersededJsonPath]

theorem jsonPathAt_commit (s : State) (id : SaveId) (save : Save) (isUpdate : Bool) (key : Key) :
    (s.commit id save isUpdate).jsonPathAt key =
      if key = save.key then some (jsonPath save.fileId) else s.jsonPathAt key := by
  show ((s.rows.put save.key save.row).get key).bind Row.jsonPath = _
  rw [Table.get_put]
  split
  · rfl
  · rfl

/-- The new file takes the place of whatever the row has at the commit, and every
path that was read before, stale or not, is the path of some other file. -/
theorem Sound.commit {s : State} (sound : Sound s) {id : SaveId} {save : Save} {isUpdate : Bool}
    (hsave : s.saves.get id = some save) (hphase : save.phase = .upserted isUpdate) :
    Sound (s.commit id save isUpdate) := by
  have moved : Moved s (s.commit id save isUpdate) id save (.committed (supersededJsonPath
      isUpdate save.oldJsonPath (jsonPath save.fileId))) := ⟨hsave, rfl⟩
  have uncommitted : save.phase.published = false := by
    rw [hphase]
    rfl
  have keeps : ∀ {key fileId}, Published s key fileId →
      Published (s.commit id save isUpdate) key fileId :=
    moved.published (fun _ => rfl)
  constructor
  · exact sound.ownFile_moved moved
  · intro key row hrow
    rcases Table.get_put_eq_some hrow with ⟨rfl, rfl⟩ | ⟨_, oldRow⟩
    · exact ⟨save.fileId, rfl, id, _, moved.self, rfl, rfl, rfl⟩
    · obtain ⟨file, hfile, published⟩ := sound.rows oldRow
      exact ⟨file, hfile, keeps published⟩
  · intro key row path hrow hpath
    rcases Table.get_put_eq_some hrow with ⟨rfl, rfl⟩ | ⟨_, oldRow⟩
    · have same : jsonPath save.fileId = path := Option.some.inj hpath
      rw [← same, pathName_jsonPath]
      exact sound.pending hsave (by rw [hphase]; rfl)
    · exact sound.live oldRow hpath
  · intro a A hA hpending
    rcases moved.origin hA with ⟨rfl, rfl⟩ | ⟨_, oldA⟩
    · cases hpending
    · exact sound.pending oldA hpending
  · exact sound.read_moved moved (fun _ => rfl)
  · intro a A path hA hpath
    rw [jsonPathAt_commit]
    rcases moved.origin hA with ⟨rfl, rfl⟩ | ⟨_, oldA⟩
    · obtain ⟨_, hold, _, hne⟩ := supersededJsonPath_eq_some.mp hpath
      refine ⟨hold, ?_⟩
      rw [Save.at_key, if_pos rfl]
      exact fun same => hne (Option.some.inj same).symm
    · obtain ⟨hold, gone⟩ := sound.superseded oldA hpath
      refine ⟨hold, ?_⟩
      by_cases hkey : A.key = save.key
      · rw [if_pos hkey]
        obtain ⟨file, rfl, published⟩ := sound.read oldA hold
        have hne := sound.not_published hsave uncommitted published
        exact fun same => hne (jsonPath_injective (Option.some.inj same)).symm
      · rw [if_neg hkey]
        exact gone

theorem Sound.step {s t : State} (sound : Sound s) (action : Action)
    (enabled : step s action = some t) : Sound t := by
  cases action with
  | preRead id topicId title messages fileId =>
    obtain ⟨⟨unused, fresh⟩, rfl⟩ := step_preRead.mp enabled
    exact sound.preRead unused fresh
  | writeJson id =>
    obtain ⟨save, hsave, hphase, rfl⟩ := step_writeJson.mp enabled
    exact sound.writeJson hsave hphase
  | upsert id =>
    obtain ⟨save, hsave, ⟨hphase, _⟩, rfl⟩ := step_upsert.mp enabled
    exact sound.upsert hsave hphase _
  | commit id =>
    obtain ⟨save, isUpdate, hsave, hphase, rfl⟩ := step_commit enabled
    exact sound.commit hsave hphase
  | rollback id =>
    obtain ⟨save, hsave, ⟨uncommitted, _⟩, rfl⟩ := step_rollback.mp enabled
    exact sound.rollback hsave uncommitted
  | deleteSuperseded id =>
    obtain ⟨save, superseded, hsave, hphase, rfl⟩ := step_deleteSuperseded enabled
    exact sound.deleteSuperseded hsave hphase

theorem sound_of_run {s : State} {acts : List Action}
    (ran : Replay.run step initial acts = some s) : Sound s :=
  Replay.run_invariant' (fun _ action _ sound => sound.step action) Sound.initial ran

/-- Every committed row names a file that exists and holds the messages of the
row, in every state that any interleaving of saves and deletions reaches. -/
theorem archive_of_row {s : State} {acts : List Action}
    (ran : Replay.run step initial acts = some s) {key : Key} {row : Row}
    (committed : s.rows.get key = some row) :
    ∃ path, row.jsonPath = some path ∧ s.files.get (pathName path) = some row.messages := by
  have sound := sound_of_run ran
  obtain ⟨fileId, hpath, _⟩ := sound.rows committed
  exact ⟨jsonPath fileId, hpath, sound.live committed hpath⟩

def firstFile : FileId := ⟨py "7c9e6679", by decide⟩
def secondFile : FileId := ⟨py "1b4e28ba", by decide⟩
def thirdFile : FileId := ⟨py "6fa459ea", by decide⟩

/-- A saved conversation is saved again, while a third save of it rolls back. -/
def savedAgain : List Action :=
  [.preRead 0 1 (py "Trip to Rome") [⟨.user, py "when?", none⟩] firstFile, .writeJson 0,
   .upsert 0, .commit 0, .deleteSuperseded 0,
   .preRead 1 1 (py "Trip to Rome") [⟨.user, py "in May", none⟩] secondFile,
   .preRead 2 1 (py "Trip to Rome") [⟨.user, py "in June", none⟩] thirdFile,
   .writeJson 1, .upsert 1, .writeJson 2, .commit 1, .upsert 2, .deleteSuperseded 1, .rollback 2]

theorem archive_of_row_savedAgain :
    ∃ s row, Replay.run step initial savedAgain = some s ∧
      s.rows.get (1, py "trip-to-rome") = some row ∧
      row.messages = [⟨.user, py "in May", none⟩] ∧
      ∃ path, row.jsonPath = some path ∧ s.files.get (pathName path) = some row.messages := by
  refine ⟨_, _, rfl, rfl, rfl, ?_⟩
  exact @archive_of_row _ savedAgain rfl (1, py "trip-to-rome") _ rfl

end Archives
