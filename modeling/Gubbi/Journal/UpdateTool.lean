import Gubbi.Journal.AuditedTools
import Gubbi.Journal.EntryUpdate

/-!
# The tool that updates an entry

`journal_update_entry` checks its arguments, runs the update in a transaction and makes the
embedding of a changed text afresh, where a failure is only logged. Its checks ask whether
an argument is empty, the update whether it is `None`; an exception of the transaction
other than `EntryNotFoundError` leaves the tool. The call has a user and a cipher.
-/

namespace UpdateTool

open Text Validation Cipher EntryUpdate
open JournalEntries (EntryId Mode)
open JournalTables (Date Timestamp Sealed)
open JournalWriters
  (WriteError updateContent updateReasoning checkDate sanitizeTags isTextParameter)
open JournalRows (number)
open AuditedTools (Dict)

universe u v

/-- What the tool takes from the process and the database. -/
structure Host (V : Type u) extends JournalWriters.Host, JournalWriters.TextSearch where
  cipher : ContentCipher
  toTsvector : PyStr → V
  now : Timestamp
  contentTail : RandomTail
  reasoningTail : RandomTail
  /-- `is_future_date` of a valid date, in the time zone of the settings. -/
  isFutureDate : PyStr → Bool
  fromIsoformat_empty : ∀ date, fromIsoformat [] ≠ .ok date

def Host.repository {V : Type u} (host : Host V) : EntryUpdate.Host V where
  fitsTsvector := host.fitsTsvector
  aes := host.aes
  cipher := host.cipher
  fromIsoformat := host.fromIsoformat
  toTsvector := host.toTsvector
  now := host.now
  contentTail := host.contentTail
  reasoningTail := host.reasoningTail

structure Args where
  entryId : Int
  content : Option PyStr
  reasoning : Option PyStr
  mode : Mode
  date : Option PyStr
  tags : Option (List PyStr)

/-- What follows the commit of an update. -/
structure Afterwards (V : Type u) (E : Type v) where
  /-- `embedding_service.encode`; `none` raises. -/
  encode : PyStr → Option E
  /-- What others commit before the second transaction. -/
  others : Tables V E → Tables V E
  /-- What they commit between its check of the texts and its store. -/
  meanwhile : Tables V E → Tables V E
  /-- `now()` in the second transaction; `none` when one of its steps raises. -/
  stores : Option Timestamp

/-- The arguments of the update, and how many tags were dropped. -/
structure Checked where
  content : Option PyStr
  reasoning : Option PyStr
  tags : Option (List PyStr)
  tagsDropped : Nat

def check (host : JournalWriters.Host) (args : Args) : Except WriteError Checked := do
  let content ← updateContent host args.content
  let reasoning ← updateReasoning host args.reasoning
  checkDate host args.date
  if content = none ∧ reasoning = none ∧ args.date = none ∧ args.tags = none then
    .error (.validationError (py "No fields to update"))
  else
    return {
      content := content
      reasoning := reasoning
      tags := args.tags.map sanitizeTags
      tagsDropped := (args.tags.getD []).length - (sanitizeTags (args.tags.getD [])).length }

/-- `str(value)` of an `int`. -/
def intText : Int → PyStr
  | .ofNat n => number n
  | .negSucc n => py "-" ++ number (n + 1)

inductive Answer
  /-- The dict with the status "updated". -/
  | updated (entryId : Int) (mode : Mode) (note : Option PyStr)
  | error (envelope : Dict)
  deriving DecidableEq

inductive Raised
  | write (error : WriteError)
  | update (error : UpdateError)
  deriving DecidableEq

/-- What the tool answers to an error of its checks. -/
def envelope : WriteError → Option Dict
  | .validationError detail => some (AuditedTools.validationError detail)
  | .invalidDate raw => some (AuditedTools.invalidDate raw)
  | _ => none

def refuse (e : WriteError) : Except Raised Answer :=
  match envelope e with
  | some dict => .ok (.error dict)
  | none => .error (.write e)

/-- The tables after the transaction of the update and at the end, and the result. -/
structure Run (V : Type u) (E : Type v) where
  committed : Tables V E
  left : Tables V E
  result : Except Raised Answer

section Tool
variable {V : Type u} {E : Type v} (host : Host V)

/-- `get_text`, of the row that an update would lock. -/
def getText (db : Tables V E) (entryId : Int) :
    Except UpdateError (Option (PyStr × Option PyStr)) :=
  match lockRow db entryId with
  | .error .entryNotFound => .ok none
  | .error e => .error e
  | .ok row =>
    match decryptOrRaise host.aes host.cipher row.content.1 row.content.2,
      decryptContentField host.aes host.cipher row.reasoningEncrypted row.reasoningNonce with
    | .ok content, .ok reasoning => .ok (some (content, reasoning))
    | _, _ => .error .decryptionError

/-- The first transaction, with the texts it reads back; an error rolls it back. -/
def transaction (db : Tables V E) (args : Args) (c : Checked) :
    Except UpdateError (Tables V E × Option (PyStr × Option PyStr)) :=
  match update host.repository db args.entryId c.content c.reasoning
      (AuditedTools.Mode.text args.mode) args.date c.tags with
  | (_, .error e) => .error e
  | (written, .ok ()) =>
    if c.content ≠ none ∨ c.reasoning ≠ none then
      (getText host written args.entryId).map (fun texts => (written, texts))
    else .ok (written, none)

def embedText (texts : PyStr × Option PyStr) : PyStr :=
  strip (texts.1 ++ py " " ++ texts.2.getD [])

/-- `save_by_vector` and `mark_indexed`. -/
def storeEmbedding (db : Tables V E) (id : EntryId) (embedding : E) (now : Timestamp) :
    Tables V E :=
  { db with
    entries := db.entries.modify id (fun row => { row with indexedAt := some now })
    embeddings := db.embeddings.put id embedding }

/-- The second transaction; texts that are no longer those of the row are stale. Its check takes
no lock, so that others may commit before the store. -/
def reembed (after : Afterwards V E) (committed : Tables V E) (entryId : Int)
    (texts : PyStr × Option PyStr) : Tables V E :=
  match after.encode (embedText texts), after.stores, keyOf entryId with
  | some embedding, some now, some id =>
    match getText host (after.others committed) entryId with
    | .ok (some current) =>
      if current = texts then
        storeEmbedding (after.meanwhile (after.others committed)) id embedding now
      else after.others committed
    | _ => after.others committed
  | _, _, _ => after.others committed

/-- `"; ".join(notes)`, where there are notes. -/
def note (args : Args) (c : Checked) : Option PyStr :=
  let future := (Listing.given args.date).any host.isFutureDate
  let notes := (if future then [py "Date is in the future"] else []) ++
    if c.tagsDropped = 0 then []
    else [number c.tagsDropped ++ py " tag(s) dropped (contained only unsupported characters)"]
  if notes = [] then none else some ((py "; ").intercalate notes)

def journalUpdateEntry (after : Afterwards V E) (db : Tables V E) (args : Args) : Run V E :=
  match check host.toHost args with
  | .error e => ⟨db, db, refuse e⟩
  | .ok c =>
    match transaction host db args c with
    | .error .entryNotFound =>
      ⟨db, db, .ok (.error (AuditedTools.notFound (py "Entry") (intText args.entryId)))⟩
    | .error e => ⟨db, db, .error (.update e)⟩
    | .ok (committed, texts) =>
      let left := (texts.map (reembed host after committed args.entryId)).getD committed
      ⟨committed, left, .ok (.updated args.entryId args.mode (note host args c))⟩

end Tool

/-- The content without its control characters. -/
def Args.newContent (args : Args) : Option PyStr := args.content.map sanitizeFreetext

/-- The reasoning without its control characters; a blank one asks for nothing. -/
def Args.newReasoning (args : Args) : Option PyStr :=
  (args.reasoning.map sanitizeFreetext).filter (fun text => strip text ≠ [])

def Args.newTags (args : Args) : Option (List PyStr) := args.tags.map sanitizeTags

def NoRealChange (args : Args) : Prop :=
  args.newContent = none ∧ args.newReasoning = none ∧ args.newTags = none ∧
    Listing.given args.date = none

section Checks
variable {host : JournalWriters.Host} {args : Args} {c : Checked}

theorem updateContent_eq_ok {content out : Option PyStr}
    (done : updateContent host content = .ok out) : out = content.map sanitizeFreetext := by
  cases content with
  | none => exact (Except.ok.inj done).symm
  | some content =>
    obtain ⟨_, _, done⟩ := Fallible.bind_eq_ok.mp done
    obtain ⟨text, filtered, done⟩ := Fallible.bind_eq_ok.mp done
    cases done
    rw [JournalWriters.filterContent] at filtered
    split at filtered
    · cases filtered
    · rw [(StoredText.rejectSyntax_ok filtered).1]
      rfl

theorem updateReasoning_eq_ok {reasoning out : Option PyStr}
    (done : updateReasoning host reasoning = .ok out) :
    out = (reasoning.map sanitizeFreetext).filter (fun text => strip text ≠ []) := by
  cases reasoning with
  | none => exact (Except.ok.inj done).symm
  | some reasoning =>
    obtain ⟨_, _, done⟩ := Fallible.bind_eq_ok.mp done
    obtain ⟨text, filtered, done⟩ := Fallible.bind_eq_ok.mp done
    cases done
    rw [(StoredText.rejectSyntax_ok filtered).1]
    simp only [Option.map_some, Option.filter_some]
    by_cases blank : strip (sanitizeFreetext reasoning) = []
    · simp [blank]
    · simp [blank]

theorem check_eq_ok (done : check host args = .ok c) :
    c.content = args.newContent ∧ c.reasoning = args.newReasoning ∧ c.tags = args.newTags ∧
      ¬ (args.newContent = none ∧ args.newReasoning = none ∧ args.date = none ∧
        args.newTags = none) := by
  obtain ⟨content, hcontent, done⟩ := Fallible.bind_eq_ok.mp done
  obtain ⟨reasoning, hreasoning, done⟩ := Fallible.bind_eq_ok.mp done
  obtain ⟨_, _, done⟩ := Fallible.bind_eq_ok.mp done
  cases updateContent_eq_ok hcontent
  cases updateReasoning_eq_ok hreasoning
  split at done
  · cases done
  · next asked =>
    cases done
    refine ⟨rfl, rfl, rfl, fun none => asked ?_⟩
    exact ⟨none.1, none.2.1, none.2.2.1, Option.map_eq_none_iff.mp none.2.2.2⟩

theorem envelope_checkCap {field text : PyStr} {cap : Nat} {e : WriteError}
    (failed : JournalWriters.checkCap field cap text = .error e) :
    ∃ dict, envelope e = some dict := by
  rw [JournalWriters.checkCap] at failed
  split at failed
  · cases failed
    exact ⟨_, rfl⟩
  · cases failed

theorem envelope_rejectSyntax {text : PyStr} {e : WriteError}
    (failed : JournalWriters.rejectSyntax host text = .error e) :
    ∃ dict, envelope e = some dict := by
  rw [JournalWriters.rejectSyntax, Fallible.map_eq_error] at failed
  cases rejected : rejectToolCallSyntax host.words text with
  | error message =>
    rw [rejected] at failed
    cases failed
    exact ⟨_, rfl⟩
  | ok _ =>
    rw [rejected] at failed
    cases failed

theorem envelope_updateContent {content : Option PyStr} {e : WriteError}
    (failed : updateContent host content = .error e) : ∃ dict, envelope e = some dict := by
  cases content with
  | none => cases failed
  | some content =>
    rcases Fallible.bind_eq_error.mp failed with failed | ⟨_, _, failed⟩
    · exact envelope_checkCap failed
    · rcases Fallible.bind_eq_error.mp failed with failed | ⟨_, _, failed⟩
      · rw [JournalWriters.filterContent] at failed
        split at failed
        · cases failed
          exact ⟨_, rfl⟩
        · exact envelope_rejectSyntax failed
      · cases failed

theorem envelope_updateReasoning {reasoning : Option PyStr} {e : WriteError}
    (failed : updateReasoning host reasoning = .error e) : ∃ dict, envelope e = some dict := by
  cases reasoning with
  | none => cases failed
  | some reasoning =>
    rcases Fallible.bind_eq_error.mp failed with failed | ⟨_, _, failed⟩
    · exact envelope_checkCap failed
    · rcases Fallible.bind_eq_error.mp failed with failed | ⟨_, _, failed⟩
      · exact envelope_rejectSyntax failed
      · cases failed

theorem envelope_checkDate {date : Option PyStr} {e : WriteError}
    (failed : checkDate host date = .error e) :
    envelope e = some (AuditedTools.invalidDate (date.getD [])) := by
  rw [checkDate] at failed
  cases checked : Listing.checkBound host.toRuntime date with
  | error _ =>
    rw [checked] at failed
    cases failed
    rfl
  | ok _ =>
    rw [checked] at failed
    cases failed

/-- Every error of the checks has an envelope. -/
theorem envelope_check {e : WriteError} (failed : check host args = .error e) :
    ∃ dict, envelope e = some dict := by
  rcases Fallible.bind_eq_error.mp failed with failed | ⟨content, _, failed⟩
  · exact envelope_updateContent failed
  · rcases Fallible.bind_eq_error.mp failed with failed | ⟨reasoning, _, failed⟩
    · exact envelope_updateReasoning failed
    · rcases Fallible.bind_eq_error.mp failed with failed | ⟨_, _, failed⟩
      · exact ⟨_, envelope_checkDate failed⟩
      · split at failed
        · cases failed
          exact ⟨_, rfl⟩
        · cases failed

end Checks

section Calls
variable {V : Type u} {E : Type v} (host : Host V) (after : Afterwards V E) (db : Tables V E)
  (args : Args)

/-- The row is changed as requested, and nothing else. -/
def AsRequested (committed : Tables V E) : Prop :=
  ∃ id old new, args.entryId = Int.ofNat id ∧
    Applied host.repository args.mode db committed id old new args.newContent args.newReasoning
      args.date args.newTags

/-- After the commit a call stores at most the embedding of the texts that its check finds. -/
def Reembedded (committed left : Tables V E) (entryId : Int) : Prop :=
  left = committed ∨ left = after.others committed ∨
    ∃ id texts embedding now, entryId = Int.ofNat id ∧
      getText host (after.others committed) entryId = .ok (some texts) ∧
      after.encode (embedText texts) = some embedding ∧
      left = storeEmbedding (after.meanwhile (after.others committed)) id embedding now

/-- The tool answers a call: by a success for what was done, or by an error for nothing. -/
def Answers : Prop :=
  let run := journalUpdateEntry host after db args
  match run.result with
  | .error _ => False
  | .ok (.error _) => run.committed = db ∧ run.left = db
  | .ok (.updated entryId mode _) => entryId = args.entryId ∧ mode = args.mode ∧
      ¬ NoRealChange args ∧ AsRequested host db args run.committed ∧
      Reembedded host after run.committed run.left args.entryId

/-- The checks refuse the call, or the id fits its column and no row that it finds meets a
value that cannot be stored. -/
def Answerable : Prop :=
  (∃ e, check host.toHost args = .error e) ∨
    isInt4 args.entryId = true ∧ ∀ row, lockRow db args.entryId = .ok row →
      ContentStorable host.repository args.mode row args.newContent ∧
      (∀ reasoning, args.newReasoning = some reasoning → (encodeUtf8 reasoning).isSome = true) ∧
      ∀ date, args.date = some date → ∃ parsed, host.fromIsoformat date = .ok parsed

variable {host after db args}

theorem modeOf_text (m : Mode) : modeOf (AuditedTools.Mode.text m) = some m := by
  cases m with
  | replace => decide
  | append => decide

theorem lockRow_error {e : UpdateError} (failed : lockRow db args.entryId = .error e) :
    (isInt4 args.entryId = false ∧ e = .dataError) ∨
      (isInt4 args.entryId = true ∧ e = .entryNotFound) := by
  unfold lockRow at failed
  cases int4 : isInt4 args.entryId with
  | false =>
    rw [int4] at failed
    cases failed
    exact Or.inl ⟨rfl, rfl⟩
  | true =>
    rw [int4] at failed
    refine Or.inr ⟨rfl, ?_⟩
    simp only [Bool.not_true, Bool.false_eq_true, if_false] at failed
    split at failed
    · cases failed
      rfl
    · split at failed
      · cases failed
      · cases failed
        rfl

/-- Labels are plain ASCII. -/
theorem isTextParameter_newTags {tags : List PyStr} (given : args.newTags = some tags) :
    tags.all isTextParameter = true := by
  obtain ⟨raw, _, rfl⟩ := Option.map_eq_some_iff.mp given
  refine List.all_eq_true.mpr fun tag mem => isTextParameter_of_labelChars fun c hc => ?_
  obtain ⟨label, _, rfl⟩ := List.mem_map.mp (List.mem_filter.mp mem).1
  exact (List.mem_filter.mp (List.mem_of_mem_take hc)).2

theorem reembedded_reembed (committed : Tables V E) (entryId : Int) (texts : PyStr × Option PyStr) :
    Reembedded host after committed (reembed host after committed entryId texts) entryId := by
  unfold reembed
  split
  · next embedding now id encoded _ key =>
    split
    · next current read =>
      split
      · next same =>
        subst same
        exact Or.inr (Or.inr
          ⟨id, current, embedding, now, keyOf_eq_some.mp key, read, encoded, rfl⟩)
      · exact Or.inr (Or.inl rfl)
    · exact Or.inr (Or.inl rfl)
  · exact Or.inr (Or.inl rfl)

/-- The texts of a row that was just written are read back. -/
theorem getText_applied {committed : Tables V E} {id : EntryId} {old new : Row V} {m : Mode}
    {content reasoning date : Option PyStr} {tags : Option (List PyStr)}
    (applied : Applied host.repository m db committed id old new content reasoning date tags)
    (readable : Readable host.repository old) (int4 : isInt4 (Int.ofNat id) = true) :
    ∃ texts, getText host committed (Int.ofNat id) = .ok (some texts) := by
  have live : new.deletedAt = none := applied.others.2.2.2.trans applied.found.2
  have locked : lockRow committed (Int.ofNat id) = .ok new :=
    lockRow_eq_ok.mpr ⟨id, rfl, int4, applied.stored, live⟩
  have content : ∃ text, decryptOrRaise host.aes host.cipher new.content.1 new.content.2 =
      .ok text := by
    have became := applied.contentText
    cases content with
    | none =>
      rw [became.1]
      exact readable.1
    | some argument =>
      obtain ⟨text, _, decrypts, _⟩ := became
      exact ⟨text, decrypts⟩
  have reasoning : ∃ text, decryptContentField host.aes host.cipher new.reasoningEncrypted
      new.reasoningNonce = .ok text := by
    have became := applied.reasoningText
    cases reasoning with
    | none =>
      rw [became.1, became.2]
      exact readable.2
    | some argument =>
      obtain ⟨text, _, decrypts⟩ := became
      exact ⟨some text, decrypts⟩
  obtain ⟨content, hcontent⟩ := content
  obtain ⟨reasoning, hreasoning⟩ := reasoning
  exact ⟨(content, reasoning), by rw [getText, locked]; simp only [hcontent, hreasoning]⟩

section Transaction
variable {c : Checked} {row : Row V}

theorem transaction_of_error {e : UpdateError} (failed :
    (update host.repository db args.entryId c.content c.reasoning (AuditedTools.Mode.text args.mode)
      args.date c.tags).2 = .error e) : transaction host db args c = .error e := by
  rw [transaction]
  split
  · next same =>
    rw [same] at failed
    cases failed
    rfl
  · next same =>
    rw [same] at failed
    cases failed

/-- The changes of the checked arguments. -/
def prepare (host : Host V) (row : Row V) (args : Args) (c : Checked) :
    Except UpdateError Changes :=
  changes host.repository row c.content c.reasoning (AuditedTools.Mode.text args.mode) args.date
    c.tags

theorem transaction_of_changes (locked : lockRow db args.entryId = .ok row)
    (readable : Readable host.repository row) {changed : Changes}
    (prepared : prepare host row args c = .ok changed)
    (sends : changed.accepted host.repository = true) :
    ∃ committed texts, transaction host db args c = .ok (committed, texts) ∧
      ∃ id new, args.entryId = Int.ofNat id ∧ Applied host.repository args.mode db committed id row
        new c.content c.reasoning args.date c.tags := by
  obtain ⟨id, hid, int4, hrow, live⟩ := lockRow_eq_ok.mp locked
  have applied : Applied host.repository args.mode db (written host.repository db id row changed) id
      row (changed.write host.repository row) c.content c.reasoning args.date c.tags :=
    written_applied (modeOf_text args.mode) hrow live prepared
  rcases update_cases host.repository db args.entryId c.content c.reasoning
    (AuditedTools.Mode.text args.mode) args.date c.tags with
    ⟨_, _, refuses⟩ | ⟨id', row', changed', same, locked', prepared', _, done⟩
  · rw [refuses row changed locked prepared] at sends
    cases sends
  · obtain rfl : id = id' := Int.ofNat.inj (hid.symm.trans same)
    cases locked.symm.trans locked'
    cases prepared.symm.trans prepared'
    obtain ⟨texts, read⟩ := getText_applied applied readable
      ((congrArg isInt4 hid).symm.trans int4)
    by_cases text : c.content ≠ none ∨ c.reasoning ≠ none
    · refine ⟨_, some texts, ?_, id, _, hid, applied⟩
      have reads := (congrArg (getText host _) hid).trans read
      rw [transaction, done]
      simp only [if_pos text, reads]
      rfl
    · refine ⟨_, none, ?_, id, _, hid, applied⟩
      rw [transaction, done]
      simp only [if_neg text]

theorem transaction_of_refused (locked : lockRow db args.entryId = .ok row)
    (refused : ∀ changed, prepare host row args c = .ok changed →
      changed.accepted host.repository = false) :
    ∃ e, e ≠ .entryNotFound ∧ transaction host db args c = .error e := by
  rcases update_cases host.repository db args.entryId c.content c.reasoning
    (AuditedTools.Mode.text args.mode) args.date c.tags with
    ⟨e, raised, _⟩ | ⟨_, row', changed, _, locked', prepared, sends, _⟩
  · refine ⟨e, ?_, transaction_of_error (by rw [raised])⟩
    rintro rfl
    have missing := update_notFound_iff.mp (congrArg Prod.snd raised)
    rw [locked] at missing
    cases missing
  · cases locked.symm.trans locked'
    rw [refused changed prepared] at sends
    cases sends

theorem transaction_of_missing {e : UpdateError} (missing : lockRow db args.entryId = .error e) :
    transaction host db args c = .error e :=
  transaction_of_error (by rw [EntryUpdate.update, missing])

end Transaction

/-- A date that is empty does not parse. -/
theorem noRealChange_refused (nothing : NoRealChange args)
    (parses : ∀ date, args.date = some date → ∃ parsed, host.fromIsoformat date = .ok parsed) :
    args.newContent = none ∧ args.newReasoning = none ∧ args.date = none ∧ args.newTags = none := by
  obtain ⟨content, reasoning, tags, date⟩ := nothing
  refine ⟨content, reasoning, ?_, tags⟩
  cases given : args.date with
  | none => rfl
  | some value =>
    obtain ⟨parsed, hparsed⟩ := parses value given
    rw [given, Listing.given, Option.filter_eq_none_iff] at date
    have empty : value = [] := by simpa using date value rfl
    rw [empty] at hparsed
    exact absurd hparsed (host.fromIsoformat_empty parsed)

theorem answers_iff (readable : ∀ id row, db.entries.get id = some row →
    Readable host.repository row) :
    Answers host after db args ↔ Answerable host db args := by
  rw [Answers, Answerable, journalUpdateEntry]
  cases hcheck : check host.toHost args with
  | error e =>
    obtain ⟨dict, hdict⟩ := envelope_check hcheck
    refine iff_of_true ?_ (Or.inl ⟨e, rfl⟩)
    simp [refuse, hdict]
  | ok c =>
    obtain ⟨hcontent, hreasoning, htags, asked⟩ := check_eq_ok hcheck
    simp only [reduceCtorEq, exists_false, false_or]
    cases locked : lockRow db args.entryId with
    | error e =>
      simp only [transaction_of_missing locked, reduceCtorEq, false_implies, implies_true, and_true]
      rcases lockRow_error locked with ⟨int4, rfl⟩ | ⟨int4, rfl⟩
      · simp [int4]
      · simp [int4]
    | ok row =>
      obtain ⟨id, _, int4, hrow, _⟩ := lockRow_eq_ok.mp locked
      have storable : (∃ changed, prepare host row args c = .ok changed ∧
          changed.accepted host.repository = true) ↔
          ContentStorable host.repository args.mode row args.newContent ∧
          (∀ reasoning, args.newReasoning = some reasoning →
            (encodeUtf8 reasoning).isSome = true) ∧
          ∀ date, args.date = some date → ∃ parsed, host.fromIsoformat date = .ok parsed := by
        rw [← hcontent, ← hreasoning]
        refine (changes_readable_iff (modeOf_text args.mode) (readable id row hrow)).trans ?_
        have labels : ∀ texts, c.tags = some texts → texts.all isTextParameter = true :=
          fun texts given => isTextParameter_newTags (htags.symm.trans given)
        constructor
        · exact fun ⟨content, reasoning, date, _⟩ => ⟨content, reasoning, date⟩
        · exact fun ⟨content, reasoning, date⟩ => ⟨content, reasoning, date, labels⟩
      by_cases goes : ∃ changed, prepare host row args c = .ok changed ∧
          changed.accepted host.repository = true
      · have values := storable.mp goes
        obtain ⟨changed, prepared, sends⟩ := goes
        obtain ⟨committed, texts, ran, id', new, hid', applied⟩ :=
          transaction_of_changes locked (readable id row hrow) prepared sends
        rw [hcontent, hreasoning, htags] at applied
        simp only [ran]
        refine iff_of_true ⟨trivial, trivial, ?_, ⟨id', row, new, hid', applied⟩, ?_⟩
          ⟨int4, fun _ same => Except.ok.inj same ▸ values⟩
        · exact fun nothing => asked (noRealChange_refused nothing values.2.2)
        · cases texts with
          | none => exact Or.inl rfl
          | some texts => exact reembedded_reembed committed args.entryId texts
      · obtain ⟨e, found, ran⟩ := transaction_of_refused locked
          (fun changed prepared =>
            Bool.eq_false_iff.mpr fun sends => goes ⟨changed, prepared, sends⟩)
        refine iff_of_false ?_ (fun all => goes (storable.mpr (all.2 row rfl)))
        simp only [ran]
        cases e with
        | entryNotFound => exact absurd rfl found
        | _ => exact not_false

end Calls

def sampleHost : Host Unit where
  toHost := StoredText.sampleHost
  fitsTsvector := fun _ => true
  cipher := sampleCipher
  toTsvector := fun _ => ()
  now := sampleTime
  contentTail := sampleTail
  reasoningTail := sampleTail
  isFutureDate := fun _ => false
  fromIsoformat_empty := fun date parsed => by cases parsed

/-- Nothing is stored after the commit. -/
def sampleAfterwards : Afterwards Unit Unit := ⟨fun _ => none, id, id, none⟩

theorem sample_readable : ∀ id row, sampleTables.entries.get id = some row →
    Readable sampleHost.repository row := by
  intro id row hrow
  rcases Table.get_put_eq_some hrow with ⟨_, rfl⟩ | ⟨_, old⟩
  · exact ⟨⟨_, sample_decryptOrRaise⟩, none, rfl⟩
  · cases old

/-- The content of an entry is replaced. -/
theorem answers_replacement : Answers sampleHost sampleAfterwards sampleTables
    ⟨1, some (py "A plan"), none, .replace, none, some []⟩ := by
  refine (answers_iff sample_readable).mpr (Or.inr ⟨by decide, fun row locked => ⟨?_, ?_, ?_⟩⟩)
  · intro argument given
    cases given
    exact ⟨⟨by decide, nofun⟩, fun _ _ => rfl⟩
  · exact fun reasoning given => by cases given
  · exact fun date given => by cases given

/-- An empty date is neither checked nor left out. -/
theorem empty_date_escapes : (∀ id row, sampleTables.entries.get id = some row →
      Readable sampleHost.repository row) ∧
    ¬ Answers sampleHost sampleAfterwards sampleTables
      ⟨1, none, none, .replace, some [], none⟩ := by
  refine ⟨sample_readable, fun answers => ?_⟩
  have raised : (journalUpdateEntry sampleHost sampleAfterwards sampleTables
      ⟨1, none, none, .replace, some [], none⟩).result.isOk = false := by decide +kernel
  rw [Answers] at answers
  cases result : (journalUpdateEntry sampleHost sampleAfterwards sampleTables
      ⟨1, none, none, .replace, some [], none⟩).result with
  | error e =>
    rw [result] at answers
    exact answers
  | ok answer =>
    rw [result] at raised
    cases raised

end UpdateTool
