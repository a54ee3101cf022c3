import Gubbi.Journal.StoredText

/-!
# Audited tools

Five tools write in one transaction and are wrapped by `audited`, which infers from
the value they return whether they succeeded. Three of them go on after the commit:
they encode a text, store its vector, stamp the entry or delete an archive file, and
any of these steps may raise. Notes and suggestions in the answers are left out.
-/

namespace AuditedTools

open Text Validation JournalEntries JournalConversations JournalWriters
open JournalTables (Date)
open JournalRows (number)
open StoredText (sampleHost emptyJournal)

abbrev UserId := Nat

inductive Raised
  /-- An `Exception` that is no `OSError`. -/
  | exception
  | osError
  /-- A `BaseException` only, as the cancellation of the call. -/
  | baseException
  /-- What the write itself raises. -/
  | write (error : WriteError)
  deriving DecidableEq

/-- `except Exception` catches it. -/
def Raised.isException : Raised → Bool
  | .baseException => false
  | _ => true

abbrev Attempt := Except Raised

/-- A step that raises or does what it should. -/
def raising : Option Raised → Attempt Unit
  | none => .ok ()
  | some raised => .error raised

/-- `try: ... except Exception: ...`, where the handler logs and gives a value. -/
def tryExcept {A : Type} (body : Attempt A) (otherwise : A) : Attempt A :=
  match body with
  | .ok a => .ok a
  | .error raised => if raised.isException then .ok otherwise else .error raised

def tryExceptOSError (body : Attempt Unit) : Attempt Unit :=
  match body with
  | .ok () => .ok ()
  | .error raised => if raised = .osError then .ok () else .error raised

inductive Json
  | text (value : PyStr)
  | int (value : Nat)
  | bool (value : Bool)
  deriving DecidableEq

/-- `str(value)`. -/
def Json.str : Json → PyStr
  | .text value => value
  | .int value => number value
  | .bool true => py "True"
  | .bool false => py "False"

/-- `bool(value)`. -/
def Json.truthy : Json → Bool
  | .text value => !value.isEmpty
  | .int value => value ≠ 0
  | .bool value => value

abbrev Dict := List (String × Json)

def Dict.get (dict : Dict) (key : String) : Option Json :=
  (dict.find? (fun item => item.1 = key)).map Prod.snd

inductive Result
  | dict (dict : Dict)
  | callToolResult (isError : Bool)
  deriving DecidableEq

def errorDict (error : PyStr) (errorCode : String) (input : Option PyStr) : Dict :=
  [("error", .text error), ("error_code", .text (py errorCode)), ("success", .bool false)] ++
    input.toList.map (fun input => ("input", .text input))

def invalidTopic (raw detail : PyStr) : Dict :=
  errorDict (if detail = [] then py "Invalid topic path: '" ++ raw ++ py ("'. Use lowercase " ++
    "alphanumeric with hyphens, max 2 levels (e.g. 'health', 'projects/my-app').") else detail)
    "INVALID_TOPIC" (some raw)

def invalidDate (raw : PyStr) : Dict :=
  errorDict (py "Invalid date: '" ++ raw ++ py "'. Expected format: YYYY-MM-DD (e.g. 2026-03-29).")
    "INVALID_DATE" (some raw)

def notFound (resource identifier : PyStr) : Dict :=
  errorDict (resource ++ py " not found: " ++ identifier) "NOT_FOUND" (some identifier)

def alreadyExists (topic : PyStr) : Dict :=
  errorDict (py "Topic already exists: '" ++ topic ++ py "'") "ALREADY_EXISTS" (some topic)

def validationError (detail : PyStr) : Dict := errorDict detail "VALIDATION_ERROR" none

inductive Call
  | appendEntry (topic content : PyStr) (reasoning : Option PyStr) (tags : List PyStr)
      (date : Option PyStr)
  | updateEntry (id : EntryId) (content reasoning : Option PyStr) (mode : Mode)
      (date : Option PyStr) (tags : Option (List PyStr))
  | deleteEntry (id : EntryId)
  | createTopic (topic title description : PyStr)
  | saveConversation (topic title : PyStr) (messages : List MessageInput) (summary source : PyStr)
      (tags : List PyStr) (date : Option PyStr)

inductive ToolError
  | write (error : WriteError)
  | topicAlreadyExists (topic : PyStr)

/-- What a tool does once its write is committed. -/
inductive FollowUp
  | nothing
  | embedEntry
  | reembed (textChanged : Bool)
  | embedLinked (isUpdate : Bool)
  deriving DecidableEq

/-- What the transaction leaves, the id of the row it wrote, and what follows. -/
structure Written (E : Type) where
  db : JournalDb E
  rowId : Nat
  followUp : FollowUp
  result : Dict

def Mode.text : Mode → PyStr
  | .replace => py "replace"
  | .append => py "append"

section Tools
variable {E : Type} (host : Host)

def liftWrite {A : Type} (x : Except WriteError A) : Except ToolError A := x.mapError .write

def appendTool (db : JournalDb E) (topic content : PyStr) (reasoning : Option PyStr)
    (tags : List PyStr) (date : Option PyStr) (today : Date) : Except ToolError (Written E) := do
  let path ← liftWrite (checkTopic host topic)
  let written ← liftWrite (journalAppendEntry host db topic content reasoning tags date today)
  return {
    db := written
    rowId := db.journal.entries.freshKey
    followUp := .embedEntry
    result := [("status", .text (py "appended")), ("topic", .text path),
      ("date", .text ((Listing.given date).getD today.text)),
      ("entry_id", .int db.journal.entries.freshKey)] }

def updateTool (db : JournalDb E) (id : EntryId) (content reasoning : Option PyStr) (mode : Mode)
    (date : Option PyStr) (tags : Option (List PyStr)) : Except ToolError (Written E) := do
  let written ← liftWrite (journalUpdateEntry host db id content reasoning mode date tags)
  let reasoning ← liftWrite (updateReasoning host reasoning)
  return {
    db := written
    rowId := id
    followUp := .reembed (content.isSome || reasoning.isSome)
    result := [("status", .text (py "updated")), ("entry_id", .int id),
      ("mode", .text (Mode.text mode))] }

def deleteTool (db : JournalDb E) (id : EntryId) (now : Time) : Except ToolError (Written E) :=
  match delete db.journal id now with
  | none => .error (.write (.notFound (py "Entry") (number id)))
  | some journal => .ok {
      db := { db with journal := journal }
      rowId := id
      followUp := .nothing
      result := [("status", .text (py "deleted")), ("entry_id", .int id)] }

/-- `topics.create`; a path that is taken violates its unique index. -/
def createTopicRow (db : JournalDb E) (topic title description : PyStr) :
    Except ToolError (JournalDb E) :=
  match validateTopic host.lowering topic with
  | .error message => .error (.write (.valueError message))
  | .ok path =>
    match bindTexts [title, description] with
    | .error e => .error (.write e)
    | .ok () =>
      if (getTopicId db path).isSome then .error (.topicAlreadyExists topic)
      else .ok { db with topics := db.topics.put db.topics.freshKey ⟨path, title⟩ }

/-- `sanitize_label(value, max_len)`. -/
def sanitizeLabelTo (maxLen : Nat) (value : PyStr) : PyStr :=
  ((strip (value.filter (fun c => !isControlChar c))).filter isLabelChar).take maxLen

/-- `sanitize_freetext(value, max_len)`. -/
def sanitizeFreetextTo (maxLen : Nat) (value : PyStr) : PyStr :=
  (value.filter (fun c => !isControlChar c)).take maxLen

def createTopicTool (db : JournalDb E) (topic title description : PyStr) :
    Except ToolError (Written E) := do
  let path ← liftWrite (checkTopic host topic)
  if sanitizeLabelTo 100 title = [] then
    .error (.write (.validationError (py "title cannot be empty after sanitization")))
  else
    let written ← createTopicRow host db path (sanitizeLabelTo 100 title)
      (sanitizeFreetextTo 500 description)
    return {
      db := written
      rowId := db.topics.freshKey
      followUp := .nothing
      result := [("status", .text (py "created")), ("topic", .text path),
          ("topic_id", .int db.topics.freshKey)] ++
        if topic = path then [] else [("normalized_from", .text topic)] }

/-- The id that the upsert of a save returns, and whether it updates a row. -/
def savedConversation (db : JournalDb E) (path title : PyStr) : ConversationId × Bool :=
  match (getTopicId db path).bind (fun topicId =>
    findSlug db.conversations.rows topicId (slugify title)) with
  | some id => (id, true)
  | none => (db.conversations.rows.freshKey, false)

def saveTool (db : JournalDb E) (topic title : PyStr) (messages : List MessageInput)
    (summary source : PyStr) (tags : List PyStr) (date : Option PyStr) (today : Date) :
    Except ToolError (Written E) := do
  let path ← liftWrite (checkTopic host topic)
  let clean ← liftWrite ((validateTitle title).mapError titleError)
  let written ← liftWrite
    (journalSaveConversation host db topic title messages summary source tags date today)
  return {
    db := written
    rowId := (savedConversation db path clean).1
    followUp := .embedLinked (savedConversation db path clean).2
    result := [("status", .text
        (if (savedConversation db path clean).2 then py "updated" else py "saved")),
      ("conversation_id", .int (savedConversation db path clean).1),
      ("summary", .text (sanitizeFreetext summary)), ("topic", .text path),
      ("title", .text clean)] }

/-- Each tool, from its checks to its commit. -/
def Call.write (db : JournalDb E) (today : Date) (now : Time) :
    Call → Except ToolError (Written E)
  | .appendEntry topic content reasoning tags date =>
    appendTool host db topic content reasoning tags date today
  | .updateEntry id content reasoning mode date tags =>
    updateTool host db id content reasoning mode date tags
  | .deleteEntry id => deleteTool db id now
  | .createTopic topic title description => createTopicTool host db topic title description
  | .saveConversation topic title messages summary source tags date =>
    saveTool host db topic title messages summary source tags date today

end Tools

structure AuditCall where
  actorType : String
  actorId : UserId
  action : String
  targetType : String
  targetId : Option PyStr
  targetKind : Option String
  deriving DecidableEq

/-- `_TARGET_KEYS`: the key of the result that holds the target, and its kind. -/
def TARGET_KEYS : List (String × String × String) :=
  [("entry", "entry_id", "entry"), ("conversation", "conversation_id", "conversation"),
   ("topic", "topic", "topic")]

/-- `_result_is_success`. -/
def resultIsSuccess : Result → Bool
  | .callToolResult isError => !isError
  | .dict dict => (dict.get "success").all Json.truthy

/-- `_extract_target_id`. -/
def extractTargetId (dict : Dict) (targetType : String) : Option (PyStr × String) :=
  match TARGET_KEYS.find? (fun entry => entry.1 = targetType) with
  | none => none
  | some (_, resultKey, kind) => (dict.get resultKey).map (fun value => (value.str, kind))

/-- The arguments of the decorator of a tool; the target kind is the target type. -/
structure Audit where
  action : String
  targetType : String

def Call.audit : Call → Audit
  | .appendEntry .. => ⟨"entry.created", "entry"⟩
  | .updateEntry .. => ⟨"entry.updated", "entry"⟩
  | .deleteEntry .. => ⟨"entry.deleted", "entry"⟩
  | .createTopic .. => ⟨"topic.created", "topic"⟩
  | .saveConversation .. => ⟨"conversation.saved", "conversation"⟩

/-- The arguments of `record_audit` for a result. -/
def auditCall (audit : Audit) (userId : UserId) : Result → AuditCall
  | .dict dict => ⟨"user", userId, audit.action, audit.targetType,
      (extractTargetId dict audit.targetType).map Prod.fst, some audit.targetType⟩
  | .callToolResult _ => ⟨"user", userId, audit.action, audit.targetType, none,
      some audit.targetType⟩

/-- The wrapper around a handler: the calls of `record_audit` that it attempts, on a
connection of their own, and what it returns. -/
def audited (audit : Audit) (userId : Option UserId) (persists : Option Raised)
    (handler : Attempt Result) : List AuditCall × Attempt Result :=
  match handler with
  | .error raised => ([], .error raised)
  | .ok result =>
    if resultIsSuccess result then
      match userId with
      | none => ([], .ok result)
      | some userId =>
        ([auditCall audit userId result],
          (tryExcept (raising persists) ()).map (fun () => result))
    else ([], .ok result)

/-- What happens around a call: the user, what stops the call between its checks and
its commit, what each later step raises, and what the steps find. -/
structure Circumstances where
  userId : Option UserId
  interrupts : Option Raised
  encode : Option Raised
  getText : Option Raised
  saveByVector : Option Raised
  markIndexed : Option Raised
  unlink : Option Raised
  persistsAudit : Option Raised
  /-- The entry has been deleted or updated again before its vector is stored. -/
  changedAgain : Bool
  /-- The row that a save has updated had another archive file. -/
  superseded : Bool

/-- A missing user raises `MissingUserIdError`. -/
def Circumstances.obstacle (c : Circumstances) : Option Raised :=
  if c.userId.isNone then some .exception else c.interrupts

/-- `_embed_entry`: whether there is an embedding. -/
def embedEntry (c : Circumstances) : Attempt Bool :=
  tryExcept (do
    raising c.encode
    raising c.saveByVector
    return true) false

/-- The entry is stamped on a connection of its own, outside any handler. -/
def afterAppend (c : Circumstances) : Attempt Unit := do
  let embedded ← embedEntry c
  if embedded then raising c.markIndexed else return ()

/-- The text is read again first, and a vector of an older text is dropped. -/
def storeUnchanged (c : Circumstances) : Attempt Unit :=
  if c.changedAgain then .ok ()
  else do
    raising c.saveByVector
    raising c.markIndexed

def afterUpdate (c : Circumstances) : Attempt Unit :=
  tryExcept (do
    raising c.encode
    raising c.getText
    storeUnchanged c) ()

def embedLinked (c : Circumstances) : Attempt Unit :=
  tryExcept (do
    raising c.encode
    raising c.saveByVector
    raising c.markIndexed) ()

/-- `delete_superseded_json_archive`, where there is an archive to delete. -/
def deleteSuperseded (c : Circumstances) (isUpdate : Bool) : Attempt Unit :=
  if isUpdate && c.superseded then tryExceptOSError (raising c.unlink) else .ok ()

def afterSave (c : Circumstances) (isUpdate : Bool) : Attempt Unit := do
  deleteSuperseded c isUpdate
  embedLinked c

def FollowUp.run (c : Circumstances) : FollowUp → Attempt Unit
  | .nothing => .ok ()
  | .embedEntry => afterAppend c
  | .reembed textChanged => if textChanged then afterUpdate c else .ok ()
  | .embedLinked isUpdate => afterSave c isUpdate

/-- What a tool makes of a failed check or write. The user and the connection come
after the checks of the arguments. -/
def answerTo (c : Circumstances) : ToolError → Attempt Result
  | .write (.invalidTopic raw detail) => .ok (.dict (invalidTopic raw detail))
  | .write (.invalidDate raw) => .ok (.dict (invalidDate raw))
  | .write (.validationError detail) => .ok (.dict (validationError detail))
  | .write (.notFound resource identifier) =>
    match c.obstacle with
    | some raised => .error raised
    | none => .ok (.dict (notFound resource identifier))
  | .topicAlreadyExists topic =>
    match c.obstacle with
    | some raised => .error raised
    | none => .ok (.dict (alreadyExists topic))
  | .write error => .error (c.obstacle.getD (.write error))

/-- A call as its client sees it, and what it has left behind. -/
structure Outcome (E : Type) where
  db : JournalDb E
  committed : Option Nat
  audits : List AuditCall
  result : Attempt Result

section Invoke
variable {E : Type} (host : Host)

def invoke (db : JournalDb E) (today : Date) (now : Time) (c : Circumstances) (call : Call) :
    Outcome E :=
  match call.write host db today now with
  | .error error =>
    let ended := audited call.audit c.userId c.persistsAudit (answerTo c error)
    ⟨db, none, ended.1, ended.2⟩
  | .ok written =>
    match c.obstacle with
    | some raised => ⟨db, none, [], .error raised⟩
    | none =>
      let ended := audited call.audit c.userId c.persistsAudit
        ((written.followUp.run c).map (fun () => .dict written.result))
      ⟨written.db, some written.rowId, ended.1, ended.2⟩

end Invoke

/-- An exception that no `except Exception` catches. -/
def Uncaught (raised : Option Raised) : Prop := ∃ r, raised = some r ∧ r.isException = false

/-- The steps after the commit end in an exception. The first step that raises counts. -/
def FollowUp.Escapes (c : Circumstances) : FollowUp → Prop
  | .nothing => False
  | .embedEntry => Uncaught (c.encode.or c.saveByVector) ∨
      (c.encode.or c.saveByVector = none ∧ c.markIndexed ≠ none)
  | .reembed textChanged => textChanged = true ∧
      Uncaught (c.encode.or (c.getText.or
        (if c.changedAgain then none else c.saveByVector.or c.markIndexed)))
  | .embedLinked isUpdate =>
      (isUpdate = true ∧ c.superseded = true ∧ ∃ r, c.unlink = some r ∧ r ≠ .osError) ∨
        Uncaught (c.encode.or (c.saveByVector.or c.markIndexed))

section Escapes
variable {c : Circumstances}

theorem raising_bind {A : Type} (x y : Option Raised) (rest : Attempt A) :
    (do raising x; raising y; rest) = (do raising (x.or y); rest) := by
  cases x with
  | none => rfl
  | some r => rfl

theorem raising_bind_raising (x y : Option Raised) :
    (do raising x; raising y) = raising (x.or y) := by
  cases x with
  | none => rfl
  | some r => rfl

theorem tryExcept_raising (x : Option Raised) :
    (∃ r, tryExcept (raising x) () = .error r) ↔ Uncaught x := by
  cases x with
  | none => simp [raising, tryExcept, Uncaught]
  | some r =>
    cases caught : r.isException with
    | true => simp [raising, tryExcept, Uncaught, caught]
    | false => simp [raising, tryExcept, Uncaught, caught]

theorem embedEntry_eq (c : Circumstances) :
    embedEntry c = match c.encode.or c.saveByVector with
      | none => .ok true
      | some r => if r.isException then .ok false else .error r := by
  rw [embedEntry, raising_bind]
  cases c.encode.or c.saveByVector with
  | none => rfl
  | some r => rfl

theorem afterAppend_escapes : (∃ r, afterAppend c = .error r) ↔ FollowUp.embedEntry.Escapes c := by
  rw [afterAppend, embedEntry_eq, FollowUp.Escapes]
  cases c.encode.or c.saveByVector with
  | none =>
    cases c.markIndexed with
    | none => simp [Uncaught, bind, Except.bind, raising]
    | some r => simp [Uncaught, bind, Except.bind, raising]
  | some r =>
    cases caught : r.isException with
    | true => simp [Uncaught, caught, bind, Except.bind, pure, Except.pure]
    | false => simp [Uncaught, caught, bind, Except.bind]

theorem storeUnchanged_eq (c : Circumstances) :
    storeUnchanged c =
      raising (if c.changedAgain then none else c.saveByVector.or c.markIndexed) := by
  rw [storeUnchanged, raising_bind_raising]
  cases c.changedAgain with
  | true => rfl
  | false => rfl

theorem afterUpdate_escapes : (∃ r, afterUpdate c = .error r) ↔
    Uncaught (c.encode.or (c.getText.or
      (if c.changedAgain then none else c.saveByVector.or c.markIndexed))) := by
  rw [afterUpdate, storeUnchanged_eq, raising_bind, raising_bind_raising, tryExcept_raising,
    Option.or_assoc]

theorem embedLinked_escapes : (∃ r, embedLinked c = .error r) ↔
    Uncaught (c.encode.or (c.saveByVector.or c.markIndexed)) := by
  rw [embedLinked, raising_bind, raising_bind_raising, tryExcept_raising, Option.or_assoc]

theorem deleteSuperseded_escapes {isUpdate : Bool} :
    (∃ r, deleteSuperseded c isUpdate = .error r) ↔
      isUpdate = true ∧ c.superseded = true ∧ ∃ r, c.unlink = some r ∧ r ≠ .osError := by
  unfold deleteSuperseded
  by_cases reached : (isUpdate && c.superseded) = true
  · have both := Bool.and_eq_true_iff.mp reached
    cases c.unlink with
    | none => simp [both.1, both.2, raising, tryExceptOSError]
    | some r =>
      by_cases os : r = .osError
      · simp [both.1, both.2, raising, tryExceptOSError, os]
      · simp [both.1, both.2, raising, tryExceptOSError, os]
  · have not_both : ¬ (isUpdate = true ∧ c.superseded = true) := by simpa using reached
    simp only [reached, Bool.false_eq_true, ↓reduceIte, reduceCtorEq, exists_false, false_iff]
    rintro ⟨h1, h2, _⟩
    exact not_both ⟨h1, h2⟩

theorem afterSave_escapes {isUpdate : Bool} :
    (∃ r, afterSave c isUpdate = .error r) ↔ (FollowUp.embedLinked isUpdate).Escapes c := by
  rw [FollowUp.Escapes, ← deleteSuperseded_escapes, ← embedLinked_escapes, afterSave]
  cases deleteSuperseded c isUpdate with
  | error r => simp [bind, Except.bind]
  | ok _ => simp [bind, Except.bind]

theorem followUp_escapes (followUp : FollowUp) :
    (∃ r, followUp.run c = .error r) ↔ followUp.Escapes c := by
  cases followUp with
  | nothing => simp [FollowUp.run, FollowUp.Escapes]
  | embedEntry => exact afterAppend_escapes
  | reembed textChanged =>
    cases textChanged with
    | true => simpa [FollowUp.run, FollowUp.Escapes] using afterUpdate_escapes
    | false => simp [FollowUp.run, FollowUp.Escapes]
  | embedLinked isUpdate => exact afterSave_escapes

end Escapes

section Reports
variable {E : Type} (host : Host)

/-- The checks of the call pass, and nothing stops its transaction. -/
def Commits (db : JournalDb E) (today : Date) (now : Time) (c : Circumstances) (call : Call) :
    Prop :=
  (∃ written, call.write host db today now = .ok written) ∧ c.obstacle = none

/-- What follows a call, from its arguments and the rows before it. -/
def Call.followUp (db : JournalDb E) : Call → FollowUp
  | .appendEntry .. => .embedEntry
  | .updateEntry _ content reasoning _ _ _ =>
    .reembed (content.isSome || (updateReasoning host reasoning).toOption.join.isSome)
  | .deleteEntry _ => .nothing
  | .createTopic .. => .nothing
  | .saveConversation topic title .. =>
    .embedLinked (savedConversation db ((checkTopic host topic).toOption.getD [])
      ((validateTitle title).toOption.getD [])).2

/-- The audit names a topic by its path, which can only by chance be its id. -/
def Call.NamesRow (db : JournalDb E) : Call → Prop
  | .createTopic topic _ _ => checkTopic host topic = .ok (number db.topics.freshKey)
  | _ => True

/-- A committed write returns a success and is audited once, with its action and its
row; without a commit there is no audit. -/
structure Reported (call : Call) (outcome : Outcome E) : Prop where
  committed : ∀ rowId, outcome.committed = some rowId →
    (∃ result, outcome.result = .ok result ∧ resultIsSuccess result = true) ∧
      ∃ one, outcome.audits = [one] ∧ one.action = call.audit.action ∧
        one.targetId = some (number rowId)
  uncommitted : outcome.committed = none → outcome.audits = []

end Reports

section Written
variable {E : Type} {host : Host} {db : JournalDb E} {today : Date} {now : Time}

theorem liftWrite_eq_ok {A : Type} {x : Except WriteError A} {a : A} :
    liftWrite x = .ok a ↔ x = .ok a :=
  Fallible.mapError_eq_ok

/-- What a written row says of the result that the tool returns for it. -/
structure Reports (call : Call) (written : Written E) : Prop where
  success : resultIsSuccess (.dict written.result) = true
  followUp : written.followUp = call.followUp host db
  target : (extractTargetId written.result call.audit.targetType).map Prod.fst =
    some (number written.rowId) ↔ call.NamesRow host db

theorem appendTool_reports {topic content : PyStr} {reasoning date : Option PyStr}
    {tags : List PyStr} {written : Written E}
    (ok : appendTool host db topic content reasoning tags date today = .ok written) :
    @Reports E host db (.appendEntry topic content reasoning tags date) written := by
  obtain ⟨path, _, ok⟩ := Fallible.bind_eq_ok.mp ok
  obtain ⟨after, _, ok⟩ := Fallible.bind_eq_ok.mp ok
  cases ok
  exact ⟨rfl, rfl, iff_of_true rfl trivial⟩

theorem updateTool_reports {id : EntryId} {content reasoning date : Option PyStr} {mode : Mode}
    {tags : Option (List PyStr)} {written : Written E}
    (ok : updateTool host db id content reasoning mode date tags = .ok written) :
    @Reports E host db (.updateEntry id content reasoning mode date tags) written := by
  obtain ⟨after, _, ok⟩ := Fallible.bind_eq_ok.mp ok
  obtain ⟨kept, hkept, ok⟩ := Fallible.bind_eq_ok.mp ok
  cases ok
  refine ⟨rfl, ?_, iff_of_true rfl trivial⟩
  rw [Call.followUp, liftWrite_eq_ok.mp hkept]
  rfl

theorem deleteTool_reports {id : EntryId} {written : Written E}
    (ok : deleteTool db id now = .ok written) :
    @Reports E host db (.deleteEntry id) written := by
  unfold deleteTool at ok
  split at ok
  · cases ok
  · cases ok
    exact ⟨rfl, rfl, iff_of_true rfl trivial⟩

theorem createTopicTool_reports {topic title description : PyStr} {written : Written E}
    (ok : createTopicTool host db topic title description = .ok written) :
    @Reports E host db (.createTopic topic title description) written := by
  obtain ⟨path, hpath, ok⟩ := Fallible.bind_eq_ok.mp ok
  split at ok
  · cases ok
  obtain ⟨after, _, ok⟩ := Fallible.bind_eq_ok.mp ok
  cases ok
  have checked : checkTopic host topic = .ok path := liftWrite_eq_ok.mp hpath
  refine ⟨?_, rfl, ?_⟩
  · by_cases same : topic = path
    · simp [resultIsSuccess, Dict.get, same]
    · simp [resultIsSuccess, Dict.get, same]
  · simp [extractTargetId, TARGET_KEYS, Call.audit, Dict.get, Json.str, Call.NamesRow, checked]

theorem saveTool_reports {topic title summary source : PyStr} {messages : List MessageInput}
    {tags : List PyStr} {date : Option PyStr} {written : Written E}
    (ok : saveTool host db topic title messages summary source tags date today = .ok written) :
    @Reports E host db (.saveConversation topic title messages summary source tags date)
      written := by
  obtain ⟨path, hpath, ok⟩ := Fallible.bind_eq_ok.mp ok
  obtain ⟨clean, hclean, ok⟩ := Fallible.bind_eq_ok.mp ok
  obtain ⟨after, _, ok⟩ := Fallible.bind_eq_ok.mp ok
  cases ok
  have checked : checkTopic host topic = .ok path := liftWrite_eq_ok.mp hpath
  have titled : validateTitle title = .ok clean :=
    Fallible.mapError_eq_ok.mp (liftWrite_eq_ok.mp hclean)
  refine ⟨?_, ?_, iff_of_true rfl trivial⟩
  · rfl
  · rw [Call.followUp, checked, titled]
    rfl

theorem write_reports {call : Call} {written : Written E}
    (ok : call.write host db today now = .ok written) : @Reports E host db call written := by
  cases call with
  | appendEntry topic content reasoning tags date => exact appendTool_reports ok
  | updateEntry id content reasoning mode date tags => exact updateTool_reports ok
  | deleteEntry id => exact deleteTool_reports ok
  | createTopic topic title description => exact createTopicTool_reports ok
  | saveConversation topic title messages summary source tags date => exact saveTool_reports ok

end Written

section Invoked
variable {E : Type} {host : Host} {db : JournalDb E} {today : Date} {now : Time}
  {c : Circumstances} {call : Call}

/-- Every error that a tool answers with says `success: False`. -/
theorem answerTo_not_success {error : ToolError} {result : Result}
    (answered : answerTo c error = .ok result) : resultIsSuccess result = false := by
  unfold answerTo at answered
  split at answered
  · cases answered
    rfl
  · cases answered
    rfl
  · cases answered
    rfl
  · split at answered
    · cases answered
    · cases answered
      rfl
  · split at answered
    · cases answered
    · cases answered
      rfl
  · cases answered

theorem audited_answerTo (audit : Audit) (error : ToolError) :
    audited audit c.userId c.persistsAudit (answerTo c error) = ([], answerTo c error) := by
  cases answered : answerTo c error with
  | error raised => rfl
  | ok result => simp [audited, answerTo_not_success answered]

/-- Without a commit the tool answers with an error or raises, and no audit is tried. -/
theorem invoke_of_not_commits (stopped : ¬ Commits host db today now c call) :
    (invoke host db today now c call).committed = none ∧
      (invoke host db today now c call).audits = [] := by
  unfold invoke
  cases wrote : call.write host db today now with
  | error error => simp [audited_answerTo]
  | ok written =>
    cases obstacle : c.obstacle with
    | some raised => exact ⟨rfl, rfl⟩
    | none => exact absurd ⟨⟨written, wrote⟩, obstacle⟩ stopped

theorem userId_of_obstacle (clear : c.obstacle = none) : ∃ userId, c.userId = some userId := by
  cases user : c.userId with
  | some userId => exact ⟨userId, rfl⟩
  | none =>
    rw [Circumstances.obstacle, user] at clear
    cases clear

/-- A committed call with steps after it that end in an exception. -/
theorem invoke_of_escape {written : Written E} {raised : Raised}
    (wrote : call.write host db today now = .ok written) (clear : c.obstacle = none)
    (escaped : written.followUp.run c = .error raised) :
    invoke host db today now c call = ⟨written.db, some written.rowId, [], .error raised⟩ := by
  simp [invoke, wrote, clear, escaped, audited, Except.map]

theorem invoke_of_passed {written : Written E} {userId : UserId}
    (wrote : call.write host db today now = .ok written) (clear : c.obstacle = none)
    (user : c.userId = some userId) (passed : written.followUp.run c = .ok ()) :
    invoke host db today now c call =
      ⟨written.db, some written.rowId, [auditCall call.audit userId (.dict written.result)],
        (tryExcept (raising c.persistsAudit) ()).map (fun () => .dict written.result)⟩ := by
  have success := (write_reports wrote).success
  simp [invoke, wrote, clear, user, passed, audited, success, Except.map]

theorem reported_iff : Reported call (invoke host db today now c call) ↔
    (Commits host db today now c call →
      ¬ (call.followUp host db).Escapes c ∧ ¬ Uncaught c.persistsAudit ∧
        call.NamesRow host db) := by
  by_cases commits : Commits host db today now c call
  · obtain ⟨⟨written, wrote⟩, clear⟩ := commits
    have reports := write_reports wrote
    obtain ⟨userId, user⟩ := userId_of_obstacle clear
    rw [← followUp_escapes, ← tryExcept_raising, ← reports.target, ← reports.followUp]
    simp only [show Commits host db today now c call from ⟨⟨written, wrote⟩, clear⟩, true_implies]
    cases followed : written.followUp.run c with
    | error raised =>
      rw [invoke_of_escape wrote clear followed]
      refine iff_of_false ?_ (fun h => h.1 ⟨raised, rfl⟩)
      intro reported
      obtain ⟨⟨result, returned, _⟩, _⟩ := reported.committed _ rfl
      cases returned
    | ok _ =>
      rw [invoke_of_passed wrote clear user followed]
      cases persisted : tryExcept (raising c.persistsAudit) () with
      | error raised =>
        refine iff_of_false ?_ (fun h => h.2.1 ⟨raised, rfl⟩)
        intro reported
        obtain ⟨⟨result, returned, _⟩, _⟩ := reported.committed _ rfl
        cases returned
      | ok _ =>
        constructor
        · intro reported
          obtain ⟨_, one, audits, _, target⟩ := reported.committed _ rfl
          cases List.singleton_inj.mp audits
          exact ⟨nofun, nofun, target⟩
        · rintro ⟨_, _, target⟩
          refine ⟨?_, nofun⟩
          rintro rowId same
          cases same
          exact ⟨⟨_, rfl, reports.success⟩, _, rfl, rfl, target⟩
  · obtain ⟨uncommitted, unaudited⟩ := invoke_of_not_commits commits
    refine iff_of_true ⟨?_, fun _ => unaudited⟩ (fun h => absurd h commits)
    intro rowId committed
    rw [uncommitted] at committed
    cases committed

end Invoked

/-- The state and the circumstances that one attempt of a client meets. -/
structure Try (E : Type) where
  db : JournalDb E
  today : Date
  now : Time
  circumstances : Circumstances

def Outcome.isError {E : Type} (outcome : Outcome E) : Bool :=
  match outcome.result with
  | .error _ => true
  | .ok result => !resultIsSuccess result

section Retries
variable {E : Type} (host : Host) (call : Call)

def Try.outcome (t : Try E) : Outcome E :=
  invoke host t.db t.today t.now t.circumstances call

/-- The attempts of a client that calls again after an error only. -/
def retried : List (Try E) → List (Outcome E)
  | [] => []
  | t :: rest =>
    if (t.outcome host call).isError then t.outcome host call :: retried rest
    else [t.outcome host call]

/-- No exception comes after the commit of the attempt. -/
def Try.Settles (t : Try E) : Prop :=
  Commits host t.db t.today t.now t.circumstances call →
    ¬ (call.followUp host t.db).Escapes t.circumstances ∧
      ¬ Uncaught t.circumstances.persistsAudit

variable {host call}

theorem not_isError_of_settles {t : Try E} (settles : t.Settles host call)
    (committed : (t.outcome host call).committed.isSome = true) :
    (t.outcome host call).isError = false := by
  by_cases commits : Commits host t.db t.today t.now t.circumstances call
  · obtain ⟨calm, persisted⟩ := settles commits
    obtain ⟨⟨written, wrote⟩, clear⟩ := commits
    have reports := write_reports wrote
    obtain ⟨userId, user⟩ := userId_of_obstacle clear
    rw [← reports.followUp, ← followUp_escapes] at calm
    rw [← tryExcept_raising] at persisted
    cases followed : written.followUp.run t.circumstances with
    | error raised => exact absurd ⟨raised, followed⟩ calm
    | ok _ =>
      cases persists : tryExcept (raising t.circumstances.persistsAudit) () with
      | error raised => exact absurd ⟨raised, persists⟩ persisted
      | ok _ =>
        rw [Try.outcome, invoke_of_passed wrote clear user followed, Outcome.isError, persists]
        simp [Except.map, reports.success]
  · rw [Try.outcome, (invoke_of_not_commits commits).1] at committed
    cases committed

theorem retried_commits {tries : List (Try E)} (settles : ∀ t ∈ tries, t.Settles host call) :
    ((retried host call tries).filter (fun outcome => outcome.committed.isSome)).length ≤ 1 := by
  induction tries with
  | nil => exact Nat.zero_le 1
  | cons t rest ih =>
    have tail := ih (fun other mem => settles other (List.mem_cons_of_mem t mem))
    rw [retried]
    split
    · next failed =>
      have uncommitted : (t.outcome host call).committed.isSome = false := by
        cases committed : (t.outcome host call).committed.isSome with
        | false => rfl
        | true =>
          have fine := not_isError_of_settles (settles t List.mem_cons_self) committed
          rw [fine] at failed
          cases failed
      rw [List.filter_cons_of_neg (by simp [uncommitted])]
      exact tail
    · exact List.length_filter_le _ _

/-- A call is reported and audited as it should be exactly when no exception escapes
after its commit and its audit names its row. A client that retries after errors only
commits at most once where no exception escapes. -/
theorem committed_write_reported (host : Host) (call : Call) :
    (∀ (db : JournalDb E) (today : Date) (now : Time) (c : Circumstances),
      Reported call (invoke host db today now c call) ↔
        (Commits host db today now c call →
          ¬ (call.followUp host db).Escapes c ∧ ¬ Uncaught c.persistsAudit ∧
            call.NamesRow host db)) ∧
    ∀ tries : List (Try E), (∀ t ∈ tries, t.Settles host call) →
      ((retried host call tries).filter (fun outcome => outcome.committed.isSome)).length ≤ 1 :=
  ⟨fun _ _ _ _ => reported_iff, fun _ settles => retried_commits settles⟩

end Retries

def workJournal : JournalDb Unit :=
  { emptyJournal with topics := emptyJournal.topics.put 1 ⟨py "work", py "Work"⟩ }

def appendPlan : Call := .appendEntry (py "work") (py "Plan") none [] none

def calm : Circumstances where
  userId := some 7
  interrupts := none
  encode := none
  getText := none
  saveByVector := none
  markIndexed := none
  unlink := none
  persistsAudit := none
  changedAgain := false
  superseded := false

def calmTry : Try Unit := ⟨workJournal, Listing.sampleTime.date, 0, calm⟩

/-- The stamp cannot be written, after the entry and its vector. -/
def unstamped : Circumstances := { calm with markIndexed := some .exception }

def unstampedTry : Try Unit := { calmTry with circumstances := unstamped }

theorem committed_write_reported_once :
    Reported appendPlan (invoke sampleHost workJournal Listing.sampleTime.date 0 calm appendPlan) ∧
    ((retried sampleHost appendPlan [calmTry, calmTry]).filter
      (fun outcome => outcome.committed.isSome)).length ≤ 1 := by
  have unescaped : ¬ FollowUp.embedEntry.Escapes calm ∧ ¬ Uncaught calm.persistsAudit := by
    simp [FollowUp.Escapes, Uncaught, calm]
  obtain ⟨reported, bounded⟩ := @committed_write_reported Unit sampleHost appendPlan
  refine ⟨(reported _ _ _ _).mpr fun _ => ⟨unescaped.1, unescaped.2, trivial⟩, ?_⟩
  refine bounded [calmTry, calmTry] fun t mem _ => ?_
  have same : t = calmTry := by simpa using mem
  exact same ▸ unescaped

/-- A retry after the exception appends the entry a second time. -/
example : ((retried sampleHost appendPlan [unstampedTry, calmTry]).filter
    (fun outcome => outcome.committed.isSome)).length = 2 := by decide

theorem committed_append_unreported :
    ¬ ∀ (host : Host) (db : JournalDb Unit) (today : Date) (now : Time) (c : Circumstances)
      (call : Call), Reported call (invoke host db today now c call) := by
  intro all
  have reported := all sampleHost workJournal Listing.sampleTime.date 0 unstamped appendPlan
  have committed : (invoke sampleHost workJournal Listing.sampleTime.date 0 unstamped
      appendPlan).committed = some 1 := by decide
  have raised : (invoke sampleHost workJournal Listing.sampleTime.date 0 unstamped
      appendPlan).result = .error .exception := by decide
  obtain ⟨⟨result, returned, _⟩, _⟩ := reported.committed 1 committed
  rw [raised] at returned
  cases returned

end AuditedTools
