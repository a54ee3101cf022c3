import Gubbi.Library.Connections
import Gubbi.Tenancy.Statements

/-!
# The repositories

The functions of `storage/repositories` that write, with the reads they rest on, as
sessions on a connection. Topic paths are ones that `validate_topic` accepts.
-/

namespace Tenancy

open Text Validation Transactions Connections
open JournalEntries (EntryId Entry Mode linkedContent)
open JournalConversations (TopicId Platform Message recordOf)
open JournalRows (number)
open ExtractionJobs (UserId JobId JobRow Period Cents ErrorCode Sweep)

abbrev Tx (E A : Type) := Session (Conn (Db E) Login) StorageError A

section Repositories
variable {E : Type}

/-- One statement; a failed transaction refuses it with `InFailedSQLTransactionError`. -/
def run {A : Type} (statement : Statement E A) : Tx E A := execute .inFailedTransaction statement

theorem run_ok {A : Type} (statement : Statement E A) {c : Conn (Db E) Login} {a : A} {db : Db E}
    (running : c.status ≠ .inError) (written : statement c.settings c.store = .ok (a, db)) :
    run statement c = (.ok a, { c with store := db }) := execute_ok running written

theorem run_error {A : Type} (statement : Statement E A) {c : Conn (Db E) Login}
    {e : StorageError} (running : c.status ≠ .inError)
    (failed : statement c.settings c.store = .error e) :
    run statement c = (.error e, { c with status := c.status.afterFailure }) :=
  execute_error running failed

theorem run_returned {A : Type} {statement : Statement E A} {c c' : Conn (Db E) Login} {a : A}
    (h : run statement c = (.ok a, c')) :
    ∃ db, statement c.settings c.store = .ok (a, db) ∧ c' = { c with store := db } := by
  unfold run execute at h
  split at h
  · cases h
  · split at h
    · next written =>
      cases h
      exact ⟨_, written, rfl⟩
    · cases h

theorem refuses_run {A : Type} (statement : Statement E A) : Refuses (run statement) :=
  refuses_execute _

/-- `assert conn.is_in_transaction()`. -/
def assertInTransaction : Tx E Unit := fun c =>
  if c.status = .idle then (.error .assertionError, c) else (.ok (), c)

def recordAudit (actorId : UserId) (action : AuditAction) (targetId : Nat) : Tx E Unit :=
  run (insertAudit ⟨actorId, action, targetId⟩)

def topicPathMissing (path : PyStr) : StorageError :=
  .topicNotFound (py "Topic '" ++ path ++
    py "' not found -- create it first with journal_create_topic")

def topicIdMissing (id : TopicId) : StorageError :=
  .topicNotFound (py "Topic id " ++ number id ++ py " not found")

def topicExists (path : PyStr) : StorageError :=
  .topicAlreadyExists (py "Topic '" ++ path ++ py "' already exists")

/-- `get_id`. -/
def getTopicId (path : PyStr) : Tx E TopicId := do
  let row ← run (selectTopicId path)
  match row with
  | some id => pure id
  | none => fail (topicPathMissing path)

/-- `except asyncpg.UniqueViolationError`. -/
def onUniqueViolation (raised : StorageError) : StorageError → StorageError
  | .uniqueViolation => raised
  | e => e

/-- `topics.create`. -/
def createTopic (path title description : PyStr) (now : Time) : Tx E TopicId :=
  mapError (onUniqueViolation (topicExists path)) (run (insertTopic path title description now))

/-- `_require_path`. -/
def requirePath (id : TopicId) : Tx E PyStr := do
  let row ← run (selectTopicPath id)
  match row with
  | some path => pure path
  | none => fail (topicIdMissing id)

def renameTopic (id : TopicId) (newPath : PyStr) (newTitle : Option PyStr) (actorId : UserId)
    (now : Time) : Tx E Unit := do
  let _ ← requirePath id
  let found ← mapError (onUniqueViolation (topicExists newPath))
    (run (updateTopicPath id newPath newTitle now))
  if found then recordAudit actorId .topicRenamed id
  else fail (topicIdMissing id)

/-- `_reassign_rows`. -/
def reassignRows (source dest : TopicId) (now : Time) : Tx E (Nat × Nat) := do
  let conversations ← mapError (onUniqueViolation (.topicMergeConflict
      (py "Destination topic already holds a conversation with the same slug")))
    (run (reassignConversations source dest now))
  let entries ← run (moveRows (fun _ row => row.topicId = source) dest now)
  pure (entries.length, conversations)

/-- What `merge` and `delete_with_reassign` do once the destination is resolved. -/
def moveAndDelete (source dest : TopicId) (now : Time) : Tx E (Nat × Nat) := do
  let moved ← reassignRows source dest now
  run (deleteTopicRow source)
  run (touchTopic dest now)
  pure moved

def deleteWithReassign (id : TopicId) (moveEntriesTo : Option TopicId) (actorId : UserId)
    (now : Time) : Tx E (Nat × Nat) := do
  let _ ← requirePath id
  let counts ← run (countRows id)
  if counts = (0, 0) then
    run (deleteTopicRow id)
    recordAudit actorId .topicDeleted id
    pure (0, 0)
  else
    match moveEntriesTo with
    | none => fail (.valueError
        (py "Topic has " ++ number counts.1 ++ py " entries that need a destination"))
    | some dest =>
      if dest = id then fail (.valueError (py "Cannot reassign a topic's entries to itself"))
      else
        let _ ← requirePath dest
        let moved ← moveAndDelete id dest now
        recordAudit actorId .entryMoved dest
        recordAudit actorId .topicDeleted id
        pure moved

def mergeTopics (source dest : TopicId) (actorId : UserId) (now : Time) : Tx E (Nat × Nat) :=
  if source = dest then fail (.valueError (py "Cannot merge a topic into itself"))
  else do
    let _ ← requirePath source
    let _ ← requirePath dest
    let moved ← moveAndDelete source dest now
    recordAudit actorId .topicMerged dest
    pure moved

def entryMissing (id : EntryId) : StorageError :=
  .entryNotFound (py "Entry id " ++ number id ++ py " not found")

def appendEntry (path content : PyStr) (reasoning : Option PyStr) (tags : List PyStr)
    (date : PyStr) (now : Time) : Tx E EntryId := do
  let topicId ← getTopicId path
  run (insertEntry topicId content reasoning tags date now)

def getText (id : EntryId) : Tx E (Option (PyStr × Option PyStr)) := do
  let row ← run (selectActive id)
  pure (row.map (fun row => (row.entry.content, row.entry.reasoning)))

def updateEntry (id : EntryId) (content reasoning : Option PyStr) (mode : Mode)
    (date : Option PyStr) (tags : Option (List PyStr)) (now : Time) : Tx E Unit := do
  assertInTransaction
  let row ← run (selectActive id)
  match row with
  | none => fail (entryMissing id)
  | some _ =>
    run (updateEntryRow id (fun entry => entry.update content reasoning mode date tags) now)
    if content.isSome || reasoning.isSome then run (deleteEmbedding id) else pure ()

def deleteEntry (id : EntryId) (now : Time) : Tx E TopicId := do
  let row ← run (softDelete id now)
  match row with
  | none => fail (entryMissing id)
  | some topicId => pure topicId

def MAX_MOVE_IDS : Nat := 100

/-- `ids` is without duplicates, as `dict.fromkeys` leaves it. -/
def moveEntriesToTopic (ids : List EntryId) (dest : TopicId) (actorId : UserId) (now : Time) :
    Tx E Nat := do
  assertInTransaction
  if ids = [] then fail (.valueError (py "No entry ids supplied"))
  else if MAX_MOVE_IDS < ids.length then
    fail (.valueError
      (py "Cannot move more than " ++ number MAX_MOVE_IDS ++ py " entries at once"))
  else
    let _ ← requirePath dest
    let moved ← run (moveRows
      (fun id row => decide (id ∈ ids) && decide (row.entry.deletedAt = none)) dest now)
    let missing := ids.filter (fun id => id ∉ moved)
    if missing ≠ [] then fail (.entriesMoveNotFound missing)
    else
      run (touchTopic dest now)
      recordAudit actorId .entryMoved dest
      pure ids.length

def markIndexed (id : EntryId) (now : Time) : Tx E Unit :=
  run (setIndexedAt (fun key _ => key = id) (some now))

def markIndexedBatch (ids : List EntryId) (now : Time) : Tx E Unit :=
  if ids = [] then pure () else run (setIndexedAt (fun key _ => key ∈ ids) (some now))

def resetIndexedAt : Tx E Unit := run (setIndexedAt (fun _ row => row.entry.deletedAt = none) none)

def resetIndexedAtForIds (ids : List EntryId) : Tx E Unit :=
  if ids = [] then pure ()
  else run (setIndexedAt (fun key row => decide (key ∈ ids) && decide (row.entry.deletedAt = none))
    none)

def getUnindexed (lastId : EntryId) (batchSize : Nat) (locked : List EntryId) :
    Tx E (List (EntryId × UserId)) :=
  run (selectUnindexed lastId batchSize locked)

/-- `EmbeddingService.save_by_vector`. -/
def saveByVector (id : EntryId) (embedding : E) : Tx E Unit := run (upsertEmbedding id embedding)

/-- `_insert_messages`, with the position of the first message. -/
def insertMessages (id : ConversationId) : List Message → Nat → Tx E Unit
  | [], _ => pure ()
  | message :: rest, position => do
    run (insertMessage ⟨id, message.role, message.timestamp, position, message.content⟩)
    insertMessages id rest (position + 1)

/-- `_upsert_linked_entry`. -/
def upsertLinkedEntry (topicId : TopicId) (id : ConversationId) (title summary date : PyStr)
    (now : Time) : Tx E EntryId := do
  let existing ← run (selectLinked id)
  match existing with
  | some entryId =>
    run (rewriteLinked entryId (linkedContent title summary) date now)
    pure entryId
  | none => run (insertLinked topicId id (linkedContent title summary) date now)

structure SaveConversationResult where
  conversationId : ConversationId
  isUpdate : Bool
  linkedEntryId : EntryId
  deriving DecidableEq

/-- `save_conversation`. -/
def saveConversation (path title : PyStr) (messages : List Message) (summary source : PyStr)
    (tags : List PyStr) (date : PyStr) (now : Time) : Tx E SaveConversationResult := do
  assertInTransaction
  match validateTitle title with
  | .error error => fail (.invalidTitle error)
  | .ok title =>
    let topicId ← getTopicId path
    let saved ← run (upsertConversation
      (recordOf topicId title messages summary source tags date) now)
    run (deleteMessages saved.1)
    insertMessages saved.1 messages 0
    let linkedEntryId ← upsertLinkedEntry topicId saved.1 title summary date now
    run (touchTopic topicId now)
    pure ⟨saved.1, saved.2, linkedEntryId⟩

def setPlatformMetadata (id : ConversationId) (platform : Platform) (platformId : PyStr) :
    Tx E Unit :=
  run (updatePlatform id platform platformId)

def getProcessedAt (id : ConversationId) : Tx E (Option Time) := run (selectProcessedAt id)

def markProcessed (id : ConversationId) (now : Time) : Tx E Unit := run (updateProcessedAt id now)

/-- `create_pending`. -/
def createPending (user : UserId) (id : ConversationId) (source : PyStr) (periodStart : Period)
    (now : Time) : Tx E JobId :=
  rescue (run (insertPending user id source periodStart now)) fun e =>
    if e = .uniqueViolation then do
      let existing ← run (selectInFlight user id source)
      match existing with
      | none => fail (.runtimeError
          (py "Conflict on (user_id=" ++ number user ++ py ", conversation_id=" ++ number id ++
            py ", source=" ++ source ++ py ") but no existing row found"))
      | some jobId => fail (.alreadyInFlight jobId)
    else fail e

def markRunning (id : JobId) (now : Time) : Tx E Unit := run (updateRunning id now)

def markCompleted (id : JobId) (topicsCreated entriesCreated : Nat) (centsSpent : Cents)
    (now : Time) : Tx E Bool :=
  run (updateJob id (fun row => !row.status.terminal)
    (JobRow.markCompleted topicsCreated entriesCreated centsSpent now))

def markFailed (id : JobId) (errorCode : ErrorCode) (now : Time) : Tx E Bool :=
  run (updateJob id (fun row => !row.status.terminal) (JobRow.markFailed errorCode now))

end Repositories

end Tenancy
