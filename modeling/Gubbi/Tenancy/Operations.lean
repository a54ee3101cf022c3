import Gubbi.Extraction.Worker
import Gubbi.Tenancy.Repositories

/-!
# The operations of the service

Every transaction that a tool, a web endpoint, ingest, the extraction worker, reindex or
an orphan sweep commits, for any user. An operation of several transactions goes on with
the ids that the earlier ones gave it; those ids are kept in `pending`, and the later
transactions may come at any time, or never.

Dates are texts that `fromisoformat` reads, and what an operation does without the
database is left out, as are its transactions that only read.
-/

namespace Tenancy

open Text RowSecurity Transactions Connections
open JournalEntries (EntryId Entry Mode)
open JournalConversations (TopicId Platform Message)
open ExtractionJobs (UserId JobId Period Cents ErrorCode Sweep)
open ExtractConversation (ExtractedEntry)

/-- `set_config('app.current_user_id', $1, true)`. -/
def setCurrentUser {E : Type} (user : UserId) : Tx E Unit :=
  setLocal .inFailedTransaction (fun login => { login with currentUserId := some user })

/-- `user_scoped_connection`, and the transactions of ingest and reindex that set the
user themselves. -/
def userScoped {E A : Type} (user : UserId) (body : Tx E A) : Tx E A :=
  withTransaction .inFailedTransaction (do
    setCurrentUser user
    body)

/-- What the model calls came back with, and the job; `none` is the id `unknown`. -/
structure Extraction where
  conversationId : ConversationId
  topicPath : PyStr
  topicTitle : PyStr
  entries : List ExtractedEntry
  jobId : Option JobId
  centsSpent : Cents
  deriving DecidableEq

section Worker
variable {E : Type}

/-- `_check_idempotent`. -/
def checkIdempotent (id : ConversationId) : Tx E Bool := do
  let processedAt ← getProcessedAt id
  pure processedAt.isSome

/-- `try: get_id(...) except TopicNotFoundError`. -/
def lookUpTopic (path : PyStr) : Tx E Bool :=
  rescue (do
    let _ ← getTopicId path
    pure true) fun e =>
    match e with
    | .topicNotFound _ => pure false
    | e => fail e

/-- The session sees a topic at the path. -/
def pathVisible (login : Login) (db : Db E) (path : PyStr) : Bool :=
  (select (access db login) TopicRow.userId db.topics (fun _ row => row.path = path)).head?.isSome

theorem lookUpTopic_eq {c : Conn (Db E) Login} (running : c.status ≠ .inError) (path : PyStr) :
    lookUpTopic path c = (.ok (pathVisible c.settings c.store path), c) := by
  have selected : run (selectTopicId path) c = (.ok (select (access c.store c.settings)
      TopicRow.userId c.store.topics (fun _ row => row.path = path)).head?, c) :=
    run_ok _ running rfl
  unfold pathVisible
  cases hrow : (select (access c.store c.settings) TopicRow.userId c.store.topics
      (fun _ row => row.path = path)).head? with
  | none =>
    rw [hrow] at selected
    have missing : getTopicId path c = (.error (topicPathMissing path), c) :=
      bind_of_ok selected
    unfold lookUpTopic rescue
    rw [bind_error missing]
    rfl
  | some id =>
    rw [hrow] at selected
    have found : getTopicId path c = (.ok id, c) := bind_of_ok selected
    unfold lookUpTopic rescue
    rw [bind_of_ok found]
    rfl

/-- `try: create(...) except TopicAlreadyExists`; it returns `topic_created`. -/
def createOrProceed (path title : PyStr) (now : Time) : Tx E Bool :=
  rescue (do
    let _ ← createTopic path title [] now
    pure true) fun e =>
    match e with
    | .topicAlreadyExists _ => pure false
    | e => fail e

/-- The append loop. -/
def appendEntries (path today : PyStr) (now : Time) : List ExtractedEntry → Tx E Unit
  | [] => pure ()
  | entry :: rest => do
    let _ ← appendEntry path entry.content (some entry.reasoning) entry.tags
      (entry.entryDate.getD today) now
    appendEntries path today now rest

/-- `mark_completed` with its audit row. -/
def completeJob (user : UserId) (jobId : Option JobId) (topicsCreated entriesCreated : Nat)
    (centsSpent : Cents) (now : Time) : Tx E Unit :=
  match jobId with
  | none => pure ()
  | some jobId => do
    let updated ← markCompleted jobId topicsCreated entriesCreated centsSpent now
    if updated then recordAudit user .jobCompleted jobId else pure ()

/-- `_persist_extraction` after its topic upsert. -/
def persistEntries (user : UserId) (x : Extraction) (topicCreated : Bool) (today : PyStr)
    (now : Time) : Tx E Unit := do
  appendEntries x.topicPath today now x.entries
  markProcessed x.conversationId now
  recordAudit user .conversationExtracted x.conversationId
  completeJob user x.jobId topicCreated.toNat x.entries.length x.centsSpent now

/-- Nothing is persisted in a failed transaction, not even when there are no entries. -/
theorem persistEntries_refuses (user : UserId) (x : Extraction) (topicCreated : Bool)
    (today : PyStr) (now : Time) :
    Refuses (persistEntries (E := E) user x topicCreated today now) := by
  intro c failed
  unfold persistEntries
  cases x.entries with
  | nil =>
    exact (refuses_run (updateProcessedAt x.conversationId now)).bind _ c failed
  | cons entry rest =>
    have refuses : Refuses (appendEntry (E := E) x.topicPath entry.content (some entry.reasoning)
        entry.tags (entry.entryDate.getD today) now) := ((refuses_run _).bind _).bind _
    exact (refuses.bind _).bind _ c failed

/-- The rest of the topic upsert. -/
def createUnless (found : Bool) (path title : PyStr) (now : Time) : Tx E Bool :=
  if found then pure false else createOrProceed path title now

/-- `_persist_extraction` once it knows whether the topic is there. -/
def persistInto (user : UserId) (x : Extraction) (found : Bool) (today : PyStr) (now : Time) :
    Tx E Unit := do
  let topicCreated ← createUnless found x.topicPath x.topicTitle now
  persistEntries user x topicCreated today now

/-- `_persist_extraction`. -/
def persistExtraction (user : UserId) (x : Extraction) (today : PyStr) (now : Time) :
    Tx E Unit := do
  let found ← lookUpTopic x.topicPath
  persistInto user x found today now

/-- Phase 1 up to the load. -/
def startExtraction (user : UserId) (id : ConversationId) (jobId : Option JobId) (now : Time) :
    Tx E Unit :=
  userScoped user (do
    let processed ← checkIdempotent id
    match processed, jobId with
    | false, some jobId => markRunning jobId now
    | _, _ => pure ())

/-- `_mark_skipped_no_topic`. -/
def markSkippedNoTopic (user : UserId) (id : ConversationId) (jobId : Option JobId) (now : Time) :
    Tx E Unit :=
  userScoped user (do
    markProcessed id now
    completeJob user jobId 0 0 0 now)

/-- The savepoint of phase 3. -/
def persistSavepoint (user : UserId) (x : Extraction) (today : PyStr) (now : Time) :
    Tx E Unit := do
  let processed ← checkIdempotent x.conversationId
  if processed then pure () else persistExtraction user x today now

/-- Phase 3. -/
def persistPhase (user : UserId) (x : Extraction) (today : PyStr) (now : Time) : Tx E Unit :=
  userScoped user (withTransaction .inFailedTransaction (persistSavepoint user x today now))

/-- `_mark_job_failed`. -/
def markJobFailed (user : UserId) (jobId : JobId) (errorCode : ErrorCode) (now : Time) :
    Tx E Unit :=
  userScoped user (do
    let updated ← markFailed jobId errorCode now
    if updated then recordAudit user .jobFailed jobId else pure ())

end Worker

def DEFAULT_INBOX_TOPIC : PyStr := py "inbox"

section Ingest
variable {E : Type}

/-- `with contextlib.suppress(TopicAlreadyExists)` around the transaction. -/
def ensureInbox (user : UserId) (now : Time) : Tx E Unit :=
  rescue (userScoped user (do
    let found ← lookUpTopic DEFAULT_INBOX_TOPIC
    if found then pure ()
    else do
      let _ ← createTopic DEFAULT_INBOX_TOPIC (py "Inbox") [] now
      pure ())) fun e =>
    match e with
    | .topicAlreadyExists _ => pure ()
    | e => fail e

/-- Transaction 1. -/
def ingestConversation (user : UserId) (title : PyStr) (messages : List Message)
    (platform : Platform) (platformId date : PyStr) (now : Time) :
    Tx E SaveConversationResult :=
  userScoped user (do
    let saved ← saveConversation DEFAULT_INBOX_TOPIC title messages [] platform.text [] date now
    setPlatformMetadata saved.conversationId platform platformId
    pure saved)

/-- The `try` of transaction 2: a job that is in flight is used again. -/
def createOrReuseJob (user : UserId) (id : ConversationId) (source : PyStr) (periodStart : Period)
    (now : Time) : Tx E JobId :=
  rescue (createPending user id source periodStart now) fun e =>
    match e with
    | .alreadyInFlight existing => pure existing
    | e => fail e

/-- Transaction 2. -/
def createExtractionJob (user : UserId) (id : ConversationId) (source : PyStr)
    (periodStart : Period) (now : Time) : Tx E JobId :=
  userScoped user (do
    let jobId ← createOrReuseJob user id source periodStart now
    recordAudit user .jobCreated jobId
    pure jobId)

end Ingest

section Requests
variable {E : Type}

/-- The fields of a PATCH of an entry; the tool has no `topicPath`. -/
structure EntryUpdate where
  content : Option PyStr
  reasoning : Option PyStr
  mode : Mode
  date : Option PyStr
  tags : Option (List PyStr)
  topicPath : Option PyStr
  deriving DecidableEq

def EntryUpdate.changesFields (body : EntryUpdate) : Bool :=
  body.content.isSome || body.reasoning.isSome || body.date.isSome || body.tags.isSome

/-- The text and metadata of a PATCH. -/
def patchFields (id : EntryId) (body : EntryUpdate) (now : Time) : Tx E Unit :=
  if body.changesFields then
    updateEntry id body.content body.reasoning body.mode body.date body.tags now
  else pure ()

/-- The move of a PATCH. -/
def patchTopic (user : UserId) (id : EntryId) (body : EntryUpdate) (now : Time) : Tx E Unit :=
  match body.topicPath with
  | none => pure ()
  | some path => do
    let dest ← getTopicId path
    let _ ← moveEntriesToTopic [id] dest user now
    pure ()

/-- `update_entry` and `journal_update_entry`. -/
def patchEntry (user : UserId) (id : EntryId) (body : EntryUpdate) (now : Time) : Tx E Unit :=
  userScoped user (withTransaction .inFailedTransaction (do
    patchFields id body now
    patchTopic user id body now))

/-- The second transaction of a re-embedding: nothing is stored when the text has changed. -/
def storeUnchanged (user : UserId) (id : EntryId) (text : PyStr × Option PyStr) (embedding : E)
    (now : Time) : Tx E Unit :=
  userScoped user (do
    let current ← getText id
    if current = some text then do
      saveByVector id embedding
      markIndexed id now
    else pure ())

/-- The claim of a batch by `_run_reindex`. -/
def claimBatch (lastId : EntryId) (batchSize : Nat) (locked : List EntryId) (now : Time) :
    Tx E (List (EntryId × UserId)) :=
  withTransaction .inFailedTransaction (do
    let batch ← getUnindexed lastId batchSize locked
    markIndexedBatch (batch.map Prod.fst) now
    pure batch)

end Requests

/-- What an operation goes on with after a transaction. -/
inductive Pending
  /-- A tool has written the entry and stores its vector. -/
  | embed (user : UserId) (id : EntryId)
  /-- Ingest has saved the conversation and creates its job. -/
  | enqueue (user : UserId) (id : ConversationId)
  /-- Reindex has claimed the entry of the user. -/
  | reindex (user : UserId) (id : EntryId)
  deriving DecidableEq

inductive Action (E : Type)
  | createTopic (user : UserId) (path title description : PyStr) (now : Time)
  | renameTopic (user : UserId) (id : TopicId) (newPath : PyStr) (newTitle : Option PyStr)
      (now : Time)
  | deleteTopic (user : UserId) (id : TopicId) (moveEntriesTo : Option TopicId) (now : Time)
  | mergeTopics (user : UserId) (source dest : TopicId) (now : Time)
  | appendEntry (user : UserId) (path content : PyStr) (reasoning : Option PyStr)
      (tags : List PyStr) (date : PyStr) (now : Time)
  | updateEntry (user : UserId) (id : EntryId) (body : EntryUpdate) (now : Time)
  | deleteEntry (user : UserId) (id : EntryId) (now : Time)
  | moveEntries (user : UserId) (ids : List EntryId) (dest : TopicId) (now : Time)
  | saveConversation (user : UserId) (path title : PyStr) (messages : List Message)
      (summary source : PyStr) (tags : List PyStr) (date : PyStr) (now : Time)
  /-- A pending vector; the one of a conversation is stamped in the same transaction. -/
  | embed (user : UserId) (id : EntryId) (embedding : E) (stamp : Option Time)
  | storeUnchanged (user : UserId) (id : EntryId) (text : PyStr × Option PyStr) (embedding : E)
      (now : Time)
  | markIndexed (user : UserId) (id : EntryId) (now : Time)
  /-- The row that the wrapper of a tool records. -/
  | audited (user : UserId) (action : AuditAction) (targetId : Nat)
  | ensureInbox (user : UserId) (now : Time)
  | ingest (user : UserId) (title : PyStr) (messages : List Message) (platform : Platform)
      (platformId date : PyStr) (now : Time)
  | createJob (user : UserId) (id : ConversationId) (source : PyStr) (periodStart : Period)
      (now : Time)
  | startExtraction (user : UserId) (id : ConversationId) (jobId : Option JobId) (now : Time)
  | markSkippedNoTopic (user : UserId) (id : ConversationId) (jobId : Option JobId) (now : Time)
  | persist (user : UserId) (x : Extraction) (today : PyStr) (now : Time)
  | markJobFailed (user : UserId) (jobId : JobId) (errorCode : ErrorCode) (now : Time)
  | claim (lastId : EntryId) (batchSize : Nat) (locked : List EntryId) (now : Time)
  | reindex (user : UserId) (id : EntryId) (embedding : E)
  | resetIndexedAtForIds (ids : List EntryId)
  | resetIndexedAt
  | sweep (kind : Sweep) (now : Time)
  /-- Another service adds a user or sets `deleted_at`. -/
  | setUser (user : UserId) (deletedAt : Option Time)

/-- The user an operation is run for. A claim, a reset, a sweep and the services around
this one are run for nobody; reindex stores a vector for the user of the entry. -/
def Action.actor {E : Type} : Action E → Option UserId
  | .createTopic user .. | .renameTopic user .. | .deleteTopic user .. | .mergeTopics user ..
  | .appendEntry user .. | .updateEntry user .. | .deleteEntry user .. | .moveEntries user ..
  | .saveConversation user .. | .embed user .. | .storeUnchanged user .. | .markIndexed user ..
  | .audited user .. | .ensureInbox user .. | .ingest user .. | .createJob user ..
  | .startExtraction user .. | .markSkippedNoTopic user .. | .persist user ..
  | .markJobFailed user .. | .reindex user .. => some user
  | .claim .. | .resetIndexedAtForIds .. | .resetIndexedAt | .sweep .. | .setUser .. => none

/-- The admin pool, whose role bypasses the policies. -/
def Action.onAdminPool {E : Type} : Action E → Bool
  | .claim .. | .reindex .. | .resetIndexedAtForIds .. | .resetIndexedAt | .sweep ..
  | .setUser .. => true
  | _ => false

/-- What has to be pending for the action. -/
def Action.needs {E : Type} : Action E → Option Pending
  | .embed user id _ _ => some (.embed user id)
  | .createJob user id .. => some (.enqueue user id)
  | .reindex user id _ => some (.reindex user id)
  | _ => none

def setDeletedAt {E : Type} (user : UserId) (deletedAt : Option Time) : Statement E Unit :=
  fun _ db => .ok ((), { db with users := db.users.put user deletedAt })

/-- The transaction of an action; it returns what the operation goes on with. -/
def Action.transaction {E : Type} : Action E → Tx E (List Pending)
  | .createTopic user path title description now => userScoped user (do
      let _ ← Tenancy.createTopic path title description now
      pure [])
  | .renameTopic user id newPath newTitle now =>
    userScoped user (withTransaction .inFailedTransaction (do
      Tenancy.renameTopic id newPath newTitle user now
      pure []))
  | .deleteTopic user id moveEntriesTo now =>
    userScoped user (withTransaction .inFailedTransaction (do
      let _ ← deleteWithReassign id moveEntriesTo user now
      pure []))
  | .mergeTopics user source dest now =>
    userScoped user (withTransaction .inFailedTransaction (do
      let _ ← Tenancy.mergeTopics source dest user now
      pure []))
  | .appendEntry user path content reasoning tags date now => userScoped user (do
      let id ← Tenancy.appendEntry path content reasoning tags date now
      pure [.embed user id])
  | .updateEntry user id body now => do
      patchEntry user id body now
      pure []
  | .deleteEntry user id now => userScoped user (withTransaction .inFailedTransaction (do
      let _ ← Tenancy.deleteEntry id now
      pure []))
  | .moveEntries user ids dest now => userScoped user (withTransaction .inFailedTransaction (do
      let _ ← moveEntriesToTopic ids dest user now
      pure []))
  | .saveConversation user path title messages summary source tags date now =>
    userScoped user (do
      let saved ← Tenancy.saveConversation path title messages summary source tags date now
      pure [.embed user saved.linkedEntryId])
  | .embed user id embedding stamp => userScoped user (do
      saveByVector id embedding
      match stamp with
      | none => pure []
      | some now => do
        Tenancy.markIndexed id now
        pure [])
  | .storeUnchanged user id text embedding now => do
      Tenancy.storeUnchanged user id text embedding now
      pure []
  | .markIndexed user id now => userScoped user (do
      Tenancy.markIndexed id now
      pure [])
  | .audited user action targetId => userScoped user (do
      recordAudit user action targetId
      pure [])
  | .ensureInbox user now => do
      Tenancy.ensureInbox user now
      pure []
  | .ingest user title messages platform platformId date now => do
      let saved ← ingestConversation user title messages platform platformId date now
      pure [.enqueue user saved.conversationId]
  | .createJob user id source periodStart now => do
      let _ ← createExtractionJob user id source periodStart now
      pure []
  | .startExtraction user id jobId now => do
      Tenancy.startExtraction user id jobId now
      pure []
  | .markSkippedNoTopic user id jobId now => do
      Tenancy.markSkippedNoTopic user id jobId now
      pure []
  | .persist user x today now => do
      persistPhase user x today now
      pure []
  | .markJobFailed user jobId errorCode now => do
      Tenancy.markJobFailed user jobId errorCode now
      pure []
  | .claim lastId batchSize locked now => do
      let batch ← claimBatch lastId batchSize locked now
      pure (batch.map (fun row => .reindex row.2 row.1))
  | .reindex user id embedding => userScoped user (do
      saveByVector id embedding
      pure [])
  | .resetIndexedAtForIds ids => do
      Tenancy.resetIndexedAtForIds ids
      pure []
  | .resetIndexedAt => do
      withTransaction .inFailedTransaction Tenancy.resetIndexedAt
      pure []
  | .sweep kind now => do
      run (sweepJobs kind now)
      pure []
  | .setUser user deletedAt => do
      run (setDeletedAt user deletedAt)
      pure []

structure World (E : Type) where
  db : Db E
  pending : List Pending

def World.start (E : Type) : World E := ⟨Db.empty E, []⟩

section Runs
variable {E : Type}

/-- A connection from a pool. -/
def connect (admin : Bool) (db : Db E) : Conn (Db E) Login := ⟨db, ⟨admin, none⟩, .idle⟩

section Scoped
variable {A : Type} {admin : Bool} {user : UserId} {db : Db E} {body body' : Tx E A}

theorem setCurrentUser_bind (admin : Bool) (user : UserId) (db : Db E) (body : Tx E A) :
    (setCurrentUser user >>= fun _ => body) ⟨db, ⟨admin, none⟩, .inTransaction⟩ =
      body ⟨db, ⟨admin, some user⟩, .inTransaction⟩ := rfl

theorem userScoped_congr (same : body ⟨db, ⟨admin, some user⟩, .inTransaction⟩ =
      body' ⟨db, ⟨admin, some user⟩, .inTransaction⟩) :
    userScoped user body (connect admin db) = userScoped user body' (connect admin db) := by
  refine withTransaction_congr ?_
  exact (setCurrentUser_bind admin user db body).trans
    (same.trans (setCurrentUser_bind admin user db body').symm)

theorem userScoped_rollback {e : StorageError} {c : Conn (Db E) Login}
    (raised : body ⟨db, ⟨admin, some user⟩, .inTransaction⟩ = (.error e, c)) :
    userScoped user body (connect admin db) = (.error e, connect admin db) :=
  withTransaction_rollback (by simp [connect])
    ((setCurrentUser_bind admin user db body).trans raised)

theorem userScoped_commit {a : A} {c : Conn (Db E) Login}
    (ran : body ⟨db, ⟨admin, some user⟩, .inTransaction⟩ = (.ok a, c))
    (opened : c.status = .inTransaction) :
    userScoped user body (connect admin db) = (.ok a, connect admin c.store) :=
  withTransaction_commit rfl ((setCurrentUser_bind admin user db body).trans ran) opened

end Scoped

/-- The commit of an action, or its rollback when it raises. -/
def World.act (w : World E) (action : Action E) : World E :=
  let outcome := action.transaction (connect action.onAdminPool w.db)
  { db := outcome.2.store
    pending := match outcome.1 with
      | .ok more => more ++ w.pending
      | .error _ => w.pending }

def step (w : World E) (action : Action E) : Option (World E) :=
  if action.needs.all (fun needed => needed ∈ w.pending) then some (w.act action) else none

end Runs

end Tenancy
