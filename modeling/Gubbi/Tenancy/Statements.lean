import Gubbi.Tenancy.Tables

/-!
# Statements

The statements of the repositories on the tables of all users. A read and a write pass
over the rows that the policies hide. The `user_id` of an inserted row is the setting of
the session, a unique index looks at all rows, and so does a foreign key.
-/

namespace Tenancy

open Text RowSecurity
open JournalEntries (EntryId Entry linkedContent)
open JournalConversations (TopicId Platform)
open ExtractionJobs (UserId JobId JobRow Period Cents ErrorCode Sweep)

abbrev Statement (E A : Type) := Login → Db E → Except StorageError (A × Db E)

section Statements
variable {E : Type}

/-- The `user_id` of an inserted row, under `WITH CHECK`. -/
def insertingUser (login : Login) (db : Db E) : Except StorageError UserId :=
  match login.currentUserId with
  | none => .error (if login.bypassRls then .notNullViolation else .policyViolation)
  | some user => if (access db login).admits user then .ok user else .error .policyViolation

theorem insertingUser_ok {login : Login} {db : Db E} {user u : UserId}
    (setting : login.currentUserId = some user) (h : insertingUser login db = .ok u) :
    u = user := by
  simp only [insertingUser, setting] at h
  split at h
  · exact (Except.ok.inj h).symm
  · cases h

/-- A foreign key. -/
def references {K V : Type} [DecidableEq K] (t : Table K V) (k : K) : Except StorageError Unit :=
  if (t.get k).isSome then .ok () else .error .foreignKeyViolation

/-- `SELECT id FROM topics WHERE path = $1`. -/
def selectTopicId (path : PyStr) : Statement E (Option TopicId) := fun login db =>
  .ok ((select (access db login) TopicRow.userId db.topics
    (fun _ row => row.path = path)).head?, db)

/-- `SELECT path FROM topics WHERE id = $1`. -/
def selectTopicPath (id : TopicId) : Statement E (Option PyStr) := fun login db =>
  .ok ((fetch (access db login) TopicRow.userId db.topics id).map TopicRow.path, db)

/-- Another topic of the user has the path: `topics_user_path_key`. -/
def pathTaken (db : Db E) (user : UserId) (path : PyStr) (id : Option TopicId) : Bool :=
  !(db.topics.keysWhere (fun key row =>
    row.userId = user && row.path = path && decide (some key ≠ id))).isEmpty

def insertTopic (path title description : PyStr) (now : Time) : Statement E TopicId :=
  fun login db => do
    let user ← insertingUser login db
    if pathTaken db user path none then .error .uniqueViolation
    else .ok (db.topics.freshKey,
      { db with topics := db.topics.put db.topics.freshKey ⟨user, path, title, description, now⟩ })

/-- The `UPDATE topics` of `rename`; it returns whether there was a row. -/
def updateTopicPath (id : TopicId) (path : PyStr) (title : Option PyStr) (now : Time) :
    Statement E Bool := fun login db =>
  match fetch (access db login) TopicRow.userId db.topics id with
  | none => .ok (false, db)
  | some row =>
    if pathTaken db row.userId path (some id) then .error .uniqueViolation
    else .ok (true, { db with
      topics := update (access db login) TopicRow.userId db.topics (fun key _ => key = id)
        (fun row => { row with path := path, title := title.getD row.title, updatedAt := now }) })

/-- The rows of `topics` after `UPDATE topics SET updated_at = $1 WHERE id = $2`. -/
def touched (login : Login) (db : Db E) (id : TopicId) (now : Time) : Table TopicId TopicRow :=
  update (access db login) TopicRow.userId db.topics (fun key _ => key = id)
    (fun row => { row with updatedAt := now })

def touchTopic (id : TopicId) (now : Time) : Statement E Unit := fun login db =>
  .ok ((), { db with topics := touched login db id now })

/-- `DELETE FROM topics WHERE id = $1`, under `ON DELETE RESTRICT`. -/
def deleteTopicRow (id : TopicId) : Statement E Unit := fun login db =>
  if (fetch (access db login) TopicRow.userId db.topics id).isSome &&
      (!(db.entries.keysWhere (fun _ row => row.topicId = id)).isEmpty ||
        !(db.conversations.keysWhere (fun _ row => row.topicId = id)).isEmpty) then
    .error .foreignKeyViolation
  else .ok ((), { db with
    topics := delete (access db login) TopicRow.userId db.topics (fun key _ => key = id) })

/-- `_move_counts`: the entries, deleted or not, and the conversations of a topic. -/
def countRows (id : TopicId) : Statement E (Nat × Nat) := fun login db =>
  .ok (((select (access db login) EntryRow.userId db.entries
      (fun _ row => row.topicId = id)).length,
    (select (access db login) ConversationRow.userId db.conversations
      (fun _ row => row.topicId = id)).length), db)

/-- The columns of `conversations_topic_id_slug_key`. -/
def ConversationRow.slot (row : ConversationRow) : TopicId × PyStr :=
  (row.record.topicId, row.record.slug)

def ConversationRow.moveTo (dest : TopicId) (now : Time) (row : ConversationRow) :
    ConversationRow :=
  { row with record := { row.record with topicId := dest }, updatedAt := now }

def EntryRow.moveTo (dest : TopicId) (now : Time) (row : EntryRow) : EntryRow :=
  { row with topicId := dest, updatedAt := now }

/-- `UPDATE conversations SET topic_id = $1 ... WHERE topic_id = $2`. -/
def reassignConversations (source dest : TopicId) (now : Time) : Statement E Nat :=
  fun login db =>
    let moved := update (access db login) ConversationRow.userId db.conversations
      (fun _ row => row.topicId = source) (ConversationRow.moveTo dest now)
    let affected := select (access db login) ConversationRow.userId db.conversations
      (fun _ row => row.topicId = source)
    if affected = [] then .ok (0, db)
    else if ¬ (moved.rows.map (fun row => row.2.slot)).Nodup then .error .uniqueViolation
    else do
      references db.topics dest
      .ok (affected.length, { db with conversations := moved })

/-- `UPDATE entries SET topic_id = $1 ... WHERE ... RETURNING id`. -/
def moveRows (p : EntryId → EntryRow → Bool) (dest : TopicId) (now : Time) :
    Statement E (List EntryId) := fun login db => do
  let affected := select (access db login) EntryRow.userId db.entries p
  if affected = [] then .ok ([], db)
  else
    references db.topics dest
    .ok (affected, { db with
      entries := update (access db login) EntryRow.userId db.entries p (EntryRow.moveTo dest now) })

/-- An entry as it is inserted; `indexed_at` and `deleted_at` are null. -/
def newEntry (content : PyStr) (reasoning : Option PyStr) (conversationId : Option ConversationId)
    (tags : List PyStr) (date : PyStr) : Entry where
  content := content
  reasoning := reasoning
  conversationId := conversationId
  date := date
  tags := tags
  indexedAt := none
  deletedAt := none

/-- The insert of `append` with its update of the topic. -/
def insertEntry (topicId : TopicId) (content : PyStr) (reasoning : Option PyStr)
    (tags : List PyStr) (date : PyStr) (now : Time) : Statement E EntryId := fun login db => do
  let user ← insertingUser login db
  references db.topics topicId
  let entry := newEntry content reasoning none tags date
  .ok (db.entries.freshKey, { db with
    entries := db.entries.put db.entries.freshKey ⟨user, topicId, entry, now⟩
    topics := touched login db topicId now })

def EntryRow.edit (f : Entry → Entry) (now : Time) (row : EntryRow) : EntryRow :=
  { row with entry := f row.entry, updatedAt := now }

/-- `SELECT ... FROM entries WHERE id = $1 AND deleted_at IS NULL`. -/
def selectActive (id : EntryId) : Statement E (Option EntryRow) := fun login db =>
  .ok ((fetch (access db login) EntryRow.userId db.entries id).filter
    (fun row => row.entry.deletedAt = none), db)

/-- `UPDATE entries ... WHERE id = $1` with its update of the topic. -/
def updateEntryRow (id : EntryId) (f : Entry → Entry) (now : Time) : Statement E Unit :=
  fun login db =>
    match fetch (access db login) EntryRow.userId db.entries id with
    | none => .ok ((), db)
    | some row => .ok ((), { db with
        entries := update (access db login) EntryRow.userId db.entries (fun key _ => key = id)
          (EntryRow.edit f now)
        topics := touched login db row.topicId now })

/-- `DELETE FROM entry_embeddings WHERE entry_id = $1`. -/
def deleteEmbedding (id : EntryId) : Statement E Unit := fun login db =>
  .ok ((), { db with
    embeddings := delete (access db login) EmbeddingRow.userId db.embeddings
      (fun key _ => key = id) })

/-- The one statement of `delete`; it returns the topic. -/
def softDelete (id : EntryId) (now : Time) : Statement E (Option TopicId) := fun login db =>
  match (fetch (access db login) EntryRow.userId db.entries id).filter
      (fun row => row.entry.deletedAt = none) with
  | none => .ok (none, db)
  | some row => .ok (some row.topicId, { db with
      entries := update (access db login) EntryRow.userId db.entries (fun key _ => key = id)
        (EntryRow.edit (fun entry => { entry with deletedAt := some now }) now)
      embeddings := delete (access db login) EmbeddingRow.userId db.embeddings
        (fun key _ => key = id)
      topics := touched login db row.topicId now })

/-- `UPDATE entries SET indexed_at = ... WHERE ...`. -/
def setIndexedAt (p : EntryId → EntryRow → Bool) (indexedAt : Option Time) : Statement E Unit :=
  fun login db =>
    .ok ((), { db with
      entries := update (access db login) EntryRow.userId db.entries p
        (fun row => { row with entry := { row.entry with indexedAt := indexedAt } }) })

/-- The rows of `get_unindexed` with their users; `locked` are those it skips. -/
def selectUnindexed (lastId : EntryId) (batchSize : Nat) (locked : List EntryId) :
    Statement E (List (EntryId × UserId)) := fun login db =>
  let ids := select (access db login) EntryRow.userId db.entries (fun id row =>
    row.entry.deletedAt = none && row.entry.indexedAt = none && decide (lastId < id) &&
      decide (id ∉ locked))
  .ok (((ids.insertionSort (· ≤ ·)).take batchSize).filterMap
    (fun id => (db.entries.get id).map (fun row => (id, row.userId))), db)

/-- `INSERT INTO entry_embeddings ... ON CONFLICT (entry_id) DO UPDATE`; the update
writes the `user_id` too. -/
def upsertEmbedding (id : EntryId) (embedding : E) : Statement E Unit := fun login db => do
  let user ← insertingUser login db
  match db.embeddings.get id with
  | some old =>
    if (access db login).admits old.userId then
      .ok ((), { db with embeddings := db.embeddings.put id ⟨user, embedding⟩ })
    else .error .policyViolation
  | none =>
    references db.entries id
    .ok ((), { db with embeddings := db.embeddings.put id ⟨user, embedding⟩ })

/-- What `DO UPDATE` writes. -/
def ConversationRow.overwrite (record : JournalConversations.ConversationRow) (now : Time)
    (row : ConversationRow) : ConversationRow :=
  { row with record := row.record.overwrite record, updatedAt := now }

/-- The row that conflicts on `(topic_id, slug)`. -/
def conversationAt (db : Db E) (topicId : TopicId) (slug : PyStr) : Option ConversationId :=
  (db.conversations.keysWhere (fun _ row => row.slot = (topicId, slug))).head?

/-- `INSERT INTO conversations ... ON CONFLICT (topic_id, slug) DO UPDATE`. -/
def upsertConversation (record : JournalConversations.ConversationRow) (now : Time) :
    Statement E (ConversationId × Bool) := fun login db => do
  let user ← insertingUser login db
  match conversationAt db record.topicId record.slug with
  | some id =>
    if (db.conversations.get id).all (fun old => (access db login).admits old.userId) then
      .ok ((id, true), { db with
        conversations := db.conversations.modify id (ConversationRow.overwrite record now) })
    else .error .policyViolation
  | none =>
    references db.topics record.topicId
    .ok ((db.conversations.freshKey, false), { db with
      conversations := db.conversations.put db.conversations.freshKey
        ⟨user, { record with platform := none, platformId := none }, now, none⟩ })

/-- `DELETE FROM messages WHERE conversation_id = $1`. -/
def deleteMessages (id : ConversationId) : Statement E Unit := fun login db =>
  .ok ((), { db with
    messages := delete (access db login) MessageRow.userId db.messages
      (fun _ row => row.message.conversationId = id) })

def insertMessage (message : JournalConversations.MessageRow) : Statement E Unit :=
  fun login db => do
    let user ← insertingUser login db
    references db.conversations message.conversationId
    .ok ((), { db with messages := db.messages.put db.messages.freshKey ⟨user, message⟩ })

/-- `SELECT id FROM entries WHERE conversation_id = $1`: a deleted entry is found too. -/
def selectLinked (id : ConversationId) : Statement E (Option EntryId) := fun login db =>
  .ok ((select (access db login) EntryRow.userId db.entries
    (fun _ row => row.entry.conversationId = some id)).head?, db)

/-- The update of `_upsert_linked_entry`. -/
def rewriteLinked (id : EntryId) (content date : PyStr) (now : Time) : Statement E Unit :=
  fun login db =>
    .ok ((), { db with
      entries := update (access db login) EntryRow.userId db.entries (fun key _ => key = id)
        (EntryRow.edit (fun entry => { entry with
          content := content, reasoning := none, date := date, indexedAt := none }) now) })

/-- The insert of `_upsert_linked_entry`. -/
def insertLinked (topicId : TopicId) (id : ConversationId) (content date : PyStr) (now : Time) :
    Statement E EntryId := fun login db => do
  let user ← insertingUser login db
  references db.topics topicId
  references db.conversations id
  let entry := newEntry content none (some id) [py "conversation"] date
  .ok (db.entries.freshKey, { db with
    entries := db.entries.put db.entries.freshKey ⟨user, topicId, entry, now⟩ })

/-- `idx_conv_platform_dedup` has a row of another conversation. -/
def platformTaken (db : Db E) (user : UserId) (platform : Platform) (platformId : PyStr)
    (id : ConversationId) : Bool :=
  !(db.conversations.keysWhere (fun key row => row.userId = user &&
    row.record.platformKey = some (platform, platformId) && decide (key ≠ id))).isEmpty

/-- `UPDATE conversations SET platform = $1, platform_id = $2 WHERE id = $3`. -/
def updatePlatform (id : ConversationId) (platform : Platform) (platformId : PyStr) :
    Statement E Unit := fun login db =>
  match fetch (access db login) ConversationRow.userId db.conversations id with
  | none => .ok ((), db)
  | some row =>
    if platformTaken db row.userId platform platformId id then .error .uniqueViolation
    else .ok ((), { db with
      conversations := update (access db login) ConversationRow.userId db.conversations
        (fun key _ => key = id)
        (fun row => { row with record := row.record.setPlatform platform platformId }) })

def selectProcessedAt (id : ConversationId) : Statement E (Option Time) := fun login db =>
  .ok ((fetch (access db login) ConversationRow.userId db.conversations id).bind
    ConversationRow.processedAt, db)

/-- `UPDATE conversations SET processed_at = now() WHERE id = $1 AND processed_at IS NULL`. -/
def updateProcessedAt (id : ConversationId) (now : Time) : Statement E Unit := fun login db =>
  .ok ((), { db with
    conversations := update (access db login) ConversationRow.userId db.conversations
      (fun key row => decide (key = id) && decide (row.processedAt = none))
      (fun row => { row with processedAt := some now }) })

/-- `INSERT INTO extraction_jobs`; the `user_id` is an argument. -/
def insertPending (user : UserId) (id : ConversationId) (source : PyStr) (periodStart : Period)
    (now : Time) : Statement E JobId := fun login db =>
  if (access db login).admits user then
    match ExtractionJobs.createPending db.jobs db.jobs.freshKey user id source periodStart now with
    | none => .error .uniqueViolation
    | some jobs => do
      references db.conversations id
      .ok (db.jobs.freshKey, { db with jobs := jobs })
  else .error .policyViolation

/-- The query for the job that is in flight. -/
def selectInFlight (user : UserId) (id : ConversationId) (source : PyStr) :
    Statement E (Option JobId) := fun login db =>
  .ok ((select (access db login) JobRow.userId db.jobs (fun _ row => row.userId = user &&
    row.conversationId = id && row.source = source && !row.status.terminal)).head?, db)

/-- A status statement; it returns whether it has updated the row. -/
def updateJob (id : JobId) (p : JobRow → Bool) (f : JobRow → JobRow) : Statement E Bool :=
  fun login db =>
    .ok ((fetch (access db login) JobRow.userId db.jobs id).any p, { db with
      jobs := update (access db login) JobRow.userId db.jobs
        (fun key row => decide (key = id) && p row) f })

/-- `UPDATE extraction_jobs SET status = 'running' ...`, under the unique index. -/
def updateRunning (id : JobId) (now : Time) : Statement E Unit := fun login db =>
  match fetch (access db login) JobRow.userId db.jobs id with
  | none => .ok ((), db)
  | some _ =>
    match ExtractionJobs.markRunning db.jobs id now with
    | none => .error .uniqueViolation
    | some jobs => .ok ((), { db with jobs := jobs })

/-- The update of an orphan sweep. -/
def sweepJobs (kind : Sweep) (now : Time) : Statement E Unit := fun login db =>
  .ok ((), { db with
    jobs := update (access db login) JobRow.userId db.jobs (fun _ row => kind.finds now row)
      (JobRow.sweep kind now) })

/-- An insert into `audit_log`: the policy compares the actor with the setting, and a
trigger keeps the admin role from rows of users. -/
def insertAudit (row : AuditRow) : Statement E Unit := fun login db =>
  if login.bypassRls then .error .insufficientPrivilege
  else if login.currentUserId = some row.actorId then
    .ok ((), { db with audit := db.audit ++ [row] })
  else .error .policyViolation

end Statements

end Tenancy
