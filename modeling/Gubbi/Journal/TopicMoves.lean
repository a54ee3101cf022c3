import Gubbi.Journal.Listing
import Gubbi.Library.Transactions

/-!
# Merging and deleting topics, moving entries

`topics.merge`, `topics.delete_with_reassign` and `entries.move_entries_to_topic`
as sessions of one user. Row level security shows a session the tables of its own
user only, so an id of somebody else is one that is not there. Some checks come
after a write; the transaction of the caller takes the write back.

The insert of an audit row is in another package: a parameter that appends the row
or fails.
-/

namespace TopicMoves

open Text JournalTables JournalRows Transactions

abbrev UserId := PyStr

inductive Action
  | entryMoved
  | topicMerged
  | topicDeleted
  deriving DecidableEq, Repr

inductive MetadataValue
  | text (s : PyStr)
  | int (n : Nat)
  deriving DecidableEq

/-- A row of `audit_log`; the actor is a user and the target a topic. -/
structure AuditRow where
  actorId : PyStr
  action : Action
  targetId : PyStr
  metadata : List (PyStr × MetadataValue)
  deriving DecidableEq

structure Cluster where
  tables : UserId → Tables
  audit : List AuditRow

def Cluster.withTables (c : Cluster) (user : UserId) (t : Tables) : Cluster :=
  { c with tables := fun other => if other = user then t else c.tables other }

inductive MoveError
  | valueError (message : PyStr)
  | topicNotFound (message : PyStr)
  | mergeConflict (message : PyStr)
  | moveNotFound (missingIds : List EntryId)
  | uniqueViolation
  | foreignKeyViolation
  | auditError (message : PyStr)
  deriving DecidableEq

/-- `record_audit_async`. -/
structure AuditSql where
  insert : AuditRow → List AuditRow → Except MoveError (List AuditRow)
  appends : ∀ row log log', insert row log = .ok log' → log' = log ++ [row]

structure MoveCounts where
  entries : Nat
  conversations : Nat
  deriving DecidableEq

section Statements
variable (t : Tables) (now : Timestamp)

def EntryRow.moveTo (row : EntryRow) (dest : TopicId) : EntryRow :=
  { row with topicId := dest, updatedAt := now }

def ConversationRow.moveTo (row : ConversationRow) (dest : TopicId) : ConversationRow :=
  { row with topicId := dest, updatedAt := now }

def TopicRow.touch (row : TopicRow) : TopicRow := { row with updatedAt := now }

/-- `UPDATE conversations SET topic_id = $1 ... WHERE topic_id = $2`. -/
def reassignConversations (source dest : TopicId) : Except MoveError (Nat × Tables) :=
  let moved := t.conversations.update (fun _ row =>
    if row.topicId = source then ConversationRow.moveTo now row dest else row)
  if slugs : moved.UniqueOn ConversationRow.slot then
    if known : moved.References ConversationRow.topicId t.topics then
      .ok (t.conversations.countWhere (fun _ row => row.topicId = source),
        { t with
          conversations := moved
          slugs := slugs
          conversationTopics := known
          numbered := t.numbered.update fun _ row => by
            split
            · rfl
            · rfl })
    else .error .foreignKeyViolation
  else .error .uniqueViolation

/-- `UPDATE entries SET topic_id = $1 ... WHERE topic_id = $2`, deleted rows too. -/
def reassignEntries (source dest : TopicId) : Except MoveError (Nat × Tables) :=
  let moved := t.entries.update (fun _ row =>
    if row.topicId = source then EntryRow.moveTo now row dest else row)
  if known : moved.References EntryRow.topicId t.topics then
    .ok (t.entries.countWhere (fun _ row => row.topicId = source),
      { t with entries := moved, entryTopics := known })
  else .error .foreignKeyViolation

/-- `UPDATE entries ... WHERE id = ANY($3) AND deleted_at IS NULL RETURNING id`. -/
def moveEntries (ids : List EntryId) (dest : TopicId) : Except MoveError (List EntryId × Tables) :=
  let moved := t.entries.update (fun id row =>
    if id ∈ ids ∧ row.deletedAt = none then EntryRow.moveTo now row dest else row)
  if known : moved.References EntryRow.topicId t.topics then
    .ok (t.entries.keysWhere (fun id row => decide (id ∈ ids) && decide (row.deletedAt = none)),
      { t with entries := moved, entryTopics := known })
  else .error .foreignKeyViolation

/-- `DELETE FROM topics WHERE id = $1`, under `ON DELETE RESTRICT`. -/
def deleteTopicRow (id : TopicId) : Except MoveError (Unit × Tables) :=
  let topics := t.topics.erase id
  if free : t.entries.References EntryRow.topicId topics ∧
      t.conversations.References ConversationRow.topicId topics then
    .ok ((), { t with
      topics := topics
      paths := t.paths.deleteWhere _
      entryTopics := free.1
      conversationTopics := free.2 })
  else .error .foreignKeyViolation

/-- `UPDATE topics SET updated_at = ... WHERE id = $1`. -/
def touchTopic (id : TopicId) : Tables :=
  have keys : ∀ key ∈ t.topics.keys, key ∈ (t.topics.modify id (TopicRow.touch now)).keys := by
    rw [Table.keys_modify]
    exact fun _ mem => mem
  { t with
    topics := t.topics.modify id (TopicRow.touch now)
    paths := t.paths.modify fun _ => rfl
    entryTopics := t.entryTopics.of_keys keys
    conversationTopics := t.conversationTopics.of_keys keys }

end Statements

section Sessions
variable (audits : AuditSql) (user : UserId) (now : Timestamp)

/-- A statement on the rows that the session sees. -/
def onTables {A : Type} (f : Tables → Except MoveError (A × Tables)) :
    Session Cluster MoveError A :=
  statement (fun c =>
    match f (c.tables user) with
    | .error e => .error e
    | .ok (a, t) => .ok (a, c.withTables user t))

def recordAudit (row : AuditRow) : Session Cluster MoveError Unit :=
  statement (fun c =>
    match audits.insert row c.audit with
    | .error e => .error e
    | .ok log => .ok ((), { c with audit := log }))

def topicMissing (id : TopicId) : MoveError :=
  .topicNotFound (py "Topic id " ++ number id ++ py " not found")

/-- `_require_path`. -/
def requirePath (id : TopicId) : Session Cluster MoveError PyStr := do
  let row ← query (fun c => (c.tables user).topics.get id)
  match row with
  | none => fail (topicMissing id)
  | some topic => pure topic.path

/-- `_move_counts`. -/
def moveCounts (id : TopicId) : Session Cluster MoveError MoveCounts :=
  query (fun c =>
    ⟨(c.tables user).entries.countWhere (fun _ row => row.topicId = id),
      (c.tables user).conversations.countWhere (fun _ row => row.topicId = id)⟩)

/-- The `except UniqueViolationError` of `_reassign_rows`. -/
def asMergeConflict : MoveError → MoveError
  | .uniqueViolation =>
    .mergeConflict (py "Destination topic already holds a conversation with the same slug")
  | e => e

/-- `_reassign_rows`; a statement returns the number that `_affected_rows` reads. -/
def reassignRows (source dest : TopicId) : Session Cluster MoveError MoveCounts := do
  let conversations ← mapError asMergeConflict
    (onTables user (fun t => reassignConversations t now source dest))
  let entries ← onTables user (fun t => reassignEntries t now source dest)
  pure ⟨entries, conversations⟩

/-- The counts as both audit rows carry them. -/
def countMetadata (moved : MoveCounts) : List (PyStr × MetadataValue) :=
  [(py "entries_moved", .int moved.entries), (py "conversations_moved", .int moved.conversations)]

def pathMetadata (sourcePath destPath : PyStr) : List (PyStr × MetadataValue) :=
  [(py "source_path", .text sourcePath), (py "dest_path", .text destPath)]

def deleteWithReassign (topicId : TopicId) (moveEntriesTo : Option TopicId) (actorId : PyStr) :
    Session Cluster MoveError MoveCounts := do
  let sourcePath ← requirePath user topicId
  let counts ← moveCounts user topicId
  if counts.entries = 0 ∧ counts.conversations = 0 then
    onTables user (fun t => deleteTopicRow t topicId)
    recordAudit audits ⟨actorId, .topicDeleted, number topicId,
      (py "source_path", .text sourcePath) :: countMetadata ⟨0, 0⟩⟩
    pure ⟨0, 0⟩
  else
    match moveEntriesTo with
    | none => fail (.valueError
        (py "Topic has " ++ number counts.entries ++ py " entries that need a destination"))
    | some dest =>
      if dest = topicId then fail (.valueError (py "Cannot reassign a topic's entries to itself"))
      else
        let destPath ← requirePath user dest
        let moved ← reassignRows user now topicId dest
        onTables user (fun t => deleteTopicRow t topicId)
        onTables user (fun t => .ok ((), touchTopic t now dest))
        recordAudit audits ⟨actorId, .entryMoved, number dest,
          pathMetadata sourcePath destPath ++ countMetadata moved⟩
        recordAudit audits ⟨actorId, .topicDeleted, number topicId,
          pathMetadata sourcePath destPath ++ countMetadata moved⟩
        pure moved

def merge (sourceTopicId intoTopicId : TopicId) (actorId : PyStr) :
    Session Cluster MoveError MoveCounts :=
  if sourceTopicId = intoTopicId then fail (.valueError (py "Cannot merge a topic into itself"))
  else do
    let sourcePath ← requirePath user sourceTopicId
    let destPath ← requirePath user intoTopicId
    let moved ← reassignRows user now sourceTopicId intoTopicId
    onTables user (fun t => deleteTopicRow t sourceTopicId)
    onTables user (fun t => .ok ((), touchTopic t now intoTopicId))
    recordAudit audits ⟨actorId, .topicMerged, number intoTopicId,
      pathMetadata sourcePath destPath ++ countMetadata moved⟩
    pure moved

def MAX_MOVE_IDS : Nat := 100

/-- `list(dict.fromkeys(ids))`. -/
def dedupe : List EntryId → List EntryId
  | [] => []
  | id :: rest => id :: (dedupe rest).filter (fun other => other ≠ id)

/-- The move itself finds the ids that do not resolve. -/
def moveEntriesToTopic (entryIds : List EntryId) (dest : TopicId) (actorId : PyStr) :
    Session Cluster MoveError Nat :=
  let ids := dedupe entryIds
  if ids = [] then fail (.valueError (py "No entry ids supplied"))
  else if MAX_MOVE_IDS < ids.length then
    fail (.valueError
      (py "Cannot move more than " ++ number MAX_MOVE_IDS ++ py " entries at once"))
  else do
    let destPath ← requirePath user dest
    let movedIds ← onTables user (fun t => moveEntries t now ids dest)
    let missing := ids.filter (fun id => id ∉ movedIds)
    if missing ≠ [] then fail (.moveNotFound missing)
    else
      onTables user (fun t => .ok ((), touchTopic t now dest))
      recordAudit audits ⟨actorId, .entryMoved, number dest,
        [(py "dest_path", .text destPath), (py "entries_moved", .int ids.length)]⟩
      pure ids.length

/-- A response of the two endpoints: a detail, or the counts in the body. -/
structure Response where
  status : Nat
  detail : Option PyStr
  moved : Option MoveCounts
  deriving DecidableEq

/-- The handlers around the transaction; any other error is a failure of the server. -/
def respond (valueErrorStatus : Nat) : Except MoveError MoveCounts → Except MoveError Response
  | .ok moved => .ok ⟨200, none, some moved⟩
  | .error (.topicNotFound _) => .ok ⟨404, some (py "topic_not_found"), none⟩
  | .error (.mergeConflict _) => .ok ⟨409, some (py "topic_path_exists"), none⟩
  | .error (.valueError message) => .ok ⟨valueErrorStatus, some message, none⟩
  | .error e => .error e

/-- `DELETE /topics/{topic_id}`. -/
def deleteTopic (topicId : TopicId) (moveEntriesTo : Option TopicId) (c : Cluster) :
    Except MoveError Response × Cluster :=
  (transaction (deleteWithReassign audits user now topicId moveEntriesTo user) c).map
    (respond 400) id

/-- `POST /topics/{topic_id}/merge`. -/
def mergeTopic (topicId intoTopicId : TopicId) (c : Cluster) :
    Except MoveError Response × Cluster :=
  (transaction (merge audits user now topicId intoTopicId user) c).map (respond 422) id

end Sessions

section Effects
variable {t t' : Tables} {now : Timestamp} {source dest : TopicId} {n : Nat}

theorem reassignConversations_ok (h : reassignConversations t now source dest = .ok (n, t')) :
    n = t.conversations.countWhere (fun _ row => row.topicId = source) ∧
      (∀ id, t'.conversations.get id = (t.conversations.get id).map (fun row =>
        if row.topicId = source then ConversationRow.moveTo now row dest else row)) ∧
      t'.entries = t.entries ∧ t'.topics = t.topics ∧ t'.messages = t.messages := by
  unfold reassignConversations at h
  simp only at h
  split at h
  · split at h
    · cases h
      exact ⟨rfl, fun id => Table.get_update _ _ id, rfl, rfl, rfl⟩
    · cases h
  · cases h

theorem reassignEntries_ok (h : reassignEntries t now source dest = .ok (n, t')) :
    n = t.entries.countWhere (fun _ row => row.topicId = source) ∧
      (∀ id, t'.entries.get id = (t.entries.get id).map (fun row =>
        if row.topicId = source then EntryRow.moveTo now row dest else row)) ∧
      t'.conversations = t.conversations ∧ t'.topics = t.topics ∧ t'.messages = t.messages := by
  unfold reassignEntries at h
  simp only at h
  split at h
  · cases h
    exact ⟨rfl, fun id => Table.get_update _ _ id, rfl, rfl, rfl⟩
  · cases h

theorem moveEntries_ok {ids moved : List EntryId}
    (h : moveEntries t now ids dest = .ok (moved, t')) :
    moved = t.entries.keysWhere (fun id row => decide (id ∈ ids) && decide (row.deletedAt = none)) ∧
      (∀ id, t'.entries.get id = (t.entries.get id).map (fun row =>
        if id ∈ ids ∧ row.deletedAt = none then EntryRow.moveTo now row dest else row)) ∧
      t'.conversations = t.conversations ∧ t'.topics = t.topics ∧ t'.messages = t.messages := by
  unfold moveEntries at h
  simp only at h
  split at h
  · cases h
    exact ⟨rfl, fun id => Table.get_update _ _ id, rfl, rfl, rfl⟩
  · cases h

/-- A topic that was deleted had no rows. -/
theorem deleteTopicRow_ok {id : TopicId} (h : deleteTopicRow t id = .ok ((), t')) :
    (∀ key, t'.topics.get key = if key = id then none else t.topics.get key) ∧
      t'.entries = t.entries ∧ t'.conversations = t.conversations ∧ t'.messages = t.messages := by
  unfold deleteTopicRow at h
  simp only at h
  split at h
  · cases h
    exact ⟨fun key => Table.get_erase _ _ key, rfl, rfl, rfl⟩
  · cases h

theorem get_touchTopic (t : Tables) (now : Timestamp) (id key : TopicId) :
    (touchTopic t now id).topics.get key =
      if key = id then (t.topics.get key).map (TopicRow.touch now) else t.topics.get key :=
  Table.get_modify _ _ _ _

end Effects

section Steps
variable {audits : AuditSql} {user : UserId} {now : Timestamp} {c c' : Cluster}

@[simp] theorem withTables_self (t : Tables) : (c.withTables user t).tables user = t :=
  if_pos rfl

@[simp] theorem withTables_twice (t t' : Tables) :
    (c.withTables user t).withTables user t' = c.withTables user t' := by
  simp only [Cluster.withTables]
  congr
  funext other
  split
  · rfl
  · rfl

theorem withTables_other (t : Tables) {other : UserId} (hne : other ≠ user) :
    (c.withTables user t).tables other = c.tables other := if_neg hne

theorem onTables_ok {A : Type} {f : Tables → Except MoveError (A × Tables)} {a : A} :
    onTables user f c = (.ok a, c') ↔
      ∃ t, f (c.tables user) = .ok (a, t) ∧ c' = c.withTables user t := by
  unfold onTables
  rw [statement_ok]
  cases f (c.tables user) with
  | error e => simp
  | ok written => simp [Prod.ext_iff, eq_comm, and_assoc]

theorem recordAudit_ok {row : AuditRow} (h : recordAudit audits row c = (.ok (), c')) :
    c' = { c with audit := c.audit ++ [row] } := by
  unfold recordAudit at h
  rw [statement_ok] at h
  cases inserted : audits.insert row c.audit with
  | error e =>
    rw [inserted] at h
    cases h
  | ok log =>
    rw [inserted] at h
    cases h
    rw [audits.appends row c.audit log inserted]

theorem requirePath_ok {id : TopicId} {path : PyStr} (h : requirePath user id c = (.ok path, c')) :
    c' = c ∧ ∃ topic, (c.tables user).topics.get id = some topic := by
  unfold requirePath at h
  obtain ⟨row, middle, hrow, h⟩ := bind_ok.mp h
  obtain ⟨rfl, rfl⟩ := query_ok.mp hrow
  cases hget : (c.tables user).topics.get id with
  | none =>
    rw [hget] at h
    exact absurd h fail_ok
  | some topic =>
    rw [hget] at h
    exact ⟨(pure_ok.mp h).2.symm, topic, rfl⟩

theorem reassignRows_ok {source dest : TopicId} {moved : MoveCounts}
    (h : reassignRows user now source dest c = (.ok moved, c')) :
    ∃ t', c' = c.withTables user t' ∧
      moved = ⟨(c.tables user).entries.countWhere (fun _ row => row.topicId = source),
        (c.tables user).conversations.countWhere (fun _ row => row.topicId = source)⟩ ∧
      (∀ id, t'.entries.get id = ((c.tables user).entries.get id).map (fun row =>
        if row.topicId = source then EntryRow.moveTo now row dest else row)) ∧
      (∀ id, t'.conversations.get id = ((c.tables user).conversations.get id).map (fun row =>
        if row.topicId = source then ConversationRow.moveTo now row dest else row)) ∧
      t'.topics = (c.tables user).topics ∧ t'.messages = (c.tables user).messages := by
  unfold reassignRows at h
  obtain ⟨n, first, hconversations, h⟩ := bind_ok.mp h
  obtain ⟨m, second, hentries, h⟩ := bind_ok.mp h
  obtain ⟨rfl, rfl⟩ := pure_ok.mp h
  obtain ⟨t, ht, rfl⟩ := onTables_ok.mp (mapError_ok.mp hconversations)
  obtain ⟨t', ht', rfl⟩ := onTables_ok.mp hentries
  rw [withTables_self] at ht'
  obtain ⟨rfl, conversations, entries, topics, messages⟩ := reassignConversations_ok ht
  obtain ⟨rfl, entries', conversations', topics', messages'⟩ := reassignEntries_ok ht'
  refine ⟨t', withTables_twice t t', ?_, ?_, ?_, topics'.trans topics, messages'.trans messages⟩
  · rw [entries]
  · intro id
    rw [entries', entries]
  · intro id
    rw [conversations', conversations]

end Steps

def EntryRow.reassign (now : Timestamp) (source : TopicId) (dest : Option TopicId)
    (row : EntryRow) : EntryRow :=
  match dest with
  | none => row
  | some dest => if row.topicId = source then EntryRow.moveTo now row dest else row

def ConversationRow.reassign (now : Timestamp) (source : TopicId) (dest : Option TopicId)
    (row : ConversationRow) : ConversationRow :=
  match dest with
  | none => row
  | some dest => if row.topicId = source then ConversationRow.moveTo now row dest else row

/-- The source is gone, and every row is there with at most its topic and its update
time changed. Without a destination nothing had to move. -/
structure Reorganised (now : Timestamp) (source : TopicId) (dest : Option TopicId)
    (before after : Tables) : Prop where
  sourceGone : after.topics.get source = none
  noEntry : ∀ id row, after.entries.get id = some row → row.topicId ≠ source
  noConversation : ∀ id row, after.conversations.get id = some row → row.topicId ≠ source
  entries : ∀ id, after.entries.get id =
    (before.entries.get id).map (EntryRow.reassign now source dest)
  conversations : ∀ id, after.conversations.get id =
    (before.conversations.get id).map (ConversationRow.reassign now source dest)
  slugs : after.conversations.UniqueOn ConversationRow.slot
  messages : after.messages = before.messages
  topics : ∀ id, id ≠ source → after.topics.get id =
    if dest = some id then (before.topics.get id).map (TopicRow.touch now) else before.topics.get id

/-- The counts are those of the rows under the source, and every new audit row has them. -/
structure Accounted (source : TopicId) (before : Tables) (log log' : List AuditRow)
    (moved : MoveCounts) : Prop where
  entries : moved.entries = before.entries.countWhere (fun _ row => row.topicId = source)
  conversations : moved.conversations =
    before.conversations.countWhere (fun _ row => row.topicId = source)
  audited : ∃ rows, log' = log ++ rows ∧ rows ≠ [] ∧
    ∀ row ∈ rows, ∀ pair ∈ countMetadata moved, pair ∈ row.metadata

/-- A committed merge or delete. -/
structure TopicOutcome (user : UserId) (now : Timestamp) (source : TopicId) (dest : Option TopicId)
    (before after : Cluster) (moved : MoveCounts) : Prop where
  tables : Reorganised now source dest (before.tables user) (after.tables user)
  counts : Accounted source (before.tables user) before.audit after.audit moved
  others : ∀ other, other ≠ user → after.tables other = before.tables other

/-- A committed move of entries. -/
structure EntriesOutcome (user : UserId) (now : Timestamp) (ids : List EntryId) (dest : TopicId)
    (before after : Cluster) (moved : Nat) : Prop where
  resolved : ∀ id ∈ ids, ∃ row, (before.tables user).entries.get id = some row ∧
    row.deletedAt = none
  entries : ∀ id, (after.tables user).entries.get id =
    ((before.tables user).entries.get id).map (fun row =>
      if id ∈ ids then EntryRow.moveTo now row dest else row)
  counted : moved = (before.tables user).entries.countWhere (fun id _ => id ∈ ids)
  distinct : moved = ids.dedup.length
  audited : ∃ row, after.audit = before.audit ++ [row] ∧
    (py "entries_moved", .int moved) ∈ row.metadata
  conversations : (after.tables user).conversations = (before.tables user).conversations
  messages : (after.tables user).messages = (before.tables user).messages
  topics : ∀ id, (after.tables user).topics.get id =
    if id = dest then ((before.tables user).topics.get id).map (TopicRow.touch now)
    else (before.tables user).topics.get id
  others : ∀ other, other ≠ user → after.tables other = before.tables other

section Commits
variable {audits : AuditSql} {user : UserId} {now : Timestamp} {c c' : Cluster}

/-- The writes of a merge, from the reassignment on. -/
theorem reorganised_of_writes {t moved deleted : Tables} {source dest : TopicId}
    (hne : source ≠ dest)
    (entries : ∀ id, moved.entries.get id = (t.entries.get id).map (fun row =>
      if row.topicId = source then EntryRow.moveTo now row dest else row))
    (conversations : ∀ id, moved.conversations.get id = (t.conversations.get id).map (fun row =>
      if row.topicId = source then ConversationRow.moveTo now row dest else row))
    (topics : moved.topics = t.topics) (messages : moved.messages = t.messages)
    (delete : deleteTopicRow moved source = .ok ((), deleted)) :
    Reorganised now source (some dest) t (touchTopic deleted now dest) := by
  obtain ⟨gone, entries', conversations', messages'⟩ := deleteTopicRow_ok delete
  have noEntry : ∀ id row, moved.entries.get id = some row → row.topicId ≠ source := by
    intro id row h
    rw [entries] at h
    obtain ⟨old, _, rfl⟩ := Option.map_eq_some_iff.mp h
    split
    · exact Ne.symm hne
    · next other => exact other
  have noConversation : ∀ id row, moved.conversations.get id = some row →
      row.topicId ≠ source := by
    intro id row h
    rw [conversations] at h
    obtain ⟨old, _, rfl⟩ := Option.map_eq_some_iff.mp h
    split
    · exact Ne.symm hne
    · next other => exact other
  constructor
  · rw [get_touchTopic, if_neg hne, gone, if_pos rfl]
  · exact fun id row h => noEntry id row (entries' ▸ h)
  · exact fun id row h => noConversation id row (conversations' ▸ h)
  · exact fun id => (congrArg (fun e => e.get id) entries').trans (entries id)
  · exact fun id => (congrArg (fun e => e.get id) conversations').trans (conversations id)
  · exact deleted.slugs
  · exact messages'.trans messages
  · intro id other
    rw [get_touchTopic, gone, if_neg other, topics]
    by_cases same : id = dest
    · rw [if_pos same, if_pos (congrArg some same.symm)]
    · rw [if_neg same, if_neg (fun h => same (Option.some.inj h).symm)]

/-- The three writes that a merge and a delete with a destination have in common. -/
theorem reassignDeleteTouch_ok {c1 c2 c3 : Cluster} {source dest : TopicId} {moved : MoveCounts}
    (hne : source ≠ dest) (reassign : reassignRows user now source dest c = (.ok moved, c1))
    (delete : onTables user (fun t => deleteTopicRow t source) c1 = (.ok (), c2))
    (touch : onTables user (fun t => .ok ((), touchTopic t now dest)) c2 = (.ok (), c3)) :
    ∃ t, c3 = c.withTables user t ∧ Reorganised now source (some dest) (c.tables user) t ∧
      moved = ⟨(c.tables user).entries.countWhere (fun _ row => row.topicId = source),
        (c.tables user).conversations.countWhere (fun _ row => row.topicId = source)⟩ := by
  obtain ⟨t, rfl, rfl, entries, conversations, topics, messages⟩ := reassignRows_ok reassign
  obtain ⟨deleted, gone, rfl⟩ := onTables_ok.mp delete
  rw [withTables_self] at gone
  obtain ⟨_, ⟨⟩, rfl⟩ := onTables_ok.mp touch
  simp only [withTables_twice, withTables_self]
  exact ⟨_, rfl, reorganised_of_writes hne entries conversations topics messages gone, trivial⟩

theorem merge_ok {source dest : TopicId} {actorId : PyStr} {moved : MoveCounts}
    (h : merge audits user now source dest actorId c = (.ok moved, c')) :
    source ≠ dest ∧ TopicOutcome user now source (some dest) c c' moved := by
  unfold merge at h
  split at h
  · exact absurd h fail_ok
  · next hne =>
    obtain ⟨sourcePath, c1, hsource, h1⟩ := bind_ok.mp h
    obtain ⟨rfl, _⟩ := requirePath_ok hsource
    obtain ⟨destPath, c2, hdest, h2⟩ := bind_ok.mp h1
    obtain ⟨rfl, _⟩ := requirePath_ok hdest
    obtain ⟨counts, c3, reassign, h3⟩ := bind_ok.mp h2
    obtain ⟨⟨⟩, c4, delete, h4⟩ := bind_ok.mp h3
    obtain ⟨⟨⟩, c5, touch, h5⟩ := bind_ok.mp h4
    obtain ⟨t, rfl, reorganised, rfl⟩ := reassignDeleteTouch_ok hne reassign delete touch
    obtain ⟨⟨⟩, c6, record, h6⟩ := bind_ok.mp h5
    obtain rfl := recordAudit_ok record
    obtain ⟨rfl, rfl⟩ := pure_ok.mp h6
    refine ⟨hne, ?_, ⟨rfl, rfl, _, rfl, List.cons_ne_nil _ _, ?_⟩, fun other => withTables_other _⟩
    · simpa only [withTables_self] using reorganised
    · intro row mem pair inCounts
      rw [List.mem_singleton.mp mem]
      exact List.mem_append_right _ inCounts

/-- A topic without rows is deleted, and no row changes. -/
theorem reorganised_of_empty {t deleted : Tables} {source : TopicId}
    (entries : t.entries.countWhere (fun _ row => row.topicId = source) = 0)
    (conversations : t.conversations.countWhere (fun _ row => row.topicId = source) = 0)
    (delete : deleteTopicRow t source = .ok ((), deleted)) :
    Reorganised now source none t deleted := by
  obtain ⟨gone, entries', conversations', messages'⟩ := deleteTopicRow_ok delete
  constructor
  · rw [gone, if_pos rfl]
  · intro id row h same
    rw [entries'] at h
    have positive := Table.countWhere_pos (p := fun _ (row : EntryRow) => row.topicId = source)
      (Table.get_eq_some_iff.mp h) (decide_eq_true same)
    omega
  · intro id row h same
    rw [conversations'] at h
    have positive := Table.countWhere_pos
      (p := fun _ (row : ConversationRow) => row.topicId = source)
      (Table.get_eq_some_iff.mp h) (decide_eq_true same)
    omega
  · intro id
    rw [entries']
    exact Option.map_id'.symm
  · intro id
    rw [conversations']
    exact Option.map_id'.symm
  · exact deleted.slugs
  · exact messages'
  · intro id other
    rw [gone, if_neg other, if_neg (by simp)]

theorem deleteWithReassign_ok {source : TopicId} {moveEntriesTo : Option TopicId}
    {actorId : PyStr} {moved : MoveCounts}
    (h : deleteWithReassign audits user now source moveEntriesTo actorId c = (.ok moved, c')) :
    ∃ dest, (dest = moveEntriesTo ∨ dest = none ∧ moved = ⟨0, 0⟩) ∧
      TopicOutcome user now source dest c c' moved := by
  unfold deleteWithReassign at h
  obtain ⟨sourcePath, c1, hsource, h1⟩ := bind_ok.mp h
  obtain ⟨rfl, _⟩ := requirePath_ok hsource
  obtain ⟨counts, c2, counting, h2⟩ := bind_ok.mp h1
  obtain ⟨rfl, rfl⟩ := query_ok.mp counting
  split at h2
  · next empty =>
    obtain ⟨⟨⟩, c3, delete, h3⟩ := bind_ok.mp h2
    obtain ⟨deleted, gone, rfl⟩ := onTables_ok.mp delete
    obtain ⟨⟨⟩, c4, record, h4⟩ := bind_ok.mp h3
    obtain rfl := recordAudit_ok record
    obtain ⟨rfl, rfl⟩ := pure_ok.mp h4
    refine ⟨none, Or.inr ⟨rfl, rfl⟩, ?_, ⟨empty.1.symm, empty.2.symm, _, rfl,
      List.cons_ne_nil _ _, ?_⟩, fun other => withTables_other _⟩
    · simp only [withTables_self]
      exact reorganised_of_empty empty.1 empty.2 gone
    · intro row mem pair inCounts
      rw [List.mem_singleton.mp mem]
      exact List.mem_cons_of_mem _ inCounts
  · split at h2
    · exact absurd h2 fail_ok
    · next dest =>
      split at h2
      · exact absurd h2 fail_ok
      · next hne =>
        obtain ⟨destPath, c3, hdest, h3⟩ := bind_ok.mp h2
        obtain ⟨rfl, _⟩ := requirePath_ok hdest
        obtain ⟨counts, c4, reassign, h4⟩ := bind_ok.mp h3
        obtain ⟨⟨⟩, c5, delete, h5⟩ := bind_ok.mp h4
        obtain ⟨⟨⟩, c6, touch, h6⟩ := bind_ok.mp h5
        obtain ⟨t, rfl, reorganised, rfl⟩ :=
          reassignDeleteTouch_ok (Ne.symm hne) reassign delete touch
        obtain ⟨⟨⟩, c7, first, h7⟩ := bind_ok.mp h6
        obtain rfl := recordAudit_ok first
        obtain ⟨⟨⟩, c8, second, h8⟩ := bind_ok.mp h7
        obtain rfl := recordAudit_ok second
        obtain ⟨rfl, rfl⟩ := pure_ok.mp h8
        refine ⟨some dest, Or.inl rfl, ?_, ⟨rfl, rfl, _, List.append_assoc _ _ _,
          List.cons_ne_nil _ _, ?_⟩, fun other => withTables_other _⟩
        · simpa only [withTables_self] using reorganised
        · intro row mem pair inCounts
          rcases List.mem_cons.mp mem with rfl | mem
          · exact List.mem_append_right _ inCounts
          · rw [List.mem_singleton.mp mem]
            exact List.mem_append_right _ inCounts

theorem mem_dedupe {ids : List EntryId} {id : EntryId} : id ∈ dedupe ids ↔ id ∈ ids := by
  induction ids with
  | nil => exact Iff.rfl
  | cons first rest ih =>
    rw [dedupe, List.mem_cons, List.mem_filter, ih, List.mem_cons]
    by_cases same : id = first
    · simp [same]
    · simp [same]

theorem nodup_dedupe (ids : List EntryId) : (dedupe ids).Nodup := by
  induction ids with
  | nil => exact List.nodup_nil
  | cons first rest ih =>
    rw [dedupe, List.nodup_cons]
    exact ⟨fun mem => by simpa using (List.mem_filter.mp mem).2, ih.filter _⟩

theorem length_dedupe (ids : List EntryId) : (dedupe ids).length = ids.dedup.length := by
  refine List.Perm.length_eq ?_
  rw [List.perm_ext_iff_of_nodup (nodup_dedupe ids) (List.nodup_dedup ids)]
  intro id
  rw [mem_dedupe, List.mem_dedup]

theorem length_dedupe_eq_countWhere {entries : Table EntryId EntryRow} {ids : List EntryId}
    (present : ∀ id ∈ ids, ∃ row, entries.get id = some row) :
    (dedupe ids).length = entries.countWhere (fun id _ => id ∈ ids) := by
  rw [← Table.length_keysWhere]
  refine List.Perm.length_eq ?_
  rw [List.perm_ext_iff_of_nodup (nodup_dedupe ids) (Table.nodup_keysWhere _ _)]
  intro id
  rw [mem_dedupe, Table.mem_keysWhere]
  constructor
  · intro mem
    obtain ⟨row, hrow⟩ := present id mem
    exact ⟨row, hrow, decide_eq_true mem⟩
  · rintro ⟨row, _, mem⟩
    exact of_decide_eq_true mem

theorem moveEntriesToTopic_ok {ids : List EntryId} {dest : TopicId} {actorId : PyStr} {moved : Nat}
    (h : moveEntriesToTopic audits user now ids dest actorId c = (.ok moved, c')) :
    EntriesOutcome user now ids dest c c' moved := by
  unfold moveEntriesToTopic at h
  simp only at h
  split at h
  · exact absurd h fail_ok
  · split at h
    · exact absurd h fail_ok
    · obtain ⟨destPath, c1, hdest, h1⟩ := bind_ok.mp h
      obtain ⟨rfl, _⟩ := requirePath_ok hdest
      obtain ⟨movedIds, c2, update, h2⟩ := bind_ok.mp h1
      obtain ⟨t, written, rfl⟩ := onTables_ok.mp update
      obtain ⟨rfl, entries, conversations, topics, messages⟩ := moveEntries_ok written
      split at h2
      · exact absurd h2 fail_ok
      · next complete =>
        obtain ⟨⟨⟩, c3, touch, h3⟩ := bind_ok.mp h2
        obtain ⟨_, ⟨⟩, rfl⟩ := onTables_ok.mp touch
        obtain ⟨⟨⟩, c4, record, h4⟩ := bind_ok.mp h3
        obtain rfl := recordAudit_ok record
        obtain ⟨rfl, rfl⟩ := pure_ok.mp h4
        have resolved : ∀ id ∈ ids, ∃ row, (c1.tables user).entries.get id = some row ∧
            row.deletedAt = none := by
          intro id mem
          have found := List.filter_eq_nil_iff.mp (not_not.mp complete) id (mem_dedupe.mpr mem)
          obtain ⟨row, hrow, hactive⟩ := Table.mem_keysWhere.mp (by simpa using found)
          exact ⟨row, hrow, of_decide_eq_true (Bool.and_eq_true_iff.mp hactive).2⟩
        simp only [withTables_twice, withTables_self]
        constructor
        · exact resolved
        · intro id
          simp only [withTables_self]
          refine (entries id).trans (Option.map_congr fun row hrow => ?_)
          by_cases mem : id ∈ dedupe ids
          · obtain ⟨found, hfound, active⟩ := resolved id (mem_dedupe.mp mem)
            obtain rfl : row = found := Option.some.inj (hrow.symm.trans hfound)
            rw [if_pos ⟨mem, active⟩, if_pos (mem_dedupe.mp mem)]
          · rw [if_neg fun h => mem h.1, if_neg fun h => mem (mem_dedupe.mpr h)]
        · exact length_dedupe_eq_countWhere fun id mem =>
            (resolved id mem).imp fun _ found => found.1
        · exact length_dedupe ids
        · exact ⟨_, rfl, by simp⟩
        · simp only [withTables_self]
          exact conversations
        · simp only [withTables_self]
          exact messages
        · intro id
          simp only [withTables_self]
          rw [get_touchTopic, topics]
        · exact fun other => withTables_other _

end Commits

/-- Both endpoints: a response other than a success tells that nothing has changed. -/
theorem unchanged_of_respond {x : Session Cluster MoveError MoveCounts} {status : Nat}
    {c c' : Cluster} {answer : Except MoveError Response}
    (h : (transaction x c).map (respond status) id = (answer, c'))
    (failed : ∀ response, answer = .ok response → response.moved = none) : c' = c := by
  have all : AllOrNothing x c (fun _ _ => True) := allOrNothing_of_ok fun _ _ _ => trivial
  unfold AllOrNothing at all
  cases hx : transaction x c with
  | mk result after =>
    rw [hx] at h all
    cases result with
    | error e =>
      cases h
      exact all
    | ok moved =>
      cases h
      cases failed _ rfl

theorem deleteTopic_unchanged {audits : AuditSql} {user : UserId} {now : Timestamp}
    {topicId : TopicId} {moveEntriesTo : Option TopicId} {c c' : Cluster}
    {answer : Except MoveError Response}
    (h : deleteTopic audits user now topicId moveEntriesTo c = (answer, c'))
    (failed : ∀ response, answer = .ok response → response.moved = none) : c' = c :=
  unchanged_of_respond h failed

theorem mergeTopic_unchanged {audits : AuditSql} {user : UserId} {now : Timestamp}
    {topicId intoTopicId : TopicId} {c c' : Cluster} {answer : Except MoveError Response}
    (h : mergeTopic audits user now topicId intoTopicId c = (answer, c'))
    (failed : ∀ response, answer = .ok response → response.moved = none) : c' = c :=
  unchanged_of_respond h failed

/-- An id without an active entry stops the whole move. -/
theorem moveEntriesToTopic_unresolved {audits : AuditSql} {user : UserId} {now : Timestamp}
    {c : Cluster} {ids : List EntryId} {dest : TopicId} {actorId : PyStr} {id : EntryId}
    (mem : id ∈ ids)
    (unresolved : ∀ row, (c.tables user).entries.get id = some row → row.deletedAt ≠ none) :
    ∃ e, transaction (moveEntriesToTopic audits user now ids dest actorId) c = (.error e, c) := by
  have all : AllOrNothing (moveEntriesToTopic audits user now ids dest actorId) c
      (fun moved c' => EntriesOutcome user now ids dest c c' moved) :=
    allOrNothing_of_ok fun _ _ => moveEntriesToTopic_ok
  unfold AllOrNothing at all
  cases h : transaction (moveEntriesToTopic audits user now ids dest actorId) c with
  | mk result after =>
    rw [h] at all
    cases result with
    | error e =>
      cases all
      exact ⟨e, rfl⟩
    | ok moved =>
      obtain ⟨row, hrow, active⟩ := all.resolved id mem
      exact absurd active (unresolved row hrow)

/-- Merges, deletes and moves in a transaction: either nothing changes or all of it does. -/
theorem moves_all_or_nothing (audits : AuditSql) (user : UserId) (now : Timestamp) (c : Cluster)
    (actorId : PyStr) :
    (∀ source dest, AllOrNothing (merge audits user now source dest actorId) c
      (fun moved c' => source ≠ dest ∧ TopicOutcome user now source (some dest) c c' moved)) ∧
    (∀ source moveEntriesTo,
      AllOrNothing (deleteWithReassign audits user now source moveEntriesTo actorId) c
        (fun moved c' => ∃ dest, (dest = moveEntriesTo ∨ dest = none ∧ moved = ⟨0, 0⟩) ∧
          TopicOutcome user now source dest c c' moved)) ∧
    (∀ ids dest, AllOrNothing (moveEntriesToTopic audits user now ids dest actorId) c
      (fun moved c' => EntriesOutcome user now ids dest c c' moved)) ∧
    (∀ ids dest id, id ∈ ids →
      (∀ row, (c.tables user).entries.get id = some row → row.deletedAt ≠ none) →
      ∃ e, transaction (moveEntriesToTopic audits user now ids dest actorId) c = (.error e, c)) :=
  ⟨fun _ _ => allOrNothing_of_ok fun _ _ => merge_ok,
    fun _ _ => allOrNothing_of_ok fun _ _ => deleteWithReassign_ok,
    fun _ _ => allOrNothing_of_ok fun _ _ => moveEntriesToTopic_ok,
    fun _ _ _ mem unresolved => moveEntriesToTopic_unresolved mem unresolved⟩

/-- An audit table that takes every row. -/
def sampleAudits : AuditSql where
  insert row log := .ok (log ++ [row])
  appends _ _ _ h := (Except.ok.inj h).symm

example : (transaction (moveEntriesToTopic sampleAudits (py "u1") Listing.sampleTime [4, 6, 4] 1
    (py "u1")) ⟨fun _ => Listing.sampleTables, []⟩).1 = .ok 2 := by decide

end TopicMoves
