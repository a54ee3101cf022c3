import Gubbi.Journal.TopicMoves
import Gubbi.Validation

/-!
# Histories of topics

`topics.rename` beside the other topic sessions, and runs of all four. `audit_log` has rows of
them all: a rename writes both paths, a merge and a delete the path that they drop. Replaying
a user's rows over the paths at the start gives the paths at the end.
-/

namespace TopicHistory

open Text JournalTables JournalRows Transactions TopicMoves
open Validation (Lowering validateTopic validateTitle)

/-- A row of `audit_log`. -/
inductive LogRow
  | moved (row : AuditRow)
  | renamed (actorId targetId oldPath newPath : PyStr)
  deriving DecidableEq

def LogRow.actorId : LogRow → PyStr
  | .moved row => row.actorId
  | .renamed actorId _ _ _ => actorId

structure World where
  tables : UserId → Tables
  log : List LogRow

def World.withTables (w : World) (user : UserId) (t : Tables) : World :=
  { w with tables := fun other => if other = user then t else w.tables other }

inductive RenameError
  | valueError (message : PyStr)
  | topicNotFound (message : PyStr)
  | topicAlreadyExists (message : PyStr)
  | auditError (message : PyStr)
  deriving DecidableEq

section Rename
variable (low : Lowering) (refuses : LogRow → World → Option PyStr) (user : UserId)
  (now : Timestamp)

def requireOldPath (id : TopicId) : Session World RenameError PyStr := do
  let row ← query (fun w => (w.tables user).topics.get id)
  match row with
  | none => fail (.topicNotFound (py "Topic id " ++ number id ++ py " not found"))
  | some topic => pure topic.path

/-- A validator's `ValueError` comes out of the session. -/
def validated {E A : Type} (message : E → PyStr) (x : Except E A) : Session World RenameError A :=
  match x with
  | .error e => fail (.valueError (message e))
  | .ok a => pure a

def TopicRow.rename (now : Timestamp) (newPath : PyStr) (newTitle : Option PyStr)
    (row : TopicRow) : TopicRow :=
  { row with path := newPath, title := newTitle.getD row.title, updatedAt := now }

/-- `UPDATE topics SET path = ... WHERE id = ... RETURNING ...`; `none` is a unique violation. -/
def renameTopicRow (t : Tables) (id : TopicId) (newPath : PyStr) (newTitle : Option PyStr) :
    Option Tables :=
  have keys : ∀ key ∈ t.topics.keys,
      key ∈ (t.topics.modify id (TopicRow.rename now newPath newTitle)).keys := by
    rw [Table.keys_modify]
    exact fun _ mem => mem
  if free : (t.topics.modify id (TopicRow.rename now newPath newTitle)).UniqueOn TopicRow.path then
    some { t with
      topics := t.topics.modify id (TopicRow.rename now newPath newTitle)
      paths := free
      entryTopics := t.entryTopics.of_keys keys
      conversationTopics := t.conversationTopics.of_keys keys }
  else none

def updateTopic (id : TopicId) (newPath : PyStr) (newTitle : Option PyStr) :
    Session World RenameError TopicRow :=
  statement (fun w =>
    match renameTopicRow now (w.tables user) id newPath newTitle with
    | none => .error (.topicAlreadyExists (py "Topic '" ++ newPath ++ py "' already exists"))
    | some t =>
      match t.topics.get id with
      | none => .error (.topicNotFound (py "Topic id " ++ number id ++ py " not found"))
      | some row => .ok (row, w.withTables user t))

/-- `record_audit_async`, which inserts the row or raises. -/
def recordRename (row : LogRow) : Session World RenameError Unit :=
  statement (fun w =>
    match refuses row w with
    | some message => .error (.auditError message)
    | none => .ok ((), { w with log := w.log ++ [row] }))

/-- The row of the returned `TopicMeta`. -/
def rename (topicId : TopicId) (newPath : PyStr) (newTitle : Option PyStr) (actorId : PyStr) :
    Session World RenameError TopicRow := do
  let newPath ← validated id (validateTopic low newPath)
  let oldPath ← requireOldPath user topicId
  let newTitle ← validated (fun _ => py "Title could not be sanitized to a valid value. " ++
    py "Use alphanumeric characters with spaces, hyphens, or underscores.")
    (newTitle.mapM validateTitle)
  let row ← updateTopic user now topicId newPath newTitle
  recordRename refuses (.renamed actorId (number topicId) oldPath newPath)
  pure row

end Rename

inductive Request
  | rename (topicId : TopicId) (newPath : PyStr) (newTitle : Option PyStr)
  | delete (topicId : TopicId) (moveEntriesTo : Option TopicId)
  | merge (topicId intoTopicId : TopicId)
  | moveEntries (entryIds : List EntryId) (dest : TopicId)

structure Turn where
  user : UserId
  now : Timestamp
  request : Request

/-- The rows that the other sessions write. -/
def LogRow.asMoved : LogRow → Option AuditRow
  | .moved row => some row
  | .renamed _ _ _ _ => none

def World.cluster (w : World) : Cluster := ⟨w.tables, w.log.filterMap LogRow.asMoved⟩

/-- What a session on the cluster has changed. -/
def World.after (w : World) (c : Cluster) : World :=
  ⟨c.tables, w.log ++ (c.audit.drop w.cluster.audit.length).map .moved⟩

section Runs
variable (low : Lowering) (refuses : LogRow → World → Option PyStr) (audits : AuditSql)

/-- A request in its transaction; the actor is the user. -/
def step (w : World) (turn : Turn) : World :=
  match turn.request with
  | .rename topicId newPath newTitle =>
    (transaction (rename low refuses turn.user turn.now topicId newPath newTitle turn.user) w).2
  | .delete topicId moveEntriesTo =>
    w.after (transaction (deleteWithReassign audits turn.user turn.now topicId moveEntriesTo
      turn.user) w.cluster).2
  | .merge topicId intoTopicId =>
    w.after (transaction (merge audits turn.user turn.now topicId intoTopicId turn.user)
      w.cluster).2
  | .moveEntries entryIds dest =>
    w.after (transaction (moveEntriesToTopic audits turn.user turn.now entryIds dest turn.user)
      w.cluster).2

def run (w : World) (turns : List Turn) : World := turns.foldl (step low refuses audits) w

end Runs

/-- `metadata["source_path"]`. -/
def sourcePath (row : AuditRow) : Option PyStr :=
  match row.metadata.find? (fun pair => pair.1 = py "source_path") with
  | some (_, .text path) => some path
  | _ => none

/-- The path that a row says is gone. -/
def dropped (row : AuditRow) : Option PyStr :=
  match row.action with
  | .entryMoved => none
  | .topicMerged => sourcePath row
  | .topicDeleted => sourcePath row

def LogRow.replay (paths : Set PyStr) : LogRow → Set PyStr
  | .moved row => { path ∈ paths | dropped row ≠ some path }
  | .renamed _ _ oldPath newPath => { path | path = newPath ∨ path ∈ paths ∧ path ≠ oldPath }

def pathsOf (t : Tables) : Set PyStr :=
  { path | ∃ id row, t.topics.get id = some row ∧ row.path = path }

/-- The paths after the rows of one user. -/
def replayed (user : UserId) (rows : List LogRow) (paths : Set PyStr) : Set PyStr :=
  (rows.filter (fun row => row.actorId = user)).foldl LogRow.replay paths

section Logged
variable {audits : AuditSql} {user : UserId} {now : Timestamp} {c c' : Cluster} {actorId : PyStr}

/-- The rows are the actor's, and what they say is gone is at most one path. -/
structure Logs (actorId : PyStr) (gone : List PyStr) (before after : List AuditRow) : Prop where
  rows : ∃ rows, after = before ++ rows ∧ (∀ row ∈ rows, row.actorId = actorId) ∧
    rows.filterMap dropped = gone

theorem requirePath_path {id : TopicId} {path : PyStr}
    (h : requirePath user id c = (.ok path, c')) :
    c' = c ∧ ∃ topic, (c.tables user).topics.get id = some topic ∧ topic.path = path := by
  unfold requirePath at h
  obtain ⟨row, middle, hrow, h⟩ := bind_ok.mp h
  obtain ⟨rfl, rfl⟩ := query_ok.mp hrow
  cases hget : (c.tables user).topics.get id with
  | none =>
    rw [hget] at h
    exact absurd h fail_ok
  | some topic =>
    rw [hget] at h
    obtain ⟨path, same⟩ := pure_ok.mp h
    exact ⟨same.symm, topic, rfl, path⟩

/-- A statement on the tables logs nothing. -/
theorem audit_of_onTables {A : Type} {f : Tables → Except MoveError (A × Tables)} {a : A}
    (h : onTables user f c = (.ok a, c')) : c'.audit = c.audit := by
  obtain ⟨t, -, rfl⟩ := onTables_ok.mp h
  rfl

theorem audit_of_reassignRows {source dest : TopicId} {moved : MoveCounts}
    (h : reassignRows user now source dest c = (.ok moved, c')) : c'.audit = c.audit := by
  obtain ⟨t, rfl, -⟩ := reassignRows_ok h
  rfl

/-- The session drops the topic `source`, and says so. -/
def LogsDrop (user : UserId) (actorId : PyStr) (source : TopicId) (c c' : Cluster) : Prop :=
  ∃ topic, (c.tables user).topics.get source = some topic ∧
    Logs actorId [topic.path] c.audit c'.audit

theorem merge_logs {source dest : TopicId} {moved : MoveCounts}
    (h : merge audits user now source dest actorId c = (.ok moved, c')) :
    LogsDrop user actorId source c c' := by
  unfold merge at h
  split at h
  · exact absurd h fail_ok
  · obtain ⟨sourcePath, c1, hsource, h1⟩ := bind_ok.mp h
    obtain ⟨rfl, topic, found, rfl⟩ := requirePath_path hsource
    obtain ⟨destPath, c2, hdest, h2⟩ := bind_ok.mp h1
    obtain ⟨rfl, -⟩ := requirePath_ok hdest
    obtain ⟨counts, c3, reassign, h3⟩ := bind_ok.mp h2
    obtain ⟨⟨⟩, c4, delete, h4⟩ := bind_ok.mp h3
    obtain ⟨⟨⟩, c5, touch, h5⟩ := bind_ok.mp h4
    obtain ⟨⟨⟩, c6, record, h6⟩ := bind_ok.mp h5
    obtain rfl := recordAudit_ok record
    obtain ⟨rfl, rfl⟩ := pure_ok.mp h6
    have quiet := ((audit_of_onTables touch).trans (audit_of_onTables delete)).trans
      (audit_of_reassignRows reassign)
    refine ⟨topic, found, _, congrArg (· ++ _) quiet, ?_, rfl⟩
    intro row mem
    rw [List.mem_singleton.mp mem]

theorem deleteWithReassign_logs {source : TopicId} {moveEntriesTo : Option TopicId}
    {moved : MoveCounts}
    (h : deleteWithReassign audits user now source moveEntriesTo actorId c = (.ok moved, c')) :
    LogsDrop user actorId source c c' := by
  unfold deleteWithReassign at h
  obtain ⟨sourcePath, c1, hsource, h1⟩ := bind_ok.mp h
  obtain ⟨rfl, topic, found, rfl⟩ := requirePath_path hsource
  obtain ⟨counts, c2, counting, h2⟩ := bind_ok.mp h1
  obtain ⟨rfl, rfl⟩ := query_ok.mp counting
  split at h2
  · obtain ⟨⟨⟩, c3, delete, h3⟩ := bind_ok.mp h2
    obtain ⟨⟨⟩, c4, record, h4⟩ := bind_ok.mp h3
    obtain rfl := recordAudit_ok record
    obtain ⟨rfl, rfl⟩ := pure_ok.mp h4
    refine ⟨topic, found, _, congrArg (· ++ _) (audit_of_onTables delete), ?_, rfl⟩
    intro row mem
    rw [List.mem_singleton.mp mem]
  · split at h2
    · exact absurd h2 fail_ok
    · next dest =>
      split at h2
      · exact absurd h2 fail_ok
      · obtain ⟨destPath, c3, hdest, h3⟩ := bind_ok.mp h2
        obtain ⟨rfl, -⟩ := requirePath_ok hdest
        obtain ⟨counts, c4, reassign, h4⟩ := bind_ok.mp h3
        obtain ⟨⟨⟩, c5, delete, h5⟩ := bind_ok.mp h4
        obtain ⟨⟨⟩, c6, touch, h6⟩ := bind_ok.mp h5
        obtain ⟨⟨⟩, c7, first, h7⟩ := bind_ok.mp h6
        obtain rfl := recordAudit_ok first
        obtain ⟨⟨⟩, c8, second, h8⟩ := bind_ok.mp h7
        obtain rfl := recordAudit_ok second
        obtain ⟨rfl, rfl⟩ := pure_ok.mp h8
        have quiet := ((audit_of_onTables touch).trans (audit_of_onTables delete)).trans
          (audit_of_reassignRows reassign)
        refine ⟨topic, found, _, (List.append_assoc _ _ _).trans (congrArg (· ++ _) quiet), ?_, rfl⟩
        intro row mem
        rcases List.mem_cons.mp mem with rfl | mem
        · rfl
        · rw [List.mem_singleton.mp mem]

theorem moveEntriesToTopic_logs {ids : List EntryId} {dest : TopicId} {moved : Nat}
    (h : moveEntriesToTopic audits user now ids dest actorId c = (.ok moved, c')) :
    Logs actorId [] c.audit c'.audit := by
  unfold moveEntriesToTopic at h
  simp only at h
  split at h
  · exact absurd h fail_ok
  · split at h
    · exact absurd h fail_ok
    · obtain ⟨destPath, c1, hdest, h1⟩ := bind_ok.mp h
      obtain ⟨rfl, -⟩ := requirePath_ok hdest
      obtain ⟨movedIds, c2, update, h2⟩ := bind_ok.mp h1
      split at h2
      · exact absurd h2 fail_ok
      · obtain ⟨⟨⟩, c3, touch, h3⟩ := bind_ok.mp h2
        obtain ⟨⟨⟩, c4, record, h4⟩ := bind_ok.mp h3
        obtain rfl := recordAudit_ok record
        obtain ⟨rfl, rfl⟩ := pure_ok.mp h4
        have quiet := (audit_of_onTables touch).trans (audit_of_onTables update)
        refine ⟨_, congrArg (· ++ _) quiet, ?_, rfl⟩
        intro row mem
        rw [List.mem_singleton.mp mem]

end Logged

/-- Every row is there with its data, except for its topic and its update time. -/
structure Kept (t t' : Tables) : Prop where
  entries : ∀ id row, t.entries.get id = some row → ∃ topicId updatedAt,
    t'.entries.get id = some { row with topicId := topicId, updatedAt := updatedAt }
  noEntry : ∀ id, t.entries.get id = none → t'.entries.get id = none
  conversations : ∀ id row, t.conversations.get id = some row → ∃ topicId updatedAt,
    t'.conversations.get id = some { row with topicId := topicId, updatedAt := updatedAt }
  noConversation : ∀ id, t.conversations.get id = none → t'.conversations.get id = none
  messages : t'.messages = t.messages

section Staying
variable {t t' t'' : Tables} {now : Timestamp} {source : TopicId} {dest : Option TopicId}

theorem Kept.refl (t : Tables) : Kept t t :=
  ⟨fun _ row found => ⟨row.topicId, row.updatedAt, found⟩, fun _ missing => missing,
    fun _ row found => ⟨row.topicId, row.updatedAt, found⟩, fun _ missing => missing, rfl⟩

theorem Kept.trans (first : Kept t t') (second : Kept t' t'') : Kept t t'' := by
  refine ⟨fun id row found => ?_, fun id missing => second.noEntry id (first.noEntry id missing),
    fun id row found => ?_, fun id missing => second.noConversation id
      (first.noConversation id missing), second.messages.trans first.messages⟩
  · obtain ⟨topicId, updatedAt, found'⟩ := first.entries id row found
    obtain ⟨topicId', updatedAt', found''⟩ := second.entries id _ found'
    exact ⟨topicId', updatedAt', found''⟩
  · obtain ⟨topicId, updatedAt, found'⟩ := first.conversations id row found
    obtain ⟨topicId', updatedAt', found''⟩ := second.conversations id _ found'
    exact ⟨topicId', updatedAt', found''⟩

theorem kept_of_same (entries : t'.entries = t.entries)
    (conversations : t'.conversations = t.conversations) (messages : t'.messages = t.messages) :
    Kept t t' :=
  ⟨fun _ row found => ⟨row.topicId, row.updatedAt, entries ▸ found⟩,
    fun _ missing => entries ▸ missing,
    fun _ row found => ⟨row.topicId, row.updatedAt, conversations ▸ found⟩,
    fun _ missing => conversations ▸ missing, messages⟩

theorem kept_reorganised (outcome : Reorganised now source dest t t') : Kept t t' := by
  refine ⟨fun id row found => ?_, fun id missing => ?_, fun id row found => ?_,
    fun id missing => ?_, outcome.messages⟩
  · rw [outcome.entries, found, Option.map_some]
    cases dest with
    | none => exact ⟨row.topicId, row.updatedAt, rfl⟩
    | some dest =>
      by_cases here : row.topicId = source
      · exact ⟨dest, now, congrArg some (if_pos here)⟩
      · exact ⟨row.topicId, row.updatedAt, congrArg some (if_neg here)⟩
  · rw [outcome.entries, missing, Option.map_none]
  · rw [outcome.conversations, found, Option.map_some]
    cases dest with
    | none => exact ⟨row.topicId, row.updatedAt, rfl⟩
    | some dest =>
      by_cases here : row.topicId = source
      · exact ⟨dest, now, congrArg some (if_pos here)⟩
      · exact ⟨row.topicId, row.updatedAt, congrArg some (if_neg here)⟩
  · rw [outcome.conversations, missing, Option.map_none]

theorem kept_moved {user : UserId} {ids : List EntryId} {dest : TopicId} {c c' : Cluster}
    {moved : Nat} (outcome : EntriesOutcome user now ids dest c c' moved) :
    Kept (c.tables user) (c'.tables user) := by
  refine ⟨fun id row found => ?_, fun id missing => ?_, fun id row found => ?_,
    fun id missing => ?_, outcome.messages⟩
  · rw [outcome.entries, found, Option.map_some]
    by_cases here : id ∈ ids
    · exact ⟨dest, now, congrArg some (if_pos here)⟩
    · exact ⟨row.topicId, row.updatedAt, congrArg some (if_neg here)⟩
  · rw [outcome.entries, missing, Option.map_none]
  · exact ⟨row.topicId, row.updatedAt, outcome.conversations ▸ found⟩
  · exact outcome.conversations ▸ missing

/-- Only the source's path is gone. -/
theorem pathsOf_reorganised {topic : TopicRow} (outcome : Reorganised now source dest t t')
    (found : t.topics.get source = some topic) :
    pathsOf t' = { path ∈ pathsOf t | path ≠ topic.path } := by
  have stays (id : TopicId) (other : id ≠ source) (path : PyStr) :
      (∃ row, t'.topics.get id = some row ∧ row.path = path) ↔
        ∃ row, t.topics.get id = some row ∧ row.path = path := by
    rw [outcome.topics id other]
    split
    · cases t.topics.get id with
      | none => exact iff_of_false (by rintro ⟨_, ⟨⟩, -⟩) (by rintro ⟨_, ⟨⟩, -⟩)
      | some row => simp [TopicRow.touch]
    · exact Iff.rfl
  ext path
  constructor
  · rintro ⟨id, row, after, here⟩
    have other : id ≠ source := by
      rintro rfl
      rw [outcome.sourceGone] at after
      cases after
    obtain ⟨old, before, same⟩ := (stays id other path).mp ⟨row, after, here⟩
    refine ⟨⟨id, old, before, same⟩, fun clash => other ?_⟩
    exact t.paths.eq_of_get before found (same.trans clash)
  · rintro ⟨⟨id, row, before, here⟩, different⟩
    have other : id ≠ source := by
      rintro rfl
      rw [found] at before
      exact different (here.symm.trans (congrArg TopicRow.path (Option.some.inj before)).symm)
    exact ⟨id, (stays id other path).mpr ⟨row, before, here⟩⟩

theorem pathsOf_moved {user : UserId} {ids : List EntryId} {dest : TopicId} {c c' : Cluster}
    {moved : Nat} (outcome : EntriesOutcome user now ids dest c c' moved) :
    pathsOf (c'.tables user) = pathsOf (c.tables user) := by
  have stays (id : TopicId) (path : PyStr) :
      (∃ row, (c'.tables user).topics.get id = some row ∧ row.path = path) ↔
        ∃ row, (c.tables user).topics.get id = some row ∧ row.path = path := by
    rw [outcome.topics id]
    split
    · cases (c.tables user).topics.get id with
      | none => exact iff_of_false (by rintro ⟨_, ⟨⟩, -⟩) (by rintro ⟨_, ⟨⟩, -⟩)
      | some row => simp [TopicRow.touch]
    · exact Iff.rfl
  ext path
  exact exists_congr fun id => stays id path

end Staying

section Renamed
variable {low : Lowering} {refuses : LogRow → World → Option PyStr} {user : UserId}
  {now : Timestamp} {w w' : World} {t t' : Tables} {topicId : TopicId} {newPath actorId : PyStr}
  {newTitle : Option PyStr} {topic row : TopicRow}

theorem validated_ok {E A : Type} {message : E → PyStr} {x : Except E A} {a : A} :
    validated message x w = (.ok a, w') ↔ x = .ok a ∧ w = w' := by
  cases x with
  | error e => exact iff_of_false fail_ok (by rintro ⟨⟨⟩, -⟩)
  | ok a' => rw [validated, pure_ok, Except.ok.injEq]

theorem requireOldPath_ok {path : PyStr} (h : requireOldPath user topicId w = (.ok path, w')) :
    w' = w ∧ ∃ topic, (w.tables user).topics.get topicId = some topic ∧ topic.path = path := by
  unfold requireOldPath at h
  obtain ⟨row, middle, hrow, h⟩ := bind_ok.mp h
  obtain ⟨rfl, rfl⟩ := query_ok.mp hrow
  cases hget : (w.tables user).topics.get topicId with
  | none =>
    rw [hget] at h
    exact absurd h fail_ok
  | some topic =>
    rw [hget] at h
    obtain ⟨path, same⟩ := pure_ok.mp h
    exact ⟨same.symm, topic, rfl, path⟩

theorem updateTopic_ok (h : updateTopic user now topicId newPath newTitle w = (.ok row, w')) :
    ∃ t, renameTopicRow now (w.tables user) topicId newPath newTitle = some t ∧
      w' = w.withTables user t := by
  unfold updateTopic at h
  rw [statement_ok] at h
  cases renamed : renameTopicRow now (w.tables user) topicId newPath newTitle with
  | none =>
    rw [renamed] at h
    cases h
  | some t =>
    simp only [renamed] at h
    split at h
    · cases h
    · cases h
      exact ⟨t, rfl, rfl⟩

theorem recordRename_ok {logged : LogRow} (h : recordRename refuses logged w = (.ok (), w')) :
    w' = { w with log := w.log ++ [logged] } := by
  unfold recordRename at h
  rw [statement_ok] at h
  split at h
  · cases h
  · cases h
    rfl

theorem rename_ok
    (h : rename low refuses user now topicId newPath newTitle actorId w = (.ok row, w')) :
    ∃ path title t topic, (w.tables user).topics.get topicId = some topic ∧
      renameTopicRow now (w.tables user) topicId path title = some t ∧
      w' = { w.withTables user t with
        log := w.log ++ [.renamed actorId (number topicId) topic.path path] } := by
  unfold rename at h
  obtain ⟨path, w1, hpath, h1⟩ := bind_ok.mp h
  obtain ⟨-, rfl⟩ := validated_ok.mp hpath
  obtain ⟨oldPath, w2, hold, h2⟩ := bind_ok.mp h1
  obtain ⟨rfl, topic, found, rfl⟩ := requireOldPath_ok hold
  obtain ⟨title, w3, htitle, h3⟩ := bind_ok.mp h2
  obtain ⟨-, rfl⟩ := validated_ok.mp htitle
  obtain ⟨written, w4, update, h4⟩ := bind_ok.mp h3
  obtain ⟨t, renamed, rfl⟩ := updateTopic_ok update
  obtain ⟨⟨⟩, w5, record, h5⟩ := bind_ok.mp h4
  obtain rfl := recordRename_ok record
  obtain ⟨-, rfl⟩ := pure_ok.mp h5
  exact ⟨path, title, t, topic, found, renamed, rfl⟩

theorem renameTopicRow_ok (h : renameTopicRow now t topicId newPath newTitle = some t') :
    t'.topics = t.topics.modify topicId (TopicRow.rename now newPath newTitle) ∧ Kept t t' := by
  unfold renameTopicRow at h
  simp only at h
  split at h
  · cases h
    exact ⟨rfl, kept_of_same rfl rfl rfl⟩
  · cases h

theorem pathsOf_renamed (h : renameTopicRow now t topicId newPath newTitle = some t')
    (found : t.topics.get topicId = some topic) :
    pathsOf t' = { path | path = newPath ∨ path ∈ pathsOf t ∧ path ≠ topic.path } := by
  have topics := (renameTopicRow_ok h).1
  have self : t'.topics.get topicId = some (TopicRow.rename now newPath newTitle topic) := by
    rw [topics]
    exact Table.get_modify_self _ found
  have other {id : TopicId} (ne : id ≠ topicId) : t'.topics.get id = t.topics.get id := by
    rw [topics]
    exact Table.get_modify_ne _ _ ne
  ext path
  constructor
  · rintro ⟨id, row, after, here⟩
    by_cases same : id = topicId
    · rw [same, self] at after
      rw [← Option.some.inj after] at here
      exact Or.inl here.symm
    · rw [other same] at after
      refine Or.inr ⟨⟨id, row, after, here⟩, fun clash => same ?_⟩
      exact t.paths.eq_of_get after found (here.trans clash)
  · rintro (rfl | ⟨⟨id, row, before, here⟩, different⟩)
    · exact ⟨topicId, _, self, rfl⟩
    · have ne : id ≠ topicId := by
        rintro rfl
        rw [found] at before
        exact different (here.symm.trans (congrArg TopicRow.path (Option.some.inj before)).symm)
      exact ⟨id, row, (other ne).trans before, here⟩

end Renamed

section Histories
variable {low : Lowering} {refuses : LogRow → World → Option PyStr} {audits : AuditSql}
  {w w' w'' : World} {user : UserId}

theorem replay_moved (rows : List AuditRow) (paths : Set PyStr) :
    (rows.map LogRow.moved).foldl LogRow.replay paths =
      { path ∈ paths | path ∉ rows.filterMap dropped } := by
  induction rows generalizing paths with
  | nil => simp
  | cons row rest ih =>
    rw [List.map_cons, List.foldl_cons, ih]
    ext path
    cases gone : dropped row with
    | none => simp [LogRow.replay, gone]
    | some other => simp [LogRow.replay, gone, and_assoc, eq_comm]

/-- What a request does: the log grows by rows of its user, which account for the paths. -/
structure Accounts (user : UserId) (rows : List LogRow) (w w' : World) : Prop where
  log : w'.log = w.log ++ rows
  own : ∀ row ∈ rows, row.actorId = user
  paths : pathsOf (w'.tables user) = rows.foldl LogRow.replay (pathsOf (w.tables user))
  kept : Kept (w.tables user) (w'.tables user)
  others : ∀ other, other ≠ user → w'.tables other = w.tables other

theorem accounts_refl (user : UserId) (w : World) : Accounts user [] w w :=
  ⟨(List.append_nil _).symm, fun _ mem => absurd mem List.not_mem_nil, rfl, Kept.refl _,
    fun _ _ => rfl⟩

theorem after_cluster (w : World) : w.after w.cluster = w := by
  rw [World.after, List.drop_length, List.map_nil, List.append_nil]
  rfl

/-- A session of the cluster that has committed. -/
theorem accounts_after {c' : Cluster} {gone : List PyStr}
    (logs : Logs user gone w.cluster.audit c'.audit)
    (paths : pathsOf (c'.tables user) = { path ∈ pathsOf (w.tables user) | path ∉ gone })
    (kept : Kept (w.tables user) (c'.tables user))
    (others : ∀ other, other ≠ user → c'.tables other = w.tables other) :
    ∃ rows, Accounts user rows w (w.after c') := by
  obtain ⟨rows, after, own, drops⟩ := logs.rows
  refine ⟨rows.map .moved, ?_, ?_, ?_, kept, others⟩
  · rw [World.after, after, List.drop_left]
  · intro row mem
    obtain ⟨moved, listed, rfl⟩ := List.mem_map.mp mem
    exact own moved listed
  · rw [replay_moved, drops]
    exact paths

theorem accounts_rename (w : World) (now : Timestamp) (topicId : TopicId) (newPath : PyStr)
    (newTitle : Option PyStr) : ∃ rows, Accounts user rows w
      (transaction (rename low refuses user now topicId newPath newTitle user) w).2 := by
  rcases transaction_snd (rename low refuses user now topicId newPath newTitle user) w with
    ⟨row, committed⟩ | unchanged
  · obtain ⟨path, title, t, topic, found, renamed, same⟩ := rename_ok committed
    rw [same]
    refine ⟨[.renamed user (number topicId) topic.path path], rfl, fun row mem => ?_, ?_, ?_, ?_⟩
    · rw [List.mem_singleton.mp mem]
      rfl
    · exact (congrArg pathsOf (if_pos rfl)).trans (pathsOf_renamed renamed found)
    · show Kept (w.tables user) ((w.withTables user t).tables user)
      rw [show (w.withTables user t).tables user = t from if_pos rfl]
      exact (renameTopicRow_ok renamed).2
    · exact fun other ne => if_neg ne
  · rw [unchanged]
    exact ⟨[], accounts_refl user w⟩

/-- Dropping a topic, by a merge or a delete. -/
theorem accounts_drop {source : TopicId} {dest : Option TopicId} {now : Timestamp} {c' : Cluster}
    {moved : MoveCounts} (logs : LogsDrop user user source w.cluster c')
    (outcome : TopicOutcome user now source dest w.cluster c' moved) :
    ∃ rows, Accounts user rows w (w.after c') := by
  obtain ⟨topic, found, logged⟩ := logs
  refine accounts_after logged ?_ (kept_reorganised outcome.tables) outcome.others
  rw [pathsOf_reorganised outcome.tables found]
  ext path
  simp only [Set.mem_ofPred_eq, List.mem_singleton]
  exact Iff.rfl

theorem accounts_step (w : World) (turn : Turn) :
    ∃ rows, Accounts turn.user rows w (step low refuses audits w turn) := by
  obtain ⟨user, now, request⟩ := turn
  cases request with
  | rename topicId newPath newTitle => exact accounts_rename w now topicId newPath newTitle
  | delete topicId moveEntriesTo =>
    simp only [step]
    rcases transaction_snd (deleteWithReassign audits user now topicId moveEntriesTo user)
      w.cluster with ⟨moved, committed⟩ | unchanged
    · obtain ⟨dest, -, outcome⟩ := deleteWithReassign_ok committed
      exact accounts_drop (deleteWithReassign_logs committed) outcome
    · rw [unchanged, after_cluster]
      exact ⟨[], accounts_refl user w⟩
  | merge topicId intoTopicId =>
    simp only [step]
    rcases transaction_snd (merge audits user now topicId intoTopicId user) w.cluster with
      ⟨moved, committed⟩ | unchanged
    · exact accounts_drop (merge_logs committed) (merge_ok committed).2
    · rw [unchanged, after_cluster]
      exact ⟨[], accounts_refl user w⟩
  | moveEntries entryIds dest =>
    simp only [step]
    rcases transaction_snd (moveEntriesToTopic audits user now entryIds dest user) w.cluster with
      ⟨moved, committed⟩ | unchanged
    · have outcome := moveEntriesToTopic_ok committed
      refine accounts_after (moveEntriesToTopic_logs committed) ?_ (kept_moved outcome)
        outcome.others
      rw [pathsOf_moved outcome]
      simp only [List.not_mem_nil, not_false_eq_true, and_true, Set.ofPred_mem_eq]
      rfl
    · rw [unchanged, after_cluster]
      exact ⟨[], accounts_refl user w⟩

/-- After every run of renames, deletes, merges and moves of any users, replaying a user's rows of
the log over the paths at the start gives the user's paths, and no entry, conversation or message
is lost or changed except for its place. -/
theorem history_replays (low : Lowering) (refuses : LogRow → World → Option PyStr)
    (audits : AuditSql) (w : World) (turns : List Turn) :
    ∃ rows, (run low refuses audits w turns).log = w.log ++ rows ∧ ∀ user,
      pathsOf ((run low refuses audits w turns).tables user) =
          replayed user rows (pathsOf (w.tables user)) ∧
        Kept (w.tables user) ((run low refuses audits w turns).tables user) := by
  induction turns generalizing w with
  | nil => exact ⟨[], (List.append_nil _).symm, fun user => ⟨rfl, Kept.refl _⟩⟩
  | cons turn rest ih =>
    obtain ⟨first, accounts⟩ := @accounts_step low refuses audits w turn
    obtain ⟨more, log, users⟩ := ih (step low refuses audits w turn)
    refine ⟨first ++ more, ?_, fun user => ?_⟩
    · rw [run, List.foldl_cons, ← run, log, accounts.log, List.append_assoc]
    · obtain ⟨paths, kept⟩ := users user
      rw [run, List.foldl_cons, ← run, paths]
      unfold replayed
      rw [List.filter_append, List.foldl_append]
      by_cases own : user = turn.user
      · subst own
        rw [List.filter_eq_self.mpr fun row mem => decide_eq_true (accounts.own row mem),
          ← accounts.paths]
        exact ⟨rfl, accounts.kept.trans kept⟩
      · have none : first.filter (fun row => row.actorId = user) = [] := by
          rw [List.filter_eq_nil_iff]
          intro row mem same
          exact own ((of_decide_eq_true same).symm.trans (accounts.own row mem))
        rw [none, List.foldl_nil, accounts.others user own] at *
        exact ⟨rfl, kept⟩

end Histories

end TopicHistory
