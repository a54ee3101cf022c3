import Gubbi.Tenancy.Operations
import Gubbi.Library.Replay

/-!
# Races for a topic

Phase 3 of an extraction looks its topic up and creates it when it is missing. Between
the two, another run or a request may commit a topic at the path. The insert then fails
the transaction, which the handler of the worker does not see: the next statement is
refused, and with the savepoint goes all that the run has extracted.
-/

namespace Tenancy

open Text RowSecurity Transactions Connections
open JournalEntries (EntryId)
open JournalConversations (TopicId)
open ExtractionJobs (UserId JobId JobRow)
open ExtractConversation (ExtractedEntry)

section Phases
variable {E : Type}

/-- Phase 3 up to the lookup; `none` when the conversation is processed already. -/
def lookUpSavepoint (x : Extraction) : Tx E (Option Bool) := do
  let processed ← checkIdempotent x.conversationId
  if processed then pure none
  else do
    let found ← lookUpTopic x.topicPath
    pure (some found)

def lookUpPhase (user : UserId) (x : Extraction) : Tx E (Option Bool) :=
  userScoped user (withTransaction .inFailedTransaction (lookUpSavepoint x))

/-- The rest of phase 3, after what the lookup has found. -/
def writePhase (user : UserId) (x : Extraction) (found : Bool) (today : PyStr) (now : Time) :
    Tx E Unit :=
  userScoped user (withTransaction .inFailedTransaction (persistInto user x found today now))

section Steps
variable {c : Conn (Db E) Login}

theorem checkIdempotent_eq (running : c.status ≠ .inError) (id : ConversationId) :
    ∃ processed, checkIdempotent id c = (.ok processed, c) :=
  ⟨_, bind_of_ok (run_ok (selectProcessedAt id) running rfl)⟩

theorem lookUpSavepoint_eq {x : Extraction} {processed : Bool} (running : c.status ≠ .inError)
    (checked : checkIdempotent x.conversationId c = (.ok processed, c)) :
    lookUpSavepoint x c = (.ok (if processed then none
      else some (pathVisible c.settings c.store x.topicPath)), c) := by
  unfold lookUpSavepoint
  rw [bind_of_ok checked]
  cases processed with
  | true => rfl
  | false => exact bind_of_ok (lookUpTopic_eq running x.topicPath)

theorem persistSavepoint_eq {user : UserId} {x : Extraction} {today : PyStr} {now : Time}
    {processed : Bool} (running : c.status ≠ .inError)
    (checked : checkIdempotent x.conversationId c = (.ok processed, c)) :
    persistSavepoint user x today now c = if processed then (.ok (), c)
      else persistInto user x (pathVisible c.settings c.store x.topicPath) today now c := by
  unfold persistSavepoint
  rw [bind_of_ok checked]
  cases processed with
  | true => rfl
  | false => exact bind_of_ok (lookUpTopic_eq running x.topicPath)

end Steps

/-- When nothing comes between them, the two steps are phase 3. -/
theorem persistPhase_eq (user : UserId) (x : Extraction) (today : PyStr) (now : Time) (db : Db E) :
    persistPhase user x today now (connect false db) =
      match (lookUpPhase user x (connect false db)).1 with
      | .ok (some found) => writePhase user x found today now (connect false db)
      | .ok none => (.ok (), connect false db)
      | .error e => (.error e, connect false db) := by
  have running : (⟨db, loginOf user, .inTransaction⟩ : Conn (Db E) Login).status ≠ .inError := by
    simp
  obtain ⟨processed, checked⟩ := checkIdempotent_eq running x.conversationId
  have lookup := lookUpSavepoint_eq running checked
  have persist : persistSavepoint user x today now _ = _ := persistSavepoint_eq running checked
  have lookedUp : lookUpPhase user x (connect false db) = (.ok _, connect false db) :=
    userScoped_commit (withTransaction_savepoint rfl lookup rfl) rfl
  rw [lookedUp]
  cases processed with
  | true => exact userScoped_commit (withTransaction_savepoint rfl persist rfl) rfl
  | false => exact userScoped_congr (withTransaction_congr persist)

end Phases

section Losing
variable {E : Type} {user : UserId} {c : Conn (Db E) Login}

theorem insertTopic_taken {db : Db E} {path : PyStr} (taken : pathTaken db user path none = true)
    (title description : PyStr) (now : Time) :
    ∃ e, insertTopic path title description now (loginOf user) db = .error e := by
  unfold insertTopic
  cases hu : insertingUser (loginOf user) db with
  | error e => exact ⟨e, rfl⟩
  | ok u =>
    obtain rfl := insertingUser_ok rfl hu
    exact ⟨.uniqueViolation, if_pos taken⟩

/-- Whatever the handler makes of the error, the transaction has failed. -/
theorem createOrProceed_taken {path : PyStr} (opened : c.status = .inTransaction)
    (settings : c.settings = loginOf user) (taken : pathTaken c.store user path none = true)
    (title : PyStr) (now : Time) :
    ∃ result, createOrProceed path title now c = (result, { c with status := .inError }) := by
  obtain ⟨e, failed⟩ := insertTopic_taken taken title [] now
  rw [← settings] at failed
  have inserted := run_error _ (by simp [opened]) failed
  rw [opened, Status.afterFailure] at inserted
  have created : createTopic path title [] now c = (.error _, _) := mapError_error inserted
  unfold createOrProceed
  rw [rescue_error (bind_error created)]
  cases onUniqueViolation (topicExists path) e <;> exact ⟨_, rfl⟩

theorem persistInto_taken {x : Extraction} (opened : c.status = .inTransaction)
    (settings : c.settings = loginOf user) (taken : pathTaken c.store user x.topicPath none = true)
    (today : PyStr) (now : Time) :
    ∃ e, persistInto user x false today now c = (.error e, { c with status := .inError }) := by
  obtain ⟨result, created⟩ := createOrProceed_taken opened settings taken x.topicTitle now
  cases result with
  | error e => exact ⟨e, bind_error created⟩
  | ok topicCreated =>
    obtain ⟨e, refused⟩ := persistEntries_refuses user x topicCreated today now
      { c with status := .inError } rfl
    exact ⟨e, (bind_of_ok created).trans refused⟩

theorem writePhase_taken {x : Extraction} {db : Db E}
    (taken : pathTaken db user x.topicPath none = true) (today : PyStr) (now : Time) :
    ∃ e, writePhase user x false today now (connect false db) = (.error e, connect false db) := by
  obtain ⟨e, raised⟩ := persistInto_taken (c := ⟨db, loginOf user, .inTransaction⟩) rfl rfl taken
    today now
  exact ⟨e, userScoped_rollback (withTransaction_rollback (by simp) raised)⟩

end Losing

section Winning
variable {E : Type} {user : UserId} {db db' : Db E} {path : PyStr} {topic : TopicId}

def extractedRow (user : UserId) (topic : TopicId) (today : PyStr) (now : Time)
    (entry : ExtractedEntry) : EntryRow :=
  ⟨user, topic, newEntry entry.content (some entry.reasoning) none entry.tags
    (entry.entryDate.getD today), now⟩

/-- The rows of the extracted entries, under ids that are new. -/
def Appended (user : UserId) (topic : TopicId) (entries : List ExtractedEntry) (today : PyStr)
    (now : Time) (before after : Table EntryId EntryRow) : Prop :=
  (∀ id row, before.get id = some row → after.get id = some row) ∧
    ∃ ids : List EntryId, ids.Nodup ∧ (∀ id ∈ ids, before.get id = none) ∧
      List.Forall₂ (fun id entry => after.get id = some (extractedRow user topic today now entry))
        ids entries

/-- A session of the user resolves the path to this topic. -/
structure Resolves (user : UserId) (path : PyStr) (topic : TopicId) (db : Db E) : Prop where
  active : db.users.get user = some none
  present : ∃ row, db.topics.get topic = some row ∧ row.userId = user ∧ row.path = path
  only : ∀ id row, db.topics.get id = some row → row.userId = user → row.path = path → id = topic

theorem access_active (active : db.users.get user = some none) :
    access db (loginOf user) = .only (some user) := by
  simp [access, appCurrentUserActive, Option.filter, active]

theorem insertingUser_active (active : db.users.get user = some none) :
    insertingUser (loginOf user) db = .ok user := by
  simp only [insertingUser, access_active active]
  exact if_pos (admits_only.mpr rfl)

theorem pathTaken_of_row {id : TopicId} {row : TopicRow} (hrow : db.topics.get id = some row)
    (mine : row.userId = user) (hpath : row.path = path) : pathTaken db user path none = true := by
  rw [pathTaken, Bool.not_eq_true', List.isEmpty_eq_false_iff_exists_mem]
  exact ⟨id, Table.mem_keysWhere.mpr ⟨row, hrow, by simp [mine, hpath]⟩⟩

theorem insertTopic_free (active : db.users.get user = some none)
    (free : pathTaken db user path none = false) (title description : PyStr) (now : Time) :
    ∃ db', insertTopic path title description now (loginOf user) db =
        .ok (db.topics.freshKey, db') ∧
      Resolves user path db.topics.freshKey db' ∧ db'.entries = db.entries ∧
      db'.jobs = db.jobs ∧ db'.audit = db.audit := by
  refine ⟨{ db with
      topics := db.topics.put db.topics.freshKey ⟨user, path, title, description, now⟩ }, ?_,
    ⟨active, ⟨_, Table.get_put_self _ _ _, rfl, rfl⟩, ?_⟩, rfl, rfl, rfl⟩
  · unfold insertTopic
    rw [insertingUser_active active]
    exact if_neg (by simp [free])
  · intro id row hrow mine hpath
    rcases Table.get_put_eq_some hrow with ⟨rfl, _⟩ | ⟨_, hold⟩
    · rfl
    · rw [pathTaken_of_row hold mine hpath] at free
      cases free

theorem selectTopicId_resolves (resolves : Resolves user path topic db) :
    selectTopicId path (loginOf user) db = .ok (some topic, db) := by
  obtain ⟨row, hrow, mine, hpath⟩ := resolves.present
  have only : ∀ id ∈ select (access db (loginOf user)) TopicRow.userId db.topics
      (fun _ row => row.path = path), id = topic := by
    intro id mem
    obtain ⟨found, hfound, seen, same⟩ := mem_select.mp mem
    rw [access_active resolves.active, admits_only] at seen
    exact resolves.only id found hfound seen (of_decide_eq_true same)
  have mem : topic ∈ select (access db (loginOf user)) TopicRow.userId db.topics
      (fun _ row => row.path = path) := by
    refine mem_select.mpr ⟨row, hrow, ?_, decide_eq_true hpath⟩
    rw [access_active resolves.active, admits_only]
    exact mine
  unfold selectTopicId
  cases hids : select (access db (loginOf user)) TopicRow.userId db.topics
      (fun _ row => row.path = path) with
  | nil =>
    rw [hids] at mem
    cases mem
  | cons first rest =>
    rw [hids] at only
    rw [List.head?_cons, only first List.mem_cons_self]

/-- Touching a topic leaves its path and user alone. -/
theorem get_touched (login : Login) (db : Db E) (id : TopicId) (now : Time) (key : TopicId) :
    ∃ f : TopicRow → TopicRow, (∀ row, (f row).userId = row.userId ∧ (f row).path = row.path) ∧
      (touched login db id now).get key = (db.topics.get key).map f := by
  refine ⟨_, ?_, get_update _⟩
  intro row
  by_cases touches : ((access db login).admits row.userId && decide (key = id)) = true
  · simp only [if_pos touches, and_self]
  · simp only [if_neg touches, and_self]

theorem Resolves.touch (resolves : Resolves user path topic db) (id : TopicId) (now : Time)
    (entries : Table EntryId EntryRow) :
    Resolves user path topic
      { db with entries := entries, topics := touched (loginOf user) db id now } := by
  refine ⟨resolves.active, ?_, ?_⟩
  · obtain ⟨row, hrow, mine, hpath⟩ := resolves.present
    obtain ⟨f, keeps, got⟩ := get_touched (loginOf user) db id now topic
    exact ⟨f row, got.trans (congrArg _ hrow), (keeps row).1.trans mine, (keeps row).2.trans hpath⟩
  · intro key row hrow mine hpath
    obtain ⟨f, keeps, got⟩ := get_touched (loginOf user) db id now key
    rw [got] at hrow
    obtain ⟨old, hold, rfl⟩ := Option.map_eq_some_iff.mp hrow
    exact resolves.only key old hold ((keeps old).1.symm.trans mine)
      ((keeps old).2.symm.trans hpath)

theorem appendEntry_resolves (resolves : Resolves user path topic db) (content : PyStr)
    (reasoning : Option PyStr) (tags : List PyStr) (date : PyStr) (now : Time) :
    ∃ db', appendEntry path content reasoning tags date now ⟨db, loginOf user, .inTransaction⟩ =
        (.ok db.entries.freshKey, ⟨db', loginOf user, .inTransaction⟩) ∧
      Resolves user path topic db' ∧
      db'.entries = db.entries.put db.entries.freshKey
        ⟨user, topic, newEntry content reasoning none tags date, now⟩ ∧
      db'.jobs = db.jobs ∧ db'.audit = db.audit := by
  have running : (⟨db, loginOf user, .inTransaction⟩ : Conn (Db E) Login).status ≠ .inError := by
    simp
  have selected := run_ok _ running (selectTopicId_resolves resolves)
  have found : getTopicId path ⟨db, loginOf user, .inTransaction⟩ = (.ok topic, _) :=
    bind_of_ok selected
  have inserted : insertEntry topic content reasoning tags date now (loginOf user) db =
      .ok (db.entries.freshKey, { db with
        entries := db.entries.put db.entries.freshKey
          ⟨user, topic, newEntry content reasoning none tags date, now⟩
        topics := touched (loginOf user) db topic now }) := by
    obtain ⟨row, hrow, _⟩ := resolves.present
    have known : references db.topics topic = .ok () := if_pos (by rw [hrow]; rfl)
    unfold insertEntry
    rw [insertingUser_active resolves.active, known]
    rfl
  exact ⟨_, (bind_of_ok found).trans (run_ok _ running inserted), resolves.touch topic now _, rfl,
    rfl, rfl⟩

theorem Appended.refl (table : Table EntryId EntryRow) (today : PyStr) (now : Time) :
    Appended user topic [] today now table table :=
  ⟨fun _ _ h => h, [], List.nodup_nil, fun _ mem => absurd mem List.not_mem_nil, .nil⟩

/-- The entries after the first one are appended to the table that it is in. -/
theorem Appended.cons {entry : ExtractedEntry} {rest : List ExtractedEntry} {today : PyStr}
    {now : Time} {before after : Table EntryId EntryRow}
    (tail : Appended user topic rest today now
      (before.put before.freshKey (extractedRow user topic today now entry)) after) :
    Appended user topic (entry :: rest) today now before after := by
  obtain ⟨kept, ids, nodup, fresh, rows⟩ := tail
  have older : ∀ id row, before.get id = some row →
      (before.put before.freshKey (extractedRow user topic today now entry)).get id = some row :=
    fun id row hrow => Table.get_put_of_absent _ (Table.get_freshKey before) hrow
  refine ⟨fun id row hrow => kept id row (older id row hrow), before.freshKey :: ids, ?_, ?_, ?_⟩
  · refine List.nodup_cons.mpr ⟨?_, nodup⟩
    intro mem
    have absent := fresh _ mem
    rw [Table.get_put_self] at absent
    cases absent
  · intro id mem
    rcases List.mem_cons.mp mem with rfl | mem
    · exact Table.get_freshKey _
    · cases hrow : before.get id with
      | none => rfl
      | some row =>
        have absent := fresh id mem
        rw [older id row hrow] at absent
        cases absent
  · exact .cons (kept _ _ (Table.get_put_self _ _ _)) rows

theorem appendEntries_resolves (resolves : Resolves user path topic db)
    (entries : List ExtractedEntry) (today : PyStr) (now : Time) :
    ∃ db', appendEntries path today now entries ⟨db, loginOf user, .inTransaction⟩ =
        (.ok (), ⟨db', loginOf user, .inTransaction⟩) ∧
      Resolves user path topic db' ∧ Appended user topic entries today now db.entries db'.entries ∧
      db'.jobs = db.jobs ∧ db'.audit = db.audit := by
  induction entries generalizing db with
  | nil => exact ⟨db, rfl, resolves, .refl _ _ _, rfl, rfl⟩
  | cons entry rest ih =>
    obtain ⟨mid, appended, resolves', hentries, hjobs, haudit⟩ := appendEntry_resolves resolves
      entry.content (some entry.reasoning) entry.tags (entry.entryDate.getD today) now
    obtain ⟨db', ran, resolves'', tail, hjobs', haudit'⟩ := ih resolves'
    rw [hentries] at tail
    exact ⟨db', (bind_of_ok appended).trans ran, resolves'', tail.cons, hjobs'.trans hjobs,
      haudit'.trans haudit⟩

/-- A job of the user that has not ended. -/
def liveJob (user : UserId) (db : Db E) (jobId : JobId) : Bool :=
  (db.jobs.get jobId).any (fun row => row.userId = user && !row.status.terminal)

/-- What phase 3 of an extraction is there for. -/
structure Persisted (user : UserId) (x : Extraction) (today : PyStr) (now : Time)
    (db db' : Db E) : Prop where
  entries : ∃ topic row, db'.topics.get topic = some row ∧ row.userId = user ∧
    row.path = x.topicPath ∧ Appended user topic x.entries today now db.entries db'.entries
  audited : db'.audit = db.audit ++ ⟨user, .conversationExtracted, x.conversationId⟩ ::
    (x.jobId.toList.filter (liveJob user db)).map (fun jobId => ⟨user, .jobCompleted, jobId⟩)
  completed : ∀ jobId row, x.jobId = some jobId → liveJob user db jobId = true →
    db.jobs.get jobId = some row → ∃ topicsCreated, db'.jobs.get jobId =
      some (row.markCompleted topicsCreated x.entries.length x.centsSpent now)

theorem recordAudit_active (db : Db E) (action : AuditAction) (targetId : Nat) :
    recordAudit user action targetId ⟨db, loginOf user, .inTransaction⟩ =
      (.ok (), ⟨{ db with audit := db.audit ++ [⟨user, action, targetId⟩] }, loginOf user,
        .inTransaction⟩) :=
  run_ok _ (by simp) (if_pos rfl)

theorem fetch_live (active : db.users.get user = some none) (jobId : JobId) :
    (fetch (access db (loginOf user)) JobRow.userId db.jobs jobId).any
      (fun row => !row.status.terminal) = liveJob user db jobId := by
  rw [fetch, liveJob, access_active active]
  cases db.jobs.get jobId with
  | none => rfl
  | some row =>
    by_cases mine : row.userId = user
    · simp [Option.filter, Access.admits, mine]
    · have hidden : ¬ user = row.userId := fun same => mine same.symm
      simp [Option.filter, Access.admits, mine, hidden]

theorem completeJob_active (active : db.users.get user = some none) (jobId : Option JobId)
    (topicsCreated entriesCreated : Nat) (centsSpent : ExtractionJobs.Cents) (now : Time) :
    ∃ db', completeJob user jobId topicsCreated entriesCreated centsSpent now
        ⟨db, loginOf user, .inTransaction⟩ = (.ok (), ⟨db', loginOf user, .inTransaction⟩) ∧
      db'.entries = db.entries ∧ db'.topics = db.topics ∧
      db'.audit = db.audit ++ (jobId.toList.filter (liveJob user db)).map
        (fun jobId => ⟨user, .jobCompleted, jobId⟩) ∧
      ∀ id row, jobId = some id → liveJob user db id = true → db.jobs.get id = some row →
        db'.jobs.get id = some (row.markCompleted topicsCreated entriesCreated centsSpent now) := by
  cases jobId with
  | none => exact ⟨db, rfl, rfl, rfl, by simp, fun _ _ h => nomatch h⟩
  | some jobId =>
    let marked : Db E := { db with
      jobs := update (access db (loginOf user)) JobRow.userId db.jobs
        (fun key row => decide (key = jobId) && !row.status.terminal)
        (JobRow.markCompleted topicsCreated entriesCreated centsSpent now) }
    have updated : markCompleted jobId topicsCreated entriesCreated centsSpent now
        ⟨db, loginOf user, .inTransaction⟩ =
          (.ok (liveJob user db jobId), ⟨marked, loginOf user, .inTransaction⟩) := by
      rw [← fetch_live active]
      exact run_ok _ (by simp) rfl
    have job : ∀ id row, some jobId = some id → liveJob user db id = true →
        db.jobs.get id = some row → marked.jobs.get id =
          some (row.markCompleted topicsCreated entriesCreated centsSpent now) := by
      rintro _ row ⟨⟩ live hrow
      rw [liveJob, hrow, Option.any_some, Bool.and_eq_true, decide_eq_true_eq] at live
      rw [get_update, hrow, Option.map_some, if_pos]
      simp [access_active active, Access.admits, live.1, live.2]
    cases live : liveJob user db jobId with
    | false =>
      rw [live] at updated
      refine ⟨marked, bind_of_ok updated, rfl, rfl, ?_, job⟩
      simp [marked, live]
    | true =>
      rw [live] at updated
      refine ⟨_, (bind_of_ok updated).trans (recordAudit_active marked .jobCompleted jobId), rfl,
        rfl, ?_, job⟩
      simp [marked, live]

/-- The run that finds the path free persists everything. -/
theorem persistInto_free {x : Extraction} (active : db.users.get user = some none)
    (free : pathTaken db user x.topicPath none = false) (today : PyStr) (now : Time) :
    ∃ db', persistInto user x false today now ⟨db, loginOf user, .inTransaction⟩ =
        (.ok (), ⟨db', loginOf user, .inTransaction⟩) ∧ Persisted user x today now db db' := by
  obtain ⟨db₁, inserted, resolves, hentries, hjobs, haudit⟩ :=
    insertTopic_free active free x.topicTitle [] now
  have created : createTopic x.topicPath x.topicTitle [] now ⟨db, loginOf user, .inTransaction⟩ =
      (.ok db.topics.freshKey, ⟨db₁, loginOf user, .inTransaction⟩) :=
    mapError_of_ok (run_ok _ (by simp) inserted)
  have proceeded : createUnless false x.topicPath x.topicTitle now
      ⟨db, loginOf user, .inTransaction⟩ = (.ok true, ⟨db₁, loginOf user, .inTransaction⟩) :=
    rescue_of_ok (bind_of_ok created)
  obtain ⟨db₂, appended, resolves₂, rows, hjobs₂, haudit₂⟩ :=
    appendEntries_resolves resolves x.entries today now
  obtain ⟨db₃, processed, hentries₃, htopics₃, hjobs₃, haudit₃, active₃⟩ :
      ∃ db₃, markProcessed x.conversationId now ⟨db₂, loginOf user, .inTransaction⟩ =
          (.ok (), ⟨db₃, loginOf user, .inTransaction⟩) ∧ db₃.entries = db₂.entries ∧
        db₃.topics = db₂.topics ∧ db₃.jobs = db₂.jobs ∧ db₃.audit = db₂.audit ∧
        db₃.users.get user = some none :=
    ⟨_, run_ok _ (by simp) rfl, rfl, rfl, rfl, rfl, resolves₂.active⟩
  obtain ⟨db₄, audited, hentries₄, htopics₄, hjobs₄, haudit₄, active₄⟩ :
      ∃ db₄, recordAudit user .conversationExtracted x.conversationId
          ⟨db₃, loginOf user, .inTransaction⟩ = (.ok (), ⟨db₄, loginOf user, .inTransaction⟩) ∧
        db₄.entries = db₃.entries ∧ db₄.topics = db₃.topics ∧ db₄.jobs = db₃.jobs ∧
        db₄.audit = db₃.audit ++ [⟨user, .conversationExtracted, x.conversationId⟩] ∧
        db₄.users.get user = some none :=
    ⟨_, recordAudit_active db₃ _ _, rfl, rfl, rfl, rfl, active₃⟩
  obtain ⟨db', completed, hentries', htopics', haudit', job⟩ :=
    completeJob_active active₄ x.jobId true.toNat x.entries.length x.centsSpent now
  have persisted : persistEntries user x true today now ⟨db₁, loginOf user, .inTransaction⟩ =
      (.ok (), ⟨db', loginOf user, .inTransaction⟩) :=
    (bind_of_ok appended).trans
      ((bind_of_ok processed).trans ((bind_of_ok audited).trans completed))
  have jobs : db₄.jobs = db.jobs := hjobs₄.trans (hjobs₃.trans (hjobs₂.trans hjobs))
  have live : liveJob user db₄ = liveJob user db := by
    funext jobId
    simp only [liveJob, jobs]
  refine ⟨db', (bind_of_ok proceeded).trans persisted, ?_, ?_, ?_⟩
  · obtain ⟨row, hrow, mine, hpath⟩ := resolves₂.present
    refine ⟨db.topics.freshKey, row, ?_, mine, hpath, ?_⟩
    · rw [htopics', htopics₄, htopics₃]
      exact hrow
    · rw [hentries', hentries₄, hentries₃, ← hentries]
      exact rows
  · rw [haudit', live, haudit₄, haudit₃, haudit₂, haudit, List.append_assoc,
      List.singleton_append]
  · intro jobId row hjob hlive hrow
    exact ⟨_, job jobId row hjob (live ▸ hlive) (jobs ▸ hrow)⟩

theorem writePhase_free {x : Extraction} (active : db.users.get user = some none)
    (free : pathTaken db user x.topicPath none = false) (today : PyStr) (now : Time) :
    ∃ db', writePhase user x false today now (connect false db) = (.ok (), connect false db') ∧
      Persisted user x today now db db' := by
  obtain ⟨db', ran, persisted⟩ := persistInto_free active free today now
  exact ⟨db', userScoped_commit (withTransaction_savepoint rfl ran rfl) rfl, persisted⟩

end Winning

abbrev RunId := Nat

/-- Runs between the lookup and the rest of phase 3, with what the lookup has found. -/
structure Race (E : Type) where
  world : World E
  lookups : Table RunId (UserId × Extraction × Bool)

def Race.start (E : Type) : Race E := ⟨World.start E, Table.empty⟩

inductive RaceAction (E : Type)
  | lookUp (run : RunId) (user : UserId) (x : Extraction)
  | write (run : RunId) (today : PyStr) (now : Time)
  /-- Any other transaction; it may create topics, too. -/
  | other (action : Action E)

section Races
variable {E : Type}

def Race.write (race : Race E) (run : RunId) (user : UserId) (x : Extraction) (found : Bool)
    (today : PyStr) (now : Time) : Race E where
  world := { race.world with
    db := (writePhase user x found today now (connect false race.world.db)).2.store }
  lookups := race.lookups.erase run

def raceStep (race : Race E) : RaceAction E → Option (Race E)
  | .lookUp run user x =>
    match race.lookups.get run, (lookUpPhase user x (connect false race.world.db)).1 with
    | none, .ok (some found) =>
      some { race with lookups := race.lookups.put run (user, x, found) }
    | none, _ => some race
    | some _, _ => none
  | .write run today now =>
    (race.lookups.get run).map (fun (user, x, found) => race.write run user x found today now)
  | .other action => (step race.world action).map (fun world => { race with world := world })

/-- A run whose lookup has missed comes to the insert when the path is taken. -/
def Loses (race : Race E) : RaceAction E → Prop
  | .write run _ _ => ∃ user x, race.lookups.get run = some (user, x, false) ∧
      pathTaken race.world.db user x.topicPath none = true
  | _ => False

/-- A run whose lookup has missed comes to the insert when the path is still free, and its
user is not deleted. -/
def Creates (race : Race E) : RaceAction E → Prop
  | .write run _ _ => ∃ user x, race.lookups.get run = some (user, x, false) ∧
      pathTaken race.world.db user x.topicPath none = false ∧
      race.world.db.users.get user = some none
  | _ => False

/-- The action commits everything that its run has extracted. -/
def Commits (race : Race E) : RaceAction E → Prop
  | .write run today now => ∀ user x found, race.lookups.get run = some (user, x, found) →
      Persisted user x today now race.world.db (race.write run user x found today now).world.db
  | _ => True

variable {race : Race E} {action : RaceAction E}

/-- A run that loses leaves the database as it is. -/
theorem write_taken (run : RunId) {user : UserId} {x : Extraction} (today : PyStr) (now : Time)
    (taken : pathTaken race.world.db user x.topicPath none = true) :
    (race.write run user x false today now).world.db = race.world.db := by
  obtain ⟨e, rolledBack⟩ := writePhase_taken taken today now
  exact congrArg (fun outcome => outcome.2.store) rolledBack

theorem loser_never_commits (loses : Loses race action) : ¬ Commits race action := by
  cases action with
  | lookUp run user x => exact loses.elim
  | other action => exact loses.elim
  | write run today now =>
    obtain ⟨user, x, looked, taken⟩ := loses
    intro commits
    have audited := (commits user x false looked).audited
    rw [write_taken run today now taken, List.self_eq_append_right] at audited
    cases audited

theorem creator_commits (creates : Creates race action) : Commits race action := by
  cases action with
  | lookUp run user x => trivial
  | other action => trivial
  | write run today now =>
    obtain ⟨user, x, looked, free, active⟩ := creates
    intro user' x' found looked'
    obtain ⟨rfl, rfl, rfl⟩ : user = user' ∧ x = x' ∧ false = found := by
      simpa using looked.symm.trans looked'
    obtain ⟨db', ran, persisted⟩ := writePhase_free active free today now
    have written : (race.write run user x false today now).world.db = db' :=
      congrArg (fun outcome => outcome.2.store) ran
    rw [written]
    exact persisted

/-- In every interleaving the runs that lose a race commit what they have extracted exactly
when no run loses one; the runs that create the topic always do. -/
theorem races_tolerated_iff (acts : List (RaceAction E)) :
    (Replay.Obeys raceStep (fun race action => Loses race action → Commits race action)
        (Race.start E) acts ↔
      Replay.Obeys raceStep (fun race action => ¬ Loses race action) (Race.start E) acts) ∧
    Replay.Obeys raceStep (fun race action => Creates race action → Commits race action)
      (Race.start E) acts := by
  have exactly : (fun (race : Race E) action => Loses race action → Commits race action) =
      fun race action => ¬ Loses race action := by
    funext race action
    exact propext ⟨fun tolerated loses => loser_never_commits loses (tolerated loses),
      fun none loses => absurd loses none⟩
  refine ⟨by rw [exactly], ?_⟩
  exact Replay.obeys_of_forall (fun _ _ creates => creator_commits creates) _ _

end Races

def concurrently (id : ConversationId) (content : PyStr) : Extraction where
  conversationId := id
  topicPath := py "work"
  topicTitle := py "Work"
  entries := [⟨content, [], [], none⟩]
  jobId := none
  centsSpent := 0

/-- Two runs for two conversations of a user have looked up the same topic before one of
them commits it. -/
def twoRuns : List (RaceAction Unit) :=
  [.other (.setUser 1 none), .other (.ensureInbox 1 10),
    .other (.saveConversation 1 DEFAULT_INBOX_TOPIC (py "a") [] [] [] [] [] 11),
    .other (.saveConversation 1 DEFAULT_INBOX_TOPIC (py "b") [] [] [] [] [] 12),
    .lookUp 1 1 (concurrently 1 (py "one")), .lookUp 2 1 (concurrently 2 (py "two")),
    .write 1 [] 13]

theorem exists_loser {E : Type} (result : Option (Race E)) (run : RunId) (user : UserId)
    (x : Extraction) (today : PyStr) (now : Time)
    (reached : result.any (fun race => decide (race.lookups.get run = some (user, x, false)) &&
      pathTaken race.world.db user x.topicPath none) = true) :
    ∃ race, result = some race ∧ Loses race (.write run today now) := by
  obtain ⟨race, rfl, lost⟩ := (Option.any_eq_true _ _).mp reached
  rw [Bool.and_eq_true, decide_eq_true_eq] at lost
  exact ⟨race, rfl, user, x, lost.1, lost.2⟩

theorem second_run_rolled_back : ∃ race, Replay.run raceStep (Race.start Unit) twoRuns = some race ∧
    Loses race (.write 2 [] 14) ∧ ¬ Commits race (.write 2 [] 14) := by
  obtain ⟨race, ran, loses⟩ := exists_loser
    (Replay.run raceStep (Race.start Unit) twoRuns) 2 1 (concurrently 2 (py "two")) [] 14
    (by decide +kernel)
  exact ⟨race, ran, loses, loser_never_commits loses⟩

end Tenancy
