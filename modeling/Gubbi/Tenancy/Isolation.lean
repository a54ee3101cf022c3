import Gubbi.Tenancy.Sessions
import Gubbi.Library.Replay

/-!
# Tenant isolation

The transactions of every operation, then runs of any operations by any users in any
order. What an operation goes on with, it has learnt from a transaction of the same user,
and conversations and entries are not removed, so it still holds when the next
transaction comes.
-/

namespace Tenancy

open Text RowSecurity Transactions Connections
open JournalEntries (EntryId Entry Mode)
open JournalConversations (TopicId Platform Message)
open ExtractionJobs (UserId JobId JobRow Period Cents ErrorCode Sweep)
open ExtractConversation (ExtractedEntry)

/-- The ids of a pending transaction are its user's. -/
def Pending.Owned {E : Type} (db : Db E) : Pending → Prop
  | .embed user id => OwnsEntry user id db
  | .enqueue user id => OwnsConversation user id db
  | .reindex user id => OwnsEntry user id db

theorem Pending.Owned.keep {E : Type} {db db' : Db E} {p : Pending} (owned : p.Owned db)
    (keeps : Keeps db db') : p.Owned db' := by
  cases p with
  | embed user id => exact keeps.entries id user owned
  | enqueue user id => exact keeps.conversations id user owned
  | reindex user id => exact keeps.entries id user owned

section Worker
variable {E : Type} {user : UserId} {R : Db E → Prop}

/-- A connection from a pool. -/
abbrev Pooled (admin : Bool) (P : Db E → Prop) : Conn (Db E) Login → Prop := Idle ⟨admin, none⟩ P

theorem userScoped_triple {A : Type} {D : Discipline (Db E)} {admin : Bool} {P : Db E → Prop}
    {Q : A → Db E → Prop} {body : Tx E A}
    (t : Triple D (Open ⟨admin, some user⟩ P) body (fun a => Open ⟨admin, some user⟩ (Q a))) :
    Triple D (Pooled admin P) (userScoped user body) (fun a => Pooled admin (Q a)) :=
  Triple.committed ((Triple.setLocal _).bind (fun _ => t))

theorem checkIdempotent_triple (stable : Stable user R) (id : ConversationId) :
    Triple (growing E user) (In user R) (checkIdempotent id) (fun _ => In user R) :=
  (getProcessedAt_triple stable id).bind (fun _ => Triple.pure (fun _ h => h))

theorem lookUpTopic_triple (path : PyStr) :
    Triple (growing E user) (In user R) (lookUpTopic path) (fun _ => In user R) := by
  rintro c sound opened
  have running : c.status ≠ .inError := by simp [opened.1]
  rw [lookUpTopic_eq running]
  exact ⟨sound, Growing.refl _, fun _ _ => opened⟩

/-- What the worker catches has failed its transaction all the same. -/
theorem createOrProceed_triple (stable : Stable user R) (path title : PyStr) (now : Time) :
    Triple (growing E user) (In user R) (createOrProceed path title now)
      (fun _ c => In user R c ∨ Failed c) := by
  refine Triple.rescue ?_ (Raises.bind_pure (Raises.mapError Raises.execute) _) ?_
  · refine (createTopic_triple stable path title [] now).bind (fun id => Triple.pure ?_)
    exact fun c h => Or.inl ⟨h.1, h.2.1, h.2.2.2⟩
  · intro e
    split
    · exact Triple.pure (fun _ failed => Or.inr failed)
    · exact Triple.fail

theorem appendEntries_triple (stable : Stable user R) (path today : PyStr) (now : Time)
    (entries : List ExtractedEntry) :
    Triple (growing E user) (In user R) (appendEntries path today now entries)
      (fun _ => In user R) := by
  induction entries with
  | nil => exact Triple.pure (fun _ h => h)
  | cons entry rest ih =>
    refine (appendEntry_triple stable path entry.content _ _ _ now).bind (fun _ => ?_)
    exact ih.of_imp (fun c h => ⟨h.1, h.2.1, h.2.2.2⟩)

theorem completeJob_triple (stable : Stable user R) (jobId : Option JobId)
    (topicsCreated entriesCreated : Nat) (centsSpent : Cents) (now : Time) :
    Triple (growing E user) (In user R)
      (completeJob user jobId topicsCreated entriesCreated centsSpent now)
      (fun _ => In user R) := by
  cases jobId with
  | none => exact Triple.pure (fun _ h => h)
  | some jobId =>
    refine (markCompleted_triple stable jobId _ _ _ now).bind (fun updated => ?_)
    exact Triple.ite (fun _ => recordAudit_triple stable _ _)
      (fun _ => Triple.pure (fun _ h => h))

theorem persistEntries_triple (stable : Stable user R) (x : Extraction) (topicCreated : Bool)
    (today : PyStr) (now : Time) :
    Triple (growing E user) (fun c => In user R c ∨ Failed c)
      (persistEntries user x topicCreated today now) (fun _ => In user R) := by
  refine Triple.or ?_ ?_
  · refine (appendEntries_triple stable _ _ now _).bind (fun _ => ?_)
    refine (markProcessed_triple stable _ now).bind (fun _ => ?_)
    refine (recordAudit_triple stable _ _).bind (fun _ => ?_)
    exact completeJob_triple stable _ _ _ _ now
  · exact Triple.of_refuses (persistEntries_refuses user x topicCreated today now)

theorem persistInto_triple (stable : Stable user R) (x : Extraction) (found : Bool)
    (today : PyStr) (now : Time) :
    Triple (growing E user) (In user R) (persistInto user x found today now)
      (fun _ => In user R) := by
  refine Triple.bind ?_ (fun topicCreated => persistEntries_triple stable x topicCreated today now)
  exact Triple.ite (fun _ => Triple.pure (fun _ h => Or.inl h))
    (fun _ => createOrProceed_triple stable _ _ now)

theorem persistExtraction_triple (stable : Stable user R) (x : Extraction) (today : PyStr)
    (now : Time) :
    Triple (growing E user) (In user R) (persistExtraction user x today now)
      (fun _ => In user R) :=
  (lookUpTopic_triple _).bind (fun found => persistInto_triple stable x found today now)

theorem startExtraction_triple (id : ConversationId) (jobId : Option JobId) (now : Time) :
    Triple (growing E user) (Pooled false fun _ => True) (startExtraction user id jobId now)
      (fun _ => Pooled false fun _ => True) := by
  refine userScoped_triple ((checkIdempotent_triple stable_true id).bind (fun processed => ?_))
  cases processed with
  | true => exact Triple.pure (fun _ h => h)
  | false =>
    cases jobId with
    | none => exact Triple.pure (fun _ h => h)
    | some jobId => exact markRunning_triple stable_true jobId now

theorem markSkippedNoTopic_triple (id : ConversationId) (jobId : Option JobId) (now : Time) :
    Triple (growing E user) (Pooled false fun _ => True) (markSkippedNoTopic user id jobId now)
      (fun _ => Pooled false fun _ => True) := by
  refine userScoped_triple ((markProcessed_triple stable_true id now).bind (fun _ => ?_))
  exact completeJob_triple stable_true jobId 0 0 0 now

theorem persistPhase_triple (x : Extraction) (today : PyStr) (now : Time) :
    Triple (growing E user) (Pooled false fun _ => True) (persistPhase user x today now)
      (fun _ => Pooled false fun _ => True) := by
  refine userScoped_triple (Triple.savepoint ?_)
  refine (checkIdempotent_triple stable_true _).bind (fun processed => ?_)
  exact Triple.ite (fun _ => Triple.pure (fun _ h => h))
    (fun _ => persistExtraction_triple stable_true x today now)

theorem markJobFailed_triple (jobId : JobId) (errorCode : ErrorCode) (now : Time) :
    Triple (growing E user) (Pooled false fun _ => True) (markJobFailed user jobId errorCode now)
      (fun _ => Pooled false fun _ => True) := by
  refine userScoped_triple ((markFailed_triple stable_true jobId errorCode now).bind
    (fun updated => ?_))
  exact Triple.ite (fun _ => recordAudit_triple stable_true _ _)
    (fun _ => Triple.pure (fun _ h => h))

end Worker

section Ingest
variable {E : Type} {user : UserId}

theorem ensureInbox_triple (now : Time) :
    Triple (growing E user) (Pooled false fun _ => True) (ensureInbox user now)
      (fun _ => Pooled false fun _ => True) := by
  refine Triple.rescue (userScoped_triple ?_) Raises.committed ?_
  · refine (lookUpTopic_triple _).bind (fun found => ?_)
    refine Triple.ite (fun _ => Triple.pure (fun _ h => h)) (fun _ => ?_)
    refine (createTopic_triple stable_true _ _ _ now).bind (fun id => Triple.pure ?_)
    exact fun c h => ⟨h.1, h.2.1, trivial⟩
  · intro e
    split
    · exact Triple.pure (fun _ h => h)
    · exact Triple.fail

theorem ingestConversation_triple (title : PyStr) (messages : List Message)
    (platform : Platform) (platformId date : PyStr) (now : Time) :
    Triple (growing E user) (Pooled false fun _ => True)
      (ingestConversation user title messages platform platformId date now)
      (fun saved => Pooled false (OwnsConversation user saved.conversationId)) := by
  refine userScoped_triple ((saveConversation_triple stable_true _ title messages _ _ _ date
    now).bind (fun saved => ?_))
  refine Triple.bind ((setPlatformMetadata_triple (stable_conversation _) _ platform
    platformId).of_imp ?_) (fun _ => Triple.pure (fun _ h => h))
  exact fun c h => ⟨h.1, h.2.1, h.2.2.1.1⟩

theorem createOrReuseJob_triple (id : ConversationId) (source : PyStr) (periodStart : Period)
    (now : Time) :
    Triple (growing E user) (In user (OwnsConversation user id))
      (createOrReuseJob user id source periodStart now)
      (fun _ c => In user (OwnsConversation user id) c ∨ Failed c) := by
  refine Triple.rescue ?_ (createPending_raises id source periodStart now) ?_
  · exact (createPending_triple (stable_conversation id) (fun _ h => h) source periodStart
      now).imp (fun _ _ h => Or.inl h)
  · intro e
    split
    · exact Triple.pure (fun _ failed => Or.inr failed)
    · exact Triple.fail

theorem createExtractionJob_triple (id : ConversationId) (source : PyStr)
    (periodStart : Period) (now : Time) :
    Triple (growing E user) (Pooled false (OwnsConversation user id))
      (createExtractionJob user id source periodStart now)
      (fun _ => Pooled false (OwnsConversation user id)) := by
  refine userScoped_triple ((createOrReuseJob_triple id source periodStart now).bind
    (fun jobId => ?_))
  refine Triple.bind ?_ (fun _ => Triple.pure (fun _ h => h))
  exact Triple.or (recordAudit_triple (stable_conversation id) _ _)
    (Triple.of_refuses (refuses_run _))

end Ingest

section Requests
variable {E : Type} {user : UserId}

theorem patchEntry_triple (id : EntryId) (body : EntryUpdate) (now : Time) :
    Triple (growing E user) (Pooled false fun _ => True) (patchEntry user id body now)
      (fun _ => Pooled false fun _ => True) := by
  have fields : Triple (growing E user) (In user fun _ => True) (patchFields id body now)
      (fun _ => In user fun _ => True) :=
    Triple.ite (fun _ => updateEntry_triple stable_true id _ _ _ _ _ now)
      (fun _ => Triple.pure (fun _ h => h))
  refine userScoped_triple (Triple.savepoint (fields.bind (fun _ => ?_)))
  unfold patchTopic
  cases body.topicPath with
  | none => exact Triple.pure (fun _ h => h)
  | some path =>
    refine (getTopicId_triple path).bind (fun dest => ?_)
    refine Triple.bind ((moveEntriesToTopic_triple [id] dest now).of_imp ?_)
      (fun _ => Triple.pure (fun _ h => h))
    exact fun c h => ⟨h.1, h.2.1, trivial⟩

/-- The text that is compared is the user's, so there is a vector for an entry of the
user only. -/
theorem storeUnchanged_triple (id : EntryId) (text : PyStr × Option PyStr) (embedding : E)
    (now : Time) :
    Triple (growing E user) (Pooled false fun _ => True)
      (storeUnchanged user id text embedding now) (fun _ => Pooled false fun _ => True) := by
  refine userScoped_triple ((getText_triple id).bind (fun current => ?_))
  refine Triple.ite (fun same => ?_) (fun _ => Triple.pure (fun _ h => ⟨h.1, h.2.1, trivial⟩))
  subst same
  have saved := saveByVector_triple (loginOf user) rfl (stable_entry id) (fun _ h => h) embedding
  refine Triple.bind (saved.of_imp (fun c h => ⟨h.1, h.2.1, h.2.2.1 rfl⟩)) (fun _ => ?_)
  exact (markIndexed_triple (stable_entry id) id now).imp (fun _ c h => ⟨h.1, h.2.1, trivial⟩)

end Requests

section System
variable {E : Type}

theorem keeps_update_entries (db : Db E) (a : Access UserId) (p : EntryId → EntryRow → Bool)
    {f : EntryRow → EntryRow} (keeps : ∀ row, (f row).userId = row.userId) :
    Keeps db { db with entries := update a EntryRow.userId db.entries p f } where
  conversations := .refl _
  entries := grows_update keeps

/-- Reindex and its endpoint, on rows of any user. -/
theorem setIndexedAt_system {login : Login} {status : Status} (running : status ≠ .inError)
    {R : Db E → Prop} (stable : ∀ db db', Keeps db db' → R db → R db')
    (p : EntryId → EntryRow → Bool) (indexedAt : Option Time) :
    Triple (ofSystem E) (At status login R) (run (setIndexedAt p indexedAt))
      (fun _ => At status login R) := by
  refine Triple.execute running ?_
  intro db _ db' sound hR h
  cases h
  have keeps := keeps_update_entries db (access db login) p
    (f := fun row => { row with entry := { row.entry with indexedAt := indexedAt } })
    (fun _ => rfl)
  exact ⟨sound_update_entries sound _ p (fun _ => ⟨rfl, rfl, rfl⟩), keeps, stable _ _ keeps hR⟩

/-- The claimed rows come with the users they belong to. -/
def Claimed (batch : List (EntryId × UserId)) (db : Db E) : Prop :=
  ∀ row ∈ batch, OwnsEntry row.2 row.1 db

theorem claimBatch_triple (lastId : EntryId) (batchSize : Nat) (locked : List EntryId)
    (now : Time) :
    Triple (ofSystem E) (Pooled true fun _ => True) (claimBatch lastId batchSize locked now)
      (fun batch => Pooled true (Claimed batch)) := by
  have selected : Triple (ofSystem E) (Open ⟨true, none⟩ fun _ => True)
      (getUnindexed lastId batchSize locked) (fun batch => Open ⟨true, none⟩ (Claimed batch)) := by
    refine Triple.execute (by simp) ?_
    intro db batch db' sound _ h
    cases h
    refine ⟨sound, Keeps.refl _, ?_⟩
    intro row mem
    obtain ⟨id, _, hrow⟩ := List.mem_filterMap.mp mem
    obtain ⟨found, hfound, rfl⟩ := Option.map_eq_some_iff.mp hrow
    exact ownerOf_of_get hfound
  have marked : ∀ batch, Triple (ofSystem E) (Open ⟨true, none⟩ (Claimed batch))
      (markIndexedBatch (batch.map Prod.fst) now) (fun _ => Open ⟨true, none⟩ (Claimed batch)) := by
    intro batch
    refine Triple.ite (fun _ => Triple.pure (fun _ h => h)) (fun _ => ?_)
    refine setIndexedAt_system (by simp) ?_ _ _
    exact fun db db' keeps claimed row mem => keeps.entries row.1 row.2 (claimed row mem)
  exact Triple.committed (selected.bind
    (fun batch => (marked batch).bind (fun _ => Triple.pure (fun _ h => h))))

theorem resetIndexedAt_triple :
    Triple (ofSystem E) (Pooled true fun _ => True)
      (withTransaction .inFailedTransaction resetIndexedAt) (fun _ => Pooled true fun _ => True) :=
  Triple.committed (setIndexedAt_system (by simp) (fun _ _ _ _ => trivial) _ _)

theorem resetIndexedAtForIds_triple (ids : List EntryId) :
    Triple (ofSystem E) (Pooled true fun _ => True) (resetIndexedAtForIds ids)
      (fun _ => Pooled true fun _ => True) :=
  Triple.ite (fun _ => Triple.pure (fun _ h => h))
    (fun _ => setIndexedAt_system (by simp) (fun _ _ _ _ => trivial) _ _)

theorem sweep_keeps (kind : Sweep) (now : Time) (row : JobRow) :
    (row.sweep kind now).userId = row.userId ∧
      (row.sweep kind now).conversationId = row.conversationId := by
  unfold JobRow.sweep
  split
  · exact ⟨rfl, rfl⟩
  · exact ⟨rfl, rfl⟩

theorem sweepJobs_triple (kind : Sweep) (now : Time) :
    Triple (ofSystem E) (Pooled true fun _ => True) (run (sweepJobs kind now))
      (fun _ => Pooled true fun _ => True) := by
  refine Triple.execute (by simp) ?_
  intro db _ db' sound _ h
  cases h
  have ties := sound.jobs.update (a := access db ⟨true, none⟩)
    (q := fun _ row => kind.finds now row)
    (fun _ row => ⟨(sweep_keeps kind now row).1, congrArg some (sweep_keeps kind now row).2⟩)
  exact ⟨{ sound with jobs := ties }, { Keeps.refl db with }, trivial⟩

theorem setDeletedAt_triple (user : UserId) (deletedAt : Option Time) :
    Triple (ofSystem E) (Pooled true fun _ => True) (run (setDeletedAt user deletedAt))
      (fun _ => Pooled true fun _ => True) := by
  refine Triple.execute (by simp) ?_
  intro db _ db' sound _ h
  cases h
  exact ⟨{ sound with }, { Keeps.refl db with }, trivial⟩

end System

section Rules
variable {E A : Type} {D : Discipline (Db E)} {status : Status} {login : Login}
  {P : Db E → Prop} {x : Tx E A} {pre : Conn (Db E) Login → Prop} {Q : A → Db E → Prop}

theorem anywhere {post : A → Conn (Db E) Login → Prop}
    (t : Triple D (At status login fun _ => True) x post) :
    Triple D (At status login P) x post :=
  t.of_imp (fun _ h => ⟨h.1, h.2.1, trivial⟩)

theorem leaves (t : Triple D pre x (fun a => At status login (Q a))) (f : A → List Pending)
    (owned : ∀ a db, Q a db → ∀ p ∈ f a, Pending.Owned db p) :
    Triple D pre (x >>= fun a => pure (f a))
      (fun more => At status login fun db => ∀ p ∈ more, Pending.Owned db p) :=
  t.bind (fun a => Triple.pure (fun c h => ⟨h.1, h.2.1, owned a c.store h.2.2⟩))

theorem leaves_nothing (t : Triple D pre x (fun a => At status login (Q a))) :
    Triple D pre (x >>= fun _ => pure [])
      (fun more => At status login fun db => ∀ p ∈ more, Pending.Owned db p) :=
  leaves t (fun _ => []) (fun _ _ _ _ mem => absurd mem List.not_mem_nil)

end Rules

section Actions
variable {E : Type}

def Action.discipline (action : Action E) : Discipline (Db E) :=
  match action.actor with
  | some user => ofUser E user
  | none => ofSystem E

/-- What an action finds pending is owned, and so is what it leaves pending. -/
theorem transaction_triple (action : Action E) :
    Triple action.discipline
      (Pooled action.onAdminPool fun db => ∀ p, action.needs = some p → p.Owned db)
      action.transaction
      (fun more => Pooled action.onAdminPool fun db => ∀ p ∈ more, p.Owned db) := by
  cases action with
  | createTopic user path title description now =>
    exact loose (userScoped_triple (leaves_nothing (anywhere
      (createTopic_triple stable_true path title description now))))
  | renameTopic user id newPath newTitle now =>
    exact loose (userScoped_triple (Triple.savepoint (leaves_nothing (anywhere
      (renameTopic_triple id newPath newTitle now)))))
  | deleteTopic user id moveEntriesTo now =>
    exact userScoped_triple (Triple.savepoint (leaves_nothing (anywhere
      (deleteWithReassign_triple id moveEntriesTo now))))
  | mergeTopics user source dest now =>
    exact userScoped_triple (Triple.savepoint (leaves_nothing (anywhere
      (mergeTopics_triple source dest now))))
  | appendEntry user path content reasoning tags date now =>
    refine loose (userScoped_triple (leaves (anywhere
      (appendEntry_triple stable_true path content reasoning tags date now)) _ ?_))
    intro id db known p mem
    rw [List.mem_singleton.mp mem]
    exact known.1
  | updateEntry user id body now =>
    exact loose (leaves_nothing (anywhere (patchEntry_triple id body now)))
  | deleteEntry user id now =>
    exact loose (userScoped_triple (Triple.savepoint (leaves_nothing (anywhere
      (deleteEntry_triple stable_true id now)))))
  | moveEntries user ids dest now =>
    exact loose (userScoped_triple (Triple.savepoint (leaves_nothing (anywhere
      (moveEntriesToTopic_triple ids dest now)))))
  | saveConversation user path title messages summary source tags date now =>
    refine loose (userScoped_triple (leaves (anywhere
      (saveConversation_triple stable_true path title messages summary source tags date now))
      _ ?_))
    intro saved db known p mem
    rw [List.mem_singleton.mp mem]
    exact known.1.2
  | embed user id embedding stamp =>
    have saved := saveByVector_triple (loginOf user) rfl (stable_entry id) (fun _ h => h)
      embedding
    refine loose (userScoped_triple (Triple.bind (saved.of_imp ?_) (fun _ => ?_)))
    · exact fun c h => ⟨h.1, h.2.1, h.2.2 _ rfl⟩
    · cases stamp with
      | none => exact Triple.pure (fun c h => ⟨h.1, h.2.1, by simp⟩)
      | some now => exact leaves_nothing (markIndexed_triple (stable_entry id) id now)
  | storeUnchanged user id text embedding now =>
    exact loose (leaves_nothing (anywhere (storeUnchanged_triple id text embedding now)))
  | markIndexed user id now =>
    exact loose (userScoped_triple (leaves_nothing (anywhere
      (markIndexed_triple stable_true id now))))
  | audited user action targetId =>
    exact loose (userScoped_triple (leaves_nothing (anywhere
      (recordAudit_triple stable_true action targetId))))
  | ensureInbox user now =>
    exact loose (leaves_nothing (anywhere (ensureInbox_triple now)))
  | ingest user title messages platform platformId date now =>
    refine loose (leaves (anywhere
      (ingestConversation_triple title messages platform platformId date now)) _ ?_)
    intro saved db known p mem
    rw [List.mem_singleton.mp mem]
    exact known
  | createJob user id source periodStart now =>
    refine loose (leaves_nothing ((createExtractionJob_triple id source periodStart now).of_imp ?_))
    exact fun c h => ⟨h.1, h.2.1, h.2.2 _ rfl⟩
  | startExtraction user id jobId now =>
    exact loose (leaves_nothing (anywhere (startExtraction_triple id jobId now)))
  | markSkippedNoTopic user id jobId now =>
    exact loose (leaves_nothing (anywhere (markSkippedNoTopic_triple id jobId now)))
  | persist user x today now =>
    exact loose (leaves_nothing (anywhere (persistPhase_triple x today now)))
  | markJobFailed user jobId errorCode now =>
    exact loose (leaves_nothing (anywhere (markJobFailed_triple jobId errorCode now)))
  | claim lastId batchSize locked now =>
    refine leaves (anywhere (claimBatch_triple lastId batchSize locked now)) _ ?_
    intro batch db claimed p mem
    obtain ⟨row, hrow, rfl⟩ := List.mem_map.mp mem
    exact claimed row hrow
  | reindex user id embedding =>
    have saved := saveByVector_triple ⟨true, some user⟩ rfl (stable_entry id)
      (fun _ h => h) embedding
    refine loose (userScoped_triple (leaves_nothing (saved.of_imp ?_)))
    exact fun c h => ⟨h.1, h.2.1, h.2.2 _ rfl⟩
  | resetIndexedAtForIds ids =>
    exact leaves_nothing (anywhere (resetIndexedAtForIds_triple ids))
  | resetIndexedAt => exact leaves_nothing (anywhere resetIndexedAt_triple)
  | sweep kind now => exact leaves_nothing (anywhere (sweepJobs_triple kind now))
  | setUser user deletedAt => exact leaves_nothing (anywhere (setDeletedAt_triple user deletedAt))

end Actions

/-- The rows are tied, and what is pending goes on with ids of its user. -/
structure Held {E : Type} (w : World E) : Prop where
  sound : Sound w.db
  pending : ∀ p ∈ w.pending, p.Owned w.db

section Runs
variable {E : Type} {w w' : World E} {action : Action E}

theorem Held.start : Held (World.start E) :=
  ⟨Sound.start, fun _ mem => absurd mem List.not_mem_nil⟩

theorem discipline_keeps {db db' : Db E} (moved : action.discipline.step db db') :
    Keeps db db' := by
  unfold Action.discipline at moved
  split at moved
  · exact moved.keeps
  · exact moved

theorem discipline_inv {db : Db E} : action.discipline.inv db ↔ Sound db := by
  unfold Action.discipline
  split
  · rfl
  · rfl

theorem step_held (held : Held w) (next : step w action = some w') :
    Held w' ∧ action.discipline.step w.db w'.db := by
  obtain ⟨ready, rfl⟩ := Replay.guarded_eq_some.mp next
  have owned : ∀ p, action.needs = some p → p.Owned w.db := by
    intro p needed
    rw [needed, Option.all_some, decide_eq_true_eq] at ready
    exact held.pending p ready
  obtain ⟨sound, moved, more⟩ := transaction_triple action (connect action.onAdminPool w.db)
    (discipline_inv.mpr held.sound) ⟨rfl, rfl, owned⟩
  refine ⟨⟨discipline_inv.mp sound, ?_⟩, moved⟩
  have kept : ∀ p ∈ w.pending, p.Owned (w.act action).db :=
    fun p mem => (held.pending p mem).keep (discipline_keeps moved)
  intro p mem
  unfold World.act at mem
  simp only at mem
  split at mem
  · next left returned =>
    rcases List.mem_append.mp mem with mem | mem
    · exact (more left returned).2.2 p mem
    · exact kept p mem
  · exact kept p mem

theorem run_held {acts : List (Action E)} (ran : Replay.run step (World.start E) acts = some w) :
    Held w :=
  Replay.run_invariant' (fun _ _ _ held next => (step_held held next).1) Held.start ran

/-- In every run the rows stay tied to rows of their own user, and what is run for a user
touches no row of another one. -/
theorem ownership_closed {acts : List (Action E)}
    (ran : Replay.run step (World.start E) acts = some w) :
    Owned w.db ∧ ∀ action w' user, step w action = some w' → action.actor = some user →
      Untouched user w.db w'.db := by
  refine ⟨(run_held ran).sound.toOwned, ?_⟩
  intro action w' user next actor
  have moved := (step_held (run_held ran) next).2
  rw [Action.discipline, actor] at moved
  exact moved.untouched

/-- One user saves a conversation and another one tries to delete its entry; both vectors
are stored by reindex. -/
def twoUsers : List (Action Unit) :=
  [.setUser 1 none, .setUser 2 none, .ensureInbox 1 10, .ensureInbox 2 10,
    .saveConversation 1 DEFAULT_INBOX_TOPIC (py "a") [] [] [] [] [] 11,
    .appendEntry 2 DEFAULT_INBOX_TOPIC (py "b") none [] [] 12, .deleteEntry 2 1 13,
    .claim 0 10 [] 14, .reindex 1 1 (), .reindex 2 2 ()]

theorem ownership_closed_two_users : ∃ w, Replay.run step (World.start Unit) twoUsers = some w ∧
    w.db.embeddings.get 1 = some ⟨1, ()⟩ ∧ Owned w.db ∧
      ∀ action w' user, step w action = some w' → action.actor = some user →
        Untouched user w.db w'.db := by
  have ran : Replay.run step (World.start Unit) twoUsers = some _ := rfl
  exact ⟨_, ran, rfl, ownership_closed ran⟩

end Runs

end Tenancy
