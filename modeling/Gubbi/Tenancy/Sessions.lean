import Gubbi.Tenancy.Ownership

/-!
# Sessions of a user

The repositories under the disciplines of one user, and what they learn from a
row-secured read: that the row belongs to the user.
-/

namespace Tenancy

open Text RowSecurity Transactions Connections
open JournalEntries (EntryId Entry Mode linkedContent)
open JournalConversations (TopicId Platform Message recordOf)
open ExtractionJobs (UserId JobId JobRow Jobs Period Cents ErrorCode Sweep)
open ExtractConversation (ExtractedEntry)

section Facts
variable {E : Type} (user : UserId)

def OwnsTopic (id : TopicId) (db : Db E) : Prop := topicOwner db id = some user

def OwnsConversation (id : ConversationId) (db : Db E) : Prop := conversationOwner db id = some user

def OwnsEntry (id : EntryId) (db : Db E) : Prop := entryOwner db id = some user

/-- What statements other than the deletion of a topic leave true. -/
def Stable (R : Db E → Prop) : Prop := ∀ db db', Growing user db db' → R db → R db'

abbrev In (P : Db E → Prop) : Conn (Db E) Login → Prop := Open (loginOf user) P

end Facts

section Stability
variable {E : Type} {user : UserId} {R R' : Db E → Prop}

theorem stable_true : Stable user (fun _ : Db E => True) := fun _ _ _ _ => trivial

theorem stable_topic (id : TopicId) : Stable user (OwnsTopic (E := E) user id) :=
  fun _ _ step h => step.topics id user h

theorem stable_conversation (id : ConversationId) :
    Stable user (OwnsConversation (E := E) user id) :=
  fun _ _ step h => step.within.keeps.conversations id user h

theorem stable_entry (id : EntryId) : Stable user (OwnsEntry (E := E) user id) :=
  fun _ _ step h => step.within.keeps.entries id user h

theorem Stable.and (first : Stable user R) (second : Stable user R') :
    Stable user (fun db => R db ∧ R' db) :=
  fun db db' step h => ⟨first db db' step h.1, second db db' step h.2⟩

end Stability

section Repositories
variable {E : Type} {user : UserId} {R : Db E → Prop}

/-- One statement, from its spec. -/
theorem run_triple {A : Type} {f : Statement E A} {P : Db E → Prop} {Q : A → Db E → Prop}
    (spec : ∀ db a db', Sound db → P db → f (loginOf user) db = .ok (a, db') →
      Moves user db db' ∧ Q a db') :
    Triple (growing E user) (In user P) (run f) (fun a => In user (Q a)) := by
  refine Triple.execute (by simp) ?_
  intro db a db' sound hP h
  obtain ⟨moves, hQ⟩ := spec db a db' sound hP h
  exact ⟨moves.sound, moves.growing, hQ⟩

/-- A statement after which all that was known still holds. -/
theorem run_stable {A : Type} {f : Statement E A} (stable : Stable user R)
    (spec : ∀ db a db', Sound db → R db → f (loginOf user) db = .ok (a, db') →
      Moves user db db') : Triple (growing E user) (In user R) (run f) (fun _ => In user R) := by
  refine run_triple ?_
  intro db a db' sound hR h
  have moves := spec db a db' sound hR h
  exact ⟨moves, stable db db' moves.growing hR⟩

theorem recordAudit_triple (stable : Stable user R) (action : AuditAction) (targetId : Nat) :
    Triple (growing E user) (In user R) (recordAudit user action targetId)
      (fun _ => In user R) :=
  run_stable stable (fun _ _ _ sound _ h => insertAudit_spec sound h)

theorem assertInTransaction_triple :
    Triple (growing E user) (In user R) assertInTransaction (fun _ => In user R) := by
  rintro c sound ⟨status, settings, hR⟩
  have ran : assertInTransaction c = (.ok (), c) := by simp [assertInTransaction, status]
  rw [ran]
  exact ⟨sound, Growing.refl _, fun _ _ => ⟨status, settings, hR⟩⟩

theorem getTopicId_triple (path : PyStr) :
    Triple (growing E user) (In user R) (getTopicId path)
      (fun id => In user (fun db => OwnsTopic user id db ∧ R db)) := by
  have selected : Triple (growing E user) (In user R) (run (selectTopicId path))
      (fun id => In user (fun db =>
        (∀ found, id = some found → OwnsTopic user found db) ∧ R db)) := by
    refine run_triple ?_
    intro db a db' sound hR h
    obtain ⟨rfl, found⟩ := selectTopicId_spec h
    exact ⟨Moves.refl sound, found, hR⟩
  refine selected.bind ?_
  intro id
  cases id with
  | none => exact Triple.fail
  | some id => exact Triple.pure (fun c h => ⟨h.1, h.2.1, h.2.2.1 id rfl, h.2.2.2⟩)

theorem createTopic_triple (stable : Stable user R) (path title description : PyStr) (now : Time) :
    Triple (growing E user) (In user R) (createTopic path title description now)
      (fun id => In user (fun db => OwnsTopic user id db ∧ R db)) := by
  refine Triple.mapError (run_triple ?_)
  intro db id db' sound hR h
  obtain ⟨moves, owns⟩ := insertTopic_spec sound h
  exact ⟨moves, owns, stable db db' moves.growing hR⟩

theorem requirePath_triple (id : TopicId) :
    Triple (growing E user) (In user R) (requirePath id)
      (fun _ => In user (fun db => OwnsTopic user id db ∧ R db)) := by
  have selected : Triple (growing E user) (In user R) (run (selectTopicPath id))
      (fun path => In user (fun db => (path.isSome → OwnsTopic user id db) ∧ R db)) := by
    refine run_triple ?_
    intro db a db' sound hR h
    obtain ⟨rfl, found⟩ := selectTopicPath_spec h
    exact ⟨Moves.refl sound, found, hR⟩
  refine selected.bind ?_
  intro path
  cases path with
  | none => exact Triple.fail
  | some path => exact Triple.pure (fun c h => ⟨h.1, h.2.1, h.2.2.1 rfl, h.2.2.2⟩)

theorem renameTopic_triple (id : TopicId) (newPath : PyStr) (newTitle : Option PyStr) (now : Time) :
    Triple (growing E user) (In user (fun _ => True)) (renameTopic id newPath newTitle user now)
      (fun _ => In user (fun _ => True)) := by
  refine (requirePath_triple id).bind ?_
  intro _
  refine Triple.bind (Triple.mapError (run_stable ((stable_topic id).and stable_true)
    (fun _ _ _ sound _ h => updateTopicPath_spec sound h))) ?_
  intro found
  refine Triple.ite (fun _ => ?_) (fun _ => Triple.fail)
  exact (recordAudit_triple stable_true _ _).of_imp (fun c h => ⟨h.1, h.2.1, trivial⟩)

theorem reassignRows_triple (source dest : TopicId) (now : Time) :
    Triple (growing E user) (In user (OwnsTopic user dest)) (reassignRows source dest now)
      (fun _ => In user (OwnsTopic user dest)) := by
  refine Triple.bind (Triple.mapError (run_stable (stable_topic dest)
    (fun _ _ _ sound owns h => reassignConversations_spec sound owns h))) (fun _ => ?_)
  refine Triple.bind (run_stable (stable_topic dest)
    (fun _ _ _ sound owns h => moveRows_spec sound owns h)) (fun _ => ?_)
  exact Triple.pure (fun _ h => h)

/-- The sessions that may delete a topic. -/
theorem loose {A : Type} {pre : Conn (Db E) Login → Prop}
    {post : A → Conn (Db E) Login → Prop} {x : Tx E A} (t : Triple (growing E user) pre x post) :
    Triple (ofUser E user) pre x post :=
  t.loosen (fun _ => Iff.rfl) (fun _ _ step => step.within)

theorem deleteTopicRow_triple (id : TopicId) :
    Triple (ofUser E user) (In user R) (run (deleteTopicRow id))
      (fun _ => In user (fun _ => True)) := by
  refine Triple.execute (by simp) ?_
  intro db _ db' sound _ h
  obtain ⟨sound', within⟩ := deleteTopicRow_spec sound h
  exact ⟨sound', within, trivial⟩

theorem audit_ofUser (action : AuditAction) (targetId : Nat) :
    Triple (ofUser E user) (In user (fun _ => True)) (recordAudit user action targetId)
      (fun _ => In user (fun _ => True)) :=
  loose (recordAudit_triple stable_true action targetId)

theorem moveAndDelete_triple (source dest : TopicId) (now : Time) :
    Triple (ofUser E user) (In user (OwnsTopic user dest)) (moveAndDelete source dest now)
      (fun _ => In user (fun _ => True)) := by
  refine (loose (reassignRows_triple source dest now)).bind ?_
  intro _
  refine (deleteTopicRow_triple source).bind ?_
  intro _
  refine Triple.bind (loose (run_stable stable_true
    (fun _ _ _ sound _ h => touchTopic_spec sound h))) ?_
  exact fun _ => Triple.pure (fun _ h => h)

theorem mergeTopics_triple (source dest : TopicId) (now : Time) :
    Triple (ofUser E user) (In user (fun _ => True)) (mergeTopics source dest user now)
      (fun _ => In user (fun _ => True)) := by
  refine Triple.ite (fun _ => Triple.fail) (fun _ => ?_)
  refine (loose (requirePath_triple source)).bind (fun _ => ?_)
  refine (loose (requirePath_triple dest)).bind (fun _ => ?_)
  refine ((moveAndDelete_triple source dest now).of_imp
    (fun c h => ⟨h.1, h.2.1, h.2.2.1⟩)).bind (fun _ => ?_)
  exact (audit_ofUser _ _).bind (fun _ => Triple.pure (fun _ h => h))

theorem deleteWithReassign_triple (id : TopicId) (moveEntriesTo : Option TopicId) (now : Time) :
    Triple (ofUser E user) (In user (fun _ => True)) (deleteWithReassign id moveEntriesTo user now)
      (fun _ => In user (fun _ => True)) := by
  refine (loose (requirePath_triple id)).bind (fun _ => ?_)
  refine Triple.bind (loose (run_stable ((stable_topic id).and stable_true) ?_))
    (fun counts => ?_)
  · intro db _ db' sound _ h
    cases h
    exact Moves.refl sound
  · refine Triple.ite (fun _ => ?_) (fun _ => ?_)
    · refine (deleteTopicRow_triple id).bind (fun _ => ?_)
      exact (audit_ofUser _ _).bind (fun _ => Triple.pure (fun _ h => h))
    · cases moveEntriesTo with
      | none => exact Triple.fail
      | some dest =>
        refine Triple.ite (fun _ => Triple.fail) (fun _ => ?_)
        refine (loose (requirePath_triple dest)).bind (fun _ => ?_)
        refine ((moveAndDelete_triple id dest now).of_imp
          (fun c h => ⟨h.1, h.2.1, h.2.2.1⟩)).bind (fun _ => ?_)
        refine (audit_ofUser _ _).bind (fun _ => ?_)
        exact (audit_ofUser _ _).bind (fun _ => Triple.pure (fun _ h => h))

theorem appendEntry_triple (stable : Stable user R) (path content : PyStr)
    (reasoning : Option PyStr) (tags : List PyStr) (date : PyStr) (now : Time) :
    Triple (growing E user) (In user R) (appendEntry path content reasoning tags date now)
      (fun id => In user (fun db => OwnsEntry user id db ∧ R db)) := by
  refine (getTopicId_triple path).bind (fun topicId => run_triple ?_)
  intro db id db' sound known h
  obtain ⟨moves, owns⟩ := insertEntry_spec sound known.1 h
  exact ⟨moves, owns, stable db db' moves.growing known.2⟩

theorem getText_triple (id : EntryId) :
    Triple (growing E user) (In user R) (getText id)
      (fun text => In user (fun db => (text.isSome → OwnsEntry user id db) ∧ R db)) := by
  have selected : Triple (growing E user) (In user R) (run (selectActive id))
      (fun row => In user (fun db => (row.isSome → OwnsEntry user id db) ∧ R db)) := by
    refine run_triple ?_
    intro db a db' sound hR h
    obtain ⟨rfl, found⟩ := selectActive_spec h
    exact ⟨Moves.refl sound, found, hR⟩
  refine selected.bind (fun row => Triple.pure ?_)
  rintro c ⟨status, settings, found, hR⟩
  refine ⟨status, settings, ?_, hR⟩
  intro present
  rw [Option.isSome_map] at present
  exact found present

theorem updateEntry_triple (stable : Stable user R) (id : EntryId)
    (content reasoning : Option PyStr) (mode : Mode) (date : Option PyStr)
    (tags : Option (List PyStr)) (now : Time) :
    Triple (growing E user) (In user R) (updateEntry id content reasoning mode date tags now)
      (fun _ => In user R) := by
  refine assertInTransaction_triple.bind (fun _ => ?_)
  refine Triple.bind (run_stable stable ?_) (fun row => ?_)
  · intro db _ db' sound _ h
    obtain ⟨rfl, _⟩ := selectActive_spec h
    exact Moves.refl sound
  · cases row with
    | none => exact Triple.fail
    | some row =>
      refine Triple.bind (run_stable stable ?_) (fun _ => ?_)
      · intro db _ db' sound _ h
        exact updateEntryRow_spec sound (by exact fun _ => rfl) h
      refine Triple.ite (fun _ => ?_) (fun _ => Triple.pure (fun _ h => h))
      exact run_stable stable (fun _ _ _ sound _ h => deleteEmbedding_spec sound h)

theorem deleteEntry_triple (stable : Stable user R) (id : EntryId) (now : Time) :
    Triple (growing E user) (In user R) (deleteEntry id now) (fun _ => In user R) := by
  refine Triple.bind (run_stable stable (fun _ _ _ sound _ h => softDelete_spec sound h))
    (fun row => ?_)
  cases row with
  | none => exact Triple.fail
  | some topicId => exact Triple.pure (fun _ h => h)

theorem moveEntriesToTopic_triple (ids : List EntryId) (dest : TopicId) (now : Time) :
    Triple (growing E user) (In user (fun _ => True)) (moveEntriesToTopic ids dest user now)
      (fun _ => In user (fun _ => True)) := by
  refine assertInTransaction_triple.bind (fun _ => ?_)
  refine Triple.ite (fun _ => Triple.fail) (fun _ => ?_)
  refine Triple.ite (fun _ => Triple.fail) (fun _ => ?_)
  refine (requirePath_triple dest).bind (fun _ => ?_)
  refine Triple.bind (run_stable ((stable_topic dest).and stable_true)
    (fun _ _ _ sound known h => moveRows_spec sound known.1 h)) (fun moved => ?_)
  refine Triple.ite (fun _ => Triple.fail) (fun _ => ?_)
  refine Triple.bind (run_stable ((stable_topic dest).and stable_true)
    (fun _ _ _ sound _ h => touchTopic_spec sound h)) (fun _ => ?_)
  refine (recordAudit_triple ((stable_topic dest).and stable_true) _ _).bind (fun _ => ?_)
  exact Triple.pure (fun _ h => ⟨h.1, h.2.1, trivial⟩)

theorem markIndexed_triple (stable : Stable user R) (id : EntryId) (now : Time) :
    Triple (growing E user) (In user R) (markIndexed id now) (fun _ => In user R) :=
  run_stable stable (fun _ _ _ sound _ h => setIndexedAt_spec sound h)

theorem insertMessages_triple (stable : Stable user R) {id : ConversationId}
    (owns : ∀ db, R db → OwnsConversation user id db) (messages : List Message)
    (position : Nat) :
    Triple (growing E user) (In user R) (insertMessages id messages position)
      (fun _ => In user R) := by
  induction messages generalizing position with
  | nil => exact Triple.pure (fun _ h => h)
  | cons message rest ih =>
    refine Triple.bind (run_stable stable ?_) (fun _ => ih (position + 1))
    intro db _ db' sound hR h
    exact insertMessage_spec sound (by exact owns db hR) h

theorem upsertLinkedEntry_triple (stable : Stable user R) {topicId : TopicId}
    {id : ConversationId} (owns : ∀ db, R db → OwnsTopic user topicId db ∧
      OwnsConversation user id db) (title summary date : PyStr) (now : Time) :
    Triple (growing E user) (In user R) (upsertLinkedEntry topicId id title summary date now)
      (fun entryId => In user (fun db => OwnsEntry user entryId db ∧ R db)) := by
  have selected : Triple (growing E user) (In user R) (run (selectLinked id))
      (fun found => In user (fun db => ((∀ entryId, found = some entryId →
        OwnsEntry user entryId db) ∧ (found = none → Unlinked user id db)) ∧ R db)) := by
    refine run_triple ?_
    intro db found db' sound hR h
    obtain ⟨rfl, mine, unlinked⟩ := selectLinked_spec h
    exact ⟨Moves.refl sound, ⟨mine, unlinked⟩, hR⟩
  refine selected.bind (fun found => ?_)
  cases found with
  | none =>
    refine run_triple ?_
    intro db entryId db' sound known h
    obtain ⟨topic, conversation⟩ := owns db known.2
    obtain ⟨moves, mine⟩ := insertLinked_spec sound topic conversation (known.1.2 rfl) h
    exact ⟨moves, mine, stable db db' moves.growing known.2⟩
  | some entryId =>
    refine Triple.bind (run_triple ?_) (fun _ => Triple.pure (fun _ h => h))
    intro db _ db' sound known h
    have moves := rewriteLinked_spec sound h
    exact ⟨moves, moves.growing.within.keeps.entries entryId user (known.1.1 entryId rfl),
      stable db db' moves.growing known.2⟩

theorem saveConversation_triple (stable : Stable user R) (path title : PyStr)
    (messages : List Message) (summary source : PyStr) (tags : List PyStr) (date : PyStr)
    (now : Time) :
    Triple (growing E user) (In user R)
      (saveConversation path title messages summary source tags date now)
      (fun saved => In user (fun db => (OwnsConversation user saved.conversationId db ∧
        OwnsEntry user saved.linkedEntryId db) ∧ R db)) := by
  refine assertInTransaction_triple.bind (fun _ => ?_)
  cases Validation.validateTitle title with
  | error e => exact Triple.fail
  | ok title =>
    refine (getTopicId_triple path).bind (fun topicId => ?_)
    have upserted : Triple (growing E user)
        (In user (fun db => OwnsTopic user topicId db ∧ R db))
        (run (upsertConversation (recordOf topicId title messages summary source tags date) now))
        (fun saved => In user (fun db => OwnsConversation user saved.1 db ∧
          OwnsTopic user topicId db ∧ R db)) := by
      refine run_triple ?_
      intro db saved db' sound known h
      obtain ⟨moves, mine⟩ := upsertConversation_spec sound (by exact known.1) h
      exact ⟨moves, mine, ((stable_topic topicId).and stable) db db' moves.growing known⟩
    refine upserted.bind (fun saved => ?_)
    have kept := (@stable_conversation E user saved.1).and
      ((stable_topic topicId).and stable)
    refine Triple.bind (run_stable kept (fun _ _ _ sound _ h => deleteMessages_spec sound h))
      (fun _ => ?_)
    refine (insertMessages_triple kept (fun _ known => known.1) messages 0).bind (fun _ => ?_)
    refine (upsertLinkedEntry_triple kept (fun _ known => ⟨known.2.1, known.1⟩) title summary date
      now).bind (fun entryId => ?_)
    have keptEntry := (@stable_entry E user entryId).and kept
    refine Triple.bind (run_stable keptEntry (fun _ _ _ sound _ h => touchTopic_spec sound h))
      (fun _ => Triple.pure ?_)
    exact fun c h => ⟨h.1, h.2.1, ⟨h.2.2.2.1, h.2.2.1⟩, h.2.2.2.2.2⟩

theorem setPlatformMetadata_triple (stable : Stable user R) (id : ConversationId)
    (platform : Platform) (platformId : PyStr) :
    Triple (growing E user) (In user R) (setPlatformMetadata id platform platformId)
      (fun _ => In user R) :=
  run_stable stable (fun _ _ _ sound _ h => updatePlatform_spec sound h)

theorem markProcessed_triple (stable : Stable user R) (id : ConversationId) (now : Time) :
    Triple (growing E user) (In user R) (markProcessed id now) (fun _ => In user R) :=
  run_stable stable (fun _ _ _ sound _ h => updateProcessedAt_spec sound h)

theorem getProcessedAt_triple (stable : Stable user R) (id : ConversationId) :
    Triple (growing E user) (In user R) (getProcessedAt id) (fun _ => In user R) := by
  refine run_stable stable ?_
  intro db a db' sound _ h
  cases h
  exact Moves.refl sound

/-- On either pool. -/
theorem saveByVector_triple (login : Login) (setting : login.currentUserId = some user)
    (stable : Stable user R) {id : EntryId} (owns : ∀ db, R db → OwnsEntry user id db)
    (embedding : E) :
    Triple (growing E user) (Open login R) (saveByVector id embedding)
      (fun _ => Open login R) := by
  refine Triple.execute (by simp) ?_
  intro db _ db' sound hR h
  have moves := upsertEmbedding_spec sound setting (owns db hR) h
  exact ⟨moves.sound, moves.growing, stable db db' moves.growing hR⟩

/-- In a transaction every error is of a failed statement, as the query after the conflict
is refused. -/
theorem createPending_raises (id : ConversationId) (source : PyStr) (periodStart : Period)
    (now : Time) :
    Raises (In user R) (createPending user id source periodStart now) (fun _ => Failed) := by
  refine Raises.rescue Raises.execute (fun e => ?_)
  split
  · exact Raises.of_refuses ((refuses_run _).bind _)
  · exact Raises.fail

/-- The query after the conflict is refused, so there is nothing to show about its rows. -/
theorem createPending_triple (stable : Stable user R) {id : ConversationId}
    (owns : ∀ db, R db → OwnsConversation user id db) (source : PyStr) (periodStart : Period)
    (now : Time) :
    Triple (growing E user) (In user R) (createPending user id source periodStart now)
      (fun _ => In user R) := by
  refine Triple.rescue (run_stable stable ?_) Raises.execute ?_
  · intro db _ db' sound hR h
    exact insertPending_spec sound (owns db hR) h
  · intro e
    refine Triple.ite (fun _ => Triple.of_refuses ?_) (fun _ => Triple.fail)
    exact (refuses_run _).bind _

theorem markRunning_triple (stable : Stable user R) (id : JobId) (now : Time) :
    Triple (growing E user) (In user R) (markRunning id now) (fun _ => In user R) :=
  run_stable stable (fun _ _ _ sound _ h => updateRunning_spec sound h)

theorem markCompleted_triple (stable : Stable user R) (id : JobId)
    (topicsCreated entriesCreated : Nat) (centsSpent : Cents) (now : Time) :
    Triple (growing E user) (In user R)
      (markCompleted id topicsCreated entriesCreated centsSpent now) (fun _ => In user R) :=
  run_stable stable (fun _ _ _ sound _ h =>
    updateJob_spec sound (markCompleted_keeps topicsCreated entriesCreated centsSpent now) h)

theorem markFailed_triple (stable : Stable user R) (id : JobId) (errorCode : ErrorCode)
    (now : Time) :
    Triple (growing E user) (In user R) (markFailed id errorCode now) (fun _ => In user R) :=
  run_stable stable (fun _ _ _ sound _ h =>
    updateJob_spec sound (markFailed_keeps errorCode now) h)

end Repositories

end Tenancy
