import Gubbi.Extraction.ExactlyOnce

/-!
# In whose name a conversation is extracted

An attempt reads and writes as the user that its job names, and never checks that this user
owns the conversation: that is left to the request that queued the job. The request does so
once, long before the attempt runs, with retries, sweeps and resets in between.
-/

namespace ExtractConversation

open Text ExtractionJobs

def World.owner (w : World) (id : ConversationId) : Option UserId :=
  (w.conversations.get id).map ConversationRow.userId

/-- Somebody works on the conversation in the name of the user. -/
inductive ActsFor (w : World) : ConversationId → UserId → Prop
  | request {id : JobId} {r : Request} (found : w.requests.get id = some r) :
    ActsFor w r.conversationId r.userId
  | job {id : JobId} {row : JobRow} (found : w.jobs.get id = some row) :
    ActsFor w row.conversationId row.userId
  | attempt {p : AttemptId} {a : Attempt} (found : w.attempts.get p = some a) :
    ActsFor w a.conversationId a.userId

def Owned (w : World) : Prop := ∀ id userId, ActsFor w id userId → w.owner id = some userId

section Rows
variable {w t : World} {id : ConversationId} {userId : UserId}

/-- Conversations keep their owner, and a committed batch stays where it is. -/
structure Kept (w t : World) : Prop where
  owner : ∀ id userId, w.owner id = some userId → t.owner id = some userId
  batches : w.batches.reverse <+: t.batches.reverse

theorem Kept.of_same (conversations : t.conversations = w.conversations)
    (batches : t.batches = w.batches) : Kept w t where
  owner := fun id userId owned => by
    rw [World.owner, conversations]
    exact owned
  batches := by simp only [batches, List.prefix_rfl]

theorem owner_markProcessed (conversations : Conversations) (key : ConversationId) (now : Time)
    (owned : (conversations.get id).map ConversationRow.userId = some userId) :
    ((markProcessed conversations key now).get id).map ConversationRow.userId = some userId := by
  obtain ⟨row, found, owner⟩ := Option.map_eq_some_iff.mp owned
  rw [markProcessed_get found]
  split
  · rw [ConversationRow.markProcessed]
    split
    · exact congrArg some owner
    · exact congrArg some owner
  · exact congrArg some owner

/-- What a transaction does to the conversations when it may have marked one. -/
theorem owner_mark {marked : Bool} {key : ConversationId} {now : Time}
    {conversations : Conversations}
    (owned : (conversations.get id).map ConversationRow.userId = some userId) :
    ((if marked then markProcessed conversations key now else conversations).get id).map
      ConversationRow.userId = some userId := by
  split
  · exact owner_markProcessed conversations key now owned
  · exact owned

theorem kept_step {preChargeCents : Cents} {action : Action}
    (taken : step preChargeCents w action = some t) : Kept w t := by
  cases action with
  | saveConversation key user =>
    rcases saveConversation_some taken with rfl | ⟨absent, rfl⟩
    · exact .of_same rfl rfl
    · refine ⟨?_, List.prefix_rfl⟩
      intro id userId owned
      obtain ⟨row, found, owner⟩ := Option.map_eq_some_iff.mp owned
      exact Option.map_eq_some_iff.mpr ⟨row, Table.get_put_of_absent _ absent found, owner⟩
  | skipCommit p now =>
    obtain ⟨_, _, _, _, _, rfl⟩ := skipCommit_some taken
    exact ⟨fun _ _ owned => owner_mark owned, List.prefix_rfl⟩
  | commit p now =>
    obtain ⟨_, _, _, _, _, _, _, rfl⟩ := commit_some taken
    refine ⟨fun _ _ owned => owner_mark owned, ?_⟩
    simp only [World.finish, List.reverse_cons]
    exact List.prefix_append _ _
  | reset key =>
    obtain ⟨_, rfl⟩ := reset_some taken
    refine ⟨?_, List.prefix_rfl⟩
    intro id userId owned
    obtain ⟨row, found, owner⟩ := Option.map_eq_some_iff.mp owned
    simp only [World.owner, resetProcessed, Table.get_modify, found]
    split
    · exact congrArg some owner
    · exact congrArg some owner
  | preCharge key user conversationId source periodStart =>
    obtain ⟨_, _, _, rfl⟩ := preCharge_some taken
    exact .of_same rfl rfl
  | createJob key now =>
    obtain ⟨_, _, _, rfl⟩ := createJob_some taken
    exact .of_same rfl rfl
  | rollBackJob key =>
    obtain ⟨_, _, _, rfl⟩ := rollBackJob_some taken
    exact .of_same rfl rfl
  | refundPreCharge key =>
    obtain ⟨_, _, _, rfl⟩ := refundPreCharge_some taken
    exact .of_same rfl rfl
  | beginAttempt p key currentPeriodStart =>
    obtain ⟨_, _, _, rfl⟩ := beginAttempt_some taken
    exact .of_same rfl rfl
  | firstCheck p =>
    obtain ⟨_, _, _, rfl | rfl⟩ := firstCheck_some taken
    · exact .of_same rfl rfl
    · exact .of_same rfl rfl
  | markRunningAndLoad p now =>
    obtain ⟨_, _, _, _, _, rfl⟩ := markRunningAndLoad_some taken
    exact .of_same rfl rfl
  | loadFails p failure =>
    obtain ⟨_, _, _, rfl⟩ := loadFails_some taken
    exact .of_same rfl rfl
  | skipMarkProcessed p =>
    obtain ⟨_, _, _, _, rfl⟩ := skipMarkProcessed_some taken
    exact .of_same rfl rfl
  | refundSkipped p =>
    obtain ⟨_, _, _, rfl⟩ := refundSkipped_some taken
    exact .of_same rfl rfl
  | extractEntries p draft =>
    obtain ⟨_, _, _, rfl⟩ := extractEntries_some taken
    exact .of_same rfl rfl
  | secondCheck p =>
    obtain ⟨_, _, _, _, rfl | rfl⟩ := secondCheck_some taken
    · exact .of_same rfl rfl
    · exact .of_same rfl rfl
  | persistEntries p topicsCreated =>
    obtain ⟨_, _, _, _, _, rfl⟩ := persistEntries_some taken
    exact .of_same rfl rfl
  | completeAndRecord p =>
    obtain ⟨_, _, _, _, _, _, _, rfl⟩ := completeAndRecord_some taken
    exact .of_same rfl rfl
  | raises p failure =>
    obtain ⟨_, _, _, rfl⟩ := raises_some taken
    exact .of_same rfl rfl
  | settleFailure p =>
    obtain ⟨_, _, _, _, ⟨_, rfl⟩ | ⟨_, rfl⟩⟩ := settleFailure_some taken
    · exact .of_same rfl rfl
    · exact .of_same rfl rfl
  | markJobFailed p now =>
    obtain ⟨_, _, _, _, _, _, rfl⟩ := markJobFailed_some taken
    exact .of_same rfl rfl
  | markJobFailedErrors p =>
    obtain ⟨_, _, _, _, _, rfl⟩ := markJobFailedErrors_some taken
    exact .of_same rfl rfl
  | lose p =>
    obtain ⟨_, _, rfl⟩ := lose_some taken
    exact .of_same rfl rfl
  | sweepRows kind now =>
    obtain rfl := sweepRows_some taken
    exact .of_same rfl rfl
  | refundSweptRow key =>
    obtain ⟨_, _, _, rfl⟩ := refundSweptRow_some taken
    exact .of_same rfl rfl

end Rows

section Acting
variable {w t : World} {id : ConversationId} {userId : UserId}

/-- The names on a job, which no status statement changes. -/
def JobRow.names (row : JobRow) : ConversationId × UserId := (row.conversationId, row.userId)

/-- Where the actors of a state come from. -/
theorem actsFor_of (acts : ActsFor t id userId)
    (requests : ∀ key r, t.requests.get key = some r → w.requests.get key = some r)
    (jobs : ∀ key row, t.jobs.get key = some row →
      ∃ old, w.jobs.get key = some old ∧ JobRow.names row = JobRow.names old)
    (attempts : ∀ p a, t.attempts.get p = some a → ActsFor w a.conversationId a.userId) :
    ActsFor w id userId := by
  cases acts with
  | request found => exact .request (requests _ _ found)
  | attempt found => exact attempts _ _ found
  | @job key row found =>
    obtain ⟨old, before, same⟩ := jobs key row found
    simp only [JobRow.names, Prod.mk.injEq] at same
    rw [same.1, same.2]
    exact .job before

theorem requests_same (requests : Table JobId Request) : ∀ key r, requests.get key = some r →
    requests.get key = some r :=
  fun _ _ found => found

theorem jobs_same (jobs : Jobs) : ∀ key row, jobs.get key = some row →
    ∃ old, jobs.get key = some old ∧ JobRow.names row = JobRow.names old :=
  fun _ row found => ⟨row, found, rfl⟩

theorem attempts_same (w : World) : ∀ p a, w.attempts.get p = some a →
    ActsFor w a.conversationId a.userId :=
  fun _ _ found => .attempt found

theorem attempts_put {p : AttemptId} {a : Attempt} (found : ActsFor w a.conversationId a.userId) :
    ∀ q b, (w.attempts.put p a).get q = some b → ActsFor w b.conversationId b.userId := by
  intro q b moved
  rcases Table.get_put_eq_some moved with ⟨_, rfl⟩ | ⟨_, same⟩
  · exact found
  · exact .attempt same

theorem attempts_erase (w : World) (p : AttemptId) :
    ∀ q b, (w.attempts.erase p).get q = some b → ActsFor w b.conversationId b.userId :=
  fun _ _ left => .attempt (Table.get_erase_eq_some left).2

theorem names_modify (jobs : Jobs) (key : JobId) {f : JobRow → JobRow}
    (keeps : ∀ row, JobRow.names (f row) = JobRow.names row) :
    ∀ other row, (jobs.modify key f).get other = some row →
      ∃ old, jobs.get other = some old ∧ JobRow.names row = JobRow.names old := by
  intro other row found
  rw [Table.get_modify] at found
  split at found
  · obtain ⟨old, before, rfl⟩ := Option.map_eq_some_iff.mp found
    exact ⟨old, before, keeps old⟩
  · exact ⟨row, found, rfl⟩

theorem names_markRunning (now : Time) (row : JobRow) :
    JobRow.names (row.markRunning now) = JobRow.names row := by
  unfold JobRow.markRunning
  split
  · rfl
  · rfl

theorem names_markCompleted (topicsCreated entriesCreated : Nat) (centsSpent : Cents) (now : Time)
    (row : JobRow) :
    JobRow.names (row.markCompleted topicsCreated entriesCreated centsSpent now) =
      JobRow.names row := by
  unfold JobRow.markCompleted
  split
  · rfl
  · rfl

theorem names_markFailed (errorCode : ErrorCode) (now : Time) (row : JobRow) :
    JobRow.names (row.markFailed errorCode now) = JobRow.names row := by
  unfold JobRow.markFailed
  split
  · rfl
  · rfl

theorem names_sweep (jobs : Jobs) (kind : Sweep) (now : Time) :
    ∀ key row, (sweep jobs kind now).get key = some row →
      ∃ old, jobs.get key = some old ∧ JobRow.names row = JobRow.names old := by
  intro key row found
  rw [sweep_get] at found
  obtain ⟨old, before, rfl⟩ := Option.map_eq_some_iff.mp found
  refine ⟨old, before, ?_⟩
  unfold JobRow.sweep
  split
  · rfl
  · rfl

theorem names_ends {jobs : Jobs} {updated : Bool} {key : JobId} {topicsCreated entriesCreated : Nat}
    {centsSpent : Cents} {now : Time} : ∀ other row,
      (if updated then markCompleted jobs key topicsCreated entriesCreated centsSpent now
        else jobs).get other = some row →
      ∃ old, jobs.get other = some old ∧ JobRow.names row = JobRow.names old := by
  intro other row found
  split at found
  · exact names_modify jobs key (names_markCompleted _ _ _ _) other row found
  · exact ⟨row, found, rfl⟩

/-- Only a request that has looked at the owner starts to act for a user. -/
theorem actsFor_step {preChargeCents : Cents} {action : Action}
    (taken : step preChargeCents w action = some t) (acts : ActsFor t id userId) :
    ActsFor w id userId ∨ w.owner id = some userId := by
  cases action with
  | preCharge key user conversationId source periodStart =>
    have looked : w.owner conversationId = some user := by
      simp only [step, preCharge] at taken
      split at taken
      · next fresh => exact fresh.2.2.2
      · cases taken
    obtain ⟨_, _, _, rfl⟩ := preCharge_some taken
    cases acts with
    | job found => exact Or.inl (.job found)
    | attempt found => exact Or.inl (.attempt found)
    | request found =>
      rcases Table.get_put_eq_some found with ⟨_, rfl⟩ | ⟨_, same⟩
      · exact Or.inr looked
      · exact Or.inl (.request same)
  | saveConversation key user =>
    left
    rcases saveConversation_some taken with rfl | ⟨_, rfl⟩
    · exact acts
    · exact actsFor_of acts (requests_same w.requests) (jobs_same w.jobs) (attempts_same w)
  | createJob key now =>
    left
    obtain ⟨r, waiting, _, rfl⟩ := createJob_some taken
    cases acts with
    | request found => exact .request (Table.get_erase_eq_some found).2
    | attempt found => exact .attempt found
    | job found =>
      rcases Table.get_put_eq_some found with ⟨_, rfl⟩ | ⟨_, same⟩
      · exact .request waiting
      · exact .job same
  | rollBackJob key =>
    left
    obtain ⟨r, waiting, _, rfl⟩ := rollBackJob_some taken
    cases acts with
    | job found => exact .job found
    | attempt found => exact .attempt found
    | request found =>
      rcases Table.get_put_eq_some found with ⟨_, rfl⟩ | ⟨_, same⟩
      · exact @ActsFor.request w key r waiting
      · exact .request same
  | refundPreCharge key =>
    left
    obtain ⟨r, _, _, rfl⟩ := refundPreCharge_some taken
    exact actsFor_of acts (fun _ _ found => (Table.get_erase_eq_some found).2) (jobs_same w.jobs)
      (attempts_same w)
  | beginAttempt p key currentPeriodStart =>
    left
    obtain ⟨row, _, queued, rfl⟩ := beginAttempt_some taken
    exact actsFor_of acts (requests_same w.requests) (jobs_same w.jobs)
      (@attempts_put w p
        ⟨row.conversationId, row.userId, key, currentPeriodStart, false, .started⟩ (.job queued))
  | firstCheck p =>
    left
    obtain ⟨a, found, _, rfl | rfl⟩ := firstCheck_some taken
    · exact actsFor_of acts (requests_same w.requests) (jobs_same w.jobs) (attempts_erase w p)
    · exact actsFor_of acts (requests_same w.requests) (jobs_same w.jobs)
        (attempts_put (@ActsFor.attempt w p a found))
  | markRunningAndLoad p now =>
    left
    obtain ⟨a, row, found, _, _, rfl⟩ := markRunningAndLoad_some taken
    exact actsFor_of acts (requests_same w.requests)
      (names_modify w.jobs a.jobId (names_markRunning now))
      (@attempts_put w p
        ⟨a.conversationId, a.userId, a.jobId, row.periodStart, true, .loaded⟩
        (@ActsFor.attempt w p a found))
  | loadFails p failure =>
    left
    obtain ⟨a, found, _, rfl⟩ := loadFails_some taken
    exact actsFor_of acts (requests_same w.requests) (jobs_same w.jobs)
      (attempts_put (@ActsFor.attempt w p a found))
  | skipMarkProcessed p =>
    left
    obtain ⟨a, found, _, _, rfl⟩ := skipMarkProcessed_some taken
    exact actsFor_of acts (requests_same w.requests) (jobs_same w.jobs)
      (attempts_put (@ActsFor.attempt w p a found))
  | skipCommit p now =>
    left
    obtain ⟨a, marked, found, _, _, rfl⟩ := skipCommit_some taken
    exact actsFor_of acts (requests_same w.requests)
      (names_modify w.jobs a.jobId (names_markCompleted 0 0 0 now))
      (@attempts_put w p { a with phase := .skipped } (@ActsFor.attempt w p a found))
  | refundSkipped p =>
    left
    obtain ⟨a, _, _, rfl⟩ := refundSkipped_some taken
    exact actsFor_of acts (requests_same w.requests) (jobs_same w.jobs) (attempts_erase w p)
  | extractEntries p draft =>
    left
    obtain ⟨a, found, _, rfl⟩ := extractEntries_some taken
    exact actsFor_of acts (requests_same w.requests) (jobs_same w.jobs)
      (attempts_put (@ActsFor.attempt w p a found))
  | secondCheck p =>
    left
    obtain ⟨a, draft, found, _, rfl | rfl⟩ := secondCheck_some taken
    · exact actsFor_of acts (requests_same w.requests) (jobs_same w.jobs) (attempts_erase w p)
    · exact actsFor_of acts (requests_same w.requests) (jobs_same w.jobs)
        (attempts_put (@ActsFor.attempt w p a found))
  | persistEntries p topicsCreated =>
    left
    obtain ⟨a, draft, found, _, _, rfl⟩ := persistEntries_some taken
    exact actsFor_of acts (requests_same w.requests) (jobs_same w.jobs)
      (attempts_put (@ActsFor.attempt w p a found))
  | completeAndRecord p =>
    left
    obtain ⟨a, draft, topicsCreated, marked, found, _, _, rfl⟩ := completeAndRecord_some taken
    exact actsFor_of acts (requests_same w.requests) (jobs_same w.jobs)
      (attempts_put (@ActsFor.attempt w p a found))
  | commit p now =>
    left
    obtain ⟨a, draft, topicsCreated, marked, updated, found, _, rfl⟩ := commit_some taken
    exact actsFor_of acts (requests_same w.requests) names_ends (attempts_erase w p)
  | raises p failure =>
    left
    obtain ⟨a, found, _, rfl⟩ := raises_some taken
    exact actsFor_of acts (requests_same w.requests) (jobs_same w.jobs)
      (attempts_put (@ActsFor.attempt w p a found))
  | settleFailure p =>
    left
    obtain ⟨a, failure, found, _, ⟨_, rfl⟩ | ⟨_, rfl⟩⟩ := settleFailure_some taken
    · exact actsFor_of acts (requests_same w.requests) (jobs_same w.jobs)
        (attempts_put (@ActsFor.attempt w p a found))
    · exact actsFor_of acts (requests_same w.requests) (jobs_same w.jobs)
        (attempts_put (@ActsFor.attempt w p a found))
  | markJobFailed p now =>
    left
    obtain ⟨a, failure, refunded, _, _, _, rfl⟩ := markJobFailed_some taken
    exact actsFor_of acts (requests_same w.requests)
      (names_modify w.jobs a.jobId (names_markFailed _ now)) (attempts_erase w p)
  | markJobFailedErrors p =>
    left
    obtain ⟨_, _, _, _, _, rfl⟩ := markJobFailedErrors_some taken
    exact actsFor_of acts (requests_same w.requests) (jobs_same w.jobs) (attempts_erase w p)
  | lose p =>
    left
    obtain ⟨_, _, rfl⟩ := lose_some taken
    exact actsFor_of acts (requests_same w.requests) (jobs_same w.jobs) (attempts_erase w p)
  | sweepRows kind now =>
    left
    obtain rfl := sweepRows_some taken
    exact actsFor_of acts (requests_same w.requests) (names_sweep w.jobs kind now) (attempts_same w)
  | refundSweptRow key =>
    left
    obtain ⟨_, _, _, rfl⟩ := refundSweptRow_some taken
    exact actsFor_of acts (requests_same w.requests) (jobs_same w.jobs) (attempts_same w)
  | reset key =>
    left
    obtain ⟨_, rfl⟩ := reset_some taken
    exact actsFor_of acts (requests_same w.requests) (jobs_same w.jobs) (attempts_same w)

end Acting

theorem owned_start : Owned World.start := by
  intro id userId acts
  cases acts with
  | request found => cases found
  | job found => cases found
  | attempt found => cases found

theorem owned_step (preChargeCents : Cents) (w : World) (action : Action) (t : World)
    (owned : Owned w) (taken : step preChargeCents w action = some t) : Owned t := by
  intro id userId acts
  rcases actsFor_step taken acts with before | looked
  · exact (kept_step taken).owner id userId (owned id userId before)
  · exact (kept_step taken).owner id userId looked

/-- Requests, jobs and attempts act for the owner of their conversation, in every interleaving. -/
theorem extraction_owned {preChargeCents : Cents} {actions : List Action} {w : World}
    (ran : Replay.run (step preChargeCents) World.start actions = some w) {id : ConversationId}
    {userId : UserId} (acts : ActsFor w id userId) : w.owner id = some userId :=
  Replay.run_invariant' (owned_step preChargeCents) owned_start ran id userId acts

/-- A failed attempt and the one that arq starts next. -/
theorem extraction_owned_retry : ∃ w,
    Replay.run (step 5) World.start (queued ++ untilSecondCheck 1 ++ [.raises 1 .other,
      .reset 1, .settleFailure 1, .markJobFailed 1 250, .beginAttempt 2 1 202606]) = some w ∧
    w.owner 1 = some 7 := by
  refine ⟨_, rfl, ?_⟩
  exact @extraction_owned 5 (queued ++ untilSecondCheck 1 ++ [.raises 1 .other,
    .reset 1, .settleFailure 1, .markJobFailed 1 250, .beginAttempt 2 1 202606]) _ rfl 1 7
    (@ActsFor.attempt _ 2 ⟨1, 7, 1, 202606, false, .started⟩ rfl)

end ExtractConversation
