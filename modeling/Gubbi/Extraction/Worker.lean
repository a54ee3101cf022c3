import Gubbi.Extraction.Jobs
import Gubbi.Library.Replay

/-!
# Ingest requests, extraction attempts and sweeps side by side

An attempt of `extract_conversation` is a program counter: it opens its first
connection, calls the model without one, and persists under a second one. What a
transaction has written but not committed stays in the counter, together with
the row locks it holds; a statement that would update a locked row has to wait,
so its step is not enabled. Plain reads never wait. An attempt may raise or be
lost at any point, and any number of attempts of one job may run at once.

The cost estimate of ingest is a parameter, and the budget helper is there.
-/

namespace ExtractConversation

open Text ExtractionJobs

abbrev AttemptId := Nat

structure ExtractedEntry where
  content : PyStr
  reasoning : PyStr
  tags : List PyStr
  entryDate : Option PyStr
  deriving DecidableEq

/-- What the model calls of an attempt came back with. -/
structure Draft where
  topicPath : PyStr
  entries : List ExtractedEntry
  centsSpent : Cents
  deriving DecidableEq

/-- The classes of exception that `_classify_error` tells apart. -/
inductive Failure
  | llmRateLimitError
  | llmProviderError
  | other
  deriving DecidableEq, Repr

def classifyError : Failure → ErrorCode
  | .llmRateLimitError => .llmRateLimited
  | .llmProviderError => .llmProviderError
  | .other => .internalError

/-- Where an attempt stands. `marked` and `updated` say whether `mark_processed`
and `mark_completed` found a row; the row stays locked until the commit. -/
inductive Phase
  | started
  | checked
  | loaded
  | skipping (marked : Bool)
  | skipped
  | extracted (draft : Draft)
  | rechecked (draft : Draft)
  | persisted (draft : Draft) (topicsCreated : Nat) (marked : Bool)
  | completed (draft : Draft) (topicsCreated : Nat) (marked updated : Bool)
  | failing (failure : Failure)
  | settled (failure : Failure) (refunded : Bool)
  deriving DecidableEq

structure Attempt where
  conversationId : ConversationId
  userId : UserId
  jobId : JobId
  effectivePeriodStart : Period
  periodStartKnown : Bool
  phase : Phase
  deriving DecidableEq

def Attempt.locksConversation (attempt : Attempt) : Bool :=
  match attempt.phase with
  | .skipping marked | .persisted _ _ marked | .completed _ _ marked _ => marked
  | _ => false

def Attempt.locksJob (attempt : Attempt) : Bool :=
  match attempt.phase with
  | .completed _ _ _ updated => updated
  | _ => false

/-- The audit row `conversation.extracted`. -/
structure ExtractedAudit where
  targetId : ConversationId
  entriesCreated : Nat
  extractionAttemptId : AttemptId
  deriving DecidableEq

/-- What one attempt committed in its second transaction. `marked` says whether
its `mark_processed` changed the row, `epoch` counts the resets before it. -/
structure Batch where
  conversationId : ConversationId
  attemptId : AttemptId
  topicPath : PyStr
  entries : List ExtractedEntry
  audit : ExtractedAudit
  marked : Bool
  epoch : Nat
  deriving DecidableEq

/-- A granted pre-charge whose second transaction has not ended; `rolledBack`
once it has failed and the refund is due. -/
structure Request where
  userId : UserId
  conversationId : ConversationId
  source : PyStr
  periodStart : Period
  rolledBack : Bool
  deriving DecidableEq

structure World where
  conversations : Conversations
  jobs : Jobs
  requests : Table JobId Request
  attempts : Table AttemptId Attempt
  /-- Rows of a sweep whose refund has not been made yet. -/
  sweptRows : List JobId
  budget : Budget
  batches : List Batch
  /-- Jobs that `extraction.refund_skipped_total` was raised for. -/
  refundsSkipped : List JobId

def World.start : World where
  conversations := Table.empty
  jobs := Table.empty
  requests := Table.empty
  attempts := Table.empty
  sweptRows := []
  budget := []
  batches := []
  refundsSkipped := []

namespace World

def conversationLocked (w : World) (id : ConversationId) : Bool :=
  !(w.attempts.keysWhere (fun _ a => a.conversationId = id && a.locksConversation)).isEmpty

def jobLocked (w : World) (id : JobId) : Bool :=
  !(w.attempts.keysWhere (fun _ a => a.jobId = id && a.locksJob)).isEmpty

/-- The attempt goes on to another phase. -/
def goto (w : World) (p : AttemptId) (a : Attempt) (phase : Phase) : World :=
  { w with attempts := w.attempts.put p { a with phase := phase } }

/-- The attempt returns, raises to arq or is lost. -/
def finish (w : World) (p : AttemptId) : World := { w with attempts := w.attempts.erase p }

def post (w : World) (id : JobId) (bucket : UserId × Period) (movement : Movement) : World :=
  { w with budget := ⟨id, bucket, movement⟩ :: w.budget }

end World

/-- The first transaction of ingest; an existing row keeps its `processed_at`. -/
def saveConversation (w : World) (id : ConversationId) (userId : UserId) : Option World :=
  if w.conversationLocked id then none
  else match w.conversations.get id with
    | some _ => some w
    | none => some { w with conversations := w.conversations.put id ⟨userId, none, 0⟩ }

/-- A granted pre-charge for a saved conversation. `id` becomes the job's id. -/
def preCharge (preChargeCents : Cents) (w : World) (id : JobId) (userId : UserId)
    (conversationId : ConversationId) (source : PyStr) (periodStart : Period) : Option World :=
  if w.jobs.get id = none ∧ w.requests.get id = none ∧ postingsOf w.budget id = [] ∧
      (w.conversations.get conversationId).map ConversationRow.userId = some userId then
    some ({ w with
      requests := w.requests.put id ⟨userId, conversationId, source, periodStart, false⟩ }.post id
        (userId, periodStart) (.preCharge preChargeCents))
  else none

/-- The second transaction of ingest commits its pending row. -/
def createJob (w : World) (id : JobId) (now : Time) : Option World :=
  (w.requests.get id).bind fun r =>
    if r.rolledBack then none
    else (createPending w.jobs id r.userId r.conversationId r.source r.periodStart now).map
      fun jobs => { w with jobs := jobs, requests := w.requests.erase id }

/-- The second transaction fails, for any reason. -/
def rollBackJob (w : World) (id : JobId) : Option World :=
  (w.requests.get id).bind fun r =>
    if r.rolledBack then none
    else some { w with requests := w.requests.put id { r with rolledBack := true } }

def refundPreCharge (preChargeCents : Cents) (w : World) (id : JobId) : Option World :=
  (w.requests.get id).bind fun r =>
    if r.rolledBack then
      some ({ w with requests := w.requests.erase id }.post id (r.userId, r.periodStart)
        (.actualCost 0 preChargeCents))
    else none

/-- arq dispatches the job, for the first time or again. -/
def beginAttempt (w : World) (p : AttemptId) (id : JobId) (currentPeriodStart : Period) :
    Option World :=
  if w.attempts.get p = none then
    (w.jobs.get id).map fun row => { w with
      attempts := w.attempts.put p
        { conversationId := row.conversationId, userId := row.userId, jobId := id,
          effectivePeriodStart := currentPeriodStart, periodStartKnown := false,
          phase := .started } }
  else none

/-- `_check_idempotent` on the first connection. -/
def firstCheck (w : World) (p : AttemptId) : Option World :=
  (w.attempts.get p).bind fun a =>
    match a.phase with
    | .started =>
      if (getProcessedAt w.conversations a.conversationId).isSome then some (w.finish p)
      else some (w.goto p a .checked)
    | _ => none

/-- `mark_running` and `get_period_start`, then the load, committed together. When
`mark_running` violates the unique index it raises, with the period not yet read. -/
def markRunningAndLoad (w : World) (p : AttemptId) (now : Time) : Option World :=
  (w.attempts.get p).bind fun a =>
    match a.phase, w.jobs.get a.jobId with
    | .checked, some row =>
      if (row.status = .pending ∨ row.status = .failed) ∧ w.jobLocked a.jobId then none
      else (markRunning w.jobs a.jobId now).map fun jobs => { w with jobs := jobs }.goto p
        { a with effectivePeriodStart := row.periodStart, periodStartKnown := true } .loaded
    | _, _ => none

/-- The load or the commit after it raises: `mark_running` is rolled back. The
period counts as known, but the one the attempt refunds to is still its own. -/
def loadFails (w : World) (p : AttemptId) (failure : Failure) : Option World :=
  (w.attempts.get p).bind fun a =>
    match a.phase, w.jobs.get a.jobId with
    | .checked, some _ => some (w.goto p { a with periodStartKnown := true } (.failing failure))
    | _, _ => none

/-- `mark_processed` of `_mark_skipped_no_topic`. -/
def skipMarkProcessed (w : World) (p : AttemptId) : Option World :=
  (w.attempts.get p).bind fun a =>
    match a.phase with
    | .loaded =>
      if unprocessed w.conversations a.conversationId ∧ w.conversationLocked a.conversationId then
        none
      else some (w.goto p a (.skipping (unprocessed w.conversations a.conversationId)))
    | _ => none

/-- `mark_completed` of `_mark_skipped_no_topic` and its commit. -/
def skipCommit (w : World) (p : AttemptId) (now : Time) : Option World :=
  (w.attempts.get p).bind fun a =>
    match a.phase with
    | .skipping marked =>
      if live w.jobs a.jobId ∧ w.jobLocked a.jobId then none
      else some ({ w with
        conversations :=
          if marked then markProcessed w.conversations a.conversationId now else w.conversations
        jobs := markCompleted w.jobs a.jobId 0 0 0 now }.goto p a .skipped)
    | _ => none

def refundSkipped (preChargeCents : Cents) (w : World) (p : AttemptId) : Option World :=
  (w.attempts.get p).bind fun a =>
    match a.phase with
    | .skipped => some ((w.finish p).post a.jobId (a.userId, a.effectivePeriodStart)
        (.actualCost 0 preChargeCents))
    | _ => none

/-- Both model calls have returned. -/
def extractEntries (w : World) (p : AttemptId) (draft : Draft) : Option World :=
  (w.attempts.get p).bind fun a =>
    match a.phase with
    | .loaded => some (w.goto p a (.extracted draft))
    | _ => none

/-- `_check_idempotent` on the second connection. -/
def secondCheck (w : World) (p : AttemptId) : Option World :=
  (w.attempts.get p).bind fun a =>
    match a.phase with
    | .extracted draft =>
      if (getProcessedAt w.conversations a.conversationId).isSome then some (w.finish p)
      else some (w.goto p a (.rechecked draft))
    | _ => none

/-- The entries, `mark_processed` and the audit row of `_persist_extraction`. -/
def persistEntries (w : World) (p : AttemptId) (topicsCreated : Nat) : Option World :=
  (w.attempts.get p).bind fun a =>
    match a.phase with
    | .rechecked draft =>
      if unprocessed w.conversations a.conversationId ∧ w.conversationLocked a.conversationId then
        none
      else some (w.goto p a
        (.persisted draft topicsCreated (unprocessed w.conversations a.conversationId)))
    | _ => none

/-- `mark_completed`, then the budget delta, still before the commit. -/
def completeAndRecord (preChargeCents : Cents) (w : World) (p : AttemptId) : Option World :=
  (w.attempts.get p).bind fun a =>
    match a.phase with
    | .persisted draft topicsCreated marked =>
      if live w.jobs a.jobId ∧ w.jobLocked a.jobId then none
      else some ((w.goto p a (.completed draft topicsCreated marked (live w.jobs a.jobId))).post
        a.jobId (a.userId, a.effectivePeriodStart) (.actualCost draft.centsSpent preChargeCents))
    | _ => none

def batchOf (w : World) (p : AttemptId) (a : Attempt) (draft : Draft) (marked : Bool) : Batch where
  conversationId := a.conversationId
  attemptId := p
  topicPath := draft.topicPath
  entries := draft.entries
  audit :=
    { targetId := a.conversationId, entriesCreated := draft.entries.length,
      extractionAttemptId := p }
  marked := marked
  epoch := match w.conversations.get a.conversationId with
    | some row => row.resets
    | none => 0

/-- The second transaction commits. -/
def commit (w : World) (p : AttemptId) (now : Time) : Option World :=
  (w.attempts.get p).bind fun a =>
    match a.phase with
    | .completed draft topicsCreated marked updated =>
      some ({ w with
        conversations :=
          if marked then markProcessed w.conversations a.conversationId now else w.conversations
        jobs :=
          if updated then
            markCompleted w.jobs a.jobId topicsCreated draft.entries.length draft.centsSpent now
          else w.jobs
        batches := batchOf w p a draft marked :: w.batches }.finish p)
    | _ => none

/-- An exception reaches the outer except block: what is not committed is rolled
back. Nothing is caught there after the settlement of a skip. -/
def raises (w : World) (p : AttemptId) (failure : Failure) : Option World :=
  (w.attempts.get p).bind fun a =>
    match a.phase with
    | .skipped | .failing _ | .settled _ _ => none
    | _ => some (w.goto p a (.failing failure))

/-- The refund of the except block, or the metric in its place. -/
def settleFailure (preChargeCents : Cents) (w : World) (p : AttemptId) : Option World :=
  (w.attempts.get p).bind fun a =>
    match a.phase with
    | .failing failure =>
      if a.periodStartKnown then
        some ((w.goto p a (.settled failure true)).post a.jobId
          (a.userId, a.effectivePeriodStart) (.actualCost 0 preChargeCents))
      else some { w.goto p a (.settled failure false) with
        refundsSkipped := a.jobId :: w.refundsSkipped }
    | _ => none

/-- `_mark_job_failed`, after which the exception is raised again. -/
def markJobFailed (w : World) (p : AttemptId) (now : Time) : Option World :=
  (w.attempts.get p).bind fun a =>
    match a.phase with
    | .settled failure _ =>
      if live w.jobs a.jobId ∧ w.jobLocked a.jobId then none
      else some ({ w with jobs := markFailed w.jobs a.jobId (classifyError failure) now }.finish p)
    | _ => none

/-- `_mark_job_failed` fails itself; the error is swallowed. -/
def markJobFailedErrors (w : World) (p : AttemptId) : Option World :=
  (w.attempts.get p).bind fun a =>
    match a.phase with
    | .settled _ _ => some (w.finish p)
    | _ => none

/-- The worker dies or arq cancels the job; an open transaction is rolled back. -/
def lose (w : World) (p : AttemptId) : Option World :=
  (w.attempts.get p).bind fun _ => some (w.finish p)

/-- One sweep statement of `run_orphan_cleanup`; it waits for a locked row. -/
def sweepRows (w : World) (kind : Sweep) (now : Time) : Option World :=
  if ∀ id ∈ sweptBy w.jobs kind now, w.jobLocked id = false then
    some { w with
      jobs := sweep w.jobs kind now
      sweptRows := sweptBy w.jobs kind now ++ w.sweptRows }
  else none

def refundSweptRow (preChargeCents : Cents) (w : World) (id : JobId) : Option World :=
  (w.jobs.get id).bind fun row =>
    if id ∈ w.sweptRows then
      some ({ w with sweptRows := w.sweptRows.erase id }.post id (row.userId, row.periodStart)
        (.actualCost 0 preChargeCents))
    else none

/-- An operator opens a conversation for another extraction. -/
def reset (w : World) (id : ConversationId) : Option World :=
  if w.conversationLocked id then none
  else some { w with conversations := resetProcessed w.conversations id }

inductive Action
  | saveConversation (id : ConversationId) (userId : UserId)
  | preCharge (id : JobId) (userId : UserId) (conversationId : ConversationId) (source : PyStr)
      (periodStart : Period)
  | createJob (id : JobId) (now : Time)
  | rollBackJob (id : JobId)
  | refundPreCharge (id : JobId)
  | beginAttempt (p : AttemptId) (id : JobId) (currentPeriodStart : Period)
  | firstCheck (p : AttemptId)
  | markRunningAndLoad (p : AttemptId) (now : Time)
  | loadFails (p : AttemptId) (failure : Failure)
  | skipMarkProcessed (p : AttemptId)
  | skipCommit (p : AttemptId) (now : Time)
  | refundSkipped (p : AttemptId)
  | extractEntries (p : AttemptId) (draft : Draft)
  | secondCheck (p : AttemptId)
  | persistEntries (p : AttemptId) (topicsCreated : Nat)
  | completeAndRecord (p : AttemptId)
  | commit (p : AttemptId) (now : Time)
  | raises (p : AttemptId) (failure : Failure)
  | settleFailure (p : AttemptId)
  | markJobFailed (p : AttemptId) (now : Time)
  | markJobFailedErrors (p : AttemptId)
  | lose (p : AttemptId)
  | sweepRows (kind : Sweep) (now : Time)
  | refundSweptRow (id : JobId)
  | reset (id : ConversationId)

def step (preChargeCents : Cents) (w : World) : Action → Option World
  | .saveConversation id userId => saveConversation w id userId
  | .preCharge id userId conversationId source periodStart =>
    preCharge preChargeCents w id userId conversationId source periodStart
  | .createJob id now => createJob w id now
  | .rollBackJob id => rollBackJob w id
  | .refundPreCharge id => refundPreCharge preChargeCents w id
  | .beginAttempt p id currentPeriodStart => beginAttempt w p id currentPeriodStart
  | .firstCheck p => firstCheck w p
  | .markRunningAndLoad p now => markRunningAndLoad w p now
  | .loadFails p failure => loadFails w p failure
  | .skipMarkProcessed p => skipMarkProcessed w p
  | .skipCommit p now => skipCommit w p now
  | .refundSkipped p => refundSkipped preChargeCents w p
  | .extractEntries p draft => extractEntries w p draft
  | .secondCheck p => secondCheck w p
  | .persistEntries p topicsCreated => persistEntries w p topicsCreated
  | .completeAndRecord p => completeAndRecord preChargeCents w p
  | .commit p now => commit w p now
  | .raises p failure => raises w p failure
  | .settleFailure p => settleFailure preChargeCents w p
  | .markJobFailed p now => markJobFailed w p now
  | .markJobFailedErrors p => markJobFailedErrors w p
  | .lose p => lose w p
  | .sweepRows kind now => sweepRows w kind now
  | .refundSweptRow id => refundSweptRow preChargeCents w id
  | .reset id => reset w id

/-- A saved conversation whose job is queued. -/
def queued : List Action :=
  [.saveConversation 1 7, .preCharge 1 7 1 [] 202605, .createJob 1 100]

def note : Draft := ⟨py "work/notes", [⟨py "met the team", [], [], none⟩], 3⟩

/-- One attempt up to its second idempotency check. -/
def untilSecondCheck (p : AttemptId) : List Action :=
  [.beginAttempt p 1 202605, .firstCheck p, .markRunningAndLoad p 200, .extractEntries p note,
    .secondCheck p]

def persistAndCommit (p : AttemptId) : List Action :=
  [.persistEntries p 0, .completeAndRecord p, .commit p 300]

-- Each lemma lists the states that an enabled step starts from and leads to, so that no
-- invariant proof unfolds a step again.

section Inversions
variable {preChargeCents : Cents} {w t : World}

theorem conversationLocked_eq_false {id : ConversationId} (free : w.conversationLocked id = false)
    {p : AttemptId} {a : Attempt} (hget : w.attempts.get p = some a)
    (hid : a.conversationId = id) : a.locksConversation = false := by
  cases hlock : a.locksConversation with
  | false => rfl
  | true =>
    have hmem : p ∈ w.attempts.keysWhere
        (fun _ a => a.conversationId = id && a.locksConversation) :=
      Table.mem_keysWhere.mpr ⟨a, hget, by simp [hid, hlock]⟩
    have hnone : w.attempts.keysWhere
        (fun _ a => a.conversationId = id && a.locksConversation) = [] := by
      simpa [World.conversationLocked] using free
    rw [hnone] at hmem
    cases hmem

theorem jobLocked_eq_false {id : JobId} (free : w.jobLocked id = false) {p : AttemptId}
    {a : Attempt} (hget : w.attempts.get p = some a) (hid : a.jobId = id) :
    a.locksJob = false := by
  cases hlock : a.locksJob with
  | false => rfl
  | true =>
    have hmem : p ∈ w.attempts.keysWhere (fun _ a => a.jobId = id && a.locksJob) :=
      Table.mem_keysWhere.mpr ⟨a, hget, by simp [hid, hlock]⟩
    have hnone : w.attempts.keysWhere (fun _ a => a.jobId = id && a.locksJob) = [] := by
      simpa [World.jobLocked] using free
    rw [hnone] at hmem
    cases hmem

theorem saveConversation_some {id : ConversationId} {userId : UserId}
    (h : saveConversation w id userId = some t) :
    t = w ∨ (w.conversations.get id = none ∧
      t = { w with conversations := w.conversations.put id ⟨userId, none, 0⟩ }) := by
  unfold saveConversation at h
  split at h
  · cases h
  · split at h
    · cases h
      exact Or.inl rfl
    · rename_i absent
      cases h
      exact Or.inr ⟨absent, rfl⟩

theorem preCharge_some {id : JobId} {userId : UserId} {conversationId : ConversationId}
    {source : PyStr} {periodStart : Period}
    (h : preCharge preChargeCents w id userId conversationId source periodStart = some t) :
    w.jobs.get id = none ∧ w.requests.get id = none ∧ postingsOf w.budget id = [] ∧
      t = { w with
        requests := w.requests.put id ⟨userId, conversationId, source, periodStart, false⟩
        budget := ⟨id, (userId, periodStart), .preCharge preChargeCents⟩ :: w.budget } := by
  unfold preCharge at h
  split at h
  · rename_i fresh
    cases h
    exact ⟨fresh.1, fresh.2.1, fresh.2.2.1, rfl⟩
  · cases h

theorem createJob_some {id : JobId} {now : Time} (h : createJob w id now = some t) :
    ∃ r, w.requests.get id = some r ∧ r.rolledBack = false ∧
      t = { w with
        jobs := w.jobs.put id
          (pendingRow r.userId r.conversationId r.source r.periodStart now)
        requests := w.requests.erase id } := by
  obtain ⟨r, hget, h⟩ := Option.bind_eq_some_iff.mp h
  split at h
  · cases h
  · rename_i waiting
    obtain ⟨jobs, hjobs, rfl⟩ := Option.map_eq_some_iff.mp h
    unfold createPending at hjobs
    split at hjobs
    · cases hjobs
      exact ⟨r, hget, by simpa using waiting, rfl⟩
    · cases hjobs

theorem rollBackJob_some {id : JobId} (h : rollBackJob w id = some t) :
    ∃ r, w.requests.get id = some r ∧ r.rolledBack = false ∧
      t = { w with requests := w.requests.put id { r with rolledBack := true } } := by
  obtain ⟨r, hget, h⟩ := Option.bind_eq_some_iff.mp h
  split at h
  · cases h
  · rename_i waiting
    cases h
    exact ⟨r, hget, by simpa using waiting, rfl⟩

theorem refundPreCharge_some {id : JobId} (h : refundPreCharge preChargeCents w id = some t) :
    ∃ r, w.requests.get id = some r ∧ r.rolledBack = true ∧
      t = { w with
        requests := w.requests.erase id
        budget := ⟨id, (r.userId, r.periodStart), .actualCost 0 preChargeCents⟩ :: w.budget } := by
  obtain ⟨r, hget, h⟩ := Option.bind_eq_some_iff.mp h
  split at h
  · rename_i due
    cases h
    exact ⟨r, hget, due, rfl⟩
  · cases h

theorem beginAttempt_some {p : AttemptId} {id : JobId} {currentPeriodStart : Period}
    (h : beginAttempt w p id currentPeriodStart = some t) :
    ∃ row, w.attempts.get p = none ∧ w.jobs.get id = some row ∧
      t = { w with
        attempts := w.attempts.put p
          { conversationId := row.conversationId, userId := row.userId, jobId := id,
            effectivePeriodStart := currentPeriodStart, periodStartKnown := false,
            phase := .started } } := by
  unfold beginAttempt at h
  split at h
  · rename_i absent
    obtain ⟨row, hrow, rfl⟩ := Option.map_eq_some_iff.mp h
    exact ⟨row, absent, hrow, rfl⟩
  · cases h

theorem firstCheck_some {p : AttemptId} (h : firstCheck w p = some t) :
    ∃ a, w.attempts.get p = some a ∧ a.phase = .started ∧
      (t = w.finish p ∨ t = w.goto p a .checked) := by
  obtain ⟨a, hget, h⟩ := Option.bind_eq_some_iff.mp h
  split at h
  · rename_i hphase
    split at h
    · cases h
      exact ⟨a, hget, hphase, Or.inl rfl⟩
    · cases h
      exact ⟨a, hget, hphase, Or.inr rfl⟩
  · cases h

theorem markRunningAndLoad_some {p : AttemptId} {now : Time}
    (h : markRunningAndLoad w p now = some t) :
    ∃ a row, w.attempts.get p = some a ∧ a.phase = .checked ∧ w.jobs.get a.jobId = some row ∧
      t = { w with jobs := w.jobs.modify a.jobId (JobRow.markRunning now) }.goto p
        { a with effectivePeriodStart := row.periodStart, periodStartKnown := true } .loaded := by
  obtain ⟨a, hget, h⟩ := Option.bind_eq_some_iff.mp h
  split at h
  · rename_i row hphase hrow
    split at h
    · cases h
    · obtain ⟨jobs, hjobs, rfl⟩ := Option.map_eq_some_iff.mp h
      obtain rfl := markRunning_some hrow hjobs
      exact ⟨a, row, hget, hphase, hrow, rfl⟩
  · cases h

theorem loadFails_some {p : AttemptId} {failure : Failure} (h : loadFails w p failure = some t) :
    ∃ a, w.attempts.get p = some a ∧ a.phase = .checked ∧
      t = w.goto p { a with periodStartKnown := true } (.failing failure) := by
  obtain ⟨a, hget, h⟩ := Option.bind_eq_some_iff.mp h
  split at h
  · rename_i hphase _
    cases h
    exact ⟨a, hget, hphase, rfl⟩
  · cases h

theorem skipMarkProcessed_some {p : AttemptId} (h : skipMarkProcessed w p = some t) :
    ∃ a, w.attempts.get p = some a ∧ a.phase = .loaded ∧
      (unprocessed w.conversations a.conversationId = true →
        w.conversationLocked a.conversationId = false) ∧
      t = w.goto p a (.skipping (unprocessed w.conversations a.conversationId)) := by
  obtain ⟨a, hget, h⟩ := Option.bind_eq_some_iff.mp h
  split at h
  · rename_i hphase
    split at h
    · cases h
    · rename_i free
      cases h
      exact ⟨a, hget, hphase, by simpa using free, rfl⟩
  · cases h

theorem skipCommit_some {p : AttemptId} {now : Time} (h : skipCommit w p now = some t) :
    ∃ a marked, w.attempts.get p = some a ∧ a.phase = .skipping marked ∧
      (live w.jobs a.jobId = true → w.jobLocked a.jobId = false) ∧
      t = { w with
        conversations :=
          if marked then markProcessed w.conversations a.conversationId now else w.conversations
        jobs := markCompleted w.jobs a.jobId 0 0 0 now }.goto p a .skipped := by
  obtain ⟨a, hget, h⟩ := Option.bind_eq_some_iff.mp h
  split at h
  · rename_i marked hphase
    split at h
    · cases h
    · rename_i free
      cases h
      exact ⟨a, marked, hget, hphase, by simpa using free, rfl⟩
  · cases h

theorem refundSkipped_some {p : AttemptId} (h : refundSkipped preChargeCents w p = some t) :
    ∃ a, w.attempts.get p = some a ∧ a.phase = .skipped ∧
      t = (w.finish p).post a.jobId (a.userId, a.effectivePeriodStart)
        (.actualCost 0 preChargeCents) := by
  obtain ⟨a, hget, h⟩ := Option.bind_eq_some_iff.mp h
  split at h
  · rename_i hphase
    cases h
    exact ⟨a, hget, hphase, rfl⟩
  · cases h

theorem extractEntries_some {p : AttemptId} {draft : Draft}
    (h : extractEntries w p draft = some t) :
    ∃ a, w.attempts.get p = some a ∧ a.phase = .loaded ∧ t = w.goto p a (.extracted draft) := by
  obtain ⟨a, hget, h⟩ := Option.bind_eq_some_iff.mp h
  split at h
  · rename_i hphase
    cases h
    exact ⟨a, hget, hphase, rfl⟩
  · cases h

theorem secondCheck_some {p : AttemptId} (h : secondCheck w p = some t) :
    ∃ a draft, w.attempts.get p = some a ∧ a.phase = .extracted draft ∧
      (t = w.finish p ∨ t = w.goto p a (.rechecked draft)) := by
  obtain ⟨a, hget, h⟩ := Option.bind_eq_some_iff.mp h
  split at h
  · rename_i draft hphase
    split at h
    · cases h
      exact ⟨a, draft, hget, hphase, Or.inl rfl⟩
    · cases h
      exact ⟨a, draft, hget, hphase, Or.inr rfl⟩
  · cases h

theorem persistEntries_some {p : AttemptId} {topicsCreated : Nat}
    (h : persistEntries w p topicsCreated = some t) :
    ∃ a draft, w.attempts.get p = some a ∧ a.phase = .rechecked draft ∧
      (unprocessed w.conversations a.conversationId = true →
        w.conversationLocked a.conversationId = false) ∧
      t = w.goto p a (.persisted draft topicsCreated
        (unprocessed w.conversations a.conversationId)) := by
  obtain ⟨a, hget, h⟩ := Option.bind_eq_some_iff.mp h
  split at h
  · rename_i draft hphase
    split at h
    · cases h
    · rename_i free
      cases h
      exact ⟨a, draft, hget, hphase, by simpa using free, rfl⟩
  · cases h

theorem completeAndRecord_some {p : AttemptId}
    (h : completeAndRecord preChargeCents w p = some t) :
    ∃ a draft topicsCreated marked, w.attempts.get p = some a ∧
      a.phase = .persisted draft topicsCreated marked ∧
      (live w.jobs a.jobId = true → w.jobLocked a.jobId = false) ∧
      t = (w.goto p a (.completed draft topicsCreated marked (live w.jobs a.jobId))).post a.jobId
        (a.userId, a.effectivePeriodStart) (.actualCost draft.centsSpent preChargeCents) := by
  obtain ⟨a, hget, h⟩ := Option.bind_eq_some_iff.mp h
  split at h
  · rename_i draft topicsCreated marked hphase
    split at h
    · cases h
    · rename_i free
      cases h
      exact ⟨a, draft, topicsCreated, marked, hget, hphase, by simpa using free, rfl⟩
  · cases h

theorem commit_some {p : AttemptId} {now : Time} (h : commit w p now = some t) :
    ∃ a draft topicsCreated marked updated, w.attempts.get p = some a ∧
      a.phase = .completed draft topicsCreated marked updated ∧
      t = { w with
        conversations :=
          if marked then markProcessed w.conversations a.conversationId now else w.conversations
        jobs :=
          if updated then
            markCompleted w.jobs a.jobId topicsCreated draft.entries.length draft.centsSpent now
          else w.jobs
        batches := batchOf w p a draft marked :: w.batches }.finish p := by
  obtain ⟨a, hget, h⟩ := Option.bind_eq_some_iff.mp h
  split at h
  · rename_i draft topicsCreated marked updated hphase
    cases h
    exact ⟨a, draft, topicsCreated, marked, updated, hget, hphase, rfl⟩
  · cases h

/-- The phases whose exceptions reach the except block. -/
def Phase.caught : Phase → Bool
  | .skipped | .failing _ | .settled _ _ => false
  | _ => true

theorem raises_some {p : AttemptId} {failure : Failure} (h : raises w p failure = some t) :
    ∃ a, w.attempts.get p = some a ∧ a.phase.caught = true ∧
      t = w.goto p a (.failing failure) := by
  obtain ⟨a, hget, h⟩ := Option.bind_eq_some_iff.mp h
  refine ⟨a, hget, ?_⟩
  cases hphase : a.phase <;> simp only [hphase, Option.some.injEq, reduceCtorEq] at h
  all_goals exact ⟨rfl, h.symm⟩

theorem settleFailure_some {p : AttemptId} (h : settleFailure preChargeCents w p = some t) :
    ∃ a failure, w.attempts.get p = some a ∧ a.phase = .failing failure ∧
      ((a.periodStartKnown = true ∧
          t = (w.goto p a (.settled failure true)).post a.jobId
            (a.userId, a.effectivePeriodStart) (.actualCost 0 preChargeCents)) ∨
        (a.periodStartKnown = false ∧
          t = { w.goto p a (.settled failure false) with
            refundsSkipped := a.jobId :: w.refundsSkipped })) := by
  obtain ⟨a, hget, h⟩ := Option.bind_eq_some_iff.mp h
  split at h
  · rename_i failure hphase
    split at h
    · rename_i known
      cases h
      exact ⟨a, failure, hget, hphase, Or.inl ⟨known, rfl⟩⟩
    · rename_i unknown
      cases h
      exact ⟨a, failure, hget, hphase, Or.inr ⟨by simpa using unknown, rfl⟩⟩
  · cases h

theorem markJobFailed_some {p : AttemptId} {now : Time} (h : markJobFailed w p now = some t) :
    ∃ a failure refunded, w.attempts.get p = some a ∧ a.phase = .settled failure refunded ∧
      (live w.jobs a.jobId = true → w.jobLocked a.jobId = false) ∧
      t = { w with jobs := markFailed w.jobs a.jobId (classifyError failure) now }.finish p := by
  obtain ⟨a, hget, h⟩ := Option.bind_eq_some_iff.mp h
  split at h
  · rename_i failure refunded hphase
    split at h
    · cases h
    · rename_i free
      cases h
      exact ⟨a, failure, refunded, hget, hphase, by simpa using free, rfl⟩
  · cases h

theorem markJobFailedErrors_some {p : AttemptId} (h : markJobFailedErrors w p = some t) :
    ∃ a failure refunded, w.attempts.get p = some a ∧ a.phase = .settled failure refunded ∧
      t = w.finish p := by
  obtain ⟨a, hget, h⟩ := Option.bind_eq_some_iff.mp h
  split at h
  · rename_i failure refunded hphase
    cases h
    exact ⟨a, failure, refunded, hget, hphase, rfl⟩
  · cases h

theorem lose_some {p : AttemptId} (h : lose w p = some t) :
    ∃ a, w.attempts.get p = some a ∧ t = w.finish p := by
  obtain ⟨a, hget, h⟩ := Option.bind_eq_some_iff.mp h
  cases h
  exact ⟨a, hget, rfl⟩

theorem sweepRows_some {kind : Sweep} {now : Time} (h : sweepRows w kind now = some t) :
    t = { w with
      jobs := sweep w.jobs kind now
      sweptRows := sweptBy w.jobs kind now ++ w.sweptRows } := by
  unfold sweepRows at h
  split at h
  · cases h
    rfl
  · cases h

theorem refundSweptRow_some {id : JobId} (h : refundSweptRow preChargeCents w id = some t) :
    ∃ row, w.jobs.get id = some row ∧ id ∈ w.sweptRows ∧
      t = { w with sweptRows := w.sweptRows.erase id }.post id (row.userId, row.periodStart)
        (.actualCost 0 preChargeCents) := by
  obtain ⟨row, hrow, h⟩ := Option.bind_eq_some_iff.mp h
  split at h
  · rename_i due
    cases h
    exact ⟨row, hrow, due, rfl⟩
  · cases h

theorem reset_some {id : ConversationId} (h : reset w id = some t) :
    w.conversationLocked id = false ∧
      t = { w with conversations := resetProcessed w.conversations id } := by
  unfold reset at h
  split at h
  · cases h
  · rename_i free
    cases h
    exact ⟨by simpa using free, rfl⟩

end Inversions

end ExtractConversation
