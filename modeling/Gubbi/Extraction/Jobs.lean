import Gubbi.Library.KeyedTable
import Gubbi.Text
import Mathlib.Algebra.Ring.Int.Defs

/-!
# Rows that an extraction touches

The `extraction_jobs` rows with the statements that move them through their
states, the `processed_at` column of `conversations`, and the budget buckets in
Redis. A status statement has its guard in its WHERE clause, so it is a no-op on
a row the guard excludes.
-/

namespace ExtractionJobs

open Text

abbrev UserId := Nat
abbrev ConversationId := Nat
abbrev JobId := Nat
/-- A billing period, by its first day. -/
abbrev Period := Nat
/-- A timestamp, in seconds. -/
abbrev Time := Nat
/-- Budget amounts are whole cents; a refund is a negative amount. -/
abbrev Cents := Int

inductive Status
  | pending
  | running
  | completed
  | failed
  deriving DecidableEq, Repr

/-- `status IN ('completed', 'failed')`. -/
def Status.terminal : Status → Bool
  | .completed | .failed => true
  | .pending | .running => false

inductive ErrorCode
  | enqueueLost
  | workerLost
  | llmRateLimited
  | llmProviderError
  | internalError
  deriving DecidableEq, Repr

structure JobRow where
  userId : UserId
  conversationId : ConversationId
  source : PyStr
  status : Status
  errorCode : Option ErrorCode
  topicsCreated : Nat
  entriesCreated : Nat
  centsSpent : Cents
  periodStart : Period
  createdAt : Time
  startedAt : Option Time
  completedAt : Option Time
  deriving DecidableEq

/-- The bucket a job is charged to. -/
def JobRow.bucket (row : JobRow) : UserId × Period := (row.userId, row.periodStart)

abbrev Jobs := Table JobId JobRow

/-- The rows that `idx_extraction_jobs_active_per_conversation` keeps unique. -/
def activeJobs (jobs : Jobs) (userId : UserId) (conversationId : ConversationId)
    (source : PyStr) : List JobId :=
  jobs.keysWhere (fun _ row => row.userId = userId && row.conversationId = conversationId &&
    row.source = source && !row.status.terminal)

def pendingRow (userId : UserId) (conversationId : ConversationId) (source : PyStr)
    (periodStart : Period) (now : Time) : JobRow where
  userId := userId
  conversationId := conversationId
  source := source
  status := .pending
  errorCode := none
  topicsCreated := 0
  entriesCreated := 0
  centsSpent := 0
  periodStart := periodStart
  createdAt := now
  startedAt := none
  completedAt := none

/-- `INSERT` of a pending row; `none` when the unique index fires. The lookup of
the existing job that follows it runs in the aborted transaction and fails too. -/
def createPending (jobs : Jobs) (id : JobId) (userId : UserId)
    (conversationId : ConversationId) (source : PyStr) (periodStart : Period) (now : Time) :
    Option Jobs :=
  if activeJobs jobs userId conversationId source = [] then
    some (jobs.put id (pendingRow userId conversationId source periodStart now))
  else none

def getPeriodStart (jobs : Jobs) (id : JobId) : Option Period :=
  (jobs.get id).map JobRow.periodStart

def JobRow.markRunning (now : Time) (row : JobRow) : JobRow :=
  if row.status = .pending ∨ row.status = .failed then
    { row with status := .running, startedAt := some now, errorCode := none }
  else row

/-- `none` when reviving a failed row violates the unique index. -/
def markRunning (jobs : Jobs) (id : JobId) (now : Time) : Option Jobs :=
  match jobs.get id with
  | some row =>
    if row.status = .failed ∧
        activeJobs jobs row.userId row.conversationId row.source ≠ [] then none
    else some (jobs.modify id (JobRow.markRunning now))
  | none => some jobs

def JobRow.markCompleted (topicsCreated entriesCreated : Nat) (centsSpent : Cents) (now : Time)
    (row : JobRow) : JobRow :=
  if row.status.terminal then row
  else { row with
    status := .completed
    topicsCreated := topicsCreated
    entriesCreated := entriesCreated
    centsSpent := centsSpent
    completedAt := some now }

def markCompleted (jobs : Jobs) (id : JobId) (topicsCreated entriesCreated : Nat)
    (centsSpent : Cents) (now : Time) : Jobs :=
  jobs.modify id (JobRow.markCompleted topicsCreated entriesCreated centsSpent now)

def JobRow.markFailed (errorCode : ErrorCode) (now : Time) (row : JobRow) : JobRow :=
  if row.status.terminal then row
  else { row with status := .failed, errorCode := some errorCode, completedAt := some now }

def markFailed (jobs : Jobs) (id : JobId) (errorCode : ErrorCode) (now : Time) : Jobs :=
  jobs.modify id (JobRow.markFailed errorCode now)

/-- `status NOT IN ('completed', 'failed')` of an existing row: what the status
statements that end a job update. -/
def live (jobs : Jobs) (id : JobId) : Bool :=
  match jobs.get id with
  | some row => !row.status.terminal
  | none => false

def arqJobTimeoutSecs : Nat := 600

def runningThresholdSecs : Nat := 2 * arqJobTimeoutSecs

inductive Sweep
  | pending (thresholdMinutes : Nat)
  | running
  deriving DecidableEq, Repr

/-- The WHERE clause of a sweep; a row that never ran has no `started_at` to compare. -/
def Sweep.finds (kind : Sweep) (now : Time) (row : JobRow) : Bool :=
  match kind with
  | .pending thresholdMinutes =>
    row.status = .pending && row.createdAt + 60 * thresholdMinutes < now
  | .running =>
    row.status = .running &&
      row.startedAt.any (fun startedAt => startedAt + runningThresholdSecs < now)

def Sweep.errorCode : Sweep → ErrorCode
  | .pending _ => .enqueueLost
  | .running => .workerLost

/-- The rows that a sweep returns. -/
def sweptBy (jobs : Jobs) (kind : Sweep) (now : Time) : List JobId :=
  jobs.keysWhere (fun _ row => kind.finds now row)

def JobRow.sweep (kind : Sweep) (now : Time) (row : JobRow) : JobRow :=
  if kind.finds now row then
    { row with status := .failed, errorCode := some kind.errorCode, completedAt := some now }
  else row

def sweep (jobs : Jobs) (kind : Sweep) (now : Time) : Jobs :=
  jobs.update (fun _ row => row.sweep kind now)

section Statements
variable {row : JobRow} {now : Time}

theorem markRunning_some {jobs jobs' : Jobs} {id : JobId} (hrow : jobs.get id = some row)
    (h : markRunning jobs id now = some jobs') :
    jobs' = jobs.modify id (JobRow.markRunning now) := by
  simp only [markRunning, hrow] at h
  split at h
  · cases h
  · cases h
    rfl

theorem JobRow.markRunning_of_live (unfinished : row.status.terminal = false) :
    (row.markRunning now).status.terminal = false := by
  unfold JobRow.markRunning
  split
  · rfl
  · exact unfinished

theorem JobRow.markRunning_of_completed (done : row.status = .completed) :
    row.markRunning now = row := by
  simp [JobRow.markRunning, done]

theorem JobRow.markRunning_of_failed (failed : row.status = .failed) :
    (row.markRunning now).status = .running := by
  simp [JobRow.markRunning, failed]

@[simp] theorem JobRow.markRunning_bucket : (row.markRunning now).bucket = row.bucket := by
  unfold JobRow.markRunning
  split <;> rfl

theorem JobRow.markCompleted_of_live {topicsCreated entriesCreated : Nat} {centsSpent : Cents}
    (unfinished : row.status.terminal = false) :
    (row.markCompleted topicsCreated entriesCreated centsSpent now).status = .completed ∧
      (row.markCompleted topicsCreated entriesCreated centsSpent now).centsSpent =
        centsSpent := by
  simp [JobRow.markCompleted, unfinished]

theorem JobRow.markCompleted_of_terminal {topicsCreated entriesCreated : Nat}
    {centsSpent : Cents} (ended : row.status.terminal = true) :
    row.markCompleted topicsCreated entriesCreated centsSpent now = row := by
  simp [JobRow.markCompleted, ended]

@[simp] theorem JobRow.markCompleted_bucket {topicsCreated entriesCreated : Nat}
    {centsSpent : Cents} :
    (row.markCompleted topicsCreated entriesCreated centsSpent now).bucket = row.bucket := by
  unfold JobRow.markCompleted
  split <;> rfl

theorem JobRow.markFailed_of_live {errorCode : ErrorCode}
    (unfinished : row.status.terminal = false) :
    (row.markFailed errorCode now).status = .failed := by
  simp [JobRow.markFailed, unfinished]

theorem JobRow.markFailed_of_terminal {errorCode : ErrorCode} (ended : row.status.terminal = true) :
    row.markFailed errorCode now = row := by
  simp [JobRow.markFailed, ended]

@[simp] theorem JobRow.markFailed_bucket {errorCode : ErrorCode} :
    (row.markFailed errorCode now).bucket = row.bucket := by
  unfold JobRow.markFailed
  split <;> rfl

@[simp] theorem JobRow.sweep_bucket {kind : Sweep} : (row.sweep kind now).bucket = row.bucket := by
  unfold JobRow.sweep
  split <;> rfl

/-- A sweep only finds rows that have not ended. -/
theorem Sweep.live_of_finds {kind : Sweep} (found : kind.finds now row = true) :
    row.status.terminal = false := by
  cases kind with
  | pending thresholdMinutes =>
    simp only [Sweep.finds, Bool.and_eq_true, decide_eq_true_eq] at found
    rw [found.1]
    rfl
  | running =>
    simp only [Sweep.finds, Bool.and_eq_true, decide_eq_true_eq] at found
    rw [found.1]
    rfl

theorem mem_sweptBy {jobs : Jobs} {kind : Sweep} {id : JobId} (hrow : jobs.get id = some row) :
    id ∈ sweptBy jobs kind now ↔ kind.finds now row = true := by
  simp [sweptBy, Table.mem_keysWhere, hrow]

theorem sweep_get (jobs : Jobs) (kind : Sweep) (now : Time) (id : JobId) :
    (sweep jobs kind now).get id = (jobs.get id).map (JobRow.sweep kind now) :=
  Table.get_update _ _ _

theorem Status.terminal_iff {status : Status} :
    status.terminal = true ↔ status = .completed ∨ status = .failed := by
  cases status <;> simp [Status.terminal]

theorem live_iff {jobs : Jobs} {id : JobId} (hrow : jobs.get id = some row) :
    live jobs id = true ↔ row.status.terminal = false := by
  simp [live, hrow]

end Statements

/-- `resets` counts how often the row was opened for another extraction. -/
structure ConversationRow where
  userId : UserId
  processedAt : Option Time
  resets : Nat
  deriving DecidableEq

abbrev Conversations := Table ConversationId ConversationRow

def getProcessedAt (conversations : Conversations) (id : ConversationId) : Option Time :=
  (conversations.get id).bind ConversationRow.processedAt

/-- `processed_at IS NULL` of an existing row. -/
def unprocessed (conversations : Conversations) (id : ConversationId) : Bool :=
  match conversations.get id with
  | some row => row.processedAt = none
  | none => false

def ConversationRow.markProcessed (now : Time) (row : ConversationRow) : ConversationRow :=
  if row.processedAt = none then { row with processedAt := some now } else row

def markProcessed (conversations : Conversations) (id : ConversationId) (now : Time) :
    Conversations :=
  conversations.modify id (ConversationRow.markProcessed now)

/-- `processed_at` set back to NULL, so that the conversation is extracted again. -/
def resetProcessed (conversations : Conversations) (id : ConversationId) : Conversations :=
  conversations.modify id (fun row => { row with processedAt := none, resets := row.resets + 1 })

/-- What a helper call adds to a bucket. -/
inductive Movement
  | preCharge (estimatedCents : Cents)
  | actualCost (actualCents estimatedCents : Cents)
  deriving DecidableEq, Repr

def Movement.delta : Movement → Cents
  | .preCharge estimatedCents => estimatedCents
  | .actualCost actualCents estimatedCents => actualCents - estimatedCents

def Movement.settles : Movement → Bool
  | .preCharge _ => false
  | .actualCost _ _ => true

/-- A bucket change, with the job (or the job to be) that it is made for. -/
structure Posting where
  jobId : JobId
  bucket : UserId × Period
  movement : Movement
  deriving DecidableEq, Repr

/-- Bucket changes, newest first. -/
abbrev Budget := List Posting

def postingsOf (budget : Budget) (id : JobId) : Budget :=
  budget.filter (fun posting => posting.jobId = id)

/-- The sum of a job's deltas. -/
def jobDelta (budget : Budget) (id : JobId) : Cents :=
  ((postingsOf budget id).map (fun posting => posting.movement.delta)).sum

/-- How often the pre-charge of a job was settled. -/
def settlements (budget : Budget) (id : JobId) : Nat :=
  (postingsOf budget id).countP (fun posting => posting.movement.settles)

end ExtractionJobs
