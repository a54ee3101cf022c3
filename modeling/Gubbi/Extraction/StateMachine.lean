import Gubbi.Extraction.Jobs
import Gubbi.Library.Replay

/-!
# The state machine of extraction jobs

The statements that write `extraction_jobs`, each at a time of its own and in
any order. Six of them move a row through its states, and the partial unique
index refuses a second unfinished row of one user, conversation and source.
-/

namespace JobStateMachine

open Text ExtractionJobs

/-- `GREATEST(counter, $2)`, or the counter itself when the argument is NULL. -/
def greatest (counter : Nat) (argument : Option Int) : Nat :=
  match argument with
  | none => counter
  | some value => (max (counter : Int) value).toNat

def updateProgressRow (topicsCreated entriesCreated : Option Int) (row : JobRow) : JobRow :=
  if row.status.terminal then row
  else { row with
    topicsCreated := greatest row.topicsCreated topicsCreated
    entriesCreated := greatest row.entriesCreated entriesCreated }

def updateProgress (jobs : Jobs) (id : JobId) (topicsCreated entriesCreated : Option Int) :
    Jobs :=
  if topicsCreated.isNone && entriesCreated.isNone then jobs
  else jobs.modify id (updateProgressRow topicsCreated entriesCreated)

inductive Statement
  | createPending (id : JobId) (userId : UserId) (conversationId : ConversationId)
      (source : PyStr) (periodStart : Period) (now : Time)
  | markRunning (id : JobId) (now : Time)
  | updateProgress (id : JobId) (topicsCreated entriesCreated : Option Int)
  | markCompleted (id : JobId) (topicsCreated entriesCreated : Nat) (centsSpent : Cents)
      (now : Time)
  | markFailed (id : JobId) (errorCode : ErrorCode) (now : Time)
  | sweep (kind : Sweep) (now : Time)

/-- One statement in a transaction of its own: one that raises is rolled back.
The identifier of a new row is a fresh UUID. -/
def apply (jobs : Jobs) : Statement → Option Jobs
  | .createPending id userId conversationId source periodStart now =>
    if jobs.get id = none then
      some ((createPending jobs id userId conversationId source periodStart now).getD jobs)
    else none
  | .markRunning id now => some ((markRunning jobs id now).getD jobs)
  | .updateProgress id topicsCreated entriesCreated =>
    some (JobStateMachine.updateProgress jobs id topicsCreated entriesCreated)
  | .markCompleted id topicsCreated entriesCreated centsSpent now =>
    some (markCompleted jobs id topicsCreated entriesCreated centsSpent now)
  | .markFailed id errorCode now => some (markFailed jobs id errorCode now)
  | .sweep kind now => some (ExtractionJobs.sweep jobs kind now)

/-- The row that a statement makes of a row it does not refuse to touch. -/
def rowAfter (id : JobId) : Statement → JobRow → JobRow
  | .createPending _ _ _ _ _ _, row => row
  | .markRunning target now, row => if id = target then row.markRunning now else row
  | .updateProgress target topicsCreated entriesCreated, row =>
    if id = target then updateProgressRow topicsCreated entriesCreated row else row
  | .markCompleted target topicsCreated entriesCreated centsSpent now, row =>
    if id = target then row.markCompleted topicsCreated entriesCreated centsSpent now else row
  | .markFailed target errorCode now, row =>
    if id = target then row.markFailed errorCode now else row
  | .sweep kind now, row => row.sweep kind now

def Statement.inserts : Statement → Bool
  | .createPending _ _ _ _ _ _ => true
  | _ => false

/-- A revival that the unique index refuses. -/
def Refused (jobs : Jobs) (id : JobId) : Prop :=
  ∃ row, jobs.get id = some row ∧ row.status = .failed ∧
    activeJobs jobs row.userId row.conversationId row.source ≠ []

section Rows
variable {jobs jobs' : Jobs}

theorem updateProgressRow_none (row : JobRow) : updateProgressRow none none row = row := by
  unfold updateProgressRow
  split <;> rfl

theorem updateProgress_eq (jobs : Jobs) (id : JobId) (topicsCreated entriesCreated : Option Int) :
    JobStateMachine.updateProgress jobs id topicsCreated entriesCreated =
      jobs.modify id (updateProgressRow topicsCreated entriesCreated) := by
  cases topicsCreated with
  | some value => rfl
  | none =>
    cases entriesCreated with
    | some value => rfl
    | none =>
      have same : updateProgressRow none none = fun row => row := funext updateProgressRow_none
      rw [same, Table.modify_same]
      rfl

theorem markRunning_refused {id : JobId} {now : Time} :
    markRunning jobs id now = none ↔ Refused jobs id := by
  rw [markRunning]
  cases hrow : jobs.get id with
  | none => simp [Refused, hrow]
  | some row =>
    by_cases refused : row.status = .failed ∧
        activeJobs jobs row.userId row.conversationId row.source ≠ []
    · simp only [if_pos refused, true_iff]
      exact ⟨row, hrow, refused⟩
    · simp only [if_neg refused, reduceCtorEq, false_iff]
      rintro ⟨row', hrow', refused'⟩
      rw [hrow] at hrow'
      obtain rfl : row = row' := Option.some.inj hrow'
      exact refused refused'

/-- What one statement can do: insert one pending row, leave the table alone, or
rewrite the rows it finds. -/
theorem apply_cases {statement : Statement} (applied : apply jobs statement = some jobs') :
    (∃ id userId conversationId source periodStart now,
      statement = .createPending id userId conversationId source periodStart now ∧
      jobs.get id = none ∧ activeJobs jobs userId conversationId source = [] ∧
      jobs' = jobs.put id (pendingRow userId conversationId source periodStart now)) ∨
    (jobs' = jobs ∧ (statement.inserts = true ∨
      ∃ id now, statement = .markRunning id now ∧ Refused jobs id)) ∨
    (statement.inserts = false ∧ (∀ id, jobs'.get id = (jobs.get id).map (rowAfter id statement)) ∧
      ∀ id now, statement = .markRunning id now → ¬ Refused jobs id) := by
  have modified : ∀ (id : JobId) (f : JobRow → JobRow) (key : JobId),
      (jobs.modify id f).get key =
        (jobs.get key).map (fun row => if key = id then f row else row) := by
    intro id f key
    rw [Table.get_modify]
    by_cases hkey : key = id
    · simp only [hkey, if_true]
    · simp only [hkey, if_false, Option.map_id']
  cases statement with
  | createPending id userId conversationId source periodStart now =>
    by_cases fresh : jobs.get id = none
    · rw [apply, if_pos fresh, Option.some.injEq] at applied
      by_cases free : activeJobs jobs userId conversationId source = []
      · rw [createPending, if_pos free] at applied
        exact Or.inl ⟨id, userId, conversationId, source, periodStart, now, rfl, fresh, free,
          applied.symm⟩
      · rw [createPending, if_neg free] at applied
        exact Or.inr (Or.inl ⟨applied.symm, Or.inl rfl⟩)
    · rw [apply, if_neg fresh] at applied
      cases applied
  | markRunning id now =>
    rw [apply, Option.some.injEq] at applied
    cases hrun : markRunning jobs id now with
    | none =>
      rw [hrun] at applied
      exact Or.inr (Or.inl ⟨applied.symm, Or.inr ⟨id, now, rfl, markRunning_refused.mp hrun⟩⟩)
    | some after =>
      rw [hrun] at applied
      obtain rfl : after = jobs' := applied
      refine Or.inr (Or.inr ⟨rfl, ?_, ?_⟩)
      · intro key
        cases hrow : jobs.get id with
        | none =>
          have same : after = jobs := by
            rw [markRunning, hrow] at hrun
            exact (Option.some.inj hrun).symm
          rw [same]
          cases hkey : jobs.get key with
          | none => rfl
          | some row =>
            have hne : key ≠ id := by
              rintro rfl
              rw [hrow] at hkey
              cases hkey
            simp only [Option.map_some, rowAfter, if_neg hne]
        | some row =>
          rw [markRunning_some hrow hrun, modified]
          rfl
      · rintro _ _ ⟨⟩
        intro refused
        rw [markRunning_refused.mpr refused] at hrun
        cases hrun
  | updateProgress id topicsCreated entriesCreated =>
    rw [apply, Option.some.injEq, updateProgress_eq] at applied
    subst applied
    exact Or.inr (Or.inr ⟨rfl, fun key => modified _ _ key, fun _ _ h => by cases h⟩)
  | markCompleted id topicsCreated entriesCreated centsSpent now =>
    rw [apply, Option.some.injEq, markCompleted] at applied
    subst applied
    exact Or.inr (Or.inr ⟨rfl, fun key => modified _ _ key, fun _ _ h => by cases h⟩)
  | markFailed id errorCode now =>
    rw [apply, Option.some.injEq, markFailed] at applied
    subst applied
    exact Or.inr (Or.inr ⟨rfl, fun key => modified _ _ key, fun _ _ h => by cases h⟩)
  | sweep kind now =>
    rw [apply, Option.some.injEq] at applied
    subst applied
    exact Or.inr (Or.inr ⟨rfl, fun key => sweep_get jobs kind now key, fun _ _ h => by cases h⟩)

theorem apply_markRunning_refused {id : JobId} {now : Time} (refused : Refused jobs id) :
    markRunning jobs id now = none ∧ apply jobs (.markRunning id now) = some jobs := by
  have raised : markRunning jobs id now = none := markRunning_refused.mpr refused
  refine ⟨raised, ?_⟩
  rw [apply, raised]
  rfl

end Rows

/-- The status changes of the state machine. -/
def moves : Status → Status → Bool
  | .pending, .running => true
  | .pending, .completed => true
  | .pending, .failed => true
  | .running, .completed => true
  | .running, .failed => true
  | .failed, .running => true
  | _, _ => false

section RowAfter
variable (id : JobId) (statement : Statement) (row : JobRow)

/-- What a statement can make of a row: nothing, a start or a revival, new
counters, or the end of an unfinished row. -/
theorem rowAfter_cases : rowAfter id statement row = row ∨
    (∃ now, statement = .markRunning id now ∧ (row.status = .pending ∨ row.status = .failed) ∧
      rowAfter id statement row =
        { row with status := .running, startedAt := some now, errorCode := none }) ∨
    (row.status.terminal = false ∧ ∃ topicsCreated entriesCreated, rowAfter id statement row =
      { row with topicsCreated := topicsCreated, entriesCreated := entriesCreated }) ∨
    (row.status.terminal = false ∧ ∃ status topicsCreated entriesCreated centsSpent errorCode now,
      status.terminal = true ∧ rowAfter id statement row =
        { row with
          status := status
          topicsCreated := topicsCreated
          entriesCreated := entriesCreated
          centsSpent := centsSpent
          errorCode := errorCode
          completedAt := some now }) := by
  cases statement with
  | createPending _ _ _ _ _ _ => exact Or.inl rfl
  | markRunning target now =>
    by_cases hid : id = target
    · by_cases startable : row.status = .pending ∨ row.status = .failed
      · refine Or.inr (Or.inl ⟨now, by rw [hid], startable, ?_⟩)
        rw [rowAfter, if_pos hid, JobRow.markRunning, if_pos startable]
      · exact Or.inl (by rw [rowAfter, if_pos hid, JobRow.markRunning, if_neg startable])
    · exact Or.inl (by rw [rowAfter, if_neg hid])
  | updateProgress target topicsCreated entriesCreated =>
    by_cases hid : id = target
    · by_cases ended : row.status.terminal = true
      · exact Or.inl (by rw [rowAfter, updateProgressRow, if_pos ended, ite_self])
      · refine Or.inr (Or.inr (Or.inl ⟨by simpa using ended,
          greatest row.topicsCreated topicsCreated, greatest row.entriesCreated entriesCreated,
          ?_⟩))
        rw [rowAfter, if_pos hid, updateProgressRow, if_neg ended]
    · exact Or.inl (by rw [rowAfter, if_neg hid])
  | markCompleted target topicsCreated entriesCreated centsSpent now =>
    by_cases hid : id = target
    · by_cases ended : row.status.terminal = true
      · exact Or.inl (by rw [rowAfter, JobRow.markCompleted_of_terminal ended, ite_self])
      · refine Or.inr (Or.inr (Or.inr ⟨by simpa using ended, .completed, topicsCreated,
          entriesCreated, centsSpent, row.errorCode, now, rfl, ?_⟩))
        rw [rowAfter, if_pos hid, JobRow.markCompleted, if_neg ended]
    · exact Or.inl (by rw [rowAfter, if_neg hid])
  | markFailed target errorCode now =>
    by_cases hid : id = target
    · by_cases ended : row.status.terminal = true
      · exact Or.inl (by rw [rowAfter, JobRow.markFailed_of_terminal ended, ite_self])
      · refine Or.inr (Or.inr (Or.inr ⟨by simpa using ended, .failed, row.topicsCreated,
          row.entriesCreated, row.centsSpent, some errorCode, now, rfl, ?_⟩))
        rw [rowAfter, if_pos hid, JobRow.markFailed, if_neg ended]
    · exact Or.inl (by rw [rowAfter, if_neg hid])
  | sweep kind now =>
    by_cases found : kind.finds now row = true
    · refine Or.inr (Or.inr (Or.inr ⟨Sweep.live_of_finds found, .failed, row.topicsCreated,
        row.entriesCreated, row.centsSpent, some kind.errorCode, now, rfl, ?_⟩))
      rw [rowAfter, JobRow.sweep, if_pos found]
    · exact Or.inl (by rw [rowAfter, JobRow.sweep, if_neg found])

theorem moves_of_ends {status status' : Status} (unfinished : status.terminal = false)
    (ended : status'.terminal = true) : moves status status' = true := by
  cases status with
  | pending =>
    rcases Status.terminal_iff.mp ended with rfl | rfl
    · rfl
    · rfl
  | running =>
    rcases Status.terminal_iff.mp ended with rfl | rfl
    · rfl
    · rfl
  | completed => cases unfinished
  | failed => cases unfinished

theorem rowAfter_status : (rowAfter id statement row).status = row.status ∨
    moves row.status (rowAfter id statement row).status = true := by
  rcases rowAfter_cases id statement row with same | ⟨now, _, startable, started⟩ |
    ⟨_, _, _, counted⟩ | ⟨unfinished, _, _, _, _, _, _, terminal, ended⟩
  · exact Or.inl (by rw [same])
  · rw [started]
    rcases startable with h | h
    · exact Or.inr (by rw [h]; rfl)
    · exact Or.inr (by rw [h]; rfl)
  · exact Or.inl (by rw [counted])
  · rw [ended]
    exact Or.inr (moves_of_ends unfinished terminal)

theorem rowAfter_completed (completed : row.status = .completed) :
    rowAfter id statement row = row := by
  have ended : row.status.terminal = true := by rw [completed]; rfl
  rcases rowAfter_cases id statement row with same | ⟨_, _, startable, _⟩ | ⟨unfinished, _⟩ |
    ⟨unfinished, _⟩
  · exact same
  · rcases startable with h | h
    · rw [completed] at h
      cases h
    · rw [completed] at h
      cases h
  · rw [ended] at unfinished
    cases unfinished
  · rw [ended] at unfinished
    cases unfinished

/-- The columns of the unique index. -/
def indexKey (row : JobRow) : UserId × ConversationId × PyStr :=
  (row.userId, row.conversationId, row.source)

theorem rowAfter_indexKey : indexKey (rowAfter id statement row) = indexKey row := by
  rcases rowAfter_cases id statement row with same | ⟨_, _, _, started⟩ | ⟨_, _, _, counted⟩ |
    ⟨_, _, _, _, _, _, _, _, ended⟩
  · rw [same]
  · rw [started]
    rfl
  · rw [counted]
    rfl
  · rw [ended]
    rfl

/-- Only a revival makes an ended row unfinished. -/
theorem rowAfter_unfinished (unfinished : (rowAfter id statement row).status.terminal = false) :
    row.status.terminal = false ∨
      row.status = .failed ∧ ∃ now, statement = .markRunning id now := by
  rcases rowAfter_cases id statement row with same | ⟨now, marks, startable, _⟩ | ⟨before, _⟩ |
    ⟨before, _⟩
  · rw [same] at unfinished
    exact Or.inl unfinished
  · rcases startable with h | h
    · exact Or.inl (by rw [h]; rfl)
    · exact Or.inr ⟨h, now, marks⟩
  · exact Or.inl before
  · exact Or.inl before

theorem le_greatest (counter : Nat) (argument : Option Int) :
    counter ≤ greatest counter argument := by
  cases argument with
  | none => exact Nat.le_refl counter
  | some value =>
    rw [greatest]
    omega

theorem updateProgressRow_grows (topicsCreated entriesCreated : Option Int) :
    row.topicsCreated ≤ (updateProgressRow topicsCreated entriesCreated row).topicsCreated ∧
      row.entriesCreated ≤ (updateProgressRow topicsCreated entriesCreated row).entriesCreated := by
  unfold updateProgressRow
  split
  · exact ⟨Nat.le_refl _, Nat.le_refl _⟩
  · exact ⟨le_greatest _ _, le_greatest _ _⟩

end RowAfter

/-- `idx_extraction_jobs_active_per_conversation`. -/
def ActiveUnique (jobs : Jobs) : Prop :=
  ∀ a b rowA rowB, jobs.get a = some rowA → jobs.get b = some rowB →
    rowA.status.terminal = false → rowB.status.terminal = false →
    indexKey rowA = indexKey rowB → a = b

theorem mem_activeJobs {jobs : Jobs} {row : JobRow} {id : JobId} :
    id ∈ activeJobs jobs row.userId row.conversationId row.source ↔
      ∃ other, jobs.get id = some other ∧ indexKey other = indexKey row ∧
        other.status.terminal = false := by
  simp [activeJobs, Table.mem_keysWhere, indexKey, and_assoc]

theorem apply_activeUnique (jobs : Jobs) (statement : Statement) (jobs' : Jobs)
    (unique : ActiveUnique jobs) (applied : apply jobs statement = some jobs') :
    ActiveUnique jobs' := by
  rcases apply_cases applied with ⟨id, userId, conversationId, source, periodStart, now, _, _,
    free, rfl⟩ | ⟨rfl, _⟩ | ⟨_, rows, notRefused⟩
  · have alone : ∀ key row, jobs.get key = some row → row.status.terminal = false →
        indexKey row ≠ (userId, conversationId, source) := by
      intro key row hrow unfinished same
      have hmem : key ∈ activeJobs jobs userId conversationId source :=
        (@mem_activeJobs jobs (pendingRow userId conversationId source periodStart now) key).mpr
          ⟨row, hrow, same, unfinished⟩
      rw [free] at hmem
      cases hmem
    intro a b rowA rowB hA hB liveA liveB same
    rcases Table.get_put_eq_some hA with ⟨rfl, rfl⟩ | ⟨_, oldA⟩
    · rcases Table.get_put_eq_some hB with ⟨rfl, _⟩ | ⟨_, oldB⟩
      · rfl
      · exact absurd same.symm (alone b rowB oldB liveB)
    · rcases Table.get_put_eq_some hB with ⟨rfl, rfl⟩ | ⟨_, oldB⟩
      · exact absurd same (alone a rowA oldA liveA)
      · exact unique a b rowA rowB oldA oldB liveA liveB same
  · exact unique
  · -- a revived row has no unfinished row of its key next to it
    have revived : ∀ a b rowA rowB, jobs.get a = some rowA → jobs.get b = some rowB →
        rowA.status = .failed → (∃ now, statement = .markRunning a now) →
        rowB.status.terminal = false → indexKey rowA ≠ indexKey rowB := by
      intro a b rowA rowB hA hB failed revives liveB same
      obtain ⟨now, rfl⟩ := revives
      apply notRefused a now rfl
      refine ⟨rowA, hA, failed, List.ne_nil_of_mem (a := b) ?_⟩
      exact mem_activeJobs.mpr ⟨rowB, hB, same.symm, liveB⟩
    intro a b rowA' rowB' hA hB liveA liveB same
    rw [rows] at hA hB
    obtain ⟨rowA, oldA, rfl⟩ := Option.map_eq_some_iff.mp hA
    obtain ⟨rowB, oldB, rfl⟩ := Option.map_eq_some_iff.mp hB
    rw [rowAfter_indexKey, rowAfter_indexKey] at same
    rcases rowAfter_unfinished a statement rowA liveA with stillA | ⟨failedA, startsA⟩
    · rcases rowAfter_unfinished b statement rowB liveB with stillB | ⟨failedB, startsB⟩
      · exact unique a b rowA rowB oldA oldB stillA stillB same
      · exact absurd same.symm (revived b a rowB rowA oldB oldA failedB startsB stillA)
    · rcases rowAfter_unfinished b statement rowB liveB with stillB | ⟨_, startsB⟩
      · exact absurd same (revived a b rowA rowB oldA oldB failedA startsA stillB)
      · obtain ⟨now, rfl⟩ := startsA
        obtain ⟨now', h⟩ := startsB
        cases h
        rfl

structure StatusCounts where
  inFlightCount : Nat
  syncedCount : Nat
  lastSyncAt : Option Time
  deriving DecidableEq

/-- `MAX` over timestamps, which ignores NULL. -/
def latest : Option Time → Option Time → Option Time
  | none, t => t
  | some t, none => some t
  | some t, some t' => some (max t t')

/-- What one row adds to the three aggregates. -/
def countRow (counts : StatusCounts) (row : JobRow) : StatusCounts :=
  match row.status with
  | .pending | .running => { counts with inFlightCount := counts.inFlightCount + 1 }
  | .completed => { counts with
      syncedCount := counts.syncedCount + 1
      lastSyncAt := latest counts.lastSyncAt row.completedAt }
  | .failed => counts

def scan (counts : StatusCounts) (entries : List (JobId × JobRow)) : StatusCounts :=
  entries.foldl (fun counts entry => countRow counts entry.2) counts

/-- One scan of the rows that row-level security shows to the user. -/
def getStatusCounts (jobs : Jobs) (userId : UserId) : StatusCounts :=
  scan ⟨0, 0, none⟩ (jobs.rows.filter (fun entry => entry.2.userId = userId))

def rowsOf (jobs : Jobs) (userId : UserId) (p : JobRow → Bool) : List JobId :=
  jobs.keysWhere (fun _ row => row.userId = userId && p row)

/-- The aggregates say how many rows there are, and when the last one completed. -/
structure CountsRows (jobs : Jobs) (userId : UserId) (counts : StatusCounts) : Prop where
  inFlight : counts.inFlightCount = (rowsOf jobs userId (fun row => !row.status.terminal)).length
  synced : counts.syncedCount = (rowsOf jobs userId (fun row => row.status = .completed)).length
  last : ∀ id row t, jobs.get id = some row → row.userId = userId → row.status = .completed →
    row.completedAt = some t → ∃ last, counts.lastSyncAt = some last ∧ t ≤ last
  attained : ∀ last, counts.lastSyncAt = some last → ∃ id row, jobs.get id = some row ∧
    row.userId = userId ∧ row.status = .completed ∧ row.completedAt = some last

theorem latest_le {one two : Option Time} {t : Time} (h : one = some t ∨ two = some t) :
    ∃ last, latest one two = some last ∧ t ≤ last := by
  cases one with
  | none =>
    rcases h with h | h
    · cases h
    · exact ⟨t, by rw [latest, h], Nat.le_refl t⟩
  | some t₁ =>
    cases two with
    | none =>
      rcases h with h | h
      · exact ⟨t₁, rfl, Nat.le_of_eq (Option.some.inj h).symm⟩
      · cases h
    | some t₂ =>
      refine ⟨max t₁ t₂, rfl, ?_⟩
      rcases h with h | h
      · exact (Option.some.inj h) ▸ Nat.le_max_left t₁ t₂
      · exact (Option.some.inj h) ▸ Nat.le_max_right t₁ t₂

theorem latest_attained {one two : Option Time} {last : Time} (h : latest one two = some last) :
    one = some last ∨ two = some last := by
  cases one with
  | none => exact Or.inr h
  | some t₁ =>
    cases two with
    | none => exact Or.inl h
    | some t₂ =>
      have hmax : max t₁ t₂ = last := Option.some.inj h
      rcases Nat.le_total t₁ t₂ with hle | hle
      · exact Or.inr (by rw [← hmax, Nat.max_eq_right hle])
      · exact Or.inl (by rw [← hmax, Nat.max_eq_left hle])

section Scan
variable (counts : StatusCounts) (row : JobRow)

theorem countRow_inFlightCount : (countRow counts row).inFlightCount =
    counts.inFlightCount + if !row.status.terminal then 1 else 0 := by
  rw [countRow]
  cases row.status <;> rfl

theorem countRow_syncedCount : (countRow counts row).syncedCount =
    counts.syncedCount + if row.status = .completed then 1 else 0 := by
  rw [countRow]
  cases row.status <;> rfl

theorem countRow_lastSyncAt : (countRow counts row).lastSyncAt =
    if row.status = .completed then latest counts.lastSyncAt row.completedAt
    else counts.lastSyncAt := by
  rw [countRow]
  cases row.status <;> rfl

end Scan

theorem scan_counts (entries : List (JobId × JobRow)) (counts : StatusCounts) :
    (scan counts entries).inFlightCount =
        counts.inFlightCount + entries.countP (fun entry => !entry.2.status.terminal) ∧
      (scan counts entries).syncedCount =
        counts.syncedCount + entries.countP (fun entry => entry.2.status = .completed) := by
  induction entries generalizing counts with
  | nil => exact ⟨rfl, rfl⟩
  | cons entry rest ih =>
    obtain ⟨hflight, hsynced⟩ := ih (countRow counts entry.2)
    rw [countRow_inFlightCount] at hflight
    rw [countRow_syncedCount] at hsynced
    simp only [List.countP_cons, decide_eq_true_eq]
    constructor
    · exact hflight.trans (by omega)
    · exact hsynced.trans (by omega)

/-- The time that a scan ends with: the latest of the time it starts from and of
the completed rows. -/
theorem scan_lastSyncAt (entries : List (JobId × JobRow)) (counts : StatusCounts) :
    (∀ t, (counts.lastSyncAt = some t ∨ ∃ entry ∈ entries, entry.2.status = .completed ∧
      entry.2.completedAt = some t) →
        ∃ last, (scan counts entries).lastSyncAt = some last ∧ t ≤ last) ∧
    ∀ last, (scan counts entries).lastSyncAt = some last → counts.lastSyncAt = some last ∨
      ∃ entry ∈ entries, entry.2.status = .completed ∧ entry.2.completedAt = some last := by
  induction entries generalizing counts with
  | nil =>
    refine ⟨?_, fun last h => Or.inl h⟩
    rintro t (h | ⟨_, hmem, _⟩)
    · exact ⟨t, h, Nat.le_refl t⟩
    · cases hmem
  | cons entry rest ih =>
    obtain ⟨hlast, hattained⟩ := ih (countRow counts entry.2)
    rw [countRow_lastSyncAt] at hlast hattained
    simp only [List.exists_mem_cons_iff]
    by_cases completed : entry.2.status = .completed
    · rw [if_pos completed] at hlast hattained
      have reaches : ∀ t, counts.lastSyncAt = some t ∨ entry.2.completedAt = some t →
          ∃ last, (scan (countRow counts entry.2) rest).lastSyncAt = some last ∧ t ≤ last := by
        intro t h
        obtain ⟨mid, hmid, hle⟩ := latest_le h
        obtain ⟨last, hlast, hle'⟩ := hlast mid (Or.inl hmid)
        exact ⟨last, hlast, Nat.le_trans hle hle'⟩
      constructor
      · rintro t (h | ⟨_, h⟩ | h)
        · exact reaches t (Or.inl h)
        · exact reaches t (Or.inr h)
        · exact hlast t (Or.inr h)
      · intro last h
        rcases hattained last h with h | h
        · rcases latest_attained h with h | h
          · exact Or.inl h
          · exact Or.inr (Or.inl ⟨completed, h⟩)
        · exact Or.inr (Or.inr h)
    · rw [if_neg completed] at hlast hattained
      constructor
      · rintro t (h | ⟨h, _⟩ | h)
        · exact hlast t (Or.inl h)
        · exact absurd h completed
        · exact hlast t (Or.inr h)
      · intro last h
        exact (hattained last h).imp id Or.inr

theorem getStatusCounts_countsRows (jobs : Jobs) (userId : UserId) :
    CountsRows jobs userId (getStatusCounts jobs userId) := by
  obtain ⟨hflight, hsynced⟩ :=
    scan_counts (jobs.rows.filter (fun entry => entry.2.userId = userId)) ⟨0, 0, none⟩
  obtain ⟨hlast, hattained⟩ :=
    scan_lastSyncAt (jobs.rows.filter (fun entry => entry.2.userId = userId)) ⟨0, 0, none⟩
  have length : ∀ p : JobRow → Bool, (rowsOf jobs userId p).length =
      (jobs.rows.filter (fun entry => entry.2.userId = userId)).countP
        (fun entry => p entry.2) := by
    intro p
    rw [rowsOf, Table.keysWhere, List.length_map, List.countP_eq_length_filter, List.filter_filter]
    refine congrArg List.length (List.filter_congr ?_)
    intro entry _
    exact Bool.and_comm _ _
  constructor
  · rw [length]
    exact hflight.trans (Nat.zero_add _)
  · rw [length]
    exact hsynced.trans (Nat.zero_add _)
  · intro id row t hrow huser hcompleted hat
    refine hlast t (Or.inr ⟨(id, row), ?_, hcompleted, hat⟩)
    exact List.mem_filter.mpr ⟨Table.get_eq_some_iff.mp hrow, decide_eq_true huser⟩
  · intro last h
    rcases hattained last h with h | ⟨⟨id, row⟩, hmem, hcompleted, hat⟩
    · cases h
    · obtain ⟨hmem, huser⟩ := List.mem_filter.mp hmem
      exact ⟨id, row, Table.get_eq_some_iff.mpr hmem, of_decide_eq_true huser, hcompleted, hat⟩

/-- Rows change their status by the moves, and new rows are pending. -/
def StatusStep (before after : Jobs) : Prop :=
  ∀ id row', after.get id = some row' →
    (before.get id = none ∧ row'.status = .pending) ∨
    ∃ row, before.get id = some row ∧
      (row'.status = row.status ∨ moves row.status row'.status = true)

def CompletedKept (before after : Jobs) : Prop :=
  ∀ id row, before.get id = some row → row.status = .completed → after.get id = some row

theorem apply_statusStep {jobs jobs' : Jobs} {statement : Statement}
    (applied : apply jobs statement = some jobs') : StatusStep jobs jobs' := by
  rcases apply_cases applied with ⟨id, userId, conversationId, source, periodStart, now, _, fresh,
    _, rfl⟩ | ⟨rfl, _⟩ | ⟨_, rows, _⟩
  · intro key row' hrow'
    rcases Table.get_put_eq_some hrow' with ⟨rfl, rfl⟩ | ⟨_, hold⟩
    · exact Or.inl ⟨fresh, rfl⟩
    · exact Or.inr ⟨row', hold, Or.inl rfl⟩
  · exact fun id row' hrow' => Or.inr ⟨row', hrow', Or.inl rfl⟩
  · intro id row' hrow'
    rw [rows] at hrow'
    obtain ⟨row, hrow, rfl⟩ := Option.map_eq_some_iff.mp hrow'
    exact Or.inr ⟨row, hrow, rowAfter_status id statement row⟩

theorem apply_completedKept {jobs jobs' : Jobs} {statement : Statement}
    (applied : apply jobs statement = some jobs') : CompletedKept jobs jobs' := by
  intro key row hrow completed
  rcases apply_cases applied with ⟨id, userId, conversationId, source, periodStart, now, _, fresh,
    _, rfl⟩ | ⟨rfl, _⟩ | ⟨_, rows, _⟩
  · exact Table.get_put_of_absent _ fresh hrow
  · exact hrow
  · rw [rows, hrow, Option.map_some, rowAfter_completed key statement row completed]

theorem run_completedKept {jobs jobs' : Jobs} {statements : List Statement}
    (ran : Replay.run apply jobs statements = some jobs') : CompletedKept jobs jobs' := by
  induction statements generalizing jobs with
  | nil =>
    cases ran
    exact fun _ _ hrow _ => hrow
  | cons statement rest ih =>
    obtain ⟨mid, applied, hrest⟩ := Replay.run_cons.mp ran
    intro id row hrow completed
    exact ih hrest id row (apply_completedKept applied id row hrow completed) completed

theorem updateProgress_grows {jobs : Jobs} {id : JobId} {row : JobRow}
    (hrow : jobs.get id = some row) (target : JobId) (topicsCreated entriesCreated : Option Int) :
    ∃ row', (JobStateMachine.updateProgress jobs target topicsCreated entriesCreated).get id =
      some row' ∧ row.topicsCreated ≤ row'.topicsCreated ∧
        row.entriesCreated ≤ row'.entriesCreated := by
  rw [updateProgress_eq, Table.get_modify, hrow]
  by_cases hid : id = target
  · rw [if_pos hid]
    exact ⟨_, rfl, updateProgressRow_grows row topicsCreated entriesCreated⟩
  · rw [if_neg hid]
    exact ⟨row, rfl, Nat.le_refl _, Nat.le_refl _⟩

/-- From any rows that the unique index allows, after any statements at any times. -/
theorem job_state_machine {jobs reached : Jobs} {statements : List Statement}
    (unique : ActiveUnique jobs) (ran : Replay.run apply jobs statements = some reached) :
    ActiveUnique reached ∧ CompletedKept jobs reached ∧
    (∀ statement next, apply reached statement = some next → StatusStep reached next) ∧
    (∀ id now, Refused reached id →
      markRunning reached id now = none ∧ apply reached (.markRunning id now) = some reached) ∧
    (∀ target topicsCreated entriesCreated id row, reached.get id = some row →
      ∃ row', (JobStateMachine.updateProgress reached target topicsCreated entriesCreated).get id =
        some row' ∧ row.topicsCreated ≤ row'.topicsCreated ∧
          row.entriesCreated ≤ row'.entriesCreated) ∧
    ∀ userId, CountsRows reached userId (getStatusCounts reached userId) := by
  refine ⟨Replay.run_invariant' apply_activeUnique unique ran, run_completedKept ran, ?_, ?_, ?_,
    getStatusCounts_countsRows reached⟩
  · intro statement next applied
    exact apply_statusStep applied
  · intro id now refused
    exact apply_markRunning_refused refused
  · intro target topicsCreated entriesCreated id row hrow
    exact updateProgress_grows hrow target topicsCreated entriesCreated

theorem empty_activeUnique : ActiveUnique Table.empty :=
  fun _ _ _ _ hA => by cases hA

/-- A job fails, a second one takes its place, and the first cannot come back. -/
def failedAndReplaced : List Statement :=
  [.createPending 1 7 3 (py "chatgpt") 0 0, .markRunning 1 1, .updateProgress 1 (some 2) none,
   .markFailed 1 .internalError 2, .createPending 2 7 3 (py "chatgpt") 0 3, .markRunning 1 4]

theorem job_state_machine_once : ∃ jobs, Replay.run apply Table.empty failedAndReplaced =
    some jobs ∧ ActiveUnique jobs ∧ (getStatusCounts jobs 7).inFlightCount = 1 := by
  refine ⟨_, rfl, ?_, rfl⟩
  exact (@job_state_machine Table.empty _ failedAndReplaced empty_activeUnique rfl).1

/-- The bookkeeping columns of a row agree with its status. -/
structure Agrees (row : JobRow) : Prop where
  completedAt : row.completedAt.isSome = row.status.terminal
  errorCode : row.errorCode.isSome = decide (row.status = .failed)
  ordered : ∀ startedAt completedAt, row.startedAt = some startedAt →
    row.completedAt = some completedAt → startedAt ≤ completedAt

def AllAgree (jobs : Jobs) : Prop := ∀ id row, jobs.get id = some row → Agrees row

/-- A pending row was never started. -/
def PendingUnstarted (jobs : Jobs) : Prop :=
  ∀ id row, jobs.get id = some row → row.status = .pending → row.startedAt = none

/-- A row that ends now has not started later. -/
def endsInOrder (now : Time) (row : JobRow) : Bool :=
  row.status.terminal || row.startedAt.all (fun startedAt => startedAt ≤ now)

/-- No failed row is revived, and no row ends before it has started. -/
def inOrder (jobs : Jobs) : Statement → Bool
  | .markRunning id _ => (jobs.get id).all (fun row => row.status ≠ .failed ||
      activeJobs jobs row.userId row.conversationId row.source ≠ [])
  | .markCompleted id _ _ _ now => (jobs.get id).all (endsInOrder now)
  | .markFailed id _ now => (jobs.get id).all (endsInOrder now)
  | _ => true

section Bookkeeping
variable {row : JobRow} {now : Time}

theorem Agrees.markRunning (agrees : Agrees row) :
    Agrees (row.markRunning now) ↔ row.status ≠ .failed := by
  constructor
  · rintro after failed
    have revived := after.completedAt
    rw [JobRow.markRunning, if_pos (Or.inr failed)] at revived
    have ended := agrees.completedAt
    rw [failed] at ended
    exact Bool.false_ne_true (revived.symm.trans ended)
  · intro hne
    by_cases pending : row.status = .pending
    · have unfinished : row.completedAt = none := by
        have h := agrees.completedAt
        rw [pending] at h
        exact Option.isNone_iff_eq_none.mp (Option.isSome_eq_false_iff.mp h)
      rw [JobRow.markRunning, if_pos (Or.inl pending)]
      refine ⟨?_, rfl, ?_⟩
      · rw [unfinished]
        rfl
      · intro startedAt completedAt _ h
        rw [unfinished] at h
        cases h
    · have idle : ¬ (row.status = .pending ∨ row.status = .failed) := by
        rintro (h | h)
        · exact pending h
        · exact hne h
      rw [JobRow.markRunning, if_neg idle]
      exact agrees

/-- An unfinished row that is ended now. -/
theorem Agrees.ends {ended : JobRow} (unfinished : row.status.terminal = false)
    (started : ended.startedAt = row.startedAt) (completed : ended.completedAt = some now)
    (status : ended.status.terminal = true)
    (errorCode : ended.errorCode.isSome = decide (ended.status = .failed)) :
    Agrees ended ↔ endsInOrder now row = true := by
  rw [endsInOrder, unfinished, Bool.false_or]
  constructor
  · intro agrees
    cases hstarted : row.startedAt with
    | none => rfl
    | some startedAt =>
      exact decide_eq_true (agrees.ordered startedAt now (started.trans hstarted) completed)
  · intro order
    refine ⟨by rw [completed, status]; rfl, errorCode, ?_⟩
    intro startedAt completedAt hstarted hcompleted
    rw [started] at hstarted
    rw [completed] at hcompleted
    rw [hstarted] at order
    exact (Option.some.inj hcompleted) ▸ of_decide_eq_true order

theorem Agrees.no_error (agrees : Agrees row) (unfinished : row.status.terminal = false) :
    row.errorCode.isSome = false := by
  have h := agrees.errorCode
  cases hstatus : row.status with
  | pending => rw [h, hstatus]; rfl
  | running => rw [h, hstatus]; rfl
  | completed => rw [hstatus] at unfinished; cases unfinished
  | failed => rw [hstatus] at unfinished; cases unfinished

theorem endsInOrder_of_terminal (ended : row.status.terminal = true) :
    endsInOrder now row = true := by
  rw [endsInOrder, ended, Bool.true_or]

theorem Agrees.markCompleted (agrees : Agrees row) (topicsCreated entriesCreated : Nat)
    (centsSpent : Cents) :
    Agrees (row.markCompleted topicsCreated entriesCreated centsSpent now) ↔
      endsInOrder now row = true := by
  by_cases ended : row.status.terminal = true
  · rw [JobRow.markCompleted_of_terminal ended]
    exact ⟨fun _ => endsInOrder_of_terminal ended, fun _ => agrees⟩
  · have unfinished : row.status.terminal = false := by simpa using ended
    rw [JobRow.markCompleted, if_neg ended]
    exact Agrees.ends unfinished rfl rfl rfl (agrees.no_error unfinished)

theorem Agrees.markFailed (agrees : Agrees row) (errorCode : ErrorCode) :
    Agrees (row.markFailed errorCode now) ↔ endsInOrder now row = true := by
  by_cases ended : row.status.terminal = true
  · rw [JobRow.markFailed_of_terminal ended]
    exact ⟨fun _ => endsInOrder_of_terminal ended, fun _ => agrees⟩
  · have unfinished : row.status.terminal = false := by simpa using ended
    rw [JobRow.markFailed, if_neg ended]
    exact Agrees.ends unfinished rfl rfl rfl rfl

theorem Agrees.updateProgress (agrees : Agrees row) (topicsCreated entriesCreated : Option Int) :
    Agrees (updateProgressRow topicsCreated entriesCreated row) := by
  unfold updateProgressRow
  split
  · exact agrees
  · exact ⟨agrees.completedAt, agrees.errorCode, agrees.ordered⟩

/-- A sweep compares the start of a running row with the clock itself. -/
theorem Agrees.sweep (agrees : Agrees row)
    (unstarted : row.status = .pending → row.startedAt = none) (kind : Sweep) :
    Agrees (row.sweep kind now) := by
  by_cases found : kind.finds now row = true
  · have order : endsInOrder now row = true := by
      rw [endsInOrder, Sweep.live_of_finds found, Bool.false_or]
      cases kind with
      | pending thresholdMinutes =>
        simp only [Sweep.finds, Bool.and_eq_true, decide_eq_true_eq] at found
        rw [unstarted found.1]
        rfl
      | running =>
        simp only [Sweep.finds, Bool.and_eq_true, decide_eq_true_eq] at found
        obtain ⟨startedAt, hstarted, stale⟩ := (Option.any_eq_true _ _).mp found.2
        rw [hstarted]
        simp only [decide_eq_true_eq] at stale
        have earlier : startedAt ≤ now := by omega
        exact decide_eq_true earlier
    rw [JobRow.sweep, if_pos found]
    refine (Agrees.ends (Sweep.live_of_finds found) ?_ ?_ ?_ ?_).mpr order
    · rfl
    · rfl
    · rfl
    · rfl
  · rw [JobRow.sweep, if_neg found]
    exact agrees

end Bookkeeping

section Steps
variable {jobs jobs' : Jobs} {statement : Statement}

theorem empty_allAgree : AllAgree Table.empty := fun _ _ hrow => by cases hrow

theorem empty_pendingUnstarted : PendingUnstarted Table.empty := fun _ _ hrow => by cases hrow

theorem rowAfter_unstarted {id : JobId} {row : JobRow}
    (unstarted : row.status = .pending → row.startedAt = none)
    (pending : (rowAfter id statement row).status = .pending) :
    (rowAfter id statement row).startedAt = none := by
  rcases rowAfter_cases id statement row with same | ⟨_, _, _, started⟩ | ⟨_, _, _, counted⟩ |
    ⟨_, status, _, _, _, _, _, terminal, ended⟩
  · rw [same] at pending ⊢
    exact unstarted pending
  · rw [started] at pending
    cases pending
  · rw [counted] at pending ⊢
    exact unstarted pending
  · rw [ended] at pending
    have isPending : status = .pending := pending
    rw [isPending] at terminal
    cases terminal

theorem apply_pendingUnstarted (jobs : Jobs) (statement : Statement) (jobs' : Jobs)
    (unstarted : PendingUnstarted jobs) (applied : apply jobs statement = some jobs') :
    PendingUnstarted jobs' := by
  rcases apply_cases applied with ⟨id, userId, conversationId, source, periodStart, now, _, _,
    _, rfl⟩ | ⟨rfl, _⟩ | ⟨_, rows, _⟩
  · intro key row hrow pending
    rcases Table.get_put_eq_some hrow with ⟨_, rfl⟩ | ⟨_, hold⟩
    · rfl
    · exact unstarted key row hold pending
  · exact unstarted
  · intro id row' hrow' pending
    rw [rows] at hrow'
    obtain ⟨row, hrow, rfl⟩ := Option.map_eq_some_iff.mp hrow'
    exact rowAfter_unstarted (unstarted id row hrow) pending

/-- When all rows are rewritten, only the row that the statement names is at stake. -/
theorem allAgree_iff (agree : AllAgree jobs)
    (rows : ∀ id, jobs'.get id = (jobs.get id).map (rowAfter id statement)) {target : JobId}
    {f : JobRow → JobRow}
    (shape : ∀ id row, rowAfter id statement row = if id = target then f row else row) :
    AllAgree jobs' ↔ ∀ row, jobs.get target = some row → Agrees (f row) := by
  constructor
  · intro after row hrow
    refine after target (f row) ?_
    rw [rows, hrow, Option.map_some, shape, if_pos rfl]
  · intro named id row' hrow'
    rw [rows] at hrow'
    obtain ⟨row, hrow, rfl⟩ := Option.map_eq_some_iff.mp hrow'
    rw [shape]
    by_cases hid : id = target
    · rw [if_pos hid]
      exact named row (hid ▸ hrow)
    · rw [if_neg hid]
      exact agree id row hrow

theorem all_iff {id : JobId} {p : JobRow → Bool} :
    (jobs.get id).all p = true ↔ ∀ row, jobs.get id = some row → p row = true := by
  cases jobs.get id <;> simp

/-- From rows that agree, a statement keeps the agreement exactly when it is in order. -/
theorem apply_allAgree (jobs : Jobs) (statement : Statement) (jobs' : Jobs)
    (unstarted : PendingUnstarted jobs) (agree : AllAgree jobs)
    (applied : apply jobs statement = some jobs') :
    AllAgree jobs' ↔ inOrder jobs statement = true := by
  rcases apply_cases applied with ⟨id, userId, conversationId, source, periodStart, now, rfl, _,
    _, rfl⟩ | ⟨rfl, refused⟩ | ⟨rewrites, rows, notRefused⟩
  · refine ⟨fun _ => rfl, fun _ => ?_⟩
    intro key row hrow
    rcases Table.get_put_eq_some hrow with ⟨_, rfl⟩ | ⟨_, hold⟩
    · exact ⟨rfl, rfl, fun _ _ h => by cases h⟩
    · exact agree key row hold
  · refine ⟨fun _ => ?_, fun _ => agree⟩
    rcases refused with inserts | ⟨id, now, rfl, row, hrow, _, taken⟩
    · cases statement with
      | createPending _ _ _ _ _ _ => rfl
      | _ => cases inserts
    · rw [inOrder, all_iff]
      intro row' hrow'
      obtain rfl : row = row' := Option.some.inj (hrow.symm.trans hrow')
      rw [decide_eq_true taken, Bool.or_true]
  · cases statement with
    | createPending _ _ _ _ _ _ => cases rewrites
    | markRunning id now =>
      rw [allAgree_iff agree rows (fun _ _ => rfl), inOrder, all_iff]
      refine forall_congr' fun row => forall_congr' fun hrow => ?_
      rw [(agree id row hrow).markRunning]
      constructor
      · intro hne
        rw [decide_eq_true hne, Bool.true_or]
      · intro order failed
        apply notRefused id now rfl
        refine ⟨row, hrow, failed, ?_⟩
        simpa [failed] using order
    | updateProgress id topicsCreated entriesCreated =>
      rw [allAgree_iff agree rows (fun _ _ => rfl)]
      exact ⟨fun _ => rfl, fun _ row hrow => (agree id row hrow).updateProgress _ _⟩
    | markCompleted id topicsCreated entriesCreated centsSpent now =>
      rw [allAgree_iff agree rows (fun _ _ => rfl), inOrder, all_iff]
      exact forall_congr' fun row => forall_congr' fun hrow =>
        (agree id row hrow).markCompleted _ _ _
    | markFailed id errorCode now =>
      rw [allAgree_iff agree rows (fun _ _ => rfl), inOrder, all_iff]
      exact forall_congr' fun row => forall_congr' fun hrow => (agree id row hrow).markFailed _
    | sweep kind now =>
      refine ⟨fun _ => rfl, fun _ => ?_⟩
      intro id row' hrow'
      rw [rows] at hrow'
      obtain ⟨row, hrow, rfl⟩ := Option.map_eq_some_iff.mp hrow'
      exact (agree id row hrow).sweep (unstarted id row hrow) kind

end Steps

/-- The bookkeeping agrees with the status in every state of a run if and only
if the run revives no failed row and ends no row before its start. -/
theorem bookkeeping_agrees {statements : List Statement} {jobs : Jobs}
    (ran : Replay.run apply Table.empty statements = some jobs) :
    Replay.Throughout apply AllAgree Table.empty statements ↔
      Replay.Obeys apply (fun jobs statement => inOrder jobs statement = true) Table.empty
        statements :=
  Replay.throughout_iff_obeys apply_pendingUnstarted
    (fun jobs statement jobs' unstarted agree applied =>
      apply_allAgree jobs statement jobs' unstarted agree applied)
    empty_pendingUnstarted empty_allAgree ran

theorem bookkeeping_agrees_once :
    Replay.Throughout apply AllAgree Table.empty failedAndReplaced :=
  (@bookkeeping_agrees failedAndReplaced _ rfl).mpr (by decide)

/-- The worker is retried after a failure. -/
def failedAndRetried : List Statement :=
  [.createPending 1 7 3 (py "chatgpt") 0 0, .markRunning 1 1, .markFailed 1 .internalError 2,
   .markRunning 1 3]

/-- The revived row runs, and its `completed_at` is the time of the failure. -/
theorem retried_job_has_completed_at :
    ¬ ∀ (statements : List Statement) (jobs : Jobs),
      Replay.run apply Table.empty statements = some jobs → AllAgree jobs := by
  intro all
  have agrees := all failedAndRetried _ rfl 1 _ rfl
  have running := agrees.completedAt
  revert running
  decide

end JobStateMachine
