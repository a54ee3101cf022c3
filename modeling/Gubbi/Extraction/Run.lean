import Gubbi.Extraction.StateMachine

/-!
# One run of the extraction worker

`extract_conversation` statement by statement, in its three transactions, with
everything else that commits on the same conversation in between: saves, other
runs that mark the conversation processed, and the job statements of retries and
orphan sweeps. The run's own writes are visible to others at its commit only,
and an updated row is locked until then.

Four ways lead out of a run without an exception. Two of them write nothing: the
idempotency checks return as soon as they find `processed_at` set.
-/

namespace ExtractRun

open Text ExtractionJobs JobStateMachine

universe u
variable {M : Type u}

/-- How a run returns. -/
inductive Exit
  | alreadyProcessed
  | noTopic
  | raced
  | extracted
  deriving DecidableEq, Repr

inductive Phase
  | idle
  | queued
  | checked
  | marked
  | loaded
  | unusable
  | extracting
  | confirmed
  | finishing (exit : Exit)
  | closing (exit : Exit)
  | returned (exit : Exit)
  | raised
  deriving DecidableEq, Repr

def Phase.over : Phase → Bool
  | .returned _ => true
  | .raised => true
  | _ => false

/-- Between the start of the run and its last statement, or after an exception. -/
def Phase.inside : Phase → Bool
  | .idle => false
  | .closing _ => false
  | .returned _ => false
  | _ => true

/-- The conversation row, the row of the run's job, and the run. `changed` says
that the messages have changed since `processed_at` was last set, and `expects`
that they had when the job was created and have not been saved since. -/
structure State (M : Type u) where
  messages : Option M
  processedAt : Option Time
  job : Option JobRow
  ownJob : Option JobRow
  ownProcessedAt : Option Time
  ownEntries : Option M
  phase : Phase
  loaded : Option M
  presented : Option M
  entriesFrom : Option M
  changed : Bool
  expects : Bool

/-- Before the first save. -/
def start : State M :=
  ⟨none, none, none, none, none, none, .idle, none, none, none, false, false⟩

/-- The job row as the run's transaction sees it. -/
def State.seen (s : State M) : Option JobRow := s.ownJob.or s.job

/-- An UPDATE of the job row; it locks the row when its WHERE clause finds it. -/
def State.updateJob (s : State M) (finds : JobRow → Bool) (f : JobRow → JobRow) : State M :=
  match s.seen with
  | some row => if finds row then { s with ownJob := some (f row) } else s
  | none => s

def startable (row : JobRow) : Bool := row.status = .pending || row.status = .failed

def unfinished (row : JobRow) : Bool := !row.status.terminal

/-- `processed_at` is only ever set where it is NULL. -/
def State.ownMarkProcessed (s : State M) (now : Time) : State M :=
  if s.processedAt.isNone then { s with ownProcessedAt := some now } else s

/-- The end of a transaction of the run. -/
def State.committed (s : State M) (phase : Phase) : State M :=
  { s with
    job := s.seen
    ownJob := none
    processedAt := s.processedAt.or s.ownProcessedAt
    ownProcessedAt := none
    entriesFrom := s.ownEntries.or s.entriesFrom
    ownEntries := none
    changed := s.changed && s.ownProcessedAt.isNone
    phase := phase }

def State.rolledBack (s : State M) : State M :=
  { s with ownJob := none, ownProcessedAt := none, ownEntries := none, phase := .raised }

/-- `_check_idempotent`: a processed conversation ends the run. -/
def State.checkIdempotent (s : State M) (exit : Exit) (next : Phase) : State M :=
  { s with phase := if s.processedAt.isSome then .closing exit else next }

inductive Action (M : Type u)
  | save (messages : M)
  | processedByOther (now : Time)
  | otherStatement (statement : Statement)
  | createPending (userId : UserId) (conversationId : ConversationId) (source : PyStr)
      (periodStart : Period) (now : Time)
  | check
  | markRunning (now : Time)
  | load
  | categorize (usable : Bool)
  | recheck
  | markProcessed (now : Time)
  | markCompleted (topicsCreated entriesCreated : Nat) (centsSpent : Cents) (now : Time)
  | commit
  | fail

/-- A save by the caller of an ingest or of the MCP tool. The upsert does not
touch `processed_at`. -/
def State.save [DecidableEq M] (s : State M) (messages : M) : State M :=
  { s with
    messages := some messages
    changed := s.changed || s.messages ≠ some messages
    expects := false }

section Steps
variable [DecidableEq M]

/-- Nothing happens to the rows after the run is over, so that its last state is
the one that its last transaction leaves. -/
def step (id : JobId) (s : State M) : Action M → Option (State M)
  | .save messages =>
    if s.phase.over = false ∧ s.ownProcessedAt.isNone = true then some (s.save messages) else none
  | .processedByOther now =>
    if s.phase.over = false ∧ s.messages.isSome = true ∧ s.ownProcessedAt.isNone = true then
      some { s with
        processedAt := s.processedAt.or (some now)
        changed := s.changed && s.processedAt.isSome }
    else none
  | .otherStatement statement =>
    if s.phase.over = false ∧ s.ownJob.isNone = true then
      some { s with job := s.job.map (rowAfter id statement) }
    else none
  | .createPending userId conversationId source periodStart now =>
    if s.phase = .idle ∧ s.messages.isSome = true then
      some { s with
        job := some (pendingRow userId conversationId source periodStart now)
        phase := .queued
        expects := s.changed }
    else none
  | .check =>
    if s.phase = .queued then some (s.checkIdempotent .alreadyProcessed .checked) else none
  | .markRunning now =>
    if s.phase = .checked then
      some { s.updateJob startable (JobRow.markRunning now) with phase := .marked }
    else none
  | .load =>
    match s.phase, s.messages with
    | .marked, some messages => some { s.committed .loaded with loaded := some messages }
    | _, _ => none
  | .categorize usable =>
    if s.phase = .loaded then
      some { s with
        presented := s.loaded
        phase := if usable then .extracting else .unusable }
    else none
  | .recheck =>
    if s.phase = .extracting then some (s.checkIdempotent .raced .confirmed) else none
  | .markProcessed now =>
    match s.phase with
    | .unusable => some { s.ownMarkProcessed now with phase := .finishing .noTopic }
    | .confirmed => some { s.ownMarkProcessed now with
        ownEntries := s.loaded
        phase := .finishing .extracted }
    | _ => none
  | .markCompleted topicsCreated entriesCreated centsSpent now =>
    match s.phase with
    | .finishing exit => some { s.updateJob unfinished
          (JobRow.markCompleted topicsCreated entriesCreated centsSpent now) with
        phase := .closing exit }
    | _ => none
  | .commit =>
    match s.phase with
    | .closing exit => some (s.committed (.returned exit))
    | _ => none
  | .fail => if s.phase.over = false ∧ s.phase ≠ .idle then some s.rolledBack else none

section Inversion
variable {id : JobId} {s t : State M}

theorem step_save {messages : M} : step id s (.save messages) = some t ↔
    (s.phase.over = false ∧ s.ownProcessedAt.isNone = true) ∧ t = s.save messages :=
  Replay.guarded_eq_some

theorem step_processedByOther {now : Time} : step id s (.processedByOther now) = some t ↔
    (s.phase.over = false ∧ s.messages.isSome = true ∧ s.ownProcessedAt.isNone = true) ∧
      t = { s with
        processedAt := s.processedAt.or (some now)
        changed := s.changed && s.processedAt.isSome } :=
  Replay.guarded_eq_some

theorem step_otherStatement {statement : Statement} :
    step id s (.otherStatement statement) = some t ↔
      (s.phase.over = false ∧ s.ownJob.isNone = true) ∧
        t = { s with job := s.job.map (rowAfter id statement) } :=
  Replay.guarded_eq_some

theorem step_createPending {userId : UserId} {conversationId : ConversationId} {source : PyStr}
    {periodStart : Period} {now : Time} :
    step id s (.createPending userId conversationId source periodStart now) = some t ↔
      (s.phase = .idle ∧ s.messages.isSome = true) ∧
        t = { s with
          job := some (pendingRow userId conversationId source periodStart now)
          phase := .queued
          expects := s.changed } :=
  Replay.guarded_eq_some

theorem step_fail : step id s .fail = some t ↔
    (s.phase.over = false ∧ s.phase ≠ .idle) ∧ t = s.rolledBack :=
  Replay.guarded_eq_some

theorem step_check : step id s .check = some t ↔
    s.phase = .queued ∧ t = s.checkIdempotent .alreadyProcessed .checked :=
  Replay.guarded_eq_some

theorem step_markRunning {now : Time} : step id s (.markRunning now) = some t ↔
    s.phase = .checked ∧
      t = { s.updateJob startable (JobRow.markRunning now) with phase := .marked } :=
  Replay.guarded_eq_some

theorem step_load : step id s .load = some t ↔
    s.phase = .marked ∧ ∃ messages, s.messages = some messages ∧
      t = { s.committed .loaded with loaded := some messages } := by
  simp only [step]
  split
  · next messages h hm => simp [h, hm, eq_comm]
  · next h =>
    simp only [reduceCtorEq, false_iff]
    rintro ⟨hphase, messages, hm, _⟩
    exact h messages hphase hm

theorem step_categorize {usable : Bool} : step id s (.categorize usable) = some t ↔
    s.phase = .loaded ∧ t = { s with
      presented := s.loaded
      phase := if usable then .extracting else .unusable } :=
  Replay.guarded_eq_some

theorem step_recheck : step id s .recheck = some t ↔
    s.phase = .extracting ∧ t = s.checkIdempotent .raced .confirmed :=
  Replay.guarded_eq_some

theorem step_markProcessed {now : Time} : step id s (.markProcessed now) = some t ↔
    (s.phase = .unusable ∧ t = { s.ownMarkProcessed now with phase := .finishing .noTopic }) ∨
    (s.phase = .confirmed ∧ t = { s.ownMarkProcessed now with
      ownEntries := s.loaded
      phase := .finishing .extracted }) := by
  simp only [step]
  split
  · next h => simp [h, eq_comm]
  · next h => simp [h, eq_comm]
  · next h h' =>
    simp only [reduceCtorEq, false_iff]
    rintro (⟨hphase, _⟩ | ⟨hphase, _⟩)
    · exact h hphase
    · exact h' hphase

theorem step_markCompleted {topicsCreated entriesCreated : Nat} {centsSpent : Cents}
    {now : Time} :
    step id s (.markCompleted topicsCreated entriesCreated centsSpent now) = some t ↔
      ∃ exit, s.phase = .finishing exit ∧ t = { s.updateJob unfinished
          (JobRow.markCompleted topicsCreated entriesCreated centsSpent now) with
        phase := .closing exit } := by
  simp only [step]
  split
  · next exit h => simp [h, eq_comm]
  · next h =>
    simp only [reduceCtorEq, false_iff]
    rintro ⟨exit, hphase, _⟩
    exact h exit hphase

theorem step_commit : step id s .commit = some t ↔
    ∃ exit, s.phase = .closing exit ∧ t = s.committed (.returned exit) := by
  simp only [step]
  split
  · next exit h => simp [h, eq_comm]
  · next h =>
    simp only [reduceCtorEq, false_iff]
    rintro ⟨exit, hphase, _⟩
    exact h exit hphase

end Inversion

end Steps

section Job
variable {s : State M}

theorem updateJob_job (finds : JobRow → Bool) (f : JobRow → JobRow) :
    (s.updateJob finds f).job = s.job := by
  unfold State.updateJob
  split
  · split <;> rfl
  · rfl

theorem updateJob_seen {row : JobRow} (hrow : s.seen = some row) (finds : JobRow → Bool)
    (f : JobRow → JobRow) :
    (s.updateJob finds f).seen = some (if finds row then f row else row) := by
  rw [State.updateJob, hrow]
  by_cases found : finds row = true
  · simp only [if_pos found]
    rfl
  · simp only [if_neg found]
    exact hrow

theorem seen_of_unlocked (unlocked : s.ownJob.isNone = true) : s.seen = s.job := by
  rw [State.seen, Option.isNone_iff_eq_none.mp unlocked, Option.none_or]

theorem seen_isSome (stored : s.job.isSome = true) : ∃ row, s.seen = some row := by
  rw [State.seen]
  cases s.ownJob with
  | none => exact Option.isSome_iff_exists.mp stored
  | some row => exact ⟨row, rfl⟩

theorem committed_job (stored : s.job.isSome = true) (phase : Phase) :
    (s.committed phase).job.isSome = true := by
  obtain ⟨row, hseen⟩ := seen_isSome stored
  rw [State.committed, hseen]
  rfl

/-- After `mark_completed` the row has ended, whoever ended it. -/
theorem terminal_of_markCompleted {row : JobRow} (topicsCreated entriesCreated : Nat)
    (centsSpent : Cents) (now : Time) :
    (if unfinished row then row.markCompleted topicsCreated entriesCreated centsSpent now
      else row).status.terminal = true := by
  by_cases live : row.status.terminal = true
  · simp [unfinished, live]
  · have hlive : row.status.terminal = false := by simpa using live
    simp only [unfinished, hlive, Bool.not_false, if_true]
    rw [(JobRow.markCompleted_of_live hlive).1]
    rfl

end Job

/-- The run leaves through an idempotency check only when its job has ended, and
nobody revives the job between the run's last statement and its commit. -/
def endsJob (id : JobId) (s : State M) : Action M → Bool
  | .check => s.processedAt.isNone || s.seen.any (fun row => row.status.terminal)
  | .recheck => s.processedAt.isNone || s.seen.any (fun row => row.status.terminal)
  | .otherStatement statement =>
    match s.phase with
    | .closing _ => s.job.all (fun row =>
        !row.status.terminal || (rowAfter id statement row).status.terminal)
    | _ => true
  | _ => true

def JobEnded (job : Option JobRow) : Prop := ∃ row, job = some row ∧ row.status.terminal = true

/-- A run that has begun on an existing row. -/
structure Ends (s : State M) : Prop where
  job : s.job.isSome = true
  begun : s.phase ≠ .idle
  closing : ∀ exit, s.phase = .closing exit → JobEnded s.seen
  returned : ∀ exit, s.phase = .returned exit → JobEnded s.job

theorem Ends.of_inside {s : State M} (job : s.job.isSome = true)
    (inside : s.phase.inside = true) : Ends s := by
  refine ⟨job, ?_, ?_, ?_⟩
  · intro h
    rw [h] at inside
    cases inside
  · intro exit h
    rw [h] at inside
    cases inside
  · intro exit h
    rw [h] at inside
    cases inside

/-- A step that leaves the job and the run alone. -/
theorem Ends.same {s t : State M} (inv : Ends s) (job : t.job = s.job)
    (ownJob : t.ownJob = s.ownJob) (phase : t.phase = s.phase) : Ends t where
  job := by rw [job, inv.job]
  begun := by rw [phase]; exact inv.begun
  closing := by
    rw [phase, State.seen, job, ownJob]
    exact inv.closing
  returned := by
    rw [phase, job]
    exact inv.returned

theorem Ends.checkIdempotent {s : State M} (inv : Ends s) {exit : Exit} {next : Phase}
    (guard : (s.processedAt.isNone || s.seen.any (fun row => row.status.terminal)) = true)
    (inside : next.inside = true) : Ends (s.checkIdempotent exit next) := by
  cases hprocessed : s.processedAt with
  | none =>
    have phase : (s.checkIdempotent exit next).phase = next := by
      simp [State.checkIdempotent, hprocessed]
    exact Ends.of_inside inv.job (phase.symm ▸ inside)
  | some instant =>
    have phase : (s.checkIdempotent exit next).phase = .closing exit := by
      simp [State.checkIdempotent, hprocessed]
    refine ⟨inv.job, ?_, ?_, ?_⟩
    · rw [phase]
      exact fun h => by cases h
    · intro _ _
      rw [hprocessed, Option.isNone_some, Bool.false_or] at guard
      exact (Option.any_eq_true _ _).mp guard
    · intro exit' h
      rw [phase] at h
      cases h

section Ending
variable [DecidableEq M]

theorem step_ends (id : JobId) (s : State M) (a : Action M) (t : State M) (inv : Ends s)
    (guard : endsJob id s a = true) (stepped : step id s a = some t) : Ends t := by
  cases a with
  | save messages =>
    obtain ⟨_, rfl⟩ := step_save.mp stepped
    exact inv.same rfl rfl rfl
  | processedByOther now =>
    obtain ⟨_, rfl⟩ := step_processedByOther.mp stepped
    exact inv.same rfl rfl rfl
  | otherStatement statement =>
    obtain ⟨⟨running, unlocked⟩, rfl⟩ := step_otherStatement.mp stepped
    refine ⟨by simpa using inv.job, inv.begun, ?_, ?_⟩
    · intro exit hphase
      obtain ⟨row, hseen, ended⟩ := inv.closing exit hphase
      rw [seen_of_unlocked unlocked] at hseen
      have hphase' : s.phase = .closing exit := hphase
      simp only [endsJob, hphase', hseen, Option.all_some, ended, Bool.not_true,
        Bool.false_or] at guard
      have seen : State.seen { s with job := s.job.map (rowAfter id statement) } =
          s.job.map (rowAfter id statement) := seen_of_unlocked unlocked
      exact ⟨rowAfter id statement row, seen.trans (congrArg _ hseen), guard⟩
    · intro exit hphase
      have stopped : s.phase.over = true := by rw [hphase]; rfl
      rw [stopped] at running
      cases running
  | createPending userId conversationId source periodStart now =>
    obtain ⟨⟨idle, _⟩, _⟩ := step_createPending.mp stepped
    exact absurd idle inv.begun
  | check =>
    obtain ⟨_, rfl⟩ := step_check.mp stepped
    exact inv.checkIdempotent guard rfl
  | markRunning now =>
    obtain ⟨_, rfl⟩ := step_markRunning.mp stepped
    exact Ends.of_inside ((congrArg Option.isSome (updateJob_job _ _)).trans inv.job) rfl
  | load =>
    obtain ⟨_, messages, _, rfl⟩ := step_load.mp stepped
    exact Ends.of_inside (committed_job inv.job .loaded) rfl
  | categorize usable =>
    obtain ⟨_, rfl⟩ := step_categorize.mp stepped
    cases usable with
    | true => exact Ends.of_inside inv.job rfl
    | false => exact Ends.of_inside inv.job rfl
  | recheck =>
    obtain ⟨_, rfl⟩ := step_recheck.mp stepped
    exact inv.checkIdempotent guard rfl
  | markProcessed now =>
    have job : (s.ownMarkProcessed now).job.isSome = true := by
      unfold State.ownMarkProcessed
      split
      · exact inv.job
      · exact inv.job
    rcases step_markProcessed.mp stepped with ⟨_, rfl⟩ | ⟨_, rfl⟩
    · exact Ends.of_inside job rfl
    · exact Ends.of_inside job rfl
  | markCompleted topicsCreated entriesCreated centsSpent now =>
    obtain ⟨exit, _, rfl⟩ := step_markCompleted.mp stepped
    obtain ⟨row, hseen⟩ := seen_isSome inv.job
    constructor
    · exact (congrArg Option.isSome (updateJob_job _ _)).trans inv.job
    · exact fun h => by cases h
    · intro _ _
      exact ⟨_, updateJob_seen hseen _ _, terminal_of_markCompleted _ _ _ _⟩
    · exact fun _ h => by cases h
  | commit =>
    obtain ⟨exit, hphase, rfl⟩ := step_commit.mp stepped
    constructor
    · exact committed_job inv.job (.returned exit)
    · exact fun h => by cases h
    · exact fun _ h => by cases h
    · exact fun _ _ => inv.closing exit hphase
  | fail =>
    obtain ⟨_, rfl⟩ := step_fail.mp stepped
    exact Ends.of_inside inv.job rfl

/-- A run that returns leaves its job completed or failed, when it does not
return through an idempotency check while the job is pending or running. -/
theorem returned_job_has_ended {id : JobId} {s t : State M} {acts : List (Action M)}
    {exit : Exit} (queued : s.phase = .queued) (job : s.job.isSome = true)
    (obeys : Replay.Obeys (step id) (fun s a => endsJob id s a = true) s acts)
    (ran : Replay.run (step id) s acts = some t) (returned : t.phase = .returned exit) :
    ∃ row, t.job = some row ∧ row.status.terminal = true :=
  have inside : s.phase.inside = true := by rw [queued]; rfl
  (Replay.run_invariant (step_ends id) (Ends.of_inside job inside) obeys ran).returned exit returned

end Ending

def sampleJob : JobRow := pendingRow 7 3 (py "chatgpt") 0 0

/-- A saved conversation and its queued job. -/
def queuedRun (processedAt : Option Time) : State Nat :=
  { start with
    messages := some 1
    processedAt := processedAt
    job := some sampleJob
    phase := .queued
    changed := processedAt.isNone
    expects := processedAt.isNone }

def undisturbedRun : List (Action Nat) :=
  [.check, .markRunning 1, .load, .categorize true, .recheck, .markProcessed 2,
   .markCompleted 1 4 3 2, .commit]

theorem returned_job_has_ended_once :
    ∃ t, Replay.run (step 1) (queuedRun none) undisturbedRun = some t ∧
      t.phase = .returned .extracted ∧ ∃ row, t.job = some row ∧ row.status.terminal = true := by
  refine ⟨_, rfl, rfl, ?_⟩
  exact @returned_job_has_ended Nat _ 1 (queuedRun none) _ undisturbedRun .extracted rfl rfl
    (by decide) rfl rfl

/-- Another run has processed the conversation before this one begins. -/
theorem skipped_job_stays_pending :
    ¬ ∀ (id : JobId) (s t : State Nat) (acts : List (Action Nat)) (exit : Exit),
      s.phase = .queued → s.job.isSome = true → Replay.run (step id) s acts = some t →
      t.phase = .returned exit → ∃ row, t.job = some row ∧ row.status.terminal = true := by
  intro all
  obtain ⟨row, hrow, ended⟩ :=
    all 1 (queuedRun (some 0)) _ [.check, .commit] .alreadyProcessed rfl rfl rfl rfl
  cases hrow
  revert ended
  decide

end ExtractRun
