import Gubbi.Extraction.Worker
import Gubbi.Library.Effects
import Gubbi.Validation

/-!
# The billing period of a settlement

`extract_conversation` from its first line to its last, with the local variables that say which
bucket it settles in, and the outcome of every call out of it. The period of the job row is read in
the first connection; the flag `_period_start_known` is set there, and the period itself takes
effect behind it. The flag is looked at in the `except` block only.
-/

namespace BillingPeriod

open Text ExtractionJobs Transactions Connections Effects Validation
open ExtractConversation (Failure)

/-- What leaves a block without a return. `cancelled` stands for a `BaseException`, which
`except Exception` lets through. -/
inductive Fault
  | exception (failure : Failure)
  | cancelled
  deriving DecidableEq

abbrev Outcome (A : Type) := Except Fault A

/-- The arguments of `record_actual_cost`. -/
structure Call where
  userId : UserId
  periodStart : Period
  actualCents : Cents
  estimatedCents : Cents
  deriving DecidableEq

structure Locals where
  effectivePeriodStart : Period
  periodStartKnown : Bool
  jobPeriodStart : Option Period
  calls : List Call
  /-- `extraction.refund_skipped_total`. -/
  refundsSkipped : Nat

abbrev Run (A : Type) := Session Locals Fault A

structure Categorization where
  topicPath : Option PyStr
  inputTokens : Nat
  outputTokens : Nat

structure Extraction where
  inputTokens : Nat
  outputTokens : Nat

/-- The outcome of `record_actual_cost`, and of the warning when it raises. -/
structure Reply where
  reply : Outcome Unit
  warning : Outcome Unit

/-- What a run is given, and what its calls come back with. -/
structure World where
  userId : UserId
  currentPeriodStart : Period
  preChargeCents : Cents
  lowering : Lowering
  budgetHelper : Bool
  /-- The rows that the first connection sees. -/
  jobs : Jobs
  openFirst : Outcome Unit
  firstCheck : Outcome Bool
  markRunning : Outcome Unit
  periodStatement : Outcome Unit
  load : Outcome Unit
  closeFirst : Outcome Unit
  categorize : Outcome Categorization
  markSkipped : Outcome Unit
  skipRefund : Reply
  extract : Outcome Extraction
  estimate : Nat → Nat → Outcome Cents
  openSecond : Outcome Unit
  secondCheck : Outcome Bool
  persist : Outcome Nat
  delta : Reply
  closeSecond : Outcome Unit
  unknownPeriodWarning : Outcome Unit
  failureRefund : Reply
  markJobFailed : Outcome Unit
  announce : Outcome Unit

/-- The argument `job_id`, with the outcome of `UUID(job_id)`. -/
inductive JobRef
  | unknown
  | real (uuid : Outcome JobId)

structure Summary where
  topicPath : Option PyStr
  entriesCreated : Nat
  inputTokens : Nat
  outputTokens : Nat
  centsSpent : Cents
  skipped : Bool

def Locals.start (w : World) (job : JobRef) : Locals where
  effectivePeriodStart := w.currentPeriodStart
  periodStartKnown := match job with
    | .unknown => true
    | .real _ => false
  jobPeriodStart := none
  calls := []
  refundsSkipped := 0

/-- `except Exception`. -/
def exceptException {A : Type} (x : Run A) (handler : Failure → Run A) : Run A :=
  rescue x fun
    | .exception failure => handler failure
    | .cancelled => fail .cancelled

def Locals.called (w : World) (actualCents : Cents) (s : Locals) : Locals :=
  { s with calls :=
      s.calls ++ [⟨w.userId, s.effectivePeriodStart, actualCents, w.preChargeCents⟩] }

/-- The best-effort call of the budget helper, where there is one. -/
def recordActualCost (w : World) (actualCents : Cents) (reply : Reply) : Run Unit :=
  if w.budgetHelper then do
    assign (Locals.called w actualCents)
    exceptException (await reply.reply) (fun _ => await reply.warning)
  else pure ()

/-- `mark_running` and `get_period_start`, for a job that has a row. -/
def markAndLookUp (w : World) : JobRef → Run Unit
  | .unknown => pure ()
  | .real uuid => do
    let id ← await uuid
    await w.markRunning
    await w.periodStatement
    assign (fun s => { s with jobPeriodStart := getPeriodStart w.jobs id })
    assign (fun s => { s with periodStartKnown := s.jobPeriodStart.isSome })

/-- Phase 1; `true` where the conversation is processed already. -/
def phaseOne (w : World) (job : JobRef) : Run Bool := do
  await w.openFirst
  asyncWith w.closeFirst do
    let processed ← await w.firstCheck
    if processed then pure true
    else do
      markAndLookUp w job
      await w.load
      pure false

def skipped (inputTokens outputTokens : Nat) (centsSpent : Cents) : Summary :=
  ⟨none, 0, inputTokens, outputTokens, centsSpent, true⟩

/-- The exit without a usable topic. -/
def noTopic (w : World) (categorization : Categorization) : Run Summary := do
  await w.markSkipped
  recordActualCost w 0 w.skipRefund
  pure (skipped categorization.inputTokens categorization.outputTokens 0)

/-- The entries are extracted and persisted; the delta is written before the commit. -/
def withTopic (w : World) (categorization : Categorization) (topicPath : PyStr) : Run Summary := do
  let extraction ← await w.extract
  let inputTokens := categorization.inputTokens + extraction.inputTokens
  let outputTokens := categorization.outputTokens + extraction.outputTokens
  let centsSpent ← await (w.estimate inputTokens outputTokens)
  await w.openSecond
  asyncWith w.closeSecond do
    let processed ← await w.secondCheck
    if processed then pure (skipped inputTokens outputTokens centsSpent)
    else do
      let entriesCreated ← await w.persist
      recordActualCost w centsSpent w.delta
      pure ⟨some topicPath, entriesCreated, inputTokens, outputTokens, centsSpent, false⟩

/-- Phases 2 and 3. -/
def laterPhases (w : World) : Run Summary := do
  let categorization ← await w.categorize
  match hardenLlmTopicPath w.lowering categorization.topicPath with
  | none => noTopic w categorization
  | some topicPath => withTopic w categorization topicPath

def resolvePeriod (s : Locals) : Locals :=
  { s with effectivePeriodStart := s.jobPeriodStart.getD s.effectivePeriodStart }

/-- The inner `try`. -/
def attempt (w : World) (job : JobRef) : Run Summary := do
  let processed ← phaseOne w job
  if processed then pure (skipped 0 0 0)
  else do
    assign resolvePeriod
    laterPhases w

def refundOrSkip (w : World) : Run Unit :=
  if w.budgetHelper then do
    let known ← query Locals.periodStartKnown
    if known then recordActualCost w 0 w.failureRefund
    else do
      await w.unknownPeriodWarning
      assign (fun s => { s with refundsSkipped := s.refundsSkipped + 1 })
  else pure ()

/-- The inner `except` block. -/
def onFailure (w : World) (job : JobRef) (failure : Failure) : Run Summary := do
  refundOrSkip w
  match job with
  | .unknown => pure ()
  | .real _ => await w.markJobFailed
  fail (.exception failure)

def extractConversation (w : World) (job : JobRef) : Run Summary := do
  let summary ← exceptException (attempt w job) (onFailure w job)
  if summary.skipped then pure summary
  else do
    await w.announce
    pure summary

/-- The variables and the calls of a run when it has ended, in whatever way. -/
def finalLocals (w : World) (job : JobRef) : Locals :=
  (extractConversation w job (Locals.start w job)).2

/-- What the lookup of the period returned, if it did. -/
def World.lookup (w : World) (uuid : Outcome JobId) : Option (Option Period) :=
  match w.openFirst, w.firstCheck, uuid, w.markRunning, w.periodStatement with
  | .ok _, .ok false, .ok id, .ok _, .ok _ => some (getPeriodStart w.jobs id)
  | _, _, _, _, _ => none

/-- The load, or the end of its connection, raises what the `except` block catches. -/
def World.LoadRaises (w : World) : Prop :=
  ∃ failure, closing w.closeFirst w.load = .error (.exception failure)

/-- The entries of a conversation that is still unprocessed are persisted. -/
def World.persists (w : World) (categorization : Categorization) : Bool :=
  match w.extract with
  | .error _ => false
  | .ok extraction =>
    (w.estimate (categorization.inputTokens + extraction.inputTokens)
      (categorization.outputTokens + extraction.outputTokens)).isOk && w.openSecond.isOk &&
      decide (w.secondCheck = .ok false) && w.persist.isOk

/-- Nothing in Phases 2 and 3 raises or returns before the budget is settled. -/
def World.settles (w : World) : Bool :=
  match w.categorize with
  | .error _ => false
  | .ok categorization =>
    match hardenLlmTopicPath w.lowering categorization.topicPath with
    | none => w.markSkipped.isOk
    | some _ => w.persists categorization

/-- No settlement to a guessed period. -/
structure SettledToJobPeriod (w : World) (uuid : Outcome JobId) (final : Locals) : Prop where
  unknown : final.jobPeriodStart = none → final.calls = []
  stored : ∀ call ∈ final.calls,
    ∃ id, uuid = .ok id ∧ getPeriodStart w.jobs id = some call.periodStart

section Lookup
variable {w : World} {uuid : Outcome JobId} {found : Option Period}

theorem lookup_eq_some : w.lookup uuid = some found ↔
    w.openFirst = .ok () ∧ w.firstCheck = .ok false ∧ w.markRunning = .ok () ∧
      w.periodStatement = .ok () ∧ ∃ id, uuid = .ok id ∧ getPeriodStart w.jobs id = found := by
  unfold World.lookup
  constructor
  · intro h
    split at h
    · next _ id _ _ opened checked marked stated =>
      exact ⟨opened, checked, marked, stated, id, rfl, Option.some.inj h⟩
    · cases h
  · rintro ⟨opened, checked, marked, stated, id, parsed, rfl⟩
    rw [opened, checked, parsed, marked, stated]

theorem phaseOne_of_lookup (h : w.lookup uuid = some found) (s : Locals) :
    phaseOne w (.real uuid) s =
      (closing w.closeFirst (w.load.map fun _ => false),
        { s with jobPeriodStart := found, periodStartKnown := found.isSome }) := by
  obtain ⟨opened, checked, marked, stated, id, parsed, rfl⟩ := lookup_eq_some.mp h
  rw [phaseOne, opened, await_ok_bind, asyncWith_apply, checked]
  simp only [await_ok_bind, Bool.false_eq_true, if_false]
  have looked : markAndLookUp w (.real uuid) s = (.ok (),
      { s with
        jobPeriodStart := getPeriodStart w.jobs id
        periodStartKnown := (getPeriodStart w.jobs id).isSome }) := by
    rw [markAndLookUp, parsed, marked, stated]
    rfl
  rw [bind_of_ok looked]
  cases w.load with
  | ok _ => rfl
  | error e => rfl

/-- Before the lookup returns, nothing is assigned. -/
theorem markAndLookUp_cases (w : World) (uuid : Outcome JobId) (s : Locals) :
    (∃ e, markAndLookUp w (.real uuid) s = (.error e, s)) ∨
      ∃ id, uuid = .ok id ∧ w.markRunning = .ok () ∧ w.periodStatement = .ok () := by
  rw [markAndLookUp]
  cases uuid with
  | error e => exact Or.inl ⟨e, await_error_bind⟩
  | ok id =>
    rw [await_ok_bind]
    cases w.markRunning with
    | error e => exact Or.inl ⟨e, await_error_bind⟩
    | ok _ =>
      rw [await_ok_bind]
      cases w.periodStatement with
      | error e => exact Or.inl ⟨e, await_error_bind⟩
      | ok _ => exact Or.inr ⟨id, rfl, rfl, rfl⟩

theorem phaseOne_of_not_lookup (h : w.lookup uuid = none) (s : Locals) :
    (phaseOne w (.real uuid) s).2 = s ∧ (phaseOne w (.real uuid) s).1 ≠ .ok false := by
  rw [phaseOne]
  cases opened : w.openFirst with
  | error e =>
    rw [await_error_bind]
    exact ⟨rfl, fun raised => by cases raised⟩
  | ok _ =>
    rw [await_ok_bind, asyncWith_apply]
    have not_false : ∀ {result : Outcome Bool}, result ≠ .ok false →
        closing w.closeFirst result ≠ .ok false := by
      intro result differs same
      exact differs (closing_eq_ok.mp same).2
    cases checked : w.firstCheck with
    | error e =>
      rw [await_error_bind]
      exact ⟨rfl, not_false fun raised => by cases raised⟩
    | ok processed =>
      rw [await_ok_bind]
      cases processed with
      | true => exact ⟨rfl, not_false fun returned => by cases returned⟩
      | false =>
        rcases markAndLookUp_cases w uuid s with ⟨e, raised⟩ | ⟨id, parsed, marked, stated⟩
        · simp only [Bool.false_eq_true, if_false]
          rw [bind_error raised]
          exact ⟨rfl, not_false fun returned => by cases returned⟩
        · have looked := lookup_eq_some.mpr ⟨opened, checked, marked, stated, id, parsed, rfl⟩
          rw [h] at looked
          cases looked

end Lookup

/-- Budget calls are made in the effective period, and what a settlement reads stays. -/
structure Settles (s s' : Locals) : Prop where
  effective : s'.effectivePeriodStart = s.effectivePeriodStart
  known : s'.periodStartKnown = s.periodStartKnown
  job : s'.jobPeriodStart = s.jobPeriodStart
  calls : ∃ more, s'.calls = s.calls ++ more ∧
    ∀ call ∈ more, call.periodStart = s.effectivePeriodStart

theorem Settles.refl (s : Locals) : Settles s s :=
  ⟨rfl, rfl, rfl, [], (List.append_nil _).symm, fun _ mem => absurd mem List.not_mem_nil⟩

theorem Settles.trans {a b c : Locals} (first : Settles a b) (second : Settles b c) :
    Settles a c := by
  obtain ⟨more, calls, periods⟩ := first.calls
  obtain ⟨more', calls', periods'⟩ := second.calls
  refine ⟨second.effective.trans first.effective, second.known.trans first.known,
    second.job.trans first.job, more ++ more', ?_, ?_⟩
  · rw [calls', calls, List.append_assoc]
  · intro call mem
    rcases List.mem_append.mp mem with mem | mem
    · exact periods call mem
    · exact (periods' call mem).trans first.effective

instance : Std.Refl Settles := ⟨Settles.refl⟩

instance : IsTrans Locals Settles := ⟨fun _ _ _ => Settles.trans⟩

theorem settles_called (w : World) (actualCents : Cents) (s : Locals) :
    Settles s (s.called w actualCents) := by
  refine ⟨rfl, rfl, rfl, _, rfl, fun call mem => ?_⟩
  rw [List.mem_singleton.mp mem]

section Frames
variable {A : Type} {w : World}

theorem within_exceptException {x : Run A} {handler : Failure → Run A} (body : Within Settles x)
    (handles : ∀ failure, Within Settles (handler failure)) :
    Within Settles (exceptException x handler) := by
  refine Within.rescue body fun e => ?_
  cases e with
  | exception failure => exact handles failure
  | cancelled => exact Within.fail _

theorem within_recordActualCost (actualCents : Cents) (reply : Reply) :
    Within Settles (recordActualCost w actualCents reply) := by
  rw [recordActualCost]
  split
  · refine Within.bind (Within.assign (settles_called w actualCents)) fun _ => ?_
    exact within_exceptException (Within.await _)
      fun _ => Within.await _
  · exact Within.pure ()

theorem within_noTopic (categorization : Categorization) :
    Within Settles (noTopic w categorization) := by
  refine Within.bind (Within.await _) fun _ => ?_
  exact Within.bind (within_recordActualCost 0 _)
    fun _ => Within.pure _

theorem within_withTopic (categorization : Categorization) (topicPath : PyStr) :
    Within Settles (withTopic w categorization topicPath) := by
  refine Within.bind (Within.await _) fun extraction => ?_
  refine Within.bind (Within.await _) fun centsSpent => ?_
  refine Within.bind (Within.await _) fun _ => Within.asyncWith ?_ _
  refine Within.bind (Within.await _) fun processed => ?_
  split
  · exact Within.pure _
  · refine Within.bind (Within.await _) fun entriesCreated => ?_
    exact Within.bind (within_recordActualCost centsSpent _)
      fun _ => Within.pure _

theorem within_laterPhases : Within Settles (laterPhases w) := by
  refine Within.bind (Within.await _) fun categorization => ?_
  split
  · exact within_noTopic categorization
  · exact within_withTopic categorization _

theorem within_refundOrSkip : Within Settles (refundOrSkip w) := by
  rw [refundOrSkip]
  split
  · refine Within.bind (Within.query _) fun known => ?_
    split
    · exact within_recordActualCost 0 _
    · refine Within.bind (Within.await _) fun _ => ?_
      exact Within.assign fun s => ⟨rfl, rfl, rfl, (Settles.refl s).calls⟩
  · exact Within.pure ()

end Frames

section Calls
variable {w : World} {uuid : Outcome JobId} {s : Locals}

/-- A session that makes one call of the budget helper, or none. -/
def CallsWhen (w : World) (called : Bool) (s after : Locals) : Prop :=
  if called then ∃ actualCents, after = s.called w actualCents else after = s

/-- The call is made whatever comes back. -/
theorem recordActualCost_snd (w : World) (actualCents : Cents) (reply : Reply) (s : Locals) :
    (recordActualCost w actualCents reply s).2 =
      if w.budgetHelper then s.called w actualCents else s := by
  rw [recordActualCost]
  cases w.budgetHelper with
  | false => rfl
  | true =>
    rw [if_pos rfl, assign_bind, exceptException]
    cases reply.reply with
    | ok _ => rfl
    | error e =>
      cases e with
      | exception failure => rfl
      | cancelled => rfl

theorem recordActualCost_calls (w : World) (actualCents : Cents) (reply : Reply) (s : Locals) :
    CallsWhen w w.budgetHelper s (recordActualCost w actualCents reply s).2 := by
  rw [recordActualCost_snd]
  cases w.budgetHelper with
  | false => rfl
  | true => exact ⟨actualCents, rfl⟩

theorem bind_recordActualCost {A : Type} (next : Unit → Run A)
    (still : ∀ s, (next () s).2 = s) (actualCents : Cents) (reply : Reply) (s : Locals) :
    ((recordActualCost w actualCents reply >>= next) s).2 =
      (recordActualCost w actualCents reply s).2 := by
  cases returned : recordActualCost w actualCents reply s with
  | mk result after =>
    cases result with
    | ok u =>
      rw [bind_of_ok returned]
      exact still after
    | error e => rw [bind_error returned]

theorem noTopic_calls (categorization : Categorization) :
    CallsWhen w (w.markSkipped.isOk && w.budgetHelper) s (noTopic w categorization s).2 := by
  rw [noTopic]
  cases w.markSkipped with
  | error e => rfl
  | ok _ =>
    rw [await_ok_bind, bind_recordActualCost _ fun _ => rfl]
    exact recordActualCost_calls w 0 _ s

theorem withTopic_calls (categorization : Categorization) (topicPath : PyStr) :
    CallsWhen w (w.persists categorization && w.budgetHelper) s
      (withTopic w categorization topicPath s).2 := by
  rw [withTopic, World.persists]
  cases w.extract with
  | error e => rfl
  | ok extraction =>
    rw [await_ok_bind]
    dsimp only
    cases w.estimate (categorization.inputTokens + extraction.inputTokens)
        (categorization.outputTokens + extraction.outputTokens) with
    | error e => rfl
    | ok centsSpent =>
      rw [await_ok_bind]
      cases w.openSecond with
      | error e => rfl
      | ok _ =>
        rw [await_ok_bind, asyncWith_apply]
        cases w.secondCheck with
        | error e => rfl
        | ok processed =>
          rw [await_ok_bind]
          cases processed with
          | true => rfl
          | false =>
            simp only [Bool.false_eq_true, if_false]
            cases w.persist with
            | error e => rfl
            | ok entriesCreated =>
              rw [await_ok_bind, bind_recordActualCost _ fun _ => rfl]
              exact recordActualCost_calls w centsSpent _ s

theorem laterPhases_calls :
    CallsWhen w (w.settles && w.budgetHelper) s (laterPhases w s).2 := by
  rw [laterPhases, World.settles]
  cases w.categorize with
  | error e => rfl
  | ok categorization =>
    rw [await_ok_bind]
    dsimp only
    cases hardenLlmTopicPath w.lowering categorization.topicPath with
    | none => exact noTopic_calls categorization
    | some topicPath => exact withTopic_calls categorization topicPath

theorem refundOrSkip_unknown (unknown : s.periodStartKnown = false) :
    (refundOrSkip w s).2.calls = s.calls := by
  rw [refundOrSkip]
  split
  · have queried : query Locals.periodStartKnown s = ((.ok false, s) : Outcome Bool × Locals) := by
      rw [query, unknown]
    rw [bind_of_ok queried]
    simp only [Bool.false_eq_true, if_false]
    cases w.unknownPeriodWarning with
    | error e => rfl
    | ok _ => rfl
  · rfl

theorem refundOrSkip_known (known : s.periodStartKnown = true) :
    (refundOrSkip w s).2 = if w.budgetHelper then s.called w 0 else s := by
  have queried : query Locals.periodStartKnown s = ((.ok true, s) : Outcome Bool × Locals) := by
    rw [query, known]
  rw [← recordActualCost_snd w 0 w.failureRefund s, refundOrSkip]
  split
  · rw [bind_of_ok queried, if_pos rfl]
  · next without =>
    rw [recordActualCost, if_neg without]

/-- After the refund, the handler only raises. -/
theorem onFailure_snd (job : JobRef) (failure : Failure) :
    (onFailure w job failure s).2 = (refundOrSkip w s).2 := by
  rw [onFailure]
  cases returned : refundOrSkip w s with
  | mk result after =>
    cases result with
    | error e => rw [bind_error returned]
    | ok _ =>
      rw [bind_of_ok returned]
      cases job with
      | unknown => rfl
      | real uuid =>
        dsimp only
        cases w.markJobFailed with
        | error e => rfl
        | ok _ => rfl

/-- Behind the inner `try`, no variable is assigned. -/
theorem finalLocals_eq (w : World) (job : JobRef) : finalLocals w job =
    (exceptException (attempt w job) (onFailure w job) (Locals.start w job)).2 := by
  rw [finalLocals, extractConversation]
  cases returned : exceptException (attempt w job) (onFailure w job) (Locals.start w job) with
  | mk result after =>
    cases result with
    | error e => rw [bind_error returned]
    | ok summary =>
      rw [bind_of_ok returned]
      split
      · rfl
      · cases w.announce with
        | error e => rfl
        | ok _ => rfl

/-- Where the inner `try` does not raise, or is cancelled, the run ends with its variables. -/
theorem finalLocals_cases {job : JobRef} {result : Outcome Summary} {after : Locals}
    (ran : attempt w job (Locals.start w job) = (result, after)) :
    ((∀ failure, result ≠ .error (.exception failure)) ∧ finalLocals w job = after) ∨
      ∃ failure, result = .error (.exception failure) ∧
        finalLocals w job = (refundOrSkip w after).2 := by
  rw [finalLocals_eq, exceptException]
  cases result with
  | ok summary =>
    rw [rescue_of_ok ran]
    exact Or.inl ⟨(fun _ h => by cases h), rfl⟩
  | error e =>
    rw [rescue_error ran]
    cases e with
    | cancelled => exact Or.inl ⟨(fun _ h => by cases h), rfl⟩
    | exception failure => exact Or.inr ⟨failure, rfl, onFailure_snd job failure⟩

end Calls

section Main
variable {w : World} {uuid : Outcome JobId}

/-- Where the lookup returns no row, nothing is settled; where it returns one, the load that follows
in the same connection does not raise, unless the run is in the period of the job anyway. -/
structure PeriodSafe (w : World) (uuid : Outcome JobId) : Prop where
  noRow : w.lookup uuid = some none → closing w.closeFirst w.load = .ok () → w.settles = false
  loadRaises : ∀ periodStart, w.lookup uuid = some (some periodStart) → w.LoadRaises →
    periodStart = w.currentPeriodStart

theorem settled_of_no_calls {final : Locals} (none : final.calls = []) :
    SettledToJobPeriod w uuid final := by
  constructor
  · exact fun _ => none
  · intro call mem
    rw [none] at mem
    cases mem

theorem calls_of_not_lookup (h : w.lookup uuid = none) :
    (finalLocals w (.real uuid)).calls = [] := by
  obtain ⟨same, not_false⟩ := phaseOne_of_not_lookup h (Locals.start w (.real uuid))
  cases ran : phaseOne w (.real uuid) (Locals.start w (.real uuid)) with
  | mk result after =>
    rw [ran] at same not_false
    have ended : (attempt w (.real uuid) (Locals.start w (.real uuid))).2 = after := by
      rw [attempt]
      cases result with
      | error e => rw [bind_error ran]
      | ok processed =>
        rw [bind_of_ok ran]
        cases processed with
        | false => exact absurd rfl not_false
        | true => rfl
    cases tried : attempt w (.real uuid) (Locals.start w (.real uuid)) with
    | mk tried_result tried_after =>
      rw [tried] at ended
      have start : tried_after = Locals.start w (.real uuid) := ended.trans same
      rcases finalLocals_cases tried with ⟨_, final⟩ | ⟨_, _, final⟩
      · rw [final, start]
        rfl
      · rw [final, start, refundOrSkip_unknown rfl]
        rfl

/-- The variables once the lookup has returned. -/
def lookedUp (w : World) (found : Option Period) : Locals where
  effectivePeriodStart := w.currentPeriodStart
  periodStartKnown := found.isSome
  jobPeriodStart := found
  calls := []
  refundsSkipped := 0

theorem attempt_of_raised {found : Option Period} {e : Fault}
    (h : w.lookup uuid = some found) (raised : closing w.closeFirst w.load = .error e) :
    attempt w (.real uuid) (Locals.start w (.real uuid)) = (.error e, lookedUp w found) := by
  have failed : closing w.closeFirst (w.load.map fun _ => false) = .error e := by
    cases closed : w.closeFirst with
    | error e' =>
      rw [closed] at raised
      exact congrArg _ (Except.error.inj raised)
    | ok _ =>
      rw [closed] at raised
      have load : w.load = .error e := raised
      rw [load]
      rfl
  have ran := phaseOne_of_lookup h (Locals.start w (.real uuid))
  rw [failed] at ran
  rw [attempt, bind_error ran]
  rfl

theorem attempt_of_loaded {found : Option Period}
    (h : w.lookup uuid = some found) (loaded : closing w.closeFirst w.load = .ok ()) :
    attempt w (.real uuid) (Locals.start w (.real uuid)) =
      laterPhases w (resolvePeriod (lookedUp w found)) := by
  obtain ⟨closed, load⟩ := closing_eq_ok.mp loaded
  have ran := phaseOne_of_lookup h (Locals.start w (.real uuid))
  rw [closed, load] at ran
  rw [attempt, bind_of_ok ran]
  rfl

theorem settled_iff_of_raised {found : Option Period} {failure : Failure}
    (h : w.lookup uuid = some found)
    (raised : closing w.closeFirst w.load = .error (.exception failure)) :
    SettledToJobPeriod w uuid (finalLocals w (.real uuid)) ↔
      (w.budgetHelper = true → ∀ periodStart, found = some periodStart →
        periodStart = w.currentPeriodStart) := by
  obtain ⟨_, _, _, _, id, parsed, stored⟩ := lookup_eq_some.mp h
  have final : finalLocals w (.real uuid) = (refundOrSkip w (lookedUp w found)).2 := by
    rcases finalLocals_cases (attempt_of_raised h raised) with ⟨quiet, _⟩ | ⟨_, _, final⟩
    · exact absurd rfl (quiet failure)
    · exact final
  cases found with
  | none =>
    refine iff_of_true (settled_of_no_calls ?_) fun _ _ isSome => by cases isSome
    rw [final, refundOrSkip_unknown rfl]
    rfl
  | some periodStart =>
    rw [final, refundOrSkip_known rfl]
    cases w.budgetHelper with
    | false =>
      exact iff_of_true (settled_of_no_calls rfl) fun helper => by cases helper
    | true =>
      constructor
      · rintro settled _ _ same
        obtain ⟨id', parsed', billed⟩ := settled.stored _ (List.mem_singleton_self _)
        cases parsed.symm.trans parsed'
        exact (Option.some.inj same).symm.trans (Option.some.inj (stored.symm.trans billed))
      · intro current
        have same : periodStart = w.currentPeriodStart := current rfl periodStart rfl
        refine ⟨(fun none => by cases none), fun call mem => ⟨id, parsed, ?_⟩⟩
        rw [List.mem_singleton.mp mem, stored, same]
        rfl

theorem settled_iff_of_loaded {found : Option Period} (h : w.lookup uuid = some found)
    (loaded : closing w.closeFirst w.load = .ok ()) :
    SettledToJobPeriod w uuid (finalLocals w (.real uuid)) ↔
      (w.budgetHelper = true → found = none → w.settles = false) := by
  obtain ⟨_, _, _, _, id, parsed, stored⟩ := lookup_eq_some.mp h
  have ran := attempt_of_loaded h loaded
  cases tried : laterPhases w (resolvePeriod (lookedUp w found)) with
  | mk result after =>
    rw [tried] at ran
    have moved : Settles (resolvePeriod (lookedUp w found)) after := by
      have := within_laterPhases (w := w) (resolvePeriod (lookedUp w found))
      rwa [tried] at this
    have handled : Settles after (finalLocals w (.real uuid)) := by
      rcases finalLocals_cases ran with ⟨_, final⟩ | ⟨_, _, final⟩
      · rw [final]
        exact Settles.refl after
      · rw [final]
        exact within_refundOrSkip after
    have whole := moved.trans handled
    obtain ⟨calls, same, periods⟩ := whole.calls
    cases found with
    | some periodStart =>
      refine iff_of_true ⟨?_, ?_⟩ fun _ none => by cases none
      · intro none
        cases none.symm.trans whole.job
      · intro call mem
        rw [same] at mem
        exact ⟨id, parsed, stored.trans (congrArg some (periods call mem).symm)⟩
    | none =>
      have unknown : after.periodStartKnown = false := moved.known
      have after_calls : (finalLocals w (.real uuid)).calls = after.calls := by
        rcases finalLocals_cases ran with ⟨_, final⟩ | ⟨_, _, final⟩
        · rw [final]
        · rw [final, refundOrSkip_unknown unknown]
      have called : CallsWhen w (w.settles && w.budgetHelper) (resolvePeriod (lookedUp w none))
          after := by
        have := laterPhases_calls (w := w) (s := resolvePeriod (lookedUp w none))
        rwa [tried] at this
      cases made : w.settles && w.budgetHelper with
      | true =>
        obtain ⟨settles, helper⟩ := Bool.and_eq_true_iff.mp made
        rw [made] at called
        obtain ⟨actualCents, rfl⟩ := called
        refine iff_of_false ?_ fun quiet => by cases settles.symm.trans (quiet helper rfl)
        intro settled
        have empty := settled.unknown whole.job
        rw [after_calls] at empty
        cases empty
      | false =>
        rw [made] at called
        refine iff_of_true (settled_of_no_calls ?_) ?_
        · rw [after_calls, show after = resolvePeriod (lookedUp w none) from called]
          rfl
        · intro helper _
          rwa [helper, Bool.and_true] at made

/-- Every settlement of a run is in the period of its job row exactly when there is no budget
helper, or the lookup of the period can be trusted. -/
theorem settledToJobPeriod_iff (w : World) (uuid : Outcome JobId) :
    SettledToJobPeriod w uuid (finalLocals w (.real uuid)) ↔
      (w.budgetHelper = true → PeriodSafe w uuid) := by
  cases looked : w.lookup uuid with
  | none =>
    refine iff_of_true (settled_of_no_calls (calls_of_not_lookup looked)) fun _ => ⟨?_, ?_⟩
    · intro found
      cases looked.symm.trans found
    · intro _ found
      cases looked.symm.trans found
  | some found =>
    cases outcome : closing w.closeFirst w.load with
    | ok _ =>
      rw [settled_iff_of_loaded looked outcome]
      refine imp_congr_right fun _ => ⟨fun quiet => ⟨?_, ?_⟩, fun safe none => ?_⟩
      · exact fun none _ => quiet (Option.some.inj (looked.symm.trans none))
      · rintro _ _ ⟨failure, raised⟩
        cases outcome.symm.trans raised
      · exact safe.noRow (looked.trans (congrArg some none)) outcome
    | error e =>
      cases e with
      | cancelled =>
        refine iff_of_true (settled_of_no_calls ?_) fun _ => ⟨?_, ?_⟩
        · rcases finalLocals_cases (attempt_of_raised looked outcome) with
            ⟨_, final⟩ | ⟨_, raised, _⟩
          · rw [final]
            rfl
          · cases raised
        · intro _ loaded
          cases outcome.symm.trans loaded
        · rintro _ _ ⟨failure, raised⟩
          cases outcome.symm.trans raised
      | exception failure =>
        rw [settled_iff_of_raised looked outcome]
        refine imp_congr_right fun _ => ⟨fun current => ⟨?_, ?_⟩, fun safe _ same => ?_⟩
        · intro _ loaded
          cases outcome.symm.trans loaded
        · exact fun _ known _ => current _ (Option.some.inj (looked.symm.trans known))
        · exact safe.loadRaises _ (looked.trans (congrArg some same)) ⟨failure, outcome⟩

end Main

/-- Every call out of the run returns, and the conversation has a topic and one entry. -/
def calmWorld : World where
  userId := 7
  currentPeriodStart := 20260601
  preChargeCents := 5
  lowering := ⟨lowerAscii, lowerAscii_ascii⟩
  budgetHelper := true
  jobs := Table.empty.put 1 (pendingRow 7 3 (py "chatgpt") 20260501 0)
  openFirst := .ok ()
  firstCheck := .ok false
  markRunning := .ok ()
  periodStatement := .ok ()
  load := .ok ()
  closeFirst := .ok ()
  categorize := .ok ⟨some (py "work"), 100, 10⟩
  markSkipped := .ok ()
  skipRefund := ⟨.ok (), .ok ()⟩
  extract := .ok ⟨200, 50⟩
  estimate := fun _ _ => .ok 2
  openSecond := .ok ()
  secondCheck := .ok false
  persist := .ok 1
  delta := ⟨.ok (), .ok ()⟩
  closeSecond := .ok ()
  unknownPeriodWarning := .ok ()
  failureRefund := ⟨.ok (), .ok ()⟩
  markJobFailed := .ok ()
  announce := .ok ()

example : (finalLocals calmWorld (.real (.ok 1))).calls = [⟨7, 20260501, 2, 5⟩] := by
  decide +kernel

/-- The conversation has been deleted since ingest, so its load raises. -/
def deletedWorld : World := { calmWorld with load := .error (.exception .other) }

theorem deletedWorld_refunds_june :
    ¬ SettledToJobPeriod deletedWorld (.ok 1) (finalLocals deletedWorld (.real (.ok 1))) := by
  intro settled
  have refunded : ⟨7, 20260601, 0, 5⟩ ∈ (finalLocals deletedWorld (.real (.ok 1))).calls := by
    decide +kernel
  obtain ⟨id, parsed, stored⟩ := settled.stored _ refunded
  cases parsed
  revert stored
  decide +kernel

end BillingPeriod
