import Gubbi.Journal.Ingest

/-!
# Accounting of an ingest request

One call of `ingest_conversations` with all that it counts: the counters of the response,
the list of jobs to enqueue, and the user's bucket in the budget store. What the database,
the store and the queue answer is an input. The store itself is not part of the repository,
so that what its calls do to a bucket is a parameter.
-/

namespace IngestAccounting

open Text Validation JournalEntries JournalConversations Ingest

universe u

abbrev Cents := Nat
abbrev JobUuid := Nat

/-- How transaction 1 ends. -/
inductive Save
  | committed (conversationId : ConversationId) (supersededJsonPath : Option PyStr)
  | uniqueViolation
  | raises
  deriving DecidableEq

/-- How `create_pending` ends; a job in flight is used instead of a new one. -/
inductive CreatePending
  | created (job : JobUuid)
  | alreadyInFlight (existingJobId : JobUuid)
  | raises
  deriving DecidableEq

/-- What the outside answers while one payload is handled; a `preCheck` of `none` raises. -/
structure Answers where
  preCheck : Option Bool
  save : Save
  preCharge : PreCharge
  createPending : CreatePending
  auditRaises : Bool
  refundRaises : Bool
  deriving DecidableEq

abbrev Item := ConversationPayload × Answers

/-- Transaction 2 commits a job unless one of its statements raises. -/
def Answers.job (answers : Answers) : Option JobUuid :=
  match answers.createPending with
  | .raises => none
  | .created job | .alreadyInFlight job => if answers.auditRaises then none else some job

/-- `BudgetHelper`: what its calls do to the bucket of the user and the period. -/
structure BudgetHelper (B : Type u) where
  cents : B → Int
  granted : B → Cents → B
  denied : B → Cents → B
  recordActualCost : B → Cents → Cents → B

/-- A granted pre-charge adds the estimate, a denied one nothing, and recording a cost
replaces the estimate by it. -/
structure BudgetHelper.Lawful {B : Type u} (h : BudgetHelper B) : Prop where
  granted : ∀ bucket estimated, h.cents (h.granted bucket estimated) = h.cents bucket + estimated
  denied : ∀ bucket estimated, h.cents (h.denied bucket estimated) = h.cents bucket
  recorded : ∀ bucket actual estimated,
    h.cents (h.recordActualCost bucket actual estimated) = h.cents bucket + actual - estimated

inductive IngestError
  | inbox
  | preCheck
  | title (error : PyError)
  | save
  | preCharge
  | enqueue

/-- What `enqueue_job` does. It also returns when the queue has a job of this id. -/
inductive Enqueue
  | returned
  | redisError
  | osError
  | timeoutError
  | otherError
  deriving DecidableEq, Repr

structure Task where
  jobUuid : JobUuid
  conversationId : ConversationId
  deriving DecidableEq, Repr

/-- The variables of the loop. -/
structure Progress (B : Type u) where
  conversationsSaved : Nat
  conversationsSkippedDedupe : Nat
  extractionsSkippedBudget : Nat
  extractionsSkippedError : Nat
  budgetExhausted : Bool
  supersededJsonPaths : List PyStr
  enqueueTasks : List Task
  bucket : B

/-- The response with what the call has done: its calls of `enqueue_job` in order, the
archives that it deletes, and the bucket. -/
structure Returned (B : Type u) where
  response : Tally
  enqueueTasks : List Task
  calls : List (Task × Enqueue)
  deletedJsonPaths : List PyStr
  bucket : B

section Model
variable {B : Type u} (preChargeCents : Cents) (helper : Option (BudgetHelper B))

def Progress.start (bucket : B) : Progress B := ⟨0, 0, 0, 0, false, [], [], bucket⟩

def Progress.skipDedupe (p : Progress B) : Progress B :=
  { p with conversationsSkippedDedupe := p.conversationsSkippedDedupe + 1 }

/-- Without a helper every charge is granted. -/
def preCharge (bucket : B) (answer : PreCharge) : Except IngestError (Bool × B) :=
  match helper, answer with
  | none, _ => .ok (true, bucket)
  | some h, .granted => .ok (true, h.granted bucket preChargeCents)
  | some h, .denied => .ok (false, h.denied bucket preChargeCents)
  | some _, .raises => .error .preCharge

/-- A refund that raises is logged. -/
def refund (bucket : B) (raises : Bool) : B :=
  match helper with
  | none => bucket
  | some h => if raises then bucket else h.recordActualCost bucket 0 preChargeCents

/-- Transaction 2 of a payload whose charge is granted; a failure is refunded. -/
def createJob (p : Progress B) (conversationId : ConversationId) (answers : Answers)
    (bucket : B) : Progress B :=
  match answers.job with
  | none => { p with
      bucket := refund preChargeCents helper bucket answers.refundRaises
      extractionsSkippedError := p.extractionsSkippedError + 1 }
  | some job => { p with
      bucket := bucket
      enqueueTasks := p.enqueueTasks ++ [⟨job, conversationId⟩] }

def Progress.skipBudget (p : Progress B) (bucket : B) : Progress B :=
  { p with
    bucket := bucket
    extractionsSkippedBudget := p.extractionsSkippedBudget + 1
    budgetExhausted := true }

/-- After transaction 1 has committed: the pre-charge and transaction 2. -/
def extraction (p : Progress B) (conversationId : ConversationId) (answers : Answers) :
    Except IngestError (Progress B) :=
  match preCharge preChargeCents helper p.bucket answers.preCharge with
  | .error error => .error error
  | .ok (false, bucket) => .ok (p.skipBudget bucket)
  | .ok (true, bucket) => .ok (createJob preChargeCents helper p conversationId answers bucket)

def Progress.count (p : Progress B) (superseded : Option PyStr) : Progress B :=
  { p with
    conversationsSaved := p.conversationsSaved + 1
    supersededJsonPaths := p.supersededJsonPaths ++ superseded.toList }

/-- The loop body. -/
def handle (p : Progress B) (item : Item) : Except IngestError (Progress B) :=
  match item.2.preCheck with
  | none => .error .preCheck
  | some true => .ok p.skipDedupe
  | some false =>
    match ingestTitle item.1 with
    | .error error => .error (.title error)
    | .ok _ =>
      match item.2.save with
      | .raises => .error .save
      | .uniqueViolation => .ok p.skipDedupe
      | .committed conversationId superseded =>
        extraction preChargeCents helper (p.count superseded) conversationId item.2

def ingestLoop (p : Progress B) : List Item → Except IngestError (Progress B)
  | [] => .ok p
  | item :: rest =>
    match handle preChargeCents helper p item with
    | .error error => .error error
    | .ok p => ingestLoop p rest

/-- The calls of the enqueue loop; the first that raises ends it. -/
def enqueueLoop (arq : Nat → Enqueue) : Nat → List Task → List (Task × Enqueue)
  | _, [] => []
  | n, task :: rest =>
    (task, arq n) :: if arq n = .returned then enqueueLoop arq (n + 1) rest else []

/-- `except (RedisError, OSError, TimeoutError)`. -/
def Enqueue.escapes (answer : Enqueue) : Bool := answer = .otherError

def enqueueCalls (arqPool : Option (Nat → Enqueue)) (tasks : List Task) : List (Task × Enqueue) :=
  match arqPool with
  | none => []
  | some arq => enqueueLoop arq 0 tasks

def Progress.tally (p : Progress B) : Tally where
  conversationsSaved := p.conversationsSaved
  conversationsSkippedDedupe := p.conversationsSkippedDedupe
  extractionsEnqueued := p.enqueueTasks.length
  extractionsSkippedBudget := p.extractionsSkippedBudget
  extractionsSkippedError := p.extractionsSkippedError
  budgetExhausted := p.budgetExhausted

def ingestConversations (arqPool : Option (Nat → Enqueue)) (inboxRaises : Bool)
    (items : List Item) (bucket : B) : Except IngestError (Returned B) :=
  if inboxRaises then .error .inbox
  else
    match ingestLoop preChargeCents helper (Progress.start bucket) items with
    | .error error => .error error
    | .ok p =>
      let calls := enqueueCalls arqPool p.enqueueTasks
      if calls.any (fun call => call.2.escapes) then .error .enqueue
      else .ok {
        response := p.tally
        enqueueTasks := p.enqueueTasks
        calls := calls
        deletedJsonPaths := p.supersededJsonPaths
        bucket := p.bucket }

end Model

section Steps
variable {B : Type u} {preChargeCents : Cents} {helper : Option (BudgetHelper B)}

/-- The bucket after a pre-charge that is granted. -/
def charged (preChargeCents : Cents) (helper : Option (BudgetHelper B)) (bucket : B) : B :=
  match helper with
  | none => bucket
  | some h => h.granted bucket preChargeCents

def grants (helper : Option (BudgetHelper B)) (answers : Answers) : Bool :=
  helper.isNone || answers.preCharge = .granted

/-- The two ways a saved payload goes on. -/
theorem extraction_cases {p p' : Progress B} {id : ConversationId} {answers : Answers}
    (done : extraction preChargeCents helper p id answers = .ok p') :
    (grants helper answers = false ∧
      ∃ h, helper = some h ∧ p' = p.skipBudget (h.denied p.bucket preChargeCents)) ∨
    (grants helper answers = true ∧ p' = createJob preChargeCents helper p id answers
      (charged preChargeCents helper p.bucket)) := by
  unfold extraction preCharge at done
  cases helper with
  | none =>
    cases done
    exact Or.inr ⟨rfl, rfl⟩
  | some h =>
    cases answer : answers.preCharge with
    | granted =>
      rw [answer] at done
      cases done
      exact Or.inr ⟨by simp [grants, answer], rfl⟩
    | denied =>
      rw [answer] at done
      cases done
      exact Or.inl ⟨by simp [grants, answer], h, rfl, rfl⟩
    | raises =>
      rw [answer] at done
      cases done

/-- The payload is saved, as far as the answers go. -/
def saves (item : Item) : Bool :=
  item.2.preCheck = some false && (ingestTitle item.1).isOk &&
    match item.2.save with
    | .committed _ _ => true
    | _ => false

/-- A payload is skipped, or it is saved and goes on. -/
theorem handle_cases {p p' : Progress B} {item : Item}
    (done : handle preChargeCents helper p item = .ok p') :
    (saves item = false ∧ p' = p.skipDedupe) ∨
    (saves item = true ∧ ∃ id superseded,
      extraction preChargeCents helper (p.count superseded) id item.2 = .ok p') := by
  unfold handle at done
  cases hcheck : item.2.preCheck with
  | none =>
    rw [hcheck] at done
    cases done
  | some found =>
    cases found with
    | true =>
      rw [hcheck] at done
      cases done
      exact Or.inl ⟨by simp [saves, hcheck], rfl⟩
    | false =>
      cases htitle : ingestTitle item.1 with
      | error error =>
        rw [hcheck, htitle] at done
        cases done
      | ok title =>
        cases hsave : item.2.save with
        | raises =>
          rw [hcheck, htitle, hsave] at done
          cases done
        | uniqueViolation =>
          rw [hcheck, htitle, hsave] at done
          cases done
          exact Or.inl ⟨by simp [saves, hsave], rfl⟩
        | committed id superseded =>
          rw [hcheck, htitle, hsave] at done
          refine Or.inr ⟨?_, id, superseded, done⟩
          simp [saves, hcheck, htitle, hsave, Except.isOk, Except.toBool]

/-- Each payload handled so far is in one counter, and each saved one in one more. -/
structure Accounts (p : Progress B) (handled : Nat) : Prop where
  payloads : p.conversationsSaved + p.conversationsSkippedDedupe = handled
  saved : p.conversationsSaved =
    p.enqueueTasks.length + p.extractionsSkippedBudget + p.extractionsSkippedError
  exhausted : p.budgetExhausted = true ↔ 0 < p.extractionsSkippedBudget

theorem handle_accounts {p p' : Progress B} {item : Item} {handled : Nat}
    (accounts : Accounts p handled) (done : handle preChargeCents helper p item = .ok p') :
    Accounts p' (handled + 1) := by
  obtain ⟨payloads, saved, exhausted⟩ := accounts
  rcases handle_cases done with ⟨_, rfl⟩ | ⟨_, id, superseded, goesOn⟩
  · exact ⟨congrArg Nat.succ payloads, saved, exhausted⟩
  · rcases extraction_cases goesOn with ⟨_, h, _, rfl⟩ | ⟨_, rfl⟩
    · refine ⟨?_, ?_, iff_of_true rfl (Nat.succ_pos _)⟩
      · simp only [Progress.skipBudget, Progress.count]
        omega
      · simp only [Progress.skipBudget, Progress.count]
        omega
    · unfold createJob
      cases item.2.job with
      | none =>
        refine ⟨?_, ?_, exhausted⟩
        · simp only [Progress.count]
          omega
        · simp only [Progress.count]
          omega
      | some job =>
        refine ⟨?_, ?_, exhausted⟩
        · simp only [Progress.count]
          omega
        · simp only [Progress.count, List.length_append, List.length_singleton]
          omega

theorem ingestLoop_accounts {p p' : Progress B} {items : List Item} {handled : Nat}
    (accounts : Accounts p handled)
    (done : ingestLoop preChargeCents helper p items = .ok p') :
    Accounts p' (handled + items.length) := by
  induction items generalizing p handled with
  | nil =>
    cases done
    exact accounts
  | cons item rest ih =>
    rw [ingestLoop] at done
    cases hitem : handle preChargeCents helper p item with
    | error error =>
      rw [hitem] at done
      cases done
    | ok next =>
      rw [hitem] at done
      have after := ih (handle_accounts accounts hitem) done
      rwa [Nat.add_assoc, Nat.add_comm 1] at after

/-- A payload changes the bucket by the pre-charge if it adds a job, and else not at all. -/
theorem handle_cents {h : BudgetHelper B} (lawful : h.Lawful) {p p' : Progress B} {item : Item}
    (refunds : item.2.refundRaises = false)
    (done : handle preChargeCents (some h) p item = .ok p') :
    h.cents p'.bucket - preChargeCents * p'.enqueueTasks.length =
      h.cents p.bucket - preChargeCents * p.enqueueTasks.length := by
  rcases handle_cases done with ⟨_, rfl⟩ | ⟨_, id, superseded, goesOn⟩
  · rfl
  · rcases extraction_cases goesOn with ⟨_, _, same, rfl⟩ | ⟨_, rfl⟩
    · cases same
      exact congrArg (· - _) (lawful.denied _ _)
    · unfold createJob
      cases item.2.job with
      | none =>
        refine congrArg (· - _) ?_
        simp only [refund, charged, refunds, Bool.false_eq_true, if_false, lawful.recorded,
          lawful.granted, Progress.count]
        omega
      | some job =>
        simp only [charged, lawful.granted, Progress.count, List.length_append,
          List.length_singleton, Int.natCast_add, Int.mul_add, Int.cast_ofNat_Int, Int.mul_one]
        omega

theorem ingestLoop_cents {h : BudgetHelper B} (lawful : h.Lawful) {p p' : Progress B}
    {items : List Item} (refunds : ∀ item ∈ items, item.2.refundRaises = false)
    (done : ingestLoop preChargeCents (some h) p items = .ok p') :
    h.cents p'.bucket - preChargeCents * p'.enqueueTasks.length =
      h.cents p.bucket - preChargeCents * p.enqueueTasks.length := by
  induction items generalizing p with
  | nil =>
    cases done
    rfl
  | cons item rest ih =>
    rw [ingestLoop] at done
    cases hitem : handle preChargeCents (some h) p item with
    | error error =>
      rw [hitem] at done
      cases done
    | ok next =>
      rw [hitem] at done
      have later := ih (fun other mem => refunds other (List.mem_cons_of_mem _ mem)) done
      exact later.trans (handle_cents lawful (refunds item List.mem_cons_self) hitem)

/-- What a call that returns has done. -/
theorem ingestConversations_ok {arqPool : Option (Nat → Enqueue)} {inboxRaises : Bool}
    {items : List Item} {bucket : B} {r : Returned B}
    (returned : ingestConversations preChargeCents helper arqPool inboxRaises items bucket =
      .ok r) :
    ∃ p, ingestLoop preChargeCents helper (Progress.start bucket) items = .ok p ∧
      (∀ call ∈ enqueueCalls arqPool p.enqueueTasks, call.2.escapes = false) ∧
      r = ⟨p.tally, p.enqueueTasks, enqueueCalls arqPool p.enqueueTasks,
        p.supersededJsonPaths, p.bucket⟩ := by
  unfold ingestConversations at returned
  split at returned
  · cases returned
  · split at returned
    · cases returned
    · next p ran =>
      simp only at returned
      split at returned
      · cases returned
      · next caught =>
        cases returned
        refine ⟨p, ran, fun call mem => ?_, rfl⟩
        by_contra escapes
        exact caught (List.any_eq_true.mpr ⟨call, mem, Bool.not_eq_false _ ▸ escapes⟩)

/-- Whatever the outside answers, the counters of a response add up, and the bucket has
been charged for the jobs that the response counts. -/
theorem ingest_accounts (preChargeCents : Cents) (helper : Option (BudgetHelper B))
    (arqPool : Option (Nat → Enqueue)) (inboxRaises : Bool) (items : List Item) (bucket : B)
    {r : Returned B}
    (returned : ingestConversations preChargeCents helper arqPool inboxRaises items bucket =
      .ok r) :
    r.response.conversationsSaved + r.response.conversationsSkippedDedupe = items.length ∧
    r.response.conversationsSaved = r.response.extractionsEnqueued +
      r.response.extractionsSkippedBudget + r.response.extractionsSkippedError ∧
    (r.response.budgetExhausted = true ↔ 0 < r.response.extractionsSkippedBudget) ∧
    ∀ h, helper = some h → h.Lawful → (∀ item ∈ items, item.2.refundRaises = false) →
      h.cents r.bucket - h.cents bucket = preChargeCents * r.response.extractionsEnqueued := by
  obtain ⟨p, ran, _, rfl⟩ := ingestConversations_ok returned
  have accounts := ingestLoop_accounts (⟨rfl, rfl, by simp [Progress.start]⟩ :
    Accounts (Progress.start bucket) 0) ran
  refine ⟨accounts.payloads.trans (Nat.zero_add _), accounts.saved, accounts.exhausted, ?_⟩
  rintro h rfl lawful refunds
  have balanced := ingestLoop_cents lawful refunds ran
  simp only [Progress.start, List.length_nil, Int.cast_ofNat_Int, Int.mul_zero] at balanced
  simp only [Progress.tally]
  omega

/-- The payload adds a job to the list. -/
def commitsJob (helper : Option (BudgetHelper B)) (item : Item) : Bool :=
  saves item && grants helper item.2 && item.2.job.isSome

theorem handle_tasks {p p' : Progress B} {item : Item}
    (done : handle preChargeCents helper p item = .ok p') :
    p'.enqueueTasks.length = p.enqueueTasks.length + if commitsJob helper item then 1 else 0 := by
  rcases handle_cases done with ⟨skipped, rfl⟩ | ⟨saved, id, superseded, goesOn⟩
  · simp [commitsJob, skipped, Progress.skipDedupe]
  · rcases extraction_cases goesOn with ⟨denied, h, _, rfl⟩ | ⟨granted, rfl⟩
    · simp [commitsJob, denied, Progress.skipBudget, Progress.count]
    · unfold createJob
      cases hjob : item.2.job with
      | none => simp [commitsJob, hjob, Progress.count]
      | some job => simp [commitsJob, hjob, saved, granted, Progress.count]

theorem ingestLoop_tasks {p p' : Progress B} {items : List Item}
    (done : ingestLoop preChargeCents helper p items = .ok p') :
    p'.enqueueTasks.length = p.enqueueTasks.length + items.countP (commitsJob helper) := by
  induction items generalizing p with
  | nil =>
    cases done
    rfl
  | cons item rest ih =>
    rw [ingestLoop] at done
    cases hitem : handle preChargeCents helper p item with
    | error error =>
      rw [hitem] at done
      cases done
    | ok next =>
      rw [hitem] at done
      rw [ih done, handle_tasks hitem, List.countP_cons, Nat.add_assoc, Nat.add_comm (ite _ _ _)]

/-- As many calls return as there are jobs exactly when none of them raises. -/
theorem enqueueLoop_returned_iff (arq : Nat → Enqueue) (n : Nat) (tasks : List Task) :
    tasks.length = (enqueueLoop arq n tasks).countP (fun call => call.2 = .returned) ↔
      ∀ k < tasks.length, arq (n + k) = .returned := by
  induction tasks generalizing n with
  | nil => exact iff_of_true rfl (fun k lt => absurd lt (Nat.not_lt_zero k))
  | cons task rest ih =>
    have next : ∀ k, n + 1 + k = n + (k + 1) := fun k => by omega
    rw [enqueueLoop]
    by_cases first : arq n = .returned
    · rw [if_pos first, List.countP_cons_of_pos (by simpa using first), List.length_cons,
        Nat.add_right_cancel_iff, ih]
      constructor
      · intro later k lt
        cases k with
        | zero => exact first
        | succ k =>
          rw [← next]
          exact later k (Nat.lt_of_succ_lt_succ lt)
      · intro all k lt
        rw [next]
        exact all (k + 1) (Nat.succ_lt_succ lt)
    · rw [if_neg first, List.countP_cons_of_neg (by simpa using first)]
      refine iff_of_false (Nat.succ_ne_zero _) fun all => first ?_
      exact all 0 (Nat.succ_pos _)

theorem enqueueLoop_all {arq : Nat → Enqueue} {n : Nat} {tasks : List Task}
    (all : ∀ k < tasks.length, arq (n + k) = .returned) :
    enqueueLoop arq n tasks = tasks.map (fun task => (task, .returned)) := by
  induction tasks generalizing n with
  | nil => rfl
  | cons task rest ih =>
    have first : arq n = .returned := all 0 (Nat.succ_pos _)
    rw [enqueueLoop, if_pos first, first, List.map_cons, ih]
    intro k lt
    rw [show n + 1 + k = n + (k + 1) by omega]
    exact all (k + 1) (Nat.succ_lt_succ lt)

/-- The response counts the calls that returned, and a call that raised has kept no later
job from its own. -/
def Truthful (r : Returned B) : Prop :=
  r.response.extractionsEnqueued = r.calls.countP (fun call => call.2 = .returned) ∧
    ((∃ call ∈ r.calls, call.2 ≠ .returned) → r.calls.map Prod.fst = r.enqueueTasks)

/-- A response is truthful about its jobs exactly when there are none of them, or a queue
takes every one. -/
theorem enqueued_truthful_iff (preChargeCents : Cents) (helper : Option (BudgetHelper B))
    (arqPool : Option (Nat → Enqueue)) (inboxRaises : Bool) (items : List Item) (bucket : B)
    {r : Returned B}
    (returned : ingestConversations preChargeCents helper arqPool inboxRaises items bucket =
      .ok r) :
    Truthful r ↔ (∀ item ∈ items, commitsJob helper item = false) ∨
      ∃ arq, arqPool = some arq ∧
        ∀ n < items.countP (commitsJob helper), arq n = .returned := by
  obtain ⟨p, ran, _, rfl⟩ := ingestConversations_ok returned
  have jobs : p.enqueueTasks.length = items.countP (commitsJob helper) :=
    (ingestLoop_tasks ran).trans (Nat.zero_add _)
  rw [← jobs]
  have noJob : (∀ item ∈ items, commitsJob helper item = false) ↔ p.enqueueTasks = [] := by
    rw [← List.length_eq_zero_iff, jobs, List.countP_eq_zero]
    simp only [Bool.not_eq_true]
  rw [noJob]
  cases arqPool with
  | none =>
    have calls : enqueueCalls none p.enqueueTasks = [] := rfl
    rw [calls]
    constructor
    · rintro ⟨counted, _⟩
      exact Or.inl (List.length_eq_zero_iff.mp counted)
    · rintro (empty | ⟨arq, absent, _⟩)
      · exact ⟨congrArg List.length empty, fun ⟨call, mem, _⟩ => absurd mem List.not_mem_nil⟩
      · cases absent
  | some arq =>
    have exact : p.tally.extractionsEnqueued =
        (enqueueLoop arq 0 p.enqueueTasks).countP (fun call => call.2 = .returned) ↔
        ∀ n < p.enqueueTasks.length, arq n = .returned := by
      have counted := enqueueLoop_returned_iff arq 0 p.enqueueTasks
      simp only [Nat.zero_add] at counted
      exact counted
    constructor
    · rintro ⟨counted, _⟩
      exact Or.inr ⟨arq, rfl, exact.mp counted⟩
    · intro fine
      have all : ∀ n < p.enqueueTasks.length, arq n = .returned := by
        rcases fine with empty | ⟨_, same, all⟩
        · intro n lt
          rw [empty] at lt
          exact absurd lt (Nat.not_lt_zero n)
        · cases same
          exact all
      refine ⟨exact.mpr all, fun ⟨call, mem, raised⟩ => absurd ?_ raised⟩
      change call ∈ enqueueLoop arq 0 p.enqueueTasks at mem
      rw [enqueueLoop_all (by simpa only [Nat.zero_add] using all)] at mem
      obtain ⟨task, _, rfl⟩ := List.mem_map.mp mem
      rfl

section Sessions
variable {E : Type u}

/-- What the tables of a session answer for a payload. -/
def answersOf (s : Session E) (payload : ConversationPayload) (outcome : Outcome) : Answers where
  preCheck := if outcome.existsRaises then none
    else some (existsByPlatformId s.db.conversations payload.platform payload.platformId)
  save :=
    if outcome.saveRaises then .raises
    else
      match ingestTitle payload with
      | .error _ => .raises
      | .ok title =>
        match saveTransaction s.db payload title with
        | .error .uniqueViolation => .uniqueViolation
        | .error _ => .raises
        | .ok (_, id) => .committed id none
  preCharge := outcome.preCharge
  createPending := if outcome.jobCreated then .created 0 else .raises
  auditRaises := false
  refundRaises := false

def answersFrom : Session E → List (ConversationPayload × Outcome) → List Item
  | _, [] => []
  | s, item :: rest =>
    (item.1, answersOf s item.1 item.2) :: answersFrom (ingestConversation s item.1 item.2) rest

/-- The session is where the loop is, or an exception has left both. -/
def Follows (s : Session E) : Except IngestError (Progress B) → Prop
  | .error _ => s.aborted = true
  | .ok p => s.aborted = false ∧ p.tally = s.tally

theorem extraction_follows {h : BudgetHelper B} {s : Session E} {p : Progress B}
    (outcome : Outcome) (answers : Answers) (id : ConversationId)
    (charge : answers.preCharge = outcome.preCharge)
    (job : answers.job = if outcome.jobCreated then some 0 else none)
    (running : s.aborted = false) (same : p.tally = s.tally) :
    Follows (Ingest.extraction s outcome)
      (extraction preChargeCents (some h) p id answers) := by
  unfold Ingest.extraction extraction preCharge
  rw [charge]
  cases outcome.preCharge with
  | raises => rfl
  | denied => exact ⟨running, by rw [← same]; rfl⟩
  | granted =>
    simp only [createJob, job]
    cases outcome.jobCreated with
    | true =>
      refine ⟨running, ?_⟩
      simp only [if_true, ← same, Progress.tally, List.length_append, List.length_singleton]
    | false => exact ⟨running, by rw [← same]; rfl⟩

variable (preChargeCents) in
theorem handle_follows {h : BudgetHelper B} {s : Session E} {p : Progress B}
    (payload : ConversationPayload) (outcome : Outcome) (running : s.aborted = false)
    (same : p.tally = s.tally) :
    Follows (ingestConversation s payload outcome)
      (handle preChargeCents (some h) p (payload, answersOf s payload outcome)) := by
  have skipped : Follows s.skipDedupe (.ok p.skipDedupe) := by
    refine ⟨running, ?_⟩
    simp only [Session.skipDedupe, ← same]
    rfl
  unfold ingestConversation handle
  simp only [answersOf, running, Bool.false_eq_true, if_false]
  cases outcome.existsRaises with
  | true => rfl
  | false =>
    simp only [Bool.false_eq_true, if_false]
    cases existsByPlatformId s.db.conversations payload.platform payload.platformId with
    | true => exact skipped
    | false =>
      simp only [Bool.false_eq_true, if_false]
      cases htitle : ingestTitle payload with
      | error error => rfl
      | ok title =>
        cases outcome.saveRaises with
        | true => rfl
        | false =>
          simp only [Bool.false_eq_true, if_false]
          cases hsave : saveTransaction s.db payload title with
          | error error =>
            cases error with
            | uniqueViolation => exact skipped
            | _ => rfl
          | ok saved =>
            obtain ⟨db, id⟩ := saved
            refine extraction_follows outcome _ id rfl ?_ running ?_
            · cases outcome.jobCreated with
              | true => rfl
              | false => rfl
            · simp only [Session.count, ← same]
              rfl

theorem foldl_aborted {s : Session E} (items : List (ConversationPayload × Outcome))
    (aborted : s.aborted = true) :
    (items.foldl (fun s item => ingestConversation s item.1 item.2) s).aborted = true := by
  induction items generalizing s with
  | nil => exact aborted
  | cons item rest ih =>
    have stays : ingestConversation s item.1 item.2 = s := if_pos aborted
    rw [List.foldl_cons, stays]
    exact ih aborted

/-- The loop of a request counts as a session does whose tables give its answers. -/
theorem ingestLoop_follows {h : BudgetHelper B} (items : List (ConversationPayload × Outcome))
    {s : Session E} {p : Progress B} (running : s.aborted = false) (same : p.tally = s.tally) :
    Follows (items.foldl (fun s item => ingestConversation s item.1 item.2) s)
      (ingestLoop preChargeCents (some h) p (answersFrom s items)) := by
  induction items generalizing s p with
  | nil => exact ⟨running, same⟩
  | cons item rest ih =>
    have follows := handle_follows preChargeCents (h := h) item.1 item.2 running
      same
    rw [List.foldl_cons, answersFrom, ingestLoop]
    cases hitem : handle preChargeCents (some h) p (item.1, answersOf s item.1 item.2) with
    | error error =>
      rw [hitem] at follows
      exact foldl_aborted rest follows
    | ok next =>
      rw [hitem] at follows
      exact ih follows.1 follows.2

end Sessions

end Steps

/-- A bucket is a number of cents; nobody but the request changes it. -/
def counting : BudgetHelper Int where
  cents := fun bucket => bucket
  granted := fun bucket estimated => bucket + estimated
  denied := fun bucket _ => bucket
  recordActualCost := fun bucket actual estimated => bucket + actual - estimated

theorem counting_lawful : counting.Lawful := ⟨fun _ _ => rfl, fun _ _ => rfl, fun _ _ _ => rfl⟩

def savedAs (id : ConversationId) (preCharge : PreCharge) (createPending : CreatePending) :
    Answers := ⟨some false, .committed id none, preCharge, createPending, false, false⟩

def enqueuedAndRefunded : List Item :=
  [(trip, savedAs 1 .granted (.created 10)), (tripAgain, savedAs 2 .granted .raises)]

theorem ingest_accounts_refund : ∃ r : Returned Int,
    ingestConversations 50 (some counting) none false enqueuedAndRefunded 0 = .ok r ∧
    r.response.conversationsSaved = r.response.extractionsEnqueued +
      r.response.extractionsSkippedBudget + r.response.extractionsSkippedError ∧
    r.bucket - 0 = 50 * r.response.extractionsEnqueued := by
  refine ⟨_, rfl, ?_⟩
  obtain ⟨_, saved, _, balanced⟩ :=
    ingest_accounts 50 (some counting) none false enqueuedAndRefunded 0 rfl
  exact ⟨saved, balanced counting rfl counting_lawful (by decide)⟩

def twoJobs : List Item :=
  [(trip, savedAs 1 .granted (.created 10)), (tripAgain, savedAs 2 .granted (.created 20))]

theorem enqueued_truthful_queue : ∃ r : Returned Int,
    ingestConversations 50 (some counting) (some fun _ => .returned) false twoJobs 0 = .ok r ∧
    Truthful r := by
  refine ⟨_, rfl, ?_⟩
  exact (enqueued_truthful_iff 50 (some counting) (some fun _ => .returned) false twoJobs 0
    rfl).mpr (Or.inr ⟨_, rfl, fun _ _ => rfl⟩)

/-- The first call loses its connection; the response counts both jobs. -/
theorem enqueued_counts_lost_jobs :
    ¬ ∀ (helper : Option (BudgetHelper Int)) (arqPool : Option (Nat → Enqueue))
      (items : List Item) (bucket : Int) (r : Returned Int),
      ingestConversations 50 helper arqPool false items bucket = .ok r → Truthful r := by
  intro all
  have truthful := all none
    (some fun n => if n = 0 then .redisError else .returned) twoJobs 0 _ rfl
  exact absurd truthful.1 (by decide)

end IngestAccounting
