import Gubbi.Extraction.Worker

/-!
# Conservation of the pre-charge

A settlement is a budget change and a row write that are not atomic: a refund
goes before the row is marked failed, the cost of a success before its commit,
and the refund of a skip or of a swept row after the row is terminal. The
account of a job follows its charge through these windows. It says which
postings the job has, in which bucket, and which attempt is about to finish the
settlement.
-/

namespace ExtractConversation

open Text ExtractionJobs

/-- A settlement has been made in one of its two places only. -/
def Phase.settling : Phase → Bool
  | .skipped | .completed _ _ _ _ | .settled _ true => true
  | _ => false

/-- Past the load, where the period of the job row is the effective one. -/
def Phase.pastLoad : Phase → Bool
  | .started | .checked | .failing _ | .settled _ _ => false
  | _ => true

/-- Attempts in the middle of settling a job. -/
def World.settlers (w : World) (id : JobId) : List AttemptId :=
  w.attempts.keysWhere (fun _ a => a.jobId = id && a.phase.settling)

/-- No attempt of the job is executing. -/
def World.idle (w : World) (id : JobId) : Prop :=
  ∀ p a, w.attempts.get p = some a → a.jobId ≠ id

/-- The pre-charge of a job is settled once, in its bucket, and the row says how.
A failed job keeps its charge only where the refund was skipped for an unknown
period. -/
structure Conserved (preChargeCents : Cents) (w : World) : Prop where
  bucket : ∀ id row, w.jobs.get id = some row → ∀ posting ∈ postingsOf w.budget id,
    posting.bucket = row.bucket
  unfinished : ∀ id row, w.jobs.get id = some row → row.status.terminal = false →
    w.settlers id = [] → jobDelta w.budget id = preChargeCents ∧ settlements w.budget id = 0
  completed : ∀ id row, w.jobs.get id = some row → row.status = .completed → w.idle id →
    jobDelta w.budget id = row.centsSpent ∧ settlements w.budget id = 1
  failed : ∀ id row, w.jobs.get id = some row → row.status = .failed → w.idle id →
    id ∉ w.sweptRows →
    (jobDelta w.budget id = 0 ∧ settlements w.budget id = 1) ∨
      (jobDelta w.budget id = preChargeCents ∧ settlements w.budget id = 0 ∧
        id ∈ w.refundsSkipped)
  withoutJob : ∀ id, w.jobs.get id = none → w.requests.get id = none → jobDelta w.budget id = 0
  once : ∀ id, settlements w.budget id ≤ 1

/-- Nothing has settled the job's charge and nothing has begun to. -/
def Unsettled (w : World) (id : JobId) : Prop :=
  settlements w.budget id = 0 ∧ id ∉ w.sweptRows ∧ w.settlers id = []

instance (w : World) (id : JobId) : Decidable (Unsettled w id) :=
  inferInstanceAs (Decidable (_ ∧ _ ∧ _))

/-- The attempt has settled the charge in one place and still owes the other one. -/
def Halfway (w : World) (a : Attempt) : Prop :=
  a.phase = .skipped ∨ (a.phase.settling = true ∧ live w.jobs a.jobId = true)

instance (w : World) (a : Attempt) : Decidable (Halfway w a) :=
  inferInstanceAs (Decidable (_ ∨ _))

/-- What the attempt `p` would do meets a condition. -/
def OfAttempt (w : World) (p : AttemptId) (condition : Attempt → Prop) : Prop :=
  ∀ a ∈ w.attempts.get p, condition a

instance (w : World) (p : AttemptId) (condition : Attempt → Prop) [DecidablePred condition] :
    Decidable (OfAttempt w p condition) :=
  inferInstanceAs (Decidable (∀ a ∈ w.attempts.get p, condition a))

/-- Only an unsettled charge gets settled or its failed row revived, a success is
recorded on a live row, an attempt halfway through a settlement gets to its end,
and a failed load happens in the period of the job. -/
def SettlesOnce (w : World) : Action → Prop
  | .markRunningAndLoad p _ => OfAttempt w p fun a =>
    (w.jobs.get a.jobId).map JobRow.status = some .failed → Unsettled w a.jobId
  | .loadFails p _ => OfAttempt w p fun a =>
    getPeriodStart w.jobs a.jobId = some a.effectivePeriodStart
  | .skipCommit p _ => OfAttempt w p fun a => Unsettled w a.jobId
  | .completeAndRecord p => OfAttempt w p fun a =>
    Unsettled w a.jobId ∧ live w.jobs a.jobId = true
  | .settleFailure p => OfAttempt w p fun a => a.periodStartKnown = true → Unsettled w a.jobId
  | .raises p _ => OfAttempt w p fun a => ¬ Halfway w a
  | .markJobFailedErrors p => OfAttempt w p fun a => ¬ Halfway w a
  | .lose p => OfAttempt w p fun a => ¬ Halfway w a
  | .sweepRows kind now => ∀ id ∈ sweptBy w.jobs kind now, Unsettled w id
  | _ => True

instance (w : World) : DecidablePred (SettlesOnce w) := fun action =>
  match action with
  | .markRunningAndLoad p _ => inferInstanceAs (Decidable (OfAttempt w p _))
  | .loadFails p _ => inferInstanceAs (Decidable (OfAttempt w p _))
  | .skipCommit p _ => inferInstanceAs (Decidable (OfAttempt w p _))
  | .completeAndRecord p => inferInstanceAs (Decidable (OfAttempt w p _))
  | .settleFailure p => inferInstanceAs (Decidable (OfAttempt w p _))
  | .raises p _ => inferInstanceAs (Decidable (OfAttempt w p _))
  | .markJobFailedErrors p => inferInstanceAs (Decidable (OfAttempt w p _))
  | .lose p => inferInstanceAs (Decidable (OfAttempt w p _))
  | .sweepRows kind now =>
    inferInstanceAs (Decidable (∀ id ∈ sweptBy w.jobs kind now, Unsettled w id))
  | .saveConversation .. | .preCharge .. | .createJob .. | .rollBackJob .. | .refundPreCharge ..
  | .beginAttempt .. | .firstCheck .. | .skipMarkProcessed .. | .refundSkipped ..
  | .extractEntries .. | .secondCheck .. | .persistEntries .. | .commit .. | .markJobFailed ..
  | .refundSweptRow .. | .reset .. => instDecidableTrue

def chargeOf (preChargeCents : Cents) (id : JobId) (bucket : UserId × Period) : Posting :=
  ⟨id, bucket, .preCharge preChargeCents⟩

def costOf (preChargeCents : Cents) (id : JobId) (bucket : UserId × Period) (cents : Cents) :
    Posting :=
  ⟨id, bucket, .actualCost cents preChargeCents⟩

/-- The attempt is in the middle of settling the job. -/
def Settler (w : World) (p : AttemptId) (id : JobId) : Prop :=
  ∃ a, w.attempts.get p = some a ∧ a.jobId = id ∧ a.phase.settling = true

theorem settlers_eq_nil {w : World} {id : JobId} :
    w.settlers id = [] ↔ ∀ p, ¬ Settler w p id := by
  rw [World.settlers, List.eq_nil_iff_forall_not_mem]
  refine forall_congr' fun p => not_congr ?_
  rw [Table.mem_keysWhere]
  simp [Settler]

/-- What the row of a job says when nothing is settling it. -/
structure Rest (preChargeCents : Cents) (id : JobId) (row : JobRow) (postings : Budget)
    (skippedRefund : Prop) : Prop where
  unfinished : row.status.terminal = false → postings = [chargeOf preChargeCents id row.bucket]
  completed : row.status = .completed → postings =
    [costOf preChargeCents id row.bucket row.centsSpent, chargeOf preChargeCents id row.bucket]
  failed : row.status = .failed →
    postings = [costOf preChargeCents id row.bucket 0, chargeOf preChargeCents id row.bucket] ∨
      (postings = [chargeOf preChargeCents id row.bucket] ∧ skippedRefund)

theorem Rest.of_unfinished {preChargeCents : Cents} {id : JobId} {row : JobRow} {postings : Budget}
    {skippedRefund : Prop} (status : row.status.terminal = false)
    (charge : postings = [chargeOf preChargeCents id row.bucket]) :
    Rest preChargeCents id row postings skippedRefund where
  unfinished := fun _ => charge
  completed := fun h => by simp [h, Status.terminal] at status
  failed := fun h => by simp [h, Status.terminal] at status

theorem Rest.of_completed {preChargeCents : Cents} {id : JobId} {row : JobRow} {postings : Budget}
    {skippedRefund : Prop} (status : row.status = .completed)
    (cost : postings =
      [costOf preChargeCents id row.bucket row.centsSpent, chargeOf preChargeCents id row.bucket]) :
    Rest preChargeCents id row postings skippedRefund where
  unfinished := fun h => by simp [status, Status.terminal] at h
  completed := fun _ => cost
  failed := fun h => by simp [status] at h

theorem Rest.of_failed {preChargeCents : Cents} {id : JobId} {row : JobRow} {postings : Budget}
    {skippedRefund : Prop} (status : row.status = .failed)
    (refund : postings =
        [costOf preChargeCents id row.bucket 0, chargeOf preChargeCents id row.bucket] ∨
      (postings = [chargeOf preChargeCents id row.bucket] ∧ skippedRefund)) :
    Rest preChargeCents id row postings skippedRefund where
  unfinished := fun h => by simp [status, Status.terminal] at h
  completed := fun h => by simp [status] at h
  failed := fun _ => refund

/-- What an attempt in the middle of a settlement has done and not done. -/
def Midway (preChargeCents : Cents) (id : JobId) (row : JobRow) (postings : Budget) :
    Phase → Prop
  | .skipped => ((row.status = .completed ∧ row.centsSpent = 0) ∨ row.status = .failed) ∧
    postings = [chargeOf preChargeCents id row.bucket]
  | .completed draft _ _ updated => updated = true ∧ row.status.terminal = false ∧
    postings = [costOf preChargeCents id row.bucket draft.centsSpent,
      chargeOf preChargeCents id row.bucket]
  | .settled _ true => row.status ≠ .completed ∧
    postings = [costOf preChargeCents id row.bucket 0, chargeOf preChargeCents id row.bucket]
  | _ => True

structure Account (preChargeCents : Cents) (w : World) (id : JobId) (row : JobRow) : Prop where
  rest : id ∉ w.sweptRows → (∀ p, ¬ Settler w p id) →
    Rest preChargeCents id row (postingsOf w.budget id) (id ∈ w.refundsSkipped)
  swept : id ∈ w.sweptRows → row.status = .failed ∧
    postingsOf w.budget id = [chargeOf preChargeCents id row.bucket] ∧ ∀ p, ¬ Settler w p id
  midway : ∀ p a, w.attempts.get p = some a → a.jobId = id → a.phase.settling = true →
    (∀ q, Settler w q id → q = p) ∧
      Midway preChargeCents id row (postingsOf w.budget id) a.phase

/-- The attempt belongs to a job row, and knows its period from the load on. -/
def Placed (w : World) (a : Attempt) : Prop :=
  ∃ period, (w.jobs.get a.jobId).map JobRow.bucket = some (a.userId, period) ∧
    (a.periodStartKnown = true → a.effectivePeriodStart = period) ∧
    (a.phase.pastLoad = true → a.periodStartKnown = true) ∧
    (∀ failure, a.phase = .settled failure false → a.jobId ∈ w.refundsSkipped)

structure Balanced (preChargeCents : Cents) (w : World) : Prop where
  placed : ∀ p a, w.attempts.get p = some a → Placed w a
  requests : ∀ id r, w.requests.get id = some r → w.jobs.get id = none ∧
    postingsOf w.budget id = [⟨id, (r.userId, r.periodStart), .preCharge preChargeCents⟩]
  withoutJob : ∀ id, w.jobs.get id = none → w.requests.get id = none →
    postingsOf w.budget id = [] ∨ ∃ bucket, postingsOf w.budget id =
      [⟨id, bucket, .actualCost 0 preChargeCents⟩, ⟨id, bucket, .preCharge preChargeCents⟩]
  sweptOnce : w.sweptRows.Nodup
  sweptJobs : ∀ id ∈ w.sweptRows, w.jobs.get id ≠ none
  account : ∀ id row, w.jobs.get id = some row → Account preChargeCents w id row

section Frames
variable {preChargeCents : Cents} {w t : World}

theorem postingsOf_cons (posting : Posting) (budget : Budget) (id : JobId) :
    postingsOf (posting :: budget) id =
      if posting.jobId = id then posting :: postingsOf budget id else postingsOf budget id := by
  simp [postingsOf, List.filter_cons]

/-- A step that leaves a job's postings and its settlement where they are. -/
theorem Account.frame {id : JobId} {row : JobRow} (account : Account preChargeCents w id row)
    (postings : postingsOf t.budget id = postingsOf w.budget id)
    (swept : id ∈ t.sweptRows ↔ id ∈ w.sweptRows)
    (skipped : id ∈ w.refundsSkipped → id ∈ t.refundsSkipped)
    (settlers : ∀ p a, a.jobId = id → a.phase.settling = true →
      (t.attempts.get p = some a ↔ w.attempts.get p = some a)) :
    Account preChargeCents t id row := by
  have same : ∀ p, Settler t p id ↔ Settler w p id := by
    intro p
    constructor
    · rintro ⟨a, hget, hid, hsettling⟩
      exact ⟨a, (settlers p a hid hsettling).mp hget, hid, hsettling⟩
    · rintro ⟨a, hget, hid, hsettling⟩
      exact ⟨a, (settlers p a hid hsettling).mpr hget, hid, hsettling⟩
  constructor
  · intro hswept hnone
    have rest := account.rest (fun h => hswept (swept.mpr h)) (fun p h => hnone p ((same p).mpr h))
    rw [postings]
    exact ⟨rest.unfinished, rest.completed,
      fun h => (rest.failed h).imp_right (And.imp_right skipped)⟩
  · intro hswept
    obtain ⟨hfailed, hpostings, hnone⟩ := account.swept (swept.mp hswept)
    exact ⟨hfailed, postings.trans hpostings, fun p h => hnone p ((same p).mp h)⟩
  · intro p a hget hid hsettling
    obtain ⟨honly, hmidway⟩ :=
      account.midway p a ((settlers p a hid hsettling).mp hget) hid hsettling
    rw [postings]
    exact ⟨fun q h => honly q ((same q).mp h), hmidway⟩

/-- Rewriting one attempt that settles nothing, before or after. -/
theorem settlers_put {p : AttemptId} {b : Attempt} {id : JobId}
    (old : ∀ a, w.attempts.get p = some a → a.jobId = id → a.phase.settling = false)
    (new : b.jobId = id → b.phase.settling = false) (q : AttemptId) (a : Attempt)
    (hid : a.jobId = id) (hsettling : a.phase.settling = true) :
    (w.attempts.put p b).get q = some a ↔ w.attempts.get q = some a := by
  by_cases hq : q = p
  · subst hq
    rw [Table.get_put_self]
    constructor
    · rintro ⟨rfl⟩
      rw [new hid] at hsettling
      cases hsettling
    · intro hget
      rw [old a hget hid] at hsettling
      cases hsettling
  · rw [Table.get_put_ne _ _ hq]

theorem settlers_erase {p : AttemptId} {id : JobId}
    (old : ∀ a, w.attempts.get p = some a → a.jobId = id → a.phase.settling = false)
    (q : AttemptId) (a : Attempt) (hid : a.jobId = id) (hsettling : a.phase.settling = true) :
    (w.attempts.erase p).get q = some a ↔ w.attempts.get q = some a := by
  rw [Table.get_erase]
  by_cases hq : q = p
  · subst hq
    simp only [if_true, reduceCtorEq, false_iff]
    intro hget
    rw [old a hget hid] at hsettling
    cases hsettling
  · rw [if_neg hq]

/-- Another job does not see what an attempt does. -/
theorem settlers_put_other {p : AttemptId} {a b : Attempt} {id : JobId}
    (hget : w.attempts.get p = some a) (job : b.jobId = a.jobId) (hne : id ≠ a.jobId)
    (q : AttemptId) (c : Attempt) (hid : c.jobId = id) (hsettling : c.phase.settling = true) :
    (w.attempts.put p b).get q = some c ↔ w.attempts.get q = some c := by
  refine settlers_put ?_ ?_ q c hid hsettling
  · intro old hold hjob
    obtain rfl : a = old := Option.some.inj (hget.symm.trans hold)
    exact False.elim (hne hjob.symm)
  · intro hjob
    exact False.elim (hne (hjob.symm.trans job))

theorem settlers_erase_other {p : AttemptId} {a : Attempt} {id : JobId}
    (hget : w.attempts.get p = some a) (hne : id ≠ a.jobId) (q : AttemptId) (c : Attempt)
    (hid : c.jobId = id) (hsettling : c.phase.settling = true) :
    (w.attempts.erase p).get q = some c ↔ w.attempts.get q = some c := by
  refine settlers_erase ?_ q c hid hsettling
  intro old hold hjob
  obtain rfl : a = old := Option.some.inj (hget.symm.trans hold)
  exact False.elim (hne hjob.symm)

/-- An attempt starts settling an unsettled charge. -/
theorem Account.begins {id : JobId} {row : JobRow} {p : AttemptId} {b : Attempt}
    (unsettled : Unsettled w id) (swept : t.sweptRows = w.sweptRows)
    (attempts : t.attempts = w.attempts.put p b)
    (midway : Midway preChargeCents id row (postingsOf t.budget id) b.phase)
    (job : b.jobId = id) (settling : b.phase.settling = true) :
    Account preChargeCents t id row := by
  obtain ⟨_, hswept, hnone⟩ := unsettled
  have only : ∀ q a, t.attempts.get q = some a → a.jobId = id → a.phase.settling = true →
      q = p ∧ a = b := by
    intro q a hget hid hsettling
    rw [attempts] at hget
    rcases Table.get_put_eq_some hget with ⟨rfl, rfl⟩ | ⟨_, hget⟩
    · exact ⟨rfl, rfl⟩
    · exact False.elim (settlers_eq_nil.mp hnone q ⟨a, hget, hid, hsettling⟩)
  have mine : Settler t p id := ⟨b, by rw [attempts, Table.get_put_self], job, settling⟩
  constructor
  · intro _ hnobody
    exact False.elim (hnobody p mine)
  · intro h
    exact False.elim (hswept (swept ▸ h))
  · intro q a hget hid hsettling
    obtain ⟨rfl, rfl⟩ := only q a hget hid hsettling
    refine ⟨?_, midway⟩
    rintro r ⟨c, hc, hcid, hcsettling⟩
    exact (only r c hc hcid hcsettling).1

/-- The settling attempt comes to its end. -/
theorem Account.ends {id : JobId} {row row' : JobRow} {p : AttemptId} {a : Attempt}
    (account : Account preChargeCents w id row) (hget : w.attempts.get p = some a)
    (hid : a.jobId = id) (hsettling : a.phase.settling = true)
    (swept : t.sweptRows = w.sweptRows) (attempts : t.attempts = w.attempts.erase p)
    (rest : Rest preChargeCents id row' (postingsOf t.budget id) (id ∈ t.refundsSkipped)) :
    Account preChargeCents t id row' := by
  have nobody : ∀ q, ¬ Settler t q id := by
    rintro q ⟨b, hb, hbid, hbsettling⟩
    rw [attempts] at hb
    obtain ⟨hne, hb⟩ := Table.get_erase_eq_some hb
    exact hne ((account.midway p a hget hid hsettling).1 q ⟨b, hb, hbid, hbsettling⟩)
  constructor
  · intro _ _
    exact rest
  · intro h
    exact False.elim ((account.swept (swept ▸ h)).2.2 p ⟨a, hget, hid, hsettling⟩)
  · intro q b hb hbid hbsettling
    exact False.elim (nobody q ⟨b, hb, hbid, hbsettling⟩)

theorem Placed.mono {a : Attempt} (placed : Placed w a)
    (owners : ∀ id, (t.jobs.get id).map JobRow.bucket = (w.jobs.get id).map JobRow.bucket)
    (skipped : ∀ id ∈ w.refundsSkipped, id ∈ t.refundsSkipped) : Placed t a := by
  obtain ⟨period, howner, hknown, hpast, hskipped⟩ := placed
  exact ⟨period, (owners _).trans howner, hknown, hpast,
    fun failure h => skipped _ (hskipped failure h)⟩

/-- A step of an attempt or of a sweep: jobs stay in their buckets, and only they
get postings. -/
theorem Balanced.advance (balanced : Balanced preChargeCents w)
    (requests : t.requests = w.requests)
    (owners : ∀ id, (t.jobs.get id).map JobRow.bucket = (w.jobs.get id).map JobRow.bucket)
    (postings : ∀ id, w.jobs.get id = none → postingsOf t.budget id = postingsOf w.budget id)
    (placed : ∀ p a, t.attempts.get p = some a → Placed t a)
    (sweptOnce : t.sweptRows.Nodup) (sweptJobs : ∀ id ∈ t.sweptRows, w.jobs.get id ≠ none)
    (account : ∀ id row, t.jobs.get id = some row → Account preChargeCents t id row) :
    Balanced preChargeCents t := by
  have absent : ∀ id, t.jobs.get id = none ↔ w.jobs.get id = none := by
    intro id
    have owner := owners id
    cases ht : t.jobs.get id <;> cases hw : w.jobs.get id <;> simp [ht, hw] at owner ⊢
  constructor
  · exact placed
  · intro id r hr
    rw [requests] at hr
    obtain ⟨hnone, hcharge⟩ := balanced.requests id r hr
    exact ⟨(absent id).mpr hnone, (postings id hnone).trans hcharge⟩
  · intro id hnone hreq
    rw [requests] at hreq
    have hnone := (absent id).mp hnone
    rw [postings id hnone]
    exact balanced.withoutJob id hnone hreq
  · exact sweptOnce
  · exact fun id hmem h => sweptJobs id hmem ((absent id).mp h)
  · exact account

/-- An attempt moves on without settling anything. -/
theorem Balanced.moves (balanced : Balanced preChargeCents w) {p : AttemptId} {b : Attempt}
    (old : ∀ a, w.attempts.get p = some a → a.phase.settling = false)
    (new : b.phase.settling = false) (placed : Placed w b) :
    Balanced preChargeCents { w with attempts := w.attempts.put p b } := by
  refine balanced.advance rfl (fun _ => rfl) (fun _ _ => rfl) ?_ balanced.sweptOnce
    balanced.sweptJobs ?_
  · intro q a hget
    rcases Table.get_put_eq_some hget with ⟨_, rfl⟩ | ⟨_, hget⟩
    · exact placed
    · exact balanced.placed q a hget
  · intro id row hrow
    exact (balanced.account id row hrow).frame rfl Iff.rfl (fun h => h)
      (settlers_put (fun a hget _ => old a hget) (fun _ => new))

/-- An attempt that owes nothing returns or is lost. -/
theorem Balanced.leaves (balanced : Balanced preChargeCents w) {p : AttemptId}
    (old : ∀ a, w.attempts.get p = some a → a.phase.settling = false) :
    Balanced preChargeCents (w.finish p) := by
  refine balanced.advance rfl (fun _ => rfl) (fun _ _ => rfl) ?_ balanced.sweptOnce
    balanced.sweptJobs ?_
  · intro q a hget
    exact balanced.placed q a (Table.get_erase_eq_some hget).2
  · intro id row hrow
    exact (balanced.account id row hrow).frame rfl Iff.rfl (fun h => h)
      (settlers_erase (fun a hget _ => old a hget))

/-- Nothing that the accounts are about has changed. -/
theorem Balanced.same (balanced : Balanced preChargeCents w) (jobs : t.jobs = w.jobs)
    (requests : t.requests = w.requests) (attempts : t.attempts = w.attempts)
    (sweptRows : t.sweptRows = w.sweptRows) (budget : t.budget = w.budget)
    (refundsSkipped : t.refundsSkipped = w.refundsSkipped) : Balanced preChargeCents t := by
  refine balanced.advance requests (fun _ => by rw [jobs]) (fun _ _ => by rw [budget]) ?_
    (sweptRows ▸ balanced.sweptOnce) (sweptRows ▸ balanced.sweptJobs) ?_
  · intro p a hget
    rw [attempts] at hget
    exact (balanced.placed p a hget).mono (fun _ => by rw [jobs]) (fun _ h => refundsSkipped ▸ h)
  · intro id row hrow
    rw [jobs] at hrow
    exact (balanced.account id row hrow).frame (by rw [budget]) (by rw [sweptRows])
      (fun h => refundsSkipped ▸ h) (fun _ _ _ _ => by rw [attempts])

end Frames

section Steps
variable {preChargeCents : Cents} {w t : World}

theorem Balanced.preCharge (balanced : Balanced preChargeCents w) {id : JobId} {userId : UserId}
    {conversationId : ConversationId} {source : PyStr} {periodStart : Period}
    (h : preCharge preChargeCents w id userId conversationId source periodStart = some t) :
    Balanced preChargeCents t := by
  obtain ⟨hjob, hreq, hnothing, rfl⟩ := preCharge_some h
  have others : ∀ key, key ≠ id → postingsOf
      (⟨id, (userId, periodStart), .preCharge preChargeCents⟩ :: w.budget) key =
        postingsOf w.budget key := by
    intro key hne
    rw [postingsOf_cons, if_neg (Ne.symm hne)]
  constructor
  · exact balanced.placed
  · intro key r hr
    rcases Table.get_put_eq_some hr with ⟨rfl, rfl⟩ | ⟨hne, hr⟩
    · exact ⟨hjob, by rw [postingsOf_cons, if_pos rfl, hnothing]⟩
    · obtain ⟨hnone, hcharge⟩ := balanced.requests key r hr
      exact ⟨hnone, (others key hne).trans hcharge⟩
  · intro key hnone hno
    have hne : key ≠ id := by
      rintro rfl
      simp at hno
    rw [Table.get_put_ne _ _ hne] at hno
    rw [others key hne]
    exact balanced.withoutJob key hnone hno
  · exact balanced.sweptOnce
  · exact balanced.sweptJobs
  · intro key row hrow
    have hne : key ≠ id := by
      rintro rfl
      rw [hjob] at hrow
      cases hrow
    exact (balanced.account key row hrow).frame (others key hne) Iff.rfl (fun h => h)
      (fun _ _ _ _ => Iff.rfl)

theorem Balanced.createJob (balanced : Balanced preChargeCents w) {id : JobId} {now : Time}
    (h : createJob w id now = some t) : Balanced preChargeCents t := by
  obtain ⟨r, hreq, _, rfl⟩ := createJob_some h
  obtain ⟨hjob, hcharge⟩ := balanced.requests id r hreq
  have hunplaced : ∀ p a, w.attempts.get p = some a → a.jobId ≠ id := by
    rintro p a hget rfl
    obtain ⟨period, howner, _⟩ := balanced.placed p a hget
    rw [hjob] at howner
    cases howner
  constructor
  · intro p a hget
    obtain ⟨period, howner, rest⟩ := balanced.placed p a hget
    exact ⟨period, by rw [Table.get_put_ne _ _ (hunplaced p a hget)]; exact howner, rest⟩
  · intro key other hother
    obtain ⟨hne, hother⟩ := Table.get_erase_eq_some hother
    rw [Table.get_put_ne _ _ hne]
    exact balanced.requests key other hother
  · intro key hnone hno
    have hne : key ≠ id := by
      rintro rfl
      simp at hnone
    rw [Table.get_put_ne _ _ hne] at hnone
    rw [Table.get_erase, if_neg hne] at hno
    exact balanced.withoutJob key hnone hno
  · exact balanced.sweptOnce
  · intro key hmem
    have hne : key ≠ id := by
      rintro rfl
      exact balanced.sweptJobs key hmem hjob
    rw [Table.get_put_ne _ _ hne]
    exact balanced.sweptJobs key hmem
  · intro key row hrow
    rcases Table.get_put_eq_some hrow with ⟨rfl, rfl⟩ | ⟨hne, hrow⟩
    · constructor
      · intro _ _
        exact Rest.of_unfinished rfl hcharge
      · intro hmem
        exact False.elim (balanced.sweptJobs key hmem hjob)
      · intro p a hget hid
        exact False.elim (hunplaced p a hget hid)
    · exact (balanced.account key row hrow).frame rfl Iff.rfl (fun h => h) (fun _ _ _ _ => Iff.rfl)

theorem Balanced.rollBackJob (balanced : Balanced preChargeCents w) {id : JobId}
    (h : rollBackJob w id = some t) : Balanced preChargeCents t := by
  obtain ⟨r, hreq, _, rfl⟩ := rollBackJob_some h
  constructor
  · exact balanced.placed
  · intro key other hother
    rcases Table.get_put_eq_some hother with ⟨rfl, rfl⟩ | ⟨_, hother⟩
    · exact balanced.requests key r hreq
    · exact balanced.requests key other hother
  · intro key hnone hno
    have hne : key ≠ id := by
      rintro rfl
      simp at hno
    rw [Table.get_put_ne _ _ hne] at hno
    exact balanced.withoutJob key hnone hno
  · exact balanced.sweptOnce
  · exact balanced.sweptJobs
  · intro key row hrow
    exact (balanced.account key row hrow).frame rfl Iff.rfl (fun h => h) (fun _ _ _ _ => Iff.rfl)

theorem Balanced.refundPreCharge (balanced : Balanced preChargeCents w) {id : JobId}
    (h : refundPreCharge preChargeCents w id = some t) : Balanced preChargeCents t := by
  obtain ⟨r, hreq, _, rfl⟩ := refundPreCharge_some h
  obtain ⟨hjob, hcharge⟩ := balanced.requests id r hreq
  have others : ∀ key, key ≠ id → postingsOf
      (⟨id, (r.userId, r.periodStart), .actualCost 0 preChargeCents⟩ :: w.budget) key =
        postingsOf w.budget key := by
    intro key hne
    rw [postingsOf_cons, if_neg (Ne.symm hne)]
  constructor
  · exact balanced.placed
  · intro key other hother
    obtain ⟨hne, hother⟩ := Table.get_erase_eq_some hother
    obtain ⟨hnone, hkept⟩ := balanced.requests key other hother
    exact ⟨hnone, (others key hne).trans hkept⟩
  · intro key hnone hno
    by_cases hkey : key = id
    · subst hkey
      exact Or.inr ⟨_, by rw [postingsOf_cons, if_pos rfl, hcharge]⟩
    · rw [Table.get_erase, if_neg hkey] at hno
      rw [others key hkey]
      exact balanced.withoutJob key hnone hno
  · exact balanced.sweptOnce
  · exact balanced.sweptJobs
  · intro key row hrow
    have hne : key ≠ id := by
      rintro rfl
      rw [hjob] at hrow
      cases hrow
    exact (balanced.account key row hrow).frame (others key hne) Iff.rfl (fun h => h)
      (fun _ _ _ _ => Iff.rfl)

theorem Balanced.sweepRows (balanced : Balanced preChargeCents w) {kind : Sweep} {now : Time}
    (unsettled : ∀ id ∈ sweptBy w.jobs kind now, Unsettled w id)
    (h : sweepRows w kind now = some t) : Balanced preChargeCents t := by
  obtain rfl := sweepRows_some h
  have owners : ∀ id, ((sweep w.jobs kind now).get id).map JobRow.bucket =
      (w.jobs.get id).map JobRow.bucket := by
    intro id
    rw [sweep_get]
    cases w.jobs.get id with
    | none => rfl
    | some row => simp
  refine balanced.advance rfl owners (fun _ _ => rfl) ?_ ?_ ?_ ?_
  · exact fun p a hget => (balanced.placed p a hget).mono owners (fun _ h => h)
  · refine List.nodup_append.mpr ⟨Table.nodup_keysWhere _ _, balanced.sweptOnce, ?_⟩
    rintro id hmem other hother rfl
    exact (unsettled id hmem).2.1 hother
  · intro id hmem
    rcases List.mem_append.mp hmem with hmem | hmem
    · obtain ⟨row, hrow, _⟩ := Table.mem_keysWhere.mp hmem
      simp [hrow]
    · exact balanced.sweptJobs id hmem
  · intro id row' hrow'
    rw [sweep_get] at hrow'
    obtain ⟨row, hrow, rfl⟩ := Option.map_eq_some_iff.mp hrow'
    have account := balanced.account id row hrow
    cases found : kind.finds now row with
    | true =>
      have hmem := (mem_sweptBy hrow).mpr found
      obtain ⟨_, hswept, hnobody⟩ := unsettled id hmem
      have nobody := settlers_eq_nil.mp hnobody
      have hcharge := (account.rest hswept nobody).unfinished (Sweep.live_of_finds found)
      constructor
      · intro hnot
        exact False.elim (hnot (List.mem_append_left _ hmem))
      · intro _
        refine ⟨by simp [JobRow.sweep, found], ?_, nobody⟩
        rw [JobRow.sweep_bucket]
        exact hcharge
      · intro p a hget hid hsettling
        exact False.elim (nobody p ⟨a, hget, hid, hsettling⟩)
    | false =>
      have hsame : row.sweep kind now = row := by simp [JobRow.sweep, found]
      have hnot : id ∉ sweptBy w.jobs kind now := by simp [mem_sweptBy hrow, found]
      rw [hsame]
      exact account.frame rfl (by simp [hnot]) (fun h => h) (fun _ _ _ _ => Iff.rfl)

theorem Balanced.refundSweptRow (balanced : Balanced preChargeCents w) {id : JobId}
    (h : refundSweptRow preChargeCents w id = some t) : Balanced preChargeCents t := by
  obtain ⟨swept, hswept, hdue, rfl⟩ := refundSweptRow_some h
  have others : ∀ key, key ≠ id → postingsOf
      (⟨id, (swept.userId, swept.periodStart), .actualCost 0 preChargeCents⟩ :: w.budget) key =
        postingsOf w.budget key := by
    intro key hne
    rw [postingsOf_cons, if_neg (Ne.symm hne)]
  refine balanced.advance rfl (fun _ => rfl) ?_ balanced.placed (balanced.sweptOnce.erase id) ?_ ?_
  · intro key hnone
    refine others key ?_
    rintro rfl
    rw [hswept] at hnone
    cases hnone
  · exact fun key hmem => balanced.sweptJobs key (List.mem_of_mem_erase hmem)
  · intro key row hrow
    have account := balanced.account key row hrow
    by_cases hkey : key = id
    · subst hkey
      obtain rfl : swept = row := Option.some.inj (hswept.symm.trans hrow)
      obtain ⟨hfailed, hcharge, nobody⟩ := account.swept hdue
      constructor
      · intro _ _
        have hpostings : postingsOf (⟨key, (swept.userId, swept.periodStart),
            .actualCost 0 preChargeCents⟩ :: w.budget) key =
            [costOf preChargeCents key swept.bucket 0,
              chargeOf preChargeCents key swept.bucket] := by
          rw [postingsOf_cons, if_pos rfl, hcharge, costOf, JobRow.bucket]
        exact Rest.of_failed hfailed (Or.inl hpostings)
      · intro hmem
        exact False.elim (balanced.sweptOnce.not_mem_erase hmem)
      · intro p a hget hid hsettling
        exact False.elim (nobody p ⟨a, hget, hid, hsettling⟩)
    · exact account.frame (others key hkey) (List.mem_erase_of_ne hkey) (fun h => h)
        (fun _ _ _ _ => Iff.rfl)

theorem Placed.goto {a : Attempt} {phase : Phase} (placed : Placed w a)
    (past : phase.pastLoad = true → a.phase.pastLoad = true)
    (resolved : ∀ failure, phase ≠ .settled failure false) :
    Placed w { a with phase := phase } := by
  obtain ⟨period, howner, hknown, hpast, _⟩ := placed
  exact ⟨period, howner, hknown, fun h => hpast (past h),
    fun failure h => absurd h (resolved failure)⟩

/-- The bucket an attempt posts to is the one of its job. -/
theorem Placed.bucket {a : Attempt} {row : JobRow} (placed : Placed w a)
    (hrow : w.jobs.get a.jobId = some row) (known : a.periodStartKnown = true) :
    (a.userId, a.effectivePeriodStart) = row.bucket := by
  obtain ⟨period, howner, hknown, _⟩ := placed
  rw [hrow] at howner
  simp only [Option.map_some, JobRow.bucket, Option.some.injEq, Prod.mk.injEq] at howner
  rw [hknown known, JobRow.bucket, howner.1, howner.2]

theorem Placed.known {a : Attempt} (placed : Placed w a) (past : a.phase.pastLoad = true) :
    a.periodStartKnown = true := by
  obtain ⟨_, _, _, hpast, _⟩ := placed
  exact hpast past

theorem Placed.row {a : Attempt} (placed : Placed w a) :
    ∃ row, w.jobs.get a.jobId = some row := by
  obtain ⟨period, howner, _⟩ := placed
  obtain ⟨row, hrow, _⟩ := Option.map_eq_some_iff.mp howner
  exact ⟨row, hrow⟩

/-- An unsettled charge stands alone, on a row that is not completed. -/
theorem Account.unsettled {id : JobId} {row : JobRow} (account : Account preChargeCents w id row)
    (unsettled : Unsettled w id) :
    row.status ≠ .completed ∧ postingsOf w.budget id = [chargeOf preChargeCents id row.bucket] := by
  obtain ⟨hnone, hswept, hnobody⟩ := unsettled
  have rest := account.rest hswept (settlers_eq_nil.mp hnobody)
  have settles : ∀ cents, postingsOf w.budget id ≠
      [costOf preChargeCents id row.bucket cents, chargeOf preChargeCents id row.bucket] := by
    intro cents h
    simp [settlements, h, costOf, chargeOf, Movement.settles] at hnone
  cases hstatus : row.status with
  | pending => exact ⟨(fun h => by cases h), rest.unfinished (by rw [hstatus]; rfl)⟩
  | running => exact ⟨(fun h => by cases h), rest.unfinished (by rw [hstatus]; rfl)⟩
  | completed => exact False.elim (settles _ (rest.completed hstatus))
  | failed =>
    rcases rest.failed hstatus with hrefund | ⟨hcharge, _⟩
    · exact False.elim (settles _ hrefund)
    · exact ⟨(fun h => by cases h), hcharge⟩

/-- A step that is about one job. -/
theorem Balanced.ofJob (balanced : Balanced preChargeCents w) (id : JobId)
    (requests : t.requests = w.requests) (sweptRows : t.sweptRows = w.sweptRows)
    (refundsSkipped : t.refundsSkipped = w.refundsSkipped)
    (jobs : ∀ key, key ≠ id → t.jobs.get key = w.jobs.get key)
    (owner : (t.jobs.get id).map JobRow.bucket = (w.jobs.get id).map JobRow.bucket)
    (present : w.jobs.get id ≠ none)
    (postings : ∀ key, key ≠ id → postingsOf t.budget key = postingsOf w.budget key)
    (settlers : ∀ key, key ≠ id → ∀ p a, a.jobId = key → a.phase.settling = true →
      (t.attempts.get p = some a ↔ w.attempts.get p = some a))
    (placed : ∀ p a, t.attempts.get p = some a → Placed w a)
    (account : ∀ row, t.jobs.get id = some row → Account preChargeCents t id row) :
    Balanced preChargeCents t := by
  have owners : ∀ key, (t.jobs.get key).map JobRow.bucket = (w.jobs.get key).map JobRow.bucket := by
    intro key
    by_cases hkey : key = id
    · exact hkey ▸ owner
    · rw [jobs key hkey]
  refine balanced.advance requests owners ?_ ?_ (sweptRows ▸ balanced.sweptOnce)
    (sweptRows ▸ balanced.sweptJobs) ?_
  · intro key hnone
    exact postings key (fun hkey => present (hkey ▸ hnone))
  · exact fun p a hget => (placed p a hget).mono owners (fun _ h => refundsSkipped ▸ h)
  · intro key row hrow
    by_cases hkey : key = id
    · subst hkey
      exact account row hrow
    · rw [jobs key hkey] at hrow
      exact (balanced.account key row hrow).frame (postings key hkey) (by rw [sweptRows])
        (fun h => refundsSkipped ▸ h) (settlers key hkey)

theorem modify_owner (jobs : Jobs) (id : JobId) {f : JobRow → JobRow}
    (keeps : ∀ row, (f row).bucket = row.bucket) :
    ((jobs.modify id f).get id).map JobRow.bucket = (jobs.get id).map JobRow.bucket := by
  rw [Table.get_modify, if_pos rfl]
  cases jobs.get id with
  | none => rfl
  | some row => simp [keeps]

/-- `mark_running` on a job whose charge it does not disturb. -/
theorem Account.markRunning {id : JobId} {row : JobRow} (now : Time)
    (account : Account preChargeCents w id row)
    (revives : row.status = .failed → Unsettled w id) :
    Account preChargeCents w id (row.markRunning now) := by
  cases hfailed : decide (row.status = .failed) with
  | true =>
    have hstatus : row.status = .failed := of_decide_eq_true hfailed
    have unsettled := revives hstatus
    have hrunning := @JobRow.markRunning_of_failed row now hstatus
    constructor
    · intro _ _
      refine Rest.of_unfinished (by rw [hrunning]; rfl) ?_
      simpa using (account.unsettled unsettled).2
    · intro hmem
      exact False.elim (unsettled.2.1 hmem)
    · intro p a hget hid hsettling
      exact False.elim (settlers_eq_nil.mp unsettled.2.2 p ⟨a, hget, hid, hsettling⟩)
  | false =>
    have hstatus : row.status ≠ .failed := of_decide_eq_false hfailed
    cases hterminal : row.status.terminal with
    | true =>
      have hdone : row.status = .completed :=
        (Status.terminal_iff.mp hterminal).resolve_right hstatus
      rw [JobRow.markRunning_of_completed hdone]
      exact account
    | false =>
      have hlive := @JobRow.markRunning_of_live row now hterminal
      constructor
      · intro hswept hnobody
        refine Rest.of_unfinished hlive ?_
        simpa using (account.rest hswept hnobody).unfinished hterminal
      · intro hmem
        exact False.elim (hstatus (account.swept hmem).1)
      · intro p a hget hid hsettling
        obtain ⟨honly, hmidway⟩ := account.midway p a hget hid hsettling
        refine ⟨honly, ?_⟩
        cases hphase : a.phase with
        | skipped =>
          rw [hphase] at hmidway
          rcases hmidway.1 with ⟨hdone, _⟩ | hdone
          · simp [hdone, Status.terminal] at hterminal
          · exact False.elim (hstatus hdone)
        | completed draft topicsCreated marked updated =>
          rw [hphase] at hmidway
          exact ⟨hmidway.1, hlive, by simpa using hmidway.2.2⟩
        | settled failure refunded =>
          cases refunded with
          | true =>
            rw [hphase] at hmidway
            refine ⟨?_, by simpa using hmidway.2⟩
            intro hdone
            simp [hdone, Status.terminal] at hlive
          | false => trivial
        | started | checked | loaded | skipping | extracted | rechecked | persisted | failing =>
          trivial

/-- A live row is marked failed for an attempt that could not refund. -/
theorem Account.markFailed {id : JobId} {row : JobRow} {errorCode : ErrorCode} {now : Time}
    (account : Account preChargeCents w id row) (unfinished : row.status.terminal = false)
    (skipped : id ∈ w.refundsSkipped)
    (unlocked : ∀ q b, w.attempts.get q = some b → b.jobId = id → b.locksJob = false) :
    Account preChargeCents w id (row.markFailed errorCode now) := by
  have hfailed := @JobRow.markFailed_of_live row now errorCode unfinished
  constructor
  · intro hswept hnobody
    have hcharge := (account.rest hswept hnobody).unfinished unfinished
    exact Rest.of_failed hfailed (Or.inr ⟨by simpa using hcharge, skipped⟩)
  · intro hmem
    rw [(account.swept hmem).1] at unfinished
    cases unfinished
  · intro q b hb hid hsettling
    obtain ⟨honly, hmidway⟩ := account.midway q b hb hid hsettling
    refine ⟨honly, ?_⟩
    cases hphase : b.phase with
    | skipped =>
      rw [hphase] at hmidway
      rcases hmidway.1 with ⟨hdone, _⟩ | hdone
      · simp [hdone, Status.terminal] at unfinished
      · simp [hdone, Status.terminal] at unfinished
    | completed draft topicsCreated marked updated =>
      rw [hphase] at hmidway
      have hlock := unlocked q b hb hid
      simp [Attempt.locksJob, hphase, hmidway.1] at hlock
    | settled failure refunded =>
      cases refunded with
      | true =>
        rw [hphase] at hmidway
        exact ⟨by rw [hfailed]; exact (fun h => by cases h), by simpa using hmidway.2⟩
      | false => trivial
    | started | checked | loaded | skipping | extracted | rechecked | persisted | failing =>
      trivial

theorem Balanced.markRunningAndLoad (balanced : Balanced preChargeCents w) {p : AttemptId}
    {now : Time}
    (revives : OfAttempt w p fun a =>
      (w.jobs.get a.jobId).map JobRow.status = some .failed → Unsettled w a.jobId)
    (h : markRunningAndLoad w p now = some t) : Balanced preChargeCents t := by
  obtain ⟨a, row, hget, hphase, hrow, rfl⟩ := markRunningAndLoad_some h
  have hquiet : a.phase.settling = false := by rw [hphase]; rfl
  refine balanced.ofJob a.jobId rfl rfl rfl (fun key hne => Table.get_modify_ne _ _ hne)
    (modify_owner w.jobs _ fun _ => JobRow.markRunning_bucket) (by simp [hrow]) (fun _ _ => rfl)
    (fun key hne => settlers_put_other hget rfl hne) ?_ ?_
  · intro q b hb
    rcases Table.get_put_eq_some hb with ⟨rfl, rfl⟩ | ⟨_, hb⟩
    · obtain ⟨period, howner, _⟩ := balanced.placed q a hget
      rw [hrow] at howner
      simp only [Option.map_some, JobRow.bucket, Option.some.injEq, Prod.mk.injEq] at howner
      exact ⟨period, by simp [hrow, JobRow.bucket, howner], fun _ => howner.2, fun _ => rfl,
        fun _ h => by cases h⟩
    · exact balanced.placed q b hb
  · intro row' hrow'
    obtain rfl : row.markRunning now = row' :=
      Option.some.inj ((Table.get_modify_self (JobRow.markRunning now) hrow).symm.trans hrow')
    have account := (balanced.account a.jobId row hrow).markRunning now
      (fun hfailed => revives a hget (by simp [hrow, hfailed]))
    refine account.frame rfl Iff.rfl (fun h => h) (settlers_put ?_ (fun _ => rfl))
    intro old hold _
    obtain rfl : a = old := Option.some.inj (hget.symm.trans hold)
    exact hquiet

theorem Balanced.loadFails (balanced : Balanced preChargeCents w) {p : AttemptId}
    {failure : Failure} (period : OfAttempt w p fun a =>
      getPeriodStart w.jobs a.jobId = some a.effectivePeriodStart)
    (h : loadFails w p failure = some t) : Balanced preChargeCents t := by
  obtain ⟨a, hget, hphase, rfl⟩ := loadFails_some h
  refine balanced.moves ?_ rfl ?_
  · intro old hold
    obtain rfl : a = old := Option.some.inj (hget.symm.trans hold)
    rw [hphase]
    rfl
  · obtain ⟨start, howner, _⟩ := balanced.placed p a hget
    obtain ⟨row, hrow, hbucket⟩ := Option.map_eq_some_iff.mp howner
    have hperiod : row.periodStart = a.effectivePeriodStart := by
      simpa [getPeriodStart, hrow] using period a hget
    have hstart : row.periodStart = start := congrArg Prod.snd hbucket
    exact ⟨start, howner, fun _ => hperiod.symm.trans hstart, (fun h => by cases h),
      fun _ h => by cases h⟩

/-- The attempt that starts to settle. -/
theorem Balanced.begins (balanced : Balanced preChargeCents w) {p : AttemptId} {a : Attempt}
    {phase : Phase} {f : JobRow → JobRow} (hget : w.attempts.get p = some a)
    (unsettled : Unsettled w a.jobId)
    (requests : t.requests = w.requests) (sweptRows : t.sweptRows = w.sweptRows)
    (refundsSkipped : t.refundsSkipped = w.refundsSkipped)
    (attempts : t.attempts = w.attempts.put p { a with phase := phase })
    (jobs : t.jobs = w.jobs.modify a.jobId f) (keeps : ∀ row, (f row).bucket = row.bucket)
    (postings : ∀ key, key ≠ a.jobId → postingsOf t.budget key = postingsOf w.budget key)
    (past : phase.pastLoad = true → a.phase.pastLoad = true)
    (settling : phase.settling = true)
    (midway : ∀ row, w.jobs.get a.jobId = some row → row.status ≠ .completed →
      postingsOf w.budget a.jobId = [chargeOf preChargeCents a.jobId row.bucket] →
      Midway preChargeCents a.jobId (f row) (postingsOf t.budget a.jobId) phase) :
    Balanced preChargeCents t := by
  have placed := balanced.placed p a hget
  obtain ⟨row, hrow⟩ := placed.row
  obtain ⟨hstatus, hcharge⟩ := (balanced.account _ row hrow).unsettled unsettled
  refine balanced.ofJob a.jobId requests sweptRows refundsSkipped
    (fun key hne => by rw [jobs, Table.get_modify_ne _ _ hne])
    (by rw [jobs]; exact modify_owner w.jobs _ keeps) (by simp [hrow]) postings ?_ ?_ ?_
  · intro key hne
    rw [attempts]
    exact settlers_put_other hget rfl hne
  · intro q b hb
    rw [attempts] at hb
    rcases Table.get_put_eq_some hb with ⟨rfl, rfl⟩ | ⟨_, hb⟩
    · refine placed.goto past ?_
      rintro failure rfl
      cases settling
    · exact balanced.placed q b hb
  · intro row' hrow'
    rw [jobs, Table.get_modify_self f hrow] at hrow'
    obtain rfl := Option.some.inj hrow'
    exact Account.begins unsettled sweptRows attempts (midway row hrow hstatus hcharge) rfl settling

/-- The attempt that has settled in one place and does so in the other. -/
theorem Balanced.ends (balanced : Balanced preChargeCents w) {p : AttemptId} {a : Attempt}
    {f : JobRow → JobRow} (hget : w.attempts.get p = some a)
    (settling : a.phase.settling = true)
    (requests : t.requests = w.requests) (sweptRows : t.sweptRows = w.sweptRows)
    (refundsSkipped : t.refundsSkipped = w.refundsSkipped)
    (attempts : t.attempts = w.attempts.erase p)
    (jobs : t.jobs = w.jobs.modify a.jobId f) (keeps : ∀ row, (f row).bucket = row.bucket)
    (postings : ∀ key, key ≠ a.jobId → postingsOf t.budget key = postingsOf w.budget key)
    (rest : ∀ row, w.jobs.get a.jobId = some row →
      Midway preChargeCents a.jobId row (postingsOf w.budget a.jobId) a.phase →
      Rest preChargeCents a.jobId (f row) (postingsOf t.budget a.jobId)
        (a.jobId ∈ t.refundsSkipped)) :
    Balanced preChargeCents t := by
  obtain ⟨row, hrow⟩ := (balanced.placed p a hget).row
  have account := balanced.account _ row hrow
  refine balanced.ofJob a.jobId requests sweptRows refundsSkipped
    (fun key hne => by rw [jobs, Table.get_modify_ne _ _ hne])
    (by rw [jobs]; exact modify_owner w.jobs _ keeps) (by simp [hrow]) postings ?_ ?_ ?_
  · intro key hne
    rw [attempts]
    exact settlers_erase_other hget hne
  · intro q b hb
    rw [attempts] at hb
    exact balanced.placed q b (Table.get_erase_eq_some hb).2
  · intro row' hrow'
    rw [jobs, Table.get_modify_self f hrow] at hrow'
    obtain rfl := Option.some.inj hrow'
    exact account.ends hget rfl settling sweptRows attempts
      (rest row hrow (account.midway p a hget rfl settling).2)

theorem postingsOf_other {posting : Posting} {budget : Budget} {id : JobId}
    (hne : id ≠ posting.jobId) : postingsOf (posting :: budget) id = postingsOf budget id := by
  rw [postingsOf_cons, if_neg (Ne.symm hne)]

theorem postingsOf_own {posting : Posting} {budget : Budget} {id : JobId}
    (hown : posting.jobId = id) :
    postingsOf (posting :: budget) id = posting :: postingsOf budget id := by
  rw [postingsOf_cons, if_pos hown]

theorem Balanced.skipCommit (balanced : Balanced preChargeCents w) {p : AttemptId} {now : Time}
    (unsettled : OfAttempt w p fun a => Unsettled w a.jobId)
    (h : skipCommit w p now = some t) : Balanced preChargeCents t := by
  obtain ⟨a, marked, hget, hphase, _, rfl⟩ := skipCommit_some h
  refine balanced.begins hget (unsettled a hget) rfl rfl rfl rfl rfl
    (fun _ => JobRow.markCompleted_bucket) (fun _ _ => rfl) (by rw [hphase]; exact fun h => h)
    rfl ?_
  intro row hrow hstatus hcharge
  cases hterminal : row.status.terminal with
  | false =>
    refine ⟨Or.inl (JobRow.markCompleted_of_live hterminal), ?_⟩
    rw [JobRow.markCompleted_bucket]
    exact hcharge
  | true =>
    rw [JobRow.markCompleted_of_terminal hterminal]
    exact ⟨Or.inr ((Status.terminal_iff.mp hterminal).resolve_left hstatus), hcharge⟩

theorem Balanced.completeAndRecord (balanced : Balanced preChargeCents w) {p : AttemptId}
    (unsettled : OfAttempt w p fun a => Unsettled w a.jobId ∧ live w.jobs a.jobId = true)
    (h : completeAndRecord preChargeCents w p = some t) : Balanced preChargeCents t := by
  obtain ⟨a, draft, topicsCreated, marked, hget, hphase, _, rfl⟩ := completeAndRecord_some h
  obtain ⟨hunsettled, hlive⟩ := unsettled a hget
  have placed := balanced.placed p a hget
  have known := placed.known (by rw [hphase]; rfl)
  refine balanced.begins hget hunsettled rfl rfl rfl rfl (Table.modify_same _ _).symm
    (fun _ => rfl) (fun _ hne => postingsOf_other hne) (by rw [hphase]; exact fun h => h) rfl ?_
  intro row hrow _ hcharge
  refine ⟨hlive, (live_iff hrow).mp hlive, ?_⟩
  rw [World.post, postingsOf_own rfl, placed.bucket hrow known]
  exact congrArg _ hcharge

theorem Balanced.settleFailure (balanced : Balanced preChargeCents w) {p : AttemptId}
    (unsettled : OfAttempt w p fun a => a.periodStartKnown = true → Unsettled w a.jobId)
    (h : settleFailure preChargeCents w p = some t) : Balanced preChargeCents t := by
  obtain ⟨a, failure, hget, hphase, ⟨known, rfl⟩ | ⟨unknown, rfl⟩⟩ := settleFailure_some h
  · have placed := balanced.placed p a hget
    refine balanced.begins hget (unsettled a hget known) rfl rfl rfl rfl
      (Table.modify_same _ _).symm (fun _ => rfl) (fun _ hne => postingsOf_other hne)
      (fun h => by cases h) rfl ?_
    intro row hrow hstatus hcharge
    refine ⟨hstatus, ?_⟩
    rw [World.post, postingsOf_own rfl, placed.bucket hrow known]
    exact congrArg _ hcharge
  · have quiet : ∀ key q b, b.jobId = key → b.phase.settling = true →
        ((w.goto p a (.settled failure false)).attempts.get q = some b ↔
          w.attempts.get q = some b) := by
      intro key
      refine settlers_put ?_ (fun _ => rfl)
      intro old hold _
      obtain rfl : a = old := Option.some.inj (hget.symm.trans hold)
      rw [hphase]
      rfl
    refine balanced.advance rfl (fun _ => rfl) (fun _ _ => rfl) ?_ balanced.sweptOnce
      balanced.sweptJobs ?_
    · intro q b hb
      rcases Table.get_put_eq_some hb with ⟨rfl, rfl⟩ | ⟨_, hb⟩
      · obtain ⟨period, howner, hknown, _⟩ := balanced.placed q a hget
        exact ⟨period, howner, hknown, (fun h => by cases h), fun _ _ => List.mem_cons_self⟩
      · exact (balanced.placed q b hb).mono (fun _ => rfl) (fun _ h => List.mem_cons_of_mem _ h)
    · intro key row hrow
      exact (balanced.account key row hrow).frame rfl Iff.rfl (fun h => List.mem_cons_of_mem _ h)
        (quiet key)

theorem Balanced.refundSkipped (balanced : Balanced preChargeCents w) {p : AttemptId}
    (h : refundSkipped preChargeCents w p = some t) : Balanced preChargeCents t := by
  obtain ⟨a, hget, hphase, rfl⟩ := refundSkipped_some h
  have placed := balanced.placed p a hget
  have known := placed.known (by rw [hphase]; rfl)
  refine balanced.ends hget (by rw [hphase]; rfl) rfl rfl rfl rfl (Table.modify_same _ _).symm
    (fun _ => rfl) (fun _ hne => postingsOf_other hne) ?_
  intro row hrow hmidway
  rw [hphase] at hmidway
  have hpostings : postingsOf (((w.finish p).post a.jobId (a.userId, a.effectivePeriodStart)
      (.actualCost 0 preChargeCents)).budget) a.jobId =
      [costOf preChargeCents a.jobId row.bucket 0, chargeOf preChargeCents a.jobId row.bucket] := by
    rw [World.post, postingsOf_own rfl, placed.bucket hrow known]
    exact congrArg _ hmidway.2
  rcases hmidway.1 with ⟨hdone, hcents⟩ | hfailed
  · exact Rest.of_completed hdone (hpostings.trans (by rw [hcents]))
  · exact Rest.of_failed hfailed (Or.inl hpostings)

theorem Balanced.commit (balanced : Balanced preChargeCents w) {p : AttemptId} {now : Time}
    (h : commit w p now = some t) : Balanced preChargeCents t := by
  obtain ⟨a, draft, topicsCreated, marked, updated, hget, hphase, rfl⟩ := commit_some h
  have settling : a.phase.settling = true := by rw [hphase]; rfl
  obtain ⟨row, hrow⟩ := (balanced.placed p a hget).row
  have updates : updated = true := by
    have hmidway := ((balanced.account _ row hrow).midway p a hget rfl settling).2
    rw [hphase] at hmidway
    exact hmidway.1
  subst updates
  refine balanced.ends hget settling rfl rfl rfl rfl rfl
    (fun _ => JobRow.markCompleted_bucket) (fun _ _ => rfl) ?_
  intro row hrow hmidway
  rw [hphase] at hmidway
  obtain ⟨_, hlive, hpostings⟩ := hmidway
  obtain ⟨hdone, hcents⟩ := @JobRow.markCompleted_of_live row now topicsCreated draft.entries.length
    draft.centsSpent hlive
  refine Rest.of_completed hdone ?_
  rw [hcents, JobRow.markCompleted_bucket]
  exact hpostings

/-- An attempt that is not halfway through a settlement may stop where it is. -/
theorem Balanced.stops (balanced : Balanced preChargeCents w) {p : AttemptId} {a : Attempt}
    (hget : w.attempts.get p = some a) (free : ¬ Halfway w a) :
    Balanced preChargeCents (w.finish p) := by
  cases settling : a.phase.settling with
  | false =>
    refine balanced.leaves ?_
    intro old hold
    obtain rfl : a = old := Option.some.inj (hget.symm.trans hold)
    exact settling
  | true =>
    refine balanced.ends hget settling rfl rfl rfl rfl (Table.modify_same _ _).symm
      (fun _ => rfl) (fun _ _ => rfl) ?_
    intro row hrow hmidway
    have hterminal : row.status.terminal = true := by
      cases hlive : row.status.terminal with
      | true => rfl
      | false => exact False.elim (free (Or.inr ⟨settling, (live_iff hrow).mpr hlive⟩))
    cases hphase : a.phase with
    | skipped => exact False.elim (free (Or.inl hphase))
    | completed draft topicsCreated marked updated =>
      rw [hphase] at hmidway
      rw [hmidway.2.1] at hterminal
      cases hterminal
    | settled failure refunded =>
      cases refunded with
      | true =>
        rw [hphase] at hmidway
        have hfailed := (Status.terminal_iff.mp hterminal).resolve_left hmidway.1
        exact Rest.of_failed hfailed (Or.inl hmidway.2)
      | false => simp [hphase, Phase.settling] at settling
    | started | checked | loaded | skipping | extracted | rechecked | persisted | failing =>
      simp [hphase, Phase.settling] at settling

theorem Balanced.raises (balanced : Balanced preChargeCents w) {p : AttemptId}
    {failure : Failure} (free : OfAttempt w p fun a => ¬ Halfway w a)
    (h : raises w p failure = some t) : Balanced preChargeCents t := by
  obtain ⟨a, hget, hcaught, rfl⟩ := raises_some h
  have quiet : a.phase.settling = false := by
    cases hphase : a.phase with
    | completed draft topicsCreated marked updated =>
      obtain ⟨row, hrow⟩ := (balanced.placed p a hget).row
      have settling : a.phase.settling = true := by rw [hphase]; rfl
      have hmidway := ((balanced.account _ row hrow).midway p a hget rfl settling).2
      rw [hphase] at hmidway
      exact False.elim (free a hget (Or.inr ⟨settling, (live_iff hrow).mpr hmidway.2.1⟩))
    | skipped | failing | settled => simp [hphase, Phase.caught] at hcaught
    | started | checked | loaded | skipping | extracted | rechecked | persisted => rfl
  refine balanced.moves ?_ rfl ?_
  · intro old hold
    obtain rfl : a = old := Option.some.inj (hget.symm.trans hold)
    exact quiet
  · exact (balanced.placed p a hget).goto (fun h => by cases h) (fun _ h => by cases h)

theorem Balanced.markJobFailed (balanced : Balanced preChargeCents w) {p : AttemptId}
    {now : Time} (h : markJobFailed w p now = some t) : Balanced preChargeCents t := by
  obtain ⟨a, failure, refunded, hget, hphase, free, rfl⟩ := markJobFailed_some h
  cases refunded with
  | true =>
    refine balanced.ends hget (by rw [hphase]; rfl) rfl rfl rfl rfl rfl
      (fun _ => JobRow.markFailed_bucket) (fun _ _ => rfl) ?_
    intro row hrow hmidway
    rw [hphase] at hmidway
    obtain ⟨hstatus, hpostings⟩ := hmidway
    have hfailed : (row.markFailed (classifyError failure) now).status = .failed := by
      cases hterminal : row.status.terminal with
      | false => exact JobRow.markFailed_of_live hterminal
      | true =>
        rw [JobRow.markFailed_of_terminal hterminal]
        exact (Status.terminal_iff.mp hterminal).resolve_left hstatus
    refine Rest.of_failed hfailed (Or.inl ?_)
    rw [JobRow.markFailed_bucket]
    exact hpostings
  | false =>
    have quiet : ∀ old, w.attempts.get p = some old → old.phase.settling = false := by
      intro old hold
      obtain rfl : a = old := Option.some.inj (hget.symm.trans hold)
      rw [hphase]
      rfl
    have placed := balanced.placed p a hget
    obtain ⟨row, hrow⟩ := placed.row
    have account := balanced.account _ row hrow
    refine balanced.ofJob a.jobId rfl rfl rfl (fun key hne => Table.get_modify_ne _ _ hne)
      (modify_owner w.jobs _ fun _ => JobRow.markFailed_bucket) (by simp [hrow])
      (fun _ _ => rfl) (fun key _ => settlers_erase (fun old hold _ => quiet old hold)) ?_ ?_
    · exact fun q b hb => balanced.placed q b (Table.get_erase_eq_some hb).2
    · intro row' hrow'
      obtain rfl : row.markFailed (classifyError failure) now = row' :=
        Option.some.inj ((Table.get_modify_self _ hrow).symm.trans hrow')
      have failed :
          Account preChargeCents w a.jobId (row.markFailed (classifyError failure) now) := by
        cases hterminal : row.status.terminal with
        | true =>
          rw [JobRow.markFailed_of_terminal hterminal]
          exact account
        | false =>
          have unlocked := free ((live_iff hrow).mpr hterminal)
          obtain ⟨_, _, _, _, hskipped⟩ := placed
          exact account.markFailed hterminal (hskipped failure hphase)
            (fun q b => jobLocked_eq_false unlocked)
      exact failed.frame rfl Iff.rfl (fun h => h)
        (settlers_erase (fun old hold _ => quiet old hold))

end Steps

theorem balanced_step (preChargeCents : Cents) (w : World) (action : Action) (t : World)
    (balanced : Balanced preChargeCents w) (settles : SettlesOnce w action)
    (h : step preChargeCents w action = some t) : Balanced preChargeCents t := by
  have quiet : ∀ {p : AttemptId} {a : Attempt}, w.attempts.get p = some a →
      a.phase.settling = false → ∀ old, w.attempts.get p = some old →
        old.phase.settling = false := by
    intro p a hget hphase old hold
    obtain rfl : a = old := Option.some.inj (hget.symm.trans hold)
    exact hphase
  cases action with
  | saveConversation id userId =>
    rcases saveConversation_some h with rfl | ⟨_, rfl⟩
    · exact balanced
    · exact balanced.same rfl rfl rfl rfl rfl rfl
  | preCharge => exact balanced.preCharge h
  | createJob => exact balanced.createJob h
  | rollBackJob => exact balanced.rollBackJob h
  | refundPreCharge => exact balanced.refundPreCharge h
  | beginAttempt p id currentPeriodStart =>
    obtain ⟨row, habsent, hrow, rfl⟩ := beginAttempt_some h
    refine balanced.moves ?_ rfl ?_
    · intro old hold
      rw [habsent] at hold
      cases hold
    · exact ⟨row.periodStart, by simp [hrow, JobRow.bucket], (fun h => by cases h),
        (fun h => by cases h), fun _ h => by cases h⟩
  | firstCheck p =>
    obtain ⟨a, hget, hphase, rfl | rfl⟩ := firstCheck_some h
    · exact balanced.leaves (quiet hget (by rw [hphase]; rfl))
    · exact balanced.moves (quiet hget (by rw [hphase]; rfl)) rfl
        ((balanced.placed p a hget).goto (fun h => by cases h) (fun _ h => by cases h))
  | markRunningAndLoad p now => exact balanced.markRunningAndLoad settles h
  | loadFails p failure => exact balanced.loadFails settles h
  | skipMarkProcessed p =>
    obtain ⟨a, hget, hphase, _, rfl⟩ := skipMarkProcessed_some h
    exact balanced.moves (quiet hget (by rw [hphase]; rfl)) rfl
      ((balanced.placed p a hget).goto (by rw [hphase]; exact fun h => h) (fun _ h => by cases h))
  | skipCommit p now => exact balanced.skipCommit settles h
  | refundSkipped p => exact balanced.refundSkipped h
  | extractEntries p draft =>
    obtain ⟨a, hget, hphase, rfl⟩ := extractEntries_some h
    exact balanced.moves (quiet hget (by rw [hphase]; rfl)) rfl
      ((balanced.placed p a hget).goto (by rw [hphase]; exact fun h => h) (fun _ h => by cases h))
  | secondCheck p =>
    obtain ⟨a, draft, hget, hphase, rfl | rfl⟩ := secondCheck_some h
    · exact balanced.leaves (quiet hget (by rw [hphase]; rfl))
    · exact balanced.moves (quiet hget (by rw [hphase]; rfl)) rfl
        ((balanced.placed p a hget).goto (by rw [hphase]; exact fun h => h) (fun _ h => by cases h))
  | persistEntries p topicsCreated =>
    obtain ⟨a, draft, hget, hphase, _, rfl⟩ := persistEntries_some h
    exact balanced.moves (quiet hget (by rw [hphase]; rfl)) rfl
      ((balanced.placed p a hget).goto (by rw [hphase]; exact fun h => h) (fun _ h => by cases h))
  | completeAndRecord p => exact balanced.completeAndRecord settles h
  | commit p now => exact balanced.commit h
  | raises p failure => exact balanced.raises settles h
  | settleFailure p => exact balanced.settleFailure settles h
  | markJobFailed p => exact balanced.markJobFailed h
  | markJobFailedErrors p =>
    obtain ⟨a, failure, refunded, hget, _, rfl⟩ := markJobFailedErrors_some h
    exact balanced.stops hget (settles a hget)
  | lose p =>
    obtain ⟨a, hget, rfl⟩ := lose_some h
    exact balanced.stops hget (settles a hget)
  | sweepRows kind now => exact balanced.sweepRows settles h
  | refundSweptRow id => exact balanced.refundSweptRow h
  | reset id =>
    obtain ⟨_, rfl⟩ := reset_some h
    exact balanced.same rfl rfl rfl rfl rfl rfl

theorem balanced_start (preChargeCents : Cents) : Balanced preChargeCents World.start where
  placed := fun _ _ h => by cases h
  requests := fun _ _ h => by cases h
  withoutJob := fun _ _ _ => Or.inl rfl
  sweptOnce := List.nodup_nil
  sweptJobs := fun _ h => by cases h
  account := fun _ _ h => by cases h

/-- A job has its charge and at most one settlement, in its own bucket. -/
theorem Account.postings {preChargeCents : Cents} {w : World} {id : JobId} {row : JobRow}
    (account : Account preChargeCents w id row) :
    postingsOf w.budget id = [chargeOf preChargeCents id row.bucket] ∨
      ∃ cents, postingsOf w.budget id =
        [costOf preChargeCents id row.bucket cents, chargeOf preChargeCents id row.bucket] := by
  by_cases hswept : id ∈ w.sweptRows
  · exact Or.inl (account.swept hswept).2.1
  by_cases hnobody : ∀ p, ¬ Settler w p id
  · have rest := account.rest hswept hnobody
    cases hstatus : row.status with
    | pending => exact Or.inl (rest.unfinished (by rw [hstatus]; rfl))
    | running => exact Or.inl (rest.unfinished (by rw [hstatus]; rfl))
    | completed => exact Or.inr ⟨_, rest.completed hstatus⟩
    | failed =>
      rcases rest.failed hstatus with hrefund | ⟨hcharge, _⟩
      · exact Or.inr ⟨_, hrefund⟩
      · exact Or.inl hcharge
  · simp only [not_forall, not_not] at hnobody
    obtain ⟨p, a, hget, hid, hsettling⟩ := hnobody
    have hmidway := (account.midway p a hget hid hsettling).2
    cases hphase : a.phase with
    | skipped =>
      rw [hphase] at hmidway
      exact Or.inl hmidway.2
    | completed draft topicsCreated marked updated =>
      rw [hphase] at hmidway
      exact Or.inr ⟨_, hmidway.2.2⟩
    | settled failure refunded =>
      cases refunded with
      | true =>
        rw [hphase] at hmidway
        exact Or.inr ⟨_, hmidway.2⟩
      | false => simp [hphase, Phase.settling] at hsettling
    | started | checked | loaded | skipping | extracted | rechecked | persisted | failing =>
      simp [hphase, Phase.settling] at hsettling

section Sums
variable {preChargeCents : Cents} {budget : Budget} {id : JobId} {bucket : UserId × Period}

theorem sums_charge (h : postingsOf budget id = [chargeOf preChargeCents id bucket]) :
    jobDelta budget id = preChargeCents ∧ settlements budget id = 0 := by
  simp [jobDelta, settlements, h, chargeOf, Movement.delta, Movement.settles]

theorem sums_cost {cents : Cents} (h : postingsOf budget id =
    [costOf preChargeCents id bucket cents, chargeOf preChargeCents id bucket]) :
    jobDelta budget id = cents ∧ settlements budget id = 1 := by
  simp [jobDelta, settlements, h, chargeOf, costOf, Movement.delta, Movement.settles]

end Sums

theorem Balanced.conserved {preChargeCents : Cents} {w : World}
    (balanced : Balanced preChargeCents w) : Conserved preChargeCents w where
  bucket := by
    intro id row hrow posting hmem
    rcases (balanced.account id row hrow).postings with h | ⟨cents, h⟩
    · rw [h] at hmem
      obtain rfl := List.mem_singleton.mp hmem
      rfl
    · rw [h] at hmem
      rcases List.mem_pair.mp hmem with rfl | rfl
      · rfl
      · rfl
  unfinished := by
    intro id row hrow hstatus hnobody
    have account := balanced.account id row hrow
    have hswept : id ∉ w.sweptRows := by
      intro hmem
      rw [(account.swept hmem).1] at hstatus
      cases hstatus
    exact sums_charge ((account.rest hswept (settlers_eq_nil.mp hnobody)).unfinished hstatus)
  completed := by
    intro id row hrow hstatus hidle
    have account := balanced.account id row hrow
    have hswept : id ∉ w.sweptRows := by
      intro hmem
      rw [(account.swept hmem).1] at hstatus
      cases hstatus
    have nobody : ∀ p, ¬ Settler w p id := fun p ⟨a, hget, hid, _⟩ => hidle p a hget hid
    exact sums_cost ((account.rest hswept nobody).completed hstatus)
  failed := by
    intro id row hrow hstatus hidle hswept
    have nobody : ∀ p, ¬ Settler w p id := fun p ⟨a, hget, hid, _⟩ => hidle p a hget hid
    rcases ((balanced.account id row hrow).rest hswept nobody).failed hstatus with h | ⟨h, hmem⟩
    · exact Or.inl (sums_cost h)
    · exact Or.inr ⟨(sums_charge h).1, (sums_charge h).2, hmem⟩
  withoutJob := by
    intro id hjob hreq
    rcases balanced.withoutJob id hjob hreq with h | ⟨bucket, h⟩
    · simp [jobDelta, h]
    · exact (sums_cost h).1
  once := by
    intro id
    cases hjob : w.jobs.get id with
    | some row =>
      rcases (balanced.account id row hjob).postings with h | ⟨cents, h⟩
      · exact (sums_charge h).2.le.trans (Nat.zero_le 1)
      · exact (sums_cost h).2.le
    | none =>
      cases hreq : w.requests.get id with
      | some r => exact (sums_charge (balanced.requests id r hreq).2).2.le.trans (Nat.zero_le 1)
      | none =>
        rcases balanced.withoutJob id hjob hreq with h | ⟨bucket, h⟩
        · simp [settlements, h]
        · exact (sums_cost h).2.le

theorem balanced_run {preChargeCents : Cents} {actions : List Action} {w : World}
    (ran : Replay.run (step preChargeCents) World.start actions = some w)
    (settles : Replay.Obeys (step preChargeCents) SettlesOnce World.start actions) :
    Balanced preChargeCents w :=
  Replay.run_invariant (balanced_step preChargeCents) (balanced_start preChargeCents) settles ran

/-- An attempt that fails has read the period of its job. -/
def FailsKnown (w : World) : Action → Prop
  | .settleFailure p => OfAttempt w p fun a => a.periodStartKnown = true
  | _ => True

instance (w : World) : DecidablePred (FailsKnown w) := fun action =>
  match action with
  | .settleFailure p => inferInstanceAs (Decidable (OfAttempt w p _))
  | .saveConversation .. | .preCharge .. | .createJob .. | .rollBackJob .. | .refundPreCharge ..
  | .beginAttempt .. | .firstCheck .. | .markRunningAndLoad .. | .loadFails ..
  | .skipMarkProcessed .. | .skipCommit .. | .refundSkipped .. | .extractEntries ..
  | .secondCheck .. | .persistEntries .. | .completeAndRecord .. | .commit .. | .raises ..
  | .markJobFailed .. | .markJobFailedErrors .. | .lose .. | .sweepRows ..
  | .refundSweptRow .. | .reset .. => instDecidableTrue

/-- A refund is skipped only by an attempt that does not know the period. -/
theorem step_refundsSkipped {preChargeCents : Cents} {w t : World} {action : Action}
    (known : FailsKnown w action) (h : step preChargeCents w action = some t) :
    t.refundsSkipped = w.refundsSkipped := by
  cases action with
  | saveConversation id userId => rcases saveConversation_some h with rfl | ⟨_, rfl⟩ <;> rfl
  | preCharge => obtain ⟨_, _, _, rfl⟩ := preCharge_some h; rfl
  | createJob => obtain ⟨_, _, _, rfl⟩ := createJob_some h; rfl
  | rollBackJob => obtain ⟨_, _, _, rfl⟩ := rollBackJob_some h; rfl
  | refundPreCharge => obtain ⟨_, _, _, rfl⟩ := refundPreCharge_some h; rfl
  | beginAttempt => obtain ⟨_, _, _, rfl⟩ := beginAttempt_some h; rfl
  | firstCheck => obtain ⟨_, _, _, rfl | rfl⟩ := firstCheck_some h <;> rfl
  | markRunningAndLoad => obtain ⟨_, _, _, _, _, rfl⟩ := markRunningAndLoad_some h; rfl
  | loadFails => obtain ⟨_, _, _, rfl⟩ := loadFails_some h; rfl
  | skipMarkProcessed => obtain ⟨_, _, _, _, rfl⟩ := skipMarkProcessed_some h; rfl
  | skipCommit => obtain ⟨_, _, _, _, _, rfl⟩ := skipCommit_some h; rfl
  | refundSkipped => obtain ⟨_, _, _, rfl⟩ := refundSkipped_some h; rfl
  | extractEntries => obtain ⟨_, _, _, rfl⟩ := extractEntries_some h; rfl
  | secondCheck => obtain ⟨_, _, _, _, rfl | rfl⟩ := secondCheck_some h <;> rfl
  | persistEntries => obtain ⟨_, _, _, _, _, rfl⟩ := persistEntries_some h; rfl
  | completeAndRecord => obtain ⟨_, _, _, _, _, _, _, rfl⟩ := completeAndRecord_some h; rfl
  | commit => obtain ⟨_, _, _, _, _, _, _, rfl⟩ := commit_some h; rfl
  | raises => obtain ⟨_, _, _, rfl⟩ := raises_some h; rfl
  | settleFailure p =>
    obtain ⟨a, _, hget, _, ⟨_, rfl⟩ | ⟨unknown, _⟩⟩ := settleFailure_some h
    · rfl
    · have : a.periodStartKnown = true := known a hget
      rw [unknown] at this
      cases this
  | markJobFailed => obtain ⟨_, _, _, _, _, _, rfl⟩ := markJobFailed_some h; rfl
  | markJobFailedErrors => obtain ⟨_, _, _, _, _, rfl⟩ := markJobFailedErrors_some h; rfl
  | lose => obtain ⟨_, _, rfl⟩ := lose_some h; rfl
  | sweepRows => obtain rfl := sweepRows_some h; rfl
  | refundSweptRow => obtain ⟨_, _, _, rfl⟩ := refundSweptRow_some h; rfl
  | reset => obtain ⟨_, rfl⟩ := reset_some h; rfl

/-- What a settlement has posted whose row is still to be written. -/
def Phase.settledTo : Phase → Cents
  | .completed draft _ _ _ => draft.centsSpent
  | _ => 0

/-- Every granted pre-charge is settled exactly once: a failed job has been
refunded, and between a budget change and its row write the sum is already the
one that the row is going to say. -/
structure Settled (preChargeCents : Cents) (w : World) : Prop
    extends Conserved preChargeCents w where
  refunded : ∀ id row, w.jobs.get id = some row → row.status = .failed → w.idle id →
    id ∉ w.sweptRows → jobDelta w.budget id = 0 ∧ settlements w.budget id = 1
  between : ∀ p a row, w.attempts.get p = some a → w.jobs.get a.jobId = some row →
    row.status.terminal = false → a.phase.settling = true →
    jobDelta w.budget a.jobId = a.phase.settledTo ∧ settlements w.budget a.jobId = 1
  swept : ∀ id ∈ w.sweptRows, jobDelta w.budget id = preChargeCents ∧ settlements w.budget id = 0

theorem Midway.sums {preChargeCents : Cents} {id : JobId} {row : JobRow} {budget : Budget}
    {phase : Phase} (midway : Midway preChargeCents id row (postingsOf budget id) phase)
    (settling : phase.settling = true) (unfinished : row.status.terminal = false) :
    jobDelta budget id = phase.settledTo ∧ settlements budget id = 1 := by
  cases phase with
  | skipped =>
    obtain ⟨⟨hdone, _⟩ | hfailed, _⟩ := midway
    · simp [hdone, Status.terminal] at unfinished
    · simp [hfailed, Status.terminal] at unfinished
  | completed draft topicsCreated marked updated => exact sums_cost midway.2.2
  | settled failure refunded =>
    cases refunded with
    | true => exact sums_cost midway.2
    | false => simp [Phase.settling] at settling
  | started | checked | loaded | skipping | extracted | rechecked | persisted | failing =>
    simp [Phase.settling] at settling

theorem Balanced.settled {preChargeCents : Cents} {w : World}
    (balanced : Balanced preChargeCents w) (none : w.refundsSkipped = []) :
    Settled preChargeCents w where
  toConserved := balanced.conserved
  refunded := by
    intro id row hrow hstatus hidle hswept
    rcases balanced.conserved.failed id row hrow hstatus hidle hswept with h | ⟨_, _, hmem⟩
    · exact h
    · rw [none] at hmem
      cases hmem
  between := by
    intro p a row hget hrow hstatus hsettling
    have midway := ((balanced.account _ row hrow).midway p a hget rfl hsettling).2
    exact midway.sums hsettling hstatus
  swept := by
    intro id hmem
    obtain ⟨row, hrow⟩ := Option.ne_none_iff_exists'.mp (balanced.sweptJobs id hmem)
    exact sums_charge ((balanced.account id row hrow).swept hmem).2.1

/-- An attempt whose model call fails after the load, up to the refund and the failed row. -/
def failAfterLoad (p : AttemptId) : List Action :=
  [.beginAttempt p 1 202605, .firstCheck p, .markRunningAndLoad p 200, .raises p .llmProviderError,
    .settleFailure p, .markJobFailed p 300]

/-- A commit fails after the budget has the cost of the success. -/
def failAtCommit (p : AttemptId) : List Action :=
  [.persistEntries p 0, .completeAndRecord p, .raises p .other, .settleFailure p,
    .markJobFailed p 300]

/-- An attempt that cannot connect to the database. -/
def failBeforeLoad (p : AttemptId) : List Action :=
  [.beginAttempt p 1 202606, .raises p .other, .settleFailure p, .markJobFailed p 300]

end ExtractConversation
