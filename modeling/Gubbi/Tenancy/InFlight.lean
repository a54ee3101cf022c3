import Gubbi.Tenancy.Operations
import Gubbi.Library.Replay

/-!
# Jobs in flight

`create_pending` looks up the job that is in flight after its insert has failed. On a
connection without a transaction that works. In a transaction the failed insert has
already aborted it: the query is refused, the typed exception is never raised, and the
transaction of ingest rolls back.
-/

namespace Tenancy

open Text RowSecurity Transactions Connections
open ExtractionJobs (UserId JobId JobRow Period activeJobs)

section Conflict
variable {E : Type} {user : UserId} {id : ConversationId} {source : PyStr} {periodStart : Period}
  {now : Time}

/-- A job of the conversation is pending or running. -/
def InFlight (user : UserId) (id : ConversationId) (source : PyStr) (db : Db E) : Prop :=
  activeJobs db.jobs user id source ≠ []

/-- What `create_pending` says of the conflict, on a connection with an open transaction:
it raises the id of the job in flight and the transaction goes on. -/
def ConflictRaised (user : UserId) (id : ConversationId) (source : PyStr) (periodStart : Period)
    (now : Time) (c : Conn (Db E) Login) : Prop :=
  ∃ jobId ∈ activeJobs c.store.jobs user id source,
    createPending user id source periodStart now c = (.error (.alreadyInFlight jobId), c)

/-- What ingest says of it: it commits an audit row and goes on with the job in flight. -/
def JobReused (user : UserId) (id : ConversationId) (source : PyStr) (periodStart : Period)
    (now : Time) (db : Db E) : Prop :=
  ∃ jobId ∈ activeJobs db.jobs user id source,
    createExtractionJob user id source periodStart now (connect false db) =
      (.ok jobId, connect false { db with audit := db.audit ++ [⟨user, .jobCreated, jobId⟩] })

theorem insertPending_error (login : Login) {db : Db E} (inFlight : InFlight user id source db) :
    insertPending user id source periodStart now login db =
      .error (if (access db login).admits user then .uniqueViolation else .policyViolation) := by
  have taken : ExtractionJobs.createPending db.jobs db.jobs.freshKey user id source periodStart
      now = none := if_neg inFlight
  unfold insertPending
  split
  · rw [taken]
  · rfl

/-- The query after the failed insert is refused. -/
theorem createPending_aborts (periodStart : Period) (now : Time) {c : Conn (Db E) Login}
    (transaction : c.status = .inTransaction) (inFlight : InFlight user id source c.store) :
    ∃ e, createPending user id source periodStart now c =
        (.error e, { c with status := .inError }) ∧
      ∀ jobId, e ≠ .alreadyInFlight jobId := by
  have inserted : run (insertPending user id source periodStart now) c = (.error _, _) :=
    run_error _ (by simp [transaction]) (insertPending_error c.settings inFlight)
  rw [transaction, Status.afterFailure] at inserted
  unfold createPending
  rw [rescue_error inserted]
  by_cases admitted : (access c.store c.settings).admits user = true
  · simp only [if_pos admitted]
    exact ⟨.inFailedTransaction, bind_error (execute_refused rfl), fun _ => by simp⟩
  · simp only [if_neg admitted]
    exact ⟨.policyViolation, rfl, fun _ => by simp⟩

theorem createOrReuseJob_aborts (periodStart : Period) (now : Time) {c : Conn (Db E) Login}
    (transaction : c.status = .inTransaction) (inFlight : InFlight user id source c.store) :
    ∃ e, createOrReuseJob user id source periodStart now c =
      (.error e, { c with status := .inError }) := by
  obtain ⟨e, aborted, other⟩ := createPending_aborts periodStart now transaction inFlight
  refine ⟨e, ?_⟩
  unfold createOrReuseJob
  rw [rescue_error aborted]
  split
  · next existing => exact absurd rfl (other existing)
  · rfl

/-- Transaction 2 of ingest rolls back. -/
theorem createExtractionJob_aborts (periodStart : Period) (now : Time) {db : Db E}
    (inFlight : InFlight user id source db) :
    ∃ e, createExtractionJob user id source periodStart now (connect false db) =
      (.error e, connect false db) := by
  obtain ⟨e, aborted⟩ := createOrReuseJob_aborts periodStart now
    (c := ⟨db, loginOf user, .inTransaction⟩) rfl inFlight
  exact ⟨e, userScoped_rollback (bind_error aborted)⟩

/-- Without a transaction the query finds the job that is in flight. -/
theorem createPending_autocommit {c : Conn (Db E) Login} (idle : c.status = .idle)
    (admitted : (access c.store c.settings).admits user = true)
    (inFlight : InFlight user id source c.store) :
    ConflictRaised user id source periodStart now c := by
  have running : c.status ≠ .inError := by simp [idle]
  have inserted : run (insertPending user id source periodStart now) c = (.error _, _) :=
    run_error _ running (insertPending_error c.settings inFlight)
  rw [if_pos admitted, idle, Status.afterFailure, ← idle] at inserted
  obtain ⟨jobId, rest, hrows⟩ := List.exists_cons_of_ne_nil inFlight
  have visible : select (access c.store c.settings) JobRow.userId c.store.jobs
      (fun _ row => row.userId = user && row.conversationId = id && row.source = source &&
        !row.status.terminal) = activeJobs c.store.jobs user id source := by
    refine congrArg c.store.jobs.keysWhere ?_
    funext _ row
    by_cases mine : row.userId = user
    · simp [mine, admitted]
    · simp [mine]
  have found : run (selectInFlight user id source) c = (.ok (some jobId), c) := by
    refine run_ok _ running ?_
    rw [selectInFlight, visible, hrows, List.head?_cons]
  refine ⟨jobId, hrows ▸ List.mem_cons_self, ?_⟩
  unfold createPending rescue
  rw [inserted]
  exact bind_of_ok found

/-- In a transaction the conflict is never handled: `create_pending` raises another error
and leaves the transaction aborted, and the transaction of ingest commits nothing. -/
theorem conflict_never_handled {c : Conn (Db E) Login} (transaction : c.status = .inTransaction)
    (inFlight : InFlight user id source c.store) :
    ¬ ConflictRaised user id source periodStart now c ∧
      (createPending user id source periodStart now c).2.status = .inError ∧
      ¬ JobReused user id source periodStart now c.store ∧
      (createExtractionJob user id source periodStart now (connect false c.store)).2 =
        connect false c.store := by
  obtain ⟨e, aborted, other⟩ := createPending_aborts periodStart now transaction inFlight
  obtain ⟨e', rolledBack⟩ := createExtractionJob_aborts periodStart now inFlight
  refine ⟨?_, ?_, ?_, ?_⟩
  · rintro ⟨jobId, _, raised⟩
    have same := congrArg Prod.fst (aborted.symm.trans raised)
    exact other jobId (Except.error.inj same)
  · rw [aborted]
  · rintro ⟨jobId, _, reused⟩
    have same := congrArg Prod.fst (rolledBack.symm.trans reused)
    cases same
  · rw [rolledBack]

end Conflict

/-- A conversation is imported and its job waits for a worker. -/
def importedOnce : List (Action Unit) :=
  [.setUser 1 none, .ensureInbox 1 10,
    .ingest 1 (py "a") [⟨.user, py "hi", none⟩] .claude (py "p") [] 11,
    .createJob 1 1 (py "claude") 0 12]

theorem conflict_never_handled_imported : ∃ w,
    Replay.run step (World.start Unit) importedOnce = some w ∧
      ¬ ConflictRaised 1 1 (py "claude") 0 13 ⟨w.db, loginOf 1, .inTransaction⟩ ∧
      (createPending 1 1 (py "claude") 0 13 ⟨w.db, loginOf 1, .inTransaction⟩).2.status =
        .inError ∧
      ¬ JobReused 1 1 (py "claude") 0 13 w.db ∧
      (createExtractionJob 1 1 (py "claude") 0 13 (connect false w.db)).2 =
        connect false w.db := by
  have ran : Replay.run step (World.start Unit) importedOnce = some _ := rfl
  exact ⟨_, ran, conflict_never_handled rfl (List.cons_ne_nil _ _)⟩

/-- The import of that conversation again. -/
theorem imported_again_aborts : ∃ w,
    Replay.run step (World.start Unit) importedOnce = some w ∧
      activeJobs w.db.jobs 1 1 (py "claude") = [1] ∧
      ¬ ConflictRaised 1 1 (py "claude") 0 13 ⟨w.db, loginOf 1, .inTransaction⟩ ∧
      (createExtractionJob 1 1 (py "claude") 0 13 (connect false w.db)).1 =
        .error .inFailedTransaction := by
  have ran : Replay.run step (World.start Unit) importedOnce = some _ := rfl
  refine ⟨_, ran, rfl, ?_, rfl⟩
  rintro ⟨jobId, _, raised⟩
  cases congrArg Prod.fst raised

end Tenancy
