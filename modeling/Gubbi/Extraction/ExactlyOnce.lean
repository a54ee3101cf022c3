import Gubbi.Extraction.Worker
import Gubbi.Library.Ledger

/-!
# Extraction happens once per processing

A run whose `mark_processed` finds the row holds its lock until it commits, so
two such runs of one processing exclude each other. `_persist_extraction` does
not look at the outcome of `mark_processed`: a run that finds the row already
processed there commits its entries all the same.
-/

namespace ExtractConversation

open Text ExtractionJobs

/-- At most one run commits a batch between two resets of a conversation, and
it is a run whose `mark_processed` changed the row. -/
structure ExactlyOnce (w : World) : Prop where
  single : ∀ conversationId epoch, w.batches.countP
    (fun batch => batch.conversationId = conversationId && batch.epoch = epoch) ≤ 1
  marked : ∀ batch ∈ w.batches, batch.marked = true

/-- The row is still unprocessed when `mark_processed` of a persisting run gets to it. -/
def FindsRow (w : World) : Action → Prop
  | .persistEntries p _ =>
    (w.attempts.get p).all (fun a => unprocessed w.conversations a.conversationId) = true
  | _ => True

instance (w : World) : DecidablePred (FindsRow w) := fun action =>
  match action with
  | .persistEntries _ _ => inferInstanceAs (Decidable (_ = true))
  | .saveConversation .. | .preCharge .. | .createJob .. | .rollBackJob .. | .refundPreCharge ..
  | .beginAttempt .. | .firstCheck .. | .markRunningAndLoad .. | .loadFails ..
  | .skipMarkProcessed .. | .skipCommit .. | .refundSkipped .. | .extractEntries ..
  | .secondCheck .. | .completeAndRecord .. | .commit .. | .raises .. | .settleFailure ..
  | .markJobFailed .. | .markJobFailedErrors .. | .lose .. | .sweepRows .. | .refundSweptRow ..
  | .reset .. => instDecidableTrue

/-- The attempt holds the lock of the conversation's row. -/
def Locker (w : World) (p : AttemptId) (id : ConversationId) : Prop :=
  ∃ a, w.attempts.get p = some a ∧ a.conversationId = id ∧ a.locksConversation = true

theorem not_locker_of_free {w : World} {id : ConversationId}
    (free : w.conversationLocked id = false) (p : AttemptId) : ¬ Locker w p id := by
  rintro ⟨a, hget, hid, hlock⟩
  rw [conversationLocked_eq_false free hget hid] at hlock
  cases hlock

theorem locker_finish {w : World} {p q : AttemptId} {id : ConversationId}
    (h : Locker (w.finish p) q id) : q ≠ p ∧ Locker w q id := by
  obtain ⟨a, hget, hid, hlock⟩ := h
  obtain ⟨hne, hget⟩ := Table.get_erase_eq_some hget
  exact ⟨hne, a, hget, hid, hlock⟩

theorem locker_goto {w : World} {p q : AttemptId} {a : Attempt} {phase : Phase}
    {id : ConversationId} (h : Locker (w.goto p a phase) q id) :
    (q = p ∧ a.conversationId = id ∧
        ({ a with phase := phase } : Attempt).locksConversation = true) ∨
      (q ≠ p ∧ Locker w q id) := by
  obtain ⟨b, hget, hid, hlock⟩ := h
  rcases Table.get_put_eq_some hget with ⟨rfl, rfl⟩ | ⟨hne, hget⟩
  · exact Or.inl ⟨rfl, hid, hlock⟩
  · exact Or.inr ⟨hne, b, hget, hid, hlock⟩

/-- A locked row is unprocessed, and only one attempt locks it. -/
structure Locks (w : World) : Prop where
  held : ∀ p id, Locker w p id → unprocessed w.conversations id = true
  alone : ∀ p q id, Locker w p id → Locker w q id → p = q

theorem unprocessed_iff {conversations : Conversations} {id : ConversationId} :
    unprocessed conversations id = true ↔
      ∃ row, conversations.get id = some row ∧ row.processedAt = none := by
  unfold unprocessed
  cases conversations.get id with
  | none => simp
  | some row => simp

theorem markProcessed_get {conversations : Conversations} {id key : ConversationId} {now : Time}
    {row : ConversationRow} (hrow : conversations.get key = some row) :
    (markProcessed conversations id now).get key =
      some (if key = id then row.markProcessed now else row) := by
  rw [markProcessed, Table.get_modify, hrow]
  by_cases hkey : key = id
  · simp [hkey]
  · simp [hkey]

/-- A step that only moves attempts to places where they lock nothing new. -/
theorem Locks.of_fewer {w t : World} (locks : Locks w)
    (fewer : ∀ q id, Locker t q id → Locker w q id)
    (same : ∀ q id, Locker t q id → unprocessed w.conversations id = true →
      unprocessed t.conversations id = true) : Locks t where
  held := fun p id h => same p id h (locks.held p id (fewer p id h))
  alone := fun p q id hp hq => locks.alone p q id (fewer p id hp) (fewer q id hq)

theorem Locks.finish {w : World} (locks : Locks w) (p : AttemptId) : Locks (w.finish p) :=
  locks.of_fewer (fun _ _ h => (locker_finish h).2) (fun _ _ _ h => h)

/-- An attempt that goes to a phase without a lock of the conversation. -/
theorem Locks.goto {w : World} (locks : Locks w) (p : AttemptId) (a : Attempt) (phase : Phase)
    (unlocked : ({ a with phase := phase } : Attempt).locksConversation = false) :
    Locks (w.goto p a phase) := by
  refine locks.of_fewer ?_ (fun _ _ _ h => h)
  intro q id h
  rcases locker_goto h with ⟨_, _, hlock⟩ | ⟨_, h⟩
  · rw [unlocked] at hlock
    cases hlock
  · exact h

/-- An attempt that keeps the lock it had. -/
theorem Locks.keep {w : World} (locks : Locks w) {p : AttemptId} {a : Attempt} (phase : Phase)
    (hget : w.attempts.get p = some a)
    (same : ({ a with phase := phase } : Attempt).locksConversation = a.locksConversation) :
    Locks (w.goto p a phase) := by
  refine locks.of_fewer ?_ (fun _ _ _ h => h)
  intro q id h
  rcases locker_goto h with ⟨rfl, hid, hlock⟩ | ⟨_, h⟩
  · exact ⟨a, hget, hid, same ▸ hlock⟩
  · exact h

/-- `mark_processed` takes the lock when it finds the row, and had to wait for it. -/
theorem Locks.mark {w : World} (locks : Locks w) {p : AttemptId} {a : Attempt} {phase : Phase}
    (takes : ({ a with phase := phase } : Attempt).locksConversation =
      unprocessed w.conversations a.conversationId)
    (free : unprocessed w.conversations a.conversationId = true →
      w.conversationLocked a.conversationId = false) : Locks (w.goto p a phase) := by
  cases hun : unprocessed w.conversations a.conversationId with
  | false => exact locks.goto p a phase (takes.trans hun)
  | true =>
    have nobody := not_locker_of_free (free hun)
    constructor
    · intro q id h
      rcases locker_goto h with ⟨rfl, rfl, _⟩ | ⟨_, h⟩
      · exact hun
      · exact locks.held q id h
    · intro q r id hq hr
      rcases locker_goto hq with ⟨hqp, hid, _⟩ | ⟨_, holdq⟩
      · rcases locker_goto hr with ⟨hrp, _, _⟩ | ⟨_, holdr⟩
        · exact hqp.trans hrp.symm
        · exact False.elim (nobody r (hid ▸ holdr))
      · rcases locker_goto hr with ⟨_, hid, _⟩ | ⟨_, holdr⟩
        · exact False.elim (nobody q (hid ▸ holdq))
        · exact locks.alone q r id holdq holdr

/-- The holder of a lock writes the row and gives the lock up. -/
theorem Locks.release {w t : World} (locks : Locks w) {p : AttemptId} {a : Attempt} (now : Time)
    (hget : w.attempts.get p = some a)
    (conversations : t.conversations = if a.locksConversation then
      markProcessed w.conversations a.conversationId now else w.conversations)
    (fewer : ∀ q id, Locker t q id → q ≠ p ∧ Locker w q id) : Locks t := by
  refine locks.of_fewer (fun q id h => (fewer q id h).2) ?_
  intro q id h hun
  rw [conversations]
  cases hlock : a.locksConversation with
  | false => exact hun
  | true =>
    have hne : id ≠ a.conversationId := by
      intro hid
      have holder : Locker w p id := ⟨a, hget, hid.symm, hlock⟩
      exact (fewer q id h).1 (locks.alone q p id (fewer q id h).2 holder)
    obtain ⟨row, hrow, hnull⟩ := unprocessed_iff.mp hun
    refine unprocessed_iff.mpr ⟨row, ?_, hnull⟩
    rw [if_pos rfl, markProcessed_get hrow, if_neg hne]

theorem locks_step (preChargeCents : Cents) (w : World) (action : Action) (t : World)
    (locks : Locks w) (h : step preChargeCents w action = some t) : Locks t := by
  cases action with
  | saveConversation id userId =>
    rcases saveConversation_some h with rfl | ⟨absent, rfl⟩
    · exact locks
    · refine locks.of_fewer (fun _ _ h => h) ?_
      intro q key _ hun
      obtain ⟨row, hrow, hnull⟩ := unprocessed_iff.mp hun
      exact unprocessed_iff.mpr ⟨row, Table.get_put_of_absent _ absent hrow, hnull⟩
  | preCharge id userId conversationId source periodStart =>
    obtain ⟨_, _, _, rfl⟩ := preCharge_some h
    exact ⟨locks.held, locks.alone⟩
  | createJob id now =>
    obtain ⟨_, _, _, rfl⟩ := createJob_some h
    exact ⟨locks.held, locks.alone⟩
  | rollBackJob id =>
    obtain ⟨_, _, _, rfl⟩ := rollBackJob_some h
    exact ⟨locks.held, locks.alone⟩
  | refundPreCharge id =>
    obtain ⟨_, _, _, rfl⟩ := refundPreCharge_some h
    exact ⟨locks.held, locks.alone⟩
  | beginAttempt p id currentPeriodStart =>
    obtain ⟨row, _, _, rfl⟩ := beginAttempt_some h
    exact locks.goto p ⟨row.conversationId, row.userId, id, currentPeriodStart, false, .started⟩
      .started rfl
  | firstCheck p =>
    obtain ⟨a, _, _, rfl | rfl⟩ := firstCheck_some h
    · exact locks.finish p
    · exact locks.goto p _ _ rfl
  | markRunningAndLoad p now =>
    obtain ⟨a, row, _, _, _, rfl⟩ := markRunningAndLoad_some h
    have same : Locks { w with jobs := w.jobs.modify a.jobId (JobRow.markRunning now) } :=
      ⟨locks.held, locks.alone⟩
    exact same.goto p _ .loaded rfl
  | loadFails p failure =>
    obtain ⟨a, _, _, rfl⟩ := loadFails_some h
    exact locks.goto p _ _ rfl
  | skipMarkProcessed p =>
    obtain ⟨a, _, _, free, rfl⟩ := skipMarkProcessed_some h
    exact locks.mark rfl free
  | skipCommit p now =>
    obtain ⟨a, marked, hget, hphase, _, rfl⟩ := skipCommit_some h
    refine locks.release now hget (by simp [Attempt.locksConversation, hphase]; rfl) ?_
    intro q id hlocker
    rcases locker_goto hlocker with ⟨_, _, hlock⟩ | ⟨hne, hlocker⟩
    · cases hlock
    · exact ⟨hne, hlocker⟩
  | refundSkipped p =>
    obtain ⟨a, _, _, rfl⟩ := refundSkipped_some h
    exact ⟨(locks.finish p).held, (locks.finish p).alone⟩
  | extractEntries p draft =>
    obtain ⟨a, _, _, rfl⟩ := extractEntries_some h
    exact locks.goto p _ _ rfl
  | secondCheck p =>
    obtain ⟨a, draft, _, _, rfl | rfl⟩ := secondCheck_some h
    · exact locks.finish p
    · exact locks.goto p _ _ rfl
  | persistEntries p topicsCreated =>
    obtain ⟨a, draft, _, _, free, rfl⟩ := persistEntries_some h
    exact locks.mark rfl free
  | completeAndRecord p =>
    obtain ⟨a, draft, topicsCreated, marked, hget, hphase, _, rfl⟩ := completeAndRecord_some h
    have same := locks.keep (.completed draft topicsCreated marked (live w.jobs a.jobId)) hget
      (by simp [Attempt.locksConversation, hphase])
    exact ⟨same.held, same.alone⟩
  | commit p now =>
    obtain ⟨a, draft, topicsCreated, marked, updated, hget, hphase, rfl⟩ := commit_some h
    refine locks.release now hget (by simp [Attempt.locksConversation, hphase]; rfl) ?_
    intro q id hlocker
    exact locker_finish hlocker
  | raises p failure =>
    obtain ⟨a, _, _, rfl⟩ := raises_some h
    exact locks.goto p _ _ rfl
  | settleFailure p =>
    obtain ⟨a, failure, _, _, ⟨_, rfl⟩ | ⟨_, rfl⟩⟩ := settleFailure_some h
    · have same := locks.goto p a (.settled failure true) rfl
      exact ⟨same.held, same.alone⟩
    · have same := locks.goto p a (.settled failure false) rfl
      exact ⟨same.held, same.alone⟩
  | markJobFailed p now =>
    obtain ⟨a, failure, refunded, _, _, _, rfl⟩ := markJobFailed_some h
    have same := locks.finish p
    exact ⟨same.held, same.alone⟩
  | markJobFailedErrors p =>
    obtain ⟨a, failure, refunded, _, _, rfl⟩ := markJobFailedErrors_some h
    exact locks.finish p
  | lose p =>
    obtain ⟨a, _, rfl⟩ := lose_some h
    exact locks.finish p
  | sweepRows kind now =>
    obtain rfl := sweepRows_some h
    exact ⟨locks.held, locks.alone⟩
  | refundSweptRow id =>
    obtain ⟨row, _, _, rfl⟩ := refundSweptRow_some h
    exact ⟨locks.held, locks.alone⟩
  | reset id =>
    obtain ⟨free, rfl⟩ := reset_some h
    refine locks.of_fewer (fun _ _ h => h) ?_
    intro q key hlocker hun
    have hne : key ≠ id := by
      rintro rfl
      exact not_locker_of_free free q hlocker
    obtain ⟨row, hrow, hnull⟩ := unprocessed_iff.mp hun
    refine unprocessed_iff.mpr ⟨row, ?_, hnull⟩
    simp [resetProcessed, Table.get_modify, hne, hrow]

/-- A run past `mark_processed` of its second transaction. -/
def Phase.persisting : Phase → Bool
  | .persisted _ _ _ | .completed _ _ _ _ => true
  | _ => false

/-- Batches of one conversation have different epochs, a batch of the current
epoch keeps the conversation processed, and a persisting run holds its row. -/
structure Epochs (w : World) : Prop where
  marked : ∀ batch ∈ w.batches, batch.marked = true
  exclusive : w.batches.Pairwise (fun new old =>
    ¬ (new.conversationId = old.conversationId ∧ new.epoch = old.epoch))
  bounded : ∀ batch ∈ w.batches, ∃ row, w.conversations.get batch.conversationId = some row ∧
    batch.epoch ≤ row.resets ∧ (batch.epoch = row.resets → row.processedAt ≠ none)
  persisting : ∀ p a, w.attempts.get p = some a → a.phase.persisting = true →
    a.locksConversation = true

theorem Epochs.moved {w t : World} (epochs : Epochs w)
    (batches : t.batches = w.batches) (conversations : t.conversations = w.conversations)
    (persisting : ∀ p a, t.attempts.get p = some a → a.phase.persisting = true →
      a.locksConversation = true) : Epochs t where
  marked := batches ▸ epochs.marked
  exclusive := batches ▸ epochs.exclusive
  bounded := by
    rw [batches, conversations]
    exact epochs.bounded
  persisting := persisting

theorem Epochs.finish {w : World} (epochs : Epochs w) (p : AttemptId) : Epochs (w.finish p) :=
  epochs.moved rfl rfl (fun q a hget => epochs.persisting q a (Table.get_erase_eq_some hget).2)

theorem Epochs.goto {w : World} (epochs : Epochs w) (p : AttemptId) (a : Attempt) (phase : Phase)
    (holds : phase.persisting = true →
      ({ a with phase := phase } : Attempt).locksConversation = true) :
    Epochs (w.goto p a phase) := by
  refine epochs.moved rfl rfl ?_
  intro q b hget hpersist
  rcases Table.get_put_eq_some hget with ⟨_, rfl⟩ | ⟨_, hget⟩
  · exact holds hpersist
  · exact epochs.persisting q b hget hpersist

/-- Writes to `conversations` that only process a row or open a new epoch. -/
theorem Epochs.rows {w t : World} (epochs : Epochs w) (batches : t.batches = w.batches)
    (attempts : t.attempts = w.attempts)
    (rows : ∀ id row, w.conversations.get id = some row → ∃ new,
      t.conversations.get id = some new ∧
        ((new.resets = row.resets ∧ (row.processedAt ≠ none → new.processedAt ≠ none)) ∨
          row.resets < new.resets)) : Epochs t where
  marked := batches ▸ epochs.marked
  exclusive := batches ▸ epochs.exclusive
  bounded := by
    intro batch hmem
    obtain ⟨row, hrow, hle, hprocessed⟩ := epochs.bounded batch (batches ▸ hmem)
    obtain ⟨new, hnew, ⟨hsame, hkeep⟩ | hlater⟩ := rows _ row hrow
    · refine ⟨new, hnew, by omega, ?_⟩
      intro heq
      exact hkeep (hprocessed (heq.trans hsame))
    · exact ⟨new, hnew, by omega, by omega⟩
  persisting := attempts ▸ epochs.persisting

theorem markProcessed_rows (conversations : Conversations) (id : ConversationId) (now : Time)
    (key : ConversationId) (row : ConversationRow) (hrow : conversations.get key = some row) :
    ∃ new, (markProcessed conversations id now).get key = some new ∧
      ((new.resets = row.resets ∧ (row.processedAt ≠ none → new.processedAt ≠ none)) ∨
        row.resets < new.resets) := by
  refine ⟨_, markProcessed_get hrow, Or.inl ?_⟩
  by_cases hkey : key = id
  · by_cases hnull : row.processedAt = none
    · simp [hkey, ConversationRow.markProcessed, hnull]
    · simp [hkey, ConversationRow.markProcessed, hnull]
  · simp [hkey]

/-- The commit of a run that holds the lock: its row was unprocessed, so no batch
of the current epoch is there yet, and the row is processed from now on. -/
theorem Epochs.commit {w t : World} (epochs : Epochs w) (locks : Locks w) {p : AttemptId}
    {a : Attempt} {draft : Draft} {now : Time} (hget : w.attempts.get p = some a)
    (hlock : a.locksConversation = true)
    (batches : t.batches = batchOf w p a draft true :: w.batches)
    (conversations : t.conversations = markProcessed w.conversations a.conversationId now)
    (attempts : t.attempts = w.attempts.erase p) : Epochs t := by
  obtain ⟨row, hrow, hnull⟩ := unprocessed_iff.mp (locks.held p _ ⟨a, hget, rfl, hlock⟩)
  have hepoch : (batchOf w p a draft true).epoch = row.resets := by simp [batchOf, hrow]
  have marking : Epochs { w with
      conversations := markProcessed w.conversations a.conversationId now } :=
    epochs.rows rfl rfl (markProcessed_rows _ _ _)
  constructor
  · intro batch hmem
    rw [batches] at hmem
    rcases List.mem_cons.mp hmem with rfl | hmem
    · rfl
    · exact epochs.marked batch hmem
  · rw [batches]
    refine List.pairwise_cons.mpr ⟨?_, epochs.exclusive⟩
    rintro old hmem ⟨hid, hsame⟩
    obtain ⟨other, hother, _, hprocessed⟩ := epochs.bounded old hmem
    have heq : other = row := by
      have hid : a.conversationId = old.conversationId := hid
      rw [← hid, hrow] at hother
      exact (Option.some.inj hother).symm
    subst heq
    exact hprocessed (hsame.symm.trans hepoch) hnull
  · intro batch hmem
    rw [batches] at hmem
    rw [conversations]
    rcases List.mem_cons.mp hmem with rfl | hmem
    · refine ⟨row.markProcessed now, ?_, ?_, ?_⟩
      · exact (markProcessed_get hrow).trans (by simp)
      · simp [hepoch, ConversationRow.markProcessed, hnull]
      · simp [ConversationRow.markProcessed, hnull]
    · exact marking.bounded batch hmem
  · intro q b hb
    rw [attempts] at hb
    exact epochs.persisting q b (Table.get_erase_eq_some hb).2

theorem epochs_step (preChargeCents : Cents) (w : World) (action : Action) (t : World)
    (locks : Locks w) (epochs : Epochs w) (finds : FindsRow w action)
    (h : step preChargeCents w action = some t) : Epochs t := by
  have same : ∀ {s : World}, s.batches = w.batches → s.conversations = w.conversations →
      s.attempts = w.attempts → Epochs s :=
    fun hb hc ha => epochs.moved hb hc (ha ▸ epochs.persisting)
  cases action with
  | saveConversation id userId =>
    rcases saveConversation_some h with rfl | ⟨absent, rfl⟩
    · exact epochs
    · refine epochs.rows rfl rfl ?_
      intro key row hrow
      exact ⟨row, Table.get_put_of_absent _ absent hrow, Or.inl ⟨rfl, fun h => h⟩⟩
  | preCharge id userId conversationId source periodStart =>
    obtain ⟨_, _, _, rfl⟩ := preCharge_some h
    exact same rfl rfl rfl
  | createJob id now =>
    obtain ⟨_, _, _, rfl⟩ := createJob_some h
    exact same rfl rfl rfl
  | rollBackJob id =>
    obtain ⟨_, _, _, rfl⟩ := rollBackJob_some h
    exact same rfl rfl rfl
  | refundPreCharge id =>
    obtain ⟨_, _, _, rfl⟩ := refundPreCharge_some h
    exact same rfl rfl rfl
  | beginAttempt p id currentPeriodStart =>
    obtain ⟨row, _, _, rfl⟩ := beginAttempt_some h
    exact epochs.goto p ⟨row.conversationId, row.userId, id, currentPeriodStart, false, .started⟩
      .started (by simp [Phase.persisting])
  | firstCheck p =>
    obtain ⟨a, _, _, rfl | rfl⟩ := firstCheck_some h
    · exact epochs.finish p
    · exact epochs.goto p a .checked (by simp [Phase.persisting])
  | markRunningAndLoad p now =>
    obtain ⟨a, row, _, _, _, rfl⟩ := markRunningAndLoad_some h
    have ran : Epochs { w with jobs := w.jobs.modify a.jobId (JobRow.markRunning now) } :=
      same rfl rfl rfl
    exact ran.goto p _ .loaded (by simp [Phase.persisting])
  | loadFails p failure =>
    obtain ⟨a, _, _, rfl⟩ := loadFails_some h
    exact epochs.goto p _ (.failing failure) (by simp [Phase.persisting])
  | skipMarkProcessed p =>
    obtain ⟨a, _, _, _, rfl⟩ := skipMarkProcessed_some h
    exact epochs.goto p a _ (by simp [Phase.persisting])
  | skipCommit p now =>
    obtain ⟨a, marked, _, _, _, rfl⟩ := skipCommit_some h
    have wrote : Epochs { w with
        conversations :=
          if marked then markProcessed w.conversations a.conversationId now else w.conversations
        jobs := markCompleted w.jobs a.jobId 0 0 0 now } := by
      refine epochs.rows rfl rfl ?_
      cases marked with
      | true => exact markProcessed_rows _ _ _
      | false => exact fun id row hrow => ⟨row, hrow, Or.inl ⟨rfl, fun h => h⟩⟩
    exact wrote.goto p a .skipped (by simp [Phase.persisting])
  | refundSkipped p =>
    obtain ⟨a, _, _, rfl⟩ := refundSkipped_some h
    exact (epochs.finish p).moved rfl rfl (epochs.finish p).persisting
  | extractEntries p draft =>
    obtain ⟨a, _, _, rfl⟩ := extractEntries_some h
    exact epochs.goto p a (.extracted draft) (by simp [Phase.persisting])
  | secondCheck p =>
    obtain ⟨a, draft, _, _, rfl | rfl⟩ := secondCheck_some h
    · exact epochs.finish p
    · exact epochs.goto p a (.rechecked draft) (by simp [Phase.persisting])
  | persistEntries p topicsCreated =>
    obtain ⟨a, draft, hget, _, _, rfl⟩ := persistEntries_some h
    have hun : unprocessed w.conversations a.conversationId = true := by
      simpa [FindsRow, hget] using finds
    exact epochs.goto p a _ (fun _ => hun)
  | completeAndRecord p =>
    obtain ⟨a, draft, topicsCreated, marked, hget, hphase, _, rfl⟩ := completeAndRecord_some h
    have hmarked : marked = true := by
      have holds := epochs.persisting p a hget (by simp [Phase.persisting, hphase])
      simpa [Attempt.locksConversation, hphase] using holds
    have moved := epochs.goto p a (.completed draft topicsCreated marked (live w.jobs a.jobId))
      (fun _ => hmarked)
    exact moved.moved rfl rfl moved.persisting
  | commit p now =>
    obtain ⟨a, draft, topicsCreated, marked, updated, hget, hphase, rfl⟩ := commit_some h
    have holds := epochs.persisting p a hget (by simp [Phase.persisting, hphase])
    have hmarked : marked = true := by
      simpa [Attempt.locksConversation, hphase] using holds
    subst hmarked
    exact epochs.commit locks hget holds rfl rfl rfl
  | raises p failure =>
    obtain ⟨a, _, _, rfl⟩ := raises_some h
    exact epochs.goto p a (.failing failure) (by simp [Phase.persisting])
  | settleFailure p =>
    obtain ⟨a, failure, _, _, ⟨_, rfl⟩ | ⟨_, rfl⟩⟩ := settleFailure_some h
    · have moved := epochs.goto p a (.settled failure true) (by simp [Phase.persisting])
      exact moved.moved rfl rfl moved.persisting
    · have moved := epochs.goto p a (.settled failure false) (by simp [Phase.persisting])
      exact moved.moved rfl rfl moved.persisting
  | markJobFailed p now =>
    obtain ⟨a, failure, refunded, _, _, _, rfl⟩ := markJobFailed_some h
    exact (epochs.finish p).moved rfl rfl (epochs.finish p).persisting
  | markJobFailedErrors p =>
    obtain ⟨a, failure, refunded, _, _, rfl⟩ := markJobFailedErrors_some h
    exact epochs.finish p
  | lose p =>
    obtain ⟨a, _, rfl⟩ := lose_some h
    exact epochs.finish p
  | sweepRows kind now =>
    obtain rfl := sweepRows_some h
    exact same rfl rfl rfl
  | refundSweptRow id =>
    obtain ⟨row, _, _, rfl⟩ := refundSweptRow_some h
    exact same rfl rfl rfl
  | reset id =>
    obtain ⟨_, rfl⟩ := reset_some h
    refine epochs.rows rfl rfl ?_
    intro key row hrow
    rw [resetProcessed, Table.get_modify, hrow]
    by_cases hkey : key = id
    · exact ⟨_, if_pos hkey, Or.inr (by simp)⟩
    · exact ⟨row, if_neg hkey, Or.inl ⟨rfl, fun h => h⟩⟩

theorem locks_start : Locks World.start where
  held := by
    rintro p id ⟨a, hget, _⟩
    cases hget
  alone := by
    rintro p q id ⟨a, hget, _⟩
    cases hget

theorem epochs_start : Epochs World.start where
  marked := fun _ h => by cases h
  exclusive := List.Pairwise.nil
  bounded := fun _ h => by cases h
  persisting := fun _ _ h => by cases h

/-- In every interleaving in which no run gets to `mark_processed` of its second
transaction after another one has processed the conversation, extraction is
exactly once between two resets. -/
theorem extraction_exactlyOnce {preChargeCents : Cents} {actions : List Action} {w : World}
    (ran : Replay.run (step preChargeCents) World.start actions = some w)
    (finds : Replay.Obeys (step preChargeCents) FindsRow World.start actions) :
    ExactlyOnce w := by
  have keeps : ∀ s action t, Locks s ∧ Epochs s → FindsRow s action →
      step preChargeCents s action = some t → Locks t ∧ Epochs t := by
    rintro s action t ⟨locks, epochs⟩ hfinds hstep
    exact ⟨locks_step _ s action t locks hstep, epochs_step _ s action t locks epochs hfinds hstep⟩
  have inv : Locks w ∧ Epochs w :=
    Replay.run_invariant keeps ⟨locks_start, epochs_start⟩ finds ran
  constructor
  · intro conversationId epoch
    refine Ledger.countP_le_one (inv.2.exclusive.imp ?_)
    intro new old hne hboth
    simp only [Bool.and_eq_true, decide_eq_true_eq] at hboth
    exact hne ⟨hboth.1.1.trans hboth.2.1.symm, hboth.1.2.trans hboth.2.2.symm⟩
  · exact inv.2.marked

/-- Extracted, reset and extracted again: two batches, one for each epoch. -/
theorem extraction_exactlyOnce_reset : ∃ w,
    Replay.run (step 5) World.start (queued ++ untilSecondCheck 1 ++ persistAndCommit 1 ++
      [.reset 1] ++ untilSecondCheck 2 ++ persistAndCommit 2) = some w ∧
    w.batches.length = 2 ∧ ExactlyOnce w := by
  refine ⟨_, rfl, by decide, ?_⟩
  exact @extraction_exactlyOnce 5 (queued ++ untilSecondCheck 1 ++ persistAndCommit 1 ++
    [.reset 1] ++ untilSecondCheck 2 ++ persistAndCommit 2) _ rfl (by decide)

/-- Two workers pass the second check before either commits: both commit the
entries of the one processing, and the later one without having marked the row. -/
theorem racing_workers_extract_twice : ∃ w,
    Replay.run (step 5) World.start (queued ++ untilSecondCheck 1 ++ untilSecondCheck 2 ++
      persistAndCommit 1 ++ persistAndCommit 2) = some w ∧
    ¬ ExactlyOnce w := by
  refine ⟨_, rfl, ?_⟩
  intro once
  exact absurd (once.single 1 0) (by decide)

end ExtractConversation
