import Gubbi.Extraction.Run

/-!
# Extraction of changed conversations

A save rewrites the messages of a conversation and leaves `processed_at` as it
is, and nothing else ever sets the column back to NULL. A job that is created
for the new messages therefore meets the mark that an older run has left.
-/

namespace ExtractRun

open ExtractionJobs

universe u
variable {M : Type u}

/-- The run has presented the current messages, and its entries, if it found a
topic for them, were made from these messages. -/
def Reextracted (s : State M) : Prop :=
  ∃ messages, s.messages = some messages ∧ s.presented = some messages ∧
    (s.phase = .returned .noTopic ∨
      s.phase = .returned .extracted ∧ s.entriesFrom = some messages)

/-- The idempotency checks of a run that is expected to extract find NULL. -/
def findsUnprocessed (s : State M) : Action M → Bool
  | .check => !s.expects || s.processedAt.isNone
  | .recheck => !s.expects || s.processedAt.isNone
  | _ => true

/-- How far the current messages have come through the run. -/
def Follows (s : State M) (messages : M) : Phase → Prop
  | .loaded => s.loaded = some messages
  | .unusable | .extracting | .confirmed =>
    s.loaded = some messages ∧ s.presented = some messages
  | .finishing exit | .closing exit => s.presented = some messages ∧
    (exit = .noTopic ∨ exit = .extracted ∧ s.ownEntries = some messages)
  | .returned exit => s.presented = some messages ∧
    (exit = .noTopic ∨ exit = .extracted ∧ s.entriesFrom = some messages)
  | _ => True

def Current (s : State M) : Prop :=
  s.expects = true → ∃ messages, s.messages = some messages ∧ Follows s messages s.phase

theorem updateJob_eq (s : State M) (finds : JobRow → Bool) (f : JobRow → JobRow) :
    ∃ ownJob, s.updateJob finds f = { s with ownJob := ownJob } := by
  unfold State.updateJob
  split
  · split
    · exact ⟨_, rfl⟩
    · exact ⟨s.ownJob, rfl⟩
  · exact ⟨s.ownJob, rfl⟩

theorem ownMarkProcessed_eq (s : State M) (now : Time) :
    ∃ own, s.ownMarkProcessed now = { s with ownProcessedAt := own } := by
  unfold State.ownMarkProcessed
  split
  · exact ⟨_, rfl⟩
  · exact ⟨s.ownProcessedAt, rfl⟩

theorem Current.checkIdempotent {s : State M} (current : Current s) {exit : Exit} {next : Phase}
    (guard : (!s.expects || s.processedAt.isNone) = true)
    (follows : s.expects = true → ∀ messages, Follows s messages s.phase →
      Follows s messages next) : Current (s.checkIdempotent exit next) := by
  intro expects
  have expecting : s.expects = true := expects
  obtain ⟨messages, hmessages, hfollows⟩ := current expecting
  rw [expecting, Bool.not_true, Bool.false_or] at guard
  have hnext : s.checkIdempotent exit next = { s with phase := next } := by
    rw [State.checkIdempotent, Option.isNone_iff_eq_none.mp guard]
    rfl
  rw [hnext]
  have reached := follows expecting messages hfollows
  refine ⟨messages, hmessages, ?_⟩
  cases next <;> exact reached

section Steps
variable [DecidableEq M]

theorem step_current (id : JobId) (s : State M) (a : Action M) (t : State M)
    (current : Current s) (guard : findsUnprocessed s a = true)
    (stepped : step id s a = some t) : Current t := by
  cases a with
  | save messages =>
    obtain ⟨_, rfl⟩ := step_save.mp stepped
    exact fun expects => by cases expects
  | processedByOther now =>
    obtain ⟨_, rfl⟩ := step_processedByOther.mp stepped
    intro expects
    obtain ⟨messages, hmessages, hfollows⟩ := current expects
    refine ⟨messages, hmessages, ?_⟩
    cases hphase : s.phase <;> rw [hphase] at hfollows <;> exact hfollows
  | otherStatement statement =>
    obtain ⟨_, rfl⟩ := step_otherStatement.mp stepped
    intro expects
    obtain ⟨messages, hmessages, hfollows⟩ := current expects
    refine ⟨messages, hmessages, ?_⟩
    cases hphase : s.phase <;> rw [hphase] at hfollows <;> exact hfollows
  | createPending userId conversationId source periodStart now =>
    obtain ⟨⟨_, hsaved⟩, rfl⟩ := step_createPending.mp stepped
    obtain ⟨messages, hmessages⟩ := Option.isSome_iff_exists.mp hsaved
    exact fun _ => ⟨messages, hmessages, trivial⟩
  | check =>
    obtain ⟨_, rfl⟩ := step_check.mp stepped
    exact current.checkIdempotent guard (fun _ _ _ => trivial)
  | markRunning now =>
    obtain ⟨_, rfl⟩ := step_markRunning.mp stepped
    obtain ⟨ownJob, hjob⟩ := updateJob_eq s startable (JobRow.markRunning now)
    rw [hjob]
    intro expects
    obtain ⟨messages, hmessages, _⟩ := current expects
    exact ⟨messages, hmessages, trivial⟩
  | load =>
    obtain ⟨_, messages, hmessages, rfl⟩ := step_load.mp stepped
    exact fun _ => ⟨messages, hmessages, rfl⟩
  | categorize usable =>
    obtain ⟨hphase, rfl⟩ := step_categorize.mp stepped
    intro expects
    obtain ⟨messages, hmessages, hfollows⟩ := current expects
    have hloaded : s.loaded = some messages := by
      rw [hphase] at hfollows
      exact hfollows
    refine ⟨messages, hmessages, ?_⟩
    cases usable <;> exact ⟨hloaded, hloaded⟩
  | recheck =>
    obtain ⟨hphase, rfl⟩ := step_recheck.mp stepped
    refine current.checkIdempotent guard ?_
    intro _ messages hfollows
    rw [hphase] at hfollows
    exact hfollows
  | markProcessed now =>
    obtain ⟨own, hown⟩ := ownMarkProcessed_eq s now
    rcases step_markProcessed.mp stepped with ⟨hphase, rfl⟩ | ⟨hphase, rfl⟩
    · rw [hown]
      intro expects
      obtain ⟨messages, hmessages, hfollows⟩ := current expects
      rw [hphase] at hfollows
      exact ⟨messages, hmessages, hfollows.2, Or.inl rfl⟩
    · rw [hown]
      intro expects
      obtain ⟨messages, hmessages, hfollows⟩ := current expects
      rw [hphase] at hfollows
      exact ⟨messages, hmessages, hfollows.2, Or.inr ⟨rfl, hfollows.1⟩⟩
  | markCompleted topicsCreated entriesCreated centsSpent now =>
    obtain ⟨exit, hphase, rfl⟩ := step_markCompleted.mp stepped
    obtain ⟨ownJob, hjob⟩ := updateJob_eq s unfinished
      (JobRow.markCompleted topicsCreated entriesCreated centsSpent now)
    rw [hjob]
    intro expects
    obtain ⟨messages, hmessages, hfollows⟩ := current expects
    rw [hphase] at hfollows
    exact ⟨messages, hmessages, hfollows⟩
  | commit =>
    obtain ⟨exit, hphase, rfl⟩ := step_commit.mp stepped
    intro expects
    obtain ⟨messages, hmessages, hfollows⟩ := current expects
    rw [hphase] at hfollows
    refine ⟨messages, hmessages, hfollows.1, ?_⟩
    rcases hfollows.2 with h | ⟨h, hown⟩
    · exact Or.inl h
    · refine Or.inr ⟨h, ?_⟩
      rw [State.committed, hown]
      rfl
  | fail =>
    obtain ⟨_, rfl⟩ := step_fail.mp stepped
    intro expects
    obtain ⟨messages, hmessages, _⟩ := current expects
    exact ⟨messages, hmessages, trivial⟩

/-- The run has been sent to the end by an idempotency check, or has failed. -/
def Phase.skipped : Phase → Bool
  | .closing .alreadyProcessed | .closing .raced => true
  | .returned .alreadyProcessed | .returned .raced => true
  | .raised => true
  | _ => false

theorem skips_of_processed (id : JobId) (s : State M) (a : Action M) (t : State M) (_ : True)
    (violated : ¬ findsUnprocessed s a = true) (stepped : step id s a = some t) :
    t.phase.skipped = true := by
  have marked : ∀ exit next, ¬ (!s.expects || s.processedAt.isNone) = true →
      (s.checkIdempotent exit next).phase = .closing exit := by
    intro exit next h
    cases hprocessed : s.processedAt with
    | none =>
      rw [hprocessed, Option.isNone_none, Bool.or_true] at h
      exact absurd rfl h
    | some instant => simp [State.checkIdempotent, hprocessed]
  cases a with
  | check =>
    obtain ⟨_, rfl⟩ := step_check.mp stepped
    rw [marked _ _ violated]
    rfl
  | recheck =>
    obtain ⟨_, rfl⟩ := step_recheck.mp stepped
    rw [marked _ _ violated]
    rfl
  | _ => exact absurd rfl violated

theorem skipped_stays (id : JobId) (s : State M) (a : Action M) (t : State M)
    (skipped : s.phase.skipped = true) (stepped : step id s a = some t) :
    t.phase.skipped = true := by
  have elsewhere : ∀ phase : Phase, phase.skipped = false → s.phase ≠ phase := by
    rintro phase running rfl
    rw [skipped] at running
    cases running
  cases a with
  | save messages =>
    obtain ⟨_, rfl⟩ := step_save.mp stepped
    exact skipped
  | processedByOther now =>
    obtain ⟨_, rfl⟩ := step_processedByOther.mp stepped
    exact skipped
  | otherStatement statement =>
    obtain ⟨_, rfl⟩ := step_otherStatement.mp stepped
    exact skipped
  | createPending userId conversationId source periodStart now =>
    exact absurd (step_createPending.mp stepped).1.1 (elsewhere .idle rfl)
  | check => exact absurd (step_check.mp stepped).1 (elsewhere .queued rfl)
  | markRunning now => exact absurd (step_markRunning.mp stepped).1 (elsewhere .checked rfl)
  | load => exact absurd (step_load.mp stepped).1 (elsewhere .marked rfl)
  | categorize usable => exact absurd (step_categorize.mp stepped).1 (elsewhere .loaded rfl)
  | recheck => exact absurd (step_recheck.mp stepped).1 (elsewhere .extracting rfl)
  | markProcessed now =>
    rcases step_markProcessed.mp stepped with ⟨hphase, _⟩ | ⟨hphase, _⟩
    · exact absurd hphase (elsewhere .unusable rfl)
    · exact absurd hphase (elsewhere .confirmed rfl)
  | markCompleted topicsCreated entriesCreated centsSpent now =>
    obtain ⟨exit, hphase, _⟩ := step_markCompleted.mp stepped
    exact absurd hphase (elsewhere (.finishing exit) rfl)
  | commit =>
    obtain ⟨exit, hphase, rfl⟩ := step_commit.mp stepped
    rw [hphase] at skipped
    cases exit <;> exact skipped
  | fail =>
    obtain ⟨_, rfl⟩ := step_fail.mp stepped
    rfl

/-- When the messages had changed since the mark at the creation of the job and
are still the same, the run extracts them if and only if its idempotency checks
find no mark. -/
theorem changed_conversation_reextracted {id : JobId} {acts : List (Action M)} {t : State M}
    {exit : Exit} (ran : Replay.run (step id) start acts = some t) (expects : t.expects = true)
    (returned : t.phase = .returned exit) :
    Reextracted t ↔
      Replay.Obeys (step id) (fun s a => findsUnprocessed s a = true) start acts := by
  constructor
  · rintro ⟨messages, _, _, exits⟩
    have unskipped : ¬ t.phase.skipped = true := by
      rcases exits with h | ⟨h, _⟩
      · rw [h]
        exact Bool.false_ne_true
      · rw [h]
        exact Bool.false_ne_true
    exact Replay.obeys_of_unmarked (fun _ _ _ _ _ => trivial) (skips_of_processed id)
      (skipped_stays id) trivial ran unskipped
  · intro obeys
    have fresh : Current (start : State M) := fun h => by cases h
    obtain ⟨messages, hmessages, hfollows⟩ :=
      Replay.run_invariant (step_current id) fresh obeys ran expects
    rw [returned] at hfollows
    refine ⟨messages, hmessages, hfollows.1, ?_⟩
    rcases hfollows.2 with h | ⟨h, hentries⟩
    · exact Or.inl (by rw [returned, h])
    · exact Or.inr ⟨by rw [returned, h], hentries⟩

end Steps

/-- The first save is extracted. -/
def firstExtraction : List (Action Nat) :=
  [.save 1, .createPending 7 3 (Text.py "chatgpt") 0 0, .check, .markRunning 1, .load,
   .categorize true, .recheck, .markProcessed 2, .markCompleted 1 4 3 2, .commit]

theorem changed_conversation_reextracted_once :
    ∃ t, Replay.run (step 1) (start : State Nat) firstExtraction = some t ∧ Reextracted t := by
  refine ⟨_, rfl, ?_⟩
  exact (@changed_conversation_reextracted Nat _ 1 firstExtraction _ .extracted rfl rfl rfl).mpr
    (by decide)

/-- The conversation is saved and extracted, and then saved with other messages. -/
def extractedThenChanged : List (Action Nat) :=
  [.save 1, .processedByOther 5, .save 2, .createPending 7 3 (Text.py "chatgpt") 0 6, .check,
   .commit]

theorem changed_conversation_skipped :
    ¬ ∀ (id : JobId) (acts : List (Action Nat)) (t : State Nat) (exit : Exit),
      Replay.run (step id) start acts = some t → t.expects = true → t.phase = .returned exit →
      Reextracted t := by
  intro all
  obtain ⟨_, _, presented, _⟩ := all 1 extractedThenChanged _ .alreadyProcessed rfl rfl rfl
  cases presented

/-- What the last save stores. -/
def lastSaved : Option M → List (Action M) → Option M
  | saved, [] => saved
  | _, .save messages :: rest => lastSaved (some messages) rest
  | saved, _ :: rest => lastSaved saved rest

/-- What the last save before the read of the messages stores. -/
def savedAtLoad : Option M → Option M → List (Action M) → Option M
  | _, loaded, [] => loaded
  | _, loaded, .save messages :: rest => savedAtLoad (some messages) loaded rest
  | saved, _, .load :: rest => savedAtLoad saved saved rest
  | saved, loaded, _ :: rest => savedAtLoad saved loaded rest

/-- The run shows the extraction service what it has loaded, and its entries come from
there. -/
def Presents (presented loaded ownEntries entriesFrom : Option M) : Phase → Prop
  | .loaded => loaded.isSome = true
  | .unusable | .extracting | .confirmed => loaded.isSome = true ∧ presented = loaded
  | .finishing .noTopic | .closing .noTopic | .returned .noTopic => presented = loaded
  | .finishing .extracted | .closing .extracted =>
    loaded.isSome = true ∧ presented = loaded ∧ ownEntries = loaded
  | .returned .extracted => presented = loaded ∧ entriesFrom = loaded
  | _ => True

def State.Presents (s : State M) : Prop :=
  ExtractRun.Presents s.presented s.loaded s.ownEntries s.entriesFrom s.phase

/-- The mark, and the entries if the run has found a topic, come from the messages that
are committed now. -/
def MarkedCurrent (s : State M) (exit : Exit) : Prop :=
  s.presented = s.messages ∧ (exit = .extracted → s.entriesFrom = s.messages)

section Marks
variable [DecidableEq M] {id : JobId}

theorem step_presents (s : State M) (a : Action M) (t : State M) (presents : s.Presents)
    (stepped : step id s a = some t) : t.Presents := by
  cases a with
  | save messages =>
    obtain ⟨_, rfl⟩ := step_save.mp stepped
    exact presents
  | processedByOther now =>
    obtain ⟨_, rfl⟩ := step_processedByOther.mp stepped
    exact presents
  | otherStatement statement =>
    obtain ⟨_, rfl⟩ := step_otherStatement.mp stepped
    exact presents
  | createPending userId conversationId source periodStart now =>
    obtain ⟨_, rfl⟩ := step_createPending.mp stepped
    trivial
  | check =>
    obtain ⟨hphase, rfl⟩ := step_check.mp stepped
    unfold State.Presents State.checkIdempotent
    split <;> trivial
  | markRunning now =>
    obtain ⟨_, rfl⟩ := step_markRunning.mp stepped
    trivial
  | load =>
    obtain ⟨_, messages, _, rfl⟩ := step_load.mp stepped
    exact rfl
  | categorize usable =>
    obtain ⟨hphase, rfl⟩ := step_categorize.mp stepped
    rw [State.Presents, hphase] at presents
    cases usable <;> exact ⟨presents, rfl⟩
  | recheck =>
    obtain ⟨hphase, rfl⟩ := step_recheck.mp stepped
    rw [State.Presents, hphase] at presents
    unfold State.Presents State.checkIdempotent
    split
    · trivial
    · exact presents
  | markProcessed now =>
    obtain ⟨own, hown⟩ := ownMarkProcessed_eq s now
    rcases step_markProcessed.mp stepped with ⟨hphase, rfl⟩ | ⟨hphase, rfl⟩
    · rw [State.Presents, hphase] at presents
      rw [hown]
      exact presents.2
    · rw [State.Presents, hphase] at presents
      rw [hown]
      exact ⟨presents.1, presents.2, rfl⟩
  | markCompleted topicsCreated entriesCreated centsSpent now =>
    obtain ⟨exit, hphase, rfl⟩ := step_markCompleted.mp stepped
    obtain ⟨ownJob, hjob⟩ := updateJob_eq s unfinished
      (JobRow.markCompleted topicsCreated entriesCreated centsSpent now)
    rw [hjob]
    rw [State.Presents, hphase] at presents
    cases exit <;> exact presents
  | commit =>
    obtain ⟨exit, hphase, rfl⟩ := step_commit.mp stepped
    rw [State.Presents, hphase] at presents
    cases exit with
    | alreadyProcessed => trivial
    | raced => trivial
    | noTopic => exact presents
    | extracted =>
      obtain ⟨there, shown, made⟩ := presents
      obtain ⟨messages, hloaded⟩ := Option.isSome_iff_exists.mp there
      refine ⟨shown, ?_⟩
      rw [State.committed, made, hloaded]
      rfl
  | fail =>
    obtain ⟨_, rfl⟩ := step_fail.mp stepped
    trivial

/-- The messages follow the saves, and what the run has loaded the last read. -/
theorem run_messages {s t : State M} {acts : List (Action M)}
    (ran : Replay.run (step id) s acts = some t) :
    t.messages = lastSaved s.messages acts ∧
      t.loaded = savedAtLoad s.messages s.loaded acts := by
  induction acts generalizing s with
  | nil =>
    have same : s = t := Option.some.inj ran
    exact ⟨same ▸ rfl, same ▸ rfl⟩
  | cons a rest ih =>
    obtain ⟨m, stepped, ran⟩ := Replay.run_cons.mp ran
    have tail := ih ran
    cases a with
    | save messages =>
      obtain ⟨_, rfl⟩ := step_save.mp stepped
      exact tail
    | processedByOther now =>
      obtain ⟨_, rfl⟩ := step_processedByOther.mp stepped
      exact tail
    | otherStatement statement =>
      obtain ⟨_, rfl⟩ := step_otherStatement.mp stepped
      exact tail
    | createPending userId conversationId source periodStart now =>
      obtain ⟨_, rfl⟩ := step_createPending.mp stepped
      exact tail
    | check =>
      obtain ⟨_, rfl⟩ := step_check.mp stepped
      exact tail
    | markRunning now =>
      obtain ⟨_, rfl⟩ := step_markRunning.mp stepped
      obtain ⟨ownJob, hjob⟩ := updateJob_eq s startable (JobRow.markRunning now)
      rw [hjob] at tail
      exact tail
    | load =>
      obtain ⟨_, messages, hmessages, rfl⟩ := step_load.mp stepped
      simpa only [State.committed, savedAtLoad, lastSaved, hmessages] using tail
    | categorize usable =>
      obtain ⟨_, rfl⟩ := step_categorize.mp stepped
      exact tail
    | recheck =>
      obtain ⟨_, rfl⟩ := step_recheck.mp stepped
      exact tail
    | markProcessed now =>
      obtain ⟨own, hown⟩ := ownMarkProcessed_eq s now
      rcases step_markProcessed.mp stepped with ⟨_, rfl⟩ | ⟨_, rfl⟩
      · rw [hown] at tail
        exact tail
      · rw [hown] at tail
        exact tail
    | markCompleted topicsCreated entriesCreated centsSpent now =>
      obtain ⟨exit, _, rfl⟩ := step_markCompleted.mp stepped
      obtain ⟨ownJob, hjob⟩ := updateJob_eq s unfinished
        (JobRow.markCompleted topicsCreated entriesCreated centsSpent now)
      rw [hjob] at tail
      exact tail
    | commit =>
      obtain ⟨exit, _, rfl⟩ := step_commit.mp stepped
      exact tail
    | fail =>
      obtain ⟨_, rfl⟩ := step_fail.mp stepped
      exact tail

/-- A run that marks the conversation has presented the committed messages, and made
its entries from them, exactly when the last save before its commit and the last save
before its read of the messages store the same. -/
theorem marked_current_iff {acts : List (Action M)} {t : State M} {exit : Exit}
    (ran : Replay.run (step id) start acts = some t) (returned : t.phase = .returned exit)
    (marks : exit = .noTopic ∨ exit = .extracted) :
    MarkedCurrent t exit ↔ savedAtLoad none none acts = lastSaved none acts := by
  have fresh : (start : State M).Presents := trivial
  have presents := Replay.run_invariant' (@step_presents M _ id) fresh ran
  obtain ⟨hmessages, hloaded⟩ := run_messages ran
  change t.messages = lastSaved none acts at hmessages
  change t.loaded = savedAtLoad none none acts at hloaded
  rw [← hmessages, ← hloaded, MarkedCurrent]
  rw [State.Presents, returned] at presents
  rcases marks with rfl | rfl
  · have shown : t.presented = t.loaded := presents
    simp [shown]
  · have shown : t.presented = t.loaded ∧ t.entriesFrom = t.loaded := presents
    simp [shown.1, shown.2]

end Marks

theorem marked_current_once :
    ∃ t, Replay.run (step 1) (start : State Nat) firstExtraction = some t ∧
      MarkedCurrent t .extracted := by
  refine ⟨_, rfl, ?_⟩
  exact (@marked_current_iff Nat _ 1 firstExtraction _ .extracted rfl rfl (Or.inr rfl)).mpr rfl

/-- The conversation is saved with other messages during the calls of the model. -/
def savedDuringExtraction : List (Action Nat) :=
  [.save 1, .createPending 7 3 (Text.py "chatgpt") 0 0, .check, .markRunning 1, .load,
   .categorize true, .save 2, .recheck, .markProcessed 2, .markCompleted 1 4 3 2, .commit]

theorem marked_without_extraction :
    ¬ ∀ (id : JobId) (acts : List (Action Nat)) (t : State Nat) (exit : Exit),
      Replay.run (step id) start acts = some t → t.phase = .returned exit →
      exit = .noTopic ∨ exit = .extracted → MarkedCurrent t exit := by
  intro all
  have current := all 1 savedDuringExtraction _ .extracted rfl rfl (Or.inr rfl)
  cases current.1

end ExtractRun
