import Gubbi.Journal.ReindexRuns
import Gubbi.Library.Sweep

/-!
# Entries that always fail

A run in which some entries fail at every attempt is a sweep over the queue: the others
are embedded, but for those behind a whole batch of failures in a row.
-/

namespace ReindexRuns

open Text JournalEntries EmbeddingFreshness ReindexRecovery

universe u

section Failing
variable {E : Type u} {encode : PyStr → E} {s : Surroundings} {bad : EntryId → Prop}

/-- The bad entries fail at every attempt, and nothing else goes wrong. -/
structure OnlyFailing (s : Surroundings) (bad : EntryId → Prop) : Prop where
  fails : ∀ id, bad id → ∀ turn, s.attempt turn id ≠ .saved
  saves : ∀ id, ¬ bad id → ∀ turn, s.attempt turn id = .saved
  readable : ∀ id, s.readable id = true
  unlocked : ∀ turn, s.locked turn = []
  resets : ∀ turn, s.resetRaises turn = false

theorem OnlyFailing.succeeds_iff (failing : OnlyFailing s bad) (turn : Nat) (id : EntryId) :
    succeeds s turn id = true ↔ ¬ bad id := by
  rw [succeeds, decide_eq_true_eq]
  constructor
  · exact fun saved isBad => failing.fails id isBad turn saved
  · exact fun fine => failing.saves id fine turn

theorem page_eq (failing : OnlyFailing s bad) (run : Run E) :
    page s run = (queue run.db run.lastId []).take reindexBatchSize := by
  rw [page, failing.unlocked]

/-- The queue, split at the last success of its first page. -/
theorem queue_split {run next : Run E} {failed : List EntryId} (failing : OnlyFailing s bad)
    (turned : Turned encode s run next
      ((page s run).filter (succeeds s run.iterations.length)) failed)
    (some : (page s run).filter (succeeds s run.iterations.length) ≠ []) :
    ∃ before, queue run.db run.lastId [] = before ++ next.lastId :: queue next.db next.lastId [] ∧
      before.length < reindexBatchSize ∧
      ∀ id, id ∈ (page s run).filter (succeeds s run.iterations.length) ↔
        id = next.lastId ∨ id ∈ before.filter (succeeds s run.iterations.length) := by
  have sorted := queue_sorted run.db run.lastId []
  have rest := queue_next turned []
  have last := (cursor_mem turned some).2
  have inPage := (List.mem_filter.mp last).1
  rw [page_eq failing] at inPage
  obtain ⟨before, after, split⟩ := List.append_of_mem (List.mem_of_mem_take inPage)
  rw [split] at sorted inPage rest
  rw [sorted.after] at rest
  obtain ⟨_, later, across⟩ := List.pairwise_append.mp sorted
  have within : before.length < reindexBatchSize := by
    refine Nat.lt_of_not_le fun long => ?_
    rw [List.take_append_of_le_length long] at inPage
    exact lt_irrefl _ (across _ (List.mem_of_mem_take inPage) _ List.mem_cons_self)
  refine ⟨before, rest ▸ split, within, fun id => ?_⟩
  rw [List.mem_filter, List.mem_filter, page_eq failing, split]
  constructor
  · rintro ⟨mem, ok⟩
    rcases List.mem_append.mp (List.mem_of_mem_take mem) with inBefore | same | inAfter
    · exact Or.inr ⟨inBefore, ok⟩
    · exact Or.inl rfl
    · have le : id ≤ next.lastId := by
        refine le_cursor turned (List.mem_filter.mpr ⟨?_, ok⟩)
        rw [page_eq failing, split]
        exact mem
      exact absurd ((List.pairwise_cons.mp later).1 id ‹_›) (not_lt.mpr le)
  · rintro (rfl | ⟨inBefore, ok⟩)
    · exact ⟨inPage, (List.mem_filter.mp last).2⟩
    · refine ⟨?_, ok⟩
      rw [List.take_append, List.take_of_length_le within.le]
      exact List.mem_append_left _ inBefore

/-- A run sweeps the queue. -/
theorem loop_sweeps (failing : OnlyFailing s bad) (fuel : Nat) (run : Run E) {done : Done E}
    (ran : loop encode s fuel run = some done) :
    done.answer = .ok done.run.report ∧ ∃ passed,
      Sweep.Sweeps reindexBatchSize (fun id => ¬ bad id) (queue run.db run.lastId []) passed ∧
      ∀ id, id ∈ done.run.saved ↔ id ∈ run.saved ∨ id ∈ passed := by
  induction fuel generalizing run with
  | zero => cases ran
  | succ fuel ih =>
    rw [loop] at ran
    rcases iterate_cases encode failing.resets run with ⟨_, id, _, hidden⟩ | ⟨breaks, empty⟩ |
      ⟨next, _, _, _, rfl, rfl, turned, took⟩
    · rw [failing.readable] at hidden
      cases hidden
    · rw [breaks] at ran
      cases ran
      refine ⟨rfl, [], .stops fun id mem => ?_, fun id => by simp⟩
      rw [← page_eq failing, empty] at mem
      cases mem
    · rw [took] at ran
      by_cases none : (page s run).filter (succeeds s run.iterations.length) = []
      · rw [if_pos none] at ran
        cases ran
        refine ⟨rfl, [], .stops fun id mem fine => ?_, fun id => ?_⟩
        · rw [← page_eq failing] at mem
          have ok := (failing.succeeds_iff run.iterations.length id).mpr fine
          exact List.filter_eq_nil_iff.mp none id mem ok
        · rw [turned.saved, none, List.append_nil]
          exact (or_iff_left List.not_mem_nil).symm
      · rw [if_neg none] at ran
        obtain ⟨returned, passed, sweep, saved⟩ := ih next ran
        obtain ⟨before, split, within, successes⟩ := queue_split failing turned none
        have fine : ¬ bad next.lastId :=
          (failing.succeeds_iff run.iterations.length _).mp
            (List.mem_filter.mp (cursor_mem turned none).2).2
        have good : ∀ id, id ∈ before.filter (succeeds s run.iterations.length) ↔
            id ∈ before ∧ ¬ bad id := by
          intro id
          rw [List.mem_filter, failing.succeeds_iff]
        have sweeps := Sweep.Sweeps.passes within fine good sweep
        rw [← split] at sweeps
        refine ⟨returned, _, sweeps, fun id => ?_⟩
        rw [saved, turned.saved, List.mem_append, successes, List.mem_append, List.mem_cons]
        tauto

/-- The entries that a run from the start of the table is to embed. -/
def waiting (db : Db E) : List EntryId := queue db 0 []

/-- Entries that always fail keep another one from being embedded exactly when a whole
batch of them, in a row among the unindexed entries, lies before it. -/
theorem reindex_isolates_iff (encode : PyStr → E) (failing : OnlyFailing s bad) (db : Db E)
    (numbered : db.entries.get 0 = none) :
    ∃ done, runReindex encode s db = some done ∧ done.answer = .ok done.run.report ∧
      ∀ id, Unindexed db id → ¬ bad id →
        (Embedded encode done.run.db id ↔
          ¬ Sweep.Blocked reindexBatchSize (fun id => ¬ bad id) (waiting db) id) ∧
        (Unindexed done.run.db id ↔
          Sweep.Blocked reindexBatchSize (fun id => ¬ bad id) (waiting db) id) := by
  obtain ⟨done, ran, accounts, _⟩ := runReindex_ends encode failing.resets db
  obtain ⟨returned, passed, sweep, saved⟩ := loop_sweeps failing _ _ ran
  refine ⟨done, ran, returned, fun id unindexed fine => ?_⟩
  have unique : (waiting db).Nodup := (queue_sorted db 0 []).imp fun lt => ne_of_lt lt
  have listed : id ∈ waiting db := by
    refine mem_queue.mpr ⟨unindexed, Nat.pos_of_ne_zero ?_, List.not_mem_nil⟩
    rintro rfl
    obtain ⟨entry, hactive, _⟩ := unindexed
    rw [(active_eq_some.mp hactive).1] at numbered
    cases numbered
  have reached : id ∈ done.run.saved ↔
      ¬ Sweep.Blocked reindexBatchSize (fun id => ¬ bad id) (waiting db) id :=
    calc id ∈ done.run.saved
        ↔ id ∈ passed := (saved id).trans (or_iff_right List.not_mem_nil)
      _ ↔ id ∈ waiting db ∧
          ¬ Sweep.Blocked reindexBatchSize (fun id => ¬ bad id) (waiting db) id :=
        sweep.mem_iff unique fine
      _ ↔ ¬ Sweep.Blocked reindexBatchSize (fun id => ¬ bad id) (waiting db) id :=
        and_iff_right listed
  by_cases blocked : Sweep.Blocked reindexBatchSize (fun id => ¬ bad id) (waiting db) id
  · have left := accounts.waiting unindexed fun mem => reached.mp mem blocked
    exact ⟨iff_of_false (not_embedded_of_unindexed left) (not_not.mpr blocked),
      iff_of_true left blocked⟩
  · have embedded := accounts.embedded (reached.mpr blocked)
    exact ⟨iff_of_true embedded blocked,
      iff_of_false (fun left => not_embedded_of_unindexed left embedded) blocked⟩

end Failing

/-- Encoding an entry with one of the first ids raises. -/
def failsUpTo (last : EntryId) : Surroundings where
  locked := fun _ => []
  now := fun turn => turn
  readable := fun _ => true
  attempt := fun _ id => if id ≤ last then .encodeRaises else .saved
  resetRaises := fun _ => false

theorem onlyFailing_failsUpTo (last : EntryId) : OnlyFailing (failsUpTo last) (· ≤ last) where
  fails := by simp [failsUpTo]
  saves := by simp [failsUpTo]
  readable := fun _ => rfl
  unlocked := fun _ => rfl
  resets := fun _ => rfl

theorem reindex_isolates_second : ∃ done,
    runReindex (fun text => text) (failsUpTo 1) twoEntries = some done ∧
      Embedded (fun text => text) done.run.db 2 := by
  obtain ⟨done, ran, _, isolated⟩ := reindex_isolates_iff (fun text => text)
    (onlyFailing_failsUpTo 1) twoEntries rfl
  refine ⟨done, ran, (isolated 2 ⟨_, rfl, rfl⟩ (by decide)).1.mpr ?_⟩
  rintro ⟨before, page, after, same, full, _, _⟩
  have length := congrArg List.length same
  simp only [List.length_append, full] at length
  have short : (waiting twoEntries).length = 2 := by decide
  rw [short, reindexBatchSize] at length
  omega

/-- As many entries as a batch holds, and one more. -/
def batchAndOne : Db PyStr :=
  (List.range' 1 101).foldl
    (fun db id => append db id (py "text") none [] (py "2026-05-10")) emptyDb

/-- Nobody gets to the last entry behind a batch of failures. -/
theorem reindex_stops_at_failing_batch :
    ¬ ∀ (s : Surroundings) (bad : EntryId → Prop) (db : Db PyStr),
      (∀ id, bad id → s.readable id = false ∨ ∀ turn, s.attempt turn id ≠ .saved) →
      (∀ id, ¬ bad id → s.readable id = true ∧ ∀ turn, s.attempt turn id = .saved) →
      (∀ turn, s.locked turn = []) → (∀ turn, s.resetRaises turn = false) →
      ∃ done, runReindex (fun text => text) s db = some done ∧
        ∀ id, Unindexed db id → ¬ bad id → Embedded (fun text => text) done.run.db id := by
  intro all
  have failing := onlyFailing_failsUpTo 100
  obtain ⟨done, ran, embedded⟩ := all (failsUpTo 100) (· ≤ 100) batchAndOne
    (fun id isBad => Or.inr (failing.fails id isBad))
    (fun id fine => ⟨rfl, failing.saves id fine⟩) (fun _ => rfl) (fun _ => rfl)
  have stops : (runReindex (fun text => text) (failsUpTo 100) batchAndOne).map
      (fun done => (done.run.db.embeddings.get 101).isNone) = some true := by decide +kernel
  have last : (active batchAndOne 101).any (fun entry => entry.indexedAt.isNone) = true := by
    decide +kernel
  rw [ran, Option.map_some, Option.some.injEq, Option.isNone_iff_eq_none] at stops
  obtain ⟨entry, hactive, hindexed⟩ := (Option.any_eq_true _ _).mp last
  obtain ⟨_, _, _, vector⟩ :=
    embedded 101 ⟨entry, hactive, Option.isNone_iff_eq_none.mp hindexed⟩ (by decide)
  rw [stops] at vector
  cases vector

end ReindexRuns
