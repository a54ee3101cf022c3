import Gubbi.Journal.ReindexIsolation

/-!
# Wiping the index and embedding everything again

`_reset_all_indexed_at` takes every entry out of the index, whatever its state, and the next
reindex is to embed them all. Nobody else writes in between.
-/

namespace ReindexRuns

open Text JournalEntries EmbeddingFreshness ReindexRecovery

universe u

abbrev PoolId := Nat

structure ResetCounts where
  statusLocked : Nat
  rowsReset : Nat
  deriving DecidableEq, Repr

section Reset
variable {E : Type u}

def resetIndexedAt (db : Db E) : Db E :=
  { db with
    entries := db.entries.update (fun _ entry =>
      if entry.deletedAt = none then { entry with indexedAt := none } else entry) }

def countIndexed (db : Db E) : Nat :=
  db.entries.countWhere fun _ entry => entry.deletedAt = none && entry.indexedAt.isSome

/-- `none` is the `ValueError` of the guard. The second pool is that of the context, `locked`
whether another session has the advisory lock. -/
def resetAllIndexedAt (adminPool contextPool : Option PoolId) (locked : Bool) (db : Db E) :
    Option (ResetCounts × Db E) :=
  if adminPool = none ∨ adminPool ≠ contextPool then none
  else if locked then some (⟨1, 0⟩, db)
  else some (⟨0, countIndexed db⟩, resetIndexedAt db)

/-- All entries that are there, in the order of a reindex. -/
def liveIds (db : Db E) : List EntryId :=
  (db.entries.keysWhere fun _ entry => entry.deletedAt = none).insertionSort (· ≤ ·)

end Reset

section Wipe
variable {E : Type u} {encode : PyStr → E} {s : Surroundings} {bad : EntryId → Prop} {db : Db E}
variable {id : EntryId} {entry : Entry}

theorem entries_resetIndexedAt (db : Db E) (id : EntryId) :
    (resetIndexedAt db).entries.get id = (db.entries.get id).map (fun entry =>
      if entry.deletedAt = none then { entry with indexedAt := none } else entry) :=
  Table.get_update _ _ _

theorem active_resetIndexedAt (db : Db E) (id : EntryId) :
    active (resetIndexedAt db) id =
      (active db id).map (fun entry => { entry with indexedAt := none }) := by
  rw [active, entries_resetIndexedAt, active]
  cases db.entries.get id with
  | none => rfl
  | some entry =>
    by_cases live : entry.deletedAt = none
    · simp [live, Option.filter_some]
    · simp [live, Option.filter_some]

theorem unindexed_resetIndexedAt :
    Unindexed (resetIndexedAt db) id ↔ ∃ entry, active db id = some entry := by
  rw [Unindexed, active_resetIndexedAt]
  cases active db id with
  | none => simp
  | some entry => simp

theorem pos_of_mem {row : EntryId × Entry} (numbered : db.entries.get 0 = none)
    (mem : row ∈ db.entries.rows) : 0 < row.1 := by
  refine Nat.pos_of_ne_zero fun zero => ?_
  have found := Table.get_eq_some_iff.mpr (show (0, row.2) ∈ db.entries.rows from zero ▸ mem)
  rw [numbered] at found
  cases found

theorem waiting_resetIndexedAt (numbered : db.entries.get 0 = none) :
    waiting (resetIndexedAt db) = liveIds db := by
  have same : unindexedIds (resetIndexedAt db) 0 [] =
      db.entries.keysWhere (fun _ entry => entry.deletedAt = none) := by
    rw [unindexedIds, resetIndexedAt, Table.keysWhere, Table.keysWhere, Table.update,
      List.filter_map, List.map_map]
    refine congrArg (List.map Prod.fst) (List.filter_congr fun row mem => ?_)
    have positive := pos_of_mem numbered mem
    by_cases live : row.2.deletedAt = none
    · simp [live, positive]
    · simp [live]
  rw [waiting, queue, same, liveIds]

theorem mem_liveIds : id ∈ liveIds db ↔ ∃ entry, active db id = some entry := by
  rw [liveIds, List.mem_insertionSort, Table.mem_keysWhere]
  constructor
  · rintro ⟨entry, found, live⟩
    exact ⟨entry, active_eq_some.mpr ⟨found, of_decide_eq_true live⟩⟩
  · rintro ⟨entry, there⟩
    obtain ⟨found, live⟩ := active_eq_some.mp there
    exact ⟨entry, found, decide_eq_true live⟩

theorem nodup_liveIds (db : Db E) : (liveIds db).Nodup :=
  (List.perm_insertionSort _ _).nodup_iff.mpr (Table.nodup_keysWhere _ _)

/-- The entries that are reset and those that were waiting anyway. -/
theorem length_liveIds (numbered : db.entries.get 0 = none) :
    (liveIds db).length = countIndexed db + (waiting db).length := by
  rw [liveIds, waiting, queue, List.length_insertionSort, List.length_insertionSort, unindexedIds,
    Table.keysWhere, Table.keysWhere, List.length_map, List.length_map, countIndexed,
    Table.countWhere, ← List.countP_eq_length_filter, ← List.countP_eq_length_filter,
    List.countP_eq_countP_filter_add db.entries.rows _ (fun row => row.2.indexedAt.isSome),
    List.countP_filter, List.countP_filter]
  congr 1
  refine List.countP_congr fun row mem => ?_
  have positive := pos_of_mem numbered mem
  cases row.2.indexedAt with
  | none => simp [positive]
  | some stamp => simp

theorem loop_mono {fuel : Nat} {run : Run E} {done : Done E}
    (resets : ∀ turn, s.resetRaises turn = false)
    (ran : loop encode s fuel run = some done) :
    run.embeddingsFailed ≤ done.run.embeddingsFailed ∧ run.saved ⊆ done.run.saved := by
  induction fuel generalizing run with
  | zero => cases ran
  | succ fuel ih =>
    rw [loop] at ran
    rcases iterate_cases encode resets run with ⟨raises, _⟩ | ⟨breaks, _⟩ |
      ⟨next, succeeded, failed, _, _, _, turned, took⟩
    · rw [raises] at ran
      cases ran
      exact ⟨Nat.le_refl _, List.Subset.refl _⟩
    · rw [breaks] at ran
      cases ran
      exact ⟨Nat.le_refl _, List.Subset.refl _⟩
    · have more : run.embeddingsFailed ≤ next.embeddingsFailed ∧ run.saved ⊆ next.saved := by
        rw [turned.notGenerated, turned.saved]
        exact ⟨Nat.le_add_right _ _, List.subset_append_left _ _⟩
      rw [took] at ran
      by_cases none : succeeded = []
      · rw [if_pos none] at ran
        cases ran
        exact more
      · rw [if_neg none] at ran
        have rest := ih ran
        exact ⟨le_trans more.1 rest.1, List.Subset.trans more.2 rest.2⟩

/-- A run in which nothing fails embeds all that was in its queue. -/
theorem loop_saves_queue {fuel : Nat} {run : Run E} {done : Done E}
    (resets : ∀ turn, s.resetRaises turn = false) (unlocked : ∀ turn, s.locked turn = [])
    (ran : loop encode s fuel run = some done) {report : Report}
    (answered : done.answer = .ok report)
    (fine : done.run.embeddingsFailed = run.embeddingsFailed) :
    ∀ id ∈ queue run.db run.lastId [], id ∈ done.run.saved := by
  induction fuel generalizing run with
  | zero => cases ran
  | succ fuel ih =>
    have whole : page s run = (queue run.db run.lastId []).take reindexBatchSize := by
      rw [page, unlocked]
    rw [loop] at ran
    rcases iterate_cases encode resets run with ⟨raises, _⟩ | ⟨breaks, empty⟩ |
      ⟨next, succeeded, failed, some, rfl, rfl, turned, took⟩
    · rw [raises] at ran
      cases ran
      cases answered
    · intro id mem
      rw [whole, List.take_eq_nil_iff] at empty
      rw [empty.resolve_left (by decide)] at mem
      cases mem
    · rw [took] at ran
      by_cases none : (page s run).filter (succeeds s run.iterations.length) = []
      · -- the page fails as a whole, which the count of failures would show
        rw [if_pos none] at ran
        cases ran
        rw [turned.notGenerated] at fine
        have failures := List.eq_nil_of_length_eq_zero (Nat.add_eq_left.mp fine)
        refine absurd (List.eq_nil_iff_forall_not_mem.mpr fun id mem => ?_) some
        by_cases ok : succeeds s run.iterations.length id = true
        · exact List.filter_eq_nil_iff.mp none id mem ok
        · exact List.filter_eq_nil_iff.mp failures id mem (by simpa using ok)
      · rw [if_neg none] at ran
        have later := loop_mono resets ran
        have counted := turned.notGenerated
        have noFailures : ((page s run).filter (!succeeds s run.iterations.length ·)) = [] :=
          List.eq_nil_of_length_eq_zero (by omega)
        have rest := ih ran (by omega)
        intro id mem
        by_cases past : next.lastId < id
        · refine rest id ?_
          rw [queue_next turned]
          exact List.mem_filter.mpr ⟨mem, decide_eq_true past⟩
        · -- the cursor is in the page, and so is all in front of it
          have inPage : id ∈ page s run := by
            by_contra outside
            rw [whole] at outside
            have last := (List.mem_filter.mp (cursor_mem turned none).2).1
            rw [whole] at last
            exact past ((queue_sorted _ _ _).lt_of_not_mem_take mem outside last)
          refine later.2 ?_
          rw [turned.saved]
          refine List.mem_append_right _ (List.mem_filter.mpr ⟨inPage, ?_⟩)
          have notFailed := List.filter_eq_nil_iff.mp noFailures id inPage
          simpa using notFailed

/-- The entry is indexed again, under the vector of its content. -/
def Renewed (encode : PyStr → E) (entry : Entry) (db : Db E) (id : EntryId) : Prop :=
  (∃ now, db.entries.get id = some { entry with indexedAt := some now }) ∧
    db.embeddings.get id = some (encode entry.content)

/-- The entry is out of the index, under the vector that it has had. -/
def LeftOut (entry : Entry) (before after : Db E) (id : EntryId) : Prop :=
  after.entries.get id = some { entry with indexedAt := none } ∧
    after.embeddings.get id = before.embeddings.get id

theorem renewed_or_leftOut {run : Run E} (accounts : Accounts encode (resetIndexedAt db) run)
    (there : active db id = some entry) :
    (id ∈ run.saved → Renewed encode entry run.db id) ∧
      (id ∉ run.saved → LeftOut entry db run.db id) := by
  have wiped : active (resetIndexedAt db) id = some { entry with indexedAt := none } := by
    rw [active_resetIndexedAt, there, Option.map_some]
  constructor
  · intro saved
    obtain ⟨_, found, here, ⟨now, written⟩, vector⟩ := accounts.stored id saved
    cases wiped.symm.trans here
    exact ⟨⟨now, written⟩, vector⟩
  · intro notSaved
    have kept := accounts.kept id notSaved
    exact ⟨kept.1.trans (active_eq_some.mp wiped).1, kept.2⟩

theorem not_leftOut {before after : Db E} (renewed : Renewed encode entry after id) :
    ¬ LeftOut entry before after id := by
  rintro ⟨out, _⟩
  obtain ⟨⟨now, indexed⟩, _⟩ := renewed
  have same := congrArg Entry.indexedAt (Option.some.inj (out.symm.trans indexed))
  cases same

theorem renewed_iff {run : Run E} (accounts : Accounts encode (resetIndexedAt db) run)
    (there : active db id = some entry) : Renewed encode entry run.db id ↔ id ∈ run.saved := by
  have cases_ := renewed_or_leftOut accounts there
  refine ⟨fun renewed => ?_, cases_.1⟩
  by_contra notSaved
  exact not_leftOut renewed (cases_.2 notSaved)

/-- Entries that are deleted stay as they are. -/
theorem untouched {run : Run E} (accounts : Accounts encode (resetIndexedAt db) run)
    (gone : active db id = none) : run.db.entries.get id = db.entries.get id ∧
      run.db.embeddings.get id = db.embeddings.get id := by
  have notSaved : id ∉ run.saved := by
    intro saved
    obtain ⟨_, found, here, _⟩ := accounts.stored id saved
    rw [active_resetIndexedAt, gone] at here
    cases here
  have kept := accounts.kept id notSaved
  refine ⟨kept.1.trans ?_, kept.2⟩
  rw [entries_resetIndexedAt]
  cases stored : db.entries.get id with
  | none => rfl
  | some entry =>
    have deleted : entry.deletedAt ≠ none := fun live => by
      rw [active_eq_some.mpr ⟨stored, live⟩] at gone
      cases gone
    rw [Option.map_some, if_neg deleted]

theorem length_saved {run : Run E} (accounts : Accounts encode (resetIndexedAt db) run)
    (all : ∀ id ∈ liveIds db, id ∈ run.saved) : run.saved.length = (liveIds db).length := by
  refine List.Perm.length_eq ((List.perm_ext_iff_of_nodup accounts.savedOnce
    (nodup_liveIds db)).mpr fun id => ⟨fun saved => ?_, all id⟩)
  exact mem_liveIds.mpr (unindexed_resetIndexedAt.mp
    (accounts.claimed id (accounts.savedClaimed saved)))

/-- A reset that does not get the lock changes nothing. After one that does, a reindex whose
compensating resets go through has embedded every entry by its present content when no row was
locked and it reports no failure; entries that keep failing cost another one its vector only
behind a whole batch of them. What is not embedded is out of the index until the next reindex,
and deleted entries stay as they are. -/
theorem full_reindex (encode : PyStr → E) {s : Surroundings} {db after : Db E}
    {adminPool contextPool : Option PoolId} {locked : Bool} {counts : ResetCounts}
    (numbered : db.entries.get 0 = none)
    (reset : resetAllIndexedAt adminPool contextPool locked db = some (counts, after)) :
    (locked = true ∧ counts = ⟨1, 0⟩ ∧ after = db) ∨
    (locked = false ∧ counts.statusLocked = 0 ∧
      counts.rowsReset + (waiting db).length = (liveIds db).length ∧
      ((∀ turn, s.resetRaises turn = false) → ∃ done, runReindex encode s after = some done ∧
        ((∀ turn, s.locked turn = []) →
          ∀ report, done.answer = .ok report → report.embeddingsFailed = 0 →
            report.embeddingsGenerated = (liveIds db).length ∧
            ∀ id entry, active db id = some entry → Renewed encode entry done.run.db id) ∧
        (∀ bad, OnlyFailing s bad → done.answer = .ok done.run.report ∧
          ∀ id entry, active db id = some entry → ¬ bad id →
            (Renewed encode entry done.run.db id ↔
              ¬ Sweep.Blocked reindexBatchSize (fun id => ¬ bad id) (liveIds db) id)) ∧
        (∀ id entry, active db id = some entry →
          (LeftOut entry db done.run.db id ↔ ¬ Renewed encode entry done.run.db id)) ∧
        ∀ id, active db id = none → done.run.db.entries.get id = db.entries.get id ∧
          done.run.db.embeddings.get id = db.embeddings.get id)) := by
  unfold resetAllIndexedAt at reset
  split at reset
  · cases reset
  · split at reset
    · next held =>
      cases reset
      exact Or.inl ⟨held, rfl, rfl⟩
    · next free =>
      cases reset
      refine Or.inr ⟨Bool.eq_false_of_not_eq_true free, rfl, (length_liveIds numbered).symm,
        fun resets => ?_⟩
      obtain ⟨done, ran, accounts, answered⟩ := runReindex_ends encode resets (resetIndexedAt db)
      have queued : queue (resetIndexedAt db) 0 [] = liveIds db := waiting_resetIndexedAt numbered
      refine ⟨done, ran, ?_, ?_, ?_, fun id gone => untouched accounts gone⟩
      · intro unlocked report ok none
        have same : report = done.run.report := by
          rcases answered with answer | ⟨raised, _⟩
          · exact Except.ok.inj (ok.symm.trans answer)
          · cases ok.symm.trans raised
        subst same
        have all : ∀ id ∈ liveIds db, id ∈ done.run.saved := by
          rw [← queued]
          exact loop_saves_queue resets unlocked ran ok none
        refine ⟨accounts.generated.trans (length_saved accounts all), fun id entry there => ?_⟩
        exact (renewed_iff accounts there).mpr (all id (mem_liveIds.mpr ⟨entry, there⟩))
      · intro bad failing
        obtain ⟨returned, passed, sweep, saved⟩ := loop_sweeps failing _ _ ran
        have swept : Sweep.Sweeps reindexBatchSize (fun id => ¬ bad id) (liveIds db) passed :=
          queued ▸ sweep
        refine ⟨returned, fun id entry there fine => ?_⟩
        have listed := mem_liveIds.mpr ⟨entry, there⟩
        calc Renewed encode entry done.run.db id
            ↔ id ∈ done.run.saved := renewed_iff accounts there
          _ ↔ id ∈ passed := (saved id).trans (or_iff_right List.not_mem_nil)
          _ ↔ id ∈ liveIds db ∧
              ¬ Sweep.Blocked reindexBatchSize (fun id => ¬ bad id) (liveIds db) id :=
            swept.mem_iff (nodup_liveIds db) fine
          _ ↔ ¬ Sweep.Blocked reindexBatchSize (fun id => ¬ bad id) (liveIds db) id :=
            and_iff_right listed
      · intro id entry there
        refine ⟨fun out renewed => not_leftOut renewed out, fun notRenewed => ?_⟩
        exact (renewed_or_leftOut accounts there).2 fun saved =>
          notRenewed ((renewed_iff accounts there).mpr saved)

end Wipe

/-- An entry that a run has claimed and never embedded, one with an old vector, a deleted one. -/
def stranded : Db PyStr :=
  let three := append (append (append emptyDb 1 (py "first") none [] (py "2026-05-10"))
    2 (py "second") none [] (py "2026-05-11")) 3 (py "third") none [] (py "2026-05-12")
  let stamped := saveByVector (markIndexedBatch three [1, 2] 10) 2 (py "old")
  (delete stamped 3 11).getD stamped

theorem full_reindex_stranded : ∃ done : Done PyStr,
    runReindex (fun text => text) { failsOnce with attempt := fun _ _ => .saved }
      (resetIndexedAt stranded) = some done ∧
    done.answer = .ok done.run.report ∧
    done.run.db.embeddings.get 1 = some (py "first") ∧
      done.run.db.embeddings.get 2 = some (py "second") := by
  have outcome := @full_reindex PyStr (fun text => text)
    { failsOnce with attempt := fun _ _ => .saved } stranded (resetIndexedAt stranded) (some 7)
    (some 7) false ⟨0, 2⟩ rfl rfl
  obtain ⟨held, _⟩ | ⟨_, _, _, ends⟩ := outcome
  · cases held
  · obtain ⟨done, ran, complete, returns, _⟩ := ends fun _ => rfl
    have answered := (returns (fun _ => False) ⟨fun _ absurd_ => absurd_.elim,
      fun _ _ _ => rfl, fun _ => rfl, fun _ => rfl, fun _ => rfl⟩).1
    have none : done.run.report.embeddingsFailed = 0 := by
      cases ran
      decide +kernel
    have all := (complete (fun _ => rfl) _ answered none).2
    exact ⟨done, ran, answered, (all 1 _ rfl).2, (all 2 _ rfl).2⟩

end ReindexRuns
