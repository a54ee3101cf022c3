import Gubbi.Journal.Reindex
import Mathlib.Data.List.Dedup

/-!
# Runs of a reindex

One call of `_run_reindex` on a table that nobody else writes: it claims a batch, embeds
its rows one by one, resets those that failed and goes on behind the greatest one that
did not. What the surroundings do to it is a parameter.
-/

namespace ReindexRuns

open Text JournalEntries EmbeddingFreshness ReindexRecovery

universe u

/-- What comes of encoding a row and saving its vector. -/
inductive Attempt
  | saved
  | encodeRaises
  | saveRaises
  deriving DecidableEq, Repr

/-- What happens to a run, by the number of the iteration. -/
structure Surroundings where
  locked : Nat → List EntryId
  now : Nat → Time
  readable : EntryId → Bool
  attempt : Nat → EntryId → Attempt
  resetRaises : Nat → Bool

/-- An iteration that claimed a batch, with the cursor that it started from. -/
structure Iteration where
  lastId : EntryId
  claimed : List EntryId
  succeeded : List EntryId
  failed : List EntryId
  deriving DecidableEq, Repr

structure Run (E : Type u) where
  db : Db E
  lastId : EntryId
  embeddingsGenerated : Nat
  embeddingsFailed : Nat
  iterations : List Iteration

structure Report where
  status : PyStr
  semanticStatus : PyStr
  embeddingsGenerated : Nat
  embeddingsFailed : Nat
  deriving DecidableEq

inductive ReindexError
  | undecryptable
  | resetFailed
  deriving DecidableEq, Repr

/-- The state of the loop over the rows of a batch. -/
structure Batch (E : Type u) where
  db : Db E
  succeededIds : List EntryId
  failedIds : List EntryId
  embeddingsGenerated : Nat
  embeddingsFailed : Nat

inductive Next (E : Type u)
  | continues (run : Run E)
  | breaks (run : Run E)
  | raises (run : Run E) (error : ReindexError)

structure Done (E : Type u) where
  run : Run E
  answer : Except ReindexError Report

section Model
variable {E : Type u} (encode : PyStr → E) (s : Surroundings)

/-- A row of the batch; the transaction of a save that raises is rolled back. -/
def processRow (turn : Nat) (b : Batch E) (row : EntryId × PyStr) : Batch E :=
  match s.attempt turn row.1 with
  | .saved => { b with
      db := saveByVector b.db row.1 (encode row.2)
      succeededIds := b.succeededIds ++ [row.1]
      embeddingsGenerated := b.embeddingsGenerated + 1 }
  | .encodeRaises | .saveRaises => { b with
      failedIds := b.failedIds ++ [row.1]
      embeddingsFailed := b.embeddingsFailed + 1 }

def processBatch (turn : Nat) (b : Batch E) (rows : List (EntryId × PyStr)) : Batch E :=
  rows.foldl (processRow encode s turn) b

/-- The run after a batch, with the rows as they then are. -/
def Run.after (run : Run E) (rows : List (EntryId × PyStr)) (b : Batch E) (db : Db E)
    (lastId : EntryId) : Run E where
  db := db
  lastId := lastId
  embeddingsGenerated := b.embeddingsGenerated
  embeddingsFailed := b.embeddingsFailed
  iterations := run.iterations ++
    [⟨run.lastId, rows.map Prod.fst, b.succeededIds, b.failedIds⟩]

/-- The compensating reset, and where the cursor goes. -/
def endBatch (run : Run E) (rows : List (EntryId × PyStr)) (b : Batch E) : Next E :=
  if b.failedIds ≠ [] ∧ s.resetRaises run.iterations.length = true then
    .raises (run.after rows b b.db run.lastId) .resetFailed
  else
    match b.succeededIds.max? with
    | some lastId =>
      .continues (run.after rows b (resetIndexedAtForIds b.db b.failedIds) lastId)
    | none => .breaks (run.after rows b (resetIndexedAtForIds b.db b.failedIds) run.lastId)

/-- An iteration with the rows it has selected. A row that does not decrypt rolls the
claim back. -/
def onBatch (run : Run E) (rows : List (EntryId × PyStr)) : Next E :=
  if rows.any (fun row => !s.readable row.1) then .raises run .undecryptable
  else if rows = [] then .breaks run
  else
    endBatch s run rows (processBatch encode s run.iterations.length
      { db := markIndexedBatch run.db (rows.map Prod.fst) (s.now run.iterations.length)
        succeededIds := []
        failedIds := []
        embeddingsGenerated := run.embeddingsGenerated
        embeddingsFailed := run.embeddingsFailed } rows)

/-- One pass through `while True`. -/
def iterate (run : Run E) : Next E :=
  onBatch encode s run
    (getUnindexed run.db run.lastId reindexBatchSize (s.locked run.iterations.length))

def Run.report (run : Run E) : Report where
  status := py "rebuilt"
  semanticStatus := if run.embeddingsFailed = 0 then py "ok" else py "partial"
  embeddingsGenerated := run.embeddingsGenerated
  embeddingsFailed := run.embeddingsFailed

/-- `while True`; `none` once the fuel is used up. -/
def loop : Nat → Run E → Option (Done E)
  | 0, _ => none
  | fuel + 1, run =>
    match iterate encode s run with
    | .continues run => loop fuel run
    | .breaks run => some ⟨run, .ok run.report⟩
    | .raises run error => some ⟨run, .error error⟩

def Run.start (db : Db E) : Run E := ⟨db, 0, 0, 0, []⟩

/-- Each iteration that goes on passes a row, so the rows of the table bound them. -/
def runReindex (db : Db E) : Option (Done E) :=
  loop encode s (db.entries.rows.length + 1) (Run.start db)

end Model

section Account
variable {E : Type u}

def Run.claimed (run : Run E) : List EntryId := run.iterations.flatMap Iteration.claimed

def Run.saved (run : Run E) : List EntryId := run.iterations.flatMap Iteration.succeeded

/-- The values that `last_id` goes through. -/
def Run.cursors (run : Run E) : List EntryId :=
  0 :: run.iterations.filterMap (fun iteration => iteration.succeeded.max?)

/-- The entry has the vector of its content, and the index knows it. -/
def Embedded (encode : PyStr → E) (db : Db E) (id : EntryId) : Prop :=
  ∃ entry, active db id = some entry ∧ entry.indexedAt ≠ none ∧
    db.embeddings.get id = some (encode entry.content)

end Account

section Iterations
variable {E : Type u} {encode : PyStr → E} {s : Surroundings}

def succeeds (s : Surroundings) (turn : Nat) (id : EntryId) : Bool :=
  s.attempt turn id = .saved

/-- What the loop over the rows of a batch comes to. -/
structure Processed (encode : PyStr → E) (s : Surroundings) (turn : Nat) (b after : Batch E)
    (rows : List (EntryId × PyStr)) : Prop where
  entries : after.db.entries = b.db.entries
  embeddings : ∀ id content, (∀ row ∈ rows, row.1 = id → row.2 = content) →
    after.db.embeddings.get id =
      if id ∈ (rows.map Prod.fst).filter (succeeds s turn) then some (encode content)
      else b.db.embeddings.get id
  succeeded : after.succeededIds =
    b.succeededIds ++ (rows.map Prod.fst).filter (succeeds s turn)
  failed : after.failedIds = b.failedIds ++ (rows.map Prod.fst).filter (!succeeds s turn ·)
  generated : after.embeddingsGenerated =
    b.embeddingsGenerated + ((rows.map Prod.fst).filter (succeeds s turn)).length
  notGenerated : after.embeddingsFailed =
    b.embeddingsFailed + ((rows.map Prod.fst).filter (!succeeds s turn ·)).length

theorem processRow_saved {turn : Nat} {row : EntryId × PyStr} (ok : succeeds s turn row.1 = true)
    (b : Batch E) : processRow encode s turn b row = { b with
      db := saveByVector b.db row.1 (encode row.2)
      succeededIds := b.succeededIds ++ [row.1]
      embeddingsGenerated := b.embeddingsGenerated + 1 } := by
  simp only [processRow, of_decide_eq_true ok]

theorem processRow_failed {turn : Nat} {row : EntryId × PyStr} (ok : succeeds s turn row.1 = false)
    (b : Batch E) : processRow encode s turn b row = { b with
      failedIds := b.failedIds ++ [row.1]
      embeddingsFailed := b.embeddingsFailed + 1 } := by
  cases attempted : s.attempt turn row.1 with
  | saved => exact absurd attempted (of_decide_eq_false ok)
  | encodeRaises => simp only [processRow, attempted]
  | saveRaises => simp only [processRow, attempted]

variable (encode s) in
theorem processBatch_processed (turn : Nat) (b : Batch E) (rows : List (EntryId × PyStr)) :
    Processed encode s turn b (processBatch encode s turn b rows) rows := by
  induction rows generalizing b with
  | nil =>
    exact ⟨rfl, fun _ _ _ => rfl, (List.append_nil _).symm, (List.append_nil _).symm, rfl, rfl⟩
  | cons row rest ih =>
    have later := ih (processRow encode s turn b row)
    change Processed encode s turn b (processBatch encode s turn (processRow encode s turn b row)
      rest) (row :: rest)
    generalize processBatch encode s turn (processRow encode s turn b row) rest = after at later ⊢
    cases ok : succeeds s turn row.1 with
    | true =>
      rw [processRow_saved ok] at later
      have ids : ((row :: rest).map Prod.fst).filter (succeeds s turn) =
          row.1 :: (rest.map Prod.fst).filter (succeeds s turn) := List.filter_cons_of_pos ok
      have others : ((row :: rest).map Prod.fst).filter (!succeeds s turn ·) =
          (rest.map Prod.fst).filter (!succeeds s turn ·) := List.filter_cons_of_neg (by simp [ok])
      refine ⟨later.entries, ?_, ?_, ?_, ?_, ?_⟩
      · intro id content same
        rw [later.embeddings id content (fun row mem => same row (List.mem_cons_of_mem _ mem)), ids]
        by_cases mem : id ∈ (rest.map Prod.fst).filter (succeeds s turn)
        · rw [if_pos mem, if_pos (List.mem_cons_of_mem _ mem)]
        · rw [if_neg mem]
          by_cases this : id = row.1
          · subst this
            rw [if_pos List.mem_cons_self, ← same row List.mem_cons_self rfl]
            exact Table.get_put_self _ _ _
          · rw [if_neg (by simp [this, mem])]
            exact Table.get_put_ne _ _ this
      · rw [later.succeeded, ids, List.append_assoc]
        rfl
      · rw [later.failed, others]
      · rw [later.generated, ids, List.length_cons]
        exact Nat.succ_add_eq_add_succ _ _
      · rw [later.notGenerated, others]
    | false =>
      rw [processRow_failed ok] at later
      have ids : ((row :: rest).map Prod.fst).filter (succeeds s turn) =
          (rest.map Prod.fst).filter (succeeds s turn) := List.filter_cons_of_neg (by simp [ok])
      have others : ((row :: rest).map Prod.fst).filter (!succeeds s turn ·) =
          row.1 :: (rest.map Prod.fst).filter (!succeeds s turn ·) :=
        List.filter_cons_of_pos (by simp [ok])
      refine ⟨later.entries, ?_, ?_, ?_, ?_, ?_⟩
      · intro id content same
        rw [later.embeddings id content (fun row mem => same row (List.mem_cons_of_mem _ mem)), ids]
      · rw [later.succeeded, ids]
      · rw [later.failed, others, List.append_assoc]
        rfl
      · rw [later.generated, ids]
      · rw [later.notGenerated, others, List.length_cons]
        exact Nat.succ_add_eq_add_succ _ _

/-- The ids that an iteration claims. -/
def page (s : Surroundings) (run : Run E) : List EntryId :=
  (queue run.db run.lastId (s.locked run.iterations.length)).take reindexBatchSize

/-- What an iteration over a page comes to: its successes are stored, and all else is as
it was before the claim. -/
structure Turned (encode : PyStr → E) (s : Surroundings) (run next : Run E)
    (succeeded failed : List EntryId) : Prop where
  stored : ∀ id ∈ succeeded, ∃ entry, active run.db id = some entry ∧ entry.indexedAt = none ∧
    next.db.entries.get id =
      some { entry with indexedAt := some (s.now run.iterations.length) } ∧
    next.db.embeddings.get id = some (encode entry.content)
  kept : ∀ id, id ∉ succeeded → next.db.entries.get id = run.db.entries.get id ∧
    next.db.embeddings.get id = run.db.embeddings.get id
  cursor : next.lastId = (succeeded.max?).getD run.lastId
  generated : next.embeddingsGenerated = run.embeddingsGenerated + succeeded.length
  notGenerated : next.embeddingsFailed = run.embeddingsFailed + failed.length
  iterations : next.iterations =
    run.iterations ++ [⟨run.lastId, page s run, succeeded, failed⟩]

theorem mem_page {run : Run E} {id : EntryId} (mem : id ∈ page s run) :
    ∃ entry, active run.db id = some entry ∧ entry.indexedAt = none ∧ run.lastId < id := by
  obtain ⟨⟨entry, hactive, unindexed⟩, past, _⟩ := mem_queue.mp (List.mem_of_mem_take mem)
  exact ⟨entry, hactive, unindexed, past⟩

theorem page_sorted (s : Surroundings) (run : Run E) :
    Keyset.Sorted (fun id : EntryId => id) (page s run) :=
  List.Pairwise.sublist (List.take_sublist _ _) (queue_sorted _ _ _)

/-- What the two UPDATEs of the stamps make of a row. -/
theorem entries_resetIndexedAtForIds {run : Run E} {after : Db E} {failed : List EntryId}
    (entries : after.entries =
      (markIndexedBatch run.db (page s run) (s.now run.iterations.length)).entries)
    (failures : failed = (page s run).filter (!succeeds s run.iterations.length ·))
    (id : EntryId) :
    (resetIndexedAtForIds after failed).entries.get id =
      (run.db.entries.get id).map (fun entry =>
        if id ∈ page s run then
          if succeeds s run.iterations.length id then
            { entry with indexedAt := some (s.now run.iterations.length) }
          else if entry.deletedAt = none then { entry with indexedAt := none }
          else { entry with indexedAt := some (s.now run.iterations.length) }
        else entry) := by
  rw [resetIndexedAtForIds, Table.get_update, entries, markIndexedBatch, Table.get_update,
    failures, Option.map_map]
  refine congrArg (fun f => (run.db.entries.get id).map f) (funext fun entry => ?_)
  by_cases mem : id ∈ page s run
  · cases ok : succeeds s run.iterations.length id with
    | true => simp [mem, ok]
    | false =>
      by_cases live : entry.deletedAt = none
      · simp [mem, ok, live]
      · simp [mem, ok, live]
  · simp [mem]

/-- Marking a page, storing its successes and resetting its failures leaves a trace of
the successes only. -/
theorem turned_of_processed {run : Run E} {after : Batch E} {rows : List (EntryId × PyStr)}
    (ids : rows.map Prod.fst = page s run)
    (contents : ∀ row ∈ rows, ∃ entry, active run.db row.1 = some entry ∧ entry.content = row.2)
    (processed : Processed encode s run.iterations.length
      ⟨markIndexedBatch run.db (page s run) (s.now run.iterations.length), [], [],
        run.embeddingsGenerated, run.embeddingsFailed⟩ after rows) :
    Turned encode s run
      (run.after rows after (resetIndexedAtForIds after.db after.failedIds)
        (after.succeededIds.max?.getD run.lastId))
      ((page s run).filter (succeeds s run.iterations.length))
      ((page s run).filter (!succeeds s run.iterations.length ·)) := by
  obtain ⟨entries, embeddings, succeeded, failed, generated, notGenerated⟩ := processed
  rw [ids] at embeddings succeeded failed generated notGenerated
  rw [List.nil_append] at succeeded failed
  have written := entries_resetIndexedAtForIds entries failed
  have text : ∀ id entry, active run.db id = some entry →
      ∀ row ∈ rows, row.1 = id → row.2 = entry.content := by
    rintro id entry hactive row mem rfl
    obtain ⟨found, hfound, same⟩ := contents row mem
    obtain rfl : found = entry := Option.some.inj (hfound.symm.trans hactive)
    exact same.symm
  refine ⟨?_, ?_, ?_, generated, notGenerated, ?_⟩
  · intro id mem
    obtain ⟨inPage, ok⟩ := List.mem_filter.mp mem
    obtain ⟨entry, hactive, unindexed, _⟩ := mem_page inPage
    refine ⟨entry, hactive, unindexed, ?_, ?_⟩
    · refine (written id).trans ?_
      rw [(active_eq_some.mp hactive).1]
      simp [inPage, ok]
    · exact (embeddings id entry.content (text id entry hactive)).trans (if_pos mem)
  · intro id notMem
    constructor
    · refine (written id).trans ?_
      by_cases inPage : id ∈ page s run
      · obtain ⟨entry, hactive, unindexed, _⟩ := mem_page inPage
        obtain ⟨hentry, live⟩ := active_eq_some.mp hactive
        have notOk : succeeds s run.iterations.length id = false := by
          simpa [inPage] using notMem
        rw [hentry, Option.map_some, if_pos inPage, if_neg (by simp [notOk]), if_pos live,
          ← unindexed]
      · simp [inPage]
    · by_cases inPage : id ∈ page s run
      · obtain ⟨entry, hactive, _⟩ := mem_page inPage
        exact (embeddings id entry.content (text id entry hactive)).trans (if_neg notMem)
      · refine (embeddings id [] ?_).trans (if_neg notMem)
        rintro row mem rfl
        exact absurd (ids ▸ List.mem_map_of_mem mem) inPage
  · rw [← succeeded]
    rfl
  · rw [← succeeded, ← failed, ← ids]
    rfl

variable (encode) in
/-- What an iteration does when the resets do not raise. -/
theorem iterate_cases (resets : ∀ turn, s.resetRaises turn = false) (run : Run E) :
    (iterate encode s run = .raises run .undecryptable ∧
        ∃ id ∈ page s run, s.readable id = false) ∨
      (iterate encode s run = .breaks run ∧ page s run = []) ∨
      ∃ next succeeded failed, page s run ≠ [] ∧
        succeeded = (page s run).filter (succeeds s run.iterations.length) ∧
        failed = (page s run).filter (!succeeds s run.iterations.length ·) ∧
        Turned encode s run next succeeded failed ∧
        iterate encode s run = if succeeded = [] then .breaks next else .continues next := by
  have ids := ids_getUnindexed run.db run.lastId reindexBatchSize
    (s.locked run.iterations.length)
  rw [iterate]
  generalize hrows : getUnindexed run.db run.lastId reindexBatchSize
    (s.locked run.iterations.length) = rows at ids ⊢
  change rows.map Prod.fst = page s run at ids
  by_cases unreadable : rows.any (fun row => !s.readable row.1) = true
  · refine Or.inl ⟨if_pos unreadable, ?_⟩
    obtain ⟨row, mem, hidden⟩ := List.any_eq_true.mp unreadable
    exact ⟨row.1, ids ▸ List.mem_map_of_mem mem, by simpa using hidden⟩
  · refine Or.inr ?_
    by_cases empty : rows = []
    · subst empty
      exact Or.inl ⟨rfl, ids.symm⟩
    · refine Or.inr ?_
      have contents : ∀ row ∈ rows, ∃ entry, active run.db row.1 = some entry ∧
          entry.content = row.2 := by
        intro row mem
        obtain ⟨entry, hactive, _, same⟩ := mem_getUnindexed (hrows ▸ mem)
        exact ⟨entry, hactive, same⟩
      rw [onBatch, if_neg unreadable, if_neg empty]
      have processed := processBatch_processed encode s run.iterations.length
        ⟨markIndexedBatch run.db (rows.map Prod.fst) (s.now run.iterations.length), [], [],
          run.embeddingsGenerated, run.embeddingsFailed⟩ rows
      generalize processBatch encode s run.iterations.length
        ⟨markIndexedBatch run.db (rows.map Prod.fst) (s.now run.iterations.length), [], [],
          run.embeddingsGenerated, run.embeddingsFailed⟩ rows = b at processed ⊢
      have succeeded : b.succeededIds =
          (page s run).filter (succeeds s run.iterations.length) := by
        rw [processed.succeeded, ids, List.nil_append]
      rw [ids] at processed
      refine ⟨_, _, _, ?_, rfl, rfl, turned_of_processed ids contents processed, ?_⟩
      · rw [← ids]
        exact fun none => empty (List.map_eq_nil_iff.mp none)
      · rw [endBatch, resets, ← succeeded, if_neg (by simp)]
        cases hmax : b.succeededIds.max? with
        | none => rw [if_pos (List.max?_eq_none_iff.mp hmax), Option.getD_none]
        | some lastId =>
          have some : b.succeededIds ≠ [] := by
            intro none
            rw [none] at hmax
            cases hmax
          rw [if_neg some, Option.getD_some]

theorem le_cursor {run next : Run E} {succeeded failed : List EntryId}
    (turned : Turned encode s run next succeeded failed) {id : EntryId} (mem : id ∈ succeeded) :
    id ≤ next.lastId := by
  rw [turned.cursor]
  cases hmax : succeeded.max? with
  | none =>
    rw [List.max?_eq_none_iff.mp hmax] at mem
    cases mem
  | some lastId => exact (List.max?_eq_some_iff.mp hmax).2 id mem

theorem cursor_mem {run next : Run E} {succeeded failed : List EntryId}
    (turned : Turned encode s run next succeeded failed) (some : succeeded ≠ []) :
    succeeded.max? = Option.some next.lastId ∧ next.lastId ∈ succeeded := by
  rw [turned.cursor]
  cases hmax : succeeded.max? with
  | none => exact absurd (List.max?_eq_none_iff.mp hmax) some
  | some lastId => exact ⟨rfl, (List.max?_eq_some_iff.mp hmax).1⟩

theorem cursor_le {run next : Run E} {failed : List EntryId}
    (turned : Turned encode s run next
      ((page s run).filter (succeeds s run.iterations.length)) failed) :
    run.lastId ≤ next.lastId := by
  by_cases some : (page s run).filter (succeeds s run.iterations.length) = []
  · rw [turned.cursor, some]
    exact le_refl _
  · obtain ⟨_, _, _, past⟩ := mem_page (List.mem_filter.mp (cursor_mem turned some).2).1
    exact past.le

/-- Past its cursor an iteration changes nothing. -/
theorem queue_next {run next : Run E} {failed : List EntryId}
    (turned : Turned encode s run next
      ((page s run).filter (succeeds s run.iterations.length)) failed) (locked : List EntryId) :
    queue next.db next.lastId locked =
      (queue run.db run.lastId locked).filter (fun id => next.lastId < id) := by
  refine (queue_sorted _ _ _).ext ((queue_sorted _ _ _).filter _) ?_
  intro id
  rw [List.mem_filter, mem_queue, mem_queue, decide_eq_true_eq]
  by_cases past : next.lastId < id
  · have same := (turned.kept id fun mem => absurd (le_cursor turned mem) (not_le.mpr past)).1
    have active_same : active next.db id = active run.db id := by
      rw [active, active, same]
    simp only [Unindexed, active_same, past, lt_of_le_of_lt (cursor_le turned) past, true_and,
      and_true]
  · simp only [past, false_and, and_false]

/-- An iteration that goes on leaves a shorter queue. -/
theorem queue_shorter {run next : Run E} {failed : List EntryId}
    (turned : Turned encode s run next
      ((page s run).filter (succeeds s run.iterations.length)) failed)
    (some : (page s run).filter (succeeds s run.iterations.length) ≠ []) :
    (queue next.db next.lastId []).length < (queue run.db run.lastId []).length := by
  rw [queue_next turned]
  refine List.length_filter_lt_length_iff_exists.mpr ⟨next.lastId, ?_, by simp⟩
  obtain ⟨entry, hactive, unindexed, past⟩ :=
    mem_page (List.mem_filter.mp (cursor_mem turned some).2).1
  exact mem_queue.mpr ⟨⟨entry, hactive, unindexed⟩, past, List.not_mem_nil⟩

theorem length_queue_le (db : Db E) (lastId : EntryId) (locked : List EntryId) :
    (queue db lastId locked).length ≤ db.entries.rows.length := by
  rw [queue, List.length_insertionSort, unindexedIds, Table.keysWhere, List.length_map]
  exact List.length_filter_le _ _

/-- What a run that started on `db` has done so far. -/
structure Accounts (encode : PyStr → E) (db : Db E) (run : Run E) : Prop where
  stored : ∀ id ∈ run.saved, id ≤ run.lastId ∧ ∃ entry, active db id = some entry ∧
    (∃ now, run.db.entries.get id = some { entry with indexedAt := some now }) ∧
    run.db.embeddings.get id = some (encode entry.content)
  kept : ∀ id, id ∉ run.saved → run.db.entries.get id = db.entries.get id ∧
    run.db.embeddings.get id = db.embeddings.get id
  claimed : ∀ id ∈ run.claimed, Unindexed db id
  savedClaimed : run.saved ⊆ run.claimed
  savedOnce : run.saved.Nodup
  generated : run.embeddingsGenerated = run.saved.length
  counted : run.claimed.length = run.saved.length + run.embeddingsFailed
  ascending : run.cursors.Pairwise (· < ·)
  last : run.cursors.getLast? = some run.lastId

theorem accounts_start (db : Db E) : Accounts encode db (Run.start db) where
  stored := fun _ mem => absurd mem List.not_mem_nil
  kept := fun _ _ => ⟨rfl, rfl⟩
  claimed := fun _ mem => absurd mem List.not_mem_nil
  savedClaimed := List.nil_subset _
  savedOnce := List.nodup_nil
  generated := rfl
  counted := rfl
  ascending := List.pairwise_singleton _ _
  last := rfl

theorem Turned.saved {run next : Run E} {succeeded failed : List EntryId}
    (turned : Turned encode s run next succeeded failed) : next.saved = run.saved ++ succeeded := by
  rw [Run.saved, turned.iterations, List.flatMap_append, List.flatMap_singleton]
  rfl

theorem Turned.claimed {run next : Run E} {succeeded failed : List EntryId}
    (turned : Turned encode s run next succeeded failed) :
    next.claimed = run.claimed ++ page s run := by
  rw [Run.claimed, turned.iterations, List.flatMap_append, List.flatMap_singleton]
  rfl

theorem Turned.cursors {run next : Run E} {succeeded failed : List EntryId}
    (turned : Turned encode s run next succeeded failed) :
    next.cursors = run.cursors ++ succeeded.max?.toList := by
  rw [Run.cursors, turned.iterations, List.filterMap_append]
  cases hmax : succeeded.max? with
  | none => simp [Run.cursors, hmax]
  | some lastId => simp [Run.cursors, hmax]

/-- A page holds rows that the run has not touched. -/
theorem Accounts.unindexed {db : Db E} {run : Run E} (accounts : Accounts encode db run)
    {id : EntryId} (mem : id ∈ page s run) : Unindexed db id := by
  obtain ⟨entry, hactive, unindexed, past⟩ := mem_page mem
  have same := (accounts.kept id fun saved =>
    absurd (accounts.stored id saved).1 (not_le.mpr past)).1
  rw [active, same] at hactive
  exact ⟨entry, hactive, unindexed⟩

theorem Turned.accounts {db : Db E} {run next : Run E}
    (turned : Turned encode s run next
      ((page s run).filter (succeeds s run.iterations.length))
      ((page s run).filter (!succeeds s run.iterations.length ·)))
    (accounts : Accounts encode db run) : Accounts encode db next := by
  have fresh : ∀ id ∈ (page s run).filter (succeeds s run.iterations.length), id ∉ run.saved := by
    intro id mem saved
    obtain ⟨_, _, _, past⟩ := mem_page (List.mem_filter.mp mem).1
    exact absurd (accounts.stored id saved).1 (not_le.mpr past)
  constructor
  case stored =>
    intro id mem
    rw [turned.saved, List.mem_append] at mem
    rcases mem with before | now
    · obtain ⟨le, entry, hactive, written, vector⟩ := accounts.stored id before
      refine ⟨le.trans (cursor_le turned), entry, hactive, ?_⟩
      obtain ⟨row, column⟩ := turned.kept id fun now => fresh id now before
      rw [row, column]
      exact ⟨written, vector⟩
    · obtain ⟨entry, hactive, _, written, vector⟩ := turned.stored id now
      refine ⟨le_cursor turned now, entry, ?_, ⟨_, written⟩, vector⟩
      rw [active, (accounts.kept id (fresh id now)).1] at hactive
      exact hactive
  case kept =>
    intro id notMem
    rw [turned.saved, List.mem_append, not_or] at notMem
    obtain ⟨row, column⟩ := turned.kept id notMem.2
    rw [row, column]
    exact accounts.kept id notMem.1
  case claimed =>
    intro id mem
    rw [turned.claimed, List.mem_append] at mem
    exact mem.elim (accounts.claimed id) accounts.unindexed
  case savedClaimed =>
    rw [turned.saved, turned.claimed]
    intro id mem
    rcases List.mem_append.mp mem with before | now
    · exact List.mem_append_left _ (accounts.savedClaimed before)
    · exact List.mem_append_right _ (List.mem_filter.mp now).1
  case savedOnce =>
    rw [turned.saved]
    refine List.nodup_append.mpr ⟨accounts.savedOnce, ?_, ?_⟩
    · exact ((page_sorted s run).imp (fun lt => ne_of_lt lt)).filter _
    · rintro id before _ now rfl
      exact fresh id now before
  case generated =>
    rw [turned.saved, turned.generated, accounts.generated, List.length_append]
  case counted =>
    have parts := List.length_eq_length_filter_add (l := page s run)
      (succeeds s run.iterations.length)
    rw [turned.saved, turned.claimed, turned.notGenerated, List.length_append, List.length_append,
      accounts.counted]
    omega
  case ascending =>
    rw [turned.cursors]
    by_cases some : (page s run).filter (succeeds s run.iterations.length) = []
    · rw [some]
      simpa using accounts.ascending
    · obtain ⟨hmax, mem⟩ := cursor_mem turned some
      rw [hmax]
      refine List.pairwise_append.mpr ⟨accounts.ascending, List.pairwise_singleton _ _, ?_⟩
      intro cursor before next hnext
      rw [List.mem_singleton.mp hnext]
      obtain ⟨_, _, _, past⟩ := mem_page (List.mem_filter.mp mem).1
      have ascending : Keyset.Sorted (fun id : EntryId => id) run.cursors := accounts.ascending
      exact lt_of_le_of_lt (ascending.le_last accounts.last before) past
  case last =>
    rw [turned.cursors]
    by_cases some : (page s run).filter (succeeds s run.iterations.length) = []
    · rw [turned.cursor, some]
      simpa using accounts.last
    · rw [(cursor_mem turned some).1, Option.toList_some, List.getLast?_concat]

/-- A run ends: with a report, or at a row that does not decrypt. -/
theorem loop_ends (resets : ∀ turn, s.resetRaises turn = false) {db : Db E} (fuel : Nat)
    (run : Run E) (accounts : Accounts encode db run)
    (enough : (queue run.db run.lastId []).length < fuel) :
    ∃ done, loop encode s fuel run = some done ∧ Accounts encode db done.run ∧
      (done.answer = .ok done.run.report ∨
        done.answer = .error .undecryptable ∧
          ∃ id, Unindexed db id ∧ s.readable id = false) := by
  induction fuel generalizing run with
  | zero => exact absurd enough (Nat.not_lt_zero _)
  | succ fuel ih =>
    rw [loop]
    rcases iterate_cases encode resets run with ⟨raises, id, mem, hidden⟩ | ⟨breaks, _⟩ |
      ⟨next, _, _, _, rfl, rfl, turned, took⟩
    · rw [raises]
      exact ⟨_, rfl, accounts, Or.inr ⟨rfl, id, accounts.unindexed mem, hidden⟩⟩
    · rw [breaks]
      exact ⟨_, rfl, accounts, Or.inl rfl⟩
    · rw [took]
      by_cases none : (page s run).filter (succeeds s run.iterations.length) = []
      · rw [if_pos none]
        exact ⟨_, rfl, turned.accounts accounts, Or.inl rfl⟩
      · rw [if_neg none]
        exact ih next (turned.accounts accounts)
          (Nat.lt_of_lt_of_le (queue_shorter turned none) (Nat.le_of_lt_succ enough))

variable (encode) in
theorem runReindex_ends (resets : ∀ turn, s.resetRaises turn = false) (db : Db E) :
    ∃ done, runReindex encode s db = some done ∧ Accounts encode db done.run ∧
      (done.answer = .ok done.run.report ∨
        done.answer = .error .undecryptable ∧
          ∃ id, Unindexed db id ∧ s.readable id = false) :=
  loop_ends resets _ _ (accounts_start db) (Nat.lt_succ_of_le (length_queue_le _ _ _))

theorem Accounts.embedded {db : Db E} {run : Run E} (accounts : Accounts encode db run)
    {id : EntryId} (saved : id ∈ run.saved) : Embedded encode run.db id := by
  obtain ⟨_, entry, hactive, ⟨now, written⟩, vector⟩ := accounts.stored id saved
  obtain ⟨_, live⟩ := active_eq_some.mp hactive
  exact ⟨_, active_eq_some.mpr ⟨written, live⟩, Option.some_ne_none now, vector⟩

theorem Accounts.waiting {db : Db E} {run : Run E} (accounts : Accounts encode db run)
    {id : EntryId} (unindexed : Unindexed db id) (notSaved : id ∉ run.saved) :
    Unindexed run.db id := by
  obtain ⟨entry, hactive, hindexed⟩ := unindexed
  refine ⟨entry, ?_, hindexed⟩
  rw [active, (accounts.kept id notSaved).1]
  exact hactive

theorem not_embedded_of_unindexed {db : Db E} {id : EntryId} (unindexed : Unindexed db id) :
    ¬ Embedded encode db id := by
  rintro ⟨entry, hactive, stamped, _⟩
  obtain ⟨other, hother, hindexed⟩ := unindexed
  obtain rfl : entry = other := Option.some.inj (hactive.symm.trans hother)
  exact stamped hindexed

/-- Nothing failed exactly when each id that was claimed is embedded, and was claimed once. -/
theorem Accounts.notGenerated_eq_zero {db : Db E} {run : Run E}
    (accounts : Accounts encode db run) :
    run.embeddingsFailed = 0 ↔
      (∀ id ∈ run.claimed, Embedded encode run.db id) ∧ run.claimed.Nodup := by
  have counted := accounts.counted
  constructor
  · intro zero
    have perm : run.saved.Perm run.claimed :=
      (List.subperm_of_subset accounts.savedOnce accounts.savedClaimed).perm_of_length_le (by omega)
    exact ⟨fun id mem => accounts.embedded (perm.mem_iff.mpr mem),
      perm.nodup_iff.mp accounts.savedOnce⟩
  · rintro ⟨embedded, once⟩
    have within : run.claimed ⊆ run.saved := by
      intro id mem
      by_contra notSaved
      exact not_embedded_of_unindexed (accounts.waiting (accounts.claimed id mem) notSaved)
        (embedded id mem)
    have le := (List.subperm_of_subset once within).length_le
    omega

/-- A run ends, and its report accounts for what it has claimed. -/
theorem reindex_accounts (encode : PyStr → E) (s : Surroundings) (db : Db E)
    (resets : ∀ turn, s.resetRaises turn = false) :
    ∃ done, runReindex encode s db = some done ∧
      done.run.cursors.Pairwise (· < ·) ∧ done.run.cursors.getLast? = some done.run.lastId ∧
      done.run.saved.Nodup ∧
      (∀ id ∈ done.run.claimed, Embedded encode done.run.db id ∨ Unindexed done.run.db id) ∧
      ((∀ id, s.readable id = true) → done.answer = .ok done.run.report) ∧
      ∀ report, done.answer = .ok report →
        report.embeddingsGenerated = done.run.saved.dedup.length ∧
        (report.embeddingsFailed = 0 ↔
          (∀ id ∈ done.run.claimed, Embedded encode done.run.db id) ∧ done.run.claimed.Nodup) := by
  obtain ⟨done, ran, accounts, answered⟩ := runReindex_ends encode resets db
  refine ⟨done, ran, accounts.ascending, accounts.last, accounts.savedOnce, ?_, ?_, ?_⟩
  · intro id mem
    by_cases saved : id ∈ done.run.saved
    · exact Or.inl (accounts.embedded saved)
    · exact Or.inr (accounts.waiting (accounts.claimed id mem) saved)
  · intro readable
    refine answered.resolve_right ?_
    rintro ⟨_, id, _, hidden⟩
    rw [readable] at hidden
    cases hidden
  · intro report returned
    rcases answered with ok | ⟨raised, _⟩
    · cases ok.symm.trans returned
      refine ⟨?_, accounts.notGenerated_eq_zero⟩
      rw [List.dedup_eq_self.mpr accounts.savedOnce]
      exact accounts.generated
    · cases raised.symm.trans returned

end Iterations

/-- The second entry fails once. -/
def failsOnce : Surroundings where
  locked := fun _ => []
  now := fun turn => 10 + turn
  readable := fun _ => true
  attempt := fun turn id => if turn = 0 ∧ id = 2 then .encodeRaises else .saved
  resetRaises := fun _ => false

def twoEntries : Db PyStr :=
  append (append emptyDb 1 (py "first") none [] (py "2026-05-10")) 2 (py "second") none []
    (py "2026-05-11")

theorem reindex_accounts_retry : ∃ done,
    runReindex (fun text => text) failsOnce twoEntries = some done ∧
    done.answer = .ok done.run.report ∧ done.run.saved.Nodup := by
  obtain ⟨done, ran, _, _, once, _, returned, _⟩ :=
    reindex_accounts (fun text => text) failsOnce twoEntries (fun _ => rfl)
  exact ⟨done, ran, returned (fun _ => rfl), once⟩

example : (runReindex (fun text => text) failsOnce twoEntries).map
    (fun done => (done.run.claimed, done.run.saved, done.run.report.embeddingsFailed)) =
    some ([1, 2, 2], [1, 2], 1) := by decide +kernel

-- What `_run_reindex` does in one call, the writers of the table do step by step.

section Steps
variable {E : Type u} {encode : PyStr → E} {s : Surroundings} {p : WriterId}

/-- Some steps lead to a world with these rows, in which the run stands there. -/
def Leads (encode : PyStr → E) (p : WriterId) (w : World E) (db : Db E)
    (writer : Option Writer) : Prop :=
  ∃ acts t, Replay.run (step encode) w acts = some t ∧ t.db = db ∧ t.writers.get p = writer

theorem Leads.step {w m : World E} {db : Db E} {writer : Option Writer} {action : Action}
    (taken : Taken encode w action m) (rest : Leads encode p m db writer) :
    Leads encode p w db writer := by
  obtain ⟨acts, t, ran, rows, stands⟩ := rest
  exact ⟨action :: acts, t, Replay.run_cons.mpr ⟨m, step_of_taken taken, ran⟩, rows, stands⟩

theorem Leads.here {w : World E} {db : Db E} {writer : Option Writer} (rows : w.db = db)
    (stands : w.writers.get p = writer) : Leads encode p w db writer :=
  ⟨[], w, rfl, rows, stands⟩

theorem Leads.trans {w : World E} {db db' : Db E} {writer writer' : Option Writer}
    (first : Leads encode p w db writer)
    (later : ∀ m : World E, m.db = db → m.writers.get p = writer → Leads encode p m db' writer') :
    Leads encode p w db' writer' := by
  obtain ⟨acts, m, ran, rows, stands⟩ := first
  obtain ⟨more, t, ranMore, rows', stands'⟩ := later m rows stands
  exact ⟨acts ++ more, t, Replay.run_append.mpr ⟨m, ran, ranMore⟩, rows', stands'⟩

/-- The run gives up where it stands. -/
theorem Leads.abandoned {w : World E} {db : Db E} {writer : Writer} (rows : w.db = db)
    (stands : w.writers.get p = some writer) : Leads encode p w db none :=
  Leads.step (.abandon p writer stands) (Leads.here rows (Table.get_erase_self _ _))

/-- The rows of a batch, each a save or a failure. -/
theorem leads_processBatch (s : Surroundings) (turn : Nat) {lastId : EntryId}
    {rows : List (EntryId × PyStr)} {b : Batch E} {w : World E} (same : w.db = b.db)
    (stands : w.writers.get p = some (.indexing lastId rows b.succeededIds b.failedIds)) :
    Leads encode p w (processBatch encode s turn b rows).db
      (some (.indexing lastId [] (processBatch encode s turn b rows).succeededIds
        (processBatch encode s turn b rows).failedIds)) := by
  induction rows generalizing b w with
  | nil => exact Leads.here same stands
  | cons row others ih =>
    cases ok : succeeds s turn row.1 with
    | true =>
      refine Leads.step (.saveIndexed p lastId row others b.succeededIds b.failedIds stands)
        (ih (b := processRow encode s turn b row) ?_ ?_)
      · rw [processRow_saved ok, same]
        rfl
      · rw [processRow_saved ok]
        exact Table.get_put_self _ _ _
    | false =>
      refine Leads.step
        (.saveIndexedFails p lastId row others b.succeededIds b.failedIds stands)
        (ih (b := processRow encode s turn b row) ?_ ?_)
      · rw [processRow_failed ok]
        exact same
      · rw [processRow_failed ok]
        exact Table.get_put_self _ _ _

def Next.run : Next E → Run E
  | .continues run | .breaks run | .raises run _ => run

/-- Where the run stands after an iteration. -/
def Next.writer : Next E → Option Writer
  | .continues run => some (.scanning run.lastId)
  | .breaks _ | .raises _ _ => none

theorem leads_endBatch {run : Run E} {rows : List (EntryId × PyStr)} {b : Batch E} {w : World E}
    (same : w.db = b.db)
    (stands : w.writers.get p = some (.indexing run.lastId [] b.succeededIds b.failedIds)) :
    Leads encode p w (endBatch s run rows b).run.db (endBatch s run rows b).writer := by
  unfold endBatch
  split
  · exact Leads.abandoned same stands
  · cases hmax : b.succeededIds.max? with
    | some lastId =>
      refine Leads.step
        (.endBatch p run.lastId lastId b.succeededIds b.failedIds stands hmax)
        (Leads.here ?_ (Table.get_put_self _ _ _))
      rw [← same]
      rfl
    | none =>
      refine Leads.step (.endScan p run.lastId b.succeededIds b.failedIds stands hmax)
        (Leads.here ?_ (Table.get_erase_self _ _))
      rw [← same]
      rfl

theorem leads_iterate {run : Run E} {w : World E} (same : w.db = run.db)
    (stands : w.writers.get p = some (.scanning run.lastId)) :
    Leads encode p w (iterate encode s run).run.db (iterate encode s run).writer := by
  rw [iterate]
  cases hrows : getUnindexed run.db run.lastId reindexBatchSize
      (s.locked run.iterations.length) with
  | nil =>
    exact Leads.step
      (.claimNothing p _ (s.now run.iterations.length) run.lastId stands (same ▸ hrows))
      (Leads.here same (Table.get_erase_self _ _))
  | cons row batch =>
    rw [onBatch]
    split
    · exact Leads.abandoned same stands
    · rw [if_neg (List.cons_ne_nil row batch)]
      rw [← same] at hrows ⊢
      refine Leads.step
        (.claim p _ (s.now run.iterations.length) run.lastId row batch stands hrows)
        (Leads.trans (leads_processBatch s run.iterations.length
          (b := ⟨markIndexedBatch w.db ((row :: batch).map Prod.fst)
            (s.now run.iterations.length), [], [], run.embeddingsGenerated,
            run.embeddingsFailed⟩) rfl (Table.get_put_self _ _ _)) ?_)
      intro m rows here
      exact leads_endBatch rows here

theorem leads_loop {fuel : Nat} {run : Run E} {done : Done E} {w : World E}
    (ran : loop encode s fuel run = some done) (same : w.db = run.db)
    (stands : w.writers.get p = some (.scanning run.lastId)) :
    Leads encode p w done.run.db none := by
  induction fuel generalizing run w with
  | zero => cases ran
  | succ fuel ih =>
    rw [loop] at ran
    have passed : Leads encode p w (iterate encode s run).run.db (iterate encode s run).writer :=
      leads_iterate same stands
    cases next : iterate encode s run with
    | continues after =>
      rw [next] at ran passed
      exact Leads.trans passed fun m rows here => ih ran rows here
    | breaks after =>
      rw [next] at ran passed
      cases ran
      exact passed
    | raises after error =>
      rw [next] at ran passed
      cases ran
      exact passed

/-- The steps of one writer lead to where a run ends. -/
theorem leads_runReindex {db : Db E} {done : Done E} {w : World E}
    (ran : runReindex encode s db = some done) (same : w.db = db) (free : w.writers.get p = none) :
    Leads encode p w done.run.db none :=
  Leads.step (.startReindex p free) (leads_loop ran same (Table.get_put_self _ _ _))

end Steps

end ReindexRuns
