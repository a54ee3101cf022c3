import Gubbi.Journal.SearchFailures

/-!
# What the batches of a search answer

Whichever of its statements fail, a search that returns has filled its hits from two
batches, and each of them holds what is stored or nothing at all.
-/

namespace SearchBatches

open Connections JournalSearch SearchFailures
open Transactions (Session)
open JournalTables (EntryId ConversationId)

variable {V E G : Type}

/-- The vector search answers, or none is sent. -/
def vectorAnswered (faults : Faults) (embedding : Option E) : Bool :=
  embedding.isNone || faults.vector.isNone

/-- The embedding whose hits arrive. -/
def heard (faults : Faults) (embedding : Option E) : Option E :=
  if faults.vector.isNone then embedding else none

def entriesAnswered (faults : Faults) (embedding : Option E) : Bool :=
  vectorAnswered faults embedding && faults.texts.isNone

/-- A batch of entries that fails leaves a transaction that refuses the conversations. -/
def conversationsAnswered (faults : Faults) (embedding : Option E)
    (merged : List SearchResult) : Bool :=
  vectorAnswered faults embedding && (entryIds merged = [] || faults.texts.isNone) &&
    faults.titles.isNone

/-- What the batches hold of the hits. -/
structure Answers (host : Host V E) (db : Store V E) (faults : Faults) (embedding : Option E)
    (merged : List SearchResult) (batches : Batches) : Prop where
  entries : ∀ id ∈ entryIds merged, batches.entries.bind (fun texts => texts id) =
    if entriesAnswered faults embedding then entryText host db id else none
  conversations : ∀ id ∈ conversationIds merged,
    batches.conversations.bind (fun texts => texts id) =
      if conversationsAnswered faults embedding merged then titleSummary host db id else none

/-- How far a transaction is usable. -/
def statusOf (usable : Bool) : Status := if usable then .inTransaction else .inError

section Statements
variable {A B : Type} {host : Host V E} {plans : Plans} {faults : Faults} {args : Args}
  {bounds : Bounds} {embedding : Option E} {c c' : Conn (Store V E) G}
  {merged : List SearchResult}

/-- A rescued statement has its answer, or what was to be gone on with. -/
theorem rescued_select {fault : Option SearchError} {f : Store V E → A} {otherwise a : A}
    (opened : c.status = .inTransaction)
    (ran : (onPostgresError otherwise (select fault f) : Search V E G A) c = (.ok a, c')) :
    a = (if fault.isNone then f c.store else otherwise) ∧ c'.store = c.store ∧
      c'.status = statusOf fault.isNone := by
  cases fault with
  | none =>
    rw [onPostgresError_ok (select_ok opened)] at ran
    cases ran
    exact ⟨rfl, rfl, opened⟩
  | some e =>
    cases caught : e.isPostgresError with
    | true =>
      rw [onPostgresError_caught (select_error opened) caught] at ran
      cases ran
      exact ⟨rfl, rfl, rfl⟩
    | false =>
      rw [onPostgresError, rescue_error (select_error opened), caught] at ran
      cases ran

theorem rescued_batch {fault : Option SearchError} {ids : List Nat}
    {read : Store V E → Nat → Option B} {batch : Option (Nat → Option B)} {usable : Bool}
    (running : c.status = statusOf usable)
    (ran : (onPostgresError none (some <$> fetchBatch fault ids read) : Search V E G _) c =
      (.ok batch, c')) :
    c'.store = c.store ∧ c'.status = statusOf (usable && (ids = [] || fault.isNone)) ∧
      ∀ id ∈ ids, batch.bind (fun texts => texts id) =
        if usable && fault.isNone then read c.store id else none := by
  cases usable with
  | false =>
    obtain ⟨silent, refused, nothing⟩ : ∃ silent, (onPostgresError none
        (some <$> fetchBatch fault ids read) : Search V E G _) c = (.ok silent, c) ∧
        ∀ id, silent.bind (fun texts => texts id) = none := fetchBatch_failed running ids
    rw [refused] at ran
    cases ran
    exact ⟨rfl, running, fun id _ => nothing id⟩
  | true =>
    by_cases sound : ids = [] ∨ fault = none
    · rw [onPostgresError_ok (map_some_ok (fetchBatch_ok running sound))] at ran
      cases ran
      refine ⟨rfl, ?_, fun id listed => ?_⟩
      · rcases sound with empty | answered
        · simpa [empty] using running
        · simpa [answered] using running
      · have answered : fault = none := sound.resolve_left (List.ne_nil_of_mem listed)
        simp [listed, answered]
    · obtain ⟨listed, faulty⟩ := not_or.mp sound
      obtain ⟨e, rfl⟩ := Option.ne_none_iff_exists'.mp faulty
      cases caught : e.isPostgresError with
      | true =>
        rw [fetchBatch_error running caught listed] at ran
        cases ran
        refine ⟨rfl, ?_, fun id _ => rfl⟩
        simp [statusOf, listed]
      | false =>
        rw [onPostgresError, fetchBatch, if_neg listed,
          rescue_error (map_some_error (select_error running)), caught] at ran
        cases ran

theorem runDualSearch_answers (opened : c.status = .inTransaction)
    (ran : (runDualSearch host plans faults embedding args bounds : Search V E G _) c =
      (.ok merged, c')) :
    merged = mergedHits host plans c.store (heard faults embedding) args bounds ∧
      c'.store = c.store ∧ c'.status = statusOf (vectorAnswered faults embedding) := by
  obtain ⟨fts, between, first, rest⟩ := Transactions.bind_ok.mp ran
  obtain ⟨semantic, after, second, returned⟩ := Transactions.bind_ok.mp rest
  obtain ⟨rfl, rfl⟩ := Transactions.pure_ok.mp returned
  have ftsFine : faults.fts = none := by
    cases fault : faults.fts with
    | none => rfl
    | some e =>
      rw [fault, select_error opened] at first
      cases first
  rw [ftsFine, select_ok opened] at first
  cases first
  cases embedding with
  | none =>
    obtain ⟨rfl, rfl⟩ := Transactions.pure_ok.mp second
    have unheard : heard faults (none : Option E) = none := ite_self none
    refine ⟨?_, rfl, opened⟩
    rw [unheard]
    rfl
  | some query =>
    obtain ⟨rfl, store, status⟩ := rescued_select opened second
    refine ⟨?_, store, status⟩
    cases fault : faults.vector with
    | none => simp [mergedHits, heard, fault]
    | some e => simp [mergedHits, heard, fault]

theorem fetchBatches_answers {batches : Batches}
    (running : c.status = statusOf (vectorAnswered faults embedding))
    (ran : (fetchBatches host faults merged : Search V E G Batches) c = (.ok batches, c')) :
    Answers host c.store faults embedding merged batches := by
  obtain ⟨entries, between, first, rest⟩ := Transactions.bind_ok.mp ran
  obtain ⟨conversations, after, second, returned⟩ := Transactions.bind_ok.mp rest
  obtain ⟨rfl, rfl⟩ := Transactions.pure_ok.mp returned
  obtain ⟨same, status, texts⟩ := rescued_batch running first
  obtain ⟨_, _, titles⟩ := rescued_batch status second
  refine ⟨texts, fun id listed => ?_⟩
  rw [titles id listed, same]
  rfl

end Statements

/-- Whatever fails, the hits of a search that returns are filled from batches with what is
stored or without anything. -/
theorem run_answers {host : Host V E} {plans : Plans} {faults : Faults} {args : Args}
    {embedding : Option E} {c : Conn (Store V E) G} {payload : Payload}
    (opened : c.status = .inTransaction)
    (ran : ((runJournalSearch host plans faults embedding args : Search V E G _) c).1 =
      .ok payload) :
    ∃ bounds batches, parseBounds host args = .ok bounds ∧
      payload = payloadOf args
        (mergedHits host plans c.store (heard faults embedding) args bounds) batches ∧
      Answers host c.store faults embedding
        (mergedHits host plans c.store (heard faults embedding) args bounds) batches := by
  have whole : (runJournalSearch host plans faults embedding args : Search V E G _) c =
      (.ok payload, ((runJournalSearch host plans faults embedding args :
        Search V E G _) c).2) := Prod.ext ran rfl
  unfold runJournalSearch at whole
  cases valid : parseBounds host args with
  | error e =>
    rw [valid] at whole
    cases whole
  | ok bounds =>
    rw [valid] at whole
    obtain ⟨merged, between, first, rest⟩ := Transactions.bind_ok.mp whole
    obtain ⟨batches, after, second, returned⟩ := Transactions.bind_ok.mp rest
    obtain ⟨rfl, _⟩ := Transactions.pure_ok.mp returned
    obtain ⟨rfl, store, status⟩ := runDualSearch_answers opened first
    refine ⟨bounds, batches, rfl, rfl, ?_⟩
    have answers := fetchBatches_answers status second
    rwa [store] at answers

end SearchBatches
