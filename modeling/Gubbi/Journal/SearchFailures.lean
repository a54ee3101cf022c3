import Gubbi.Journal.EntryUpdate
import Gubbi.Journal.Listing
import Gubbi.Journal.Search
import Gubbi.Library.Connections
import Mathlib.Order.Compare

/-!
# Failing backends of the search

`run_journal_search` sends up to four statements over one connection, inside the
transaction of its caller. Each of the handlers for an error of PostgreSQL goes on with
less, but the server refuses every statement after a failed one, so what a handler
confines is not confined to its own statement.
-/

namespace SearchFailures

open Text JournalRows JournalSearch Ranking Queries Connections Cipher
open Transactions (Session fail)
open JournalTables (EntryId ConversationId TopicId Date TopicRow)

structure ConversationRow (V : Type) extends JournalTables.ConversationRow where
  searchVector : V

/-- The rows that the user sees. -/
structure Store (V E : Type) where
  topics : Table TopicId TopicRow
  entries : Table EntryId (EntryUpdate.Row V)
  conversations : Table ConversationId (ConversationRow V)
  embeddings : Table EntryId E

/-- The process, and what PostgreSQL and pgvector compute. -/
structure Host (V E : Type) extends JournalRows.Runtime where
  cipher : ContentCipher
  /-- `search_vector @@ websearch_to_tsquery('english', query)`. -/
  selects : V → PyStr → Bool
  tsRank : V → PyStr → ℚ
  /-- `1 - (a <=> b)`. -/
  similarity : E → E → ℚ

def SEMANTIC_MIN_SIMILARITY : ℚ := 35 / 100

/-- Checked by the caller. -/
structure Args where
  query : PyStr
  topicPrefix : Option PyStr
  dateFrom : Option PyStr
  dateTo : Option PyStr
  limit : Nat

/-- The params for the filters. -/
structure Bounds where
  pattern : Option PyStr
  dateFrom : Option Date
  dateTo : Option Date

inductive SearchError
  | postgresError (message : PyStr)
  | inFailedSqlTransaction
  | valueError (message : PyStr)
  | other
  deriving DecidableEq

def SearchError.isPostgresError : SearchError → Bool
  | .postgresError _ => true
  | .inFailedSqlTransaction => true
  | _ => false

/-- What the server raises for each of the statements by itself. -/
structure Faults where
  fts : Option SearchError
  vector : Option SearchError
  texts : Option SearchError
  titles : Option SearchError

def Faults.none : Faults := ⟨.none, .none, .none, .none⟩

section Model
variable {V E G : Type} (host : Host V E)

def Bounds.admit (bounds : Bounds) (topic : TopicRow) (day : Date) : Bool :=
  Listing.pathMatches bounds.pattern topic.path && bounds.dateFrom.all (fun d => d.le day) &&
    bounds.dateTo.all (fun d => day.le d)

def ftsEntries (db : Store V E) (query : PyStr) (bounds : Bounds) : List FtsRow :=
  db.entries.rows.filterMap (fun row => (db.topics.get row.2.topicId).bind (fun topic =>
    if row.2.deletedAt = none && host.selects row.2.searchVector query &&
        bounds.admit topic row.2.date then
      some ⟨.entry row.1, topic.path, host.tsRank row.2.searchVector query, row.2.date.text⟩
    else none))

def ftsConversations (db : Store V E) (query : PyStr) (bounds : Bounds) : List FtsRow :=
  db.conversations.rows.filterMap (fun row => (db.topics.get row.2.topicId).bind (fun topic =>
    let day := host.sessionDate row.2.createdAt
    if host.selects row.2.searchVector query && bounds.admit topic day then
      some ⟨.conversation row.1, topic.path, host.tsRank row.2.searchVector query, day.text⟩
    else none))

def floats : Comparison ℚ := ⟨compare, inferInstance⟩

def ftsOrder : Comparison FtsRow := floats.desc FtsRow.rank

def vectorRows (db : Store V E) (embedding : E) (bounds : Bounds) : List VectorRow :=
  db.embeddings.rows.filterMap (fun stored => (db.entries.get stored.1).bind (fun row =>
    (db.topics.get row.topicId).bind (fun topic =>
      let similarity := host.similarity stored.2 embedding
      if row.deletedAt = none && decide (SEMANTIC_MIN_SIMILARITY ≤ similarity) &&
          bounds.admit topic row.date then
        some ⟨some stored.1, topic.path, similarity, row.date.text⟩
      else none)))

def vectorOrder : Comparison VectorRow := floats.desc VectorRow.similarity

/-- How the planner orders the rows that tie. -/
structure Plans where
  fts : Sorter ftsOrder
  vector : Sorter vectorOrder

variable (plans : Plans)

def ftsHits (db : Store V E) (args : Args) (bounds : Bounds) : List SearchResult :=
  (page (some args.limit) 0 (plans.fts.sort (ftsEntries host db args.query bounds ++
    ftsConversations host db args.query bounds))).map ftsResult

def vectorHits (db : Store V E) (embedding : E) (args : Args) (bounds : Bounds) :
    List SearchResult :=
  (page (some args.limit) 0 (plans.vector.sort (vectorRows host db embedding bounds))).filterMap
    semanticResult

/-- The texts of an active entry, or the sentinel of the repository. -/
def entryText (db : Store V E) (id : EntryId) : Option (PyStr × Option PyStr) :=
  ((db.entries.get id).filter (fun row => row.deletedAt = none)).map (fun row =>
    match entryTexts host.toRuntime host.cipher row.toEntryRow with
    | .ok texts => texts
    | .error _ => (REPO_DECRYPTION_FAILED_SENTINEL, none))

/-- A conversation that does not decrypt is left out. -/
def titleSummary (db : Store V E) (id : ConversationId) : Option (PyStr × PyStr) :=
  (db.conversations.get id).bind (fun row =>
    match decryptSealed host.toRuntime host.cipher row.title,
      decryptSealed host.toRuntime host.cipher row.summary with
    | .ok title, .ok summary => some (title, summary)
    | _, _ => none)

def entryIds (merged : List SearchResult) : List EntryId :=
  (merged.filterMap (fun hit => if hit.docType = .entry then hit.entryId else none)).dedup

def conversationIds (merged : List SearchResult) : List ConversationId :=
  (merged.filterMap (fun hit =>
    if hit.docType = .conversation then hit.conversationId else none)).dedup

/-- The search of a caller on its connection. -/
abbrev Search (V E G A : Type) := Session (Conn (Store V E) G) SearchError A

/-- A statement that reads. -/
def select {A : Type} (fault : Option SearchError) (f : Store V E → A) : Search V E G A :=
  execute .inFailedSqlTransaction (fun _ db =>
    match fault with
    | some e => .error e
    | none => .ok (f db, db))

/-- `except asyncpg.PostgresError`, with what is gone on with. -/
def onPostgresError {A : Type} (otherwise : A) (x : Search V E G A) : Search V E G A :=
  rescue x (fun e => if e.isPostgresError then pure otherwise else fail e)

def semanticSearch (faults : Faults) (args : Args) (bounds : Bounds) :
    Option E → Search V E G (List SearchResult)
  | none => pure []
  | some embedding => onPostgresError []
    (select faults.vector (fun db => vectorHits host plans db embedding args bounds))

def runDualSearch (faults : Faults) (embedding : Option E) (args : Args) (bounds : Bounds) :
    Search V E G (List SearchResult) := do
  let fts ← select faults.fts (fun db => ftsHits host plans db args bounds)
  let semantic ← semanticSearch host plans faults args bounds embedding
  return mergeResults fts semantic

/-- `SELECT ... WHERE id = ANY($1)`; without ids there is no statement. -/
def fetchBatch {B : Type} (fault : Option SearchError) (ids : List Nat)
    (read : Store V E → Nat → Option B) : Search V E G (Nat → Option B) :=
  if ids = [] then pure (fun _ => none)
  else select fault (fun db id => if id ∈ ids then read db id else none)

def getTexts (faults : Faults) (ids : List EntryId) :
    Search V E G (EntryId → Option (PyStr × Option PyStr)) :=
  fetchBatch faults.texts ids (entryText host)

def getTitlesSummaries (faults : Faults) (ids : List ConversationId) :
    Search V E G (ConversationId → Option (PyStr × PyStr)) :=
  fetchBatch faults.titles ids (titleSummary host)

/-- The two batches of `_hydrate_results`. -/
def fetchBatches (faults : Faults) (merged : List SearchResult) : Search V E G Batches := do
  let entries ← onPostgresError none (some <$> getTexts host faults (entryIds merged))
  let conversations ← onPostgresError none
    (some <$> getTitlesSummaries host faults (conversationIds merged))
  return ⟨entries, conversations⟩

def boundError : ListingError → SearchError
  | .valueError message => .valueError message
  | _ => .other

def parseBounds (args : Args) : Except SearchError Bounds := do
  let dateFrom ← (Listing.parseBound host.toRuntime args.dateFrom).mapError boundError
  let dateTo ← (Listing.parseBound host.toRuntime args.dateTo).mapError boundError
  let pattern := (Listing.given args.topicPrefix).map (fun s => Listing.escapeLike s ++ py "%")
  return ⟨pattern, dateFrom, dateTo⟩

def runJournalSearch (faults : Faults) (embedding : Option E) (args : Args) :
    Search V E G Payload :=
  match parseBounds host args with
  | .error e => fail e
  | .ok bounds => do
    let merged ← runDualSearch host plans faults embedding args bounds
    let batches ← fetchBatches host faults merged
    return buildPayload (hydrateResults batches merged) args.query args.limit

end Model

section Statements
variable {V E G A : Type} {host : Host V E} {faults : Faults} {merged : List SearchResult}
  {c c' : Conn (Store V E) G} {e : SearchError} {f : Store V E → A}

theorem select_ok (opened : c.status = .inTransaction) :
    (select none f : Search V E G A) c = (.ok (f c.store), c) :=
  execute_ok (by simp [opened]) rfl

theorem select_error (opened : c.status = .inTransaction) :
    (select (some e) f : Search V E G A) c = (.error e, { c with status := .inError }) := by
  have running : c.status ≠ .inError := by simp [opened]
  unfold select
  rw [execute_error running rfl, opened]
  rfl

theorem select_refused {fault : Option SearchError} (failed : c.status = .inError) :
    (select fault f : Search V E G A) c = (.error .inFailedSqlTransaction, c) :=
  execute_refused failed

theorem onPostgresError_ok {otherwise a : A} {x : Search V E G A} (ran : x c = (.ok a, c')) :
    onPostgresError otherwise x c = (.ok a, c') :=
  rescue_of_ok ran

theorem onPostgresError_caught {otherwise : A} {x : Search V E G A} (ran : x c = (.error e, c'))
    (caught : e.isPostgresError = true) : onPostgresError otherwise x c = (.ok otherwise, c') := by
  rw [onPostgresError, rescue_error ran, if_pos caught]
  rfl

theorem map_some_ok {a : A} {x : Search V E G A} (ran : x c = (.ok a, c')) :
    (some <$> x) c = (.ok (some a), c') :=
  bind_of_ok ran

theorem map_some_error {x : Search V E G A} (ran : x c = (.error e, c')) :
    (some <$> x) c = (.error e, c') :=
  bind_error ran

/-- What both statements return without a fault. -/
def storedBatches (host : Host V E) (db : Store V E) (merged : List SearchResult) : Batches where
  entries := some (fun id => if id ∈ entryIds merged then entryText host db id else none)
  conversations := some (fun id =>
    if id ∈ conversationIds merged then titleSummary host db id else none)

/-- No hit finds its texts. -/
def Silent (batches : Batches) : Prop :=
  (∀ id, batches.entries.bind (fun texts => texts id) = none) ∧
    ∀ id, batches.conversations.bind (fun texts => texts id) = none

section Batch
variable {B : Type} {fault : Option SearchError} {read : Store V E → Nat → Option B}

/-- Without ids a fault makes no difference. -/
theorem fetchBatch_ok (opened : c.status = .inTransaction) {ids : List Nat}
    (sound : ids = [] ∨ fault = none) : (fetchBatch fault ids read : Search V E G _) c =
      (.ok (fun id => if id ∈ ids then read c.store id else none), c) := by
  unfold fetchBatch
  by_cases empty : ids = []
  · subst empty
    simp only [if_true, List.not_mem_nil, if_false]
    rfl
  · rw [if_neg empty, sound.resolve_left empty, select_ok opened]

/-- In a failed transaction a batch finds nothing: it has no ids, or it is refused. -/
theorem fetchBatch_failed (failed : c.status = .inError) (ids : List Nat) :
    ∃ batch, (onPostgresError none (some <$> fetchBatch fault ids read) : Search V E G _) c =
        (.ok batch, c) ∧ ∀ id, batch.bind (fun texts => texts id) = none := by
  unfold fetchBatch
  by_cases empty : ids = []
  · rw [if_pos empty]
    exact ⟨some (fun _ => none), rfl, fun _ => rfl⟩
  · rw [if_neg empty]
    exact ⟨none, onPostgresError_caught (map_some_error (select_refused failed)) rfl, fun _ => rfl⟩

theorem fetchBatch_error (opened : c.status = .inTransaction) (caught : e.isPostgresError = true)
    {ids : List Nat} (listed : ids ≠ []) :
    (onPostgresError none (some <$> fetchBatch (some e) ids read) : Search V E G _) c =
      (.ok none, { c with status := .inError }) := by
  rw [fetchBatch, if_neg listed]
  exact onPostgresError_caught (map_some_error (select_error opened)) caught

end Batch

theorem fetchBatches_ok (opened : c.status = .inTransaction)
    (texts : entryIds merged = [] ∨ faults.texts = none) (titles : faults.titles = none) :
    (fetchBatches host faults merged : Search V E G Batches) c =
      (.ok (storedBatches host c.store merged), c) := by
  unfold fetchBatches getTexts getTitlesSummaries
  rw [bind_of_ok (onPostgresError_ok (map_some_ok (fetchBatch_ok opened texts))),
    bind_of_ok (onPostgresError_ok (map_some_ok (fetchBatch_ok opened (Or.inr titles))))]
  rfl

theorem fetchBatches_failed (failed : c.status = .inError) :
    ∃ batches, (fetchBatches host faults merged : Search V E G Batches) c = (.ok batches, c) ∧
      Silent batches := by
  obtain ⟨entries, ran, silent⟩ := fetchBatch_failed failed (entryIds merged)
  obtain ⟨conversations, ran', silent'⟩ := fetchBatch_failed failed (conversationIds merged)
  refine ⟨⟨entries, conversations⟩, ?_, silent, silent'⟩
  unfold fetchBatches getTexts getTitlesSummaries
  rw [bind_of_ok ran, bind_of_ok ran']
  rfl

/-- A fault of the entries takes the conversations with it. -/
theorem fetchBatches_fault (opened : c.status = .inTransaction) (fault : faults.texts = some e)
    (caught : e.isPostgresError = true) (listed : entryIds merged ≠ []) :
    ∃ batches, (fetchBatches host faults merged : Search V E G Batches) c =
      (.ok batches, { c with status := .inError }) ∧ Silent batches := by
  obtain ⟨conversations, ran, silent⟩ := fetchBatch_failed
    (rfl : ({ c with status := .inError } : Conn (Store V E) G).status = .inError)
    (conversationIds merged)
  refine ⟨⟨none, conversations⟩, ?_, fun _ => rfl, silent⟩
  unfold fetchBatches getTexts getTitlesSummaries
  rw [fault, bind_of_ok (fetchBatch_error opened caught listed), bind_of_ok ran]
  rfl

end Statements

section Runs
variable {V E G : Type} {host : Host V E} {plans : Plans} {faults : Faults} {args : Args}
  {bounds : Bounds} {embedding : Option E} {c : Conn (Store V E) G} {e : SearchError}

/-- The merged hits of a search without faults. -/
def mergedHits (host : Host V E) (plans : Plans) (db : Store V E) (embedding : Option E)
    (args : Args) (bounds : Bounds) : List SearchResult :=
  mergeResults (ftsHits host plans db args bounds)
    ((embedding.map (fun v => vectorHits host plans db v args bounds)).getD [])

/-- The hits within the limit. -/
def keptHits (host : Host V E) (plans : Plans) (db : Store V E) (embedding : Option E)
    (args : Args) (bounds : Bounds) : List SearchResult :=
  best SearchResult.rank args.limit (mergedHits host plans db embedding args bounds)

theorem runDualSearch_ok (opened : c.status = .inTransaction) (fts : faults.fts = none)
    (vector : embedding = none ∨ faults.vector = none) :
    (runDualSearch host plans faults embedding args bounds : Search V E G _) c =
      (.ok (mergedHits host plans c.store embedding args bounds), c) := by
  unfold runDualSearch
  rw [fts, bind_of_ok (select_ok opened)]
  cases embedding with
  | none => rfl
  | some embedding =>
    rw [semanticSearch, vector.resolve_left (Option.some_ne_none _),
      bind_of_ok (onPostgresError_ok (select_ok opened))]
    rfl

theorem runDualSearch_vectorFault (opened : c.status = .inTransaction) (fts : faults.fts = none)
    (vector : faults.vector = some e) (caught : e.isPostgresError = true) (query : E) :
    (runDualSearch host plans faults (some query) args bounds : Search V E G _) c =
      (.ok (mergedHits host plans c.store none args bounds), { c with status := .inError }) := by
  unfold runDualSearch
  rw [fts, bind_of_ok (select_ok opened), semanticSearch, vector,
    bind_of_ok (onPostgresError_caught (select_error opened) caught)]
  rfl

/-- The payload of merged hits with the texts of the batches. -/
def payloadOf (args : Args) (merged : List SearchResult) (batches : Batches) : Payload :=
  buildPayload (hydrateResults batches merged) args.query args.limit

theorem run_ok (opened : c.status = .inTransaction) (valid : parseBounds host args = .ok bounds)
    (fts : faults.fts = none) (vector : embedding = none ∨ faults.vector = none)
    (texts : entryIds (mergedHits host plans c.store embedding args bounds) = [] ∨
      faults.texts = none) (titles : faults.titles = none) :
    ((runJournalSearch host plans faults embedding args : Search V E G _) c).1 =
      .ok (payloadOf args (mergedHits host plans c.store embedding args bounds)
        (storedBatches host c.store (mergedHits host plans c.store embedding args bounds))) := by
  unfold runJournalSearch
  rw [valid]
  simp only
  rw [bind_of_ok (runDualSearch_ok opened fts vector),
    bind_of_ok (fetchBatches_ok opened texts titles)]
  rfl

variable (plans) in
theorem run_vectorFault (opened : c.status = .inTransaction)
    (valid : parseBounds host args = .ok bounds) (caught : e.isPostgresError = true) (query : E) :
    ∃ batches, Silent batches ∧
      ((runJournalSearch host plans { Faults.none with vector := some e } (some query) args :
        Search V E G _) c).1 =
          .ok (payloadOf args (mergedHits host plans c.store none args bounds) batches) := by
  obtain ⟨batches, ran, silent⟩ := fetchBatches_failed
    (rfl : ({ c with status := .inError } : Conn (Store V E) G).status = .inError)
  refine ⟨batches, silent, ?_⟩
  unfold runJournalSearch
  rw [valid]
  simp only
  rw [bind_of_ok (runDualSearch_vectorFault opened rfl rfl caught query), bind_of_ok ran]
  rfl

/-- The entry batch raises when it is sent. -/
theorem run_textsFault (opened : c.status = .inTransaction)
    (valid : parseBounds host args = .ok bounds) (caught : e.isPostgresError = true)
    (listed : entryIds (mergedHits host plans c.store embedding args bounds) ≠ []) :
    ∃ batches, Silent batches ∧
      ((runJournalSearch host plans { Faults.none with texts := some e } embedding args :
        Search V E G _) c).1 =
          .ok (payloadOf args (mergedHits host plans c.store embedding args bounds) batches) := by
  have fault : ({ Faults.none with texts := some e } : Faults).texts = some e := rfl
  obtain ⟨batches, ran, silent⟩ := fetchBatches_fault opened fault caught listed
  refine ⟨batches, silent, ?_⟩
  unfold runJournalSearch
  rw [valid]
  simp only
  rw [bind_of_ok (runDualSearch_ok opened rfl (Or.inr rfl)), bind_of_ok ran]
  rfl

/-- Every text decrypts. -/
structure Readable (host : Host V E) (db : Store V E) : Prop where
  entries : ∀ id row, db.entries.get id = some row →
    ∃ texts, entryTexts host.toRuntime host.cipher row.toEntryRow = .ok texts
  conversations : ∀ id row, db.conversations.get id = some row →
    ∃ title summary, decryptSealed host.toRuntime host.cipher row.title = .ok title ∧
      decryptSealed host.toRuntime host.cipher row.summary = .ok summary

/-- An entry whose content is the sentinel of the repository, which the search takes for
one that did not decrypt. -/
def LooksUnreadable (host : Host V E) (db : Store V E) (hit : SearchResult) : Prop :=
  ∃ id row reasoning, hit.docType = .entry ∧ hit.entryId = some id ∧
    db.entries.get id = some row ∧ entryTexts host.toRuntime host.cipher row.toEntryRow =
      .ok (REPO_DECRYPTION_FAILED_SENTINEL, reasoning)

/-- A full-text hit and its row. -/
inductive Hits (db : Store V E) (hit : SearchResult) : Prop
  | entry (id : EntryId) (row : EntryUpdate.Row V) (docType : hit.docType = .entry)
      (entryId : hit.entryId = some id) (found : db.entries.get id = some row)
      (live : row.deletedAt = none)
  | conversation (id : ConversationId) (row : ConversationRow V)
      (docType : hit.docType = .conversation) (conversationId : hit.conversationId = some id)
      (found : db.conversations.get id = some row)

theorem hits_ftsHits {db : Store V E} {hit : SearchResult}
    (mem : hit ∈ ftsHits host plans db args bounds) :
    Hits db hit ∧ hit.decryptionFailed = false := by
  obtain ⟨row, paged, rfl⟩ := List.mem_map.mp mem
  have listed := (plans.fts.perm _).mem_iff.mp (mem_of_mem_page paged)
  refine ⟨?_, rfl⟩
  rcases List.mem_append.mp listed with mem | mem
  · obtain ⟨stored, inside, joined⟩ := List.mem_filterMap.mp mem
    obtain ⟨topic, _, selected, rfl⟩ := join_eq_some.mp joined
    simp only [Bool.and_eq_true, decide_eq_true_eq] at selected
    exact .entry stored.1 stored.2 rfl rfl (Table.get_eq_some_iff.mpr inside) selected.1.1
  · obtain ⟨stored, inside, joined⟩ := List.mem_filterMap.mp mem
    obtain ⟨topic, _, _, rfl⟩ := join_eq_some.mp joined
    exact .conversation stored.1 stored.2 rfl rfl (Table.get_eq_some_iff.mpr inside)

section Items
variable {db : Store V E} {merged : List SearchResult} {hit : SearchResult} {batches : Batches}

theorem texts_of_readable (readable : Readable host db) {id : EntryId} {row : EntryUpdate.Row V}
    (found : db.entries.get id = some row) (live : row.deletedAt = none) :
    ∃ texts, entryText host db id = some texts ∧
      entryTexts host.toRuntime host.cipher row.toEntryRow = .ok texts := by
  obtain ⟨texts, decrypts⟩ := readable.entries id row found
  refine ⟨texts, ?_, decrypts⟩
  rw [entryText, found, Option.filter_some, if_pos (by simp [live]), Option.map_some, decrypts]

theorem titles_of_readable (readable : Readable host db) {id : ConversationId}
    {row : ConversationRow V} (found : db.conversations.get id = some row) :
    ∃ title summary, titleSummary host db id = some (title, summary) ∧
      decryptSealed host.toRuntime host.cipher row.title = .ok title ∧
      decryptSealed host.toRuntime host.cipher row.summary = .ok summary := by
  obtain ⟨title, summary, htitle, hsummary⟩ := readable.conversations id row found
  refine ⟨title, summary, ?_, htitle, hsummary⟩
  rw [titleSummary, found, Option.bind_some, htitle, hsummary]

theorem mem_entryIds {id : EntryId} (mem : hit ∈ merged) (docType : hit.docType = .entry)
    (entryId : hit.entryId = some id) : id ∈ entryIds merged := by
  refine List.mem_dedup.mpr (List.mem_filterMap.mpr ⟨hit, mem, ?_⟩)
  rw [if_pos docType, entryId]

theorem mem_conversationIds {id : ConversationId} (mem : hit ∈ merged)
    (docType : hit.docType = .conversation) (conversationId : hit.conversationId = some id) :
    id ∈ conversationIds merged := by
  refine List.mem_dedup.mpr (List.mem_filterMap.mpr ⟨hit, mem, ?_⟩)
  rw [if_pos docType, conversationId]

/-- A hit looks the same with and without its texts only if its text is the sentinel. -/
theorem item_eq_iff (readable : Readable host db) (hits : Hits db hit)
    (unflagged : hit.decryptionFailed = false) (mem : hit ∈ merged) (silent : Silent batches) :
    payloadItem (filledHit batches hit) =
        payloadItem (filledHit (storedBatches host db merged) hit) ↔
      LooksUnreadable host db hit := by
  cases hits with
  | entry id row docType entryId found live =>
    obtain ⟨⟨content, reasoning⟩, stored, decrypts⟩ := texts_of_readable readable found live
    have listed : (storedBatches host db merged).entries.bind (fun texts => texts id) =
        some (content, reasoning) := (if_pos (mem_entryIds mem docType entryId)).trans stored
    have looks : LooksUnreadable host db hit ↔ content = REPO_DECRYPTION_FAILED_SENTINEL := by
      constructor
      · rintro ⟨id', row', reasoning', _, entryId', found', decrypts'⟩
        cases entryId.symm.trans entryId'
        cases found.symm.trans found'
        cases decrypts.symm.trans decrypts'
        rfl
      · rintro rfl
        exact ⟨id, row, reasoning, docType, entryId, found, decrypts⟩
    rw [looks, filledHit_entry docType entryId, filledHit_entry docType entryId, silent.1 id,
      listed]
    by_cases sentinel : content = REPO_DECRYPTION_FAILED_SENTINEL
    · simp [hydrateEntry, payloadItem, docType, sentinel]
    · simp [hydrateEntry, payloadItem, docType, sentinel]
  | conversation id row docType conversationId found =>
    obtain ⟨title, summary, stored, _⟩ := titles_of_readable readable found
    have listed : (storedBatches host db merged).conversations.bind (fun texts => texts id) =
        some (title, summary) :=
      (if_pos (mem_conversationIds mem docType conversationId)).trans stored
    have looks : ¬ LooksUnreadable host db hit := by
      rintro ⟨_, _, _, docType', _⟩
      rw [docType] at docType'
      cases docType'
    refine iff_of_false ?_ looks
    rw [filledHit_conversation docType conversationId,
      filledHit_conversation docType conversationId, silent.2 id, listed]
    simp [hydrateConversation, payloadItem, docType, unflagged]

/-- An item of a conversation has the title and the summary that are stored. -/
def Carries (host : Host V E) (db : Store V E) : Item → Prop
  | .entry .. => True
  | .conversation _ _ conversationId title summary failed => failed = false ∧
    ∃ id row fullTitle fullSummary, conversationId = some id ∧
      db.conversations.get id = some row ∧
      decryptSealed host.toRuntime host.cipher row.title = .ok fullTitle ∧
      decryptSealed host.toRuntime host.cipher row.summary = .ok fullSummary ∧
      (title, summary) = truncateTitleSummary fullTitle fullSummary

theorem carries_entry {item : Item} (docType : hit.docType = .entry)
    (shown : payloadItem (filledHit batches hit) = some item) : Carries host db item := by
  rw [payloadItem, (filled_filledHit batches hit).docType, docType] at shown
  cases shown
  exact trivial

theorem carries_stored (readable : Readable host db) {id : ConversationId}
    {row : ConversationRow V} (docType : hit.docType = .conversation)
    (conversationId : hit.conversationId = some id) (found : db.conversations.get id = some row)
    (unflagged : hit.decryptionFailed = false) (mem : hit ∈ merged) {item : Item}
    (shown : payloadItem (filledHit (storedBatches host db merged) hit) = some item) :
    Carries host db item := by
  obtain ⟨title, summary, stored, htitle, hsummary⟩ := titles_of_readable readable found
  have listed : (storedBatches host db merged).conversations.bind (fun texts => texts id) =
      some (title, summary) :=
    (if_pos (mem_conversationIds mem docType conversationId)).trans stored
  rw [filledHit_conversation docType conversationId, listed, hydrateConversation, payloadItem,
    docType] at shown
  cases shown
  exact ⟨unflagged, id, row, title, summary, conversationId, found, htitle, hsummary, rfl⟩

theorem not_carries_silent {id : ConversationId} (docType : hit.docType = .conversation)
    (conversationId : hit.conversationId = some id) (silent : Silent batches) {item : Item}
    (shown : payloadItem (filledHit batches hit) = some item) : ¬ Carries host db item := by
  rw [filledHit_conversation docType conversationId, silent.2 id, hydrateConversation, payloadItem,
    docType] at shown
  cases shown
  rintro ⟨failed, _⟩
  cases failed

end Items

/-- A search without its semantic half is that of a call without an embedding, and a search
whose entry batch fails still has the titles and summaries. -/
structure Degrades (host : Host V E) (plans : Plans) (c : Conn (Store V E) G) (args : Args)
    (embedding : Option E) : Prop where
  semantic : ∀ e, e.isPostgresError = true →
    ((runJournalSearch host plans { Faults.none with vector := some e } embedding args :
      Search V E G _) c).1 =
    ((runJournalSearch host plans Faults.none none args : Search V E G _) c).1
  entryBatch : ∀ e payload, e.isPostgresError = true →
    ((runJournalSearch host plans { Faults.none with texts := some e } embedding args :
      Search V E G _) c).1 = .ok payload →
    ∀ item ∈ payload.results, Carries host c.store item

theorem located_mergedHits (host : Host V E) (plans : Plans) (db : Store V E)
    (embedding : Option E) (args : Args) (bounds : Bounds) :
    ∀ hit ∈ mergedHits host plans db embedding args bounds, Located hit := by
  cases embedding with
  | none => exact located_mergeResults _ []
  | some embedding => exact located_mergeResults _ _

/-- A merged hit is one of the full-text search, or an entry. -/
theorem mem_mergedHits {db : Store V E} {hit : SearchResult}
    (mem : hit ∈ mergedHits host plans db embedding args bounds) :
    hit ∈ ftsHits host plans db args bounds ∨ (embedding ≠ none ∧ hit.docType = .entry) := by
  rcases List.mem_append.mp (List.mem_of_find?_eq_some (mem_mergeResults.mp mem)) with mem | mem
  · exact Or.inl mem
  · cases embedding with
    | none => exact absurd mem List.not_mem_nil
    | some embedding =>
      obtain ⟨row, _, done⟩ := List.mem_filterMap.mp mem
      obtain ⟨id, _, rfl⟩ := Option.map_eq_some_iff.mp done
      exact Or.inr ⟨Option.some_ne_none _, rfl⟩

theorem semantic_iff (opened : c.status = .inTransaction)
    (valid : parseBounds host args = .ok bounds) (readable : Readable host c.store) :
    (∀ e : SearchError, e.isPostgresError = true →
      ((runJournalSearch host plans { Faults.none with vector := some e } embedding args :
        Search V E G _) c).1 =
      ((runJournalSearch host plans Faults.none none args : Search V E G _) c).1) ↔
      embedding = none ∨ ∀ hit ∈ keptHits host plans c.store none args bounds,
        LooksUnreadable host c.store hit := by
  have located := located_mergedHits host plans c.store none args bounds
  rw [run_ok opened valid rfl (Or.inl rfl) (Or.inr rfl) rfl]
  cases embedding with
  | none =>
    refine iff_of_true (fun e _ => ?_) (Or.inl rfl)
    exact run_ok opened valid rfl (Or.inl rfl) (Or.inr rfl) rfl
  | some query =>
    have fate : ∀ {batches : Batches}, Silent batches →
        ∀ hit ∈ keptHits host plans c.store none args bounds,
        (payloadItem (filledHit batches hit) = payloadItem (filledHit (storedBatches host c.store
          (mergedHits host plans c.store none args bounds)) hit) ↔
          LooksUnreadable host c.store hit) := by
      intro batches silent hit kept
      have mem := mem_of_mem_best kept
      obtain ⟨hits, unflagged⟩ := hits_ftsHits ((mem_mergedHits mem).resolve_right (by simp))
      exact item_eq_iff readable hits unflagged mem silent
    simp only [reduceCtorEq, false_or]
    constructor
    · intro all hit kept
      obtain ⟨batches, silent, ran⟩ := run_vectorFault plans opened valid
        (rfl : (SearchError.postgresError []).isPostgresError = true) query
      have same := Except.ok.inj (ran.symm.trans (all _ rfl))
      exact (fate silent hit kept).mp ((buildPayload_eq_iff located).mp same hit kept)
    · intro looks e caught
      obtain ⟨batches, silent, ran⟩ := run_vectorFault plans opened valid caught query
      rw [ran]
      refine congrArg Except.ok ((buildPayload_eq_iff located).mpr fun hit kept => ?_)
      exact (fate silent hit kept).mpr (looks hit kept)

theorem entryBatch_iff (opened : c.status = .inTransaction)
    (valid : parseBounds host args = .ok bounds) (readable : Readable host c.store) :
    (∀ (e : SearchError) payload, e.isPostgresError = true →
      ((runJournalSearch host plans { Faults.none with texts := some e } embedding args :
        Search V E G _) c).1 = .ok payload →
      ∀ item ∈ payload.results, Carries host c.store item) ↔
      entryIds (mergedHits host plans c.store embedding args bounds) = [] ∨
        ∀ hit ∈ keptHits host plans c.store embedding args bounds, hit.docType ≠ .conversation := by
  have located := located_mergedHits host plans c.store embedding args bounds
  by_cases unsent : entryIds (mergedHits host plans c.store embedding args bounds) = []
  · refine iff_of_true (fun e payload _ ran item listed => ?_) (Or.inl unsent)
    rw [run_ok opened valid rfl (Or.inr rfl) (Or.inl unsent) rfl] at ran
    cases ran
    obtain ⟨hit, kept, shown⟩ := (mem_results_buildPayload located).mp listed
    have mem := mem_of_mem_best kept
    rcases mem_mergedHits mem with fts | ⟨_, docType⟩
    · obtain ⟨hits, unflagged⟩ := hits_ftsHits fts
      cases hits with
      | entry id row docType => exact carries_entry docType shown
      | conversation id row docType conversationId found =>
        exact carries_stored readable docType conversationId found unflagged mem shown
    · exact carries_entry docType shown
  · rw [or_iff_right unsent]
    constructor
    · intro all hit kept docType
      obtain ⟨batches, silent, ran⟩ := run_textsFault opened valid
        (rfl : (SearchError.postgresError []).isPostgresError = true) unsent
      obtain ⟨item, shown⟩ := Option.isSome_iff_exists.mp
        (payloadItem_isSome (located hit (mem_of_mem_best kept)) (filled_filledHit batches hit))
      have carries :=
        all _ _ rfl ran item ((mem_results_buildPayload located).mpr ⟨hit, kept, shown⟩)
      rcases located hit (mem_of_mem_best kept) with ⟨other, _⟩ | ⟨_, id⟩
      · rw [docType] at other
        cases other
      · obtain ⟨id, conversationId⟩ := Option.isSome_iff_exists.mp id
        exact not_carries_silent docType conversationId silent shown carries
    · intro none e payload caught ran item listed
      obtain ⟨batches, _, ran'⟩ := run_textsFault opened valid caught unsent
      cases ran.symm.trans ran'
      obtain ⟨hit, kept, shown⟩ := (mem_results_buildPayload located).mp listed
      rcases located hit (mem_of_mem_best kept) with ⟨docType, _⟩ | ⟨docType, _⟩
      · exact carries_entry docType shown
      · exact absurd docType (none hit kept)

/-- A failed statement is confined exactly when nothing that comes after it matters. -/
theorem degrades_iff (opened : c.status = .inTransaction)
    (valid : parseBounds host args = .ok bounds) (readable : Readable host c.store) :
    Degrades host plans c args embedding ↔
      (embedding = none ∨ ∀ hit ∈ keptHits host plans c.store none args bounds,
        LooksUnreadable host c.store hit) ∧
      (entryIds (mergedHits host plans c.store embedding args bounds) = [] ∨
        ∀ hit ∈ keptHits host plans c.store embedding args bounds,
          hit.docType ≠ .conversation) := by
  rw [← semantic_iff opened valid readable, ← entryBatch_iff opened valid readable]
  exact ⟨fun degrades => ⟨degrades.semantic, degrades.entryBatch⟩,
    fun both => ⟨both.1, both.2⟩⟩

end Runs

def sampleHost : Host Unit Unit :=
  { Listing.sampleRuntime with
    cipher := sampleCipher
    selects := fun _ _ => true
    tsRank := fun _ _ => 1 / 2
    similarity := fun _ _ => 0 }

def samplePlans : Plans := ⟨ftsOrder.sorter, vectorOrder.sorter⟩

/-- A conversation, and nothing else. -/
def sampleStore : Store Unit Unit where
  topics := Listing.sampleTables.topics
  entries := Table.empty
  conversations := Table.empty.put 7 { Listing.sampleConversation with searchVector := () }
  embeddings := Table.empty

def sampleConn : Conn (Store Unit Unit) Unit := ⟨sampleStore, (), .inTransaction⟩

def sampleArgs : Args := ⟨py "plan", none, none, none, 10⟩

theorem sample_plain : decryptSealed sampleHost.toRuntime sampleCipher Listing.sampleSealed =
    .ok (py "hi") :=
  sample_decryptOrRaise

theorem sample_readable : Readable sampleHost sampleStore where
  entries := fun _ _ found => by cases found
  conversations := by
    intro id row found
    rcases Table.get_put_eq_some found with ⟨_, rfl⟩ | ⟨_, old⟩
    · exact ⟨py "hi", py "hi", sample_plain, sample_plain⟩
    · cases old

/-- The words of the query are in no text, and every embedding is near its own. -/
def nearHost : Host Unit Unit :=
  { sampleHost with
    selects := fun _ _ => false
    similarity := fun _ _ => 1 }

/-- The same with an entry that has its embedding. -/
def nearStore : Store Unit Unit :=
  { sampleStore with
    entries := Table.empty.put 4
      { Listing.sampleEntry none with searchVector := (), indexedAt := none }
    embeddings := Table.empty.put 4 () }

theorem near_readable : Readable nearHost nearStore where
  entries := by
    intro id row found
    rcases Table.get_put_eq_some found with ⟨_, rfl⟩ | ⟨_, old⟩
    · refine ⟨(py "hi", none), ?_⟩
      have plain : decryptSealed nearHost.toRuntime nearHost.cipher Listing.sampleSealed =
          .ok (py "hi") := sample_plain
      rw [entryTexts, show (Listing.sampleEntry none).content = Listing.sampleSealed from rfl,
        plain]
      rfl
    · cases old
  conversations := sample_readable.conversations

/-- The only hit is an entry that its embedding finds. Both statements that may fail are sent. -/
theorem degrades_entries :
    entryIds (mergedHits nearHost samplePlans nearStore (some ()) sampleArgs
      ⟨none, none, none⟩) = [4] ∧
    Degrades nearHost samplePlans ⟨nearStore, (), .inTransaction⟩ sampleArgs (some ()) := by
  refine ⟨by decide +kernel, ?_⟩
  have valid : parseBounds nearHost sampleArgs = .ok ⟨none, none, none⟩ := rfl
  have words : (keptHits nearHost samplePlans nearStore none sampleArgs
      ⟨none, none, none⟩).isEmpty = true := by decide +kernel
  refine (degrades_iff rfl valid near_readable).mpr ⟨Or.inr fun hit mem => ?_, Or.inr ?_⟩
  · rw [List.isEmpty_iff.mp words] at mem
    cases mem
  · decide +kernel

/-- A vector search that fails takes the titles of the full-text hits with it. -/
theorem failed_search_hides_titles : sampleConn.status = .inTransaction ∧
    parseBounds sampleHost sampleArgs = .ok ⟨none, none, none⟩ ∧
    Readable sampleHost sampleConn.store ∧
    ¬ Degrades sampleHost samplePlans sampleConn sampleArgs (some ()) := by
  refine ⟨rfl, rfl, sample_readable, fun degrades => ?_⟩
  have kept : (keptHits sampleHost samplePlans sampleStore none sampleArgs
      ⟨none, none, none⟩).any (fun hit => hit.docType = .conversation) = true := by decide +kernel
  obtain ⟨hit, mem, docType⟩ := List.any_eq_true.mp kept
  have looks := (semantic_iff rfl rfl sample_readable).mp degrades.semantic
  rcases looks with absent | looks
  · cases absent
  · obtain ⟨_, _, _, other, _⟩ := looks hit mem
    rw [of_decide_eq_true docType] at other
    cases other

end SearchFailures
