import Gubbi.Journal.Rows
import Gubbi.Library.Ranking
import Mathlib.Algebra.Order.Ring.Rat

/-!
# The search pipeline

The hits of the full-text search and of the semantic search are merged by their source
keys, filled with their decrypted texts, sorted by rank and cut at the limit. What the two
batches of texts return is an argument here: a batch may fail, and it may lack any row. A
finite float is a rational number.
-/

namespace JournalSearch

open Text JournalRows Ranking
open JournalTables (EntryId ConversationId)

inductive DocType
  | entry
  | conversation
  /-- No backend here returns one. -/
  | memory
  deriving DecidableEq, Repr

def DocType.text : DocType → PyStr
  | .entry => py "entry"
  | .conversation => py "conversation"
  | .memory => py "memory"

structure SearchResult where
  sourceKey : PyStr
  docType : DocType
  topic : PyStr
  rank : ℚ
  date : PyStr
  entryId : Option EntryId
  conversationId : Option ConversationId
  content : Option PyStr
  title : Option PyStr
  summary : Option PyStr
  decryptionFailed : Bool
  deriving DecidableEq

/-- What a row of the union in `fts_search` is about. -/
inductive Document
  | entry (id : EntryId)
  | conversation (id : ConversationId)
  deriving DecidableEq

def Document.docType : Document → DocType
  | .entry _ => .entry
  | .conversation _ => .conversation

def Document.entryId : Document → Option EntryId
  | .entry id => some id
  | .conversation _ => none

def Document.conversationId : Document → Option ConversationId
  | .entry _ => none
  | .conversation id => some id

structure FtsRow where
  document : Document
  topic : PyStr
  rank : ℚ
  date : PyStr
  deriving DecidableEq

structure VectorRow where
  entryId : Option EntryId
  topic : PyStr
  similarity : ℚ
  date : PyStr
  deriving DecidableEq

/-- `entry_id or conversation_id` in a text. -/
def idText (entryId : Option EntryId) (conversationId : Option ConversationId) : PyStr :=
  match entryId.filter (fun id => id ≠ 0), conversationId with
  | some id, _ => number id
  | none, some id => number id
  | none, none => py "None"

/-- A hit of `fts_search`. -/
def ftsResult (row : FtsRow) : SearchResult where
  sourceKey := row.document.docType.text ++ py ":" ++
    idText row.document.entryId row.document.conversationId
  docType := row.document.docType
  topic := row.topic
  rank := -row.rank
  date := row.date
  entryId := row.document.entryId
  conversationId := row.document.conversationId
  content := none
  title := none
  summary := none
  decryptionFailed := false

/-- A hit of `search_by_vector`; a row without an id is left out. -/
def semanticResult (row : VectorRow) : Option SearchResult :=
  row.entryId.map fun id =>
    { sourceKey := py "entry:" ++ number id, docType := .entry, topic := row.topic,
      rank := -row.similarity, date := row.date, entryId := some id, conversationId := none,
      content := none, title := none, summary := none, decryptionFailed := false }

/-- The full-text hits come first. -/
def mergeResults (fts semantic : List SearchResult) : List SearchResult :=
  (((Merge.start SearchResult.sourceKey).addAll fts).addAll semantic).kept

def MAX_SEARCH_CONTENT_CHARS : Nat := 4096

def REPO_DECRYPTION_FAILED_SENTINEL : PyStr := py "[decryption-failed]"

def truncateText (value : PyStr) : PyStr := value.take MAX_SEARCH_CONTENT_CHARS

def truncateTitleSummary (title summary : PyStr) : PyStr × PyStr :=
  let budget := MAX_SEARCH_CONTENT_CHARS
  if title.length + summary.length ≤ budget then (title, summary)
  else if budget ≤ title.length then (title.take budget, [])
  else (title, summary.take (budget - title.length))

/-- What `get_texts` and `get_titles_summaries` return; `none` is a batch that failed. -/
structure Batches where
  entries : Option (EntryId → Option (PyStr × Option PyStr))
  conversations : Option (ConversationId → Option (PyStr × PyStr))

def hydrateEntry (result : SearchResult) : Option (PyStr × Option PyStr) → SearchResult
  | none => { result with content := some DECRYPTION_FAILED_SENTINEL, decryptionFailed := true }
  | some (content, _) =>
    let failed := content = REPO_DECRYPTION_FAILED_SENTINEL
    { result with
      content := some (if failed then DECRYPTION_FAILED_SENTINEL else truncateText content)
      decryptionFailed := decide failed }

def hydrateConversation (result : SearchResult) : Option (PyStr × PyStr) → SearchResult
  | none => { result with
      title := some DECRYPTION_FAILED_SENTINEL
      summary := some DECRYPTION_FAILED_SENTINEL
      decryptionFailed := true }
  | some (title, summary) => { result with
      title := some (truncateTitleSummary title summary).1
      summary := some (truncateTitleSummary title summary).2 }

/-- A hit that is neither an entry nor a conversation with its id is passed over. -/
def hydrate (batches : Batches) (result : SearchResult) : Option SearchResult :=
  match result.docType, result.entryId, result.conversationId with
  | .entry, some id, _ => some (hydrateEntry result (batches.entries.bind (fun texts => texts id)))
  | .conversation, _, some id =>
    some (hydrateConversation result (batches.conversations.bind (fun texts => texts id)))
  | _, _, _ => none

def hydrateResults (batches : Batches) (merged : List SearchResult) : List SearchResult :=
  merged.filterMap (hydrate batches)

inductive Item
  | entry (topic date : PyStr) (entryId : Option EntryId) (content : PyStr)
      (decryptionFailed : Bool)
  | conversation (topic date : PyStr) (conversationId : Option ConversationId)
      (title summary : PyStr) (decryptionFailed : Bool)
  deriving DecidableEq

structure Payload where
  results : List Item
  total : Nat
  query : PyStr
  deriving DecidableEq

def payloadItem (result : SearchResult) : Option Item :=
  match result.docType with
  | .entry => some (.entry result.topic result.date result.entryId (result.content.getD [])
      result.decryptionFailed)
  | .conversation => some (.conversation result.topic result.date result.conversationId
      (result.title.getD []) (result.summary.getD []) result.decryptionFailed)
  | .memory => none

def buildPayload (hydrated : List SearchResult) (query : PyStr) (limit : Nat) : Payload :=
  let payload := (best SearchResult.rank limit hydrated).filterMap payloadItem
  ⟨payload, payload.length, query⟩

/-- The hit of a backend with its texts filled in. -/
def Filled (hit result : SearchResult) : Prop :=
  result = { hit with
    content := result.content
    title := result.title
    summary := result.summary
    decryptionFailed := result.decryptionFailed }

/-- A hit with the id that its type needs. -/
def Located (hit : SearchResult) : Prop :=
  (hit.docType = .entry ∧ hit.entryId.isSome = true) ∨
    (hit.docType = .conversation ∧ hit.conversationId.isSome = true)

section Hydration
variable {batches : Batches} {hit result : SearchResult}

theorem Filled.sourceKey (filled : Filled hit result) : result.sourceKey = hit.sourceKey := by
  rw [filled]

theorem Filled.rank (filled : Filled hit result) : result.rank = hit.rank := by
  rw [filled]

theorem Filled.docType (filled : Filled hit result) : result.docType = hit.docType := by
  rw [filled]

theorem filled_hydrateEntry (texts : Option (PyStr × Option PyStr)) :
    Filled hit (hydrateEntry hit texts) := by
  cases texts with
  | none => rfl
  | some texts => rfl

theorem filled_hydrateConversation (texts : Option (PyStr × PyStr)) :
    Filled hit (hydrateConversation hit texts) := by
  cases texts with
  | none => rfl
  | some texts => rfl

theorem filled_hydrate (done : hydrate batches hit = some result) : Filled hit result := by
  unfold hydrate at done
  split at done
  · cases done
    exact filled_hydrateEntry _
  · cases done
    exact filled_hydrateConversation _
  · cases done

/-- Whatever becomes of its text, a hit with an id is not passed over. -/
theorem hydrate_isSome (located : Located hit) : (hydrate batches hit).isSome = true := by
  unfold hydrate
  rcases located with ⟨docType, id⟩ | ⟨docType, id⟩
  · obtain ⟨id, hid⟩ := Option.isSome_iff_exists.mp id
    rw [docType, hid]
    rfl
  · obtain ⟨id, hid⟩ := Option.isSome_iff_exists.mp id
    rw [docType, hid]
    cases hit.entryId <;> rfl

theorem located_ftsResult (row : FtsRow) : Located (ftsResult row) := by
  obtain ⟨document, topic, rank, date⟩ := row
  cases document with
  | entry id => exact Or.inl ⟨rfl, rfl⟩
  | conversation id => exact Or.inr ⟨rfl, rfl⟩

theorem located_semanticResult {row : VectorRow} (done : semanticResult row = some hit) :
    Located hit := by
  obtain ⟨id, _, rfl⟩ := Option.map_eq_some_iff.mp done
  exact Or.inl ⟨rfl, rfl⟩

/-- The hit with its texts. -/
def filledHit (batches : Batches) (hit : SearchResult) : SearchResult :=
  (hydrate batches hit).getD hit

theorem filled_filledHit (batches : Batches) (hit : SearchResult) :
    Filled hit (filledHit batches hit) := by
  unfold filledHit
  cases done : hydrate batches hit with
  | none => rfl
  | some result => exact filled_hydrate done

theorem hydrateResults_eq {merged : List SearchResult} (located : ∀ hit ∈ merged, Located hit) :
    hydrateResults batches merged = merged.map (filledHit batches) := by
  induction merged with
  | nil => rfl
  | cons hit rest ih =>
    obtain ⟨first, others⟩ := List.forall_mem_cons.mp located
    obtain ⟨result, done⟩ := Option.isSome_iff_exists.mp (hydrate_isSome first)
    rw [hydrateResults, List.filterMap_cons_some done, List.map_cons, filledHit, done,
      ← hydrateResults, ih others]
    rfl

theorem filledHit_entry {id : EntryId} (docType : hit.docType = .entry)
    (entryId : hit.entryId = some id) :
    filledHit batches hit = hydrateEntry hit (batches.entries.bind (fun texts => texts id)) := by
  rw [filledHit, hydrate, docType, entryId]
  rfl

theorem filledHit_conversation {id : ConversationId} (docType : hit.docType = .conversation)
    (conversationId : hit.conversationId = some id) : filledHit batches hit =
      hydrateConversation hit (batches.conversations.bind (fun texts => texts id)) := by
  rw [filledHit, hydrate, docType, conversationId]
  cases hit.entryId <;> rfl

/-- Hits are ranked with their texts as without them. -/
theorem best_hydrateResults {merged : List SearchResult} (located : ∀ hit ∈ merged, Located hit)
    (limit : Nat) :
    best SearchResult.rank limit (hydrateResults batches merged) =
      (best SearchResult.rank limit merged).map (filledHit batches) := by
  rw [hydrateResults_eq located]
  exact (map_best fun hit _ => (filled_filledHit batches hit).rank).symm

end Hydration

/-- The hit that stands for a key: the first one, so a full-text hit where there is one. -/
def representative (fts semantic : List SearchResult) (sourceKey : PyStr) : Option SearchResult :=
  (fts ++ semantic).find? (fun hit => hit.sourceKey = sourceKey)

def sourceKeys (hits : List SearchResult) : List PyStr := hits.map SearchResult.sourceKey

structure Faithful (fts semantic : List SearchResult) (limit : Nat)
    (results : List SearchResult) : Prop where
  nodup : (sourceKeys results).Nodup
  known : ∀ key ∈ sourceKeys results, key ∈ sourceKeys fts ∨ key ∈ sourceKeys semantic
  ordered : results.Pairwise (fun a b => a.rank ≤ b.rank)
  length : results.length = min limit (sourceKeys (fts ++ semantic)).dedup.length
  represented : ∀ result ∈ results, ∃ hit,
    representative fts semantic result.sourceKey = some hit ∧ Filled hit result
  fullText : ∀ result ∈ results, result.sourceKey ∈ sourceKeys fts → ∃ hit ∈ fts, Filled hit result
  /-- Only the limit loses a hit, and only one that ranks no better than those kept. -/
  lost : ∀ key hit, representative fts semantic key = some hit → key ∉ sourceKeys results →
    results.length = limit ∧ ∀ kept ∈ results, kept.rank ≤ hit.rank

section Merging
variable {fts semantic : List SearchResult}

theorem mem_mergeResults {hit : SearchResult} : hit ∈ mergeResults fts semantic ↔
    representative fts semantic hit.sourceKey = some hit := by
  have joined : mergeResults fts semantic =
      ((Merge.start SearchResult.sourceKey).addAll (fts ++ semantic)).kept := by
    rw [mergeResults, Merge.addAll, Merge.addAll, Merge.addAll, List.foldl_append]
  rw [joined, Merge.mem_addAll]
  simp [Merge.start, representative]

theorem sourceKey_representative {key : PyStr} {hit : SearchResult}
    (found : representative fts semantic key = some hit) : hit.sourceKey = key := by
  simpa using List.find?_some found

theorem keys_mergeResults (key : PyStr) :
    key ∈ sourceKeys (mergeResults fts semantic) ↔ key ∈ sourceKeys (fts ++ semantic) := by
  rw [sourceKeys, mergeResults, Merge.keys_addAll, Merge.keys_addAll, sourceKeys, List.map_append,
    List.mem_append]
  simp [Merge.start]

theorem nodup_mergeResults : (sourceKeys (mergeResults fts semantic)).Nodup :=
  Merge.nodup _

theorem mem_fts_of_representative {key : PyStr} {hit : SearchResult}
    (found : representative fts semantic key = some hit) (listed : key ∈ sourceKeys fts) :
    hit ∈ fts := by
  rw [representative, List.find?_append] at found
  cases first : fts.find? (fun hit => hit.sourceKey = key) with
  | none =>
    obtain ⟨other, mem, same⟩ := List.mem_map.mp listed
    have unmatched := List.find?_eq_none.mp first other mem
    exact absurd (decide_eq_true same) unmatched
  | some other =>
    rw [first] at found
    cases found
    exact List.mem_of_find?_eq_some first

/-- Merged hits that are filled, sorted and cut are faithful. -/
theorem faithful_best {fill : SearchResult → SearchResult}
    (filled : ∀ hit, Filled hit (fill hit)) (limit : Nat) :
    Faithful fts semantic limit
      ((best SearchResult.rank limit (mergeResults fts semantic)).map fill) := by
  have keys : sourceKeys ((best SearchResult.rank limit (mergeResults fts semantic)).map fill) =
      sourceKeys (best SearchResult.rank limit (mergeResults fts semantic)) := by
    rw [sourceKeys, List.map_map]
    exact List.map_congr_left fun hit _ => (filled hit).sourceKey
  have merged : ∀ hit ∈ best SearchResult.rank limit (mergeResults fts semantic),
      representative fts semantic hit.sourceKey = some hit :=
    fun hit mem => mem_mergeResults.mp (mem_of_mem_best mem)
  refine ⟨?_, ?_, ?_, ?_, ?_, ?_, ?_⟩
  · rw [keys]
    exact nodup_best nodup_mergeResults
  · intro key mem
    rw [keys] at mem
    obtain ⟨hit, inside, rfl⟩ := List.mem_map.mp mem
    have known := (keys_mergeResults _).mp (List.mem_map_of_mem (mem_of_mem_best inside))
    rw [sourceKeys, List.map_append] at known
    exact List.mem_append.mp known
  · refine List.pairwise_map.mpr (pairwise_best.imp ?_)
    intro a b le
    rw [(filled a).rank, (filled b).rank]
    exact le
  · rw [List.length_map, length_best, length_eq_of_keys nodup_mergeResults keys_mergeResults]
  · intro result mem
    obtain ⟨hit, inside, rfl⟩ := List.mem_map.mp mem
    exact ⟨hit, by rw [(filled hit).sourceKey]; exact merged hit inside, filled hit⟩
  · intro result mem listed
    obtain ⟨hit, inside, rfl⟩ := List.mem_map.mp mem
    rw [(filled hit).sourceKey] at listed
    exact ⟨hit, mem_fts_of_representative (merged hit inside) listed, filled hit⟩
  · intro key hit found absent
    obtain rfl := sourceKey_representative found
    rw [keys] at absent
    rcases mem_best_or SearchResult.rank limit (mem_mergeResults.mpr found) with
      kept | ⟨full, outranked⟩
    · exact absurd (List.mem_map_of_mem kept) absent
    · refine ⟨by rw [List.length_map]; exact full, fun result mem => ?_⟩
      obtain ⟨kept, inside, rfl⟩ := List.mem_map.mp mem
      rw [(filled kept).rank]
      exact outranked kept inside

end Merging

theorem located_mergeResults (fts : List FtsRow) (semantic : List VectorRow) :
    ∀ hit ∈ mergeResults (fts.map ftsResult) (semantic.filterMap semanticResult), Located hit := by
  intro hit mem
  have listed := List.mem_of_find?_eq_some (mem_mergeResults.mp mem)
  rcases List.mem_append.mp listed with mem | mem
  · obtain ⟨row, _, rfl⟩ := List.mem_map.mp mem
    exact located_ftsResult row
  · obtain ⟨row, _, done⟩ := List.mem_filterMap.mp mem
    exact located_semanticResult done

theorem payloadItem_isSome {hit result : SearchResult} (located : Located hit)
    (filled : Filled hit result) : (payloadItem result).isSome = true := by
  unfold payloadItem
  rw [filled.docType]
  rcases located with ⟨docType, _⟩ | ⟨docType, _⟩
  · rw [docType]
    rfl
  · rw [docType]
    rfl

theorem map_some_filterMap {A B : Type} {f : A → Option B} {as : List A}
    (all : ∀ a ∈ as, (f a).isSome = true) : (as.filterMap f).map some = as.map f := by
  induction as with
  | nil => rfl
  | cons a rest ih =>
    obtain ⟨first, others⟩ := List.forall_mem_cons.mp all
    obtain ⟨b, hb⟩ := Option.isSome_iff_exists.mp first
    rw [List.filterMap_cons_some hb, List.map_cons, List.map_cons, ih others, hb]

section Payloads
variable {batches batches' : Batches} {merged : List SearchResult} {query : PyStr} {limit : Nat}

variable (batches query limit) in
/-- Every hit that is kept has an item. -/
theorem results_buildPayload (located : ∀ hit ∈ merged, Located hit) :
    (buildPayload (hydrateResults batches merged) query limit).results.map some =
      (best SearchResult.rank limit merged).map
        (fun hit => payloadItem (filledHit batches hit)) := by
  have items : ∀ result ∈ best SearchResult.rank limit (hydrateResults batches merged),
      (payloadItem result).isSome = true := by
    intro result mem
    rw [best_hydrateResults located] at mem
    obtain ⟨hit, inside, rfl⟩ := List.mem_map.mp mem
    exact payloadItem_isSome (located hit (mem_of_mem_best inside)) (filled_filledHit batches hit)
  rw [buildPayload, map_some_filterMap items, best_hydrateResults located, List.map_map]
  rfl

theorem mem_results_buildPayload (located : ∀ hit ∈ merged, Located hit) {item : Item} :
    item ∈ (buildPayload (hydrateResults batches merged) query limit).results ↔
      ∃ hit ∈ best SearchResult.rank limit merged,
        payloadItem (filledHit batches hit) = some item := by
  rw [← List.mem_map_of_injective (Option.some_injective Item),
    results_buildPayload batches query limit located, List.mem_map]

/-- Two payloads of the same hits differ in the item of a hit that is kept. -/
theorem buildPayload_eq_iff (located : ∀ hit ∈ merged, Located hit) :
    buildPayload (hydrateResults batches merged) query limit =
        buildPayload (hydrateResults batches' merged) query limit ↔
      ∀ hit ∈ best SearchResult.rank limit merged,
        payloadItem (filledHit batches hit) = payloadItem (filledHit batches' hit) := by
  rw [← List.map_inj_left, ← results_buildPayload batches query limit located,
    ← results_buildPayload batches' query limit located]
  constructor
  · intro same
    rw [same]
  · intro same
    have results := List.map_injective_iff.mpr (Option.some_injective Item) same
    simp only [buildPayload] at results
    simp only [buildPayload, results]

end Payloads

/-- Whatever the batches return, the payload lists a faithful merge of the hits, each with
an item of its own. -/
theorem search_faithful (fts : List FtsRow) (semantic : List VectorRow) (batches : Batches)
    (query : PyStr) (limit : Nat) :
    ∃ results, Faithful (fts.map ftsResult) (semantic.filterMap semanticResult) limit results ∧
      (buildPayload (hydrateResults batches (mergeResults (fts.map ftsResult)
        (semantic.filterMap semanticResult))) query limit).results.map some =
          results.map payloadItem ∧
      (buildPayload (hydrateResults batches (mergeResults (fts.map ftsResult)
        (semantic.filterMap semanticResult))) query limit).total = results.length := by
  have items := results_buildPayload batches query limit (located_mergeResults fts semantic)
  refine ⟨_, faithful_best (filled_filledHit batches) limit, ?_, ?_⟩
  · rw [items, List.map_map]
    rfl
  · have lengths := congrArg List.length items
    rw [List.length_map, List.length_map] at lengths
    rw [List.length_map]
    exact lengths

end JournalSearch
