import Gubbi.Journal.SearchBatches
import Gubbi.Journal.WebReads

/-!
# Decryption markers

The searches, listings and details that go on when a column does not decrypt, and what an
item of theirs tells of it: the flag of the item, and the texts that it shows against the
texts that are stored. The tools show some of their items without a flag.
-/

namespace Markers

open Text Cipher Queries JournalTables JournalRows JournalSearch SearchFailures SearchBatches
open Connections

/-- An encrypted column that an item shows. -/
structure Column where
  /-- `none` is a value that could not be fetched or decrypted. -/
  stored : Option (Option PyStr)
  /-- The documented length of a prefix. -/
  length : Option Nat

def Column.Readable (column : Column) : Prop := column.stored ≠ none

def cut (length : Option Nat) (text : PyStr) : PyStr :=
  match length with
  | none => text
  | some n => text.take n

def Column.preview (column : Column) : Option (Option PyStr) :=
  column.stored.map (Option.map (cut column.length))

@[simp] theorem cut_some (n : Nat) (text : PyStr) : cut (some n) text = text.take n := rfl

@[simp] theorem preview_some (value : Option PyStr) (length : Option Nat) :
    Column.preview ⟨some value, length⟩ = some (value.map (cut length)) := rfl

def SENTINELS : List PyStr := [DECRYPTION_FAILED_SENTINEL, REPO_DECRYPTION_FAILED_SENTINEL]

/-- The columns that an item stands for. -/
structure Reading where
  /-- Whether items of this kind have a flag. -/
  marks : Bool
  shows : List Column
  /-- The columns that are decrypted with them and not shown. -/
  along : List (Option (Option PyStr))

namespace Reading

variable (reading : Reading)

def Readable : Prop := ∀ column ∈ reading.shows, column.Readable

/-- No text to be shown is a sentinel. -/
def Plain : Prop :=
  ∀ column ∈ reading.shows, ∀ text, column.preview = some (some text) → text ∉ SENTINELS

end Reading

/-- The flag and the texts of an item say what became of its columns. -/
structure Faithful (reading : Reading) (failed : Bool) (texts : List (Option PyStr)) : Prop where
  flagged : failed = true ↔ ∃ column ∈ reading.shows, ¬ column.Readable
  shown : failed = false → texts.map some = reading.shows.map Column.preview
  unmarked : failed = false → ∀ text, some text ∈ texts → text ∉ SENTINELS

/-- What the columns have to be for that: there is a flag or no need for one, and nothing
else raises it. -/
structure Sound (reading : Reading) : Prop where
  marked : reading.marks = true ∨ reading.Readable
  along : reading.Readable → none ∉ reading.along
  plain : reading.Readable → reading.Plain

section Marking
variable {reading : Reading} {failed : Bool} {texts : List (Option PyStr)}

theorem not_readable_iff : (∃ column ∈ reading.shows, ¬ column.Readable) ↔ ¬ reading.Readable := by
  simp [Reading.Readable]

theorem mem_texts {text : PyStr} (shown : texts.map some = reading.shows.map Column.preview) :
    some text ∈ texts ↔ ∃ column ∈ reading.shows, column.preview = some (some text) := by
  rw [← List.mem_map_of_injective (Option.some_injective (Option PyStr)), shown, List.mem_map]

theorem plain_iff (shown : texts.map some = reading.shows.map Column.preview) :
    reading.Plain ↔ ∀ text, some text ∈ texts → text ∉ SENTINELS := by
  constructor
  · intro plain text mem
    obtain ⟨column, listed, preview⟩ := (mem_texts shown).mp mem
    exact plain column listed text preview
  · intro unmarked column listed text preview
    exact unmarked text ((mem_texts shown).mpr ⟨column, listed, preview⟩)

/-- An item without a flag that shows what is stored. -/
theorem faithful_iff_plain (readable : reading.Readable) (unflagged : failed = false)
    (shown : texts.map some = reading.shows.map Column.preview) :
    Faithful reading failed texts ↔ reading.Plain := by
  have sound : ¬ ∃ column ∈ reading.shows, ¬ column.Readable :=
    fun unreadable => not_readable_iff.mp unreadable readable
  rw [plain_iff shown]
  constructor
  · intro faithful
    exact faithful.unmarked unflagged
  · intro plain
    refine ⟨⟨fun flagged => ?_, fun unreadable => absurd unreadable sound⟩, fun _ => shown,
      fun _ => plain⟩
    rw [unflagged] at flagged
    cases flagged

theorem faithful_of_flagged (unreadable : ¬ reading.Readable) (flagged : failed = true) :
    Faithful reading failed texts := by
  refine ⟨iff_of_true flagged (not_readable_iff.mpr unreadable), ?_, ?_⟩
  · intro unflagged
    rw [flagged] at unflagged
    cases unflagged
  · intro unflagged
    rw [flagged] at unflagged
    cases unflagged

theorem not_faithful_of_flagged (readable : reading.Readable) (flagged : failed = true) :
    ¬ Faithful reading failed texts := by
  intro faithful
  exact not_readable_iff.mp (faithful.flagged.mp flagged) readable

theorem not_faithful_of_unflagged (unreadable : ¬ reading.Readable) (unflagged : failed = false) :
    ¬ Faithful reading failed texts := by
  intro faithful
  have flagged := faithful.flagged.mpr (not_readable_iff.mpr unreadable)
  rw [unflagged] at flagged
  cases flagged

/-- Items whose flag says whether their columns can be read. -/
theorem faithful_iff_of_marked (marks : reading.marks = true) (alone : reading.along = [])
    (flagged : failed = true ↔ ¬ reading.Readable)
    (shown : reading.Readable → texts.map some = reading.shows.map Column.preview) :
    Faithful reading failed texts ↔ Sound reading := by
  by_cases readable : reading.Readable
  · have unflagged : failed = false := by
      cases failed with
      | false => rfl
      | true => exact absurd readable (flagged.mp rfl)
    rw [faithful_iff_plain readable unflagged (shown readable)]
    constructor
    · intro plain
      exact ⟨Or.inl marks, fun _ => by rw [alone]; exact List.not_mem_nil, fun _ => plain⟩
    · intro sound
      exact sound.plain readable
  · refine iff_of_true (faithful_of_flagged readable (flagged.mpr readable)) ?_
    exact ⟨Or.inl marks, fun all => absurd all readable, fun all => absurd all readable⟩

/-- A column of a soft read: the value that is shown of it, and whether it is a sentinel. -/
def softColumn (soft : (Option PyStr × Bool) × Option Nat) : Column :=
  ⟨if soft.1.2 then none else some soft.1.1, soft.2⟩

/-- Items that have a flag for all of their soft columns. -/
theorem faithful_iff_of_soft (soft : List ((Option PyStr × Bool) × Option Nat))
    (marks : reading.marks = true) (alone : reading.along = [])
    (shows : reading.shows = soft.map softColumn) (flag : failed = soft.any (fun c => c.1.2))
    (shown : texts = soft.map (fun c => c.1.1.map (cut c.2))) :
    Faithful reading failed texts ↔ Sound reading := by
  have readable_iff : reading.Readable ↔ ∀ c ∈ soft, c.1.2 = false := by
    rw [Reading.Readable, shows, List.forall_mem_map]
    refine forall₂_congr fun c _ => ?_
    cases flag : c.1.2 <;> simp [softColumn, Column.Readable, flag]
  refine faithful_iff_of_marked marks alone ?_ fun readable => ?_
  · rw [readable_iff, flag]
    simp
  · rw [shown, shows, List.map_map, List.map_map]
    refine List.map_congr_left fun c mem => ?_
    have fine := readable_iff.mp readable c mem
    simp [softColumn, fine]

/-- Items without a flag, which show a sentinel for a column along with theirs. -/
theorem faithful_iff_of_unmarked (unmarked : reading.marks = false) (unflagged : failed = false)
    (shown : reading.Readable → none ∉ reading.along →
      texts.map some = reading.shows.map Column.preview)
    (sentinel : reading.Readable → none ∈ reading.along →
      ∃ text ∈ SENTINELS, some text ∈ texts) :
    Faithful reading failed texts ↔ Sound reading := by
  by_cases readable : reading.Readable
  · by_cases alone : none ∈ reading.along
    · obtain ⟨text, listed, mem⟩ := sentinel readable alone
      refine iff_of_false (fun faithful => faithful.unmarked unflagged text mem listed) ?_
      exact fun sound => sound.along readable alone
    · rw [faithful_iff_plain readable unflagged (shown readable alone)]
      constructor
      · intro plain
        exact ⟨Or.inr readable, fun _ => alone, fun _ => plain⟩
      · intro sound
        exact sound.plain readable
  · refine iff_of_false (not_faithful_of_unflagged readable unflagged) fun sound => ?_
    rcases sound.marked with marks | all
    · rw [unmarked] at marks
      cases marks
    · exact readable all

end Marking

/-- The tables of the user, with the columns and the table that only the search reads. -/
structure Database (V E : Type) where
  tables : Tables
  entryVector : EntryId → V
  indexedAt : EntryId → Option Timestamp
  conversationVector : ConversationId → V
  embeddings : Table EntryId E

section Reads
variable {V E : Type} (host : Host V E) (db : Database V E)

/-- What the search sees of the database. -/
def Database.store : Store V E where
  topics := db.tables.topics
  entries := db.tables.entries.mapRows (fun id row =>
    { toEntryRow := row, searchVector := db.entryVector id, indexedAt := db.indexedAt id })
  conversations := db.tables.conversations.mapRows (fun id row =>
    { toConversationRow := row, searchVector := db.conversationVector id })
  embeddings := db.embeddings

/-- What an item is about: the surface, and the row it was made from. -/
inductive Source
  /-- A hit of the search, whether the batch with its texts was answered, and its entry. -/
  | entryHit (fetched : Bool) (id : Option EntryId)
  | conversationHit (fetched : Bool) (id : Option ConversationId)
  | entry (id : EntryId)
  | entryDetail (id : EntryId)
  | conversation (previewed : Bool) (id : ConversationId)
  | message (id : ConversationId) (position : Nat)
  | topicEntry (id : EntryId)
  | timelineEntry
  | timelineConversation (id : Option ConversationId)
  | keyFact (id : EntryId)

/-- The text of two columns that are `NOT NULL`. -/
def plaintext (columns : Sealed) : Option (Option PyStr) :=
  (decryptSealed host.toRuntime host.cipher columns).toOption.map some

def storedContent (row : Option EntryRow) : Option (Option PyStr) :=
  row.bind (fun row => plaintext host row.content)

def storedReasoning (row : Option EntryRow) : Option (Option PyStr) :=
  row.bind (fun row =>
    (decryptContentField host.aes host.cipher row.reasoningEncrypted
      row.reasoningNonce).toOption)

def storedTitle (row : Option JournalTables.ConversationRow) : Option (Option PyStr) :=
  row.bind (fun row => plaintext host row.title)

def storedSummary (row : Option JournalTables.ConversationRow) : Option (Option PyStr) :=
  row.bind (fun row => plaintext host row.summary)

/-- An entry that is not deleted. -/
def activeEntry (id : EntryId) : Option EntryRow :=
  (db.tables.entries.get id).filter (fun row => row.deletedAt = none)

def messageAt (id : ConversationId) (position : Nat) : Option MessageRow :=
  (messagesOf db.tables.messages id).find? (fun row => row.position = position)

/-- What is left of the budget of a hit once its title is shown. -/
def summaryBudget (title : Option (Option PyStr)) : Nat :=
  MAX_SEARCH_CONTENT_CHARS - (title.join.getD []).length

/-- The columns of an item, from the database alone. -/
def Source.reading : Source → Reading
  | .entryHit fetched id =>
    let row := if fetched then id.bind (activeEntry db) else none
    ⟨true, [⟨storedContent host row, some MAX_SEARCH_CONTENT_CHARS⟩], [storedReasoning host row]⟩
  | .conversationHit fetched id =>
    let row := if fetched then id.bind db.tables.conversations.get else none
    let title := storedTitle host row
    ⟨true, [⟨title, some MAX_SEARCH_CONTENT_CHARS⟩,
      ⟨storedSummary host row, some (summaryBudget title)⟩], []⟩
  | .entry id =>
    let row := db.tables.entries.get id
    ⟨true, [⟨storedContent host row, none⟩], []⟩
  | .entryDetail id =>
    let row := db.tables.entries.get id
    ⟨true, [⟨storedContent host row, none⟩, ⟨storedReasoning host row, none⟩], []⟩
  | .conversation previewed id =>
    let row := db.tables.conversations.get id
    let length := if previewed then some WebReads.SUMMARY_PREVIEW_CHARS else none
    ⟨true, [⟨storedTitle host row, none⟩, ⟨storedSummary host row, length⟩], []⟩
  | .message id position =>
    let content := (messageAt db id position).bind (fun row => plaintext host row.content)
    ⟨true, [⟨content, none⟩], []⟩
  | .topicEntry id =>
    let row := db.tables.entries.get id
    ⟨false, [⟨storedContent host row, none⟩, ⟨storedReasoning host row, none⟩], []⟩
  | .timelineEntry => ⟨false, [], []⟩
  | .timelineConversation id =>
    ⟨false, [⟨storedTitle host (id.bind db.tables.conversations.get), none⟩], []⟩
  | .keyFact id =>
    let row := activeEntry db id
    ⟨false, [⟨storedContent host row, some MAX_SEARCH_CONTENT_CHARS⟩], [storedReasoning host row]⟩

def BRIEFING_KEY_FACTS_COUNT : Nat := 7

/-- `search_by_vector` without a floor and without filters. -/
def nearestRows (db : Store V E) (embedding : E) : List VectorRow :=
  db.embeddings.rows.filterMap (fun stored => (db.entries.get stored.1).bind (fun row =>
    (db.topics.get row.topicId).bind (fun topic =>
      if row.deletedAt = none then
        some ⟨some stored.1, topic.path, host.similarity stored.2 embedding, row.date.text⟩
      else none)))

/-- A fact of the briefing; the id of its entry is not in the response. -/
structure KeyFact where
  entryId : EntryId
  content : PyStr
  deriving DecidableEq

def factsOf (rawFacts : List VectorRow) (decrypted : EntryId → Option (PyStr × Option PyStr)) :
    List KeyFact :=
  rawFacts.filterMap (fun row => row.entryId.bind (fun id =>
    (decrypted id).map (fun texts => ⟨id, texts.1.take MAX_SEARCH_CONTENT_CHARS⟩)))

/-- The key facts of `journal_briefing`, for an embedding that was computed. -/
def keyFacts {G : Type} (plans : Plans) (faults : Faults) (embedding : E) :
    Search V E G (List KeyFact) := do
  let rawFacts ← onPostgresError [] (select faults.vector (fun db =>
    page (some BRIEFING_KEY_FACTS_COUNT) 0 (plans.vector.sort (nearestRows host db embedding))))
  let decrypted ← onPostgresError (fun _ => none)
    (getTexts host faults (rawFacts.filterMap VectorRow.entryId).dedup)
  return factsOf rawFacts decrypted

structure Presented where
  source : Source
  decryptionFailed : Bool
  texts : List (Option PyStr)

def Presented.Faithful (item : Presented) : Prop :=
  Markers.Faithful (item.source.reading host db) item.decryptionFailed item.texts

def ofHit (entries conversations : Bool) : Item → Presented
  | .entry _ _ id content failed => ⟨.entryHit entries id, failed, [some content]⟩
  | .conversation _ _ id title summary failed =>
    ⟨.conversationHit conversations id, failed, [some title, some summary]⟩

def ofEntry (item : WebReads.EntryItem) : Presented :=
  ⟨.entry item.id, item.decryptionFailed, [some item.content]⟩

def ofDetail (item : WebReads.EntryDetailResponse) : Presented :=
  ⟨.entryDetail item.id, item.decryptionFailed, [some item.content, item.reasoning]⟩

def ofConversation (previewed : Bool) (item : WebReads.ConversationItem) : Presented :=
  ⟨.conversation previewed item.id, item.decryptionFailed, [some item.title, some item.summary]⟩

def ofMessage (id : ConversationId) (item : WebReads.MessageItem) : Presented :=
  ⟨.message id item.position, item.decryptionFailed, [some item.content]⟩

def ofTopicEntry (entry : JournalRows.Entry) : Presented :=
  ⟨.topicEntry entry.id, false, [some entry.content, entry.reasoning]⟩

/-- The title of an entry is made from its topic and its date. -/
def ofTimeline (item : TimelineItem) : Presented :=
  match item.docType with
  | .entry => ⟨.timelineEntry, false, []⟩
  | .conversation => ⟨.timelineConversation item.conversationId, false, [some item.title]⟩

def ofKeyFact (fact : KeyFact) : Presented :=
  ⟨.keyFact fact.entryId, false, [some fact.content]⟩

/-- The items of the responses: those of the search, of the web API, and of the tools that
list entries. -/
inductive Shown : Presented → Prop
  | hit {plans : Plans} {faults : Faults} {embedding : Option E} {args : Args}
      {payload : Payload} {bounds : Bounds} {item : Item} {G : Type}
      {c : Conn (Store V E) G} (opened : c.status = .inTransaction) (store : c.store = db.store)
      (ran : ((runJournalSearch host plans faults embedding args : Search V E G _) c).1 =
        .ok payload)
      (valid : parseBounds host args = .ok bounds) (mem : item ∈ payload.results) :
      Shown (ofHit (entriesAnswered faults embedding) (conversationsAnswered faults embedding
        (mergedHits host plans db.store (heard faults embedding) args bounds)) item)
  | entry {args : Listing.EntryFilter}
      {s : Sorter (Listing.entryOrder (args.sort ≠ py "newest"))} {limit offset total : Nat}
      {items : List WebReads.EntryItem} {item : WebReads.EntryItem}
      (ran : WebReads.listEntries host.toRuntime host.cipher db.tables args s limit offset =
        .ok (items, total))
      (mem : item ∈ items) : Shown (ofEntry item)
  | entryDetail {id : EntryId} {item : WebReads.EntryDetailResponse}
      (ran : WebReads.getEntry host.toRuntime host.cipher db.tables id = some item) :
      Shown (ofDetail item)
  | conversation {s : Sorter Listing.conversationOrder} {topicPrefix : Option PyStr}
      {limit offset total : Nat} {items : List WebReads.ConversationItem}
      {item : WebReads.ConversationItem}
      (ran : WebReads.listConversations host.toRuntime host.cipher db.tables s topicPrefix limit
        offset = .ok (items, total))
      (mem : item ∈ items) : Shown (ofConversation true item)
  | conversationDetail {s : Sorter Listing.messageOrder} {id : ConversationId}
      {limit offset : Nat} {response : WebReads.ConversationDetailResponse}
      (ran : WebReads.getConversation host.toRuntime host.cipher db.tables s id limit offset =
        .ok response) : Shown (ofConversation false response.conversation)
  | message {s : Sorter Listing.messageOrder} {id : ConversationId} {limit offset : Nat}
      {response : WebReads.ConversationDetailResponse} {item : WebReads.MessageItem}
      (ran : WebReads.getConversation host.toRuntime host.cipher db.tables s id limit offset =
        .ok response)
      (mem : item ∈ response.messages) : Shown (ofMessage id item)
  | topicEntry {s : Sorter (Listing.entryOrder false)} {topic : PyStr} {limit offset total : Nat}
      {dateFrom dateTo : Option PyStr} {topicMeta : TopicMeta} {entries : List JournalRows.Entry}
      {entry : JournalRows.Entry}
      (ran : Listing.read host.toRuntime db.tables host.cipher s topic (some limit) dateFrom dateTo
        offset = .ok (topicMeta, entries, total))
      (mem : entry ∈ entries) : Shown (ofTopicEntry entry)
  | timeline {s : Sorter (Listing.timelineOrder host.toRuntime true)} {dateFrom dateTo : PyStr}
      {limit offset : Nat} {items : List TimelineItem} {item : TimelineItem}
      (ran : Listing.getByDateRange host.toRuntime db.tables (some host.cipher) dateFrom dateTo
        (some limit) true s offset true none = .ok items)
      (mem : item ∈ items) : Shown (ofTimeline item)
  | keyFact {plans : Plans} {faults : Faults} {embedding : E} {facts : List KeyFact}
      {fact : KeyFact} {G : Type} {c : Conn (Store V E) G} (opened : c.status = .inTransaction)
      (store : c.store = db.store)
      (ran : ((keyFacts host plans faults embedding : Search V E G _) c).1 = .ok facts)
      (mem : fact ∈ facts) : Shown (ofKeyFact fact)

end Reads

end Markers
