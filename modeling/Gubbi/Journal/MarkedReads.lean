import Gubbi.Journal.Markers
import Gubbi.Journal.Pagination

/-!
# Which reads mark what they show

Each read is followed to the row that an item of its was made from. An item is faithful
exactly when the columns of its row are sound for its surface.
-/

namespace Markers

open Text Cipher Queries JournalTables JournalRows JournalSearch SearchFailures SearchBatches
open Connections Ranking

section Columns
variable {V E : Type} {host : Host V E} {reading : Reading}

theorem plaintext_ok {columns : Sealed} {text : PyStr}
    (decrypts : decryptSealed host.toRuntime host.cipher columns = .ok text) :
    plaintext host columns = some (some text) := by
  rw [plaintext, decrypts]
  rfl

theorem plaintext_error {columns : Sealed} {e : DecryptionError}
    (fails : decryptSealed host.toRuntime host.cipher columns = .error e) :
    plaintext host columns = none := by
  rw [plaintext, fails]
  rfl

theorem sound_of_unreadable (marks : reading.marks = true) (unreadable : ¬ reading.Readable) :
    Sound reading :=
  ⟨Or.inl marks, fun all => absurd all unreadable, fun all => absurd all unreadable⟩

theorem sound_iff_plain (readable : reading.Readable) (along : none ∉ reading.along) :
    Sound reading ↔ reading.Plain :=
  ⟨fun sound => sound.plain readable,
    fun plain => ⟨Or.inr readable, fun _ => along, fun _ => plain⟩⟩

theorem readable_one {column : Column} {marks : Bool} {along : List (Option (Option PyStr))} :
    Reading.Readable ⟨marks, [column], along⟩ ↔ column.stored ≠ none := by
  simp [Reading.Readable, Column.Readable]

theorem readable_two {first second : Column} {marks : Bool}
    {along : List (Option (Option PyStr))} :
    Reading.Readable ⟨marks, [first, second], along⟩ ↔
      first.stored ≠ none ∧ second.stored ≠ none := by
  simp [Reading.Readable, Column.Readable]

theorem truncateTitleSummary_eq (title summary : PyStr) :
    truncateTitleSummary title summary = (title.take MAX_SEARCH_CONTENT_CHARS,
      summary.take (MAX_SEARCH_CONTENT_CHARS - title.length)) := by
  simp only [truncateTitleSummary]
  split
  · next fits =>
    rw [List.take_of_length_le (by omega), List.take_of_length_le (by omega)]
  · split
    · next full =>
      have spent : MAX_SEARCH_CONTENT_CHARS - title.length = 0 := by omega
      rw [spent, List.take_zero]
    · next room =>
      have whole : title.take MAX_SEARCH_CONTENT_CHARS = title :=
        List.take_of_length_le (by omega)
      rw [whole]

end Columns

section Rows
variable {db : Tables}

theorem get_of_entryRows {view : EntryView} (mem : view ∈ Listing.entryRows db) :
    db.entries.get view.id = some view.row := by
  obtain ⟨row, listed, rfl⟩ := List.mem_map.mp mem
  exact Table.get_eq_some_iff.mpr listed

theorem get_of_joinedEntryRows {view : EntryView} (mem : view ∈ Listing.joinedEntryRows db) :
    db.entries.get view.id = some view.row := by
  obtain ⟨row, listed, joined⟩ := List.mem_filterMap.mp mem
  obtain ⟨topic, _, rfl⟩ := Option.map_eq_some_iff.mp joined
  exact Table.get_eq_some_iff.mpr listed

theorem get_of_conversationViews {view : ConversationView}
    (mem : view ∈ Listing.conversationViews db) :
    db.conversations.get view.id = some view.row := by
  obtain ⟨row, listed, joined⟩ := List.mem_filterMap.mp mem
  obtain ⟨topic, _, rfl⟩ := Option.map_eq_some_iff.mp joined
  exact Table.get_eq_some_iff.mpr listed

theorem mem_of_fetch {c : Comparison EntryView} {rows : List EntryView} {s : Sorter c}
    {parts : List Listing.Part} {paged : Listing.Pagination} {counted : List (EntryView × Nat)}
    (fetched : Listing.fetch rows s parts paged = .ok counted) {row : EntryView × Nat}
    (mem : row ∈ counted) : row.1 ∈ rows := by
  unfold Listing.fetch at fetched
  dsimp only at fetched
  split at fetched
  · cases fetched
  · cases fetched
    obtain ⟨view, listed, rfl⟩ := List.mem_map.mp (mem_of_mem_page mem)
    exact List.mem_of_mem_filter ((s.perm _).mem_iff.mp listed)

variable {rt : Runtime} {cipher : ContentCipher}

theorem row_of_listEntries {args : Listing.EntryFilter}
    {s : Sorter (Listing.entryOrder (args.sort ≠ py "newest"))} {limit : Option Nat}
    {offset total : Nat} {rows : List ListedRow}
    (ran : Listing.listEntries rt db args s limit offset = .ok (rows, total)) {row : ListedRow}
    (mem : row ∈ rows) :
    ∃ view, db.entries.get view.id = some view.row ∧ listedRow view = .ok row := by
  unfold Listing.listEntries at ran
  split at ran
  · cases ran
  · dsimp only at ran
    split at ran
    · cases ran
    · next counted fetched =>
      obtain ⟨pair, listed, made⟩ := mem_countedPage ran mem
      exact ⟨pair.1, get_of_joinedEntryRows (mem_of_fetch fetched listed), made⟩

theorem row_of_read {s : Sorter (Listing.entryOrder false)} {topic : PyStr} {limit : Option Nat}
    {dateFrom dateTo : Option PyStr} {offset total : Nat} {topicMeta : TopicMeta}
    {entries : List JournalRows.Entry}
    (ran : Listing.read rt db cipher s topic limit dateFrom dateTo offset =
      .ok (topicMeta, entries, total)) {entry : JournalRows.Entry} (mem : entry ∈ entries) :
    ∃ view, db.entries.get view.id = some view.row ∧ buildEntry rt cipher view = .ok entry := by
  unfold Listing.read at ran
  split at ran
  · cases ran
  · dsimp only at ran
    split at ran
    · cases ran
    · next counted fetched =>
      split at ran
      · cases ran
      · next returned =>
        cases ran
        obtain ⟨pair, listed, made⟩ := mem_countedPage returned mem
        exact ⟨pair.1, get_of_entryRows (mem_of_fetch fetched listed), made⟩

theorem row_of_listConversations {s : Sorter Listing.conversationOrder}
    {topicPrefix : Option PyStr} {limit : Option Nat} {offset total : Nat} {softFail : Bool}
    {metas : List ConversationMeta}
    (ran : Listing.listConversations rt db cipher s topicPrefix limit offset softFail =
      .ok (metas, total)) {conversation : ConversationMeta} (mem : conversation ∈ metas) :
    ∃ view, db.conversations.get view.id = some view.row ∧
      rowToMeta rt cipher softFail view = .ok conversation := by
  unfold Listing.listConversations at ran
  split at ran
  · cases ran
  · dsimp only at ran
    obtain ⟨pair, listed, made⟩ := mem_countedPage ran mem
    refine ⟨pair.1, ?_, made⟩
    obtain ⟨view, sorted, rfl⟩ := List.mem_map.mp (mem_of_mem_page listed)
    exact get_of_conversationViews (List.mem_of_mem_filter ((s.perm _).mem_iff.mp sorted))

/-- Sorted messages of a conversation are at their positions. -/
theorem position_of_sorted {row : ConversationId × JournalTables.ConversationRow}
    (mem : row ∈ db.conversations.rows) (s : Sorter Listing.messageOrder) {i : Nat}
    {message : MessageRow} (found : (s.sort (messagesOf db.messages row.1))[i]? = some message) :
    message ∈ messagesOf db.messages row.1 ∧ message.position = i := by
  have perm := s.perm (messagesOf db.messages row.1)
  have positions : (s.sort (messagesOf db.messages row.1)).map MessageRow.position =
      List.range row.2.messageCount := by
    have antisymmetric : ∀ a b : Nat, a ≤ b → b ≤ a → a = b := by
      intro a b le ge
      omega
    refine List.Perm.eq_of_pairwise (fun a b _ _ => antisymmetric a b) ?_ ?_ ?_
    · refine List.pairwise_map.mpr ((s.sorted _).imp ?_)
      intro a b le
      exact Nat.isLE_compare.mp le
    · exact List.pairwise_lt_range.imp fun lt => Nat.le_of_lt lt
    · exact (perm.map MessageRow.position).trans (db.numbered row mem)
  refine ⟨perm.mem_iff.mp (List.mem_of_getElem? found), ?_⟩
  have indexed : ((s.sort (messagesOf db.messages row.1)).map MessageRow.position)[i]? =
      some message.position := by rw [List.getElem?_map, found, Option.map_some]
  rw [positions] at indexed
  obtain ⟨bound, value⟩ := List.getElem?_eq_some_iff.mp indexed
  rw [List.getElem_range] at value
  exact value.symm

end Rows

section Surfaces
variable {V E : Type} {host : Host V E} {db : Database V E}

/-- What a soft read of a column comes to. -/
theorem softColumn_sealed (columns : Sealed) (length : Option Nat) :
    (⟨plaintext host columns, length⟩ : Column) = softColumn
      (WebReads.decryptField host.toRuntime host.cipher (some columns.1) (some columns.2),
        length) := by
  cases decrypts : decryptSealed host.toRuntime host.cipher columns with
  | error e =>
    rw [plaintext_error decrypts, WebReads.decryptField_sealed_error decrypts]
    rfl
  | ok text =>
    rw [plaintext_ok decrypts, WebReads.decryptField_sealed_ok decrypts]
    rfl

theorem softColumn_reasoning (row : EntryRow) (length : Option Nat) :
    (⟨storedReasoning host (some row), length⟩ : Column) = softColumn
      (WebReads.decryptField host.toRuntime host.cipher row.reasoningEncrypted
        row.reasoningNonce, length) := by
  rw [storedReasoning, Option.bind_some, softColumn]
  cases decrypts : decryptContentField host.aes host.cipher row.reasoningEncrypted
      row.reasoningNonce with
  | error e =>
    rw [WebReads.decryptField_error decrypts]
    rfl
  | ok value =>
    rw [WebReads.decryptField_ok decrypts]
    rfl

/-- Both soft readers agree on a column that is `NOT NULL`. -/
theorem decryptField_eq_decryptSoft (columns : Sealed) :
    WebReads.decryptField host.toRuntime host.cipher (some columns.1) (some columns.2) =
      ((some (decryptSoft host.toRuntime host.cipher columns).1,
        (decryptSoft host.toRuntime host.cipher columns).2)) := by
  rw [decryptSoft]
  cases decrypts : decryptSealed host.toRuntime host.cipher columns with
  | error e => exact WebReads.decryptField_sealed_error decrypts
  | ok text => exact WebReads.decryptField_sealed_ok decrypts

theorem entry_iff {view : EntryView} {row : ListedRow}
    (found : db.tables.entries.get view.id = some view.row) (listed : listedRow view = .ok row) :
    (ofEntry (WebReads.rowToItem host.toRuntime host.cipher row)).Faithful host db ↔
      Sound (Source.reading host db (.entry view.id)) := by
  cases listed
  refine faithful_iff_of_soft [(WebReads.decryptField host.toRuntime host.cipher
    (some view.row.content.1) (some view.row.content.2), none)] rfl rfl ?_ ?_ ?_
  · simp [ofEntry, WebReads.rowToItem, Source.reading, found, storedContent, softColumn_sealed]
  · simp [ofEntry, WebReads.rowToItem]
  · simp [ofEntry, WebReads.rowToItem, decryptField_eq_decryptSoft, cut]

theorem entryDetail_iff {view : EntryView}
    (found : db.tables.entries.get view.id = some view.row) :
    (ofDetail (WebReads.rowToDetail host.toRuntime host.cipher view)).Faithful host db ↔
      Sound (Source.reading host db (.entryDetail view.id)) := by
  refine faithful_iff_of_soft [(WebReads.decryptField host.toRuntime host.cipher
    (some view.row.content.1) (some view.row.content.2), none),
    (WebReads.decryptField host.toRuntime host.cipher view.row.reasoningEncrypted
      view.row.reasoningNonce, none)] rfl rfl ?_ ?_ ?_
  · simp [ofDetail, WebReads.rowToDetail, Source.reading, found, storedContent,
      softColumn_sealed, softColumn_reasoning]
  · simp [ofDetail, WebReads.rowToDetail]
  · have whole : cut none = id := rfl
    simp [ofDetail, WebReads.rowToDetail, decryptField_eq_decryptSoft, whole]

theorem conversation_iff {view : ConversationView} {conversation : ConversationMeta}
    (found : db.tables.conversations.get view.id = some view.row)
    (made : rowToMeta host.toRuntime host.cipher true view = .ok conversation)
    (previewed : Bool) :
    (ofConversation previewed (WebReads.toItem conversation previewed)).Faithful host db ↔
      Sound (Source.reading host db (.conversation previewed conversation.id)) := by
  have built : ∃ topic, conversation =
      { id := view.id, source := view.row.source,
        title := (decryptSoft host.toRuntime host.cipher view.row.title).1, topic := topic,
        tags := view.row.tags, created := view.row.createdAt.date.text,
        updated := view.row.updatedAt.date.text,
        summary := (decryptSoft host.toRuntime host.cipher view.row.summary).1,
        participants := view.row.participants, messageCount := view.row.messageCount,
        decryptionFailed := (decryptSoft host.toRuntime host.cipher view.row.title).2 ||
          (decryptSoft host.toRuntime host.cipher view.row.summary).2 } := by
    simp only [rowToMeta, if_true, conversationMeta, checked] at made
    split at made
    · cases made
      exact ⟨_, rfl⟩
    · cases made
  obtain ⟨topic, rfl⟩ := built
  refine faithful_iff_of_soft [(WebReads.decryptField host.toRuntime host.cipher
    (some view.row.title.1) (some view.row.title.2), none),
    (WebReads.decryptField host.toRuntime host.cipher (some view.row.summary.1)
      (some view.row.summary.2), if previewed then some WebReads.SUMMARY_PREVIEW_CHARS else none)]
    rfl rfl ?_ ?_ ?_
  · simp [ofConversation, WebReads.toItem, Source.reading, found, storedTitle, storedSummary,
      softColumn_sealed]
  · simp [ofConversation, WebReads.toItem, decryptField_eq_decryptSoft]
  · cases previewed with
    | false => simp [ofConversation, WebReads.toItem, decryptField_eq_decryptSoft, cut]
    | true =>
      simp [ofConversation, WebReads.toItem, decryptField_eq_decryptSoft,
        WebReads.truncateSummary_eq, cut]

theorem message_iff {id : ConversationId} {row : MessageRow} {message : Message} {position : Nat}
    (found : messageAt db id position = some row)
    (made : messageFromRow host.toRuntime host.cipher true row = .ok message) :
    (ofMessage id (WebReads.toMessage message position)).Faithful host db ↔
      Sound (Source.reading host db (.message id position)) := by
  cases made
  refine faithful_iff_of_soft [(WebReads.decryptField host.toRuntime host.cipher
    (some row.content.1) (some row.content.2), none)] rfl rfl ?_ ?_ ?_
  · simp [ofMessage, WebReads.toMessage, Source.reading, found, softColumn_sealed]
  · simp [ofMessage, WebReads.toMessage, decryptField_eq_decryptSoft]
  · simp [ofMessage, WebReads.toMessage, decryptField_eq_decryptSoft, cut]

theorem topicEntry_iff {view : EntryView} {entry : JournalRows.Entry}
    (found : db.tables.entries.get view.id = some view.row)
    (made : buildEntry host.toRuntime host.cipher view = .ok entry) :
    (ofTopicEntry entry).Faithful host db ↔
      Sound (Source.reading host db (.topicEntry entry.id)) := by
  have built : ∃ texts : PyStr × Option PyStr, entry =
      { id := view.id, date := view.row.date.text, content := texts.1, reasoning := texts.2,
        conversationId := view.row.conversationId, tags := view.row.tags } ∧
      (∀ content reasoning,
        decryptSealed host.toRuntime host.cipher view.row.content = .ok content →
        decryptContentField host.aes host.cipher view.row.reasoningEncrypted
          view.row.reasoningNonce = .ok reasoning → texts = (content, reasoning)) := by
    simp only [buildEntry, checked] at made
    split at made
    · cases made
      refine ⟨_, rfl, fun content reasoning first second => ?_⟩
      simp only [entryTexts, first, second]
    · cases made
  obtain ⟨texts, rfl, texts_of_ok⟩ := built
  refine faithful_iff_of_unmarked rfl rfl (fun readable _ => ?_) (fun _ mem => ?_)
  · simp only [Source.reading, ofTopicEntry, readable_two, storedContent, storedReasoning, found,
      Option.bind_some] at readable
    obtain ⟨first, second⟩ := readable
    cases content : decryptSealed host.toRuntime host.cipher view.row.content with
    | error e => exact absurd (plaintext_error content) first
    | ok text =>
      cases reasoning : decryptContentField host.aes host.cipher view.row.reasoningEncrypted
          view.row.reasoningNonce with
      | error e =>
        rw [reasoning] at second
        exact absurd rfl second
      | ok value =>
        have whole : cut none = id := rfl
        simp [ofTopicEntry, Source.reading, storedContent, storedReasoning, found,
          plaintext_ok content, reasoning, texts_of_ok text value content reasoning,
          Except.toOption, whole]
  · cases mem

theorem timeline_iff {row : TimelineRow}
    (entries : row.docType = .conversation → ∃ id stored, row.convId = some id ∧
      db.tables.conversations.get id = some stored ∧ row.title = some stored.title) :
    (ofTimeline (toTitleOnlyRow host.toRuntime (some host.cipher) row)).Faithful host db ↔
      Sound (Source.reading host db
        (ofTimeline (toTitleOnlyRow host.toRuntime (some host.cipher) row)).source) := by
  cases docType : row.docType with
  | entry =>
    refine faithful_iff_of_unmarked ?_ ?_ ?_ ?_
    · simp [toTitleOnlyRow, docType, ofTimeline, Source.reading]
    · simp [toTitleOnlyRow, docType, ofTimeline]
    · simp [toTitleOnlyRow, docType, ofTimeline, Source.reading]
    · simp [toTitleOnlyRow, docType, ofTimeline, Source.reading]
  | conversation =>
    obtain ⟨id, stored, convId, found, title⟩ := entries docType
    refine faithful_iff_of_unmarked ?_ ?_ ?_ ?_
    · simp [toTitleOnlyRow, docType, ofTimeline, Source.reading]
    · simp [toTitleOnlyRow, docType, ofTimeline]
    · simp only [toTitleOnlyRow, docType, ofTimeline, Source.reading, convId, Option.bind_some,
        found, storedTitle, readable_one]
      intro readable _
      cases decrypts : decryptSealed host.toRuntime host.cipher stored.title with
      | error e => exact absurd (plaintext_error decrypts) readable
      | ok text =>
        simp [decryptConvTitleOrNone, title, decryptColumns,
          WebReads.decryptContentField_sealed, decrypts, plaintext_ok decrypts, Except.map, cut]
    · simp [toTitleOnlyRow, docType, ofTimeline, Source.reading]

/-- What `get_texts` returns of an entry. -/
def batchTexts (host : Host V E) (row : EntryRow) : PyStr × Option PyStr :=
  match entryTexts host.toRuntime host.cipher row with
  | .ok texts => texts
  | .error _ => (REPO_DECRYPTION_FAILED_SENTINEL, none)

theorem entryText_store (id : EntryId) :
    entryText host db.store id = (activeEntry db id).map (batchTexts host) := by
  rw [entryText, Database.store, Table.get_mapRows, activeEntry]
  cases db.tables.entries.get id with
  | none => rfl
  | some row =>
    simp only [Option.map_some, Option.filter_some]
    split
    · rfl
    · rfl

theorem titleSummary_store (id : ConversationId) :
    titleSummary host db.store id = (db.tables.conversations.get id).bind (fun row =>
      match decryptSealed host.toRuntime host.cipher row.title,
        decryptSealed host.toRuntime host.cipher row.summary with
      | .ok title, .ok summary => some (title, summary)
      | _, _ => none) := by
  rw [titleSummary, Database.store, Table.get_mapRows]
  cases db.tables.conversations.get id with
  | none => rfl
  | some row => rfl

/-- The texts of an entry, as its columns decrypt: the content and the reasoning with it. -/
theorem batchTexts_cases (host : Host V E) (row : EntryRow) :
    (storedContent host (some row) = none ∧
      batchTexts host row = (REPO_DECRYPTION_FAILED_SENTINEL, none)) ∨
    (∃ text, storedContent host (some row) = some (some text) ∧
      storedReasoning host (some row) = none ∧
      batchTexts host row = (REPO_DECRYPTION_FAILED_SENTINEL, none)) ∨
    ∃ text reasoning, storedContent host (some row) = some (some text) ∧
      storedReasoning host (some row) = some reasoning ∧
      batchTexts host row = (text, reasoning) := by
  unfold batchTexts entryTexts
  cases content : decryptSealed host.toRuntime host.cipher row.content with
  | error e => exact Or.inl ⟨plaintext_error content, rfl⟩
  | ok text =>
    cases reasoning : decryptContentField host.aes host.cipher row.reasoningEncrypted
        row.reasoningNonce with
    | error e =>
      refine Or.inr (Or.inl ⟨text, plaintext_ok content, ?_, rfl⟩)
      rw [storedReasoning, Option.bind_some, reasoning]
      rfl
    | ok value =>
      refine Or.inr (Or.inr ⟨text, value, plaintext_ok content, ?_, rfl⟩)
      rw [storedReasoning, Option.bind_some, reasoning]
      rfl

theorem sentinel_listed : REPO_DECRYPTION_FAILED_SENTINEL ∈ SENTINELS := by decide

theorem take_sentinel :
    REPO_DECRYPTION_FAILED_SENTINEL.take MAX_SEARCH_CONTENT_CHARS =
      REPO_DECRYPTION_FAILED_SENTINEL := List.take_of_length_le (by decide)

theorem entryHit_iff (hit : SearchResult) (fetched : Bool) (id : EntryId)
    {texts : Option (PyStr × Option PyStr)}
    (answered : texts = if fetched then entryText host db.store id else none) :
    (⟨.entryHit fetched (some id), (hydrateEntry hit texts).decryptionFailed,
      [some ((hydrateEntry hit texts).content.getD [])]⟩ : Presented).Faithful host db ↔
      Sound (Source.reading host db (.entryHit fetched (some id))) := by
  have rows : texts =
      (if fetched then activeEntry db id else none).map (batchTexts host) := by
    rw [answered, entryText_store]
    cases fetched <;> rfl
  rw [Presented.Faithful, Source.reading, Option.bind_some, rows]
  cases (if fetched then activeEntry db id else none) with
  | none =>
    have unreadable : ¬ Reading.Readable ⟨true, [⟨storedContent host none,
        some MAX_SEARCH_CONTENT_CHARS⟩], [storedReasoning host none]⟩ := by
      rw [readable_one]
      exact fun readable => readable rfl
    exact iff_of_true (faithful_of_flagged unreadable rfl) (sound_of_unreadable rfl unreadable)
  | some row =>
    rcases batchTexts_cases host row with
      ⟨content, shown⟩ | ⟨text, content, reasoning, shown⟩ |
        ⟨text, value, content, reasoning, shown⟩
    · have unreadable : ¬ Reading.Readable ⟨true, [⟨storedContent host (some row),
          some MAX_SEARCH_CONTENT_CHARS⟩], [storedReasoning host (some row)]⟩ := by
        rw [readable_one]
        exact fun readable => readable content
      refine iff_of_true (faithful_of_flagged unreadable ?_) (sound_of_unreadable rfl unreadable)
      simp [shown, hydrateEntry]
    · have readable : Reading.Readable ⟨true, [⟨storedContent host (some row),
          some MAX_SEARCH_CONTENT_CHARS⟩], [storedReasoning host (some row)]⟩ := by
        rw [readable_one, content]
        exact Option.some_ne_none _
      refine iff_of_false (not_faithful_of_flagged readable ?_) fun sound => ?_
      · simp [shown, hydrateEntry]
      · exact sound.along readable (by simp [reasoning])
    · have readable : Reading.Readable ⟨true, [⟨storedContent host (some row),
          some MAX_SEARCH_CONTENT_CHARS⟩], [storedReasoning host (some row)]⟩ := by
        rw [readable_one, content]
        exact Option.some_ne_none _
      by_cases sentinel : text = REPO_DECRYPTION_FAILED_SENTINEL
      · refine iff_of_false (not_faithful_of_flagged readable ?_) fun sound => ?_
        · simp [shown, hydrateEntry, sentinel]
        · refine sound.plain readable _ List.mem_cons_self REPO_DECRYPTION_FAILED_SENTINEL ?_
            sentinel_listed
          rw [content, preview_some, sentinel, Option.map_some, cut_some, take_sentinel]
      · rw [sound_iff_plain readable (by simp [reasoning])]
        refine faithful_iff_plain readable ?_ ?_
        · simp [shown, hydrateEntry, sentinel]
        · simp [shown, hydrateEntry, sentinel, content, truncateText]

theorem conversationHit_iff {hit : SearchResult} (unflagged : hit.decryptionFailed = false)
    (fetched : Bool) (id : ConversationId) {texts : Option (PyStr × PyStr)}
    (answered : texts = if fetched then titleSummary host db.store id else none) :
    (⟨.conversationHit fetched (some id), (hydrateConversation hit texts).decryptionFailed,
      [some ((hydrateConversation hit texts).title.getD []),
        some ((hydrateConversation hit texts).summary.getD [])]⟩ : Presented).Faithful host db ↔
      Sound (Source.reading host db (.conversationHit fetched (some id))) := by
  have rows : texts = (if fetched then db.tables.conversations.get id else none).bind (fun row =>
      match decryptSealed host.toRuntime host.cipher row.title,
        decryptSealed host.toRuntime host.cipher row.summary with
      | .ok title, .ok summary => some (title, summary)
      | _, _ => none) := by
    rw [answered, titleSummary_store]
    cases fetched <;> rfl
  rw [Presented.Faithful]
  simp only [Source.reading, Option.bind_some, rows]
  cases (if fetched then db.tables.conversations.get id else none) with
  | none =>
    refine faithful_iff_of_marked rfl rfl ?_ ?_
    · simp [hydrateConversation, readable_two, storedTitle]
    · simp [readable_two, storedTitle]
  | some row =>
    cases title : decryptSealed host.toRuntime host.cipher row.title with
    | error e =>
      refine faithful_iff_of_marked rfl rfl ?_ ?_
      · simp [hydrateConversation, readable_two, storedTitle, title, plaintext_error title]
      · simp [readable_two, storedTitle, plaintext_error title]
    | ok text =>
      cases summary : decryptSealed host.toRuntime host.cipher row.summary with
      | error e =>
        refine faithful_iff_of_marked rfl rfl ?_ ?_
        · simp [hydrateConversation, readable_two, storedSummary, title, summary,
            plaintext_error summary]
        · simp [readable_two, storedSummary, plaintext_error summary]
      | ok rest =>
        refine faithful_iff_of_marked rfl rfl ?_ ?_
        · simp [hydrateConversation, unflagged, readable_two, storedTitle, storedSummary, title,
            summary, plaintext_ok title, plaintext_ok summary]
        · simp [hydrateConversation, storedTitle, storedSummary, title, summary,
            plaintext_ok title, plaintext_ok summary, truncateTitleSummary_eq, summaryBudget]

theorem keyFact_iff {id : EntryId} {texts : PyStr × Option PyStr}
    (answered : entryText host db.store id = some texts) :
    (ofKeyFact ⟨id, texts.1.take MAX_SEARCH_CONTENT_CHARS⟩).Faithful host db ↔
      Sound (Source.reading host db (.keyFact id)) := by
  rw [entryText_store] at answered
  obtain ⟨row, active, rfl⟩ := Option.map_eq_some_iff.mp answered
  rw [Presented.Faithful]
  simp only [ofKeyFact, Source.reading, active]
  rcases batchTexts_cases host row with
    ⟨content, shown⟩ | ⟨text, content, reasoning, shown⟩ | ⟨text, value, content, reasoning, shown⟩
  · refine faithful_iff_of_unmarked rfl rfl ?_ ?_
    · simp [readable_one, content]
    · simp [readable_one, content]
  · refine faithful_iff_of_unmarked rfl rfl ?_ ?_
    · simp [reasoning]
    · intro _ _
      refine ⟨REPO_DECRYPTION_FAILED_SENTINEL, sentinel_listed, ?_⟩
      rw [shown, take_sentinel]
      exact List.mem_singleton_self _
  · refine faithful_iff_of_unmarked rfl rfl ?_ ?_
    · simp [content, shown]
    · simp [reasoning]

theorem hit_iff {plans : Plans} {faults : Faults} {embedding : Option E} {args : Args}
    {bounds : Bounds} {batches : Batches} {item : Item}
    (answers : Answers host db.store faults embedding
      (mergedHits host plans db.store (heard faults embedding) args bounds) batches)
    (mem : item ∈ (payloadOf args
      (mergedHits host plans db.store (heard faults embedding) args bounds) batches).results) :
    (ofHit (entriesAnswered faults embedding) (conversationsAnswered faults embedding
      (mergedHits host plans db.store (heard faults embedding) args bounds)) item).Faithful
        host db ↔
    Sound ((ofHit (entriesAnswered faults embedding) (conversationsAnswered faults embedding
      (mergedHits host plans db.store (heard faults embedding) args bounds)) item).source.reading
        host db) := by
  have located := located_mergedHits host plans db.store (heard faults embedding) args bounds
  obtain ⟨hit, kept, shown⟩ := (mem_results_buildPayload located).mp mem
  have merged := mem_of_mem_best kept
  rcases located hit merged with ⟨docType, id⟩ | ⟨docType, id⟩
  · obtain ⟨id, entryId⟩ := Option.isSome_iff_exists.mp id
    have answered := answers.entries id (mem_entryIds merged docType entryId)
    have filled : (hydrateEntry hit (batches.entries.bind fun texts => texts id)).entryId =
        some id := by
      rw [filled_hydrateEntry _]
      exact entryId
    rw [payloadItem, (filled_filledHit batches hit).docType, docType,
      filledHit_entry docType entryId] at shown
    cases shown
    simp only [ofHit, filled]
    exact entryHit_iff hit _ id answered
  · obtain ⟨id, conversationId⟩ := Option.isSome_iff_exists.mp id
    have answered := answers.conversations id (mem_conversationIds merged docType conversationId)
    have fts := (mem_mergedHits merged).resolve_right fun semantic => by
      rw [docType] at semantic
      cases semantic.2
    have filled : (hydrateConversation hit
        (batches.conversations.bind fun texts => texts id)).conversationId = some id := by
      rw [filled_hydrateConversation _]
      exact conversationId
    rw [payloadItem, (filled_filledHit batches hit).docType, docType,
      filledHit_conversation docType conversationId] at shown
    cases shown
    simp only [ofHit, filled]
    exact conversationHit_iff (hits_ftsHits fts).2 _ id answered

/-- What a rescued batch of entries returns for an id is stored. -/
theorem text_of_getTexts {G : Type} {faults : Faults} {ids : List EntryId}
    {decrypted : EntryId → Option (PyStr × Option PyStr)} {c c' : Conn (Store V E) G}
    (opened : c.status = .inTransaction)
    (ran : (onPostgresError (fun _ => none) (getTexts host faults ids) : Search V E G _) c =
      (.ok decrypted, c')) {id : EntryId} {texts : PyStr × Option PyStr}
    (found : decrypted id = some texts) : entryText host c.store id = some texts := by
  by_cases empty : ids = []
  · rw [getTexts, fetchBatch, if_pos empty] at ran
    cases ran
    cases found
  · rw [getTexts, fetchBatch, if_neg empty] at ran
    obtain ⟨rfl, _⟩ := rescued_select opened ran
    cases fault : faults.texts with
    | some e =>
      rw [fault] at found
      cases found
    | none =>
      rw [fault] at found
      simp only [Option.isNone_none, if_true] at found
      split at found
      · exact found
      · cases found

theorem texts_of_keyFacts {G : Type} {plans : Plans} {faults : Faults} {embedding : E}
    {facts : List KeyFact} {fact : KeyFact} {c : Conn (Store V E) G}
    (opened : c.status = .inTransaction) (store : c.store = db.store)
    (ran : ((keyFacts host plans faults embedding : Search V E G _) c).1 = .ok facts)
    (mem : fact ∈ facts) :
    ∃ texts, entryText host db.store fact.entryId = some texts ∧
      fact = ⟨fact.entryId, texts.1.take MAX_SEARCH_CONTENT_CHARS⟩ := by
  have whole : (keyFacts host plans faults embedding : Search V E G _) c =
    (.ok facts, ((keyFacts host plans faults embedding : Search V E G _) c).2) := Prod.ext ran rfl
  obtain ⟨rawFacts, between, first, rest⟩ := Transactions.bind_ok.mp whole
  obtain ⟨decrypted, after, second, returned⟩ := Transactions.bind_ok.mp rest
  obtain ⟨rfl, _⟩ := Transactions.pure_ok.mp returned
  obtain ⟨row, listed, made⟩ := List.mem_filterMap.mp mem
  obtain ⟨id, entryId, fact⟩ := Option.bind_eq_some_iff.mp made
  obtain ⟨texts, found, rfl⟩ := Option.map_eq_some_iff.mp fact
  obtain ⟨rows, same, status⟩ := rescued_select opened first
  cases vector : faults.vector with
  | some e =>
    rw [vector] at rows
    rw [rows] at listed
    cases listed
  | none =>
    rw [vector] at status
    refine ⟨texts, ?_, rfl⟩
    rw [← store, ← same]
    exact text_of_getTexts status second found

theorem timeline_row {s : Sorter (Listing.timelineOrder host.toRuntime true)}
    {dateFrom dateTo : PyStr} {limit offset : Nat} {items : List TimelineItem}
    (ran : Listing.getByDateRange host.toRuntime db.tables (some host.cipher) dateFrom dateTo
      (some limit) true s offset true none = .ok items) {item : TimelineItem} (mem : item ∈ items) :
    ∃ row : TimelineRow, item = toTitleOnlyRow host.toRuntime (some host.cipher) row ∧
      (row.docType = .conversation → ∃ id stored, row.convId = some id ∧
        db.tables.conversations.get id = some stored ∧ row.title = some stored.title) := by
  unfold Listing.getByDateRange at ran
  split at ran
  · cases ran
  · dsimp only at ran
    split at ran
    · cases ran
    · obtain ⟨row, paged, made⟩ := Fallible.exists_of_mem_mapM ran mem
      cases made
      refine ⟨row, rfl, fun docType => ?_⟩
      have listed := (s.perm _).mem_iff.mp (mem_of_mem_page paged)
      rcases List.mem_append.mp listed with entry | conversation
      · rw [Pagination.timelineEntries_docType entry] at docType
        cases docType
      · obtain ⟨stored, inside, joined⟩ := List.mem_filterMap.mp conversation
        obtain ⟨topic, _, _, rfl⟩ := join_eq_some.mp joined
        exact ⟨stored.1, stored.2, rfl, Table.get_eq_some_iff.mpr inside, rfl⟩

theorem detail_view {s : Sorter Listing.messageOrder} {id : ConversationId} {limit offset : Nat}
    {response : WebReads.ConversationDetailResponse}
    (ran : WebReads.getConversation host.toRuntime host.cipher db.tables s id limit offset =
      .ok response) :
    ∃ view conversation, view.id = id ∧ (view.id, view.row) ∈ db.tables.conversations.rows ∧
      rowToMeta host.toRuntime host.cipher true view = .ok conversation ∧
      response.conversation = WebReads.toItem conversation false ∧
      ∃ messages, (page (some limit) offset (s.sort (messagesOf db.tables.messages id))).mapM
          (messageFromRow host.toRuntime host.cipher true) = .ok messages ∧
        response.messages = messages.mapIdx
          (fun i message => WebReads.toMessage message (offset + i)) := by
  obtain ⟨found, read, rfl⟩ := Fallible.map_eq_ok.mp ran
  unfold Listing.readConversationByIdPaginated at read
  split at read
  · cases read
  · next view located =>
    obtain ⟨same, mem⟩ := Pagination.conversationView_mem located
    split at read
    · cases read
    · next conversation made =>
      dsimp only at read
      split at read
      · cases read
      · next messages decoded =>
        cases read
        exact ⟨view, conversation, same, mem, made, rfl, messages, decoded, rfl⟩

theorem messageAt_of_sorted {row : ConversationId × JournalTables.ConversationRow}
    (mem : row ∈ db.tables.conversations.rows) (s : Sorter Listing.messageOrder) {position : Nat}
    {message : MessageRow}
    (found : (s.sort (messagesOf db.tables.messages row.1))[position]? = some message) :
    messageAt db row.1 position = some message := by
  obtain ⟨listed, positioned⟩ := position_of_sorted mem s found
  refine find_of_only listed (decide_eq_true positioned) fun other inside same => ?_
  have nodup : ((messagesOf db.tables.messages row.1).map MessageRow.position).Nodup :=
    (db.tables.numbered row mem).nodup_iff.mpr List.nodup_range
  exact List.inj_on_of_nodup_map nodup inside listed
    ((of_decide_eq_true same).trans positioned.symm)

theorem message_row {s : Sorter Listing.messageOrder} {id : ConversationId} {limit offset : Nat}
    {response : WebReads.ConversationDetailResponse}
    (ran : WebReads.getConversation host.toRuntime host.cipher db.tables s id limit offset =
      .ok response) {item : WebReads.MessageItem} (mem : item ∈ response.messages) :
    ∃ row message position, messageAt db id position = some row ∧
      messageFromRow host.toRuntime host.cipher true row = .ok message ∧
      item = WebReads.toMessage message position := by
  obtain ⟨view, _, rfl, stored, _, _, messages, decoded, listed⟩ := detail_view ran
  rw [listed] at mem
  obtain ⟨i, bound, rfl⟩ := List.mem_mapIdx.mp mem
  obtain ⟨row, paged, made⟩ :=
    Fallible.getElem?_of_mapM decoded (List.getElem?_eq_getElem bound)
  refine ⟨row, messages[i], offset + i, messageAt_of_sorted stored s ?_, made, rfl⟩
  rw [page, List.getElem?_take] at paged
  split at paged
  · rwa [List.getElem?_drop] at paged
  · cases paged

/-- Whatever is stored and whatever can be decrypted of it, an item of a read is faithful
exactly when its surface has a flag or its columns decrypt, the columns decrypted with them
decrypt too, and none of its texts is a sentinel. -/
theorem marked_iff {item : Presented} (shown : Shown host db item) :
    item.Faithful host db ↔ Sound (item.source.reading host db) := by
  cases shown with
  | hit opened store ran valid mem =>
    obtain ⟨bounds, batches, bounded, rfl, answers⟩ := run_answers opened ran
    cases valid.symm.trans bounded
    rw [store] at answers mem
    exact hit_iff answers mem
  | entry ran mem =>
    obtain ⟨⟨rows, total⟩, read, same⟩ := Fallible.map_eq_ok.mp ran
    cases same
    obtain ⟨row, listed, rfl⟩ := List.mem_map.mp mem
    obtain ⟨view, found, made⟩ := row_of_listEntries read listed
    cases made
    exact entry_iff found rfl
  | entryDetail ran =>
    obtain ⟨view, found, rfl⟩ := Option.map_eq_some_iff.mp ran
    obtain ⟨row, stored, joined⟩ := Option.bind_eq_some_iff.mp found
    split at joined
    · obtain ⟨topic, _, rfl⟩ := Option.map_eq_some_iff.mp joined
      exact entryDetail_iff stored
    · cases joined
  | conversation ran mem =>
    obtain ⟨⟨metas, total⟩, read, same⟩ := Fallible.map_eq_ok.mp ran
    cases same
    obtain ⟨conversation, listed, rfl⟩ := List.mem_map.mp mem
    obtain ⟨view, found, made⟩ := row_of_listConversations read listed
    exact conversation_iff found made true
  | conversationDetail ran =>
    obtain ⟨view, conversation, _, stored, made, same, _⟩ := detail_view ran
    rw [same]
    exact conversation_iff (Table.get_eq_some_iff.mpr stored) made false
  | message ran mem =>
    obtain ⟨row, message, position, found, made, rfl⟩ := message_row ran mem
    exact message_iff found made
  | topicEntry ran mem =>
    obtain ⟨view, found, made⟩ := row_of_read ran mem
    exact topicEntry_iff found made
  | timeline ran mem =>
    obtain ⟨row, rfl, conversations⟩ := timeline_row ran mem
    exact timeline_iff conversations
  | keyFact opened store ran mem =>
    obtain ⟨texts, answered, same⟩ := texts_of_keyFacts opened store ran mem
    rw [same]
    exact keyFact_iff answered

end Surfaces

/-- The tables of the sample, and an embedding of an entry that is not linked. -/
def sampleDatabase : Database Unit Unit where
  tables := Listing.sampleTables
  entryVector _ := ()
  indexedAt _ := none
  conversationVector _ := ()
  embeddings := ⟨[(4, ())], by decide⟩

def sampleView : EntryView := ⟨4, Listing.sampleEntry none, some (py "work"), none⟩

theorem marked_iff_detail :
    (ofDetail (WebReads.rowToDetail sampleHost.toRuntime sampleHost.cipher sampleView)).Faithful
        sampleHost sampleDatabase ↔
      Sound (Source.reading sampleHost sampleDatabase (.entryDetail 4)) :=
  marked_iff (Shown.entryDetail (rfl : WebReads.getEntry sampleHost.toRuntime sampleHost.cipher
    sampleDatabase.tables 4 = some (WebReads.rowToDetail sampleHost.toRuntime sampleHost.cipher
      sampleView)))

/-- An entry whose nonce was lost. -/
def brokenEntry : EntryRow := { Listing.sampleEntry none with content := ([], []) }

def brokenDatabase : Database Unit Unit :=
  { sampleDatabase with
    tables :=
      { Listing.sampleTables with
        entries := ⟨[(4, brokenEntry)], by decide⟩
        entryTopics := by decide } }

/-- The briefing has the sentinel of the repository for a fact. -/
theorem briefing_shows_sentinel :
    Shown sampleHost brokenDatabase (ofKeyFact ⟨4, REPO_DECRYPTION_FAILED_SENTINEL⟩) ∧
      ¬ (ofKeyFact ⟨4, REPO_DECRYPTION_FAILED_SENTINEL⟩).Faithful sampleHost brokenDatabase := by
  have ran : ((keyFacts sampleHost samplePlans Faults.none () : Search Unit Unit Unit _)
      ⟨brokenDatabase.store, (), .inTransaction⟩).1 =
        .ok [⟨4, REPO_DECRYPTION_FAILED_SENTINEL⟩] := by decide +kernel
  refine ⟨Shown.keyFact rfl rfl ran List.mem_cons_self, fun faithful => ?_⟩
  exact faithful.unmarked rfl _ List.mem_cons_self sentinel_listed

end Markers
