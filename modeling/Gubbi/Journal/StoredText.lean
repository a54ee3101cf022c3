import Gubbi.Journal.Writers

/-!
# Stored texts

The three tools filter what they store, and a text that is put together from filtered
paragraphs needs no filter of its own: the patterns do not reach over white space. The
PATCH, the ingest endpoint and the extraction worker store their texts as they came, so
the tables stay clean exactly as long as those texts are clean.
-/

namespace StoredText

open Text Validation JournalEntries JournalConversations JournalWriters Replay
open JournalTables (Date)

section Texts
variable {words : Words} {a b text : PyStr}

theorem cleanText_nil : CleanText words [] :=
  ⟨rfl, rejectToolCallSyntax_of_absent List.not_mem_nil⟩

theorem mem_of_mem_strip {c : CodePoint} (mem : c ∈ strip text) : c ∈ text := by
  have inside := (List.dropWhile_suffix isSpace).subset (List.mem_reverse.mp mem)
  exact (List.dropWhile_suffix isSpace).subset (List.mem_reverse.mp inside)

theorem cleanText_strip (clean : CleanText words text) : CleanText words (strip text) := by
  refine ⟨List.any_eq_false.mpr fun c mem => ?_, rejectToolCallSyntax_strip.mpr clean.2⟩
  exact List.any_eq_false.mp clean.1 c (mem_of_mem_strip mem)

/-- Two paragraphs with an empty line between them. -/
theorem cleanText_paragraphs (cleanA : CleanText words a) (cleanB : CleanText words b) :
    CleanText words (a ++ py "\n\n" ++ b) := by
  constructor
  · rw [List.any_append, List.any_append, cleanA.1, cleanB.1]
    decide
  · have feed : a ++ py "\n\n" ++ b = a ++ ofChar '\n' :: ([] ++ ofChar '\n' :: b) :=
      List.append_assoc _ _ _
    have space : isSpace (ofChar '\n') = true := by decide
    rw [feed, rejectToolCallSyntax_append space, rejectToolCallSyntax_append space]
    exact ⟨cleanA.2, cleanText_nil.2, cleanB.2⟩

theorem cleanText_joinParagraphs (cleanA : CleanText words a) (cleanB : CleanText words b) :
    CleanText words (joinParagraphs a b) :=
  cleanText_strip (cleanText_paragraphs cleanA cleanB)

theorem titleChar_plain {c : CodePoint} (h : isTitleChar c = true) :
    isControlChar c = false ∧ c ≠ ofChar '<' := by
  have value : (ofChar '<').val = 0x3c ∧ (ofChar ' ').val = 0x20 ∧ (ofChar '_').val = 0x5f ∧
      (ofChar '-').val = 0x2d := by decide
  simp only [isTitleChar, isAlnum, isUpper, isLower, isDigit, Bool.or_eq_true, Bool.and_eq_true,
    decide_eq_true_eq, Fin.ext_iff, value] at h
  simp only [isControlChar, Bool.or_eq_false_iff, Bool.and_eq_false_iff, decide_eq_false_iff_not,
    ne_eq, Fin.ext_iff, value]
  omega

/-- The title of a linked entry is plain, so its content is as clean as the summary. -/
theorem cleanText_linkedContent {title summary : PyStr}
    (plain : ∀ c ∈ title, isTitleChar c = true) (clean : CleanText words summary) :
    CleanText words (linkedContent title summary) := by
  have head : CleanText words (py "Conversation saved: " ++ title) := by
    constructor
    · rw [List.any_append, Bool.or_eq_false_iff]
      refine ⟨by decide, List.any_eq_false.mpr fun c mem => ?_⟩
      rw [(titleChar_plain (plain c mem)).1]
      exact Bool.false_ne_true
    · refine rejectToolCallSyntax_of_absent fun mem => ?_
      rcases List.mem_append.mp mem with mem | mem
      · exact absurd mem (by decide)
      · exact (titleChar_plain (plain _ mem)).2 rfl
  exact cleanText_paragraphs head clean

end Texts

section Tables
variable {E : Type} {words : Words}

def CleanEntry (words : Words) (entry : Entry) : Prop :=
  CleanText words entry.content ∧ ∀ reasoning ∈ entry.reasoning, CleanText words reasoning

def CleanEntries (words : Words) (entries : Table EntryId Entry) : Prop :=
  ∀ id entry, entries.get id = some entry → CleanEntry words entry

/-- No content, reasoning or message holds what the filters are against; a deleted entry
counts as well. -/
structure CleanTables (words : Words) (db : JournalDb E) : Prop where
  entries : CleanEntries words db.journal.entries
  messages : ∀ row ∈ db.messages, CleanText words row.content

theorem cleanEntries_put {entries : Table EntryId Entry} {id : EntryId} {entry : Entry}
    (clean : CleanEntries words entries) :
    CleanEntries words (entries.put id entry) ↔ CleanEntry words entry :=
  Table.forall_get_put clean

theorem cleanEntry_update {entry : Entry} {content reasoning : Option PyStr} {mode : Mode}
    {date : Option PyStr} {tags : Option (List PyStr)} (clean : CleanEntry words entry)
    (newContent : ∀ text ∈ content, CleanText words text)
    (newReasoning : ∀ text ∈ reasoning, CleanText words text) :
    CleanEntry words (entry.update content reasoning mode date tags) := by
  constructor
  · cases content with
    | none => exact clean.1
    | some text =>
      cases mode with
      | replace => exact newContent text rfl
      | append => exact cleanText_joinParagraphs clean.1 (newContent text rfl)
  · cases reasoning with
    | none => exact clean.2
    | some text =>
      intro stored hstored
      cases hstored
      unfold JournalEntries.newReasoning
      split
      · next old _ _ =>
        exact cleanText_joinParagraphs (clean.2 _ ‹_›) (newReasoning text rfl)
      · exact newReasoning text rfl

theorem cleanEntry_replace_iff {entry : Entry} {content reasoning : Option PyStr}
    {date : Option PyStr} {tags : Option (List PyStr)} (clean : CleanEntry words entry) :
    CleanEntry words (entry.update content reasoning .replace date tags) ↔
      ∀ text ∈ content.toList ++ reasoning.toList, CleanText words text := by
  simp only [List.mem_append, Option.mem_toList]
  constructor
  · rintro ⟨newContent, newReasoning⟩ text (given | given)
    · cases given
      exact newContent
    · cases given
      exact newReasoning text rfl
  · intro all
    exact cleanEntry_update clean (fun text given => all text (Or.inl given))
      (fun text given => all text (Or.inr given))

end Tables

section Repositories
variable {E : Type} {host : Host} {db db' : JournalDb E}

theorem appendRow_ok {topic content : PyStr} {reasoning : Option PyStr} {tags : List PyStr}
    {date : Option PyStr} {today : Date} :
    appendRow host db topic content reasoning tags date today = .ok db' ↔
      (∃ id, getId host db topic = .ok id) ∧
      ∃ bound, bindEntry host content reasoning tags date today = .ok bound ∧
        db' = { db with
          journal := append db.journal db.journal.entries.freshKey content reasoning tags
            bound.text } := by
  unfold appendRow
  simp only [Fallible.bind_eq_ok]
  constructor
  · rintro ⟨id, found, bound, columns, written⟩
    cases written
    exact ⟨⟨id, found⟩, bound, columns, rfl⟩
  · rintro ⟨⟨id, found⟩, bound, columns, rfl⟩
    exact ⟨id, found, bound, columns, rfl⟩

/-- A new row adds its texts to the others. -/
theorem clean_appendRow {words : Words} {topic content : PyStr} {reasoning : Option PyStr}
    {tags : List PyStr} {date : Option PyStr} {today : Date}
    (ran : appendRow host db topic content reasoning tags date today = .ok db') :
    CleanTables words db' ↔
      CleanTables words db ∧ ∀ text ∈ content :: reasoning.toList, CleanText words text := by
  obtain ⟨_, bound, _, rfl⟩ := appendRow_ok.mp ran
  rw [List.forall_mem_cons]
  constructor
  · intro after
    have old : CleanEntries words db.journal.entries := fun id entry hentry =>
      after.entries id entry (Table.get_put_of_absent _ (Table.get_freshKey _) hentry)
    obtain ⟨stored, more⟩ := (cleanEntries_put old).mp after.entries
    exact ⟨⟨old, after.messages⟩, stored, fun text mem => more text (Option.mem_toList.mp mem)⟩
  · rintro ⟨clean, stored, more⟩
    refine ⟨(cleanEntries_put clean.entries).mpr ⟨stored, fun text given => ?_⟩, clean.messages⟩
    exact more text (Option.mem_toList.mpr given)

theorem updateRow_ok {id : EntryId} {content reasoning : Option PyStr} {mode : Mode}
    {date : Option PyStr} {tags : Option (List PyStr)} :
    updateRow host db id content reasoning mode date tags = .ok db' ↔
      ∃ entry bound, active db.journal id = some entry ∧
        bindUpdate host entry content reasoning mode date tags = .ok bound ∧
        db' = { db with
          journal :=
            { entries := db.journal.entries.put id
                (entry.update content reasoning mode (bound.map Date.text) tags)
              embeddings := if content.isSome || reasoning.isSome then
                db.journal.embeddings.erase id else db.journal.embeddings } } := by
  unfold updateRow
  cases hactive : active db.journal id with
  | none => simp
  | some entry =>
    simp only
    cases columns : bindUpdate host entry content reasoning mode date tags with
    | error e =>
      constructor
      · intro h
        cases h
      · rintro ⟨_, bound, same, columns', _⟩
        cases same
        cases columns.symm.trans columns'
    | ok bound =>
      simp only [JournalEntries.update, hactive, Option.map_some, Option.getD_some]
      constructor
      · intro h
        cases h
        exact ⟨entry, bound, rfl, columns, rfl⟩
      · rintro ⟨_, _, same, columns', rfl⟩
        cases same
        cases columns.symm.trans columns'
        rfl

theorem clean_updateRow {words : Words} {id : EntryId} {content reasoning : Option PyStr}
    {mode : Mode} {date : Option PyStr} {tags : Option (List PyStr)}
    (clean : CleanTables words db) (newContent : ∀ text ∈ content, CleanText words text)
    (newReasoning : ∀ text ∈ reasoning, CleanText words text)
    (ran : updateRow host db id content reasoning mode date tags = .ok db') :
    CleanTables words db' := by
  obtain ⟨entry, bound, hactive, _, rfl⟩ := updateRow_ok.mp ran
  have old := clean.entries id entry (active_eq_some.mp hactive).1
  exact ⟨(cleanEntries_put clean.entries).mpr (cleanEntry_update old newContent newReasoning),
    clean.messages⟩

/-- The linked entry takes the title and the summary. -/
theorem cleanEntries_upsertLinkedEntry {words : Words} {journal : Db E}
    {conversationId : ConversationId} {title summary date : PyStr} {newId : EntryId}
    (clean : CleanEntries words journal.entries)
    (linked : CleanText words (linkedContent title summary)) :
    CleanEntries words
      (upsertLinkedEntry journal conversationId title summary date newId).1.entries := by
  have fresh : ∀ {entry : Entry}, entry.content = linkedContent title summary →
      entry.reasoning = none → CleanEntry words entry := by
    intro entry hcontent hreasoning
    refine ⟨hcontent ▸ linked, ?_⟩
    rw [hreasoning]
    intro text given
    cases given
  unfold upsertLinkedEntry
  split
  · exact Table.forall_get_modify clean fun _ _ => fresh rfl rfl
  · exact (cleanEntries_put clean).mpr (fresh rfl rfl)

theorem forall_messageRows {p : PyStr → Prop} {id : ConversationId} {messages : List Message} :
    (∀ row ∈ messageRows id messages, p row.content) ↔ ∀ m ∈ messages, p m.content := by
  constructor
  · intro all m mem
    obtain ⟨position, inside⟩ := List.mem_iff_getElem?.mp mem
    exact all _ (List.mem_map.mpr ⟨(m, position), List.mem_zipIdx_iff_getElem?.mpr inside, rfl⟩)
  · intro all row mem
    obtain ⟨m, inside, rfl⟩ := List.mem_map.mp mem
    exact all m.1 (List.fst_mem_of_mem_zipIdx inside)

/-- A save replaces the messages of its row, and its linked entry is clean. -/
theorem clean_saveConversation {words : Words} {topic title summary source date : PyStr}
    {messages : List Message} {tags : List PyStr} {id : ConversationId}
    (clean : CleanTables words db) (cleanSummary : CleanText words summary)
    (ran : saveConversation db topic title messages summary source tags date = .ok (db', id)) :
    CleanTables words db' ↔ ∀ m ∈ messages, CleanText words m.content := by
  unfold saveConversation at ran
  split at ran
  · cases ran
  · next plain hplain =>
    split at ran
    · cases ran
    · cases ran
      constructor
      · intro after
        exact forall_messageRows.mp fun row mem =>
          after.messages row (List.mem_append_right _ mem)
      · intro new
        refine ⟨cleanEntries_upsertLinkedEntry clean.entries
          (cleanText_linkedContent (titleChars_of_ok hplain) cleanSummary), fun row mem => ?_⟩
        rcases List.mem_append.mp mem with kept | written
        · exact clean.messages row (List.mem_of_mem_filter kept)
        · exact forall_messageRows.mpr new row written

theorem saveRows_ok {topic title summary source : PyStr} {messages : List Message}
    {tags : List PyStr} {date : Option PyStr} {today : Date}
    (ran : saveRows host db topic title messages summary source tags date today = .ok db') :
    ∃ resolved id, saveConversation db topic title messages summary source tags resolved =
      .ok (db', id) := by
  obtain ⟨_, _, h1⟩ := Fallible.bind_eq_ok.mp ran
  obtain ⟨_, _, h2⟩ := Fallible.bind_eq_ok.mp h1
  obtain ⟨_, _, h3⟩ := Fallible.bind_eq_ok.mp h2
  obtain ⟨resolved, _, h4⟩ := Fallible.bind_eq_ok.mp h3
  obtain ⟨_, _, h5⟩ := Fallible.bind_eq_ok.mp h4
  obtain ⟨⟨saved, id⟩, hsaved, h6⟩ := Fallible.bind_eq_ok.mp h5
  cases h6
  exact ⟨resolved.text, id, Fallible.mapError_eq_ok.mp hsaved⟩

end Repositories

section Tools
variable {E : Type} {host : Host} {db db' : JournalDb E} {text filtered : PyStr}

theorem rejectSyntax_ok (h : rejectSyntax host text = .ok filtered) :
    filtered = text ∧ rejectToolCallSyntax host.words text = .ok () := by
  obtain ⟨⟨⟩, accepted, rfl⟩ := Fallible.map_eq_ok.mp h
  exact ⟨rfl, Fallible.mapError_eq_ok.mp accepted⟩

theorem clean_filterReasoning (h : filterReasoning host text = .ok filtered) :
    CleanText host.words filtered := by
  obtain ⟨rfl, accepted⟩ := rejectSyntax_ok h
  exact ⟨sanitizeFreetext_any, accepted⟩

theorem clean_filterContent (h : filterContent host text = .ok filtered) :
    CleanText host.words filtered := by
  unfold filterContent at h
  split at h
  · cases h
  · exact clean_filterReasoning h

theorem clean_updateContent {content new : Option PyStr}
    (h : updateContent host content = .ok new) : ∀ text ∈ new, CleanText host.words text := by
  cases content with
  | none =>
    cases h
    exact fun text given => nomatch given
  | some content =>
    obtain ⟨_, _, h1⟩ := Fallible.bind_eq_ok.mp h
    obtain ⟨filtered, accepted, h2⟩ := Fallible.bind_eq_ok.mp h1
    cases h2
    intro text given
    cases given
    exact clean_filterContent accepted

theorem clean_updateReasoning {reasoning new : Option PyStr}
    (h : updateReasoning host reasoning = .ok new) : ∀ text ∈ new, CleanText host.words text := by
  cases reasoning with
  | none =>
    cases h
    exact fun text given => nomatch given
  | some reasoning =>
    obtain ⟨_, _, h1⟩ := Fallible.bind_eq_ok.mp h
    obtain ⟨filtered, accepted, h2⟩ := Fallible.bind_eq_ok.mp h1
    cases h2
    intro text given
    split at given
    · cases given
    · cases given
      exact clean_filterReasoning accepted

theorem clean_appendReasoning {reasoning new : Option PyStr}
    (h : appendReasoning host reasoning = .ok new) : ∀ text ∈ new, CleanText host.words text := by
  intro text given
  match reasoning with
  | none =>
    cases h
    cases given
  | some [] =>
    cases h
    cases given
    exact cleanText_nil
  | some (c :: rest) =>
    obtain ⟨filtered, accepted, rfl⟩ := Fallible.map_eq_ok.mp h
    cases given
    exact clean_filterReasoning accepted

theorem clean_journalAppendEntry {topic content : PyStr} {reasoning : Option PyStr}
    {tags : List PyStr} {date : Option PyStr} {today : Date} (clean : CleanTables host.words db)
    (ran : journalAppendEntry host db topic content reasoning tags date today = .ok db') :
    CleanTables host.words db' := by
  obtain ⟨path, _, h1⟩ := Fallible.bind_eq_ok.mp ran
  obtain ⟨_, _, h2⟩ := Fallible.bind_eq_ok.mp h1
  obtain ⟨_, _, h3⟩ := Fallible.bind_eq_ok.mp h2
  obtain ⟨filtered, accepted, h4⟩ := Fallible.bind_eq_ok.mp h3
  obtain ⟨kept, hkept, h5⟩ := Fallible.bind_eq_ok.mp h4
  obtain ⟨_, _, h6⟩ := Fallible.bind_eq_ok.mp h5
  refine (clean_appendRow (Fallible.mapError_eq_ok.mp h6)).mpr ⟨clean, ?_⟩
  refine List.forall_mem_cons.mpr ⟨clean_filterContent accepted, fun text given => ?_⟩
  exact clean_appendReasoning hkept text (Option.mem_toList.mp given)

theorem clean_journalUpdateEntry {id : EntryId} {content reasoning : Option PyStr} {mode : Mode}
    {date : Option PyStr} {tags : Option (List PyStr)} (clean : CleanTables host.words db)
    (ran : journalUpdateEntry host db id content reasoning mode date tags = .ok db') :
    CleanTables host.words db' := by
  obtain ⟨newContent, hcontent, h1⟩ := Fallible.bind_eq_ok.mp ran
  obtain ⟨newReasoning, hreasoning, h2⟩ := Fallible.bind_eq_ok.mp h1
  obtain ⟨_, _, h3⟩ := Fallible.bind_eq_ok.mp h2
  split at h3
  · cases h3
  · exact clean_updateRow clean (clean_updateContent hcontent) (clean_updateReasoning hreasoning)
      (Fallible.mapError_eq_ok.mp h3)

/-- A message is sanitised and cut before it is looked at. -/
theorem clean_parsedMessages {messages : List MessageInput} {checked : List Unit}
    (h : (parsedMessages host messages).mapM (rejectMessage host) = .ok checked) :
    ∀ m ∈ parsedMessages host messages, CleanText host.words m.content := by
  intro m mem
  have accepted : rejectToolCallSyntax host.words m.content = .ok () := by
    obtain ⟨⟨⟩, hm⟩ := Fallible.ok_of_mem_mapM h mem
    exact Fallible.mapError_eq_ok.mp hm
  refine ⟨?_, accepted⟩
  obtain ⟨input, _, hinput⟩ := List.mem_filterMap.mp mem
  obtain ⟨role, _, hrole⟩ := Option.bind_eq_some_iff.mp hinput
  split at hrole
  · cases hrole
  · cases hrole
    exact List.any_eq_false.mpr fun c inside =>
      List.any_eq_false.mp sanitizeFreetext_any c (List.mem_of_mem_take inside)

theorem clean_journalSaveConversation {topic title summary source : PyStr}
    {messages : List MessageInput} {tags : List PyStr} {date : Option PyStr} {today : Date}
    (clean : CleanTables host.words db)
    (ran : journalSaveConversation host db topic title messages summary source tags date today =
      .ok db') : CleanTables host.words db' := by
  obtain ⟨path, _, h1⟩ := Fallible.bind_eq_ok.mp ran
  obtain ⟨plain, _, h2⟩ := Fallible.bind_eq_ok.mp h1
  obtain ⟨filtered, accepted, h3⟩ := Fallible.bind_eq_ok.mp h2
  obtain ⟨_, _, h4⟩ := Fallible.bind_eq_ok.mp h3
  split at h4
  · cases h4
  · obtain ⟨checked, hchecked, h5⟩ := Fallible.bind_eq_ok.mp h4
    split at h5
    · cases h5
    · obtain ⟨date, id, saved⟩ := saveRows_ok (Fallible.mapError_eq_ok.mp h5)
      have cleanSummary : CleanText host.words filtered := clean_filterReasoning accepted
      exact (clean_saveConversation clean cleanSummary saved).mpr (clean_parsedMessages hchecked)

end Tools

section Unfiltered
variable {E : Type} (host : Host)

/-- The checks that stand before a write without a filter are all passed. -/
def Accepted (db : JournalDb E) : Write → Prop
  | .patch id body =>
    (∃ entry ∈ active db.journal id, (bindUpdate host entry body.content body.reasoning .replace
      body.date body.tags).isOk) ∧ ∀ path ∈ body.topicPath, (getId host db path).isOk
  | .ingest payload outcome =>
    Ingest.Saves ⟨db, [], Ingest.Tally.zero, false⟩ payload (payloadOutcome payload outcome) ∧
      (getTopicId db Ingest.defaultInboxTopic).isSome
  | .extract rawTopicPath topicTitle entries today =>
    ∃ topicPath ∈ hardenLlmTopicPath host.lowering rawTopicPath,
      (ensureTopic host db topicPath topicTitle).isOk ∧
      ∀ entry ∈ entries, (bindEntry host entry.content (some entry.reasoning) entry.tags
        entry.entryDate today).isOk
  | _ => True

/-- The texts that a write stores as they came. -/
def rawTexts : Write → List PyStr
  | .patch _ body => body.content.toList ++ body.reasoning.toList
  | .ingest payload _ => payload.messages.map Message.content
  | .extract _ _ entries _ => entries.flatMap (fun entry => [entry.content, entry.reasoning])
  | _ => []

/-- A write that goes through brings clean texts, where no filter looks at them. -/
def BringsClean (db : JournalDb E) (w : Write) : Prop :=
  Accepted host db w → ∀ text ∈ rawTexts w, CleanText host.words text

variable {host} {db db' : JournalDb E}

/-- A write that leaves the tables alone when it is refused, and adds its raw texts to
them when it is accepted. -/
theorem clean_iff_bringsClean {w : Write} {written : JournalDb E}
    (clean : CleanTables host.words db)
    (cases : (written = db ∧ ¬ Accepted host db w) ∨ (Accepted host db w ∧
      (CleanTables host.words written ↔ ∀ text ∈ rawTexts w, CleanText host.words text))) :
    CleanTables host.words written ↔ BringsClean host db w := by
  rcases cases with ⟨rfl, refused⟩ | ⟨accepted, texts⟩
  · exact iff_of_true clean fun accepted => absurd accepted refused
  · exact texts.trans ⟨fun all _ => all, fun brings => brings accepted⟩

theorem moveEntry_ok {id : EntryId} {path : PyStr} :
    moveEntry host db id path = .ok db' ↔
      (getId host db path).isOk ∧ (active db.journal id).isSome ∧ db' = db := by
  unfold moveEntry
  rw [Fallible.bind_eq_ok, Fallible.isOk_iff]
  constructor
  · rintro ⟨topicId, found, h⟩
    split at h
    · next present =>
      cases h
      exact ⟨⟨topicId, found⟩, present, rfl⟩
    · cases h
  · rintro ⟨⟨topicId, found⟩, present, rfl⟩
    exact ⟨topicId, found, if_pos present⟩

/-- An entry that is rewritten is as active as before. -/
theorem active_updateRow {id : EntryId} {content reasoning : Option PyStr} {mode : Mode}
    {date : Option PyStr} {tags : Option (List PyStr)}
    (ran : updateRow host db id content reasoning mode date tags = .ok db') :
    (active db'.journal id).isSome := by
  obtain ⟨entry, bound, hactive, _, rfl⟩ := updateRow_ok.mp ran
  refine Option.isSome_iff_exists.mpr ⟨_, active_eq_some.mpr ⟨Table.get_put_self _ _ _, ?_⟩⟩
  exact (active_eq_some.mp hactive).2

theorem topics_updateRow {id : EntryId} {content reasoning : Option PyStr} {mode : Mode}
    {date : Option PyStr} {tags : Option (List PyStr)}
    (ran : updateRow host db id content reasoning mode date tags = .ok db') (path : PyStr) :
    getId host db' path = getId host db path := by
  obtain ⟨_, _, _, _, rfl⟩ := updateRow_ok.mp ran
  rfl

/-- A PATCH of fields rewrites the row when its checks pass, and fails when they do not. -/
theorem patchEntry_ok {id : EntryId} {body : EntryUpdateRequest}
    (fields : body.fieldUpdate = true) :
    patchEntry host db id body = .ok db' ↔
      updateRow host db id body.content body.reasoning .replace body.date body.tags = .ok db' ∧
        ∀ path ∈ body.topicPath, (getId host db path).isOk := by
  unfold patchEntry
  rw [fields, Bool.true_or, if_pos rfl, Fallible.mapError_eq_ok, if_pos rfl, Fallible.bind_eq_ok]
  constructor
  · rintro ⟨updated, hupdate, h⟩
    split at h
    · next none =>
      cases h
      refine ⟨hupdate, fun path given => ?_⟩
      rw [none] at given
      cases given
    · next path some =>
      obtain ⟨found, _, rfl⟩ := moveEntry_ok.mp h
      refine ⟨hupdate, fun other given => ?_⟩
      rw [some] at given
      cases given
      rwa [topics_updateRow hupdate] at found
  · rintro ⟨hupdate, found⟩
    refine ⟨db', hupdate, ?_⟩
    cases given : body.topicPath with
    | none => rfl
    | some path =>
      have known := found path given
      rw [← topics_updateRow hupdate] at known
      exact moveEntry_ok.mpr ⟨known, active_updateRow hupdate, rfl⟩

theorem accepted_patch {id : EntryId} {body : EntryUpdateRequest}
    (fields : body.fieldUpdate = true) :
    Accepted host db (.patch id body) ↔ ∃ db', patchEntry host db id body = .ok db' := by
  simp only [patchEntry_ok fields, updateRow_ok, Accepted, Fallible.isOk_iff, Option.mem_def]
  constructor
  · rintro ⟨⟨entry, hactive, bound, columns⟩, found⟩
    exact ⟨_, ⟨entry, bound, hactive, columns, rfl⟩, found⟩
  · rintro ⟨_, ⟨entry, bound, hactive, columns, _⟩, found⟩
    exact ⟨⟨entry, hactive, bound, columns⟩, found⟩

/-- A PATCH that only moves the entry leaves the tables alone. -/
theorem patchEntry_move {id : EntryId} {body : EntryUpdateRequest}
    (fields : body.fieldUpdate = false) (ran : patchEntry host db id body = .ok db') :
    db' = db := by
  unfold patchEntry at ran
  split at ran
  · rw [fields] at ran
    obtain ⟨same, hsame, h⟩ := Fallible.bind_eq_ok.mp (Fallible.mapError_eq_ok.mp ran)
    cases hsame
    split at h
    · cases h
      rfl
    · exact (moveEntry_ok.mp h).2.2
  · cases ran

theorem clean_patch (clean : CleanTables host.words db) (id : EntryId) (body : EntryUpdateRequest) :
    CleanTables host.words (write host db (.patch id body)) ↔
      BringsClean host db (.patch id body) := by
  show CleanTables host.words (commit db (patchEntry host db id body)) ↔ _
  cases fields : body.fieldUpdate with
  | false =>
    have kept : commit db (patchEntry host db id body) = db := by
      cases ran : patchEntry host db id body with
      | error e => rfl
      | ok db' => exact patchEntry_move fields ran
    have nothing : rawTexts (.patch id body) = [] := by
      simp only [EntryUpdateRequest.fieldUpdate, Bool.or_eq_false_iff,
        Option.isSome_eq_false_iff, Option.isNone_iff_eq_none] at fields
      rw [rawTexts, fields.1.1.1, fields.1.1.2]
      rfl
    rw [kept, BringsClean, nothing]
    exact ⟨fun _ _ _ mem => absurd mem List.not_mem_nil, fun _ => clean⟩
  | true =>
    refine clean_iff_bringsClean clean ?_
    rw [accepted_patch fields]
    cases ran : patchEntry host db id body with
    | error e => exact Or.inl ⟨rfl, fun ⟨_, h⟩ => nomatch h⟩
    | ok db' =>
      obtain ⟨entry, bound, hactive, _, rfl⟩ := updateRow_ok.mp ((patchEntry_ok fields).mp ran).1
      have old := clean.entries id entry (active_eq_some.mp hactive).1
      have texts : CleanEntry host.words (entry.update body.content body.reasoning .replace
          (bound.map Date.text) body.tags) ↔
            ∀ text ∈ body.content.toList ++ body.reasoning.toList, CleanText host.words text :=
        cleanEntry_replace_iff old
      refine Or.inr ⟨⟨_, rfl⟩, fun after => ?_, fun new => ?_⟩
      · exact texts.mp ((cleanEntries_put clean.entries).mp after.entries)
      · exact ⟨(cleanEntries_put clean.entries).mpr (texts.mpr new), clean.messages⟩

/-- A payload leaves the tables alone or commits its save. -/
theorem ingestPayload_cases (host : Host) (db : JournalDb E) (payload : Ingest.ConversationPayload)
    (outcome : Ingest.Outcome) :
    (ingestPayload db payload outcome = db ∧ ¬ Accepted host db (.ingest payload outcome)) ∨
      ∃ title saved id, Accepted host db (.ingest payload outcome) ∧
        Ingest.saveTransaction db payload title = .ok (saved, id) ∧
        ingestPayload db payload outcome = saved := by
  by_cases saves :
      Ingest.Saves ⟨db, [], Ingest.Tally.zero, false⟩ payload (payloadOutcome payload outcome)
  · obtain ⟨slug, hslug⟩ := Option.isSome_iff_exists.mp saves.2.2.2.2
    obtain ⟨title, clean, htitle, hclean, _⟩ := Ingest.inboxSlug_eq_some hslug
    cases inbox : getTopicId db Ingest.defaultInboxTopic with
    | some topicId =>
      obtain ⟨⟨saved, id⟩, hsave⟩ := Ingest.saveTransaction_isOk hclean inbox saves.2.2.1
      have committed := (Ingest.ingestConversation_saves saves htitle hsave).1
      exact Or.inr ⟨title, saved, id, ⟨saves, by rw [inbox]; rfl⟩, hsave, committed⟩
    | none =>
      have missing : Ingest.saveTransaction db payload title = .error .topicNotFound := by
        simp only [Ingest.saveTransaction, saveConversation, hclean, inbox]
      obtain ⟨_, hexists, hheld, hraises, _⟩ := saves
      refine Or.inl ⟨?_, fun accepted => ?_⟩
      · show (Ingest.ingestConversation _ payload (payloadOutcome payload outcome)).db = db
        simp [Ingest.ingestConversation, hexists, hheld, hraises, htitle, missing,
          Ingest.Session.abort]
      · rw [Accepted, inbox] at accepted
        exact Bool.false_ne_true accepted.2
  · exact Or.inl ⟨(Ingest.ingestConversation_quiet saves).1, fun accepted => saves accepted.1⟩

theorem clean_ingest (clean : CleanTables host.words db) (payload : Ingest.ConversationPayload)
    (outcome : Ingest.Outcome) :
    CleanTables host.words (write host db (.ingest payload outcome)) ↔
      BringsClean host db (.ingest payload outcome) := by
  show CleanTables host.words (ingestPayload db payload outcome) ↔ _
  refine clean_iff_bringsClean clean ?_
  rcases ingestPayload_cases host db payload outcome with
    quiet | ⟨title, saved, id, accepted, hsave, committed⟩
  · exact Or.inl quiet
  · have texts : CleanTables host.words saved ↔
        ∀ m ∈ payload.messages, CleanText host.words m.content := by
      unfold Ingest.saveTransaction at hsave
      split at hsave
      · cases hsave
      · next written writtenId hwritten =>
        split at hsave
        · cases hsave
        · cases hsave
          -- the platform columns hold no text that counts
          have same := clean_saveConversation clean cleanText_nil hwritten
          exact ⟨fun after => same.mp ⟨after.entries, after.messages⟩,
            fun new => ⟨(same.mpr new).entries, (same.mpr new).messages⟩⟩
    rw [committed, rawTexts, List.forall_mem_map]
    exact Or.inr ⟨accepted, texts⟩

theorem getId_appendRow {topic path content : PyStr} {reasoning : Option PyStr}
    {tags : List PyStr} {date : Option PyStr} {today : Date}
    (ran : appendRow host db topic content reasoning tags date today = .ok db') :
    getId host db' path = getId host db path := by
  obtain ⟨_, _, _, rfl⟩ := appendRow_ok.mp ran
  rfl

theorem appendExtracted_cons {topicPath : PyStr} {today : Date} {entry : ExtractedEntry}
    {rest : List ExtractedEntry} :
    appendExtracted host topicPath today db (entry :: rest) = .ok db' ↔
      ∃ first, appendRow host db topicPath entry.content (some entry.reasoning) entry.tags
          entry.entryDate today = .ok first ∧
        appendExtracted host topicPath today first rest = .ok db' := by
  rw [appendExtracted, List.foldlM_cons, Fallible.bind_eq_ok]
  rfl

/-- The loop commits exactly when the columns of every entry can be bound. -/
theorem appendExtracted_commits {topicPath : PyStr} {today : Date} {entries : List ExtractedEntry}
    (known : ∃ id, getId host db topicPath = .ok id) :
    (∃ db', appendExtracted host topicPath today db entries = .ok db') ↔
      ∀ entry ∈ entries, (bindEntry host entry.content (some entry.reasoning) entry.tags
        entry.entryDate today).isOk := by
  induction entries generalizing db with
  | nil => exact ⟨fun _ _ mem => absurd mem List.not_mem_nil, fun _ => ⟨db, rfl⟩⟩
  | cons entry rest ih =>
    simp only [appendExtracted_cons, List.forall_mem_cons, Fallible.isOk_iff]
    constructor
    · rintro ⟨db', first, hfirst, hrest⟩
      obtain ⟨_, bound, columns, _⟩ := appendRow_ok.mp hfirst
      rw [← getId_appendRow hfirst] at known
      exact ⟨⟨bound, columns⟩, by simpa only [Fallible.isOk_iff] using (ih known).mp ⟨db', hrest⟩⟩
    · rintro ⟨⟨bound, columns⟩, others⟩
      have hfirst := appendRow_ok.mpr ⟨known, bound, columns, rfl⟩
      rw [← getId_appendRow hfirst] at known
      obtain ⟨db', hrest⟩ := (ih known).mpr (by simpa only [Fallible.isOk_iff] using others)
      exact ⟨db', _, hfirst, hrest⟩

theorem clean_appendExtracted {words : Words} {topicPath : PyStr} {today : Date}
    {entries : List ExtractedEntry}
    (ran : appendExtracted host topicPath today db entries = .ok db') :
    CleanTables words db' ↔ CleanTables words db ∧
      ∀ text ∈ entries.flatMap (fun entry => [entry.content, entry.reasoning]),
        CleanText words text := by
  induction entries generalizing db with
  | nil =>
    cases ran
    exact ⟨fun clean => ⟨clean, fun _ mem => absurd mem List.not_mem_nil⟩, And.left⟩
  | cons entry rest ih =>
    obtain ⟨first, hfirst, hrest⟩ := appendExtracted_cons.mp ran
    rw [ih hrest, clean_appendRow hfirst, List.flatMap_cons, List.forall_mem_append, and_assoc]
    rfl

/-- The topic is there after the upsert, and the texts are as before. -/
theorem ensureTopic_ok {topicPath topicTitle : PyStr}
    (valid : validateTopic host.lowering topicPath = .ok topicPath)
    (ran : ensureTopic host db topicPath topicTitle = .ok db') :
    (∃ id, getId host db' topicPath = .ok id) ∧ db'.journal = db.journal ∧
      db'.messages = db.messages := by
  unfold ensureTopic at ran
  split at ran
  · next id found =>
    cases ran
    exact ⟨⟨id, found⟩, rfl, rfl⟩
  · unfold createTopic at ran
    rw [valid] at ran
    simp only at ran
    split at ran
    · cases ran
    · cases ran
      refine ⟨?_, rfl, rfl⟩
      obtain ⟨id, found⟩ := getTopicId_put db db.topics.freshKey ⟨topicPath, topicTitle⟩
      exact ⟨id, by simp only [getId, valid, found]⟩
  · cases ran

/-- The worker leaves the tables alone or commits its topic and all its entries. -/
theorem extractConversation_cases (host : Host) (db : JournalDb E)
    (rawTopicPath : Option PyStr) (topicTitle : PyStr) (entries : List ExtractedEntry)
    (today : Date) :
    (commit db (extractConversation host db rawTopicPath topicTitle entries today) = db ∧
        ¬ Accepted host db (.extract rawTopicPath topicTitle entries today)) ∨
      ∃ topicPath middle written,
        Accepted host db (.extract rawTopicPath topicTitle entries today) ∧
        middle.journal = db.journal ∧ middle.messages = db.messages ∧
        appendExtracted host topicPath today middle entries = .ok written ∧
        commit db (extractConversation host db rawTopicPath topicTitle entries today) =
          written := by
  cases hpath : hardenLlmTopicPath host.lowering rawTopicPath with
  | none =>
    refine Or.inl ⟨by rw [extractConversation, hpath]; rfl, ?_⟩
    rintro ⟨topicPath, given, _⟩
    rw [hpath] at given
    cases given
  | some topicPath =>
    have unfolded : extractConversation host db rawTopicPath topicTitle entries today =
        persistExtraction host db topicPath topicTitle entries today := by
      rw [extractConversation, hpath]
    have same : ∀ other ∈ hardenLlmTopicPath host.lowering rawTopicPath, other = topicPath := by
      intro other given
      rw [hpath] at given
      exact (Option.some.inj given).symm
    cases topic : ensureTopic host db topicPath topicTitle with
    | error e =>
      refine Or.inl ⟨by rw [unfolded, persistExtraction, topic]; rfl, ?_⟩
      rintro ⟨other, given, found, _⟩
      rw [same other given, topic] at found
      cases found
    | ok middle =>
      obtain ⟨known, journal, messages⟩ :=
        ensureTopic_ok (hardenLlmTopicPath_some hpath) topic
      cases loop : appendExtracted host topicPath today middle entries with
      | error e =>
        refine Or.inl ⟨by rw [unfolded, persistExtraction, topic]; exact congrArg _ loop, ?_⟩
        rintro ⟨_, _, _, bound⟩
        obtain ⟨written, h⟩ := (appendExtracted_commits known).mpr bound
        rw [loop] at h
        cases h
      | ok written =>
        refine Or.inr ⟨topicPath, middle, written, ?_, journal, messages, loop, ?_⟩
        · exact ⟨topicPath, hpath, by rw [topic]; rfl,
            (appendExtracted_commits known).mp ⟨written, loop⟩⟩
        · rw [unfolded, persistExtraction, topic]
          exact congrArg (commit db) loop

theorem clean_extract (clean : CleanTables host.words db) (rawTopicPath : Option PyStr)
    (topicTitle : PyStr) (entries : List ExtractedEntry) (today : Date) :
    CleanTables host.words (write host db (.extract rawTopicPath topicTitle entries today)) ↔
      BringsClean host db (.extract rawTopicPath topicTitle entries today) := by
  show CleanTables host.words
    (commit db (extractConversation host db rawTopicPath topicTitle entries today)) ↔ _
  refine clean_iff_bringsClean clean ?_
  rcases extractConversation_cases host db rawTopicPath topicTitle entries today with
    quiet | ⟨topicPath, middle, written, accepted, journal, messages, loop, committed⟩
  · exact Or.inl quiet
  · have before : CleanTables host.words middle :=
      ⟨journal ▸ clean.entries, messages ▸ clean.messages⟩
    rw [committed, clean_appendExtracted loop]
    exact Or.inr ⟨accepted, And.right, fun new => ⟨before, new⟩⟩

end Unfiltered

section Runs
variable {E : Type} {host : Host} {db : JournalDb E}

theorem clean_commit {result : Except WriteError (JournalDb E)}
    (clean : CleanTables host.words db)
    (kept : ∀ db', result = .ok db' → CleanTables host.words db') :
    CleanTables host.words (commit db result) := by
  cases result with
  | error e => exact clean
  | ok db' => exact kept db' rfl

/-- A write without raw texts brings nothing that is not clean. -/
theorem bringsClean_of_filtered {w : Write} (filtered : rawTexts w = []) :
    BringsClean host db w := by
  intro _ text mem
  rw [filtered] at mem
  exact absurd mem List.not_mem_nil

/-- The step lemma: one write keeps the tables clean exactly when it brings clean texts. -/
theorem clean_write_iff (clean : CleanTables host.words db) (w : Write) :
    CleanTables host.words (write host db w) ↔ BringsClean host db w := by
  cases w with
  | appendEntry topic content reasoning tags date today =>
    exact iff_of_true (clean_commit clean fun _ => clean_journalAppendEntry clean)
      (bringsClean_of_filtered rfl)
  | updateEntry id content reasoning mode date tags =>
    exact iff_of_true (clean_commit clean fun _ => clean_journalUpdateEntry clean)
      (bringsClean_of_filtered rfl)
  | saveConversation topic title messages summary source tags date today =>
    exact iff_of_true (clean_commit clean fun _ => clean_journalSaveConversation clean)
      (bringsClean_of_filtered rfl)
  | patch id body => exact clean_patch clean id body
  | openInbox =>
    refine iff_of_true ?_ (bringsClean_of_filtered rfl)
    show CleanTables host.words (Ingest.ensureInbox db)
    unfold Ingest.ensureInbox
    split
    · exact clean
    · exact ⟨clean.entries, clean.messages⟩
  | ingest payload outcome => exact clean_ingest clean payload outcome
  | extract rawTopicPath topicTitle entries today =>
    exact clean_extract clean rawTopicPath topicTitle entries today

/-- The tables stay clean through a sequence of writes exactly when every PATCH, every
ingested payload and every extraction that goes through brings clean texts. -/
theorem clean_throughout_iff (clean : CleanTables host.words db) (writes : List Write) :
    Throughout (step host) (CleanTables host.words) db writes ↔
      Obeys (step host) (BringsClean host) db writes := by
  have total : ∀ (db : JournalDb E) w, ∃ t, step host db w = some t :=
    fun db w => ⟨write host db w, rfl⟩
  have keeps : ∀ (s : JournalDb E) w t, True → step host s w = some t → True :=
    fun _ _ _ _ _ => trivial
  have brings : ∀ (s : JournalDb E) w t, True → CleanTables host.words s →
      step host s w = some t → (CleanTables host.words t ↔ BringsClean host s w) := by
    intro s w t _ hs hstep
    cases hstep
    exact clean_write_iff hs w
  obtain ⟨last, ran⟩ := exists_run_of_total total db writes
  exact throughout_iff_obeys keeps brings trivial clean ran

def sampleWords : Words where
  isWord c := isAlnum c || c = ofChar '_'
  ascii := fun _ _ => rfl
  space := by
    intro c space
    have value : (ofChar '_').val = 0x5f := by decide
    simp only [isSpace, Bool.or_eq_true, Bool.and_eq_true, decide_eq_true_eq] at space
    simp only [isAlnum, isUpper, isLower, isDigit, Bool.or_eq_false_iff, Bool.and_eq_false_iff,
      decide_eq_false_iff_not, Fin.ext_iff, value]
    omega

example : rejectToolCallSyntax sampleWords (py "a <parameterised> <b") = .ok () := by decide

example : (rejectToolCallSyntax sampleWords (py "a <parameter\tname= b")).isOk = false := by decide

def sampleHost : Host :=
  { Listing.sampleRuntime with words := sampleWords, parseTs := fun _ => none }

def emptyJournal : JournalDb Unit := ⟨Table.empty, Conversations.empty, [], emptyDb⟩

theorem clean_emptyJournal : CleanTables sampleHost.words emptyJournal where
  entries := fun _ _ h => nomatch h
  messages := fun _ mem => absurd mem List.not_mem_nil

/-- The worker stores an entry that is clean. -/
def sampleExtraction : Write :=
  .extract (some (py "Work")) (py "Work") [⟨py "Plan", [], [], none⟩] Listing.sampleTime.date

def samplePatch (content : PyStr) : Write := .patch 1 ⟨some content, none, none, none, none⟩

theorem clean_throughout_sample :
    Throughout (step sampleHost) (CleanTables sampleHost.words) emptyJournal
      [sampleExtraction, samplePatch (py "Plan B\n\t<param")] := by
  refine (clean_throughout_iff clean_emptyJournal _).mpr ⟨fun _ => ?_, fun _ => ?_, trivial⟩
  · decide
  · decide

/-- A PATCH stores what the tool with the same arguments rejects. -/
theorem patch_stores_fragment :
    ¬ ∀ (host : Host) (db : JournalDb Unit) (writes : List Write), CleanTables host.words db →
      Throughout (step host) (CleanTables host.words) db writes := by
  intro all
  have through := all sampleHost emptyJournal
    [sampleExtraction, samplePatch (py "</parameter>")] clean_emptyJournal
  have last := throughout_last through rfl
  have stored : ((write sampleHost (write sampleHost emptyJournal sampleExtraction)
      (samplePatch (py "</parameter>"))).journal.entries.get 1).map Entry.content =
      some (py "</parameter>") := by decide
  obtain ⟨entry, hentry, content⟩ := Option.map_eq_some_iff.mp stored
  have clean := (last.entries 1 entry hentry).1
  rw [content] at clean
  revert clean
  decide

end Runs

end StoredText
