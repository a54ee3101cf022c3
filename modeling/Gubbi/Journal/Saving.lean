import Gubbi.Journal.Dates
import Gubbi.Journal.Writers
import Gubbi.Titles

/-!
# Saving a conversation

`save_conversation` over the tables of one user: what it computes before its first
statement, and the four writes. The archive file, its path and the search vectors are left
out, but a text or a time that the file or a statement cannot take stops the save. The clock
and the random parts of the nonces are arguments.
-/

namespace Saving

open Text Validation Cipher Queries JournalTables JournalRows Listing

inductive SaveError
  | listing (error : ListingError)
  | title (error : PyError)
  | cipher (error : CipherError)
  /-- The archive file is written in UTF-8. -/
  | unicodeEncodeError
  /-- The database refuses a parameter. -/
  | dataError
  /-- A text is too long for a search vector. -/
  | programLimitExceeded
  deriving DecidableEq

structure SaveArgs where
  topic : PyStr
  title : PyStr
  messages : List Message
  summary : PyStr
  source : PyStr
  tags : List PyStr
  date : Option PyStr

/-- A `datetime`: its wall clock, and its offset from UTC in microseconds. That of a naive one
is the offset of the process. -/
structure LocalTime where
  date : Date
  micros : Nat
  offset : Int
  valid : micros < 86400000000

theorem dayOf_lt {n : Nat} (h : n < Dates.daysTotal * 86400000000) :
    n / 86400000000 < Dates.daysTotal :=
  Nat.div_lt_of_lt_mul (by rwa [Nat.mul_comm])

/-- `astimezone(UTC)`, which asyncpg calls for a `timestamptz`; a year before 1 or after 9999
raises `OverflowError`. -/
def LocalTime.utc (t : LocalTime) : Option Timestamp :=
  let instant : Int := Dates.dayNumber t.date * 86400000000 + t.micros - t.offset
  if h : 0 ≤ instant ∧ instant.toNat < Dates.daysTotal * 86400000000 then
    some ⟨Dates.ofDayNumber (instant.toNat / 86400000000) (dayOf_lt h.2),
      instant.toNat % 86400000000, Nat.mod_lt _ (by decide)⟩
  else none

-- '9999-12-31T23:59:59-01:00'
example : (LocalTime.mk ⟨9999, 12, 31, by decide⟩ 86399000000 (-3600000000)
    (by decide)).utc = none := by decide

structure Host extends Runtime, JournalWriters.TextSearch where
  /-- `_parse_ts` of a string. -/
  parseTs : PyStr → Option LocalTime

/-- The instant that a text is stored as. -/
def Host.instant (host : Host) (text : PyStr) : Option Timestamp :=
  (host.parseTs text).bind LocalTime.utc

/-- What one call takes from the clock and the random generator. -/
structure Call where
  now : Timestamp
  /-- The `now` of the upsert. -/
  upsertNow : Timestamp
  today : Date
  /-- The random part of each nonce, by the number of its draw. -/
  random : Nat → RandomTail

theorem mem_keys_of_find {K V : Type} {t : Table K V} {p : K × V → Bool} {row : K × V}
    (found : t.rows.find? p = some row) : row.1 ∈ t.keys :=
  List.mem_map.mpr ⟨row, List.mem_of_find?_eq_some found, rfl⟩

/-- `topics.get_id`. -/
def getId (rt : Runtime) (db : Tables) (topic : PyStr) :
    Except ListingError { id : TopicId // id ∈ db.topics.keys } :=
  match validateTopic rt.lowering topic with
  | .error message => .error (.valueError message)
  | .ok path =>
    match found : db.topics.rows.find? (fun row => row.2.path = path) with
    | some row => .ok ⟨row.1, mem_keys_of_find found⟩
    | none =>
      .error (.topicNotFound (py "Topic '" ++ path ++
        py "' not found -- create it first with journal_create_topic"))

/-- `sorted({m.role for m in messages})`. -/
def participantsOf (messages : List Message) : List PyStr :=
  codePoints.lists.sorter.sort (messages.map Message.role).eraseDups

/-- The row of a topic and a slug, as the pre-check reads it and `ON CONFLICT` meets it. -/
def atSlot (db : Tables) (slot : TopicId × PyStr) : Option (ConversationId × ConversationRow) :=
  db.conversations.rows.find? (fun old => old.2.slot = slot)

/-- The texts of `_write_conversation_json`. -/
def archiveTexts (args : SaveArgs) (title topic created : PyStr) : List PyStr :=
  [args.source, title, topic, created, args.summary] ++ args.tags ++
    args.messages.flatMap (fun m => [m.role, m.content] ++ m.timestamp.toList)

/-- `ConversationMeta` of the archive, and the file. -/
def writeArchive (rt : Runtime) (args : SaveArgs) (title topic created : PyStr) :
    Except SaveError Unit :=
  if (checkTopic rt topic).2 ++ tagFailures args.tags ≠ [] then
    .error (.listing (.validationError ((checkTopic rt topic).2 ++ tagFailures args.tags)))
  else if (archiveTexts args title topic created).all (fun text => (encodeUtf8 text).isSome) then
    .ok ()
  else .error .unicodeEncodeError

def bindTexts (texts : List PyStr) : Except SaveError Unit :=
  if texts.all JournalWriters.isTextParameter then .ok () else .error .dataError

/-- `to_tsvector`. -/
def makeVector (host : Host) (text : PyStr) : Except SaveError Unit :=
  if host.fitsTsvector text then .ok () else .error .programLimitExceeded

/-- The `timestamptz` of a message; a text that is no timestamp becomes `NULL`. -/
def bindTimestamp (host : Host) (text : Option PyStr) : Except SaveError (Option Timestamp) :=
  if (text.bind host.parseTs).all (fun t => t.utc.isSome) then .ok (text.bind host.instant)
  else .error .dataError

def encryptText (host : Host) (cipher : ContentCipher) (text : PyStr) (random : RandomTail) :
    Except SaveError Sealed :=
  (encrypt host.aes cipher text random).mapError .cipher

/-- The rows of `_insert_messages`; the texts of the upsert took the first two draws. -/
def sealMessage (host : Host) (cipher : ContentCipher) (random : Nat → RandomTail)
    (message : Message × Nat) : Except SaveError NewMessage := do
  let content ← encryptText host cipher message.1.content (random (message.2 + 2))
  let timestamp ← bindTimestamp host message.1.timestamp
  bindTexts [message.1.role, message.1.content]
  makeVector host message.1.content
  return ⟨message.1.role, timestamp, content⟩

theorem midnight_valid : 0 < 86400000000 := by decide

/-- The start of a day of UTC. -/
def midnight (date : Date) : Timestamp := ⟨date, 0, midnight_valid⟩

def linkedContent (title summary : PyStr) : PyStr :=
  py "Conversation saved: " ++ title ++ py "\n\n" ++ summary

/-- What is written once nothing can fail any more. -/
structure Prepared (db : Tables) where
  excluded : ConversationRow
  known : excluded.topicId ∈ db.topics.keys
  messages : List NewMessage
  entryDate : Date
  entryContent : Sealed

def prepare (host : Host) (cipher : ContentCipher) (db : Tables) (args : SaveArgs) (call : Call) :
    Except SaveError (Prepared db) := do
  let topic ← (validateTopic host.lowering args.topic).mapError (fun e => .listing (.valueError e))
  let title ← (validateTitle args.title).mapError .title
  let slug := slugify title
  let date := (given args.date).getD call.today.text
  let topicId ← (getId host.toRuntime db topic).mapError .listing
  let existing := atSlot db (topicId.1, slug)
  writeArchive host.toRuntime args title topic
    ((existing.map (fun old => old.2.createdAt.date.text)).getD date)
  let sealedTitle ← encryptText host cipher title (call.random 0)
  let sealedSummary ← encryptText host cipher args.summary (call.random 1)
  let created ← (host.fromIsoformat date).mapError (fun e => .listing (.valueError e))
  bindTexts ([slug, args.source, strip (title ++ py " " ++ args.summary)] ++ args.tags ++
    participantsOf args.messages)
  makeVector host (strip (title ++ py " " ++ args.summary))
  let messages ← args.messages.zipIdx.mapM (sealMessage host cipher call.random)
  let content := linkedContent title args.summary
  let entry ← encryptText host cipher content (call.random (args.messages.length + 2))
  bindTexts [content]
  makeVector host content
  return {
    excluded :=
      { topicId := topicId.1, slug := slug, source := args.source, title := sealedTitle,
        summary := sealedSummary, tags := args.tags,
        participants := participantsOf args.messages, messageCount := args.messages.length,
        createdAt := midnight created, updatedAt := call.upsertNow }
    known := topicId.2
    messages := messages
    entryDate := created
    entryContent := entry }

/-- The upsert updates the row at the slot or inserts one, whose messages are rewritten. -/
theorem saveConversation_cases (t : Tables) (excluded : ConversationRow)
    (known : excluded.topicId ∈ t.topics.keys) (messages : List NewMessage) :
    (t.saveConversation excluded known messages).topics = t.topics ∧
      ((∃ found, atSlot t excluded.slot = some found ∧
        (t.saveConversation excluded known messages).conversations =
          t.conversations.modify found.1
            (fun old => old.overwrite { excluded with messageCount := messages.length }) ∧
        (t.saveConversation excluded known messages).messages =
          rewriteMessages t.messages found.1 messages) ∨
      (atSlot t excluded.slot = none ∧
        (t.saveConversation excluded known messages).conversations =
          t.conversations.put t.conversations.freshKey
            { excluded with messageCount := messages.length } ∧
        (t.saveConversation excluded known messages).messages =
          rewriteMessages t.messages t.conversations.freshKey messages)) := by
  unfold Tables.saveConversation
  dsimp only
  split
  · next found hfound => exact ⟨rfl, Or.inl ⟨found, hfound, rfl, rfl⟩⟩
  · next none => exact ⟨rfl, Or.inr ⟨none, rfl, rfl⟩⟩

/-- The id that the upsert returns. -/
def savedId (db : Tables) (slot : TopicId × PyStr) : ConversationId :=
  match atSlot db slot with
  | some found => found.1
  | none => db.conversations.freshKey

/-- `_upsert_linked_entry`. -/
def upsertLinkedEntry (db : Tables) (topicId : TopicId) (known : topicId ∈ db.topics.keys)
    (id : ConversationId) (content : Sealed) (date : Date) (now : Timestamp) : Tables :=
  match db.entries.rows.find? (fun row => row.2.conversationId = some id) with
  | some found =>
    { db with
      entries := db.entries.modify found.1 (fun row =>
        { row with
          content := content, reasoningEncrypted := none, reasoningNonce := none,
          updatedAt := now, date := date })
      entryTopics := db.entryTopics.modify fun _ => rfl }
  | none =>
    { db with
      entries := db.entries.put db.entries.freshKey
        { topicId := topicId, date := date, conversationId := some id,
          tags := [py "conversation"], createdAt := now, updatedAt := now, deletedAt := none,
          content := content, reasoningEncrypted := none, reasoningNonce := none }
      entryTopics := db.entryTopics.put _ known }

theorem mem_keys_touched {db : Tables} {id : TopicId} {f : TopicRow → TopicRow} {key : TopicId}
    (mem : key ∈ db.topics.keys) : key ∈ (db.topics.modify id f).keys := by
  rw [Table.keys_modify]
  exact mem

/-- `UPDATE topics SET updated_at`. -/
def touchTopic (db : Tables) (id : TopicId) (now : Timestamp) : Tables :=
  { db with
    topics := db.topics.modify id (fun row => { row with updatedAt := now })
    paths := db.paths.modify fun _ => rfl
    entryTopics := db.entryTopics.of_keys fun _ => mem_keys_touched
    conversationTopics := db.conversationTopics.of_keys fun _ => mem_keys_touched }

theorem known_saved {db : Tables} (prepared : Prepared db) :
    prepared.excluded.topicId ∈
      (db.saveConversation prepared.excluded prepared.known prepared.messages).topics.keys := by
  rw [(saveConversation_cases db _ prepared.known _).1]
  exact prepared.known

def commit (db : Tables) (prepared : Prepared db) (call : Call) : Tables × ConversationId :=
  let id := savedId db prepared.excluded.slot
  let saved := db.saveConversation prepared.excluded prepared.known prepared.messages
  let linked := upsertLinkedEntry saved prepared.excluded.topicId (known_saved prepared) id
    prepared.entryContent prepared.entryDate call.now
  (touchTopic linked prepared.excluded.topicId call.now, id)

/-- `save_conversation`: the state that its transaction commits, and the id. -/
def saveConversation (host : Host) (cipher : ContentCipher) (db : Tables) (args : SaveArgs)
    (call : Call) : Except SaveError (Tables × ConversationId) :=
  (prepare host cipher db args call).map (fun prepared => commit db prepared call)

section Writes
variable {db : Tables} {excluded : ConversationRow} {known : excluded.topicId ∈ db.topics.keys}
  {messages : List NewMessage}

/-- The columns of the saved row that its readers use. -/
structure Stores (excluded : ConversationRow) (count : Nat) (row : ConversationRow) : Prop where
  slot : row.slot = excluded.slot
  title : row.title = excluded.title
  summary : row.summary = excluded.summary
  tags : row.tags = excluded.tags
  messageCount : row.messageCount = count

theorem mem_modify_self {t : Conversations} {found : ConversationId × ConversationRow}
    (mem : found ∈ t.rows) (f : ConversationRow → ConversationRow) :
    (found.1, f found.2) ∈ (t.modify found.1 f).rows :=
  Table.get_eq_some_iff.mp (Table.get_modify_self f (Table.get_eq_some_iff.mpr mem))

/-- Whether the upsert inserts or updates, the row at the slot is the new one. -/
theorem exists_saved_row (db : Tables) (excluded : ConversationRow)
    (known : excluded.topicId ∈ db.topics.keys) (messages : List NewMessage) :
    ∃ row, (savedId db excluded.slot, row) ∈
        (db.saveConversation excluded known messages).conversations.rows ∧
      Stores excluded messages.length row := by
  rcases (saveConversation_cases db excluded known messages).2 with
    ⟨found, hfound, rows, _⟩ | ⟨none, rows, _⟩
  · have slot : found.2.slot = excluded.slot := by
      simpa using List.find?_some hfound
    rw [rows, savedId, hfound]
    exact ⟨_, mem_modify_self (List.mem_of_find?_eq_some hfound) _, slot, rfl, rfl, rfl, rfl⟩
  · rw [rows, savedId, none]
    exact ⟨_, Table.get_eq_some_iff.mp (Table.get_put_self _ _ _), rfl, rfl, rfl, rfl, rfl⟩

theorem messagesOf_saved :
    messagesOf (db.saveConversation excluded known messages).messages (savedId db excluded.slot) =
      insertMessages (savedId db excluded.slot) messages := by
  rcases (saveConversation_cases db excluded known messages).2 with
    ⟨found, hfound, _, rewritten⟩ | ⟨none, _, rewritten⟩
  · rw [rewritten, savedId, hfound]
    exact messagesOf_rewriteMessages _ _ _
  · rw [rewritten, savedId, none]
    exact messagesOf_rewriteMessages _ _ _

/-- The linked entry leaves conversations, messages and topics alone. -/
theorem upsertLinkedEntry_frame {topicId : TopicId} (known : topicId ∈ db.topics.keys)
    (id : ConversationId) (content : Sealed) (date : Date) (now : Timestamp) :
    (upsertLinkedEntry db topicId known id content date now).conversations = db.conversations ∧
      (upsertLinkedEntry db topicId known id content date now).messages = db.messages ∧
      (upsertLinkedEntry db topicId known id content date now).topics = db.topics := by
  unfold upsertLinkedEntry
  split
  · exact ⟨rfl, rfl, rfl⟩
  · exact ⟨rfl, rfl, rfl⟩

/-- A topic that is touched keeps its path. -/
theorem path_touched {id key : TopicId} {now : Timestamp} {topic : TopicRow}
    (known : db.topics.get key = some topic) :
    ∃ touched, (touchTopic db id now).topics.get key = some touched ∧
      touched.path = topic.path := by
  rw [touchTopic, Table.get_modify]
  split
  · rw [known]
    exact ⟨_, rfl, rfl⟩
  · exact ⟨topic, known, rfl⟩

end Writes

section Committed
variable {host : Host} {cipher : ContentCipher} {db : Tables} {args : SaveArgs} {call : Call}

/-- A new message holds a message's role and time, and its content encrypted. -/
structure Holds (host : Host) (cipher : ContentCipher) (message : Message) (new : NewMessage) :
    Prop where
  role : new.role = message.role
  timestamp : new.timestamp = message.timestamp.bind host.instant
  content : decryptSealed host.toRuntime cipher new.content = .ok message.content

theorem decryptSealed_of_encryptText {text : PyStr} {random : RandomTail} {sealedText : Sealed}
    (encrypted : encryptText host cipher text random = .ok sealedText) :
    decryptSealed host.toRuntime cipher sealedText = .ok text := by
  obtain ⟨ciphertext, nonce⟩ := sealedText
  have written := Fallible.mapError_eq_ok.mp encrypted
  rw [decryptSealed, decryptOrRaise, decrypt_encryptWithVersion written]

theorem holds_of_sealMessage {random : Nat → RandomTail} {message : Message} {index : Nat}
    {new : NewMessage} (h : sealMessage host cipher random (message, index) = .ok new) :
    Holds host cipher message new := by
  simp only [sealMessage, Fallible.bind_eq_ok] at h
  obtain ⟨content, encrypted, timestamp, bound, _, _, _, _, built⟩ := h
  obtain rfl := Except.ok.inj built
  refine ⟨rfl, ?_, decryptSealed_of_encryptText encrypted⟩
  rw [bindTimestamp] at bound
  split at bound
  · exact (Except.ok.inj bound).symm
  · cases bound

/-- The messages are sealed one by one, in their order. -/
theorem holds_of_mapM {random : Nat → RandomTail} {messages : List Message} {start : Nat}
    {new : List NewMessage}
    (h : (messages.zipIdx start).mapM (sealMessage host cipher random) = .ok new) :
    List.Forall₂ (Holds host cipher) messages new := by
  induction messages generalizing start new with
  | nil =>
    rw [Fallible.mapM_nil_eq_ok.mp h]
    exact .nil
  | cons message rest ih =>
    rw [List.zipIdx_cons, Fallible.mapM_cons_eq_ok] at h
    obtain ⟨first, others, hfirst, hothers, rfl⟩ := h
    exact .cons (holds_of_sealMessage hfirst) (ih hothers)

theorem topic_of_getId {rt : Runtime} {topic : PyStr} {id : { id // id ∈ db.topics.keys }}
    (h : getId rt db topic = .ok id) :
    ∃ path row, validateTopic rt.lowering topic = .ok path ∧ db.topics.get id.1 = some row ∧
      row.path = path := by
  rw [getId] at h
  split at h
  · cases h
  · next path accepted =>
    split at h
    · next row found =>
      obtain rfl := Except.ok.inj h
      have path_eq : row.2.path = path := by simpa using List.find?_some found
      have known := Table.get_eq_some_iff.mpr (List.mem_of_find?_eq_some found)
      exact ⟨path, row.2, accepted, known, path_eq⟩
    · cases h

/-- What the steps before the writes establish. -/
structure Ready (host : Host) (cipher : ContentCipher) (db : Tables) (args : SaveArgs)
    (topic title : PyStr) (prepared : Prepared db) : Prop where
  validTopic : validateTopic host.lowering args.topic = .ok topic
  validTitle : validateTitle args.title = .ok title
  stored : ∃ row, db.topics.get prepared.excluded.topicId = some row ∧ row.path = topic
  slug : prepared.excluded.slug = slugify title
  tags : tagFailures prepared.excluded.tags = []
  sealedTitle : decryptSealed host.toRuntime cipher prepared.excluded.title = .ok title
  sealedSummary : decryptSealed host.toRuntime cipher prepared.excluded.summary = .ok args.summary
  messages : List.Forall₂ (Holds host cipher) args.messages prepared.messages

theorem ready_of_prepare {prepared : Prepared db}
    (h : prepare host cipher db args call = .ok prepared) :
    ∃ topic title, Ready host cipher db args topic title prepared := by
  simp only [prepare, Fallible.bind_eq_ok, Fallible.mapError_eq_ok] at h
  obtain ⟨topic, htopic, title, htitle, topicId, hid, _, archived, sealedTitle, encryptedTitle,
    sealedSummary, encryptedSummary, created, _, _, _, _, _, messages, sealedMessages, entry, _, _,
    _, _, _, built⟩ := h
  obtain rfl := Except.ok.inj built
  obtain ⟨path, row, again, known, rfl⟩ := topic_of_getId hid
  have same : row.path = topic :=
    Except.ok.inj (again.symm.trans (validateTopic_of_ok htopic).1)
  have failures : tagFailures args.tags = [] := by
    rw [writeArchive] at archived
    split at archived
    · cases archived
    · next none => exact (List.append_eq_nil_iff.mp (not_not.mp none)).2
  exact ⟨topic, title, htopic, htitle, ⟨row, known, same⟩, rfl, failures,
    decryptSealed_of_encryptText encryptedTitle, decryptSealed_of_encryptText encryptedSummary,
    holds_of_mapM sealedMessages⟩

/-- A state in which a conversation is saved. -/
structure Saved (host : Host) (cipher : ContentCipher) (args : SaveArgs) (db : Tables)
    (id : ConversationId) (topic title : PyStr) (row : ConversationRow) (new : List NewMessage) :
    Prop where
  validTopic : validateTopic host.lowering args.topic = .ok topic
  validTitle : validateTitle args.title = .ok title
  mem : (id, row) ∈ db.conversations.rows
  stored : ∃ topicRow, db.topics.get row.topicId = some topicRow ∧ topicRow.path = topic
  slug : row.slug = slugify title
  tags : tagFailures row.tags = []
  sealedTitle : decryptSealed host.toRuntime cipher row.title = .ok title
  sealedSummary : decryptSealed host.toRuntime cipher row.summary = .ok args.summary
  messageCount : row.messageCount = args.messages.length
  rows : messagesOf db.messages id = insertMessages id new
  messages : List.Forall₂ (Holds host cipher) args.messages new

/-- The later writes leave the conversations and the messages of the upsert. -/
theorem commit_frame (prepared : Prepared db) (call : Call) :
    (commit db prepared call).1.conversations =
        (db.saveConversation prepared.excluded prepared.known prepared.messages).conversations ∧
      (commit db prepared call).1.messages =
        (db.saveConversation prepared.excluded prepared.known prepared.messages).messages :=
  have linked := upsertLinkedEntry_frame (known_saved prepared)
    (savedId db prepared.excluded.slot) prepared.entryContent prepared.entryDate call.now
  ⟨linked.1, linked.2.1⟩

theorem path_committed (prepared : Prepared db) (call : Call) {key : TopicId} {topic : TopicRow}
    (known : db.topics.get key = some topic) :
    ∃ touched, (commit db prepared call).1.topics.get key = some touched ∧
      touched.path = topic.path := by
  have linked := upsertLinkedEntry_frame (known_saved prepared)
    (savedId db prepared.excluded.slot) prepared.entryContent prepared.entryDate call.now
  refine path_touched ?_
  rw [linked.2.2, (saveConversation_cases db _ prepared.known _).1, known]

theorem saved_of_ready {topic title : PyStr} {prepared : Prepared db}
    (ready : Ready host cipher db args topic title prepared) :
    ∃ row, Saved host cipher args (commit db prepared call).1 (commit db prepared call).2 topic
      title row prepared.messages := by
  obtain ⟨row, mem, stores⟩ := exists_saved_row db _ prepared.known prepared.messages
  obtain ⟨conversations, messages⟩ := commit_frame prepared call
  have slots := Prod.mk.inj stores.slot
  have count : prepared.messages.length = args.messages.length := ready.messages.length_eq.symm
  refine ⟨row, ready.validTopic, ready.validTitle, ?_, ?_, slots.2.trans ready.slug, ?_, ?_, ?_,
    stores.messageCount.trans count, ?_, ready.messages⟩
  · rw [conversations]
    exact mem
  · obtain ⟨topicRow, known, path⟩ := ready.stored
    rw [← slots.1] at known
    obtain ⟨touched, htouched, same⟩ := path_committed prepared call known
    exact ⟨touched, htouched, same.trans path⟩
  · rw [stores.tags]
    exact ready.tags
  · rw [stores.title]
    exact ready.sealedTitle
  · rw [stores.summary]
    exact ready.sealedSummary
  · rw [messages]
    exact messagesOf_saved

theorem saved_of_ok {id : ConversationId} {after : Tables}
    (h : saveConversation host cipher db args call = .ok (after, id)) :
    ∃ topic title row new, Saved host cipher args after id topic title row new := by
  obtain ⟨prepared, hprepared, committed⟩ := Fallible.map_eq_ok.mp h
  obtain ⟨rfl, rfl⟩ := Prod.mk.inj committed
  obtain ⟨topic, title, ready⟩ := ready_of_prepare hprepared
  obtain ⟨row, saved⟩ := saved_of_ready ready
  exact ⟨topic, title, row, prepared.messages, saved⟩

end Committed

end Saving
