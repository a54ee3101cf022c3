import Gubbi.Journal.Ingest
import Gubbi.Journal.Listing

/-!
# The writers of entries and messages

Six writers commit texts: the tools `journal_append_entry`, `journal_update_entry` and
`journal_save_conversation`, the web PATCH, the ingest endpoint and the extraction
worker. Each is a transaction here, so an error means that nothing is committed. Two
things stop a text for any of them: the cipher encodes it, and a text parameter of a
statement has no NUL, as `to_tsvector` takes the content of an entry and of a message.
The topic of an entry, times, audit rows, archive files and the limit of a search
vector are left out.
-/

namespace JournalWriters

open Text Validation JournalEntries JournalConversations
open JournalTables (Date)
open JournalRows (number)

/-- What the writers take from the interpreter. -/
structure Host extends JournalRows.Runtime where
  words : Words
  /-- `_parse_ts` of a string. -/
  parseTs : PyStr → Option Timestamp

inductive WriteError
  | valueError (message : PyStr)
  /-- A `ValueError` with a text of the codec; the PATCH answers it with a 422. -/
  | unicodeEncodeError
  /-- The database refuses a parameter. -/
  | dataError
  | topicNotFound (topic : PyStr)
  | entryNotFound (id : EntryId)
  | invalidTopic (raw detail : PyStr)
  | invalidDate (raw : PyStr)
  | validationError (detail : PyStr)
  | notFound (resource identifier : PyStr)
  | http (status : Nat) (detail : PyStr)
  deriving DecidableEq

/-- Each text is encoded for the archive file or by `cipher.encrypt`. -/
def sealTexts (texts : List PyStr) : Except WriteError Unit :=
  if texts.all (fun text => (encodeUtf8 text).isSome) then .ok () else .error .unicodeEncodeError

def isTextParameter (text : PyStr) : Bool :=
  (encodeUtf8 text).isSome && !text.any (fun c => c.val = 0)

/-- The full-text search of the server. -/
structure TextSearch where
  /-- Whether `to_tsvector('english', ...)` of a text stays within the 1 MB of a `tsvector`;
  the statement raises otherwise. -/
  fitsTsvector : PyStr → Bool

def bindTexts (texts : List PyStr) : Except WriteError Unit :=
  if texts.all isTextParameter then .ok () else .error .dataError

section Repositories
variable {E : Type} (host : Host)

/-- `date_cls.fromisoformat`. -/
def fromIsoformat (date : PyStr) : Except WriteError Date :=
  (host.fromIsoformat date).mapError .valueError

/-- `date_cls.fromisoformat(date) if date else today`. -/
def resolveDate (date : Option PyStr) (today : Date) : Except WriteError Date :=
  match Listing.given date with
  | none => .ok today
  | some date => fromIsoformat host date

/-- `topics.get_id`. -/
def getId (db : JournalDb E) (topic : PyStr) : Except WriteError TopicId :=
  match validateTopic host.lowering topic with
  | .error message => .error (.valueError message)
  | .ok path =>
    match getTopicId db path with
    | none => .error (.topicNotFound path)
    | some id => .ok id

/-- `topics.create`, when `get_id` has not found the path. -/
def createTopic (db : JournalDb E) (topic title : PyStr) : Except WriteError (JournalDb E) :=
  match validateTopic host.lowering topic with
  | .error message => .error (.valueError message)
  | .ok path =>
    match bindTexts [title] with
    | .error e => .error e
    | .ok () => .ok { db with topics := db.topics.put db.topics.freshKey ⟨path, title⟩ }

/-- The columns of a row that `entries.append` inserts; the result is its date. -/
def bindEntry (content : PyStr) (reasoning : Option PyStr) (tags : List PyStr)
    (date : Option PyStr) (today : Date) : Except WriteError Date := do
  let date ← resolveDate host date today
  sealTexts (content :: reasoning.toList)
  bindTexts (content :: tags)
  return date

/-- `entries.append`. -/
def appendRow (db : JournalDb E) (topic content : PyStr) (reasoning : Option PyStr)
    (tags : List PyStr) (date : Option PyStr) (today : Date) : Except WriteError (JournalDb E) := do
  let _ ← getId host db topic
  let date ← bindEntry host content reasoning tags date today
  return { db with
    journal := append db.journal db.journal.entries.freshKey content reasoning tags date.text }

/-- The columns of a row that `entries.update` rewrites; the result is its new date. -/
def bindUpdate (entry : Entry) (content reasoning : Option PyStr) (mode : Mode)
    (date : Option PyStr) (tags : Option (List PyStr)) : Except WriteError (Option Date) := do
  let newContent := (content.map (newContent mode entry.content)).toList
  sealTexts (newContent ++ (reasoning.map (newReasoning mode entry.reasoning)).toList)
  let date ← match date with
    | none => pure none
    | some date => some <$> fromIsoformat host date
  bindTexts (newContent ++ tags.getD [])
  return date

/-- `entries.update`. -/
def updateRow (db : JournalDb E) (id : EntryId) (content reasoning : Option PyStr) (mode : Mode)
    (date : Option PyStr) (tags : Option (List PyStr)) : Except WriteError (JournalDb E) :=
  match active db.journal id with
  | none => .error (.entryNotFound id)
  | some entry =>
    match bindUpdate host entry content reasoning mode date tags with
    | .error e => .error e
    | .ok date => .ok { db with
        journal := (update db.journal id content reasoning mode (date.map Date.text) tags).getD
          db.journal }

def saveError (topic : PyStr) : SaveError → WriteError
  | .invalidTitle (.valueError message) => .valueError (py message)
  | .invalidTitle .typeError => .dataError
  | .topicNotFound => .topicNotFound topic
  | .uniqueViolation => .dataError

/-- `conversations.save_conversation` with what may stop it. -/
def saveRows (db : JournalDb E) (topic title : PyStr) (messages : List Message)
    (summary source : PyStr) (tags : List PyStr) (date : Option PyStr) (today : Date) :
    Except WriteError (JournalDb E) := do
  let _ ← (validateTitle title).mapError (fun e => saveError topic (.invalidTitle e))
  let _ ← getId host db topic
  sealTexts (summary :: source :: tags ++ messages.map Message.content)
  let date ← resolveDate host date today
  bindTexts (summary :: source :: tags ++ messages.map Message.content)
  let saved ← (saveConversation db topic title messages summary source tags date.text).mapError
    (saveError topic)
  return saved.1

end Repositories

def MAX_ENTRY_CONTENT_CHARS : Nat := 1000
def MAX_ENTRY_REASONING_CHARS : Nat := 5000
def MAX_MESSAGES_PER_CONVERSATION : Nat := 1000
def MAX_MSG_CHARS : Nat := 20000

structure MessageInput where
  role : PyStr
  content : PyStr
  timestamp : Option PyStr
  deriving DecidableEq

section Tools
variable {E : Type} (host : Host)

def checkTopic (topic : PyStr) : Except WriteError PyStr :=
  (validateTopic host.lowering topic).mapError (WriteError.invalidTopic topic)

/-- `if date: validate_date(date)`. -/
def checkDate (date : Option PyStr) : Except WriteError Unit :=
  (Listing.checkBound host.toRuntime date).mapError (fun _ => .invalidDate (date.getD []))

/-- The cap is on the text as it came. -/
def checkCap (field : PyStr) (cap : Nat) (text : PyStr) : Except WriteError Unit :=
  if cap < text.length then
    .error (.validationError (field ++ py " exceeds " ++ number cap ++ py " characters"))
  else .ok ()

def rejectSyntax (text : PyStr) : Except WriteError PyStr :=
  (rejectToolCallSyntax host.words text).mapError .validationError |>.map (fun () => text)

def filterContent (content : PyStr) : Except WriteError PyStr :=
  if strip (sanitizeFreetext content) = [] then
    .error (.validationError (py "content cannot be empty"))
  else rejectSyntax host (sanitizeFreetext content)

def filterReasoning (reasoning : PyStr) : Except WriteError PyStr :=
  rejectSyntax host (sanitizeFreetext reasoning)

/-- The labels that are left of the tags. -/
def sanitizeTags (tags : List PyStr) : List PyStr :=
  (tags.map sanitizeLabel).filter (fun tag => tag ≠ [])

/-- What a tool answers to the errors that it catches. -/
def toolError (topic : PyStr) : WriteError → WriteError
  | .topicNotFound _ => .notFound (py "Topic") topic
  | .entryNotFound id => .notFound (py "Entry") (number id)
  | e => e

/-- An empty reasoning is stored as it is. -/
def appendReasoning : Option PyStr → Except WriteError (Option PyStr)
  | none => .ok none
  | some [] => .ok (some [])
  | some (c :: rest) => (filterReasoning host (c :: rest)).map some

def journalAppendEntry (db : JournalDb E) (topic content : PyStr) (reasoning : Option PyStr)
    (tags : List PyStr) (date : Option PyStr) (today : Date) : Except WriteError (JournalDb E) := do
  let topic ← checkTopic host topic
  checkCap (py "content") MAX_ENTRY_CONTENT_CHARS content
  checkCap (py "reasoning") MAX_ENTRY_REASONING_CHARS (reasoning.getD [])
  let content ← filterContent host content
  let reasoning ← appendReasoning host reasoning
  checkDate host date
  (appendRow host db topic content reasoning (sanitizeTags tags) date today).mapError
    (toolError topic)

/-- The new content, where there is one. -/
def updateContent : Option PyStr → Except WriteError (Option PyStr)
  | none => .ok none
  | some content => do
    checkCap (py "content") MAX_ENTRY_CONTENT_CHARS content
    let content ← filterContent host content
    return some content

/-- The new reasoning, where there is one that is not blank. -/
def updateReasoning : Option PyStr → Except WriteError (Option PyStr)
  | none => .ok none
  | some reasoning => do
    checkCap (py "reasoning") MAX_ENTRY_REASONING_CHARS reasoning
    let reasoning ← filterReasoning host reasoning
    return if strip reasoning = [] then none else some reasoning

def journalUpdateEntry (db : JournalDb E) (id : EntryId) (content reasoning : Option PyStr)
    (mode : Mode) (date : Option PyStr) (tags : Option (List PyStr)) :
    Except WriteError (JournalDb E) := do
  let content ← updateContent host content
  let reasoning ← updateReasoning host reasoning
  checkDate host date
  if content = none ∧ reasoning = none ∧ date = none ∧ tags = none then
    .error (.validationError (py "No fields to update"))
  else
    (updateRow host db id content reasoning mode date (tags.map sanitizeTags)).mapError
      (toolError [])

/-- `KEEP_ROLES`. -/
def keepRole (role : PyStr) : Option Role := [Role.user, .assistant].find? (fun r => r.text = role)

/-- The turns that are kept, without those of white space only. -/
def parsedMessages (messages : List MessageInput) : List Message :=
  messages.filterMap (fun m => (keepRole m.role).bind (fun role =>
    if strip m.content = [] then none
    else some ⟨role, (sanitizeFreetext m.content).take MAX_MSG_CHARS,
      m.timestamp.bind host.parseTs⟩))

def rejectMessage (m : Message) : Except WriteError Unit :=
  (rejectToolCallSyntax host.words m.content).mapError
    (fun e => .validationError (py "Message content: " ++ e))

def titleError : PyError → WriteError
  | .valueError message => .validationError (py message)
  | .typeError => .dataError

def journalSaveConversation (db : JournalDb E) (topic title : PyStr) (messages : List MessageInput)
    (summary source : PyStr) (tags : List PyStr) (date : Option PyStr) (today : Date) :
    Except WriteError (JournalDb E) := do
  let topic ← checkTopic host topic
  let title ← (validateTitle title).mapError titleError
  let summary ← rejectSyntax host (sanitizeFreetext summary)
  checkDate host date
  if MAX_MESSAGES_PER_CONVERSATION < messages.length then
    .error (.validationError (py "Too many messages: max " ++
      number MAX_MESSAGES_PER_CONVERSATION ++ py ", got " ++ number messages.length))
  else
    let _ ← (parsedMessages host messages).mapM (rejectMessage host)
    if parsedMessages host messages = [] then
      .error (.validationError (py "No user/assistant messages found after filtering."))
    else
      (saveRows host db topic title (parsedMessages host messages) summary (sanitizeLabel source)
        (sanitizeTags tags) date today).mapError (toolError topic)

end Tools

structure EntryUpdateRequest where
  content : Option PyStr
  reasoning : Option PyStr
  date : Option PyStr
  tags : Option (List PyStr)
  topicPath : Option PyStr
  deriving DecidableEq

def EntryUpdateRequest.fieldUpdate (body : EntryUpdateRequest) : Bool :=
  body.content.isSome || body.reasoning.isSome || body.date.isSome || body.tags.isSome

structure ExtractedEntry where
  content : PyStr
  reasoning : PyStr
  tags : List PyStr
  entryDate : Option PyStr
  deriving DecidableEq

section Endpoints
variable {E : Type} (host : Host)

/-- `topics.get_id` of the path and `move_entries_to_topic` of the entry. -/
def moveEntry (db : JournalDb E) (id : EntryId) (path : PyStr) :
    Except WriteError (JournalDb E) := do
  let _ ← getId host db path
  if (active db.journal id).isSome then .ok db else .error (.entryNotFound id)

def patchError : WriteError → WriteError
  | .entryNotFound _ => .http 404 (py "entry_not_found")
  | .topicNotFound _ => .http 404 (py "topic_not_found")
  | .valueError message => .http 422 message
  | e => e

/-- `update_entry` of the web PATCH: no filter stands between the body and the row. -/
def patchEntry (db : JournalDb E) (id : EntryId) (body : EntryUpdateRequest) :
    Except WriteError (JournalDb E) :=
  if body.fieldUpdate || body.topicPath.isSome then Except.mapError patchError do
    let db ← if body.fieldUpdate then
        updateRow host db id body.content body.reasoning .replace body.date body.tags
      else .ok db
    match body.topicPath with
    | none => .ok db
    | some path => moveEntry host db id path
  else .error (.http 422 (py "no_fields_to_update"))

/-- The save also raises when a message cannot be sealed or bound. -/
def payloadOutcome (payload : Ingest.ConversationPayload) (outcome : Ingest.Outcome) :
    Ingest.Outcome :=
  { outcome with saveRaises := outcome.saveRaises ||
      !payload.messages.all (fun m => isTextParameter m.content) }

/-- One payload of a request whose inbox has been looked up. -/
def ingestPayload (db : JournalDb E) (payload : Ingest.ConversationPayload)
    (outcome : Ingest.Outcome) : JournalDb E :=
  (Ingest.ingestConversation ⟨db, [], Ingest.Tally.zero, false⟩ payload
    (payloadOutcome payload outcome)).db

/-- The upsert of the topic. -/
def ensureTopic (db : JournalDb E) (topicPath topicTitle : PyStr) :
    Except WriteError (JournalDb E) :=
  match getId host db topicPath with
  | .ok _ => .ok db
  | .error (.topicNotFound _) => createTopic host db topicPath topicTitle
  | .error e => .error e

/-- The loop over the entries that the model returned. -/
def appendExtracted (topicPath : PyStr) (today : Date) (db : JournalDb E)
    (entries : List ExtractedEntry) : Except WriteError (JournalDb E) :=
  entries.foldlM (fun db entry => appendRow host db topicPath entry.content (some entry.reasoning)
    entry.tags entry.entryDate today) db

/-- `_persist_extraction`. -/
def persistExtraction (db : JournalDb E) (topicPath topicTitle : PyStr)
    (entries : List ExtractedEntry) (today : Date) : Except WriteError (JournalDb E) := do
  let db ← ensureTopic host db topicPath topicTitle
  appendExtracted host topicPath today db entries

/-- The writes of `extract_conversation` after its two calls of the model. -/
def extractConversation (db : JournalDb E) (rawTopicPath : Option PyStr) (topicTitle : PyStr)
    (entries : List ExtractedEntry) (today : Date) : Except WriteError (JournalDb E) :=
  match hardenLlmTopicPath host.lowering rawTopicPath with
  | none => .ok db
  | some topicPath => persistExtraction host db topicPath topicTitle entries today

end Endpoints

/-- A transaction of a writer. A request to the ingest endpoint opens the inbox and
commits its payloads one by one. -/
inductive Write
  | appendEntry (topic content : PyStr) (reasoning : Option PyStr) (tags : List PyStr)
      (date : Option PyStr) (today : Date)
  | updateEntry (id : EntryId) (content reasoning : Option PyStr) (mode : Mode)
      (date : Option PyStr) (tags : Option (List PyStr))
  | saveConversation (topic title : PyStr) (messages : List MessageInput) (summary source : PyStr)
      (tags : List PyStr) (date : Option PyStr) (today : Date)
  | patch (id : EntryId) (body : EntryUpdateRequest)
  | openInbox
  | ingest (payload : Ingest.ConversationPayload) (outcome : Ingest.Outcome)
  | extract (rawTopicPath : Option PyStr) (topicTitle : PyStr) (entries : List ExtractedEntry)
      (today : Date)

section Sequences
variable {E : Type} (host : Host)

/-- What is committed: an error rolls the transaction back. -/
def commit (db : JournalDb E) : Except WriteError (JournalDb E) → JournalDb E
  | .ok written => written
  | .error _ => db

def write (db : JournalDb E) : Write → JournalDb E
  | .appendEntry topic content reasoning tags date today =>
    commit db (journalAppendEntry host db topic content reasoning tags date today)
  | .updateEntry id content reasoning mode date tags =>
    commit db (journalUpdateEntry host db id content reasoning mode date tags)
  | .saveConversation topic title messages summary source tags date today =>
    commit db (journalSaveConversation host db topic title messages summary source tags date today)
  | .patch id body => commit db (patchEntry host db id body)
  | .openInbox => Ingest.ensureInbox db
  | .ingest payload outcome => ingestPayload db payload outcome
  | .extract rawTopicPath topicTitle entries today =>
    commit db (extractConversation host db rawTopicPath topicTitle entries today)

def step (db : JournalDb E) (w : Write) : Option (JournalDb E) := some (write host db w)

end Sequences

end JournalWriters
