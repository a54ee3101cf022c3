import Gubbi.Crypto.Cipher
import Gubbi.Journal.Tables
import Gubbi.Validation

/-!
# What the repositories make of a row

The models `TopicMeta`, `Entry`, `ConversationMeta` and `Message`, and the items of
a timeline, built from rows with their texts decrypted. Some builders raise on a
row that does not decrypt and some put a sentinel in its place. A column that is
`NOT NULL` is always there, so the checks for an absent one are left out.
-/

namespace JournalRows

open Text Validation Cipher Queries JournalTables

/-- The session and the interpreter the queries run in. -/
structure Runtime where
  lowering : Lowering
  /-- `\d` of a pattern, a decimal digit of any script. -/
  isDecimal : CodePoint → Bool
  /-- Whether `datetime.strptime(value, "%Y-%m-%d")` returns. -/
  strptime : PyStr → Bool
  /-- `date.fromisoformat`, with the message of its `ValueError`. -/
  fromIsoformat : PyStr → Except PyStr Date
  /-- `::date` in the time zone of the session. -/
  sessionDate : Timestamp → Date
  /-- The order of texts, of a deterministic collation. -/
  collation : Comparison PyStr
  collation_tied : ∀ a b, collation.Tied a b ↔ a = b
  aes : AesGcm

/-- Where a pydantic model rejects a value. -/
inductive Location
  | topic
  | tag (index : Nat)
  deriving DecidableEq

inductive ListingError
  | valueError (message : PyStr)
  | topicNotFound (message : PyStr)
  | conversationNotFound (message : PyStr)
  | runtimeError (message : PyStr)
  | decryptionError (error : DecryptionError)
  | validationError (locations : List Location)
  /-- asyncpg: the numbers of placeholders and of arguments differ. -/
  | interfaceError (expected passed : Nat)
  deriving DecidableEq

def number (n : Nat) : PyStr := py (toString n)

structure TopicMeta where
  id : TopicId
  topic : PyStr
  title : PyStr
  description : PyStr
  created : PyStr
  updated : PyStr
  entryCount : Nat
  deriving DecidableEq

structure Entry where
  id : EntryId
  date : PyStr
  content : PyStr
  reasoning : Option PyStr
  conversationId : Option ConversationId
  tags : List PyStr
  deriving DecidableEq

structure ConversationMeta where
  id : ConversationId
  source : PyStr
  title : PyStr
  topic : PyStr
  tags : List PyStr
  created : PyStr
  updated : PyStr
  summary : PyStr
  participants : List PyStr
  messageCount : Nat
  decryptionFailed : Bool
  deriving DecidableEq

structure Message where
  role : PyStr
  content : PyStr
  timestamp : Option PyStr
  decryptionFailed : Bool
  deriving DecidableEq

/-- A model whose fields failed at these places is not built. -/
def checked {B : Type} (failures : List Location) (value : B) : Except ListingError B :=
  if failures = [] then .ok value else .error (.validationError failures)

/-- `Tag128`. -/
def tagFailures (tags : List PyStr) : List Location :=
  (tags.zipIdx.filter (fun tag => 128 < tag.1.length)).map (fun tag => .tag tag.2)

variable (rt : Runtime)

/-- The validator of a `topic` field: the path it stores, and where it fails. -/
def checkTopic (path : PyStr) : PyStr × List Location :=
  match validateTopic rt.lowering path with
  | .ok topic => (topic, [])
  | .error _ => (path, [.topic])

/-- `decrypt_content_field` of two `NOT NULL` columns. -/
def decryptSealed (cipher : ContentCipher) (columns : Sealed) : Except DecryptionError PyStr :=
  decryptOrRaise rt.aes cipher columns.1 columns.2

def DECRYPTION_FAILED_SENTINEL : PyStr := py "[decryption failed]"

/-- `_decrypt_field_soft` and `_decrypt_message_content_soft`. -/
def decryptSoft (cipher : ContentCipher) (columns : Sealed) : PyStr × Bool :=
  match decryptSealed rt cipher columns with
  | .ok text => (text, false)
  | .error _ => (DECRYPTION_FAILED_SENTINEL, true)

structure TopicView where
  id : TopicId
  row : TopicRow
  entryCount : Nat
  deriving DecidableEq

def rowToTopicMeta (view : TopicView) : Except ListingError TopicMeta :=
  let topic := checkTopic rt view.row.path
  checked topic.2
    { id := view.id, topic := topic.1, title := view.row.title,
      description := view.row.description, created := view.row.createdAt.date.text,
      updated := view.row.updatedAt.date.text, entryCount := view.entryCount }

/-- A row of `entries` with the columns of its joins, where there are joins. -/
structure EntryView where
  id : EntryId
  row : EntryRow
  path : Option PyStr
  source : Option PyStr
  deriving DecidableEq

/-- The content and the reasoning; the first that fails is the error of both. -/
def entryTexts (cipher : ContentCipher) (row : EntryRow) :
    Except DecryptionError (PyStr × Option PyStr) :=
  match decryptSealed rt cipher row.content with
  | .error e => .error e
  | .ok content =>
    match decryptContentField rt.aes cipher row.reasoningEncrypted row.reasoningNonce with
    | .error e => .error e
    | .ok reasoning => .ok (content, reasoning)

/-- `_build_entry`; its sentinel has a dash. -/
def buildEntry (cipher : ContentCipher) (view : EntryView) : Except ListingError Entry :=
  let texts := match entryTexts rt cipher view.row with
    | .ok texts => texts
    | .error _ => (py "[decryption-failed]", none)
  checked (tagFailures view.row.tags)
    { id := view.id, date := view.row.date.text, content := texts.1, reasoning := texts.2,
      conversationId := view.row.conversationId, tags := view.row.tags }

/-- A raw row of `list_entries`, which also repeats the total. -/
structure ListedRow where
  id : EntryId
  topicPath : Option PyStr
  date : PyStr
  content : Sealed
  tags : List PyStr
  conversationId : Option ConversationId
  createdAt : Timestamp
  updatedAt : Timestamp
  deriving DecidableEq

def listedRow (view : EntryView) : Except ListingError ListedRow :=
  .ok
    { id := view.id, topicPath := view.path, date := view.row.date.text,
      content := view.row.content, tags := view.row.tags,
      conversationId := view.row.conversationId, createdAt := view.row.createdAt,
      updatedAt := view.row.updatedAt }

structure ConversationView where
  id : ConversationId
  row : ConversationRow
  topic : PyStr
  deriving DecidableEq

def conversationMeta (view : ConversationView) (title summary : PyStr) (failed : Bool) :
    Except ListingError ConversationMeta :=
  let topic := checkTopic rt view.topic
  checked (topic.2 ++ tagFailures view.row.tags)
    { id := view.id, source := view.row.source, title := title, topic := topic.1,
      tags := view.row.tags, created := view.row.createdAt.date.text,
      updated := view.row.updatedAt.date.text, summary := summary,
      participants := view.row.participants, messageCount := view.row.messageCount,
      decryptionFailed := failed }

/-- `_row_to_meta`. -/
def rowToMeta (cipher : ContentCipher) (softFail : Bool) (view : ConversationView) :
    Except ListingError ConversationMeta :=
  if softFail then
    let title := decryptSoft rt cipher view.row.title
    let summary := decryptSoft rt cipher view.row.summary
    conversationMeta rt view title.1 summary.1 (title.2 || summary.2)
  else
    match decryptSealed rt cipher view.row.title with
    | .error e => .error (.decryptionError e)
    | .ok title =>
      match decryptSealed rt cipher view.row.summary with
      | .error e => .error (.decryptionError e)
      | .ok summary => conversationMeta rt view title summary false

/-- `_message_from_row`. -/
def messageFromRow (cipher : ContentCipher) (softFail : Bool) (row : MessageRow) :
    Except ListingError Message :=
  let timestamp := row.timestamp.map Timestamp.isoformat
  if softFail then
    let content := decryptSoft rt cipher row.content
    .ok ⟨row.role, content.1, timestamp, content.2⟩
  else
    match decryptSealed rt cipher row.content with
    | .error e => .error (.decryptionError e)
    | .ok content => .ok ⟨row.role, content, timestamp, false⟩

inductive DocType
  | entry
  | conversation
  deriving DecidableEq, Repr

def DocType.text : DocType → PyStr
  | .entry => py "entry"
  | .conversation => py "conversation"

/-- A row of the union of entries and conversations. -/
structure TimelineRow where
  docId : Nat
  docType : DocType
  date : PyStr
  content : Option Sealed
  title : Option Sealed
  summary : Option Sealed
  tags : List PyStr
  topic : PyStr
  topicTitle : PyStr
  convId : Option ConversationId
  deriving DecidableEq

/-- An item; its keys `topic_title` and `description` are there in one of the two shapes. -/
structure TimelineItem where
  entryId : Option EntryId
  conversationId : Option ConversationId
  docType : DocType
  topic : PyStr
  topicTitle : Option PyStr
  title : PyStr
  description : Option PyStr
  updated : PyStr
  tags : List PyStr
  deriving DecidableEq

def SNIPPET_PREVIEW_LEN : Nat := 200

def decryptColumns (cipher : ContentCipher) (columns : Option Sealed) :
    Except DecryptionError (Option PyStr) :=
  decryptContentField rt.aes cipher (columns.map Prod.fst) (columns.map Prod.snd)

/-- `_build_entry_title`. -/
def buildEntryTitle (row : TimelineRow) : PyStr :=
  if row.topicTitle ≠ [] ∧ row.date ≠ [] then row.topicTitle ++ py " (" ++ row.date ++ py ")"
  else if row.topicTitle ≠ [] then row.topicTitle
  else row.date

/-- `_decrypt_conv_title_or_none`. -/
def decryptConvTitleOrNone (cipher : Option ContentCipher) (row : TimelineRow) : PyStr :=
  match cipher with
  | none => row.topicTitle
  | some cipher =>
    match decryptColumns rt cipher row.title with
    | .ok title => title.getD []
    | .error _ => row.topicTitle

/-- `_to_title_only_row`. -/
def toTitleOnlyRow (cipher : Option ContentCipher) (row : TimelineRow) : TimelineItem :=
  match row.docType with
  | .entry =>
    { entryId := some row.docId, conversationId := none, docType := .entry, topic := row.topic,
      topicTitle := some row.topicTitle, title := buildEntryTitle row, description := none,
      updated := row.date, tags := row.tags }
  | .conversation =>
    { entryId := none, conversationId := row.convId, docType := .conversation, topic := row.topic,
      topicTitle := some row.topicTitle, title := decryptConvTitleOrNone rt cipher row,
      description := none, updated := row.date, tags := row.tags }

/-- `content.split("\n", 1)[0][:80]`, or the title of the topic. -/
def firstLine (content topicTitle : PyStr) : PyStr :=
  let line := (content.takeWhile (fun c => c ≠ ofChar '\n')).take 80
  if line ≠ [] then line else topicTitle

/-- `_to_full_row`. -/
def toFullRow (cipher : ContentCipher) (row : TimelineRow) : Except ListingError TimelineItem :=
  match row.docType with
  | .entry =>
    match decryptColumns rt cipher row.content with
    | .error e => .error (.decryptionError e)
    | .ok none =>
      .error (.runtimeError (py "Entry " ++ number row.docId ++
        py ": content decrypted to None; schema invariant violated"))
    | .ok (some content) =>
      .ok
        { entryId := some row.docId, conversationId := none, docType := .entry,
          topic := row.topic, topicTitle := none, title := firstLine content row.topicTitle,
          description := some (content.take SNIPPET_PREVIEW_LEN), updated := row.date,
          tags := row.tags }
  | .conversation =>
    match decryptColumns rt cipher row.title with
    | .error e => .error (.decryptionError e)
    | .ok title =>
      match decryptColumns rt cipher row.summary with
      | .error e => .error (.decryptionError e)
      | .ok summary =>
        match title, summary with
        | some title, some summary =>
          .ok
            { entryId := none, conversationId := row.convId, docType := .conversation,
              topic := row.topic, topicTitle := none, title := title,
              description := some (summary.take SNIPPET_PREVIEW_LEN), updated := row.date,
              tags := row.tags }
        | _, _ => .error (.runtimeError
            (py "Conversation title/summary decrypted to None; schema invariant violated"))

end JournalRows
