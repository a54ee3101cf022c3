import Gubbi.Journal.Listing

/-!
# The reads of the web API

The endpoints for entries and conversations call the listings and map what comes back
to the items of their responses. A column that does not decrypt leaves the sentinel in
its place and sets the flag of its item.
-/

namespace WebReads

open Text Cipher Queries JournalTables JournalRows

variable (rt : Runtime) (cipher : ContentCipher)

/-- `decrypt_field`. -/
def decryptField (encrypted nonce : Option Bytes) : Option PyStr × Bool :=
  match decryptContentField rt.aes cipher encrypted nonce with
  | .ok value => (value, false)
  | .error _ => (some DECRYPTION_FAILED_SENTINEL, true)

structure EntryItem where
  id : EntryId
  topicPath : PyStr
  date : PyStr
  content : PyStr
  tags : List PyStr
  conversationId : Option ConversationId
  createdAt : PyStr
  updatedAt : PyStr
  decryptionFailed : Bool
  deriving DecidableEq

structure EntryDetailResponse extends EntryItem where
  reasoning : Option PyStr
  deriving DecidableEq

def rowToItem (row : ListedRow) : EntryItem :=
  let content := decryptField rt cipher (some row.content.1) (some row.content.2)
  { id := row.id, topicPath := row.topicPath.getD [], date := row.date,
    content := content.1.getD [], tags := row.tags, conversationId := row.conversationId,
    createdAt := row.createdAt.isoformat, updatedAt := row.updatedAt.isoformat,
    decryptionFailed := content.2 }

def rowToDetail (view : EntryView) : EntryDetailResponse :=
  let content := decryptField rt cipher (some view.row.content.1) (some view.row.content.2)
  let reasoning := decryptField rt cipher view.row.reasoningEncrypted view.row.reasoningNonce
  { id := view.id, topicPath := view.path.getD [], date := view.row.date.text,
    content := content.1.getD [], reasoning := reasoning.1, tags := view.row.tags,
    conversationId := view.row.conversationId, createdAt := view.row.createdAt.isoformat,
    updatedAt := view.row.updatedAt.isoformat, decryptionFailed := content.2 || reasoning.2 }

def listEntries (db : Tables) (args : Listing.EntryFilter)
    (s : Sorter (Listing.entryOrder (args.sort ≠ py "newest"))) (limit offset : Nat) :
    Except ListingError (List EntryItem × Nat) :=
  (Listing.listEntries rt db args s (some limit) offset).map
    (fun page => (page.1.map (rowToItem rt cipher), page.2))

/-- `get_entry_by_id`: a deleted entry is not found. -/
def getEntryById (db : Tables) (id : EntryId) : Option EntryView :=
  (db.entries.get id).bind (fun row =>
    if row.deletedAt = none then
      (db.topics.get row.topicId).map (fun topic => ⟨id, row, some topic.path, none⟩)
    else none)

/-- `none` is the response `entry_not_found`. -/
def getEntry (db : Tables) (id : EntryId) : Option EntryDetailResponse :=
  (getEntryById db id).map (rowToDetail rt cipher)

structure ConversationItem where
  id : ConversationId
  topicPath : PyStr
  title : PyStr
  summary : PyStr
  source : PyStr
  platform : Option PyStr
  messageCount : Nat
  createdAt : PyStr
  updatedAt : PyStr
  decryptionFailed : Bool
  deriving DecidableEq

structure MessageItem where
  role : PyStr
  content : PyStr
  timestamp : Option PyStr
  position : Nat
  decryptionFailed : Bool
  deriving DecidableEq

def SUMMARY_PREVIEW_CHARS : Nat := 280

def truncateSummary (summary : PyStr) : PyStr :=
  if SUMMARY_PREVIEW_CHARS < summary.length then summary.take SUMMARY_PREVIEW_CHARS else summary

/-- `_to_item`. -/
def toItem (conversation : ConversationMeta) (truncate : Bool) : ConversationItem where
  id := conversation.id
  topicPath := conversation.topic
  title := conversation.title
  summary := if truncate then truncateSummary conversation.summary else conversation.summary
  source := conversation.source
  platform := none
  messageCount := conversation.messageCount
  createdAt := conversation.created
  updatedAt := conversation.updated
  decryptionFailed := conversation.decryptionFailed

/-- `_to_message`. -/
def toMessage (message : Message) (position : Nat) : MessageItem where
  role := message.role
  content := message.content
  timestamp := message.timestamp
  position := position
  decryptionFailed := message.decryptionFailed

def listConversations (db : Tables) (s : Sorter Listing.conversationOrder)
    (topicPrefix : Option PyStr) (limit offset : Nat) :
    Except ListingError (List ConversationItem × Nat) :=
  (Listing.listConversations rt db cipher s topicPrefix (some limit) offset true).map
    (fun page => (page.1.map (fun conversation => toItem conversation true), page.2))

structure ConversationDetailResponse where
  conversation : ConversationItem
  messages : List MessageItem
  messagesTotal : Nat
  messagesLimit : Nat
  messagesOffset : Nat

def getConversation (db : Tables) (s : Sorter Listing.messageOrder) (id : ConversationId)
    (messagesLimit messagesOffset : Nat) : Except ListingError ConversationDetailResponse :=
  (Listing.readConversationByIdPaginated rt db cipher s id messagesLimit messagesOffset true).map
    (fun found =>
      { conversation := toItem found.1 false
        messages := found.2.1.mapIdx (fun i message => toMessage message (messagesOffset + i))
        messagesTotal := found.2.2
        messagesLimit := messagesLimit
        messagesOffset := messagesOffset })

section Columns
variable {rt : Runtime} {cipher : ContentCipher}

/-- A pair of columns that are both there decrypts to a text or not at all. -/
theorem decryptContentField_sealed (columns : Sealed) :
    decryptContentField rt.aes cipher (some columns.1) (some columns.2) =
      (decryptSealed rt cipher columns).map some := by
  rw [decryptContentField, decryptSealed]
  cases decryptOrRaise rt.aes cipher columns.1 columns.2 with
  | error e => rfl
  | ok text => rfl

theorem decryptField_ok {encrypted nonce : Option Bytes} {value : Option PyStr}
    (decrypts : decryptContentField rt.aes cipher encrypted nonce = .ok value) :
    decryptField rt cipher encrypted nonce = (value, false) := by
  rw [decryptField, decrypts]

theorem decryptField_error {encrypted nonce : Option Bytes} {e : DecryptionError}
    (fails : decryptContentField rt.aes cipher encrypted nonce = .error e) :
    decryptField rt cipher encrypted nonce = (some DECRYPTION_FAILED_SENTINEL, true) := by
  rw [decryptField, fails]

theorem decryptField_sealed_ok {columns : Sealed} {text : PyStr}
    (decrypts : decryptSealed rt cipher columns = .ok text) :
    decryptField rt cipher (some columns.1) (some columns.2) = (some text, false) := by
  refine decryptField_ok ?_
  rw [decryptContentField_sealed, decrypts]
  rfl

theorem decryptField_sealed_error {columns : Sealed} {e : DecryptionError}
    (fails : decryptSealed rt cipher columns = .error e) :
    decryptField rt cipher (some columns.1) (some columns.2) =
      (some DECRYPTION_FAILED_SENTINEL, true) := by
  refine decryptField_error (e := e) ?_
  rw [decryptContentField_sealed, fails]
  rfl

theorem truncateSummary_eq (summary : PyStr) :
    truncateSummary summary = summary.take SUMMARY_PREVIEW_CHARS := by
  unfold truncateSummary
  split
  · rfl
  · next short => exact (List.take_of_length_le (by omega)).symm

end Columns

end WebReads
