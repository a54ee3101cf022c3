import Gubbi.Journal.Rows
import Gubbi.Library.Like

/-!
# Listings

`entries.read`, `list_entries` and `get_by_date_range`, `list_conversations`,
`read_conversation_by_id_paginated` and `topics.list_all`. Two of them put their
statement together from parts with numbered placeholders, the others have a fixed
one. How the planner orders rows that tie is an argument of each call. Limits and
offsets are natural numbers here.
-/

namespace Listing

open Text Validation Cipher Queries JournalTables JournalRows

variable (rt : Runtime)

/-- `DATE_PATTERN`; its `$` also matches before a last line feed. -/
def matchesDatePattern (value : PyStr) : Bool :=
  decide (10 ≤ value.length) &&
    ((py "0000-00-00").zip value).all
      (fun p => if p.1 = ofChar '0' then rt.isDecimal p.2 else p.2 = p.1) &&
    decide (value.drop 10 ∈ [[], py "\n"])

def validateDate (value : PyStr) : Except ListingError Unit :=
  if !matchesDatePattern rt value then
    .error (.valueError (py "Invalid date '" ++ value ++ py "'. Must be YYYY-MM-DD format."))
  else if !rt.strptime value then
    .error (.valueError (py "Invalid calendar date '" ++ value ++ py "'."))
  else .ok ()

/-- An argument that is neither `None` nor empty. -/
def given (value : Option PyStr) : Option PyStr := value.filter (fun s => s ≠ [])

/-- `if date: _validate_date(date)`. -/
def checkBound (value : Option PyStr) : Except ListingError Unit :=
  match given value with
  | none => .ok ()
  | some value => validateDate rt value

def fromIsoformat (value : PyStr) : Except ListingError Date :=
  match rt.fromIsoformat value with
  | .ok date => .ok date
  | .error message => .error (.valueError message)

/-- `if date: ... date_cls.fromisoformat(date)`. -/
def parseBound (value : Option PyStr) : Except ListingError (Option Date) :=
  match given value with
  | none => .ok none
  | some value => (fromIsoformat rt value).map some

def likeAlphabet : Like.Alphabet CodePoint where
  many := ofChar '%'
  one := ofChar '_'
  escape := ofChar '!'
  many_ne_one := by decide
  many_ne_escape := by decide
  one_ne_escape := by decide

/-- `str.replace` of one character. -/
def replace (c : CodePoint) (new s : PyStr) : PyStr :=
  s.flatMap (fun d => if d = c then new else [d])

def escapeLike (s : PyStr) : PyStr :=
  replace (ofChar '_') (py "!_") (replace (ofChar '%') (py "!%") (replace (ofChar '!') (py "!!") s))

/-- A validated topic prefix and its pattern; no filter without a prefix. -/
def topicFilter (topicPrefix : Option PyStr) :
    Except ListingError (Option PyStr × Option PyStr) :=
  match given topicPrefix with
  | none => .ok (topicPrefix, none)
  | some value =>
    match validateTopic rt.lowering value with
    | .error message => .error (.valueError message)
    | .ok value => .ok (some value, some (escapeLike value ++ py "%"))

/-- `$1 IS NULL OR t.path LIKE $1 ESCAPE '!'`. -/
def pathMatches (pattern : Option PyStr) (path : PyStr) : Bool :=
  pattern.all (fun pattern => Like.like likeAlphabet pattern path)

inductive Param
  | int (n : Nat)
  | date (d : Date)
  | text (s : PyStr)
  | textArray (texts : List PyStr)

/-- Append the value; its placeholder is `$N`. -/
def addParam (params : List Param) (value : Param) : List Param × Nat :=
  (params ++ [value], params.length + 1)

/-- The comparisons of a `WHERE` with an argument. -/
inductive Test
  | topicId
  | path
  | dateFrom
  | dateTo
  | tags
  | source
  deriving DecidableEq

/-- A `NULL` in a comparison selects nothing. -/
def Test.holds : Test → EntryView → Param → Bool
  | .topicId, view, .int n => view.row.topicId = n
  | .path, view, .text s => view.path = some s
  | .dateFrom, view, .date d => d.le view.row.date
  | .dateTo, view, .date d => view.row.date.le d
  | .tags, view, .textArray texts => texts.all (fun tag => tag ∈ view.row.tags)
  | .source, view, .text s => view.source = some s
  | _, _, _ => false

inductive Part
  | notDeleted
  | compare (test : Test) (placeholder : Nat)

def Part.placeholder : Part → Nat
  | .notDeleted => 0
  | .compare _ placeholder => placeholder

def param (params : List Param) : Nat → Option Param
  | 0 => none
  | n + 1 => params[n]?

def Part.holds (params : List Param) (view : EntryView) : Part → Bool
  | .notDeleted => view.row.deletedAt = none
  | .compare test placeholder => (param params placeholder).any (test.holds view)

def highest (parts : List Part) : Nat := (parts.map Part.placeholder).foldl max 0

/-- `where_parts` with `params`. -/
structure Filter where
  parts : List Part
  params : List Param
  complete : highest parts = params.length

namespace Filter

def start : Filter := ⟨[], [], rfl⟩

def notDeleted (f : Filter) : Filter where
  parts := f.parts ++ [.notDeleted]
  params := f.params
  complete := by
    rw [highest, List.map_append, List.foldl_append]
    exact (Nat.max_zero _).trans f.complete

/-- `where_parts.append(f"... {_add_param(params, value)}")`. -/
def add (f : Filter) (test : Test) (value : Param) : Filter where
  parts := f.parts ++ [.compare test (addParam f.params value).2]
  params := (addParam f.params value).1
  complete := by
    have below : highest f.parts ≤ f.params.length + 1 :=
      Nat.le_succ_of_le (Nat.le_of_eq f.complete)
    rw [highest, List.map_append, List.foldl_append, addParam, List.length_append]
    exact Nat.max_eq_right below

def addIf (f : Filter) (test : Test) (value : Option Param) : Filter :=
  match value with
  | none => f
  | some value => f.add test value

def selects (f : Filter) (view : EntryView) : Bool :=
  f.parts.all (fun part => part.holds f.params view)

end Filter

/-- The params with those of `LIMIT` and `OFFSET`, and their placeholders. -/
structure Pagination where
  params : List Param
  limitAt : Option Nat
  offsetAt : Option Nat

def paginate (params : List Param) (limit : Option Nat) (offset : Nat) : Pagination :=
  match limit with
  | some limit =>
    let limited := addParam params (.int limit)
    let paged := addParam limited.1 (.int offset)
    ⟨paged.1, some limited.2, some paged.2⟩
  | none =>
    if 0 < offset then
      let paged := addParam params (.int offset)
      ⟨paged.1, none, some paged.2⟩
    else ⟨params, none, none⟩

def intParam (params : List Param) (placeholder : Option Nat) : Option Nat :=
  match placeholder.bind (param params) with
  | some (.int n) => some n
  | _ => none

/-- asyncpg counts the placeholders of a statement and the arguments of a call. -/
def bindArguments (expected : Nat) (params : List Param) : Except ListingError Unit :=
  if params.length = expected then .ok () else .error (.interfaceError expected params.length)

/-- The rows with the window count, ordered and paged. -/
def fetch {c : Comparison EntryView} (rows : List EntryView) (s : Sorter c) (parts : List Part)
    (paged : Pagination) : Except ListingError (List (EntryView × Nat)) :=
  let expected := max (highest parts) (max (paged.limitAt.getD 0) (paged.offsetAt.getD 0))
  match bindArguments expected paged.params with
  | .error e => .error e
  | .ok () =>
    let selected := rows.filter (fun view => parts.all (Part.holds paged.params view))
    .ok (page (intParam paged.params paged.limitAt) ((intParam paged.params paged.offsetAt).getD 0)
      (window (s.sort selected)))

/-- `SELECT COUNT(*)` over the same parts. -/
def fetchval (rows : List EntryView) (parts : List Part) (params : List Param) :
    Except ListingError Nat :=
  match bindArguments (highest parts) params with
  | .error e => .error e
  | .ok () => .ok (rows.countP (fun view => parts.all (Part.holds params view)))

/-- `FROM entries`. -/
def entryRows (db : Tables) : List EntryView :=
  db.entries.rows.map (fun row => ⟨row.1, row.2, none, none⟩)

/-- `FROM entries e JOIN topics t LEFT JOIN conversations c`. -/
def joinedEntryRows (db : Tables) : List EntryView :=
  db.entries.rows.filterMap (fun row => (db.topics.get row.2.topicId).map (fun topic =>
    ⟨row.1, row.2, some topic.path,
      (row.2.conversationId.bind db.conversations.get).map ConversationRow.source⟩))

/-- `ORDER BY date, created_at, id`, all in one direction. -/
def entryOrder (ascending : Bool) : Comparison EntryView :=
  (Comparison.directed ascending Date.comparison (fun view => view.row.date)).andThen
    ((Comparison.directed ascending Timestamp.comparison (fun view => view.row.createdAt)).andThen
      (Comparison.directed ascending Comparison.nat EntryView.id))

/-- The entries of a topic that are not deleted. -/
def entryCount (db : Tables) (id : TopicId) : Nat :=
  db.entries.countWhere (fun _ row => row.topicId = id && row.deletedAt = none)

/-- `topics.get`. -/
def getTopic (db : Tables) (topic : PyStr) : Except ListingError (Option TopicMeta) :=
  match validateTopic rt.lowering topic with
  | .error message => .error (.valueError message)
  | .ok path =>
    match db.topics.rows.find? (fun row => row.2.path = path) with
    | none => .ok none
    | some row => (rowToTopicMeta rt ⟨row.1, row.2, entryCount db row.1⟩).map some

/-- What `read` checks before it selects. -/
def readArgs (db : Tables) (topic : PyStr) (dateFrom dateTo : Option PyStr) :
    Except ListingError (TopicMeta × Option Date × Option Date) := do
  checkBound rt dateFrom
  checkBound rt dateTo
  match ← getTopic rt db topic with
  | none => throw (.topicNotFound (py "Topic '" ++ topic ++ py "' not found"))
  | some topicMeta =>
    let dateFrom ← parseBound rt dateFrom
    let dateTo ← parseBound rt dateTo
    return (topicMeta, dateFrom, dateTo)

def readFilter (id : TopicId) (dateFrom dateTo : Option Date) : Filter :=
  (((Filter.start.add .topicId (.int id)).notDeleted).addIf .dateFrom (dateFrom.map .date)).addIf
    .dateTo (dateTo.map .date)

/-- Newest first. A limit of 0 is no limit. -/
def read (db : Tables) (cipher : ContentCipher) (s : Sorter (entryOrder false)) (topic : PyStr)
    (limit : Option Nat) (dateFrom dateTo : Option PyStr) (offset : Nat) :
    Except ListingError (TopicMeta × List Entry × Nat) :=
  match readArgs rt db topic dateFrom dateTo with
  | .error e => .error e
  | .ok (topicMeta, dateFrom, dateTo) =>
    let filter := readFilter topicMeta.id dateFrom dateTo
    let sqlLimit := limit.filter (fun n => 0 < n)
    match fetch (entryRows db) s filter.parts (paginate filter.params sqlLimit offset) with
    | .error e => .error e
    | .ok rows =>
      match countedPage rows (fetchval (entryRows db) filter.parts filter.params)
          (buildEntry rt cipher) with
      | .error e => .error e
      | .ok (entries, total) => .ok (topicMeta, entries, total)

structure EntryFilter where
  topic : Option PyStr
  dateFrom : Option PyStr
  dateTo : Option PyStr
  tags : List PyStr
  source : Option PyStr
  sort : PyStr

def checkSort (sort : PyStr) : Except ListingError Unit :=
  if sort = py "newest" ∨ sort = py "oldest" then .ok ()
  else .error (.valueError
    (py "Invalid sort '" ++ sort ++ py "'. Use 'newest' or 'oldest'."))

def topicPath (topic : Option PyStr) : Except ListingError (Option PyStr) :=
  match given topic with
  | none => .ok none
  | some topic =>
    match validateTopic rt.lowering topic with
    | .error message => .error (.valueError message)
    | .ok path => .ok (some path)

/-- What `list_entries` checks before it selects: the path and the date bounds. -/
def listArgs (args : EntryFilter) :
    Except ListingError (Option PyStr × Option Date × Option Date) := do
  checkBound rt args.dateFrom
  checkBound rt args.dateTo
  checkSort args.sort
  let topic ← topicPath rt args.topic
  let dateFrom ← parseBound rt args.dateFrom
  let dateTo ← parseBound rt args.dateTo
  return (topic, dateFrom, dateTo)

/-- A filter on tags with at least one of them. -/
def tagsParam (tags : List PyStr) : Option Param :=
  if tags = [] then none else some (.textArray tags)

def listFilter (args : EntryFilter) (topic : Option PyStr) (dateFrom dateTo : Option Date) :
    Filter :=
  ((((Filter.start.notDeleted.addIf .path (topic.map .text)).addIf .dateFrom
    (dateFrom.map .date)).addIf .dateTo (dateTo.map .date)).addIf .tags (tagsParam args.tags)).addIf
      .source ((given args.source).map .text)

/-- The count takes the first of the params, those of the filter. -/
def listEntries (db : Tables) (args : EntryFilter)
    (s : Sorter (entryOrder (args.sort ≠ py "newest"))) (limit : Option Nat) (offset : Nat) :
    Except ListingError (List ListedRow × Nat) :=
  match listArgs rt args with
  | .error e => .error e
  | .ok (topic, dateFrom, dateTo) =>
    let filter := listFilter args topic dateFrom dateTo
    let whereParamCount := filter.params.length
    let paged := paginate filter.params limit offset
    match fetch (joinedEntryRows db) s filter.parts paged with
    | .error e => .error e
    | .ok rows =>
      countedPage rows
        (fetchval (joinedEntryRows db) filter.parts (paged.params.take whereParamCount)) listedRow

/-- The first half of the union; `updated` of an entry is its date. -/
def timelineEntries (db : Tables) (dateFrom dateTo : Date) (pattern : Option PyStr) :
    List TimelineRow :=
  db.entries.rows.filterMap (fun row => (db.topics.get row.2.topicId).bind (fun topic =>
    if dateFrom.le row.2.date && row.2.date.le dateTo && row.2.deletedAt = none &&
        row.2.conversationId = none && pathMatches pattern topic.path then
      some
        { docId := row.1, docType := .entry, date := row.2.date.text, content := some row.2.content,
          title := none, summary := none, tags := row.2.tags, topic := topic.path,
          topicTitle := topic.title, convId := none }
    else none))

/-- The second half, on the day of `created_at`. -/
def timelineConversations (db : Tables) (dateFrom dateTo : Date) (pattern : Option PyStr) :
    List TimelineRow :=
  db.conversations.rows.filterMap (fun row => (db.topics.get row.2.topicId).bind (fun topic =>
    let day := rt.sessionDate row.2.createdAt
    if dateFrom.le day && day.le dateTo && pathMatches pattern topic.path then
      some
        { docId := row.1, docType := .conversation, date := day.text, content := none,
          title := some row.2.title, summary := some row.2.summary, tags := row.2.tags,
          topic := topic.path, topicTitle := topic.title, convId := some row.1 }
    else none))

def timelineRows (db : Tables) (dateFrom dateTo : Date) (pattern : Option PyStr) :
    List TimelineRow :=
  timelineEntries db dateFrom dateTo pattern ++ timelineConversations rt db dateFrom dateTo pattern

/-- `ORDER BY date, doc_type ASC, doc_id`; the date is a text by then. -/
def timelineOrder (ascending : Bool) : Comparison TimelineRow :=
  (Comparison.directed ascending rt.collation TimelineRow.date).andThen
    ((rt.collation.asc (fun row => row.docType.text)).andThen
      (Comparison.directed ascending Comparison.nat TimelineRow.docId))

/-- What `get_by_date_range` checks before it selects. -/
def rangeArgs (dateFrom dateTo : PyStr) (topicPrefix : Option PyStr) :
    Except ListingError (Date × Date × Option PyStr) := do
  let topic ← topicFilter rt topicPrefix
  let dateFrom ← fromIsoformat rt dateFrom
  let dateTo ← fromIsoformat rt dateTo
  return (dateFrom, dateTo, topic.2)

/-- The shape of an item, with a cipher where the texts are decrypted. -/
def timelineItem (cipher : Option ContentCipher) (titleOnly : Bool) (row : TimelineRow) :
    Except ListingError TimelineItem :=
  if titleOnly then .ok (toTitleOnlyRow rt cipher row)
  else
    match cipher with
    | none =>
      .error (.runtimeError (py "get_by_date_range requires cipher when title_only=False"))
    | some cipher => toFullRow rt cipher row

def getByDateRange (db : Tables) (cipher : Option ContentCipher) (dateFrom dateTo : PyStr)
    (limit : Option Nat) (ascending : Bool) (s : Sorter (timelineOrder rt ascending)) (offset : Nat)
    (titleOnly : Bool) (topicPrefix : Option PyStr) : Except ListingError (List TimelineItem) :=
  match rangeArgs rt dateFrom dateTo topicPrefix with
  | .error e => .error e
  | .ok (dateFrom, dateTo, pattern) =>
    let rows := page limit offset (s.sort (timelineRows rt db dateFrom dateTo pattern))
    if cipher = none ∧ titleOnly = false then
      .error (.runtimeError (py "get_by_date_range requires cipher when title_only=False"))
    else rows.mapM (timelineItem rt cipher titleOnly)

/-- `FROM conversations c JOIN topics t`. -/
def conversationViews (db : Tables) : List ConversationView :=
  db.conversations.rows.filterMap (fun row => (db.topics.get row.2.topicId).map (fun topic =>
    ⟨row.1, row.2, topic.path⟩))

def conversationOrder : Comparison ConversationView :=
  (Timestamp.comparison.desc (fun view => view.row.createdAt)).andThen
    (Comparison.nat.desc ConversationView.id)

def countConversations (db : Tables) (topicPrefix : Option PyStr) : Except ListingError Nat :=
  match topicFilter rt topicPrefix with
  | .error e => .error e
  | .ok (_, pattern) =>
    .ok ((conversationViews db).countP (fun view => pathMatches pattern view.topic))

def listConversations (db : Tables) (cipher : ContentCipher) (s : Sorter conversationOrder)
    (topicPrefix : Option PyStr) (limit : Option Nat) (offset : Nat) (softFail : Bool) :
    Except ListingError (List ConversationMeta × Nat) :=
  match topicFilter rt topicPrefix with
  | .error e => .error e
  | .ok (topicPrefix, pattern) =>
    let selected := (conversationViews db).filter (fun view => pathMatches pattern view.topic)
    countedPage (page limit offset (window (s.sort selected)))
      (countConversations rt db topicPrefix) (rowToMeta rt cipher softFail)

def messageOrder : Comparison MessageRow := Comparison.nat.asc MessageRow.position

/-- The row of a conversation with the path of its topic. -/
def conversationView (db : Tables) (id : ConversationId) : Except ListingError ConversationView :=
  match (conversationViews db).find? (fun view => view.id = id) with
  | none =>
    .error (.conversationNotFound (py "Conversation id " ++ number id ++ py " not found"))
  | some view => .ok view

/-- The total is the `message_count` of the row. -/
def readConversationByIdPaginated (db : Tables) (cipher : ContentCipher) (s : Sorter messageOrder)
    (id : ConversationId) (messagesLimit messagesOffset : Nat) (softFail : Bool) :
    Except ListingError (ConversationMeta × List Message × Nat) :=
  match conversationView db id with
  | .error e => .error e
  | .ok view =>
    match rowToMeta rt cipher softFail view with
    | .error e => .error e
    | .ok conversationMeta =>
      let rows := page (some messagesLimit) messagesOffset (s.sort (messagesOf db.messages id))
      match rows.mapM (messageFromRow rt cipher softFail) with
      | .error e => .error e
      | .ok messages => .ok (conversationMeta, messages, view.row.messageCount)

/-- `FROM topics t LEFT JOIN entries e ... GROUP BY t.id`. -/
def topicViews (db : Tables) : List TopicView :=
  db.topics.rows.map (fun row => ⟨row.1, row.2, entryCount db row.1⟩)

def topicOrder : Comparison TopicView :=
  (Timestamp.comparison.desc (fun view => view.row.updatedAt)).andThen
    (Comparison.nat.desc TopicView.id)

/-- `topics.count`. -/
def countTopics (db : Tables) (topicPrefix : Option PyStr) : Except ListingError Nat :=
  match topicFilter rt topicPrefix with
  | .error e => .error e
  | .ok (_, pattern) => .ok (db.topics.countWhere (fun _ row => pathMatches pattern row.path))

def listAll (db : Tables) (s : Sorter topicOrder) (topicPrefix : Option PyStr) (limit : Option Nat)
    (offset : Nat) : Except ListingError (List TopicMeta × Nat) :=
  match topicFilter rt topicPrefix with
  | .error e => .error e
  | .ok (topicPrefix, pattern) =>
    let selected := (topicViews db).filter (fun view => pathMatches pattern view.row.path)
    countedPage (page limit offset (window (s.sort selected))) (countTopics rt db topicPrefix)
      (rowToTopicMeta rt)

def codePoints : Comparison CodePoint := Comparison.nat.asc Fin.val

/-- Two dates of `date.fromisoformat`. -/
def sampleDate (value : PyStr) : Except PyStr Date :=
  if value = py "2026-02-01" then .ok ⟨2026, 2, 1, by decide⟩
  else if value = py "2026-02-28" then .ok ⟨2026, 2, 28, by decide⟩
  else .error (py "Invalid isoformat string: '" ++ value ++ py "'")

/-- A session in UTC with the collation `C`. -/
def sampleRuntime : Runtime where
  lowering := ⟨lowerAscii, fun _ _ => rfl⟩
  isDecimal := isDigit
  strptime value := (sampleDate value).isOk
  fromIsoformat := sampleDate
  sessionDate := Timestamp.date
  collation := codePoints.lists
  collation_tied := Comparison.tied_lists fun _ _ =>
    Comparison.tied_nat.trans ⟨Fin.ext, congrArg Fin.val⟩
  aes := sampleGcm

def sampleTime : Timestamp := ⟨⟨2026, 2, 28, by decide⟩, 0, by decide⟩

def sampleSealed : Sealed := (sampleCiphertext1, sampleNonce1)

/-- An entry of the sample, which only its id and its link tell from the others. -/
def sampleEntry (conversationId : Option ConversationId) : EntryRow :=
  { topicId := 1, date := sampleTime.date, conversationId := conversationId, tags := [],
    createdAt := sampleTime, updatedAt := sampleTime, deletedAt := none, content := sampleSealed,
    reasoningEncrypted := none, reasoningNonce := none }

def sampleConversation : ConversationRow :=
  { topicId := 1, slug := py "talk", source := py "claude", title := sampleSealed,
    summary := sampleSealed, tags := [], participants := [], messageCount := 0,
    createdAt := sampleTime, updatedAt := sampleTime }

/-- A topic with a conversation, the entry that is linked to it and two that are not. -/
def sampleTables : Tables where
  topics := ⟨[(1, ⟨py "work", py "Work", [], sampleTime, sampleTime⟩)], by decide⟩
  entries := ⟨[(4, sampleEntry none), (5, sampleEntry (some 7)), (6, sampleEntry none)], by decide⟩
  conversations := ⟨[(7, sampleConversation)], by decide⟩
  messages := []
  paths := by decide
  slugs := by decide
  entryTopics := by decide
  conversationTopics := by decide
  numbered := by unfold Numbered; decide

end Listing
