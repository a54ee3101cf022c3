import Gubbi.Crypto.KeyMaps
import Gubbi.Extraction.Jobs
import Gubbi.Journal.DateTexts
import Gubbi.Journal.Saving

/-!
# What the model writes and what the tables take

A run of `extract_conversation` in which nothing is down, from the two responses of the model to the
rows of its topic and its entries. The path of the topic is hardened; every other string of the
responses reaches `float`, `date.fromisoformat`, the cipher or a parameter of a statement as it
came, and all entries are appended under one savepoint.
-/

namespace ModelOutputs

open Text Validation Cipher JournalTables JournalRows Listing Saving
open ExtractionJobs (JobRow Cents Time)
open JournalWriters (ExtractedEntry isTextParameter)

/-- A number of JSON, as Python reads it. -/
inductive Number
  | integer (n : Int)
  | float
  deriving DecidableEq

/-- What `_CATEGORIZE_SCHEMA` requires. -/
structure CategorizeResponse where
  topicPath : PyStr
  topicTitle : PyStr
  summary : PyStr
  confidence : Number
  deriving DecidableEq

/-- Two responses that satisfy their schemas, and what their tokens cost. -/
structure Responses where
  categorize : CategorizeResponse
  entries : List ExtractedEntry
  centsSpent : Cents
  deriving DecidableEq

inductive JobError
  /-- `int too large to convert to float`. -/
  | overflowError
  | valueError
  | topicAlreadyExists
  | repository (error : SaveError)
  deriving DecidableEq

/-- What the worker takes from its process and the server. -/
abbrev Worker := Saving.Host

/-- The first integer that rounds to no float. -/
def floatLimit : Nat := 2 ^ 1024 - 2 ^ 970

def toFloat : Number → Except JobError Unit
  | .integer n => if n.natAbs < floatLimit then .ok () else .error .overflowError
  | .float => .ok ()

structure CategorizationResult where
  topicPath : PyStr
  topicTitle : PyStr
  summary : PyStr

/-- `categorize_conversation`, once the response is parsed. -/
def categorizeConversation (response : CategorizeResponse) :
    Except JobError CategorizationResult :=
  (toFloat response.confidence).map fun () =>
    ⟨response.topicPath, response.topicTitle, response.summary⟩

theorem fresh_path {db : Tables} {path : PyStr}
    (none : db.topics.rows.find? (fun row => row.2.path = path) = none) :
    ∀ row ∈ db.topics.rows, row.2.path ≠ path := by
  intro row mem same
  exact absurd (decide_eq_true same) (List.find?_eq_none.mp none row mem)

theorem mem_keys_inserted {topics : Table TopicId TopicRow} {row : TopicRow} {key : TopicId}
    (mem : key ∈ topics.keys) : key ∈ (topics.put topics.freshKey row).keys := by
  obtain ⟨old, known⟩ := Table.mem_keys.mp mem
  exact Table.mem_keys.mpr ⟨old, Table.get_put_of_absent row (Table.get_freshKey topics) known⟩

def insertTopic (db : Tables) (row : TopicRow)
    (new : ∀ old ∈ db.topics.rows, old.2.path ≠ row.path) : Tables :=
  { db with
    topics := db.topics.put db.topics.freshKey row
    paths := db.paths.put _ new
    entryTopics := db.entryTopics.of_keys fun _ => mem_keys_inserted
    conversationTopics := db.conversationTopics.of_keys fun _ => mem_keys_inserted }

/-- `topics.create`. -/
def create (worker : Worker) (db : Tables) (topic title : PyStr) (now : Timestamp) :
    Except JobError Tables :=
  match validateTopic worker.lowering topic with
  | .error _ => .error .valueError
  | .ok path =>
    match bindTexts [title] with
    | .error e => .error (.repository e)
    | .ok () =>
      match found : db.topics.rows.find? (fun row => row.2.path = path) with
      | some _ => .error .topicAlreadyExists
      | none => .ok (insertTopic db ⟨path, title, [], now, now⟩ (fresh_path found))

/-- `date_cls.fromisoformat(date) if date else date_cls.today()`. -/
def resolveDate (date : Option PyStr) (today : Date) : Except JobError Date :=
  match given date with
  | none => .ok today
  | some text => (DateTexts.fromIsoformat text).elim (.error .valueError) .ok

def bindEntry (worker : Worker) (entry : ExtractedEntry) : Except SaveError Unit := do
  bindTexts (entry.content :: entry.tags)
  makeVector worker entry.content

def insertEntry (db : Tables) (row : EntryRow) (known : row.topicId ∈ db.topics.keys) : Tables :=
  { db with
    entries := db.entries.put db.entries.freshKey row
    entryTopics := db.entryTopics.put _ known }

theorem known_topic {db : Tables} (topicId : { id : TopicId // id ∈ db.topics.keys }) :
    topicId.1 ∈ db.topics.keys :=
  topicId.2

/-- `entries.append`; `draw` counts the random parts of nonces that are used up. -/
def append (worker : Worker) (cipher : ContentCipher) (call : Call) (topic : PyStr) (db : Tables)
    (entry : ExtractedEntry) (draw : Nat) : Except JobError Tables := do
  let topicId ← (getId worker.toRuntime db topic).mapError (fun e => .repository (.listing e))
  let date ← resolveDate entry.entryDate call.today
  let content ← (encryptText worker cipher entry.content (call.random draw)).mapError
    .repository
  let reasoning ← (encryptText worker cipher entry.reasoning
    (call.random (draw + 1))).mapError .repository
  (bindEntry worker entry).mapError .repository
  let row : EntryRow :=
    { topicId := topicId.1, date := date, conversationId := none, tags := entry.tags,
      createdAt := call.now, updatedAt := call.now, deletedAt := none, content := content,
      reasoningEncrypted := some reasoning.1, reasoningNonce := some reasoning.2 }
  return touchTopic (insertEntry db row (known_topic topicId)) topicId.1 call.now

/-- The upsert of the topic; whether a row was inserted. -/
def ensureTopic (worker : Worker) (db : Tables) (topicPath topicTitle : PyStr) (now : Timestamp) :
    Except JobError (Tables × Bool) :=
  match getId worker.toRuntime db topicPath with
  | .ok _ => .ok (db, false)
  | .error (.topicNotFound _) =>
    match create worker db topicPath topicTitle now with
    | .ok created => .ok (created, true)
    | .error .topicAlreadyExists => .ok (db, false)
    | .error e => .error e
  | .error e => .error (.repository (.listing e))

def appendAll (worker : Worker) (cipher : ContentCipher) (call : Call) (topicPath : PyStr) :
    Tables → List ExtractedEntry → Nat → Except JobError Tables
  | db, [], _ => .ok db
  | db, entry :: rest, draw => do
    let db ← append worker cipher call topicPath db entry draw
    appendAll worker cipher call topicPath db rest (draw + 2)

def fitsInt4 (n : Int) : Bool := decide (-2 ^ 31 ≤ n) && decide (n < 2 ^ 31)

/-- The counters of `mark_completed` as parameters. -/
def bindCounters (entriesCreated : Nat) (centsSpent : Cents) : Except JobError Unit :=
  if fitsInt4 entriesCreated && fitsInt4 centsSpent then .ok () else .error (.repository .dataError)

inductive Exit
  | alreadyProcessed
  | noTopic
  | extracted
  deriving DecidableEq

/-- The tables of the user, the column `processed_at` of the conversation, and its job. -/
structure State where
  db : Tables
  processedAt : Option Time
  job : JobRow

/-- `_mark_skipped_no_topic`. -/
def markSkippedNoTopic (s : State) (now : Time) : State × Exit :=
  (⟨s.db, some now, s.job.markCompleted 0 0 0 now⟩, .noTopic)

/-- `_persist_extraction`. -/
def persistExtraction (worker : Worker) (cipher : ContentCipher) (s : State)
    (responses : Responses) (topicPath topicTitle : PyStr) (call : Call) (now : Time) :
    Except JobError (State × Exit) := do
  let (db, created) ← ensureTopic worker s.db topicPath topicTitle call.now
  let db ← appendAll worker cipher call topicPath db responses.entries 0
  bindCounters responses.entries.length responses.centsSpent
  return (⟨db, some now, s.job.markCompleted created.toNat responses.entries.length
    responses.centsSpent now⟩, .extracted)

/-- The phases after the first connection. -/
def laterPhases (worker : Worker) (cipher : ContentCipher) (s : State) (responses : Responses)
    (call : Call) (now : Time) : Except JobError (State × Exit) := do
  let categorization ← categorizeConversation responses.categorize
  match hardenLlmTopicPath worker.lowering (some categorization.topicPath) with
  | none => return markSkippedNoTopic s now
  | some topicPath =>
    persistExtraction worker cipher s responses topicPath categorization.topicTitle call now

def State.running (s : State) (now : Time) : State := { s with job := s.job.markRunning now }

def State.failed (s : State) (now : Time) : State :=
  { s with job := s.job.markFailed .internalError now }

/-- The run: how it returns, or what it raises, and the state that it leaves. -/
def extractConversation (worker : Worker) (cipher : ContentCipher) (s : State)
    (responses : Responses) (call : Call) (now : Time) : Except JobError Exit × State :=
  if s.processedAt.isSome then (.ok .alreadyProcessed, s)
  else
    match laterPhases worker cipher (s.running now) responses call now with
    | .ok (after, exit) => (.ok exit, after)
    | .error e => (.error e, (s.running now).failed now)

/-- The strings of an entry that every step of `entries.append` takes. -/
structure EntryStorable (worker : Worker) (entry : ExtractedEntry) : Prop where
  date : ∀ text ∈ given entry.entryDate, ∃ d, DateTexts.fromIsoformat text = some d
  content : isTextParameter entry.content = true
  tsvector : worker.fitsTsvector entry.content = true
  reasoning : (encodeUtf8 entry.reasoning).isSome = true
  tags : ∀ tag ∈ entry.tags, isTextParameter tag = true

def Convertible : Number → Prop
  | .integer n => n.natAbs < floatLimit
  | .float => True

/-- The topic of a path. -/
def HasPath (db : Tables) (path : PyStr) (id : TopicId) : Prop :=
  ∃ row, db.topics.get id = some row ∧ row.path = path

/-- The row of an extracted entry. -/
structure Records (worker : Worker) (cipher : ContentCipher) (topicId : TopicId)
    (entry : ExtractedEntry) (row : EntryRow) : Prop where
  topicId : row.topicId = topicId
  date : ∀ text ∈ given entry.entryDate, DateTexts.fromIsoformat text = some row.date
  tags : row.tags = entry.tags
  live : row.deletedAt = none
  content : decryptSealed worker.toRuntime cipher row.content = .ok entry.content
  reasoning : ∃ ciphertext nonce, row.reasoningEncrypted = some ciphertext ∧
    row.reasoningNonce = some nonce ∧
    decryptSealed worker.toRuntime cipher (ciphertext, nonce) = .ok entry.reasoning

/-- What one append leaves. -/
structure Appended (worker : Worker) (cipher : ContentCipher) (db db' : Tables)
    (topicId : TopicId) (entry : ExtractedEntry) (id : EntryId) : Prop where
  fresh : db.entries.get id = none
  stored : ∃ row, db'.entries.get id = some row ∧ Records worker cipher topicId entry row
  others : ∀ key row, db.entries.get key = some row → db'.entries.get key = some row
  topics : ∀ path key, HasPath db path key → HasPath db' path key

section Repositories
variable {worker : Worker} {cipher : ContentCipher} {call : Call} {db db' : Tables} {path : PyStr}
  {topicId : TopicId} {entry : ExtractedEntry} {draw : Nat}

theorem hasPath_of_getId (valid : validateTopic worker.lowering path = .ok path)
    {id : { id // id ∈ db.topics.keys }} (found : getId worker.toRuntime db path = .ok id) :
    HasPath db path id.1 := by
  obtain ⟨other, row, again, known, same⟩ := topic_of_getId found
  obtain rfl := Except.ok.inj (valid.symm.trans again)
  exact ⟨row, known, same⟩

theorem getId_of_hasPath (valid : validateTopic worker.lowering path = .ok path)
    (has : HasPath db path topicId) :
    ∃ known, getId worker.toRuntime db path = .ok ⟨topicId, known⟩ := by
  obtain ⟨row, known, same⟩ := has
  have mem := Table.get_eq_some_iff.mp known
  cases found : getId worker.toRuntime db path with
  | ok id =>
    obtain ⟨other, hother, path_eq⟩ := hasPath_of_getId valid found
    have rows : (id.1, other) = (topicId, row) :=
      List.inj_on_of_nodup_map db.paths (Table.get_eq_some_iff.mp hother) mem
        (path_eq.trans same.symm)
    obtain ⟨rfl, _⟩ := Prod.mk.inj rows
    exact ⟨id.2, rfl⟩
  | error e =>
    rw [getId, valid] at found
    dsimp only at found
    split at found
    · cases found
    · next missing =>
      exact absurd same (fresh_path missing _ mem)

theorem getId_missing (valid : validateTopic worker.lowering path = .ok path)
    (missing : ∀ id, ¬ HasPath db path id) :
    ∃ message, getId worker.toRuntime db path = .error (.topicNotFound message) := by
  cases found : getId worker.toRuntime db path with
  | ok id => exact absurd (hasPath_of_getId valid found) (missing id.1)
  | error e =>
    rw [getId, valid] at found
    dsimp only at found
    split at found
    · cases found
    · cases found
      exact ⟨_, rfl⟩

theorem bindTexts_isOk {texts : List PyStr} :
    bindTexts texts = .ok () ↔ ∀ text ∈ texts, isTextParameter text = true := by
  rw [bindTexts, ← List.all_eq_true]
  split
  · next all => exact iff_of_true rfl all
  · next rest => exact iff_of_false (fun h => by cases h) rest

theorem bindEntry_isOk : bindEntry worker entry = .ok () ↔
    worker.fitsTsvector entry.content = true ∧ isTextParameter entry.content = true ∧
      ∀ tag ∈ entry.tags, isTextParameter tag = true := by
  have parts : bindEntry worker entry = .ok () ↔
      bindTexts (entry.content :: entry.tags) = .ok () ∧
        makeVector worker entry.content = .ok () := by
    rw [bindEntry, Fallible.bind_eq_ok]
    exact ⟨fun ⟨(), bound, fits⟩ => ⟨bound, fits⟩, fun ⟨bound, fits⟩ => ⟨(), bound, fits⟩⟩
  rw [parts, bindTexts_isOk, List.forall_mem_cons, makeVector]
  split
  · next fits => simp [fits]
  · next large => simp [large]

theorem resolveDate_isOk {date : Option PyStr} {today : Date} :
    (∃ d, resolveDate date today = .ok d) ↔
      ∀ text ∈ given date, ∃ d, DateTexts.fromIsoformat text = some d := by
  rw [resolveDate]
  cases given date with
  | none => exact iff_of_true ⟨today, rfl⟩ fun _ mem => by cases mem
  | some text =>
    simp only [Option.mem_def, Option.some.injEq, forall_eq']
    cases DateTexts.fromIsoformat text with
    | none => exact iff_of_false (fun ⟨_, h⟩ => by cases h) fun ⟨_, h⟩ => by cases h
    | some d => exact iff_of_true ⟨d, rfl⟩ ⟨d, rfl⟩

theorem resolveDate_spec {date : Option PyStr} {today d : Date}
    (resolved : resolveDate date today = .ok d) :
    ∀ text ∈ given date, DateTexts.fromIsoformat text = some d := by
  intro text mem
  rw [resolveDate, Option.mem_def.mp mem] at resolved
  dsimp only at resolved
  cases parsed : DateTexts.fromIsoformat text with
  | none =>
    rw [parsed] at resolved
    cases resolved
  | some found =>
    rw [parsed] at resolved
    exact congrArg some (Except.ok.inj resolved)

theorem encryptText_isOk {text : PyStr} {random : RandomTail} :
    (∃ columns, encryptText worker cipher text random = .ok columns) ↔
      (encodeUtf8 text).isSome = true := by
  rw [← KeyMaps.encrypt_isOk worker.aes cipher text random]
  exact exists_congr fun _ => Fallible.mapError_eq_ok

/-- Under a known topic, an append needs the strings of its entry only. -/
theorem append_isOk (valid : validateTopic worker.lowering path = .ok path)
    (has : HasPath db path topicId) :
    (∃ after, append worker cipher call path db entry draw = .ok after) ↔
      EntryStorable worker entry := by
  obtain ⟨known, found⟩ := getId_of_hasPath valid has
  simp only [append, found, Fallible.bind_eq_ok, Fallible.mapError_eq_ok]
  constructor
  · rintro ⟨after, _, _, date, resolved, content, sealedContent, reasoning, sealedReasoning, _,
      bound, _⟩
    obtain ⟨fits, parameter, tags⟩ := bindEntry_isOk.mp bound
    exact ⟨resolveDate_isOk.mp ⟨date, resolved⟩, parameter, fits,
      encryptText_isOk.mp ⟨reasoning, sealedReasoning⟩, tags⟩
  · intro storable
    obtain ⟨date, resolved⟩ : ∃ date, resolveDate entry.entryDate call.today = .ok date :=
      resolveDate_isOk.mpr storable.date
    have encodes : (encodeUtf8 entry.content).isSome = true := by
      have := storable.content
      rw [isTextParameter, Bool.and_eq_true] at this
      exact this.1
    obtain ⟨content, sealedContent⟩ : ∃ columns,
        encryptText worker cipher entry.content (call.random draw) = .ok columns :=
      encryptText_isOk.mpr encodes
    obtain ⟨reasoning, sealedReasoning⟩ : ∃ columns,
        encryptText worker cipher entry.reasoning (call.random (draw + 1)) = .ok columns :=
      encryptText_isOk.mpr storable.reasoning
    have bound := bindEntry_isOk.mpr ⟨storable.tsvector, storable.content, storable.tags⟩
    exact ⟨_, _, rfl, date, resolved, content, sealedContent, reasoning, sealedReasoning, (), bound,
      rfl⟩

theorem appended_of_ok (valid : validateTopic worker.lowering path = .ok path)
    (has : HasPath db path topicId)
    (ran : append worker cipher call path db entry draw = .ok db') :
    ∃ id, Appended worker cipher db db' topicId entry id := by
  obtain ⟨known, found⟩ := getId_of_hasPath valid has
  simp only [append, found, Fallible.bind_eq_ok, Fallible.mapError_eq_ok] at ran
  obtain ⟨_, same, date, resolved, content, sealedContent, reasoning, sealedReasoning, _, _,
    built⟩ := ran
  obtain rfl := Except.ok.inj same
  obtain rfl := Except.ok.inj built
  refine ⟨db.entries.freshKey, Table.get_freshKey db.entries,
    ⟨_, Table.get_put_self _ _ _, rfl, resolveDate_spec resolved, rfl, rfl,
      decryptSealed_of_encryptText sealedContent, reasoning.1, reasoning.2, rfl, rfl,
      decryptSealed_of_encryptText sealedReasoning⟩, ?_, ?_⟩
  · exact fun key row stored => Table.get_put_of_absent _ (Table.get_freshKey db.entries) stored
  · rintro other key ⟨row, stored, rfl⟩
    exact path_touched stored

/-- What the loop over the entries leaves. -/
structure AppendedAll (worker : Worker) (cipher : ContentCipher) (db db' : Tables)
    (topicId : TopicId) (entries : List ExtractedEntry) (ids : List EntryId) : Prop where
  fresh : ∀ id ∈ ids, db.entries.get id = none
  apart : ids.Nodup
  stored : List.Forall₂ (fun id entry => ∃ row, db'.entries.get id = some row ∧
    Records worker cipher topicId entry row) ids entries
  others : ∀ key row, db.entries.get key = some row → db'.entries.get key = some row
  topics : ∀ path key, HasPath db path key → HasPath db' path key

theorem appendedAll_of_ok (valid : validateTopic worker.lowering path = .ok path)
    {entries : List ExtractedEntry} (has : HasPath db path topicId)
    (ran : appendAll worker cipher call path db entries draw = .ok db') :
    ∃ ids, AppendedAll worker cipher db db' topicId entries ids := by
  induction entries generalizing db draw with
  | nil =>
    obtain rfl := Except.ok.inj ran
    exact ⟨[], fun _ mem => (List.not_mem_nil mem).elim, List.nodup_nil, .nil, fun _ _ => id,
      fun _ _ => id⟩
  | cons entry rest ih =>
    rw [appendAll, Fallible.bind_eq_ok] at ran
    obtain ⟨middle, first, others⟩ := ran
    obtain ⟨id, appended⟩ := appended_of_ok valid has first
    obtain ⟨ids, all⟩ := ih (appended.topics _ _ has) others
    obtain ⟨row, stored, records⟩ := appended.stored
    refine ⟨id :: ids, ?_, ?_, .cons ⟨row, all.others id row stored, records⟩ all.stored, ?_, ?_⟩
    · intro key mem
      rcases List.mem_cons.mp mem with rfl | mem
      · exact appended.fresh
      · cases old : db.entries.get key with
        | none => rfl
        | some oldRow =>
          have later := all.fresh key mem
          rw [appended.others key oldRow old] at later
          cases later
    · refine List.nodup_cons.mpr ⟨fun mem => ?_, all.apart⟩
      have later := all.fresh id mem
      rw [stored] at later
      cases later
    · exact fun key old was => all.others key old (appended.others key old was)
    · exact fun other key was => all.topics other key (appended.topics other key was)

/-- One entry that cannot be stored stops the whole loop. -/
theorem appendAll_isOk (valid : validateTopic worker.lowering path = .ok path)
    {entries : List ExtractedEntry} (has : HasPath db path topicId) :
    (∃ after, appendAll worker cipher call path db entries draw = .ok after) ↔
      ∀ entry ∈ entries, EntryStorable worker entry := by
  induction entries generalizing db draw with
  | nil => exact iff_of_true ⟨db, rfl⟩ fun _ mem => (List.not_mem_nil mem).elim
  | cons entry rest ih =>
    simp only [appendAll, Fallible.bind_eq_ok, List.forall_mem_cons]
    constructor
    · rintro ⟨after, middle, first, others⟩
      obtain ⟨id, appended⟩ := appended_of_ok valid has first
      exact ⟨(append_isOk valid has).mp ⟨middle, first⟩,
        (ih (appended.topics _ _ has)).mp ⟨after, others⟩⟩
    · rintro ⟨storable, others⟩
      obtain ⟨middle, first⟩ : ∃ middle,
          append worker cipher call path db entry draw = .ok middle :=
        (append_isOk valid has).mpr storable
      obtain ⟨id, appended⟩ := appended_of_ok valid has first
      obtain ⟨after, loop⟩ := (ih (appended.topics _ _ has)).mpr others
      exact ⟨after, middle, first, loop⟩

theorem hasPath_insertTopic {row : TopicRow}
    (new : ∀ old ∈ db.topics.rows, old.2.path ≠ row.path) :
    HasPath (insertTopic db row new) row.path db.topics.freshKey :=
  ⟨row, Table.get_put_self _ _ _, rfl⟩

/-- Where no topic has the path, only the title can stop its row. -/
theorem create_cases (valid : validateTopic worker.lowering path = .ok path)
    (missing : ∀ id, ¬ HasPath db path id) (title : PyStr) (now : Timestamp) :
    (isTextParameter title = true ∧ ∃ new, create worker db path title now =
        .ok (insertTopic db ⟨path, title, [], now, now⟩ new)) ∨
      (isTextParameter title = false ∧
        create worker db path title now = .error (.repository .dataError)) := by
  rw [create, valid]
  dsimp only
  cases parameter : isTextParameter title with
  | false =>
    have refused : bindTexts [title] = .error .dataError := by
      rw [bindTexts, List.all_cons, parameter]
      rfl
    rw [refused]
    exact Or.inr ⟨rfl, rfl⟩
  | true =>
    have bound : bindTexts [title] = .ok () := by
      rw [bindTexts, List.all_cons, parameter]
      rfl
    rw [bound]
    refine Or.inl ⟨rfl, ?_⟩
    dsimp only
    split
    · next row found =>
      have same : row.2.path = path := by simpa using List.find?_some found
      have known := Table.get_eq_some_iff.mpr (List.mem_of_find?_eq_some found)
      exact absurd ⟨row.2, known, same⟩ (missing row.1)
    · next found => exact ⟨fresh_path found, rfl⟩

/-- The upsert finds the topic, inserts it, or fails on its title. -/
theorem ensureTopic_cases (valid : validateTopic worker.lowering path = .ok path) (title : PyStr)
    (now : Timestamp) :
    (∃ after created id, ensureTopic worker db path title now = .ok (after, created) ∧
        HasPath after path id ∧ after.entries = db.entries ∧
        ((∃ id, HasPath db path id) ∨ isTextParameter title = true)) ∨
      ((∀ id, ¬ HasPath db path id) ∧ isTextParameter title = false ∧
        ∃ e, ensureTopic worker db path title now = .error e) := by
  rw [ensureTopic]
  by_cases has : ∃ id, HasPath db path id
  · obtain ⟨id, hasPath⟩ := has
    obtain ⟨known, found⟩ := getId_of_hasPath valid hasPath
    rw [found]
    exact Or.inl ⟨db, false, id, rfl, hasPath, rfl, Or.inl ⟨id, hasPath⟩⟩
  · have missing := not_exists.mp has
    obtain ⟨message, absent⟩ := getId_missing valid missing
    rw [absent]
    dsimp only
    rcases create_cases valid missing title now with ⟨parameter, new, created⟩ | ⟨refused, failed⟩
    · rw [created]
      exact Or.inl ⟨_, true, db.topics.freshKey, rfl, hasPath_insertTopic new, rfl,
        Or.inr parameter⟩
    · rw [failed]
      exact Or.inr ⟨missing, refused, _, rfl⟩

end Repositories

/-- The job is completed and the conversation processed; the entries are there, all of them, or the
path of the topic is of no use. -/
structure Completes (worker : Worker) (cipher : ContentCipher) (responses : Responses)
    (before after : State) (exit : Exit) : Prop where
  job : after.job.status = .completed
  processed : after.processedAt.isSome = true
  entries : match hardenLlmTopicPath worker.lowering (some responses.categorize.topicPath) with
    | none => exit = .noTopic ∧ after.db = before.db
    | some topicPath => exit = .extracted ∧ ∃ topicId ids,
        HasPath after.db topicPath topicId ∧
        (∀ id ∈ ids, before.db.entries.get id = none) ∧ ids.Nodup ∧
        List.Forall₂ (fun id entry => ∃ row, after.db.entries.get id = some row ∧
          Records worker cipher topicId entry row) ids responses.entries

/-- What every step of the run takes. -/
structure Storable (worker : Worker) (s : State) (responses : Responses) : Prop where
  unprocessed : s.processedAt = none
  confidence : Convertible responses.categorize.confidence
  topic : ∀ topicPath,
    hardenLlmTopicPath worker.lowering (some responses.categorize.topicPath) = some topicPath →
      ((∃ id, HasPath s.db topicPath id) ∨
        isTextParameter responses.categorize.topicTitle = true) ∧
      (∀ entry ∈ responses.entries, EntryStorable worker entry) ∧
      fitsInt4 responses.entries.length = true ∧ fitsInt4 responses.centsSpent = true

section Jobs
variable {worker : Worker} {cipher : ContentCipher} {s : State} {responses : Responses}
  {call : Call} {now : Time}

theorem categorizeConversation_eq_ok {response : CategorizeResponse}
    {result : CategorizationResult} : categorizeConversation response = .ok result ↔
      Convertible response.confidence ∧
        result = ⟨response.topicPath, response.topicTitle, response.summary⟩ := by
  rw [categorizeConversation, Fallible.map_eq_ok]
  have converts : ∀ u, toFloat response.confidence = .ok u ↔ Convertible response.confidence := by
    intro u
    cases response.confidence with
    | float => exact iff_of_true rfl trivial
    | integer n =>
      rw [toFloat, Convertible]
      split
      · next small => exact iff_of_true rfl small
      · next large => exact iff_of_false (fun h => by cases h) large
  constructor
  · rintro ⟨u, converted, rfl⟩
    exact ⟨(converts u).mp converted, rfl⟩
  · rintro ⟨convertible, rfl⟩
    exact ⟨(), (converts ()).mpr convertible, rfl⟩

theorem bindCounters_isOk {entriesCreated : Nat} {centsSpent : Cents} :
    bindCounters entriesCreated centsSpent = .ok () ↔
      fitsInt4 entriesCreated = true ∧ fitsInt4 centsSpent = true := by
  rw [bindCounters, ← Bool.and_eq_true_iff]
  split
  · next fits => exact iff_of_true rfl fits
  · next large => exact iff_of_false (fun h => by cases h) large

theorem laterPhases_eq_ok {written : State × Exit} :
    laterPhases worker cipher s responses call now = .ok written ↔
      Convertible responses.categorize.confidence ∧
        match hardenLlmTopicPath worker.lowering (some responses.categorize.topicPath) with
        | none => markSkippedNoTopic s now = written
        | some topicPath => persistExtraction worker cipher s responses topicPath
            responses.categorize.topicTitle call now = .ok written := by
  simp only [laterPhases, Fallible.bind_eq_ok, categorizeConversation_eq_ok]
  constructor
  · rintro ⟨_, ⟨convertible, rfl⟩, ran⟩
    refine ⟨convertible, ?_⟩
    dsimp only at ran
    split at ran
    · exact Except.ok.inj ran
    · exact ran
  · rintro ⟨convertible, ran⟩
    refine ⟨_, ⟨convertible, rfl⟩, ?_⟩
    dsimp only
    split at ran
    · exact congrArg Except.ok ran
    · exact ran

/-- What `_persist_extraction` needs of the strings, and what it leaves. -/
theorem persistExtraction_isOk {topicPath topicTitle : PyStr}
    (valid : validateTopic worker.lowering topicPath = .ok topicPath) :
    (∃ written, persistExtraction worker cipher s responses topicPath topicTitle call now =
        .ok written) ↔
      ((∃ id, HasPath s.db topicPath id) ∨ isTextParameter topicTitle = true) ∧
      (∀ entry ∈ responses.entries, EntryStorable worker entry) ∧
      fitsInt4 responses.entries.length = true ∧ fitsInt4 responses.centsSpent = true := by
  simp only [persistExtraction, Fallible.bind_eq_ok]
  rcases @ensureTopic_cases worker s.db topicPath valid topicTitle call.now with
    ⟨middle, created, id, done, has, _, topic⟩ | ⟨missing, refused, e, failed⟩
  · constructor
    · rintro ⟨_, _, ensured, after, loop, _, counted, _⟩
      obtain rfl := Except.ok.inj (done.symm.trans ensured)
      exact ⟨topic, (appendAll_isOk valid has).mp ⟨after, loop⟩, bindCounters_isOk.mp counted⟩
    · rintro ⟨_, entries, counted⟩
      obtain ⟨after, loop⟩ : ∃ after,
          appendAll worker cipher call topicPath middle responses.entries 0 = .ok after :=
        (appendAll_isOk valid has).mpr entries
      exact ⟨_, _, done, after, loop, (), bindCounters_isOk.mpr counted, rfl⟩
  · constructor
    · rintro ⟨_, _, ensured, _⟩
      cases failed.symm.trans ensured
    · rintro ⟨⟨id, has⟩ | parameter, _⟩
      · exact absurd has (missing id)
      · cases refused.symm.trans parameter

theorem persistExtraction_spec {topicPath topicTitle : PyStr} {after : State} {exit : Exit}
    (valid : validateTopic worker.lowering topicPath = .ok topicPath)
    (live : s.job.status.terminal = false)
    (ran : persistExtraction worker cipher s responses topicPath topicTitle call now =
      .ok (after, exit)) :
    after.job.status = .completed ∧ after.processedAt.isSome = true ∧ exit = .extracted ∧
      ∃ topicId ids, HasPath after.db topicPath topicId ∧
        (∀ id ∈ ids, s.db.entries.get id = none) ∧ ids.Nodup ∧
        List.Forall₂ (fun id entry => ∃ row, after.db.entries.get id = some row ∧
          Records worker cipher topicId entry row) ids responses.entries := by
  simp only [persistExtraction, Fallible.bind_eq_ok] at ran
  obtain ⟨_, ensured, db, loop, _, _, built⟩ := ran
  obtain ⟨rfl, rfl⟩ := Prod.mk.inj (Except.ok.inj built)
  rcases ensureTopic_cases valid topicTitle call.now with
    ⟨middle, created, id, done, has, entries, _⟩ | ⟨_, _, _, failed⟩
  · obtain rfl := Except.ok.inj (done.symm.trans ensured)
    obtain ⟨ids, all⟩ := appendedAll_of_ok valid has loop
    have fresh : ∀ id ∈ ids, s.db.entries.get id = none := by
      intro key mem
      rw [← entries]
      exact all.fresh key mem
    exact ⟨(JobRow.markCompleted_of_live live).1, rfl, rfl, id, ids, all.topics _ _ has, fresh,
      all.apart, all.stored⟩
  · cases failed.symm.trans ensured

theorem laterPhases_isOk (unprocessed : s.processedAt = none) :
    (∃ written, laterPhases worker cipher s responses call now = .ok written) ↔
      Storable worker s responses := by
  simp only [laterPhases_eq_ok, exists_and_left]
  cases path : hardenLlmTopicPath worker.lowering (some responses.categorize.topicPath) with
  | none =>
    constructor
    · rintro ⟨convertible, _⟩
      refine ⟨unprocessed, convertible, fun topicPath found => ?_⟩
      cases path.symm.trans found
    · exact fun storable => ⟨storable.confidence, _, rfl⟩
  | some topicPath =>
    have strings := @persistExtraction_isOk worker cipher s responses call now topicPath
      responses.categorize.topicTitle (hardenLlmTopicPath_some path)
    constructor
    · rintro ⟨convertible, ran⟩
      refine ⟨unprocessed, convertible, fun other found => ?_⟩
      obtain rfl := Option.some.inj (path.symm.trans found)
      exact strings.mp ran
    · exact fun storable => ⟨storable.confidence, strings.mpr (storable.topic topicPath path)⟩

theorem completes_of_laterPhases {after : State} {exit : Exit}
    (live : s.job.status.terminal = false)
    (ran : laterPhases worker cipher s responses call now = .ok (after, exit)) :
    Completes worker cipher responses s after exit := by
  obtain ⟨_, ran⟩ := laterPhases_eq_ok.mp ran
  cases path : hardenLlmTopicPath worker.lowering (some responses.categorize.topicPath) with
  | none =>
    rw [path] at ran
    obtain ⟨rfl, rfl⟩ := Prod.mk.inj ran
    refine ⟨(JobRow.markCompleted_of_live live).1, rfl, ?_⟩
    rw [path]
    exact ⟨rfl, rfl⟩
  | some topicPath =>
    rw [path] at ran
    obtain ⟨job, processed, entries⟩ :=
      persistExtraction_spec (hardenLlmTopicPath_some path) live ran
    refine ⟨job, processed, ?_⟩
    rw [path]
    exact entries

end Jobs

/-- A job that waits for its run. -/
structure PendingState extends State where
  pending : job.status = .pending

/-- The run of a pending job completes it exactly when every step takes the strings that the model
wrote, and the conversation is not processed yet. -/
theorem completes_iff (worker : Worker) (cipher : ContentCipher) (s : PendingState)
    (responses : Responses) (call : Call) (now : Time) :
    (∃ exit, (extractConversation worker cipher s.toState responses call now).1 = .ok exit ∧
      Completes worker cipher responses s.toState
        (extractConversation worker cipher s.toState responses call now).2 exit) ↔
      Storable worker s.toState responses := by
  rw [extractConversation]
  split
  · next processed =>
    refine iff_of_false ?_ fun storable => ?_
    · rintro ⟨exit, _, completes⟩
      cases s.pending.symm.trans completes.job
    · rw [storable.unprocessed] at processed
      cases processed
  · next waiting =>
    have unprocessed : s.processedAt = none := by simpa using waiting
    have started : (s.toState.running now).job.status.terminal = false :=
      JobRow.markRunning_of_live (by rw [s.pending]; rfl)
    have same : Storable worker (s.toState.running now) responses ↔
        Storable worker s.toState responses :=
      ⟨fun h => ⟨unprocessed, h.confidence, h.topic⟩, fun h => ⟨unprocessed, h.confidence, h.topic⟩⟩
    have strings := @laterPhases_isOk worker cipher (s.toState.running now) responses call now
      unprocessed
    rw [← same, ← strings]
    cases ran : laterPhases worker cipher (s.toState.running now) responses call now with
    | error e => exact iff_of_false (fun ⟨_, h, _⟩ => by cases h) fun ⟨_, h⟩ => by cases h
    | ok written =>
      obtain ⟨after, exit⟩ := written
      have completes := completes_of_laterPhases started ran
      exact iff_of_true ⟨exit, rfl, completes.job, completes.processed, completes.entries⟩ ⟨_, rfl⟩

def sampleWorker : Worker where
  toRuntime := sampleRuntime
  parseTs := fun _ => none
  fitsTsvector := fun _ => true

def sampleCall : Call where
  now := sampleTime
  upsertNow := sampleTime
  today := sampleTime.date
  random := fun _ => sampleTail

/-- Two entries; the model gives the second one this date. -/
def datedResponses (date : PyStr) : Responses where
  categorize := ⟨py "work", py "Work", py "A decision", .float⟩
  entries := [⟨py "Chose the vendor", py "A decision", [py "vendor"], none⟩,
    ⟨py "Met the team", py "An event", [], some date⟩]
  centsSpent := 2

def samplePending : PendingState where
  db := sampleTables
  processedAt := none
  job := ExtractionJobs.pendingRow 7 7 (py "claude") 0 0
  pending := rfl

example : (extractConversation sampleWorker sampleCipher samplePending.toState
    (datedResponses (py "2026-02-24")) sampleCall 1).1 = .ok .extracted := by decide +kernel

theorem relativeDate_fails : ¬ ∃ exit,
    (extractConversation sampleWorker sampleCipher samplePending.toState
        (datedResponses (py "last Tuesday")) sampleCall 1).1 = .ok exit ∧
      Completes sampleWorker sampleCipher (datedResponses (py "last Tuesday"))
        samplePending.toState
        (extractConversation sampleWorker sampleCipher samplePending.toState
          (datedResponses (py "last Tuesday")) sampleCall 1).2 exit := by
  rintro ⟨exit, returned, _⟩
  have raised : (extractConversation sampleWorker sampleCipher samplePending.toState
      (datedResponses (py "last Tuesday")) sampleCall 1).1 = .error .valueError := by
    decide +kernel
  cases raised.symm.trans returned

end ModelOutputs
