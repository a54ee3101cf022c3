import Gubbi.Journal.Conversations
import Gubbi.Library.Replay

/-!
# Ingest of conversation batches

`ingest_conversations` skips a payload whose `(platform, platform_id)` is there
and saves the others under the inbox topic. The save upserts on the slug of the
title, so what keeps two payloads apart is not what the upsert looks at. A
session follows the requests of one user and remembers which row each counted
payload was saved to.

What the database, the budget store and the job insert answer is an input of a
step. The arq queue and the archive files are left out.
-/

namespace Ingest

open Text Validation JournalEntries JournalConversations

universe u

structure ConversationPayload where
  platform : Platform
  platformId : PyStr
  title : PyStr
  /-- `created_at.isoformat()`. -/
  createdAt : PyStr
  messages : List Message
  deriving DecidableEq

def ConversationPayload.key (payload : ConversationPayload) : Platform × PyStr :=
  (payload.platform, payload.platformId)

/-- `created_at.date().isoformat()`. -/
def ConversationPayload.date (payload : ConversationPayload) : PyStr := payload.createdAt.take 10

def defaultInboxTopic : PyStr := py "inbox"

/-- The title a payload is saved with. -/
def ingestTitle (payload : ConversationPayload) : Except PyError PyStr :=
  match validateTitle payload.title with
  | .ok title => .ok title
  | .error _ => validateTitle (py "Conversation " ++ payload.createdAt)

/-- The slug that `save_conversation` looks up, which validates the title once more. -/
def inboxSlug (payload : ConversationPayload) : Option PyStr :=
  match ingestTitle payload with
  | .error _ => none
  | .ok title =>
    match validateTitle title with
    | .error _ => none
    | .ok clean => some (slugify clean)

/-- How `pre_charge` ends. -/
inductive PreCharge
  | granted
  | denied
  | raises
  deriving DecidableEq, Repr

/-- What the outside answers while one payload is handled. -/
structure Outcome where
  existsRaises : Bool
  saveRaises : Bool
  preCharge : PreCharge
  jobCreated : Bool
  deriving DecidableEq

/-- The counters of `IngestConversationResponse`. -/
structure Tally where
  conversationsSaved : Nat
  conversationsSkippedDedupe : Nat
  extractionsEnqueued : Nat
  extractionsSkippedBudget : Nat
  extractionsSkippedError : Nat
  budgetExhausted : Bool
  deriving DecidableEq

def Tally.zero : Tally := ⟨0, 0, 0, 0, 0, false⟩

/-- The user's data and the loop variables of the request at hand. `saved` logs
the counted payloads of all requests with their rows, newest first. -/
structure Session (E : Type u) where
  db : JournalDb E
  saved : List (ConversationPayload × ConversationId)
  tally : Tally
  aborted : Bool

section Model
variable {E : Type u}

/-- Before the first request; no loop runs. -/
def start (db : JournalDb E) : Session E := ⟨db, [], Tally.zero, true⟩

def Session.abort (s : Session E) : Session E := { s with aborted := true }

def Session.skipDedupe (s : Session E) : Session E :=
  { s with tally := { s.tally with
      conversationsSkippedDedupe := s.tally.conversationsSkippedDedupe + 1 } }

/-- The inbox topic is created when it is missing. -/
def ensureInbox (db : JournalDb E) : JournalDb E :=
  match getTopicId db defaultInboxTopic with
  | some _ => db
  | none => { db with
      topics := db.topics.put db.topics.freshKey ⟨defaultInboxTopic, py "Inbox"⟩ }

/-- The head of a request, up to its loop. -/
def openRequest (s : Session E) (inboxRaises : Bool) : Session E :=
  if inboxRaises then { s with tally := Tally.zero, aborted := true }
  else { s with db := ensureInbox s.db, tally := Tally.zero, aborted := false }

/-- Transaction 1: the conversation and its platform columns. -/
def saveTransaction (db : JournalDb E) (payload : ConversationPayload) (title : PyStr) :
    Except SaveError (JournalDb E × ConversationId) :=
  match saveConversation db defaultInboxTopic title payload.messages [] payload.platform.text []
      payload.date with
  | .error error => .error error
  | .ok (saved, id) =>
    match setPlatformMetadata saved.conversations id payload.platform payload.platformId with
    | none => .error .uniqueViolation
    | some conversations => .ok ({ saved with conversations := conversations }, id)

/-- After transaction 1 has committed: the pre-charge and transaction 2. -/
def extraction (s : Session E) (outcome : Outcome) : Session E :=
  match outcome.preCharge with
  | .raises => s.abort
  | .denied =>
    { s with tally := { s.tally with
        extractionsSkippedBudget := s.tally.extractionsSkippedBudget + 1
        budgetExhausted := true } }
  | .granted =>
    if outcome.jobCreated then
      { s with tally := { s.tally with
          extractionsEnqueued := s.tally.extractionsEnqueued + 1 } }
    else
      { s with tally := { s.tally with
          extractionsSkippedError := s.tally.extractionsSkippedError + 1 } }

/-- A committed payload is counted and logged. -/
def Session.count (s : Session E) (db : JournalDb E) (payload : ConversationPayload)
    (id : ConversationId) : Session E :=
  { s with
    db := db
    saved := (payload, id) :: s.saved
    tally := { s.tally with conversationsSaved := s.tally.conversationsSaved + 1 } }

/-- The loop body. Once an exception has left the loop, the rest of the batch is
not looked at. -/
def ingestConversation (s : Session E) (payload : ConversationPayload) (outcome : Outcome) :
    Session E :=
  if s.aborted then s
  else if outcome.existsRaises then s.abort
  else if existsByPlatformId s.db.conversations payload.platform payload.platformId then
    s.skipDedupe
  else
    match ingestTitle payload with
    | .error _ => s.abort
    | .ok title =>
      if outcome.saveRaises then s.abort
      else
        match saveTransaction s.db payload title with
        | .error .uniqueViolation => s.skipDedupe
        | .error _ => s.abort
        | .ok (db, id) => extraction (s.count db payload id) outcome

structure Request where
  inboxRaises : Bool
  conversations : List (ConversationPayload × Outcome)

def ingestConversations (s : Session E) (request : Request) : Session E :=
  request.conversations.foldl (fun s item => ingestConversation s item.1 item.2)
    (openRequest s request.inboxRaises)

/-- The session after the requests of a user, one after the other. -/
def ingestAll (db : JournalDb E) (requests : List Request) : Session E :=
  requests.foldl ingestConversations (start db)

inductive Action
  | openRequest (inboxRaises : Bool)
  | conversation (payload : ConversationPayload) (outcome : Outcome)

def step (s : Session E) : Action → Option (Session E)
  | .openRequest inboxRaises => some (openRequest s inboxRaises)
  | .conversation payload outcome => some (ingestConversation s payload outcome)

def Request.actions (request : Request) : List Action :=
  .openRequest request.inboxRaises ::
    request.conversations.map (fun item => .conversation item.1 item.2)

theorem run_request (s : Session E) (request : Request) :
    Replay.run step s request.actions = some (ingestConversations s request) := by
  have loop : ∀ (items : List (ConversationPayload × Outcome)) (s : Session E),
      Replay.run step s (items.map (fun item => .conversation item.1 item.2)) =
        some (items.foldl (fun s item => ingestConversation s item.1 item.2) s) := by
    intro items
    induction items with
    | nil => exact fun s => rfl
    | cons item rest ih => exact fun s => ih (ingestConversation s item.1 item.2)
  exact loop request.conversations (openRequest s request.inboxRaises)

/-- A session is a run of its steps. -/
theorem run_requests (db : JournalDb E) (requests : List Request) :
    Replay.run step (start db) (requests.flatMap Request.actions) =
      some (ingestAll db requests) := by
  have sequence : ∀ (requests : List Request) (s : Session E),
      Replay.run step s (requests.flatMap Request.actions) =
        some (requests.foldl ingestConversations s) := by
    intro requests
    induction requests with
    | nil => exact fun s => rfl
    | cons request rest ih =>
      intro s
      rw [List.flatMap_cons, Replay.run_append]
      exact ⟨_, run_request s request, ih _⟩
  exact sequence requests (start db)

/-- Every counted payload has a row with its platform key and exactly its messages. -/
def Kept (s : Session E) : Prop :=
  ∀ payload id, (payload, id) ∈ s.saved →
    (∃ row, s.db.conversations.rows.get id = some row ∧ row.platformKey = some payload.key) ∧
    messagesOf s.db id = messageRows id payload.messages

/-- The payload gets as far as a committed save. -/
def Saves (s : Session E) (payload : ConversationPayload) (outcome : Outcome) : Prop :=
  s.aborted = false ∧ outcome.existsRaises = false ∧
    existsByPlatformId s.db.conversations payload.platform payload.platformId = false ∧
    outcome.saveRaises = false ∧ (inboxSlug payload).isSome

/-- A payload that is saved has a slug that no payload saved before it has. -/
def Separate (s : Session E) : Action → Prop
  | .openRequest _ => True
  | .conversation payload outcome =>
    Saves s payload outcome → ∀ entry ∈ s.saved, inboxSlug entry.1 ≠ inboxSlug payload

/-- Two counted payloads of different keys lie in one row. -/
def Clash (s : Session E) : Prop :=
  ∃ a ∈ s.saved, ∃ b ∈ s.saved, a.2 = b.2 ∧ a.1.key ≠ b.1.key

theorem not_kept_of_clash {s : Session E} (clash : Clash s) : ¬ Kept s := by
  obtain ⟨a, ha, b, hb, hid, hkey⟩ := clash
  intro kept
  obtain ⟨rowA, hrowA, hkeyA⟩ := (kept a.1 a.2 ha).1
  obtain ⟨rowB, hrowB, hkeyB⟩ := (kept b.1 b.2 hb).1
  rw [hid, hrowB] at hrowA
  obtain rfl : rowB = rowA := Option.some.inj hrowA
  exact hkey (Option.some.inj (hkeyA.symm.trans hkeyB))

@[simp] theorem extraction_db (s : Session E) (outcome : Outcome) :
    (extraction s outcome).db = s.db := by
  unfold extraction
  split
  · rfl
  · rfl
  · split
    · rfl
    · rfl

@[simp] theorem extraction_saved (s : Session E) (outcome : Outcome) :
    (extraction s outcome).saved = s.saved := by
  unfold extraction
  split
  · rfl
  · rfl
  · split
    · rfl
    · rfl

/-- A title that validates leads to a slug when it validates again. -/
theorem inboxSlug_eq_some {payload : ConversationPayload} {slug : PyStr}
    (h : inboxSlug payload = some slug) :
    ∃ title clean, ingestTitle payload = .ok title ∧ validateTitle title = .ok clean ∧
      slugify clean = slug := by
  unfold inboxSlug at h
  split at h
  · cases h
  · next title htitle =>
    split at h
    · cases h
    · next clean hclean => exact ⟨title, clean, htitle, hclean, Option.some.inj h⟩

theorem inboxSlug_of_ok {payload : ConversationPayload} {title clean : PyStr}
    (htitle : ingestTitle payload = .ok title) (hclean : validateTitle title = .ok clean) :
    inboxSlug payload = some (slugify clean) := by
  simp only [inboxSlug, htitle, hclean]

/-- What transaction 1 writes when it commits. The last conjunct says which rows
it may land on: a new one, or one of the same slug. -/
theorem saveTransaction_ok {db db' : JournalDb E} {payload : ConversationPayload} {title : PyStr}
    {id : ConversationId} (h : saveTransaction db payload title = .ok (db', id)) :
    ∃ clean topicId row, validateTitle title = .ok clean ∧
      getTopicId db defaultInboxTopic = some topicId ∧ db'.topics = db.topics ∧
      db'.conversations.rows.get id = some row ∧ row.platformKey = some payload.key ∧
      row.topicId = topicId ∧ row.slug = slugify clean ∧
      messagesOf db' id = messageRows id payload.messages ∧
      (∀ other, other ≠ id → messagesOf db' other = messagesOf db other) ∧
      (∀ other, other ≠ id →
        db'.conversations.rows.get other = db.conversations.rows.get other) ∧
      (∀ old, db.conversations.rows.get id = some old →
        old.topicId = topicId ∧ old.slug = slugify clean) := by
  unfold saveTransaction at h
  split at h
  · cases h
  · next saved savedId hsaved =>
    split at h
    · cases h
    · next conversations hmeta =>
      cases h
      obtain ⟨clean, topicId, hclean, htopic, htopics, hupsert, hown, hother⟩ :=
        saveConversation_ok hsaved
      obtain ⟨⟨stored, hstored, hst, hss⟩, hrest, hold⟩ := upsertConversationRecord_spec hupsert
      obtain ⟨hset, hkeep⟩ := setPlatformMetadata_spec hstored hmeta
      exact ⟨clean, topicId, _, hclean, htopic, htopics, hset, rfl, hst, hss, hown, hother,
        fun other hne => (hkeep other hne).trans (hrest other hne), hold⟩

/-- A payload whose key is free is saved: the platform write meets no other holder. -/
theorem saveTransaction_isOk {db : JournalDb E} {payload : ConversationPayload}
    {title clean : PyStr} {topicId : TopicId} (hclean : validateTitle title = .ok clean)
    (htopic : getTopicId db defaultInboxTopic = some topicId)
    (free : existsByPlatformId db.conversations payload.platform payload.platformId = false) :
    ∃ saved, saveTransaction db payload title = .ok saved := by
  obtain ⟨⟨saved, id⟩, hsaved⟩ := saveConversation_isOk hclean htopic payload.messages []
    payload.platform.text [] payload.date
  obtain ⟨_, _, _, _, _, hupsert, _, _⟩ := saveConversation_ok hsaved
  have unheld : ∀ key row, saved.conversations.rows.get key = some row →
      row.platformKey ≠ some (payload.platform, payload.platformId) := by
    intro key row hrow hkey
    have held : existsByPlatformId db.conversations payload.platform payload.platformId = true :=
      existsByPlatformId_iff.mpr ⟨key, upsertConversationRecord_platformKey hupsert hrow hkey⟩
    rw [free] at held
    cases held
  obtain ⟨conversations, hset⟩ := setPlatformMetadata_isSome unheld id
  refine ⟨({ saved with conversations := conversations }, id), ?_⟩
  simp only [saveTransaction, hsaved, hset]

/-- A payload that is not saved leaves the data and the log alone. -/
theorem ingestConversation_quiet {s : Session E} {payload : ConversationPayload}
    {outcome : Outcome} (unsaved : ¬ Saves s payload outcome) :
    (ingestConversation s payload outcome).db = s.db ∧
      (ingestConversation s payload outcome).saved = s.saved ∧
      ((ingestConversation s payload outcome).aborted = false → s.aborted = false) := by
  have abort : s.abort.db = s.db ∧ s.abort.saved = s.saved ∧
      (s.abort.aborted = false → s.aborted = false) := ⟨rfl, rfl, fun h => by cases h⟩
  have skip : s.skipDedupe.db = s.db ∧ s.skipDedupe.saved = s.saved ∧
      (s.skipDedupe.aborted = false → s.aborted = false) := ⟨rfl, rfl, fun h => h⟩
  unfold ingestConversation
  by_cases haborted : s.aborted
  · rw [if_pos haborted]
    exact ⟨rfl, rfl, fun h => h⟩
  rw [if_neg haborted]
  by_cases hexists : outcome.existsRaises
  · rw [if_pos hexists]
    exact abort
  rw [if_neg hexists]
  by_cases hheld : existsByPlatformId s.db.conversations payload.platform payload.platformId
  · rw [if_pos hheld]
    exact skip
  rw [if_neg hheld]
  cases htitle : ingestTitle payload with
  | error _ => exact abort
  | ok title =>
    by_cases hraises : outcome.saveRaises
    · simp only [hraises, if_true]
      exact abort
    · simp only [hraises]
      cases hsave : saveTransaction s.db payload title with
      | error error =>
        cases error with
        | uniqueViolation => exact skip
        | invalidTitle _ => exact abort
        | topicNotFound => exact abort
      | ok saved =>
        -- a commit validated the title, and then the payload counts as saved
        obtain ⟨clean, _, _, hclean, _⟩ := saveTransaction_ok hsave
        refine absurd ⟨?_, ?_, ?_, ?_, ?_⟩ unsaved
        · simpa using haborted
        · simpa using hexists
        · simpa using hheld
        · simpa using hraises
        · rw [inboxSlug_of_ok htitle hclean, Option.isSome_some]

/-- A payload that is saved: transaction 1 commits, and the log gets its entry. -/
theorem ingestConversation_saves {s : Session E} {payload : ConversationPayload}
    {outcome : Outcome} {title : PyStr} {db : JournalDb E} {id : ConversationId}
    (saves : Saves s payload outcome) (htitle : ingestTitle payload = .ok title)
    (hsave : saveTransaction s.db payload title = .ok (db, id)) :
    (ingestConversation s payload outcome).db = db ∧
      (ingestConversation s payload outcome).saved = (payload, id) :: s.saved := by
  obtain ⟨haborted, hexists, hheld, hraises, _⟩ := saves
  simp [ingestConversation, haborted, hexists, hheld, hraises, htitle, hsave, Session.count]

/-- Where the log points: to rows of the inbox topic that have the slugs of their
payloads and carry the key of some payload that was saved to them. -/
structure Traced (s : Session E) : Prop where
  inbox : s.aborted = false → ∃ topicId, getTopicId s.db defaultInboxTopic = some topicId
  rows : ∀ payload id, (payload, id) ∈ s.saved → ∃ topicId row,
    getTopicId s.db defaultInboxTopic = some topicId ∧
    s.db.conversations.rows.get id = some row ∧ row.topicId = topicId ∧
    inboxSlug payload = some row.slug ∧
    ∃ holder, (holder, id) ∈ s.saved ∧ row.platformKey = some holder.key

theorem start_traced (db : JournalDb E) : Traced (start db) where
  inbox := fun h => by cases h
  rows := fun _ _ h => by cases h

theorem getTopicId_ensureInbox (db : JournalDb E) :
    ∃ topicId, getTopicId (ensureInbox db) defaultInboxTopic = some topicId := by
  unfold ensureInbox
  split
  · next topicId h => exact ⟨topicId, h⟩
  · exact getTopicId_put db db.topics.freshKey ⟨defaultInboxTopic, py "Inbox"⟩

theorem ensureInbox_found {db : JournalDb E} {topicId : TopicId}
    (h : getTopicId db defaultInboxTopic = some topicId) : ensureInbox db = db := by
  rw [ensureInbox, h]

theorem ensureInbox_conversations (db : JournalDb E) :
    (ensureInbox db).conversations = db.conversations := by
  unfold ensureInbox
  split
  · rfl
  · rfl

theorem ensureInbox_messagesOf (db : JournalDb E) (id : ConversationId) :
    messagesOf (ensureInbox db) id = messagesOf db id := by
  unfold ensureInbox
  split
  · rfl
  · rfl

theorem openRequest_traced {s : Session E} (traced : Traced s) (inboxRaises : Bool) :
    Traced (openRequest s inboxRaises) := by
  cases inboxRaises with
  | true =>
    refine ⟨?_, traced.rows⟩
    intro h
    cases h
  | false =>
    refine ⟨fun _ => getTopicId_ensureInbox s.db, ?_⟩
    intro payload id hmem
    obtain ⟨topicId, row, htopic, hrest⟩ := traced.rows payload id hmem
    refine ⟨topicId, row, ?_⟩
    change getTopicId (ensureInbox s.db) defaultInboxTopic = some topicId ∧
      (ensureInbox s.db).conversations.rows.get id = some row ∧ _
    rw [ensureInbox_found htopic]
    exact ⟨htopic, hrest⟩

/-- A saved payload, with what its transaction found. -/
theorem saves_commit {s : Session E} {payload : ConversationPayload} {outcome : Outcome}
    (traced : Traced s) (saves : Saves s payload outcome) :
    ∃ title clean db id, ingestTitle payload = .ok title ∧ validateTitle title = .ok clean ∧
      saveTransaction s.db payload title = .ok (db, id) := by
  obtain ⟨topicId, htopic⟩ := traced.inbox saves.1
  obtain ⟨slug, hslug⟩ := Option.isSome_iff_exists.mp saves.2.2.2.2
  obtain ⟨title, clean, htitle, hclean, _⟩ := inboxSlug_eq_some hslug
  obtain ⟨⟨db, id⟩, hsave⟩ := saveTransaction_isOk hclean htopic saves.2.2.1
  exact ⟨title, clean, db, id, htitle, hclean, hsave⟩

theorem conversation_traced {s : Session E} (traced : Traced s) (payload : ConversationPayload)
    (outcome : Outcome) : Traced (ingestConversation s payload outcome) := by
  by_cases saves : Saves s payload outcome
  · obtain ⟨title, clean, db, id, htitle, hclean, hsave⟩ := saves_commit traced saves
    obtain ⟨hdb, hsaved⟩ := ingestConversation_saves saves htitle hsave
    obtain ⟨clean', topicId, row, hclean', htopic, htopics, hrow, hkey, hrowTopic, hrowSlug, _, _,
      hrest, hold⟩ := saveTransaction_ok hsave
    obtain rfl : clean = clean' := Except.ok.inj (hclean.symm.trans hclean')
    have found : getTopicId db defaultInboxTopic = some topicId := by
      rw [getTopicId, htopics]
      exact htopic
    have slug : inboxSlug payload = some row.slug := by
      rw [inboxSlug_of_ok htitle hclean, hrowSlug]
    constructor
    · rw [hdb]
      exact fun _ => ⟨topicId, found⟩
    · rw [hdb, hsaved]
      intro earlier key hmem
      rcases List.mem_cons.mp hmem with hnew | hmem
      · obtain ⟨rfl, rfl⟩ := Prod.mk.inj hnew
        exact ⟨topicId, row, found, hrow, hrowTopic, slug, earlier, List.mem_cons_self, hkey⟩
      · obtain ⟨topicId', old, htopic', holdRow, holdTopic, holdSlug, holder, hholder, hholds⟩ :=
          traced.rows earlier key hmem
        obtain rfl : topicId = topicId' := Option.some.inj (htopic.symm.trans htopic')
        by_cases hid : key = id
        · -- the row is overwritten: it keeps its slug and gets the key of the payload
          subst hid
          refine ⟨topicId, row, found, hrow, hrowTopic, ?_, payload, List.mem_cons_self, hkey⟩
          rw [holdSlug, (hold old holdRow).2, hrowSlug]
        · refine ⟨topicId, old, found, ?_, holdTopic, holdSlug, holder,
            List.mem_cons_of_mem _ hholder, hholds⟩
          rw [hrest key hid]
          exact holdRow
  · obtain ⟨hdb, hsaved, hopen⟩ := ingestConversation_quiet saves
    constructor
    · rw [hdb]
      exact fun h => traced.inbox (hopen h)
    · rw [hdb, hsaved]
      exact traced.rows

theorem step_traced (s : Session E) (a : Action) (t : Session E) (traced : Traced s)
    (h : step s a = some t) : Traced t := by
  cases a with
  | openRequest inboxRaises =>
    cases h
    exact openRequest_traced traced inboxRaises
  | conversation payload outcome =>
    cases h
    exact conversation_traced traced payload outcome

/-- Two payloads of one inbox slug are saved to one row. -/
theorem same_slug_same_row {s : Session E} {payload earlier : ConversationPayload}
    {title : PyStr} {db : JournalDb E} {id key : ConversationId} (traced : Traced s)
    (hmem : (earlier, key) ∈ s.saved) (htitle : ingestTitle payload = .ok title)
    (hsave : saveTransaction s.db payload title = .ok (db, id)) :
    key = id ↔ inboxSlug earlier = inboxSlug payload := by
  obtain ⟨clean, topicId, row, hclean, htopic, _, hrow, _, hrowTopic, hrowSlug, _, _, hrest,
    hold⟩ := saveTransaction_ok hsave
  obtain ⟨topicId', old, htopic', holdRow, holdTopic, holdSlug, _⟩ := traced.rows earlier key hmem
  obtain rfl : topicId = topicId' := Option.some.inj (htopic.symm.trans htopic')
  rw [inboxSlug_of_ok htitle hclean, holdSlug, Option.some.injEq]
  constructor
  · rintro rfl
    exact (hold old holdRow).2
  · intro hslug
    by_contra hne
    have kept : db.conversations.rows.get key = some old := (hrest key hne).trans holdRow
    exact hne (db.conversations.slugs key id old row kept hrow (holdTopic.trans hrowTopic.symm)
      (hslug.trans hrowSlug.symm))

theorem openRequest_kept {s : Session E} (kept : Kept s) (inboxRaises : Bool) :
    Kept (openRequest s inboxRaises) := by
  cases inboxRaises with
  | true => exact kept
  | false =>
    intro payload id hmem
    have h := kept payload id hmem
    rw [← ensureInbox_conversations, ← ensureInbox_messagesOf] at h
    exact h

theorem conversation_kept {s : Session E} {payload : ConversationPayload} {outcome : Outcome}
    (traced : Traced s) (kept : Kept s) (separate : Separate s (.conversation payload outcome)) :
    Kept (ingestConversation s payload outcome) := by
  by_cases saves : Saves s payload outcome
  · obtain ⟨title, clean, db, id, htitle, _, hsave⟩ := saves_commit traced saves
    obtain ⟨hdb, hsaved⟩ := ingestConversation_saves saves htitle hsave
    obtain ⟨_, _, row, _, _, _, hrow, hkey, _, _, hown, hothers, hrest, _⟩ :=
      saveTransaction_ok hsave
    intro earlier key hmem
    rw [hsaved] at hmem
    rw [hdb]
    rcases List.mem_cons.mp hmem with hnew | hmem
    · obtain ⟨rfl, rfl⟩ := Prod.mk.inj hnew
      exact ⟨⟨row, hrow, hkey⟩, hown⟩
    · have hne : key ≠ id := fun hid => separate saves (earlier, key) hmem
        ((same_slug_same_row traced hmem htitle hsave).mp hid)
      rw [hrest key hne, hothers key hne]
      exact kept earlier key hmem
  · obtain ⟨hdb, hsaved, _⟩ := ingestConversation_quiet saves
    intro earlier key hmem
    rw [hsaved] at hmem
    rw [hdb]
    exact kept earlier key hmem

/-- A save against the guard takes the row of a payload that has another key. -/
theorem conversation_clash {s : Session E} {payload : ConversationPayload} {outcome : Outcome}
    (traced : Traced s) (violated : ¬ Separate s (.conversation payload outcome)) :
    Clash (ingestConversation s payload outcome) := by
  simp only [Separate, not_forall, not_not] at violated
  obtain ⟨saves, ⟨earlier, key⟩, hmem, hslug⟩ := violated
  obtain ⟨title, clean, db, id, htitle, _, hsave⟩ := saves_commit traced saves
  obtain ⟨_, hsaved⟩ := ingestConversation_saves saves htitle hsave
  obtain rfl : key = id := (same_slug_same_row traced hmem htitle hsave).mpr hslug
  obtain ⟨_, row, _, hrow, _, _, holder, hholder, hholds⟩ := traced.rows earlier key hmem
  refine ⟨(holder, key), ?_, (payload, key), ?_, rfl, ?_⟩
  · rw [hsaved]
    exact List.mem_cons_of_mem _ hholder
  · rw [hsaved]
    exact List.mem_cons_self
  · -- the pre-check saw no row with the key of the payload
    intro hkey
    have held : existsByPlatformId s.db.conversations payload.platform payload.platformId = true :=
      existsByPlatformId_iff.mpr ⟨key, row, hrow, hholds.trans (congrArg some hkey)⟩
    rw [saves.2.2.1] at held
    cases held

theorem ingestConversation_saved (s : Session E) (payload : ConversationPayload)
    (outcome : Outcome) (traced : Traced s) :
    ∀ entry ∈ s.saved, entry ∈ (ingestConversation s payload outcome).saved := by
  intro entry hentry
  by_cases saves : Saves s payload outcome
  · obtain ⟨_, _, _, _, htitle, _, hsave⟩ := saves_commit traced saves
    rw [(ingestConversation_saves saves htitle hsave).2]
    exact List.mem_cons_of_mem _ hentry
  · rw [(ingestConversation_quiet saves).2.1]
    exact hentry

theorem step_clash (s : Session E) (a : Action) (t : Session E)
    (marked : Traced s ∧ Clash s) (h : step s a = some t) : Traced t ∧ Clash t := by
  obtain ⟨traced, left, hleft, right, hright, hclash⟩ := marked
  refine ⟨step_traced s a t traced h, ?_⟩
  cases a with
  | openRequest inboxRaises =>
    cases h
    have same : (openRequest s inboxRaises).saved = s.saved := by
      cases inboxRaises with
      | true => rfl
      | false => rfl
    rw [Clash, same]
    exact ⟨left, hleft, right, hright, hclash⟩
  | conversation payload outcome =>
    cases h
    exact ⟨left, ingestConversation_saved s payload outcome traced left hleft, right,
      ingestConversation_saved s payload outcome traced right hright, hclash⟩

theorem step_kept (s : Session E) (a : Action) (t : Session E) (inv : Traced s ∧ Kept s)
    (separate : Separate s a) (h : step s a = some t) : Traced t ∧ Kept t := by
  refine ⟨step_traced s a t inv.1 h, ?_⟩
  cases a with
  | openRequest inboxRaises =>
    cases h
    exact openRequest_kept inv.2 inboxRaises
  | conversation payload outcome =>
    cases h
    exact conversation_kept inv.1 inv.2 separate

/-- After any sequence of requests, every counted payload has its row and its
messages if and only if no payload was saved under the slug of an earlier one. -/
theorem ingest_keeps_conversations (db : JournalDb E) (requests : List Request) :
    Kept (ingestAll db requests) ↔
      Replay.Obeys step Separate (start db) (requests.flatMap Request.actions) := by
  have ran := run_requests db requests
  constructor
  · intro kept
    refine Replay.obeys_of_unmarked step_traced ?_ step_clash (start_traced db) ran
      (fun marked => not_kept_of_clash marked.2 kept)
    intro s a t traced violated h
    refine ⟨step_traced s a t traced h, ?_⟩
    cases a with
    | openRequest inboxRaises => exact False.elim (violated trivial)
    | conversation payload outcome =>
      cases h
      exact conversation_clash traced violated
  · intro obeys
    exact (Replay.run_invariant step_kept ⟨start_traced db, fun _ _ h => by cases h⟩ obeys ran).2

/-- One payload adds as many entries to the log as it adds to the count. -/
theorem ingestConversation_counted (s : Session E) (payload : ConversationPayload)
    (outcome : Outcome) :
    (ingestConversation s payload outcome).saved.length + s.tally.conversationsSaved =
      s.saved.length + (ingestConversation s payload outcome).tally.conversationsSaved := by
  have counted : ∀ s : Session E,
      (extraction s outcome).tally.conversationsSaved = s.tally.conversationsSaved := by
    intro s
    unfold extraction
    split
    · rfl
    · rfl
    · split
      · rfl
      · rfl
  unfold ingestConversation
  split
  · rfl
  · split
    · rfl
    · split
      · rfl
      · split
        · rfl
        · split
          · rfl
          · split
            · rfl
            · rfl
            · rw [extraction_saved, counted]
              simp only [Session.count, List.length_cons]
              omega

/-- The log holds the payloads that the request counts, and those of earlier requests. -/
theorem ingestConversations_counted (s : Session E) (request : Request) :
    (ingestConversations s request).saved.length =
      s.saved.length + (ingestConversations s request).tally.conversationsSaved := by
  have loop : ∀ (items : List (ConversationPayload × Outcome)) (s : Session E),
      (items.foldl (fun s item => ingestConversation s item.1 item.2) s).saved.length +
          s.tally.conversationsSaved =
        s.saved.length + (items.foldl (fun s item =>
          ingestConversation s item.1 item.2) s).tally.conversationsSaved := by
    intro items
    induction items with
    | nil => exact fun s => rfl
    | cons item rest ih =>
      intro s
      have head := ingestConversation_counted s item.1 item.2
      have tail := ih (ingestConversation s item.1 item.2)
      simp only [List.foldl_cons]
      omega
  have h := loop request.conversations (openRequest s request.inboxRaises)
  have opened : (openRequest s request.inboxRaises).tally.conversationsSaved = 0 ∧
      (openRequest s request.inboxRaises).saved = s.saved := by
    unfold openRequest
    split
    · exact ⟨rfl, rfl⟩
    · exact ⟨rfl, rfl⟩
  rw [opened.1, opened.2, Nat.add_zero] at h
  exact h

end Model

def trip : ConversationPayload where
  platform := .chatgpt
  platformId := py "1"
  title := py "Trip"
  createdAt := py "2026-01-02T03:04:05+00:00"
  messages := [⟨.user, py "To Rome", none⟩]

def tripAgain : ConversationPayload where
  platform := .chatgpt
  platformId := py "2"
  title := py "trip!"
  createdAt := py "2026-01-03T03:04:05+00:00"
  messages := [⟨.user, py "To Oslo", none⟩]

def undisturbed : Outcome := ⟨false, false, .granted, true⟩

def batch : Request := ⟨false, [(trip, undisturbed), (tripAgain, undisturbed)]⟩

def emptyJournal : JournalDb Unit := ⟨Table.empty, Conversations.empty, [], emptyDb⟩

/-- Both payloads are counted, and the first has lost its row to the second. -/
theorem equal_slugs_lose_conversation :
    (ingestAll emptyJournal [batch]).tally.conversationsSaved = 2 ∧
      ¬ Kept (ingestAll emptyJournal [batch]) := by
  have clash : Clash (ingestAll emptyJournal [batch]) :=
    ⟨(trip, 1), by decide, (tripAgain, 1), by decide, rfl, by decide⟩
  exact ⟨by decide, not_kept_of_clash clash⟩

end Ingest
