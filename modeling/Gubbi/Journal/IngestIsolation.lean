import Gubbi.Journal.Ingest

/-!
# Bad items of a batch

Each item of a batch commits in transactions of its own, and the jobs it creates
are offered to the queue once after the whole loop. An exception that leaves the
loop therefore strands the jobs of all earlier items. Only a unique violation in
transaction 1 and a failure of transaction 2 are caught inside the loop.
-/

namespace IngestIsolation

open Text Validation JournalEntries JournalConversations Ingest

universe u
variable {E : Type u}

abbrev Item := ConversationPayload × Outcome

/-- The state of one request: the session, and the conversations whose jobs it
has committed so far, which is `enqueue_tasks`. -/
structure Batch (E : Type u) where
  session : Session E
  jobs : List ConversationId

def openBatch (s : Session E) : Batch E := ⟨openRequest s false, []⟩

/-- The job that an item commits. The response counts the jobs with the length
of the task list, so the list grows exactly with that counter. -/
def createdJob (before after : Session E) : List ConversationId :=
  if before.tally.extractionsEnqueued < after.tally.extractionsEnqueued then
    (after.saved.head?.map Prod.snd).toList
  else []

def handle (b : Batch E) (item : Item) : Option (Batch E) :=
  let after := ingestConversation b.session item.1 item.2
  some ⟨after, b.jobs ++ createdJob b.session after⟩

def runBatch (b : Batch E) (items : List Item) : Batch E :=
  items.foldl (fun b item => (handle b item).getD b) b

/-- The queue hears of the jobs after the loop, or never. -/
def Batch.offered (b : Batch E) : List ConversationId :=
  if b.session.aborted then [] else b.jobs

/-- PostgreSQL text and UTF-8 hold the string. -/
def storable (text : PyStr) : Bool := (encodeUtf8 text).isSome && text.all (fun c => c.val ≠ 0)

/-- The outcome of a payload when nothing but its text can fail. -/
def textOutcome (payload : ConversationPayload) : Outcome where
  existsRaises := !storable payload.platformId
  saveRaises := !payload.messages.all (fun message => storable message.content)
  preCharge := .granted
  jobCreated := true

/-- The save of the item cannot succeed. -/
def bad (item : Item) : Bool :=
  item.2.existsRaises || item.2.saveRaises || (inboxSlug item.1).isNone

/-- The item raises when its turn comes: in the pre-check, or, when its platform
id is not there yet, in building the title or in transaction 1. -/
def raises (s : Session E) (item : Item) : Bool :=
  item.2.existsRaises ||
    (!existsByPlatformId s.db.conversations item.1.platform item.1.platformId &&
      (item.2.saveRaises || (inboxSlug item.1).isNone))

/-- Everything but the count of duplicates, to which the bad items add. -/
def sansDuplicates (s : Session E) : Session E :=
  { s with tally := { s.tally with conversationsSkippedDedupe := 0 } }

def Batch.sansDuplicates (b : Batch E) : Batch E :=
  { b with session := IngestIsolation.sansDuplicates b.session }

/-- The request runs to its end, the good items fare as they would without the
bad ones, and the queue is offered every committed job. -/
def Isolated (s : Session E) (items : List Item) : Prop :=
  (runBatch (openBatch s) items).session.aborted = false ∧
    (runBatch (openBatch s) items).sansDuplicates =
      (runBatch (openBatch s) (items.filter (fun item => !bad item))).sansDuplicates ∧
    (runBatch (openBatch s) items).offered = (runBatch (openBatch s) items).jobs

theorem runBatch_cons (b : Batch E) (item : Item) (rest : List Item) :
    runBatch b (item :: rest) = runBatch ⟨ingestConversation b.session item.1 item.2,
      b.jobs ++ createdJob b.session (ingestConversation b.session item.1 item.2)⟩ rest := rfl

theorem runBatch_session (b : Batch E) (items : List Item) :
    (runBatch b items).session =
      items.foldl (fun s item => ingestConversation s item.1 item.2) b.session := by
  induction items generalizing b with
  | nil => rfl
  | cons item rest ih =>
    rw [runBatch_cons, ih]
    rfl

/-- A batch is the request of the session it belongs to. -/
theorem runBatch_openBatch (s : Session E) (items : List Item) :
    (runBatch (openBatch s) items).session = ingestConversations s ⟨false, items⟩ :=
  runBatch_session (openBatch s) items

theorem run_handle (b : Batch E) (items : List Item) :
    Replay.run handle b items = some (runBatch b items) := by
  induction items generalizing b with
  | nil => rfl
  | cons item rest ih => exact Replay.run_cons.mpr ⟨_, rfl, ih _⟩

@[simp] theorem sansDuplicates_db (s : Session E) : (sansDuplicates s).db = s.db := rfl

@[simp] theorem sansDuplicates_aborted (s : Session E) :
    (sansDuplicates s).aborted = s.aborted := rfl

theorem extraction_sans (s : Session E) (outcome : Outcome) :
    sansDuplicates (extraction (sansDuplicates s) outcome) =
      sansDuplicates (extraction s outcome) := by
  unfold extraction
  split
  · rfl
  · rfl
  · split
    · rfl
    · rfl

/-- The count of duplicates influences nothing. -/
theorem ingestConversation_sans (s : Session E) (payload : ConversationPayload)
    (outcome : Outcome) :
    sansDuplicates (ingestConversation (sansDuplicates s) payload outcome) =
      sansDuplicates (ingestConversation s payload outcome) := by
  simp only [ingestConversation, sansDuplicates_db, sansDuplicates_aborted]
  by_cases haborted : s.aborted = true
  · simp only [haborted, if_true]
    rfl
  by_cases hexists : outcome.existsRaises = true
  · simp only [haborted, hexists, if_true]
    rfl
  by_cases held : existsByPlatformId s.db.conversations payload.platform payload.platformId = true
  · simp only [haborted, hexists, held, if_true]
    rfl
  simp only [haborted, hexists, held]
  cases ingestTitle payload with
  | error _ => rfl
  | ok title =>
    by_cases hsave : outcome.saveRaises = true
    · simp only [hsave, if_true]
      rfl
    · simp only [hsave]
      cases saveTransaction s.db payload title with
      | error error => cases error <;> rfl
      | ok saved => exact extraction_sans (s.count saved.1 payload saved.2) outcome

theorem createdJob_sans (before after : Session E) :
    createdJob (sansDuplicates before) (sansDuplicates after) = createdJob before after := rfl

theorem runBatch_congr {b c : Batch E} (items : List Item)
    (same : b.sansDuplicates = c.sansDuplicates) :
    (runBatch b items).sansDuplicates = (runBatch c items).sansDuplicates := by
  induction items generalizing b c with
  | nil => exact same
  | cons item rest ih =>
    obtain ⟨hsession, hjobs⟩ := Batch.mk.inj same
    have hafter : sansDuplicates (ingestConversation b.session item.1 item.2) =
        sansDuplicates (ingestConversation c.session item.1 item.2) := by
      rw [← ingestConversation_sans b.session, hsession, ingestConversation_sans]
    have hjob : createdJob b.session (ingestConversation b.session item.1 item.2) =
        createdJob c.session (ingestConversation c.session item.1 item.2) := by
      rw [← createdJob_sans b.session, hsession, hafter, createdJob_sans]
    rw [runBatch_cons, runBatch_cons]
    apply ih
    simp only [Batch.sansDuplicates, hafter, hjobs, hjob]

section OneItem
variable {s : Session E} {item : Item}

/-- The loop runs, and the inbox is there. -/
def Running (s : Session E) : Prop :=
  s.aborted = false ∧ ∃ topicId, getTopicId s.db defaultInboxTopic = some topicId

theorem openBatch_running (s : Session E) : Running (openBatch s).session :=
  ⟨rfl, getTopicId_ensureInbox s.db⟩

theorem extraction_running (available : item.2.preCharge ≠ .raises)
    (running : s.aborted = false) : (extraction s item.2).aborted = false := by
  unfold extraction
  split
  · next raised => exact absurd raised available
  · exact running
  · split
    · exact running
    · exact running

/-- An item that does not raise leaves the loop running. -/
theorem ingestConversation_running (running : Running s) (available : item.2.preCharge ≠ .raises)
    (calm : raises s item = false) : Running (ingestConversation s item.1 item.2) := by
  obtain ⟨aborted, topicId, htopic⟩ := running
  simp only [raises, Bool.or_eq_false_iff, Bool.and_eq_false_iff, Bool.not_eq_false'] at calm
  obtain ⟨hexists, hrest⟩ := calm
  cases held : existsByPlatformId s.db.conversations item.1.platform item.1.platformId with
  | true =>
    have skipped : ingestConversation s item.1 item.2 = s.skipDedupe := by
      simp [ingestConversation, aborted, hexists, held]
    rw [skipped]
    exact ⟨aborted, topicId, htopic⟩
  | false =>
    obtain ⟨hsave, hslug⟩ : item.2.saveRaises = false ∧ (inboxSlug item.1).isNone = false := by
      rcases hrest with h | h
      · rw [held] at h
        cases h
      · exact h
    obtain ⟨slug, hslug⟩ : ∃ slug, inboxSlug item.1 = some slug := by
      cases h : inboxSlug item.1 with
      | none =>
        rw [h] at hslug
        cases hslug
      | some slug => exact ⟨slug, rfl⟩
    obtain ⟨title, clean, htitle, hclean, _⟩ := inboxSlug_eq_some hslug
    obtain ⟨⟨db, id⟩, hdb⟩ := saveTransaction_isOk hclean htopic held
    have saved : ingestConversation s item.1 item.2 =
        extraction (s.count db item.1 id) item.2 := by
      simp [ingestConversation, aborted, hexists, held, hsave, htitle, hdb]
    rw [saved]
    constructor
    · exact extraction_running available aborted
    · obtain ⟨_, topicId', _, _, hfound, htopics, _⟩ := saveTransaction_ok hdb
      refine ⟨topicId', ?_⟩
      rw [extraction_db, Session.count, getTopicId, htopics]
      exact hfound

/-- An item that raises ends the loop. -/
theorem ingestConversation_raises (raised : raises s item = true) :
    (ingestConversation s item.1 item.2).aborted = true := by
  rw [ingestConversation]
  split
  · assumption
  split
  · rfl
  next hexists =>
  simp only [raises, hexists, Bool.false_or, Bool.and_eq_true, Bool.not_eq_true',
    Bool.or_eq_true] at raised
  obtain ⟨held, failure⟩ := raised
  rw [held, if_neg Bool.false_ne_true]
  split
  · rfl
  next title htitle =>
  split
  · rfl
  next hsave =>
  have slug : (inboxSlug item.1).isNone = true := by
    rcases failure with h | h
    · exact absurd h hsave
    · exact h
  cases hclean : validateTitle title with
  | ok clean =>
    rw [inboxSlug_of_ok htitle hclean] at slug
    cases slug
  | error e =>
    -- the save validates the title once more
    have invalid : saveTransaction s.db item.1 title = .error (.invalidTitle e) := by
      simp [saveTransaction, saveConversation, hclean]
    rw [invalid]
    rfl

theorem ingestConversation_aborted (aborted : s.aborted = true) :
    ingestConversation s item.1 item.2 = s := by
  rw [ingestConversation, if_pos aborted]

/-- A bad item that does not raise is a duplicate, and is skipped. -/
theorem ingestConversation_bad (running : s.aborted = false) (isBad : bad item = true)
    (calm : raises s item = false) : ingestConversation s item.1 item.2 = s.skipDedupe := by
  simp only [raises, Bool.or_eq_false_iff, Bool.and_eq_false_iff, Bool.not_eq_false'] at calm
  obtain ⟨hexists, hrest⟩ := calm
  have held : existsByPlatformId s.db.conversations item.1.platform item.1.platformId = true := by
    rcases hrest with h | ⟨hsave, hslug⟩
    · exact h
    · simp [bad, hexists, hsave, hslug] at isBad
  simp [ingestConversation, running, hexists, held]

end OneItem

def Calm (b : Batch E) (item : Item) : Prop := raises b.session item = false

instance (b : Batch E) (item : Item) : Decidable (Calm b item) :=
  inferInstanceAs (Decidable (_ = _))

theorem calm_batch {b : Batch E} {items : List Item} (running : Running b.session)
    (available : ∀ item ∈ items, item.2.preCharge ≠ .raises)
    (calm : Replay.Obeys handle Calm b items) :
    Running (runBatch b items).session ∧ (runBatch b items).sansDuplicates =
      (runBatch b (items.filter (fun item => !bad item))).sansDuplicates := by
  induction items generalizing b with
  | nil => exact ⟨running, rfl⟩
  | cons item rest ih =>
    obtain ⟨hcalm, hrest⟩ := (Replay.obeys_cons rfl).mp calm
    have next := ingestConversation_running running (available item List.mem_cons_self) hcalm
    obtain ⟨hrunning, hsame⟩ := ih next (fun i hi => available i (List.mem_cons_of_mem _ hi)) hrest
    refine ⟨hrunning, hsame.trans ?_⟩
    cases hbad : bad item with
    | false =>
      rw [List.filter_cons_of_pos (by rw [hbad, Bool.not_false]), runBatch_cons]
    | true =>
      -- the bad item has left no more than a count
      rw [List.filter_cons_of_neg (by rw [hbad]; exact Bool.false_ne_true)]
      apply runBatch_congr
      rw [ingestConversation_bad running.1 hbad hcalm]
      simp [Batch.sansDuplicates, createdJob, sansDuplicates, Session.skipDedupe]

theorem aborted_stays (b : Batch E) (item : Item) (c : Batch E)
    (aborted : b.session.aborted = true) (handled : handle b item = some c) :
    c.session.aborted = true := by
  cases handled
  exact (congrArg Session.aborted (ingestConversation_aborted aborted)).trans aborted

/-- Whatever the state of the journal, a request isolates its bad items exactly
when none of its items raises in its turn. -/
theorem ingest_isolates_bad_items (s : Session E) (items : List Item)
    (available : ∀ item ∈ items, item.2.preCharge ≠ .raises) :
    Isolated s items ↔ Replay.Obeys handle Calm (openBatch s) items := by
  constructor
  · intro isolated
    have aborts : ∀ (b : Batch E) (item : Item) (c : Batch E), True → ¬ Calm b item →
        handle b item = some c → c.session.aborted = true := by
      intro b item c _ violated handled
      cases handled
      exact ingestConversation_raises (by simpa [Calm] using violated)
    have running : ¬ (runBatch (openBatch s) items).session.aborted = true := by
      rw [isolated.1]
      exact Bool.false_ne_true
    exact Replay.obeys_of_unmarked (fun _ _ _ _ _ => trivial) aborts aborted_stays trivial
      (run_handle (openBatch s) items) running
  · intro calm
    obtain ⟨running, same⟩ := calm_batch (openBatch_running s) available calm
    refine ⟨running.1, same, ?_⟩
    rw [Batch.offered, running.1]
    rfl

def nulMessage : PyStr := py "To" ++ [ofChar (Char.ofNat 0)] ++ py "Rome"

def spoiled : ConversationPayload where
  platform := .chatgpt
  platformId := py "2"
  title := py "Spoiled"
  createdAt := py "2026-01-03T03:04:05+00:00"
  messages := [⟨.user, nulMessage, none⟩]

/-- A spoiled copy of a conversation that is there already. -/
def spoiledCopy : ConversationPayload := { spoiled with platformId := trip.platformId }

def oslo : ConversationPayload := { tripAgain with platformId := py "3", title := py "Oslo" }

def itemOf (payload : ConversationPayload) : Item := (payload, textOutcome payload)

def harmless : List Item := [itemOf trip, itemOf spoiledCopy, itemOf oslo]

theorem ingest_isolates_duplicate : bad (itemOf spoiledCopy) = true ∧
    Isolated (start emptyJournal) harmless := by
  refine ⟨by decide, ?_⟩
  exact (ingest_isolates_bad_items (start emptyJournal) harmless (by decide)).mpr (by decide)

def harmful : List Item := [itemOf trip, itemOf spoiled, itemOf oslo]

/-- The job of the first item is committed and never offered; the third item is lost. -/
theorem nul_message_strands_job :
    (runBatch (openBatch (start emptyJournal)) harmful).jobs = [1] ∧
    (runBatch (openBatch (start emptyJournal)) harmful).offered = [] ∧
    ¬ ∀ (s : Session Unit) (items : List Item),
      (∀ item ∈ items, item.2.preCharge ≠ .raises) → Isolated s items := by
  refine ⟨by decide, by decide, ?_⟩
  intro all
  have isolated := all (start emptyJournal) harmful (by decide)
  have running := isolated.1
  revert running
  decide

end IngestIsolation
