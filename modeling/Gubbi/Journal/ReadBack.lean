import Gubbi.Journal.Pagination
import Gubbi.Journal.Saving

/-!
# Reading a conversation by its title

The slug of a saved conversation is that of the title as `validate_title` leaves it; the
reader takes the slug of the title as it is given. Where the two slugs are one, the saved
conversation is found, with its messages in their order; elsewhere it is not.
-/

namespace ReadBack

open Text Validation Titles Cipher Queries JournalTables JournalRows Listing Pagination Saving

/-- `slugify` of a title that was not validated. -/
def slugifyText (low : Lowering) (text : PyStr) : PyStr :=
  stripOf (fun c => c = ofChar '-') (dashRuns (strip (low.lower text)))

/-- On ASCII it is what the writer computes. -/
theorem slugifyText_ascii {low : Lowering} {text : PyStr} (ascii : isAscii text = true) :
    slugifyText low text = slugify text := by
  rw [slugifyText, low.lower_ascii text ascii, slugify]

/-- The row that `get_conversation` selects. -/
def findView (db : Tables) (topic slug : PyStr) : Option ConversationView :=
  (conversationViews db).find? (fun view => view.topic = topic && view.row.slug = slug)

def getConversation (rt : Runtime) (db : Tables) (cipher : ContentCipher)
    (s : Sorter messageOrder) (topic title : PyStr) :
    Except ListingError (ConversationMeta × List Message) :=
  match validateTopic rt.lowering topic with
  | .error message => .error (.valueError message)
  | .ok topic =>
    match findView db topic (slugifyText rt.lowering title) with
    | none =>
      .error (.conversationNotFound (py "Conversation '" ++ title ++ py "' not found under '" ++
        topic ++ py "'"))
    | some view =>
      match rowToMeta rt cipher false view with
      | .error e => .error e
      | .ok conversationMeta =>
        match (s.sort (messagesOf db.messages view.id)).mapM (messageFromRow rt cipher false) with
        | .error e => .error e
        | .ok messages => .ok (conversationMeta, messages)

section Views
variable {rt : Runtime} {db : Tables} {cipher : ContentCipher}

theorem mem_conversationViews {view : ConversationView} : view ∈ conversationViews db ↔
    (view.id, view.row) ∈ db.conversations.rows ∧
      ∃ topicRow, db.topics.get view.row.topicId = some topicRow ∧ topicRow.path = view.topic := by
  constructor
  · intro mem
    obtain ⟨found, hfound, h⟩ := List.mem_filterMap.mp mem
    obtain ⟨topicRow, known, rfl⟩ := Option.map_eq_some_iff.mp h
    exact ⟨hfound, topicRow, known, rfl⟩
  · rintro ⟨mem, topicRow, known, path⟩
    refine List.mem_filterMap.mpr ⟨(view.id, view.row), mem, ?_⟩
    rw [known, Option.map_some, path]

/-- Two topics of one path are one topic. -/
theorem topicId_of_path {key key' : TopicId} {topic topic' : TopicRow}
    (known : db.topics.get key = some topic) (known' : db.topics.get key' = some topic')
    (same : topic.path = topic'.path) : key = key' := by
  have rows := List.inj_on_of_nodup_map db.paths (Table.get_eq_some_iff.mp known)
    (Table.get_eq_some_iff.mp known') same
  exact congrArg Prod.fst rows

/-- A topic and a slug select one row at most. -/
theorem view_unique {view other : ConversationView} (mem : view ∈ conversationViews db)
    (mem' : other ∈ conversationViews db) (topic : view.topic = other.topic)
    (slug : view.row.slug = other.row.slug) : view = other := by
  obtain ⟨hrow, topicRow, known, path⟩ := mem_conversationViews.mp mem
  obtain ⟨hrow', topicRow', known', path'⟩ := mem_conversationViews.mp mem'
  have topics := topicId_of_path known known' (path.trans (topic.trans path'.symm))
  have slots : view.row.slot = other.row.slot := Prod.ext topics slug
  obtain ⟨ids, rows⟩ := Prod.mk.inj (List.inj_on_of_nodup_map db.slugs hrow hrow' slots)
  cases view
  cases other
  simp only at ids rows topic
  rw [ids, rows, topic]

theorem findView_eq_some {topic slug : PyStr} {view : ConversationView} :
    findView db topic slug = some view ↔
      view ∈ conversationViews db ∧ view.topic = topic ∧ view.row.slug = slug := by
  constructor
  · intro found
    have meets := List.find?_some found
    simp only [Bool.and_eq_true, decide_eq_true_eq] at meets
    exact ⟨List.mem_of_find?_eq_some found, meets⟩
  · rintro ⟨mem, rfl, rfl⟩
    refine find_of_only mem (by simp) fun other mem' meets => ?_
    simp only [Bool.and_eq_true, decide_eq_true_eq] at meets
    exact view_unique mem' mem meets.1 meets.2

theorem conversationView_of_mem {view : ConversationView} (mem : view ∈ conversationViews db) :
    conversationView db view.id = .ok view := by
  have found : (conversationViews db).find? (fun other => other.id = view.id) = some view := by
    refine find_of_only mem (by simp) fun other mem' same => ?_
    refine Table.eq_of_mem_filterMap ?_ mem' mem (by simpa using same)
    intro row built h
    obtain ⟨topicRow, _, rfl⟩ := Option.map_eq_some_iff.mp h
    rfl
  rw [conversationView, found]

theorem rowToMeta_id {softFail : Bool} {view : ConversationView} {built : ConversationMeta}
    (h : rowToMeta rt cipher softFail view = .ok built) : built.id = view.id := by
  have checked_id : ∀ title summary failed,
      conversationMeta rt view title summary failed = .ok built → built.id = view.id := by
    intro title summary failed h
    rw [conversationMeta, checked] at h
    split at h
    · obtain rfl := Except.ok.inj h
      rfl
    · cases h
  rw [rowToMeta] at h
  split at h
  · exact checked_id _ _ _ h
  · split at h
    · cases h
    · split at h
      · cases h
      · exact checked_id _ _ _ h

/-- What `get_conversation` returns is at the topic and the slug of the request. -/
theorem slug_of_getConversation {s : Sorter messageOrder} {topic path title : PyStr}
    {conversationMeta : ConversationMeta} {messages : List Message}
    (valid : validateTopic rt.lowering topic = .ok path)
    (h : getConversation rt db cipher s topic title = .ok (conversationMeta, messages)) :
    ∃ view ∈ conversationViews db, conversationMeta.id = view.id ∧
      view.row.slug = slugifyText rt.lowering title := by
  simp only [getConversation, valid] at h
  split at h
  · cases h
  · next view found =>
    obtain ⟨mem, _, slug⟩ := findView_eq_some.mp found
    split at h
    · cases h
    · next built hbuilt =>
      split at h
      · cases h
      · obtain ⟨rfl, _⟩ := Prod.mk.inj (Except.ok.inj h)
        exact ⟨view, mem, rowToMeta_id hbuilt, slug⟩

end Views

section SavedRows
variable {host : Host} {cipher : ContentCipher} {args : SaveArgs} {db : Tables}
  {id : ConversationId} {topic title : PyStr} {row : ConversationRow} {new : List NewMessage}

/-- The messages as a reader gets them: a time that was not parsed is gone. -/
def storedMessage (host : Host) (message : Message) : Message :=
  ⟨message.role, message.content, (message.timestamp.bind host.instant).map Timestamp.isoformat,
    false⟩

def savedView (id : ConversationId) (row : ConversationRow) (topic : PyStr) : ConversationView :=
  ⟨id, row, topic⟩

theorem savedView_mem (saved : Saved host cipher args db id topic title row new) :
    savedView id row topic ∈ conversationViews db :=
  mem_conversationViews.mpr ⟨saved.mem, saved.stored⟩

theorem decryptSoft_of_ok {rt : Runtime} {columns : Sealed} {text : PyStr}
    (h : decryptSealed rt cipher columns = .ok text) :
    decryptSoft rt cipher columns = (text, false) := by
  rw [decryptSoft, h]

/-- The row of a saved conversation is read, whether failures are soft or not. -/
theorem rowToMeta_saved (saved : Saved host cipher args db id topic title row new)
    (softFail : Bool) :
    ∃ built, rowToMeta host.toRuntime cipher softFail (savedView id row topic) = .ok built ∧
      built.id = id ∧ built.title = title ∧ built.messageCount = args.messages.length := by
  have valid : checkTopic host.toRuntime topic = (topic, []) := by
    rw [checkTopic, (validateTopic_of_ok saved.validTopic).1]
  have built : ∃ built, conversationMeta host.toRuntime (savedView id row topic) title args.summary
      false = .ok built ∧ built.id = id ∧ built.title = title ∧
        built.messageCount = args.messages.length := by
    simp only [conversationMeta, savedView, valid, saved.tags, List.append_nil, checked, if_true]
    exact ⟨_, rfl, rfl, rfl, saved.messageCount⟩
  cases softFail with
  | true =>
    simp only [rowToMeta, savedView, if_true, decryptSoft_of_ok saved.sealedTitle,
      decryptSoft_of_ok saved.sealedSummary, Bool.or_false]
    exact built
  | false =>
    simp only [rowToMeta, savedView, Bool.false_eq_true, if_false, saved.sealedTitle,
      saved.sealedSummary]
    exact built

theorem messageFromRow_holds {message : Message} {written : NewMessage}
    (holds : Holds host cipher message written) (softFail : Bool) (position : Nat) :
    messageFromRow host.toRuntime cipher softFail
        ⟨id, written.role, written.timestamp, position, written.content⟩ =
      .ok (storedMessage host message) := by
  cases softFail with
  | true =>
    simp only [messageFromRow, if_true, decryptSoft_of_ok holds.content, holds.role,
      holds.timestamp, storedMessage]
  | false =>
    simp only [messageFromRow, Bool.false_eq_true, if_false, holds.content, holds.role,
      holds.timestamp, storedMessage]

/-- The inserted rows are read as the messages, one by one. -/
theorem mapM_inserted {messages : List Message} {written : List NewMessage} (softFail : Bool)
    (holds : List.Forall₂ (Holds host cipher) messages written) (start : Nat) :
    ((written.zipIdx start).map (fun m => (⟨id, m.1.role, m.1.timestamp, m.2, m.1.content⟩ :
      MessageRow))).mapM (messageFromRow host.toRuntime cipher softFail) =
        .ok (messages.map (storedMessage host)) := by
  induction holds generalizing start with
  | nil => rfl
  | cons first others ih =>
    rw [List.zipIdx_cons, List.map_cons, Fallible.mapM_cons_eq_ok]
    exact ⟨_, _, messageFromRow_holds first softFail start, ih (start + 1), rfl⟩

/-- Whatever the planner, the messages come in the order in which they were saved. -/
theorem sort_saved (saved : Saved host cipher args db id topic title row new)
    (s : Sorter messageOrder) : s.sort (messagesOf db.messages id) = insertMessages id new := by
  have separates := separates_messagesOf saved.mem
  rw [saved.rows] at separates
  rw [saved.rows]
  refine sort_of_sorted separates ?_ s
  have positions : ((insertMessages id new).map MessageRow.position).Pairwise (· < ·) := by
    rw [positions_insertMessages]
    exact List.pairwise_lt_range
  refine (List.pairwise_map.mp positions).imp ?_
  intro a b before
  have order : (messageOrder).cmp a b = .lt := compare_lt_iff_lt.mpr before
  rw [order]
  rfl

end SavedRows

section RoundTrip
variable {host : Host} {cipher : ContentCipher} {args : SaveArgs} {db after : Tables}
  {id : ConversationId} {call : Call}

/-- What is compared of a message that was saved and one that is read. -/
def words (message : Message) : PyStr × PyStr := (message.role, message.content)

/-- The readers return these messages: by topic and title, and page by page by the id. -/
structure ReadsAs (host : Host) (cipher : ContentCipher) (args : SaveArgs) (db : Tables)
    (id : ConversationId) (messages : List Message) : Prop where
  sameWords : messages.map words = args.messages.map words
  byTitle : ∀ s : Sorter messageOrder, ∃ conversationMeta,
    getConversation host.toRuntime db cipher s args.topic args.title =
        .ok (conversationMeta, messages) ∧
      conversationMeta.id = id ∧ conversationMeta.messageCount = args.messages.length
  byPages : ∀ (softFail : Bool) (size : Nat), 0 < size → ∀ planner : Nat → Sorter messageOrder,
    ∃ enough, ∀ fuel, enough ≤ fuel →
      collect (fun offset => ((readConversationByIdPaginated host.toRuntime db cipher
        (planner offset) id size offset softFail).map Prod.snd).map Prod.fst) size fuel 0 =
          .ok (some messages)

/-- The conversation is read back by the title that it was saved with. -/
def ReadsBack (host : Host) (cipher : ContentCipher) (args : SaveArgs) (db : Tables)
    (id : ConversationId) : Prop :=
  ∃ messages, ReadsAs host cipher args db id messages

/-- The title as given has the slug of the title as it is stored. -/
def SlugKept (low : Lowering) (title : PyStr) : Prop :=
  ∃ clean, validateTitle title = .ok clean ∧ slugifyText low title = slugify clean

variable {topic title : PyStr} {row : ConversationRow} {new : List NewMessage}

/-- The pages of a saved conversation make up its messages, whatever its title. -/
theorem pages_saved (saved : Saved host cipher args db id topic title row new) (softFail : Bool)
    {size : Nat} (positive : 0 < size) (planner : Nat → Sorter messageOrder) :
    ∃ enough, ∀ fuel, enough ≤ fuel →
      collect (fun offset => ((readConversationByIdPaginated host.toRuntime db cipher
        (planner offset) id size offset softFail).map Prod.snd).map Prod.fst) size fuel 0 =
          .ok (some (args.messages.map (storedMessage host))) := by
  obtain ⟨built, hbuilt, _⟩ := rowToMeta_saved saved softFail
  have view : conversationView db id = .ok (savedView id row topic) :=
    conversationView_of_mem (savedView_mem saved)
  have selected : messagesSelected host.toRuntime db cipher id softFail =
      .ok (messagesOf db.messages id) := by
    simp only [messagesSelected, view, hbuilt, Except.map]
  have partitions := @messages_partitions host.toRuntime db cipher id softFail
  rw [selected] at partitions
  obtain ⟨enough, collected⟩ := partitions size positive planner messageOrder.sorter
  refine ⟨enough, fun fuel reaches => ?_⟩
  rw [collected fuel reaches, listing, sort_saved saved]
  exact congrArg (Except.map some) (mapM_inserted softFail saved.messages 0)

theorem readsAs_of_slug (saved : Saved host cipher args db id topic title row new)
    (same : slugifyText host.lowering args.title = slugify title) :
    ReadsAs host cipher args db id (args.messages.map (storedMessage host)) := by
  refine ⟨?_, ?_, ?_⟩
  · rw [List.map_map]
    rfl
  · intro s
    obtain ⟨built, hbuilt, hid, _, count⟩ := rowToMeta_saved saved false
    have found : findView db topic (slugifyText host.lowering args.title) =
        some (savedView id row topic) :=
      findView_eq_some.mpr ⟨savedView_mem saved, rfl, saved.slug.trans same.symm⟩
    have messages : (s.sort (messagesOf db.messages id)).mapM
        (messageFromRow host.toRuntime cipher false) =
          .ok (args.messages.map (storedMessage host)) := by
      rw [sort_saved saved]
      exact mapM_inserted false saved.messages 0
    refine ⟨built, ?_, hid, count⟩
    simp only [getConversation, saved.validTopic, found, hbuilt]
    simp only [savedView, messages]
  · intro softFail size positive planner
    exact pages_saved saved softFail positive planner

/-- A reader that returns the saved conversation asked for its slug. -/
theorem slug_of_readsBack (saved : Saved host cipher args db id topic title row new)
    (back : ReadsBack host cipher args db id) :
    slugifyText host.lowering args.title = slugify title := by
  obtain ⟨messages, reads⟩ := back
  obtain ⟨built, returned, hid, _⟩ := reads.byTitle messageOrder.sorter
  obtain ⟨view, mem, same, slug⟩ := slug_of_getConversation saved.validTopic returned
  have hrow := Table.get_eq_some_iff.mpr (mem_conversationViews.mp mem).1
  rw [← same, hid, Table.get_eq_some_iff.mpr saved.mem] at hrow
  rw [← slug, ← Option.some.inj hrow, saved.slug]

/-- A saved conversation is read back by its title exactly when the slug of the title as given is
that of the title as stored. -/
theorem readsBack_iff (committed : saveConversation host cipher db args call = .ok (after, id)) :
    ReadsBack host cipher args after id ↔ SlugKept host.lowering args.title := by
  obtain ⟨topic, title, row, new, saved⟩ := saved_of_ok committed
  constructor
  · intro back
    exact ⟨title, saved.validTitle, slug_of_readsBack saved back⟩
  · rintro ⟨clean, valid, same⟩
    obtain rfl : title = clean := Except.ok.inj (saved.validTitle.symm.trans valid)
    exact ⟨_, readsAs_of_slug saved same⟩

/-- A title of permitted characters that is not cut is read back. -/
theorem slugKept_of_titleChars {low : Lowering} {clean : PyStr}
    (chars : ∀ c ∈ title, isTitleChar c = true) (short : title.length ≤ 100)
    (valid : validateTitle title = .ok clean) : SlugKept low title := by
  have ascii : isAscii title = true := by
    refine List.all_eq_true.mpr fun c mem => decide_eq_true ?_
    have permitted := chars c mem
    have space : (ofChar ' ').val = 0x20 := rfl
    have underscore : (ofChar '_').val = 0x5f := rfl
    have dash : (ofChar '-').val = 0x2d := rfl
    simp only [isTitleChar, isAlnum, isUpper, isLower, isDigit, Bool.or_eq_true, Bool.and_eq_true,
      decide_eq_true_eq, Fin.ext_iff] at permitted
    omega
  exact ⟨clean, valid,
    (slugifyText_ascii ascii).trans (slugify_of_titleChars chars short valid).symm⟩

end RoundTrip

def sampleHost : Host where
  toRuntime := sampleRuntime
  fitsTsvector := fun _ => true
  parseTs := fun _ => none

def sampleCall : Call where
  now := sampleTime
  upsertNow := sampleTime
  today := sampleTime.date
  random := fun _ => sampleTail

def sampleArgs (title : PyStr) : SaveArgs where
  topic := py "work"
  title := title
  messages := [⟨py "user", py "hello", none, false⟩, ⟨py "assistant", py "hi", none, false⟩]
  summary := py "Greetings"
  source := py "claude"
  tags := []
  date := some (py "2026-02-28")

theorem sample_saved (title : PyStr) (accepted : (saveConversation sampleHost sampleCipher
    sampleTables (sampleArgs title) sampleCall).isOk = true) :
    ∃ after id, saveConversation sampleHost sampleCipher sampleTables (sampleArgs title)
      sampleCall = .ok (after, id) := by
  obtain ⟨⟨after, id⟩, saved⟩ := Fallible.isOk_iff.mp accepted
  exact ⟨after, id, saved⟩

theorem readsBack_iff_sample : ∃ after id,
    saveConversation sampleHost sampleCipher sampleTables (sampleArgs (py "Don-t panic"))
        sampleCall = .ok (after, id) ∧
      ReadsBack sampleHost sampleCipher (sampleArgs (py "Don-t panic")) after id := by
  obtain ⟨after, id, saved⟩ := sample_saved (py "Don-t panic") (by decide +kernel)
  have kept : SlugKept sampleHost.lowering (py "Don-t panic") :=
    ⟨py "Don-t panic", by decide, by decide⟩
  exact ⟨after, id, saved, (readsBack_iff saved).mpr kept⟩

/-- The apostrophe is dropped by the writer and is a dash to the reader. -/
theorem apostrophe_not_readBack : ∃ after id,
    saveConversation sampleHost sampleCipher sampleTables (sampleArgs (py "Don't panic"))
        sampleCall = .ok (after, id) ∧
      ¬ ReadsBack sampleHost sampleCipher (sampleArgs (py "Don't panic")) after id := by
  obtain ⟨after, id, saved⟩ := sample_saved (py "Don't panic") (by decide +kernel)
  refine ⟨after, id, saved, fun back => ?_⟩
  obtain ⟨topic, title, row, new, stored⟩ := saved_of_ok saved
  have same := slug_of_readsBack stored back
  have clean : validateTitle (py "Don't panic") = .ok (py "Dont panic") := by decide
  obtain rfl := Except.ok.inj (stored.validTitle.symm.trans clean)
  exact absurd same (by decide)

end ReadBack
