import Gubbi.Journal.ReadBack
import Gubbi.Library.Replay

/-!
# Conversations that are saved while they are read

The readers of a conversation send two statements in a transaction that is opened as
`READ COMMITTED`, so each statement sees what is committed by then. A save replaces the row
and the messages in one transaction.
-/

namespace TornReads

open Text Validation Cipher Queries JournalTables JournalRows Listing Pagination Saving ReadBack

inductive Request
  /-- `get_conversation`. -/
  | byTitle (topic title : PyStr)
  /-- `read_conversation_by_id`. -/
  | byId (id : ConversationId) (preview : Bool)
  /-- `read_conversation_by_id_paginated`. -/
  | paginated (id : ConversationId) (messagesLimit messagesOffset : Nat) (softFail : Bool)

def Request.softFail : Request → Bool
  | .paginated _ _ _ softFail => softFail
  | _ => false

/-- `get_conversation` returns no total. -/
structure Response where
  conversation : ConversationMeta
  messages : List Message
  total : Option Nat

section Statements
variable (rt : Runtime) (cipher : ContentCipher)

/-- The statement for the row. -/
def selectRow (db : Tables) : Request → Except ListingError ConversationView
  | .byTitle topic title =>
    match validateTopic rt.lowering topic with
    | .error message => .error (.valueError message)
    | .ok topic =>
      match findView db topic (slugifyText rt.lowering title) with
      | none =>
        .error (.conversationNotFound (py "Conversation '" ++ title ++ py "' not found under '" ++
          topic ++ py "'"))
      | some view => .ok view
  | .byId id _ => conversationView db id
  | .paginated id _ _ _ => conversationView db id

/-- The row is decrypted before the second statement is sent. -/
def readRow (db : Tables) (request : Request) :
    Except ListingError (ConversationView × ConversationMeta) :=
  match selectRow rt db request with
  | .error e => .error e
  | .ok view => (rowToMeta rt cipher request.softFail view).map (fun built => (view, built))

/-- The statement for the messages. -/
def selectMessages (db : Tables) (s : Sorter messageOrder) (id : ConversationId) :
    Request → List MessageRow
  | .paginated _ limit offset _ => page (some limit) offset (s.sort (messagesOf db.messages id))
  | _ => s.sort (messagesOf db.messages id)

/-- `messages[:3] + messages[-3:]`. -/
def previewOf (messages : List Message) : List Message :=
  if 6 < messages.length then messages.take 3 ++ messages.drop (messages.length - 3)
  else messages

def respond (view : ConversationView) (built : ConversationMeta) (messages : List Message) :
    Request → Response
  | .byTitle _ _ => ⟨built, messages, none⟩
  | .byId _ preview =>
    ⟨built, if preview then previewOf messages else messages, some view.row.messageCount⟩
  | .paginated _ _ _ _ => ⟨built, messages, some view.row.messageCount⟩

def readMessages (db : Tables) (s : Sorter messageOrder) (request : Request)
    (view : ConversationView) (built : ConversationMeta) : Except ListingError Response :=
  ((selectMessages db s view.id request).mapM (messageFromRow rt cipher request.softFail)).map
    (fun messages => respond view built messages request)

end Statements

abbrev ReaderId := Nat

inductive Reader
  /-- The row is read, the messages are not. -/
  | halfway (request : Request) (view : ConversationView) (built : ConversationMeta)
  | returned (request : Request) (response : Response)
  | raised (error : ListingError)

/-- What is committed, what was committed before, and the calls that read. -/
structure World where
  db : Tables
  past : List Tables
  readers : Table ReaderId Reader

def World.versions (w : World) : List Tables := w.db :: w.past

def World.goto (w : World) (p : ReaderId) (reader : Reader) : World :=
  { w with readers := w.readers.put p reader }

inductive Action
  /-- A call of `save_conversation`, at its commit. -/
  | save (args : SaveArgs) (call : Call)
  | readRow (p : ReaderId) (request : Request)
  | readMessages (p : ReaderId) (planner : Sorter messageOrder)

section Steps
variable (host : Host) (cipher : ContentCipher)

def step (w : World) : Action → Option World
  | .save args call =>
    match saveConversation host cipher w.db args call with
    | .error _ => none
    | .ok (after, _) => some { w with db := after, past := w.db :: w.past }
  | .readRow p request =>
    match w.readers.get p with
    | some _ => none
    | none =>
      match TornReads.readRow host.toRuntime cipher w.db request with
      | .error e => some (w.goto p (.raised e))
      | .ok (view, built) => some (w.goto p (.halfway request view built))
  | .readMessages p planner =>
    match w.readers.get p with
    | some (.halfway request view built) =>
      match TornReads.readMessages host.toRuntime cipher w.db planner request view built with
      | .error e => some (w.goto p (.raised e))
      | .ok response => some (w.goto p (.returned request response))
    | _ => none

/-- The metadata and the messages are those of a conversation as these tables have it. -/
def OneVersion (db : Tables) (request : Request) (response : Response) : Prop :=
  ∃ view, conversationView db view.id = .ok view ∧
    rowToMeta host.toRuntime cipher request.softFail view = .ok response.conversation ∧
    response.conversation.messageCount = (messagesOf db.messages view.id).length ∧
    (∀ total, response.total = some total → total = response.conversation.messageCount) ∧
    ∀ message ∈ response.messages, ∃ row ∈ messagesOf db.messages view.id,
      messageFromRow host.toRuntime cipher request.softFail row = .ok message

/-- No read is torn: what a call has returned is from one version that was committed. -/
def Untorn (w : World) : Prop :=
  ∀ p request response, w.readers.get p = some (.returned request response) →
    ∃ db ∈ w.versions, OneVersion host cipher db request response

/-- A save commits at no conversation whose row is read and whose messages are not. -/
def Undisturbed (w : World) : Action → Prop
  | .save args call => ∀ after id,
    saveConversation host cipher w.db args call = .ok (after, id) →
      ∀ p request view built, w.readers.get p = some (.halfway request view built) → view.id ≠ id
  | _ => True

end Steps

section Reading
variable {rt : Runtime} {cipher : ContentCipher} {db : Tables} {request : Request}

/-- Both statements in one state are the reader of that state. -/
theorem paginated_alone (s : Sorter messageOrder) (id : ConversationId) (limit offset : Nat)
    (softFail : Bool) :
    readConversationByIdPaginated rt db cipher s id limit offset softFail =
      match readRow rt cipher db (.paginated id limit offset softFail) with
      | .error e => .error e
      | .ok (view, built) =>
        (readMessages rt cipher db s (.paginated id limit offset softFail) view built).map
          (fun response => (response.conversation, response.messages, view.row.messageCount)) := by
  simp only [readConversationByIdPaginated, readRow, selectRow]
  cases located : conversationView db id with
  | error e => rfl
  | ok view =>
    obtain ⟨rfl, _⟩ := conversationView_mem located
    cases made : rowToMeta rt cipher softFail view with
    | error e => simp only [made, Request.softFail, Except.map]
    | ok built =>
      simp only [made, Request.softFail, Except.map, readMessages, selectMessages]
      cases (page (some limit) offset (s.sort (messagesOf db.messages view.id))).mapM
        (messageFromRow rt cipher softFail) with
      | error e => rfl
      | ok messages => rfl

theorem byTitle_alone (s : Sorter messageOrder) (topic title : PyStr) :
    getConversation rt db cipher s topic title =
      match readRow rt cipher db (.byTitle topic title) with
      | .error e => .error e
      | .ok (view, built) =>
        (readMessages rt cipher db s (.byTitle topic title) view built).map
          (fun response => (response.conversation, response.messages)) := by
  simp only [getConversation, readRow, selectRow]
  cases validateTopic rt.lowering topic with
  | error message => rfl
  | ok path =>
    simp only
    cases findView db path (slugifyText rt.lowering title) with
    | none => rfl
    | some view =>
      simp only [Request.softFail]
      cases rowToMeta rt cipher false view with
      | error e => rfl
      | ok built =>
        simp only [Except.map, readMessages, selectMessages, Request.softFail]
        cases (s.sort (messagesOf db.messages view.id)).mapM
          (messageFromRow rt cipher false) with
        | error e => rfl
        | ok messages => rfl

theorem view_of_selectRow {view : ConversationView}
    (selected : selectRow rt db request = .ok view) : conversationView db view.id = .ok view := by
  cases request with
  | byTitle topic title =>
    simp only [selectRow] at selected
    split at selected
    · cases selected
    · split at selected
      · cases selected
      · next found located =>
        cases selected
        exact conversationView_of_mem (findView_eq_some.mp located).1
  | byId id preview =>
    obtain ⟨rfl, _⟩ := conversationView_mem selected
    exact selected
  | paginated id limit offset softFail =>
    obtain ⟨rfl, _⟩ := conversationView_mem selected
    exact selected

theorem readRow_eq_ok {view : ConversationView} {built : ConversationMeta}
    (read : readRow rt cipher db request = .ok (view, built)) :
    conversationView db view.id = .ok view ∧
      rowToMeta rt cipher request.softFail view = .ok built := by
  unfold readRow at read
  split at read
  · cases read
  · next found selected =>
    obtain ⟨meta', made, same⟩ := Fallible.map_eq_ok.mp read
    cases same
    exact ⟨view_of_selectRow selected, made⟩

theorem messageCount_of_rowToMeta {softFail : Bool} {view : ConversationView}
    {built : ConversationMeta} (made : rowToMeta rt cipher softFail view = .ok built) :
    built.messageCount = view.row.messageCount := by
  have kept : ∀ title summary failed,
      conversationMeta rt view title summary failed = .ok built →
        built.messageCount = view.row.messageCount := by
    intro title summary failed h
    rw [conversationMeta, checked] at h
    split at h
    · cases h
      rfl
    · cases h
  rw [rowToMeta] at made
  split at made
  · exact kept _ _ _ made
  · split at made
    · cases made
    · split at made
      · cases made
      · exact kept _ _ _ made

theorem mem_selectMessages {s : Sorter messageOrder} {id : ConversationId} {row : MessageRow}
    (mem : row ∈ selectMessages db s id request) : row ∈ messagesOf db.messages id := by
  cases request with
  | byTitle topic title => exact (s.perm _).mem_iff.mp mem
  | byId _ preview => exact (s.perm _).mem_iff.mp mem
  | paginated _ limit offset softFail =>
    rw [selectMessages] at mem
    exact (s.perm _).mem_iff.mp (mem_of_mem_page mem)

theorem mem_previewOf {messages : List Message} {message : Message}
    (mem : message ∈ previewOf messages) : message ∈ messages := by
  unfold previewOf at mem
  split at mem
  · rcases List.mem_append.mp mem with first | last
    · exact List.mem_of_mem_take first
    · exact List.mem_of_mem_drop last
  · exact mem

theorem mem_respond {view : ConversationView} {built : ConversationMeta} {messages : List Message}
    {message : Message} (mem : message ∈ (respond view built messages request).messages) :
    message ∈ messages := by
  cases request with
  | byTitle topic title => exact mem
  | paginated id limit offset softFail => exact mem
  | byId id preview =>
    cases preview with
    | false => exact mem
    | true => exact mem_previewOf mem

theorem total_respond {view : ConversationView} {built : ConversationMeta} {messages : List Message}
    {total : Nat} (returned : (respond view built messages request).total = some total) :
    total = view.row.messageCount := by
  cases request with
  | byTitle topic title => cases returned
  | paginated id limit offset softFail =>
    cases returned
    rfl
  | byId id preview =>
    cases returned
    rfl

theorem conversation_respond (view : ConversationView) (built : ConversationMeta)
    (messages : List Message) : (respond view built messages request).conversation = built := by
  cases request <;> rfl

end Reading

section Runs
variable {host : Host} {cipher : ContentCipher}

/-- A row that is still the one that was read has its messages beside it. -/
theorem oneVersion_of_current {db : Tables} {s : Sorter messageOrder} {request : Request}
    {view : ConversationView} {built : ConversationMeta} {response : Response}
    (current : conversationView db view.id = .ok view)
    (made : rowToMeta host.toRuntime cipher request.softFail view = .ok built)
    (read : readMessages host.toRuntime cipher db s request view built = .ok response) :
    OneVersion host cipher db request response := by
  obtain ⟨messages, decoded, rfl⟩ := Fallible.map_eq_ok.mp read
  have count := messageCount_of_rowToMeta made
  have stored := (conversationView_mem current).2
  have length := @length_messagesOf db (view.id, view.row) stored
  refine ⟨view, current, ?_, ?_, ?_, ?_⟩
  · rw [conversation_respond]
    exact made
  · rw [conversation_respond, count]
    exact length.symm
  · intro total returned
    rw [conversation_respond, count]
    exact total_respond returned
  · intro message mem
    obtain ⟨row, selected, came⟩ := Fallible.exists_of_mem_mapM decoded (mem_respond mem)
    exact ⟨row, mem_selectMessages selected, came⟩

/-- A save leaves the rows of the other conversations. -/
theorem conversationView_saved {db after : Tables} {args : SaveArgs} {call : Call}
    {id : ConversationId} (committed : saveConversation host cipher db args call = .ok (after, id))
    {view : ConversationView} (other : view.id ≠ id)
    (current : conversationView db view.id = .ok view) :
    conversationView after view.id = .ok view := by
  obtain ⟨prepared, _, same⟩ := Fallible.map_eq_ok.mp committed
  obtain rfl : (commit db prepared call).1 = after := congrArg Prod.fst same
  obtain rfl : (commit db prepared call).2 = id := congrArg Prod.snd same
  have listed : view ∈ conversationViews db := by
    unfold conversationView at current
    split at current
    · cases current
    · next found located =>
      cases current
      exact List.mem_of_find?_eq_some located
  obtain ⟨stored, topic, known, path⟩ := mem_conversationViews.mp listed
  refine conversationView_of_mem (mem_conversationViews.mpr ⟨?_, ?_⟩)
  · have row := Table.get_eq_some_iff.mpr stored
    refine Table.get_eq_some_iff.mp ?_
    rw [(commit_frame prepared call).1]
    rcases (saveConversation_cases db prepared.excluded prepared.known prepared.messages).2 with
      ⟨found, slot, rows, _⟩ | ⟨slot, rows, _⟩
    · have apart : view.id ≠ found.1 := by
        simpa only [commit, savedId, slot] using other
      rw [rows, Table.get_modify_ne _ _ apart, row]
    · have apart : view.id ≠ db.conversations.freshKey := by
        simpa only [commit, savedId, slot] using other
      rw [rows, Table.get_put_ne _ _ apart, row]
  · obtain ⟨touched, found, same⟩ := path_committed prepared call known
    exact ⟨touched, found, same.trans path⟩

/-- What holds between the two statements of a read, besides what it is to return. -/
structure Coherent (host : Host) (cipher : ContentCipher) (w : World) : Prop where
  untorn : Untorn host cipher w
  halfway : ∀ p request view built, w.readers.get p = some (.halfway request view built) →
    conversationView w.db view.id = .ok view ∧
      rowToMeta host.toRuntime cipher request.softFail view = .ok built

theorem coherent_goto {w : World} (coherent : Coherent host cipher w) (p : ReaderId)
    {reader : Reader}
    (untorn : ∀ request response, reader = .returned request response →
      ∃ db ∈ w.versions, OneVersion host cipher db request response)
    (halfway : ∀ request view built, reader = .halfway request view built →
      conversationView w.db view.id = .ok view ∧
        rowToMeta host.toRuntime cipher request.softFail view = .ok built) :
    Coherent host cipher (w.goto p reader) := by
  constructor
  · intro q request response found
    rcases Table.get_put_eq_some found with ⟨_, same⟩ | ⟨_, old⟩
    · exact untorn request response same.symm
    · exact coherent.untorn q request response old
  · intro q request view built found
    rcases Table.get_put_eq_some found with ⟨_, same⟩ | ⟨_, old⟩
    · exact halfway request view built same.symm
    · exact coherent.halfway q request view built old

theorem coherent_step (w : World) (action : Action) (t : World)
    (coherent : Coherent host cipher w) (undisturbed : Undisturbed host cipher w action)
    (taken : step host cipher w action = some t) : Coherent host cipher t := by
  cases action with
  | save args call =>
    unfold step at taken
    dsimp only at taken
    split at taken
    · cases taken
    · next after id committed =>
      cases taken
      constructor
      · intro p request response found
        obtain ⟨db, listed, one⟩ := coherent.untorn p request response found
        exact ⟨db, List.mem_cons_of_mem _ listed, one⟩
      · intro p request view built found
        obtain ⟨current, made⟩ := coherent.halfway p request view built found
        have other := undisturbed after id committed p request view built found
        exact ⟨conversationView_saved committed other current, made⟩
  | readRow p request =>
    unfold step at taken
    dsimp only at taken
    split at taken
    · cases taken
    · split at taken
      · cases taken
        refine coherent_goto coherent p (fun _ _ same => by cases same) ?_
        exact fun _ _ _ same => by cases same
      · next view built read =>
        cases taken
        refine coherent_goto coherent p (fun _ _ same => by cases same) ?_
        intro request' view' built' same
        cases same
        exact readRow_eq_ok read
  | readMessages p planner =>
    unfold step at taken
    dsimp only at taken
    split at taken
    · next request view built found =>
      obtain ⟨current, made⟩ := coherent.halfway p request view built found
      split at taken
      · cases taken
        refine coherent_goto coherent p (fun _ _ same => by cases same) ?_
        exact fun _ _ _ same => by cases same
      · next response read =>
        cases taken
        refine coherent_goto coherent p ?_ (fun _ _ _ same => by cases same)
        intro request' response' same
        cases same
        exact ⟨w.db, List.mem_cons_self, oneVersion_of_current current made read⟩
    · cases taken

/-- No call has started. -/
def World.start (db : Tables) : World := ⟨db, [], Table.empty⟩

theorem coherent_start (db : Tables) : Coherent host cipher (World.start db) where
  untorn := fun _ _ _ found => by cases found
  halfway := fun _ _ _ _ found => by cases found

/-- In every interleaving in which no save commits between the two statements of a read of its
conversation, no read is torn in any state that is reached. -/
theorem reads_untorn {db : Tables} {actions : List Action}
    (undisturbed : Replay.Obeys (step host cipher) (Undisturbed host cipher) (World.start db)
      actions) :
    Replay.Throughout (step host cipher) (Untorn host cipher) (World.start db) actions := by
  have coherent := Replay.throughout_of_obeys coherent_step (coherent_start db) undisturbed
  exact Replay.throughout_mono (fun _ reached => reached.untorn) coherent

end Runs

/-- A page that holds all messages of a saved conversation, whatever row was read before. -/
theorem readMessages_saved {host : Host} {cipher : ContentCipher} {args : SaveArgs} {db : Tables}
    {topic title : PyStr} {row : ConversationRow} {new : List NewMessage}
    {view : ConversationView} (saved : Saved host cipher args db view.id topic title row new)
    (s : Sorter messageOrder) {limit : Nat} (enough : args.messages.length ≤ limit)
    (softFail : Bool) (built : ConversationMeta) :
    readMessages host.toRuntime cipher db s (.paginated view.id limit 0 softFail) view built =
      .ok ⟨built, args.messages.map (storedMessage host), some view.row.messageCount⟩ := by
  have rows : selectMessages db s view.id (.paginated view.id limit 0 softFail) =
      insertMessages view.id new := by
    rw [selectMessages, sort_saved saved, page, List.drop_zero]
    refine List.take_of_length_le ?_
    have length : new.length = args.messages.length := saved.messages.length_eq.symm
    rw [insertMessages, List.length_map, List.length_zipIdx]
    omega
  have decoded : (insertMessages view.id new).mapM (messageFromRow host.toRuntime cipher softFail) =
      .ok (args.messages.map (storedMessage host)) := mapM_inserted softFail saved.messages 0
  rw [readMessages, rows, Request.softFail, decoded]
  rfl

def sampleRequest : Request := .paginated 7 50 0 true

def quietRun : List Action :=
  [.save (sampleArgs (py "talk")) sampleCall, .readRow 1 sampleRequest,
    .readMessages 1 messageOrder.sorter]

theorem reads_untorn_quiet : Replay.Throughout (step sampleHost sampleCipher)
    (Untorn sampleHost sampleCipher) (World.start sampleTables) quietRun := by
  refine reads_untorn ⟨?_, ?_⟩
  · intro after id committed p request view built found
    cases found
  · split
    · trivial
    · refine ⟨trivial, ?_⟩
      split
      · trivial
      · refine ⟨trivial, ?_⟩
        split
        · trivial
        · trivial

/-- A conversation with one message. -/
def talkTables : Tables :=
  { sampleTables with
    conversations := ⟨[(7, { sampleConversation with messageCount := 1 })], by decide⟩
    messages := [⟨7, py "user", none, 0, sampleSealed⟩]
    slugs := by decide
    conversationTopics := by decide
    numbered := by unfold Numbered; decide }

def tornRun : List Action :=
  [.readRow 1 sampleRequest, .save (sampleArgs (py "talk")) sampleCall,
    .readMessages 1 messageOrder.sorter]

/-- The version before the save has the messages of one role. -/
theorem roles_talkTables : ∀ row ∈ messagesOf talkTables.messages 7, row.role = py "user" := by
  decide

theorem role_of_messageFromRow {rt : Runtime} {cipher : ContentCipher} {softFail : Bool}
    {row : MessageRow} {message : Message}
    (made : messageFromRow rt cipher softFail row = .ok message) : message.role = row.role := by
  simp only [messageFromRow] at made
  split at made
  · cases made
    rfl
  · split at made
    · cases made
    · cases made
      rfl

/-- The row counts one message and comes with two, the second of which is new. -/
theorem save_between_tears : ∃ w,
    Replay.run (step sampleHost sampleCipher) (World.start talkTables) tornRun = some w ∧
      ¬ Untorn sampleHost sampleCipher w := by
  obtain ⟨⟨view, built⟩, read⟩ := Fallible.isOk_iff.mp (by decide +kernel :
    (readRow sampleHost.toRuntime sampleCipher talkTables sampleRequest).isOk = true)
  obtain ⟨⟨after, id⟩, saved⟩ := Fallible.isOk_iff.mp (by decide +kernel :
    (saveConversation sampleHost sampleCipher talkTables (sampleArgs (py "talk"))
      sampleCall).isOk = true)
  have sameId : (saveConversation sampleHost sampleCipher talkTables (sampleArgs (py "talk"))
    sampleCall).toOption.map Prod.snd = some 7 := by decide +kernel
  rw [saved] at sameId
  obtain rfl : id = 7 := Option.some.inj sameId
  obtain ⟨topic, title, row, new, stored⟩ := saved_of_ok saved
  obtain ⟨current, made⟩ := readRow_eq_ok read
  have seven : view.id = 7 := by
    have known : conversationView talkTables 7 = .ok view := by
      simp only [readRow, selectRow, sampleRequest] at read
      split at read
      · cases read
      · next found located =>
        obtain ⟨_, _, same⟩ := Fallible.map_eq_ok.mp read
        cases same
        exact located
    exact (conversationView_mem known).1
  have count : built.messageCount = 1 := by
    obtain ⟨_, mem⟩ := conversationView_mem current
    rw [messageCount_of_rowToMeta made]
    obtain ⟨_, same⟩ := Prod.mk.inj (List.mem_singleton.mp mem)
    rw [same]
  have messages := @readMessages_saved sampleHost sampleCipher (sampleArgs (py "talk")) after topic
    title row new view (seven ▸ stored) messageOrder.sorter 50 (by decide) true built
  rw [seven] at messages
  have first : step sampleHost sampleCipher (World.start talkTables) (.readRow 1 sampleRequest) =
      some ((World.start talkTables).goto 1 (.halfway sampleRequest view built)) := by
    have idle : (World.start talkTables).readers.get 1 = none := rfl
    simp only [step, idle]
    rw [show (World.start talkTables).db = talkTables from rfl, read]
  have second : step sampleHost sampleCipher
      ((World.start talkTables).goto 1 (.halfway sampleRequest view built))
      (.save (sampleArgs (py "talk")) sampleCall) =
        some { db := after
               past := [talkTables]
               readers := Table.empty.put 1 (.halfway sampleRequest view built) } := by
    simp only [step]
    rw [show ((World.start talkTables).goto 1 (.halfway sampleRequest view built)).db = talkTables
      from rfl, saved]
    rfl
  have ran : Replay.run (step sampleHost sampleCipher) (World.start talkTables) tornRun =
      some { db := after
             past := [talkTables]
             readers := (Table.empty.put 1 (.halfway sampleRequest view built)).put 1
               (.returned sampleRequest ⟨built, (sampleArgs (py "talk")).messages.map
                 (storedMessage sampleHost), some view.row.messageCount⟩) } := by
    refine Replay.run_cons.mpr ⟨_, first, Replay.run_cons.mpr ⟨_, second, ?_⟩⟩
    refine Replay.run_cons.mpr ⟨_, ?_, rfl⟩
    simp only [step, Table.get_put_self]
    rw [show sampleRequest = .paginated 7 50 0 true from rfl, messages]
    rfl
  refine ⟨_, ran, fun untorn => ?_⟩
  obtain ⟨db, listed, found, located, same, length, _, from_db⟩ :=
    untorn 1 sampleRequest _ (Table.get_put_self _ _ _)
  have id : found.id = 7 := by
    rw [← rowToMeta_id same, rowToMeta_id made, seven]
  rcases List.mem_cons.mp listed with rfl | before
  · rw [id, stored.rows, insertMessages, List.length_map, List.length_zipIdx,
      ← stored.messages.length_eq] at length
    exact absurd (count.symm.trans length) (by decide)
  · obtain rfl := List.mem_singleton.mp before
    obtain ⟨old, mem, shown⟩ := from_db
      (storedMessage sampleHost ⟨py "assistant", py "hi", none, false⟩)
      (List.mem_cons_of_mem _ List.mem_cons_self)
    rw [id] at mem
    exact absurd ((role_of_messageFromRow shown).trans (roles_talkTables old mem)) (by decide)

end TornReads
