import Gubbi.Journal.AuditedTools
import Gubbi.Journal.DateTexts
import Gubbi.Journal.EntryUpdate
import Gubbi.Journal.Saving

/-!
# The tool that saves a conversation

`journal_save_conversation` checks and cleans its arguments and saves what is left of them
in a transaction. A failed check and a topic that is not there are answered by an error
dict; any other exception of the transaction leaves the tool. The call has a user and a
cipher. What follows the commit is best-effort and is left out: the deletion of an older
archive and the embedding of the linked entry.
-/

namespace SaveTool

open Text Validation Cipher JournalTables JournalRows
open JournalWriters
  (MessageInput MAX_MESSAGES_PER_CONVERSATION MAX_MSG_CHARS sanitizeTags isTextParameter)
open AuditedTools (Dict invalidTopic invalidDate notFound validationError)
open Saving (SaveArgs SaveError Call Prepared)

/-- What the tool takes from the process. -/
structure Host extends Saving.Host where
  words : Words
  cipher : ContentCipher
  /-- `local_today` in the time zone of the settings. -/
  localToday : Date
  /-- `fromisoformat` goes by the UTF-8 of a text. -/
  fromIsoformat_encodes :
    ∀ text date, fromIsoformat text = .ok date → (encodeUtf8 text).isSome = true

structure Args where
  topic : PyStr
  title : PyStr
  messages : List MessageInput
  summary : PyStr
  source : PyStr
  tags : List PyStr
  date : Option PyStr

def KEEP_ROLES : List PyStr := [py "user", py "assistant"]

def keepable (messages : List MessageInput) : List MessageInput :=
  messages.filter (fun m => m.role ∈ KEEP_ROLES)

/-- `sanitize_freetext(content)[:MAX_MSG_CHARS]`. -/
def cleanContent (content : PyStr) : PyStr := (sanitizeFreetext content).take MAX_MSG_CHARS

def cleanMessage (m : MessageInput) : Message :=
  ⟨m.role, cleanContent m.content, m.timestamp, false⟩

/-- The content is tested for white space as it came. -/
def parsedMessages (messages : List MessageInput) : List Message :=
  ((keepable messages).filter (fun m => strip m.content ≠ [])).map cleanMessage

/-- `str(e)`; `validate_title` raises no `TypeError`. -/
def titleError : PyError → Dict
  | .valueError message => validationError (py message)
  | .typeError => validationError []

def rejectMessage (host : Host) (m : Message) : Except Dict Unit :=
  (rejectToolCallSyntax host.words m.content).mapError
    (fun e => validationError (py "Message content: " ++ e))

/-- The arguments of the save, and how much was dropped. -/
structure Checked where
  topic : PyStr
  title : PyStr
  messages : List Message
  summary : PyStr
  source : PyStr
  tags : List PyStr
  tagsDropped : Nat
  emptyDropped : Nat

def cleanArgs (topic title : PyStr) (args : Args) : Checked where
  topic := topic
  title := title
  messages := parsedMessages args.messages
  summary := sanitizeFreetext args.summary
  source := sanitizeLabel args.source
  tags := sanitizeTags args.tags
  tagsDropped := args.tags.length - (sanitizeTags args.tags).length
  emptyDropped := (keepable args.messages).length - (parsedMessages args.messages).length

def check (host : Host) (args : Args) : Except Dict Checked := do
  let topic ← (validateTopic host.lowering args.topic).mapError (invalidTopic args.topic)
  let title ← (Validation.validateTitle args.title).mapError titleError
  (rejectToolCallSyntax host.words (sanitizeFreetext args.summary)).mapError validationError
  (Listing.checkBound host.toRuntime args.date).mapError
    (fun _ => invalidDate (args.date.getD []))
  if MAX_MESSAGES_PER_CONVERSATION < args.messages.length then
    .error (validationError (py "Too many messages: max " ++
      number MAX_MESSAGES_PER_CONVERSATION ++ py ", got " ++ number args.messages.length))
  else
    let _ ← (parsedMessages args.messages).mapM (rejectMessage host)
    if parsedMessages args.messages = [] then
      .error (validationError (py "No user/assistant messages found after filtering."))
    else return cleanArgs topic title args

/-- `"; ".join(notes)`, where there are notes. -/
def note (tagsDropped emptyDropped : Nat) : Option PyStr :=
  let notes :=
    (if tagsDropped = 0 then []
      else [number tagsDropped ++ py " tag(s) dropped (contained only unsupported characters)"]) ++
    if emptyDropped = 0 then []
    else [number emptyDropped ++ py " message(s) dropped (empty content)"]
  if notes = [] then none else some ((py "; ").intercalate notes)

inductive Answer
  /-- The dict with the status "updated" or "saved". -/
  | saved (isUpdate : Bool) (conversationId : ConversationId) (summary topic title : PyStr)
      (note : Option PyStr)
  | error (envelope : Dict)
  deriving DecidableEq

/-- The tables that are committed, and the result. -/
structure Run where
  db : Tables
  result : Except SaveError Answer

/-- `date or local_today(...)`. -/
def resolvedDate (host : Host) (date : Option PyStr) : PyStr :=
  (Listing.given date).getD host.localToday.text

def saveArgs (host : Host) (date : Option PyStr) (c : Checked) : SaveArgs where
  topic := c.topic
  title := c.title
  messages := c.messages
  summary := c.summary
  source := c.source
  tags := c.tags
  date := some (resolvedDate host date)

def journalSaveConversation (host : Host) (db : Tables) (args : Args) (call : Call) : Run :=
  match check host args with
  | .error dict => ⟨db, .ok (.error dict)⟩
  | .ok c =>
    match Saving.saveConversation host.toHost host.cipher db (saveArgs host args.date c) call with
    | .error (.listing (.topicNotFound _)) =>
      ⟨db, .ok (.error (notFound (py "Topic") c.topic))⟩
    | .error e => ⟨db, .error e⟩
    | .ok (saved, id) =>
      ⟨saved, .ok (.saved (db.conversations.get id).isSome id c.summary c.topic c.title
        (note c.tagsDropped c.emptyDropped))⟩

/-- The role is kept, and the content is more than white space. -/
def Kept (m : MessageInput) : Prop := m.role ∈ KEEP_ROLES ∧ strip m.content ≠ []

/-- The arguments that no check refuses. -/
structure Passes (host : Host) (args : Args) : Prop where
  topic : ∃ path, validateTopic host.lowering args.topic = .ok path
  title : ∃ clean, Validation.validateTitle args.title = .ok clean
  summary : rejectToolCallSyntax host.words (sanitizeFreetext args.summary) = .ok ()
  date : Listing.checkBound host.toRuntime args.date = .ok ()
  few : args.messages.length ≤ MAX_MESSAGES_PER_CONVERSATION
  plain : ∀ m ∈ args.messages, Kept m →
    rejectToolCallSyntax host.words (cleanContent m.content) = .ok ()
  any : ∃ m ∈ args.messages, Kept m

section Checks
variable {host : Host} {args : Args} {c : Checked} {messages : List MessageInput}

theorem mem_parsedMessages {message : Message} : message ∈ parsedMessages messages ↔
    ∃ m ∈ messages, Kept m ∧ cleanMessage m = message := by
  simp only [parsedMessages, keepable, List.mem_map, List.mem_filter, decide_eq_true_eq, Kept]
  constructor
  · rintro ⟨m, ⟨⟨mem, role⟩, nonblank⟩, rfl⟩
    exact ⟨m, mem, ⟨role, nonblank⟩, rfl⟩
  · rintro ⟨m, mem, ⟨role, nonblank⟩, rfl⟩
    exact ⟨m, ⟨⟨mem, role⟩, nonblank⟩, rfl⟩

theorem forall_parsedMessages {p : Message → Prop} :
    (∀ message ∈ parsedMessages messages, p message) ↔
      ∀ m ∈ messages, Kept m → p (cleanMessage m) := by
  constructor
  · intro all m mem kept
    exact all _ (mem_parsedMessages.mpr ⟨m, mem, kept, rfl⟩)
  · intro all message mem
    obtain ⟨m, inside, kept, rfl⟩ := mem_parsedMessages.mp mem
    exact all m inside kept

theorem parsedMessages_ne_nil : parsedMessages messages ≠ [] ↔ ∃ m ∈ messages, Kept m := by
  constructor
  · intro nonempty
    obtain ⟨message, mem⟩ := List.exists_mem_of_ne_nil _ nonempty
    obtain ⟨m, inside, kept, _⟩ := mem_parsedMessages.mp mem
    exact ⟨m, inside, kept⟩
  · rintro ⟨m, mem, kept⟩
    exact List.ne_nil_of_mem (mem_parsedMessages.mpr ⟨m, mem, kept, rfl⟩)

theorem rejectMessage_isOk {message : Message} : (∃ u, rejectMessage host message = .ok u) ↔
    rejectToolCallSyntax host.words message.content = .ok () := by
  constructor
  · rintro ⟨⟨⟩, accepted⟩
    exact Fallible.mapError_eq_ok.mp accepted
  · exact fun accepted => ⟨(), Fallible.mapError_eq_ok.mpr accepted⟩

theorem rejectMessages_isOk :
    (∃ us, (parsedMessages messages).mapM (rejectMessage host) = .ok us) ↔
      ∀ m ∈ messages, Kept m →
        rejectToolCallSyntax host.words (cleanContent m.content) = .ok () := by
  rw [Fallible.mapM_isOk]
  simp only [rejectMessage_isOk]
  exact forall_parsedMessages

/-- Each check in turn. -/
theorem check_spec (done : check host args = .ok c) : Passes host args ∧
    ∃ topic title, validateTopic host.lowering args.topic = .ok topic ∧
      Validation.validateTitle args.title = .ok title ∧ c = cleanArgs topic title args := by
  obtain ⟨topic, htopic, done⟩ := Fallible.bind_eq_ok.mp done
  obtain ⟨title, htitle, done⟩ := Fallible.bind_eq_ok.mp done
  obtain ⟨⟨⟩, hsummary, done⟩ := Fallible.bind_eq_ok.mp done
  obtain ⟨⟨⟩, hdate, done⟩ := Fallible.bind_eq_ok.mp done
  have validTopic := Fallible.mapError_eq_ok.mp htopic
  have validTitle := Fallible.mapError_eq_ok.mp htitle
  split at done
  · cases done
  · next few =>
    obtain ⟨us, accepted, done⟩ := Fallible.bind_eq_ok.mp done
    split at done
    · cases done
    · next nonempty =>
      cases done
      refine ⟨?_, topic, title, validTopic, validTitle, rfl⟩
      exact {
        topic := ⟨topic, validTopic⟩
        title := ⟨title, validTitle⟩
        summary := Fallible.mapError_eq_ok.mp hsummary
        date := Fallible.mapError_eq_ok.mp hdate
        few := Nat.le_of_not_lt few
        plain := rejectMessages_isOk.mp ⟨us, accepted⟩
        any := parsedMessages_ne_nil.mp nonempty }

theorem check_isOk : (∃ c, check host args = .ok c) ↔ Passes host args := by
  constructor
  · rintro ⟨c, done⟩
    exact (check_spec done).1
  · intro passes
    obtain ⟨path, topic⟩ := passes.topic
    obtain ⟨clean, title⟩ := passes.title
    obtain ⟨us, accepted⟩ := rejectMessages_isOk.mpr passes.plain
    have few : ¬ MAX_MESSAGES_PER_CONVERSATION < args.messages.length :=
      Nat.not_lt_of_le passes.few
    have nonempty := parsedMessages_ne_nil.mpr passes.any
    refine ⟨cleanArgs path clean args, ?_⟩
    refine Fallible.bind_eq_ok.mpr ⟨path, Fallible.mapError_eq_ok.mpr topic, ?_⟩
    refine Fallible.bind_eq_ok.mpr ⟨clean, Fallible.mapError_eq_ok.mpr title, ?_⟩
    refine Fallible.bind_eq_ok.mpr ⟨(), Fallible.mapError_eq_ok.mpr passes.summary, ?_⟩
    refine Fallible.bind_eq_ok.mpr ⟨(), Fallible.mapError_eq_ok.mpr passes.date, ?_⟩
    rw [if_neg few]
    refine Fallible.bind_eq_ok.mpr ⟨us, accepted, ?_⟩
    rw [if_neg nonempty]
    rfl

end Checks

/-- The arguments of a save that was cleaned: only its summary, contents and times may still
be what UTF-8 or the server does not take. -/
structure Plain (low : Lowering) (args : SaveArgs) : Prop where
  topic : validateTopic low args.topic = .ok args.topic
  title : Validation.validateTitle args.title = .ok args.title
  source : ∀ c ∈ args.source, isLabelChar c = true
  tags : ∀ tag ∈ args.tags, tag.length ≤ 128 ∧ ∀ c ∈ tag, isLabelChar c = true
  summary : ∀ c ∈ args.summary, c.val ≠ 0
  roles : ∀ m ∈ args.messages, m.role ∈ KEEP_ROLES
  contents : ∀ m ∈ args.messages, ∀ c ∈ m.content, c.val ≠ 0

/-- Each search vector of a summary under a title is within its limit. -/
def SummaryFits (host : Saving.Host) (title summary : PyStr) : Prop :=
  host.fitsTsvector (strip (title ++ py " " ++ summary)) = true ∧
    host.fitsTsvector (Saving.linkedContent title summary) = true

/-- UTF-8 encodes the text of a time, and a parsed one has an instant in UTC. -/
def TimeStorable (host : Saving.Host) (text : PyStr) : Prop :=
  (encodeUtf8 text).isSome = true ∧ ∀ t ∈ host.parseTs text, t.utc.isSome = true

/-- The texts and times that are left can be encoded, no text is too long for its search vector,
and the date parses. -/
structure Encodable (host : Saving.Host) (args : SaveArgs) (date : PyStr) : Prop where
  summary : (encodeUtf8 args.summary).isSome = true
  vectors : SummaryFits host args.title args.summary
  contents : ∀ m ∈ args.messages,
    (encodeUtf8 m.content).isSome = true ∧ host.fitsTsvector m.content = true
  timestamps : ∀ m ∈ args.messages, ∀ t ∈ m.timestamp, TimeStorable host t
  date : ∃ parsed, host.fromIsoformat date = .ok parsed

section Texts
variable {a b text : PyStr} {low : Lowering}

theorem encodes_of_isTextParameter (h : isTextParameter text = true) :
    (encodeUtf8 text).isSome = true :=
  (Bool.and_eq_true_iff.mp h).1

theorem isTextParameter_of_encodes (encodes : (encodeUtf8 text).isSome = true)
    (nonzero : ∀ c ∈ text, c.val ≠ 0) : isTextParameter text = true :=
  EntryUpdate.isTextParameter_iff.mpr
    fun c mem => ⟨encodeUtf8_isSome.mp encodes c mem, nonzero c mem⟩

theorem isTextParameter_append : isTextParameter (a ++ b) = true ↔
    isTextParameter a = true ∧ isTextParameter b = true := by
  simp only [EntryUpdate.isTextParameter_iff, List.forall_mem_append]

theorem isTextParameter_strip : isTextParameter (strip text) = true ↔
    isTextParameter text = true := by
  simp only [EntryUpdate.isTextParameter_iff]
  exact forall_mem_strip fun c space => toChar_of_isSpace space

theorem encodes_of_ascii (ascii : isAscii text = true) : (encodeUtf8 text).isSome = true := by
  refine encodeUtf8_isSome.mpr fun c mem => toChar_isSome ?_
  have low := DateTexts.isAscii_iff.mp ascii c mem
  omega

theorem encodes_path (h : validateTopic low text = .ok text) :
    (encodeUtf8 text).isSome = true := by
  rw [validateTopic] at h
  split at h
  · next accepted =>
    rw [Except.ok.inj h] at accepted
    refine encodeUtf8_isSome.mpr fun c mem => toChar_isSome ?_
    have ascii := (ascii_of_topicChars accepted c mem).1
    omega
  · cases h

theorem isTextParameter_title (h : Validation.validateTitle text = .ok text) :
    isTextParameter text = true := by
  refine EntryUpdate.isTextParameter_of_labelChars fun c mem => ?_
  rw [isLabelChar, titleChars_of_ok h c mem, Bool.true_or]

theorem isTextParameter_slugify (title : PyStr) : isTextParameter (slugify title) = true := by
  refine EntryUpdate.isTextParameter_of_labelChars fun c mem => ?_
  have dash : (ofChar '-').val = 0x2d := rfl
  have word := Titles.forall_mem_dashRuns _ c (stripOf_within.subset mem)
  simp only [Titles.isSlugChar, isLower, isDigit, Bool.or_eq_true, Bool.and_eq_true,
    decide_eq_true_eq, Fin.ext_iff, dash] at word
  simp only [isLabelChar, isTitleChar, isAlnum, isUpper, isLower, isDigit, Bool.or_eq_true,
    Bool.and_eq_true, decide_eq_true_eq, Fin.ext_iff, dash]
  omega

theorem isTextParameter_role (mem : text ∈ KEEP_ROLES) : isTextParameter text = true :=
  List.all_eq_true.mp (show KEEP_ROLES.all isTextParameter = true by decide) text mem

theorem nonzero_sanitizeFreetext : ∀ c ∈ sanitizeFreetext text, c.val ≠ 0 := by
  intro c mem zero
  have plain := List.any_eq_false.mp sanitizeFreetext_any c mem
  rw [isControlChar, zero] at plain
  exact plain rfl

theorem sanitizeLabel_spec : (sanitizeLabel text).length ≤ 50 ∧
    ∀ c ∈ sanitizeLabel text, isLabelChar c = true :=
  ⟨List.length_take_le _ _, fun _ mem => (List.mem_filter.mp (List.mem_of_mem_take mem)).2⟩

end Texts

section Save
variable {host : Saving.Host} {cipher : ContentCipher} {db : Tables} {args : SaveArgs}
  {call : Call} {rt : Runtime} {texts : List PyStr}

theorem bindTexts_isOk :
    Saving.bindTexts texts = .ok () ↔ ∀ text ∈ texts, isTextParameter text = true := by
  rw [Saving.bindTexts, ← List.all_eq_true]
  by_cases all : texts.all isTextParameter = true
  · simp [all]
  · simp [all]

theorem makeVector_isOk {text : PyStr} :
    Saving.makeVector host text = .ok () ↔ host.fitsTsvector text = true := by
  rw [Saving.makeVector]
  split
  · next fits => exact iff_of_true rfl fits
  · next large => exact iff_of_false (fun h => by cases h) large

theorem bindTimestamp_isOk {time : Option PyStr} :
    (∃ t, Saving.bindTimestamp host time = .ok t) ↔
      ∀ text ∈ time, ∀ t ∈ host.parseTs text, t.utc.isSome = true := by
  have all : (time.bind host.parseTs).all (fun t => t.utc.isSome) = true ↔
      ∀ text ∈ time, ∀ t ∈ host.parseTs text, t.utc.isSome = true := by
    cases time with
    | none => exact iff_of_true rfl fun _ absent => by cases absent
    | some text => simp [Option.all_eq_true]
  rw [← all, Saving.bindTimestamp]
  split
  · next bound => exact iff_of_true ⟨_, rfl⟩ bound
  · next outside =>
    refine iff_of_false ?_ outside
    rintro ⟨_, bound⟩
    cases bound

theorem encryptText_isOk (host : Saving.Host) (cipher : ContentCipher) (text : PyStr)
    (random : RandomTail) :
    (∃ columns, Saving.encryptText host cipher text random = .ok columns) ↔
      (encodeUtf8 text).isSome = true := by
  rw [← KeyMaps.encrypt_isOk host.aes cipher text random]
  simp only [Saving.encryptText, Fallible.mapError_eq_ok]

theorem sealMessage_isOk {random : Nat → RandomTail} {message : Message} {index : Nat}
    (role : message.role ∈ KEEP_ROLES) (nonzero : ∀ c ∈ message.content, c.val ≠ 0) :
    (∃ new, Saving.sealMessage host cipher random (message, index) = .ok new) ↔
      ((encodeUtf8 message.content).isSome = true ∧ host.fitsTsvector message.content = true) ∧
        ∀ text ∈ message.timestamp, ∀ t ∈ host.parseTs text, t.utc.isSome = true := by
  constructor
  · rintro ⟨new, done⟩
    obtain ⟨columns, encrypted, done⟩ := Fallible.bind_eq_ok.mp done
    obtain ⟨time, bound, done⟩ := Fallible.bind_eq_ok.mp done
    obtain ⟨_, _, done⟩ := Fallible.bind_eq_ok.mp done
    obtain ⟨⟨⟩, fits, _⟩ := Fallible.bind_eq_ok.mp done
    exact ⟨⟨(encryptText_isOk _ _ _ _).mp ⟨columns, encrypted⟩, makeVector_isOk.mp fits⟩,
      bindTimestamp_isOk.mp ⟨time, bound⟩⟩
  · rintro ⟨⟨encodes, fits⟩, inside⟩
    obtain ⟨columns, encrypted⟩ :=
      (encryptText_isOk host cipher _ (random (index + 2))).mpr encodes
    obtain ⟨time, sent⟩ := bindTimestamp_isOk.mpr inside
    have bound : Saving.bindTexts [message.role, message.content] = .ok () := by
      refine bindTexts_isOk.mpr fun text mem => ?_
      rcases List.mem_pair.mp mem with rfl | rfl
      · exact isTextParameter_role role
      · exact isTextParameter_of_encodes encodes nonzero
    refine ⟨⟨message.role, time, columns⟩, ?_⟩
    refine Fallible.bind_eq_ok.mpr ⟨columns, encrypted, ?_⟩
    refine Fallible.bind_eq_ok.mpr ⟨time, sent, ?_⟩
    refine Fallible.bind_eq_ok.mpr ⟨(), bound, ?_⟩
    exact Fallible.bind_eq_ok.mpr ⟨(), makeVector_isOk.mpr fits, rfl⟩

theorem sealMessages_isOk (host : Saving.Host) (cipher : ContentCipher)
    (plain : Plain rt.lowering args) (random : Nat → RandomTail) :
    (∃ new, args.messages.zipIdx.mapM (Saving.sealMessage host cipher random) = .ok new) ↔
      ∀ m ∈ args.messages,
        ((encodeUtf8 m.content).isSome = true ∧ host.fitsTsvector m.content = true) ∧
          ∀ text ∈ m.timestamp, ∀ t ∈ host.parseTs text, t.utc.isSome = true := by
  rw [Fallible.mapM_isOk]
  constructor
  · intro all m mem
    obtain ⟨index, position⟩ := List.mem_iff_getElem?.mp mem
    have sent := all (m, index) (List.mem_zipIdx_iff_getElem?.mpr position)
    exact (sealMessage_isOk (plain.roles m mem) (plain.contents m mem)).mp sent
  · intro all m mem
    have inside := List.fst_mem_of_mem_zipIdx mem
    exact (sealMessage_isOk (plain.roles _ inside) (plain.contents _ inside)).mpr (all _ inside)

/-- The archive is written when the summary, the contents and the times can be encoded. -/
theorem writeArchive_isOk (plain : Plain rt.lowering args) {created : PyStr}
    (encodes : (encodeUtf8 created).isSome = true) :
    Saving.writeArchive rt args args.title args.topic created = .ok () ↔
      (encodeUtf8 args.summary).isSome = true ∧ ∀ m ∈ args.messages,
        (encodeUtf8 m.content).isSome = true ∧
          ∀ t ∈ m.timestamp, (encodeUtf8 t).isSome = true := by
  have topic : (checkTopic rt args.topic).2 = [] := by
    rw [checkTopic, plain.topic]
  have tags : tagFailures args.tags = [] := by
    rw [tagFailures, List.map_eq_nil_iff, List.filter_eq_nil_iff]
    intro tag mem
    have short := (plain.tags _ (List.fst_mem_of_mem_zipIdx mem)).1
    simpa using short
  have labels : ∀ tag ∈ args.tags, (encodeUtf8 tag).isSome = true := fun tag mem =>
    encodes_of_isTextParameter (EntryUpdate.isTextParameter_of_labelChars (plain.tags tag mem).2)
  have texts : (Saving.archiveTexts args args.title args.topic created).all
      (fun text => (encodeUtf8 text).isSome) = true ↔
        (encodeUtf8 args.summary).isSome = true ∧ ∀ m ∈ args.messages,
          (encodeUtf8 m.content).isSome = true ∧
            ∀ t ∈ m.timestamp, (encodeUtf8 t).isSome = true := by
    rw [List.all_eq_true, Saving.archiveTexts]
    simp only [List.forall_mem_append, List.forall_mem_cons, List.forall_mem_flatMap,
      Option.mem_toList]
    have source := encodes_of_isTextParameter
      (EntryUpdate.isTextParameter_of_labelChars plain.source)
    have title := encodes_of_isTextParameter (isTextParameter_title plain.title)
    constructor
    · rintro ⟨⟨⟨_, _, _, _, summary, _⟩, _⟩, messages⟩
      exact ⟨summary, fun m mem => ⟨(messages m mem).1.2.1, (messages m mem).2⟩⟩
    · rintro ⟨summary, messages⟩
      refine ⟨⟨⟨source, title, encodes_path plain.topic, encodes, summary,
        fun _ mem => absurd mem List.not_mem_nil⟩, labels⟩, fun m mem => ⟨⟨?_, ?_⟩, ?_⟩⟩
      · exact encodes_of_isTextParameter (isTextParameter_role (plain.roles m mem))
      · exact ⟨(messages m mem).1, fun _ mem => absurd mem List.not_mem_nil⟩
      · exact (messages m mem).2
  rw [Saving.writeArchive, topic, tags, if_neg (by simp), ← texts]
  by_cases all : (Saving.archiveTexts args args.title args.topic created).all
      (fun text => (encodeUtf8 text).isSome) = true
  · simp [all]
  · simp [all]

theorem getId_isOk {topic : PyStr} (valid : validateTopic rt.lowering topic = .ok topic) :
    (∃ id, Saving.getId rt db topic = .ok id) ↔ ∃ row ∈ db.topics.rows, row.2.path = topic := by
  constructor
  · rintro ⟨id, found⟩
    obtain ⟨path, row, again, known, rfl⟩ := Saving.topic_of_getId found
    exact ⟨(id.1, row), Table.get_eq_some_iff.mp known, Except.ok.inj (again.symm.trans valid)⟩
  · rintro ⟨row, mem, path⟩
    simp only [Saving.getId, valid]
    split
    · exact ⟨_, rfl⟩
    · next none => exact absurd (decide_eq_true path) (List.find?_eq_none.mp none row mem)

/-- An unknown topic is the only thing that a lookup of a valid path raises. -/
theorem getId_error {topic : PyStr} (valid : validateTopic rt.lowering topic = .ok topic)
    (unknown : ¬ ∃ row ∈ db.topics.rows, row.2.path = topic) :
    ∃ message, Saving.getId rt db topic = .error (.topicNotFound message) := by
  have never : ∀ id, Saving.getId rt db topic ≠ .ok id :=
    fun id found => unknown ((getId_isOk valid).mp ⟨id, found⟩)
  simp only [Saving.getId, valid] at never ⊢
  split
  · next same =>
    split at never
    · exact absurd rfl (never _)
    · next none => simp [none] at same
  · exact ⟨_, rfl⟩

def IsTopicNotFound (e : SaveError) : Prop := ∃ message, e = .listing (.topicNotFound message)

/-- A topic that is there is not reported as missing. -/
theorem prepare_avoids (cipher : ContentCipher) (call : Call) (plain : Plain host.lowering args)
    (known : ∃ row ∈ db.topics.rows, row.2.path = args.topic) :
    Fallible.Avoids IsTopicNotFound (Saving.prepare host cipher db args call) := by
  have bound : ∀ texts, Fallible.Avoids IsTopicNotFound (Saving.bindTexts texts) := by
    intro texts
    rw [Saving.bindTexts]
    split
    · exact Fallible.avoids_ok
    · exact Fallible.avoids_error (by rintro ⟨_, h⟩; cases h)
  have fits : ∀ text, Fallible.Avoids IsTopicNotFound (Saving.makeVector host text) := by
    intro text
    rw [Saving.makeVector]
    split
    · exact Fallible.avoids_ok
    · exact Fallible.avoids_error (by rintro ⟨_, h⟩; cases h)
  have timed : ∀ time, Fallible.Avoids IsTopicNotFound (Saving.bindTimestamp host time) := by
    intro time
    rw [Saving.bindTimestamp]
    split
    · exact Fallible.avoids_ok
    · exact Fallible.avoids_error (by rintro ⟨_, h⟩; cases h)
  have encrypted : ∀ text random,
      Fallible.Avoids IsTopicNotFound (Saving.encryptText host cipher text random) :=
    fun text random => Fallible.avoids_mapError (by rintro e ⟨_, h⟩; cases h)
  obtain ⟨id, found⟩ := (getId_isOk plain.topic).mpr known
  refine Fallible.avoids_bind (Fallible.avoids_mapError (by rintro e ⟨_, h⟩; cases h))
    fun topic validTopic => ?_
  cases (Fallible.mapError_eq_ok.mp validTopic).symm.trans plain.topic
  refine Fallible.avoids_bind (Fallible.avoids_mapError (by rintro e ⟨_, h⟩; cases h))
    fun title _ => ?_
  rw [found]
  refine Fallible.avoids_bind Fallible.avoids_ok fun topicId _ => ?_
  refine Fallible.avoids_bind ?_ fun _ _ => ?_
  · rw [Saving.writeArchive]
    split
    · exact Fallible.avoids_error (by rintro ⟨_, h⟩; cases h)
    · split
      · exact Fallible.avoids_ok
      · exact Fallible.avoids_error (by rintro ⟨_, h⟩; cases h)
  refine Fallible.avoids_bind (encrypted _ _) fun _ _ => ?_
  refine Fallible.avoids_bind (encrypted _ _) fun _ _ => ?_
  refine Fallible.avoids_bind (Fallible.avoids_mapError (by rintro e ⟨_, h⟩; cases h))
    fun _ _ => ?_
  refine Fallible.avoids_bind (bound _) fun _ _ => ?_
  refine Fallible.avoids_bind (fits _) fun _ _ => ?_
  refine Fallible.avoids_bind (Fallible.avoids_mapM fun message _ => ?_) fun _ _ => ?_
  · refine Fallible.avoids_bind (encrypted _ _) fun _ _ => ?_
    refine Fallible.avoids_bind (timed _) fun _ _ => ?_
    refine Fallible.avoids_bind (bound _) fun _ _ => ?_
    exact Fallible.avoids_bind (fits _) fun _ _ => Fallible.avoids_ok
  refine Fallible.avoids_bind (encrypted _ _) fun _ _ => ?_
  refine Fallible.avoids_bind (bound _) fun _ _ => ?_
  exact Fallible.avoids_bind (fits _) fun _ _ => Fallible.avoids_ok

theorem encodes_created (db : Tables) (slot : TopicId × PyStr) {date : PyStr}
    (encodes : (encodeUtf8 date).isSome = true) :
    (encodeUtf8 (((Saving.atSlot db slot).map (fun old => old.2.createdAt.date.text)).getD
      date)).isSome = true := by
  cases Saving.atSlot db slot with
  | none => exact encodes
  | some old => exact encodes_of_ascii (DateTexts.isAscii_text _)

theorem isTextParameter_linkedContent {title summary : PyStr}
    (hTitle : isTextParameter title = true) (hSummary : isTextParameter summary = true) :
    isTextParameter (Saving.linkedContent title summary) = true := by
  rw [Saving.linkedContent]
  refine isTextParameter_append.mpr ⟨isTextParameter_append.mpr ⟨?_, by decide⟩, hSummary⟩
  exact isTextParameter_append.mpr ⟨by decide, hTitle⟩

/-- The texts of the upsert, when the summary can be encoded. -/
theorem upsertTexts_isOk (plain : Plain rt.lowering args)
    (summary : isTextParameter args.summary = true) :
    Saving.bindTexts ([slugify args.title, args.source,
      strip (args.title ++ py " " ++ args.summary)] ++ args.tags ++
        Saving.participantsOf args.messages) = .ok () := by
  have title := isTextParameter_title plain.title
  have vector : isTextParameter (strip (args.title ++ py " " ++ args.summary)) = true := by
    refine isTextParameter_strip.mpr (isTextParameter_append.mpr ⟨?_, summary⟩)
    exact isTextParameter_append.mpr ⟨title, by decide⟩
  have roles : ∀ role ∈ Saving.participantsOf args.messages, isTextParameter role = true := by
    intro role mem
    have unsorted := (Listing.codePoints.lists.sorter.perm _).mem_iff.mp mem
    obtain ⟨m, inside, rfl⟩ := List.mem_map.mp (List.mem_eraseDups.mp unsorted)
    exact isTextParameter_role (plain.roles m inside)
  refine bindTexts_isOk.mpr ?_
  simp only [List.forall_mem_append, List.forall_mem_cons]
  refine ⟨⟨⟨isTextParameter_slugify _, ?_, vector, ?_⟩, ?_⟩, roles⟩
  · exact EntryUpdate.isTextParameter_of_labelChars plain.source
  · exact fun _ mem => absurd mem List.not_mem_nil
  · exact fun tag mem => EntryUpdate.isTextParameter_of_labelChars (plain.tags tag mem).2

/-- A save goes through when its topic is there and its texts and times can be stored. -/
theorem prepare_isOk (cipher : ContentCipher) (db : Tables) (call : Call)
    (plain : Plain host.lowering args)
    (encodes : ∀ text date, host.fromIsoformat text = .ok date →
      (encodeUtf8 text).isSome = true) :
    (∃ prepared, Saving.prepare host cipher db args call = .ok prepared) ↔
      (∃ row ∈ db.topics.rows, row.2.path = args.topic) ∧
        Encodable host args ((Listing.given args.date).getD call.today.text) := by
  constructor
  · rintro ⟨prepared, done⟩
    simp only [Saving.prepare, Fallible.bind_eq_ok, Fallible.mapError_eq_ok] at done
    obtain ⟨topic, htopic, title, htitle, id, hid, _, archived, _, _, _, _, date, hdate, _, _, _,
      fits, rows, hrows, _, _, _, _, _, linked, _⟩ := done
    cases htopic.symm.trans plain.topic
    cases htitle.symm.trans plain.title
    refine ⟨(getId_isOk plain.topic).mp ⟨id, hid⟩, ?_⟩
    have created := encodes_created db (id.1, slugify args.title) (encodes _ _ hdate)
    obtain ⟨summary, messages⟩ := (writeArchive_isOk plain created).mp archived
    have sent := (sealMessages_isOk host cipher plain call.random).mp ⟨rows, hrows⟩
    refine ⟨summary, ⟨makeVector_isOk.mp fits, makeVector_isOk.mp linked⟩, ?_, ?_, date, hdate⟩
    · exact fun m mem => (sent m mem).1
    · exact fun m mem t time => ⟨(messages m mem).2 t time, (sent m mem).2 t time⟩
  · rintro ⟨known, encodable⟩
    obtain ⟨id, hid⟩ := (getId_isOk plain.topic).mpr known
    obtain ⟨date, hdate⟩ := encodable.date
    have created := encodes_created db (id.1, slugify args.title) (encodes _ _ hdate)
    have archived := (writeArchive_isOk plain created).mpr ⟨encodable.summary, fun m mem =>
      ⟨(encodable.contents m mem).1, fun t time => (encodable.timestamps m mem t time).1⟩⟩
    have summary := isTextParameter_of_encodes encodable.summary plain.summary
    have linked := isTextParameter_linkedContent (isTextParameter_title plain.title) summary
    obtain ⟨sealedTitle, htitle⟩ := (encryptText_isOk host cipher _ (call.random 0)).mpr
      (encodes_of_isTextParameter (isTextParameter_title plain.title))
    obtain ⟨sealedSummary, hsummary⟩ :=
      (encryptText_isOk host cipher _ (call.random 1)).mpr encodable.summary
    obtain ⟨messages, hmessages⟩ :=
      (sealMessages_isOk host cipher plain call.random).mpr fun m mem =>
        ⟨encodable.contents m mem, fun t time => (encodable.timestamps m mem t time).2⟩
    obtain ⟨entry, hentry⟩ :=
      (encryptText_isOk host cipher _ (call.random (args.messages.length + 2))).mpr
        (encodes_of_isTextParameter linked)
    have bound : Saving.bindTexts [Saving.linkedContent args.title args.summary] = .ok () :=
      bindTexts_isOk.mpr fun text mem => List.mem_singleton.mp mem ▸ linked
    simp only [Saving.prepare, Fallible.bind_eq_ok, Fallible.mapError_eq_ok]
    exact ⟨_, _, plain.topic, _, plain.title, id, hid, (), archived, sealedTitle, htitle,
      sealedSummary, hsummary, date, hdate, (), upsertTexts_isOk plain summary, (),
      makeVector_isOk.mpr encodable.vectors.1, messages, hmessages, entry, hentry, (), bound, (),
      makeVector_isOk.mpr encodable.vectors.2, rfl⟩

/-- What the tool hands to the save. -/
theorem plain_saveArgs (host : Host) (args : Args) {topic title : PyStr}
    (validTopic : validateTopic host.lowering args.topic = .ok topic)
    (validTitle : Validation.validateTitle args.title = .ok title) :
    Plain host.lowering (saveArgs host args.date (cleanArgs topic title args)) where
  topic := (validateTopic_of_ok validTopic).1
  title := Titles.validateTitle_of_ok validTitle
  source := sanitizeLabel_spec.2
  tags := by
    intro tag mem
    obtain ⟨raw, _, rfl⟩ := List.mem_map.mp (List.mem_filter.mp mem).1
    exact ⟨sanitizeLabel_spec.1.trans (by decide), sanitizeLabel_spec.2⟩
  summary := nonzero_sanitizeFreetext
  roles := forall_parsedMessages.mpr fun _ _ kept => kept.1
  contents := forall_parsedMessages.mpr fun _ _ _ c mem =>
    nonzero_sanitizeFreetext c (List.mem_of_mem_take mem)

end Save

end SaveTool
