import Gubbi.Journal.DateChecks
import Gubbi.Journal.ReadBack
import Gubbi.Journal.SaveTool

/-!
# Stored transcripts

What `journal_save_conversation` stores of the messages that it is given. A message is
dropped when its content is white space as it came, and what is left of it is stored; the
control characters and the cut come between the two, and may leave nothing but white space.
-/

namespace Transcripts

open Text Validation Cipher JournalTables JournalRows SaveTool
open JournalWriters (MessageInput sanitizeTags)
open Saving (Call Holds)

/-- The kept turns whose content is not blank once it is cleaned. -/
def transcript (messages : List MessageInput) : List Message :=
  ((keepable messages).filter (fun m => strip (cleanContent m.content) ≠ [])).map cleanMessage

/-- The stored content decrypts to a text that is neither blank nor refused. -/
def Legible (host : Host) (content : Sealed) : Prop :=
  ∃ text, decryptSealed host.toRuntime host.cipher content = .ok text ∧ strip text ≠ [] ∧
    rejectToolCallSyntax host.words text = .ok ()

/-- The conversation has the transcript as its messages, and the answer tells how many of the
kept turns are not there. -/
structure Stored (host : Host) (args : Args) (db : Tables) (id : ConversationId)
    (reported : Option PyStr) : Prop where
  rows : ∃ new, messagesOf db.messages id = insertMessages id new ∧
    List.Forall₂ (Holds host.toHost host.cipher) (transcript args.messages) new
  legible : ∀ row ∈ messagesOf db.messages id, Legible host row.content
  dropped : reported = note (args.tags.length - (sanitizeTags args.tags).length)
    ((keepable args.messages).length - (messagesOf db.messages id).length)

/-- A call is answered by an error and changes nothing, or it stores its transcript. -/
def SavesTranscript (host : Host) (db : Tables) (args : Args) (call : Call) : Prop :=
  let run := journalSaveConversation host db args call
  match run.result with
  | .error _ => False
  | .ok (.error _) => run.db = db
  | .ok (.saved _ id _ _ _ reported) => Stored host args run.db id reported

/-- No check refuses the arguments, and their topic is there. -/
def Accepted (host : Host) (db : Tables) (args : Args) : Prop :=
  Passes host args ∧ ∃ row ∈ db.topics.rows,
    validateTopic host.lowering args.topic = .ok row.2.path

/-- UTF-8 encodes the texts that are kept, none of them is too long for its search vector, the
times have an instant in UTC, and the date parses. -/
structure Storable (host : Host) (args : Args) : Prop where
  summary : (encodeUtf8 (sanitizeFreetext args.summary)).isSome = true
  vectors : ∀ title, Validation.validateTitle args.title = .ok title →
    SummaryFits host.toHost title (sanitizeFreetext args.summary)
  contents : ∀ m ∈ args.messages, Kept m → (encodeUtf8 (cleanContent m.content)).isSome = true ∧
    host.fitsTsvector (cleanContent m.content) = true
  timestamps : ∀ m ∈ args.messages, Kept m → ∀ t ∈ m.timestamp, TimeStorable host.toHost t
  date : ∃ date, host.fromIsoformat (resolvedDate host args.date) = .ok date

/-- A kept turn that is not blank does not become blank when it is cleaned. -/
def NoneBlanked (messages : List MessageInput) : Prop :=
  ∀ m ∈ messages, Kept m → strip (cleanContent m.content) ≠ []

section Blanks
variable {text : PyStr} {messages : List MessageInput}

theorem strip_eq_nil : strip text = [] ↔ ∀ c ∈ text, isSpace c = true := by
  constructor
  · intro empty c mem
    by_contra kept
    have inside := (mem_stripOf (Bool.not_eq_true _ ▸ kept)).mpr mem
    rw [strip] at empty
    rw [empty] at inside
    exact absurd inside List.not_mem_nil
  · intro all
    rw [strip, ← List.nil_append text, stripOf_append_of_all all]
    rfl

/-- Cleaning leaves white space as it is, at most. -/
theorem strip_cleanContent (blank : strip text = []) : strip (cleanContent text) = [] := by
  refine strip_eq_nil.mpr fun c mem => strip_eq_nil.mp blank c ?_
  exact List.mem_of_mem_filter (List.mem_of_mem_take (List.mem_of_mem_take mem))

theorem transcript_of_noneBlanked (none : NoneBlanked messages) :
    transcript messages = parsedMessages messages := by
  rw [transcript, parsedMessages]
  congr 1
  refine List.filter_congr fun m mem => decide_eq_decide.mpr ?_
  obtain ⟨inside, role⟩ := List.mem_filter.mp mem
  constructor
  · exact fun left blank => left (strip_cleanContent blank)
  · exact fun nonblank => none m inside ⟨of_decide_eq_true role, nonblank⟩

end Blanks

section Rows
variable {host : Host} {id : ConversationId} {messages : List Message} {new : List NewMessage}

theorem forall_insertMessages {p : Sealed → Prop} :
    (∀ row ∈ insertMessages id new, p row.content) ↔ ∀ n ∈ new, p n.content := by
  constructor
  · intro all n mem
    obtain ⟨position, inside⟩ := List.mem_iff_getElem?.mp mem
    exact all _ (List.mem_map.mpr ⟨(n, position), List.mem_zipIdx_iff_getElem?.mpr inside, rfl⟩)
  · intro all row mem
    obtain ⟨n, inside, rfl⟩ := List.mem_map.mp mem
    exact all n.1 (List.fst_mem_of_mem_zipIdx inside)

theorem length_insertMessages : (insertMessages id new).length = new.length := by
  rw [insertMessages, List.length_map, List.length_zipIdx]

/-- The rows are legible exactly when the messages that they hold are. -/
theorem legible_iff (holds : List.Forall₂ (Holds host.toHost host.cipher) messages new) :
    (∀ row ∈ insertMessages id new, Legible host row.content) ↔
      ∀ m ∈ messages,
        strip m.content ≠ [] ∧ rejectToolCallSyntax host.words m.content = .ok () := by
  refine (forall_insertMessages (p := Legible host)).trans ?_
  induction holds with
  | nil => simp
  | cons first _ ih =>
    rw [List.forall_mem_cons, List.forall_mem_cons, ih]
    refine and_congr_left fun _ => ?_
    constructor
    · rintro ⟨text, decrypted, fine⟩
      cases first.content.symm.trans decrypted
      exact fine
    · exact fun fine => ⟨_, first.content, fine⟩

end Rows

section Calls
variable {host : Host} {db : Tables} {args : Args} {call : Call}

/-- A row for each parsed message: they are the transcript when cleaning blanks none. -/
theorem stored_iff {id : ConversationId} {saved : Tables} {new : List NewMessage}
    (passes : Passes host args) (rows : messagesOf saved.messages id = insertMessages id new)
    (holds : List.Forall₂ (Holds host.toHost host.cipher) (parsedMessages args.messages) new) :
    Stored host args saved id (note (args.tags.length - (sanitizeTags args.tags).length)
      ((keepable args.messages).length - (parsedMessages args.messages).length)) ↔
        NoneBlanked args.messages := by
  have fine : (∀ row ∈ messagesOf saved.messages id, Legible host row.content) ↔
      NoneBlanked args.messages := by
    rw [rows, legible_iff holds, forall_parsedMessages]
    constructor
    · exact fun all m mem kept => (all m mem kept).1
    · exact fun none m mem kept => ⟨none m mem kept, passes.plain m mem kept⟩
  constructor
  · exact fun stored => fine.mp stored.legible
  · intro none
    refine ⟨⟨new, rows, ?_⟩, fine.mpr none, ?_⟩
    · rw [transcript_of_noneBlanked none]
      exact holds
    · rw [rows, length_insertMessages, holds.length_eq]

theorem given_resolvedDate (host : Host) (date : Option PyStr) :
    Listing.given (some (resolvedDate host date)) = some (resolvedDate host date) := by
  have nonempty : resolvedDate host date ≠ [] := by
    unfold resolvedDate
    cases hdate : Listing.given date with
    | none =>
      intro empty
      have length := congrArg List.length empty
      simp [Date.text, Date.monthText, length_padded] at length
    | some text => exact of_decide_eq_true (Option.filter_eq_some_iff.mp hdate).2
  rw [Listing.given, Option.filter_some_pos]
  exact decide_eq_true nonempty

theorem encodable_iff {topic title : PyStr}
    (validTitle : Validation.validateTitle args.title = .ok title) :
    Encodable host.toHost (saveArgs host args.date (cleanArgs topic title args))
        (resolvedDate host args.date) ↔ Storable host args := by
  constructor
  · rintro ⟨summary, vectors, contents, timestamps, date⟩
    refine ⟨summary, fun clean valid => ?_, forall_parsedMessages.mp contents,
      forall_parsedMessages.mp timestamps, date⟩
    cases validTitle.symm.trans valid
    exact vectors
  · rintro ⟨summary, vectors, contents, timestamps, date⟩
    exact ⟨summary, vectors title validTitle, forall_parsedMessages.mpr contents,
      forall_parsedMessages.mpr timestamps, date⟩

/-- What is not accepted is answered by an error. -/
theorem run_refused (call : Call) (refused : ¬ Accepted host db args) :
    ∃ dict, journalSaveConversation host db args call = ⟨db, .ok (.error dict)⟩ := by
  rw [journalSaveConversation]
  cases hcheck : check host args with
  | error dict => exact ⟨dict, rfl⟩
  | ok c =>
    obtain ⟨passes, topic, title, validTopic, validTitle, rfl⟩ := check_spec hcheck
    have plain := plain_saveArgs host args validTopic validTitle
    have unknown : ¬ ∃ row ∈ db.topics.rows, row.2.path = topic := by
      rintro ⟨row, mem, rfl⟩
      exact refused ⟨passes, row, mem, validTopic⟩
    obtain ⟨message, missing⟩ := getId_error plain.topic unknown
    have failed : Saving.saveConversation host.toHost host.cipher db
        (saveArgs host args.date (cleanArgs topic title args)) call =
          .error (.listing (.topicNotFound message)) := by
      rw [Saving.saveConversation, Fallible.map_eq_error, Saving.prepare, plain.topic, plain.title]
      simp only [Except.mapError, bind, Except.bind, missing]
    simp only [failed]
    exact ⟨_, rfl⟩

/-- Another error of the transaction leaves the tool. -/
theorem run_raised {c : Checked} {e : Saving.SaveError} (checked : check host args = .ok c)
    (failed : Saving.saveConversation host.toHost host.cipher db (saveArgs host args.date c) call =
      .error e) (other : ¬ IsTopicNotFound e) :
    journalSaveConversation host db args call = ⟨db, .error e⟩ := by
  simp only [journalSaveConversation, checked, failed]
  split
  · next message same =>
    cases same
    exact absurd ⟨message, rfl⟩ other
  · next same =>
    cases same
    rfl
  · next same => cases same

theorem savesTranscript_of_saved {topic title : PyStr} {saved : Tables × ConversationId}
    (passes : Passes host args) (checked : check host args = .ok (cleanArgs topic title args))
    (goes : Saving.saveConversation host.toHost host.cipher db
      (saveArgs host args.date (cleanArgs topic title args)) call = .ok saved) :
    SavesTranscript host db args call ↔ NoneBlanked args.messages := by
  obtain ⟨after, id⟩ := saved
  obtain ⟨_, _, _, new, stored⟩ := Saving.saved_of_ok goes
  simp only [SavesTranscript, journalSaveConversation, checked, goes]
  exact stored_iff passes stored.rows stored.messages

/-- The transaction of an accepted call goes through when its texts can be stored. -/
theorem save_isOk (call : Call) {title : PyStr} {row : TopicId × TopicRow}
    (mem : row ∈ db.topics.rows)
    (validTopic : validateTopic host.lowering args.topic = .ok row.2.path)
    (validTitle : Validation.validateTitle args.title = .ok title) :
    (∃ saved, Saving.saveConversation host.toHost host.cipher db
      (saveArgs host args.date (cleanArgs row.2.path title args)) call = .ok saved) ↔
        Storable host args := by
  have plain := plain_saveArgs host args validTopic validTitle
  have date : (Listing.given (saveArgs host args.date (cleanArgs row.2.path title args)).date).getD
      call.today.text = resolvedDate host args.date :=
    congrArg (fun text => text.getD call.today.text) (given_resolvedDate host args.date)
  have prepared := prepare_isOk host.cipher db call plain
    host.fromIsoformat_encodes
  rw [date, encodable_iff validTitle] at prepared
  simp only [Saving.saveConversation, Fallible.map_eq_ok]
  constructor
  · rintro ⟨saved, ready, done, _⟩
    exact (prepared.mp ⟨ready, done⟩).2
  · intro storable
    obtain ⟨ready, done⟩ := prepared.mpr ⟨⟨row, mem, rfl⟩, storable⟩
    exact ⟨_, ready, done, rfl⟩

/-- A call saves its transcript or is answered by an error exactly when it is not accepted, or
its texts and its date can be stored and no kept turn is blanked. -/
theorem savesTranscript_iff : SavesTranscript host db args call ↔
    (Accepted host db args → Storable host args ∧ NoneBlanked args.messages) := by
  by_cases accepted : Accepted host db args
  · obtain ⟨passes, row, mem, path⟩ := accepted
    obtain ⟨c, hcheck⟩ := check_isOk.mpr passes
    obtain ⟨_, topic, title, validTopic, validTitle, rfl⟩ := check_spec hcheck
    cases path.symm.trans validTopic
    have goes := save_isOk call mem validTopic validTitle
    cases hsave : Saving.saveConversation host.toHost host.cipher db
      (saveArgs host args.date (cleanArgs row.2.path title args)) call with
    | error e =>
      have notStorable : ¬ Storable host args := by
        intro storable
        obtain ⟨saved, done⟩ := goes.mpr storable
        cases hsave.symm.trans done
      have found := prepare_avoids host.cipher call
        (plain_saveArgs host args validTopic validTitle) ⟨row, mem, rfl⟩ e
        (Fallible.map_eq_error.mp hsave)
      rw [SavesTranscript, run_raised hcheck hsave found]
      exact iff_of_false not_false fun all => notStorable (all ⟨passes, row, mem, path⟩).1
    | ok saved =>
      refine (savesTranscript_of_saved passes hcheck hsave).trans ?_
      have storable := goes.mp ⟨_, hsave⟩
      constructor
      · exact fun none _ => ⟨storable, none⟩
      · exact fun all => (all ⟨passes, row, mem, path⟩).2
  · obtain ⟨dict, refused⟩ := run_refused call accepted
    rw [SavesTranscript, refused]
    exact iff_of_true rfl fun h => absurd h accepted

end Calls

/-- A host with the parsers of the standard library. -/
def sampleHost : Host where
  toHost := { ReadBack.sampleHost with
    toRuntime := DateChecks.standard Listing.sampleRuntime Numerals.sampleDigits id }
  words := StoredText.sampleWords
  cipher := Cipher.sampleCipher
  localToday := Listing.sampleTime.date
  fromIsoformat_encodes := fun _ _ parsed =>
    DateTexts.encodes_of_fromIsoformat (DateChecks.fromIsoformat_standard.mp parsed)

def sampleArgs (content : PyStr) : Args where
  topic := py "work"
  title := py "Talk"
  messages := [⟨py "user", content, none⟩]
  summary := py "Greetings"
  source := py "claude"
  tags := []
  date := none

/-- A NUL is no white space, and it is not stored. -/
theorem nul_stored_blank :
    ¬ SavesTranscript sampleHost Listing.sampleTables (sampleArgs [0]) ReadBack.sampleCall := by
  intro saves
  obtain ⟨c, hcheck⟩ := Fallible.isOk_iff.mp
    (show (check sampleHost (sampleArgs [0])).isOk = true by decide +kernel)
  obtain ⟨passes, topic, title, validTopic, validTitle, rfl⟩ := check_spec hcheck
  have sameTopic : validateTopic sampleHost.lowering (py "work") = .ok (py "work") := by decide
  have sameTitle : Validation.validateTitle (py "Talk") = .ok (py "Talk") := by decide
  cases validTopic.symm.trans sameTopic
  cases validTitle.symm.trans sameTitle
  obtain ⟨saved, hsave⟩ := Fallible.isOk_iff.mp
    (show (Saving.saveConversation sampleHost.toHost sampleHost.cipher Listing.sampleTables
      (saveArgs sampleHost none (cleanArgs (py "work") (py "Talk") (sampleArgs [0])))
      ReadBack.sampleCall).isOk = true by decide +kernel)
  have none := (savesTranscript_of_saved passes hcheck hsave).mp saves
  exact none _ List.mem_cons_self ⟨by decide, by decide⟩ (by decide)

end Transcripts
