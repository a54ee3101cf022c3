import Gubbi.Journal.AuditedTools
import Gubbi.Library.Cuts

/-!
# Labels

`sanitize_label` strips a value before it deletes the unsafe characters and cuts the rest,
and each of the two can bring a space of the value to an end of the label. The callers drop
a label when it is empty, so one of spaces only is stored.
-/

namespace Labels

open Text Validation Cuts JournalEntries JournalConversations JournalWriters AuditedTools Replay
open JournalTables (Date)
open StoredText (sampleHost emptyJournal)

/-- `_CONTROL_CHARS.sub("", value).strip()`. -/
def bare (value : PyStr) : PyStr := strip (value.filter (fun c => !isControlChar c))

/-- The label is short, safe, without a space at its ends, and its own label. -/
structure Canonical (maxLen : Nat) (value : PyStr) : Prop where
  short : (sanitizeLabelTo maxLen value).length ≤ maxLen
  safe : ∀ c ∈ sanitizeLabelTo maxLen value, isLabelChar c = true
  head : (sanitizeLabelTo maxLen value).head? ≠ some (ofChar ' ')
  last : (sanitizeLabelTo maxLen value).getLast? ≠ some (ofChar ' ')
  fixed : sanitizeLabelTo maxLen (sanitizeLabelTo maxLen value) = sanitizeLabelTo maxLen value

/-- Each space that stays has a safe character on either side that stays too. -/
def Enclosed (maxLen : Nat) (value : PyStr) : Prop :=
  ∀ front rest, bare value = front ++ ofChar ' ' :: rest →
    front.countP isLabelChar < maxLen → 0 < front.countP isLabelChar ∧
      front.countP isLabelChar + 1 < maxLen ∧ 0 < rest.countP isLabelChar

/-- A label that is not empty is not blank. -/
def NotBlank (maxLen : Nat) (value : PyStr) : Prop :=
  sanitizeLabelTo maxLen value ≠ [] → strip (sanitizeLabelTo maxLen value) ≠ []

/-- Where a character is safe, one that is no space stays. -/
def Worded (maxLen : Nat) (value : PyStr) : Prop :=
  (∃ c ∈ bare value, isLabelChar c = true) → ∃ front c rest, bare value = front ++ c :: rest ∧
    isLabelChar c = true ∧ c ≠ ofChar ' ' ∧ front.countP isLabelChar < maxLen

section Values
variable {maxLen : Nat} {value label : PyStr} {c : CodePoint}

theorem sanitizeLabelTo_eq : sanitizeLabelTo maxLen value = keep isLabelChar maxLen (bare value) :=
  rfl

theorem safe_sanitizeLabelTo : ∀ c ∈ sanitizeLabelTo maxLen value, isLabelChar c = true :=
  fun _ mem => of_mem_keep mem

theorem labelChar_plain (safe : isLabelChar c = true) :
    isControlChar c = false ∧ (isSpace c = true ↔ c = ofChar ' ') := by
  have value : (ofChar ' ').val = 0x20 ∧ (ofChar '_').val = 0x5f ∧ (ofChar '-').val = 0x2d ∧
      (ofChar '.').val = 0x2e := by decide
  simp only [isLabelChar, isTitleChar, isAlnum, isUpper, isLower, isDigit, Bool.or_eq_true,
    Bool.and_eq_true, decide_eq_true_eq, Fin.ext_iff, value] at safe
  simp only [isControlChar, isSpace, Bool.or_eq_false_iff, Bool.and_eq_false_iff,
    decide_eq_false_iff_not, Bool.or_eq_true, Bool.and_eq_true, decide_eq_true_eq, Fin.ext_iff,
    value]
  constructor
  · omega
  · omega

/-- Safe characters between two that are no spaces are a label of their own. -/
theorem sanitizeLabelTo_self (safe : ∀ c ∈ label, isLabelChar c = true)
    (short : label.length ≤ maxLen) (head : label.head? ≠ some (ofChar ' '))
    (last : label.getLast? ≠ some (ofChar ' ')) : sanitizeLabelTo maxLen label = label := by
  have uncontrolled : label.filter (fun c => !isControlChar c) = label := by
    refine List.filter_eq_self.mpr fun c mem => ?_
    rw [(labelChar_plain (safe c mem)).1]
    rfl
  have stripped : strip label = label := by
    refine stripOf_eq_self (fun c hc => ?_) (fun c hc => ?_)
    · refine Bool.eq_false_iff.mpr fun space => head ?_
      rw [hc, (labelChar_plain (safe c (List.mem_of_head? hc))).2.mp space]
    · refine Bool.eq_false_iff.mpr fun space => last ?_
      rw [hc, (labelChar_plain (safe c (List.mem_of_getLast? hc))).2.mp space]
  rw [sanitizeLabelTo_eq, bare, uncontrolled, stripped]
  exact keep_of_forall safe short

/-- The label is canonical when it has no space at its ends. -/
theorem canonical_iff_ends : Canonical maxLen value ↔
    (sanitizeLabelTo maxLen value).head? ≠ some (ofChar ' ') ∧
      (sanitizeLabelTo maxLen value).getLast? ≠ some (ofChar ' ') := by
  constructor
  · exact fun canonical => ⟨canonical.head, canonical.last⟩
  · rintro ⟨head, last⟩
    have short : (sanitizeLabelTo maxLen value).length ≤ maxLen := length_keep_le
    exact ⟨short, safe_sanitizeLabelTo, head, last,
      sanitizeLabelTo_self safe_sanitizeLabelTo short head last⟩

theorem canonical_iff (positive : 0 < maxLen) : Canonical maxLen value ↔ Enclosed maxLen value := by
  have space : isLabelChar (ofChar ' ') = true := by decide
  rw [canonical_iff_ends, sanitizeLabelTo_eq, Ne, head?_keep, Ne, getLast?_keep]
  constructor
  · rintro ⟨head, last⟩ front rest split inside
    have first : front.countP isLabelChar ≠ 0 :=
      fun none => head ⟨positive, front, rest, split, space, none⟩
    have later : ¬ (front.countP isLabelChar + 1 = maxLen ∨ rest.countP isLabelChar = 0) :=
      fun ends => last ⟨front, rest, split, space, inside, ends⟩
    omega
  · intro enclosed
    constructor
    · rintro ⟨_, front, rest, split, _, none⟩
      have := (enclosed front rest split (by omega)).1
      omega
    · rintro ⟨front, rest, split, _, inside, ends⟩
      have := enclosed front rest split inside
      omega

theorem strip_label (safe : ∀ c ∈ label, isLabelChar c = true) :
    strip label ≠ [] ↔ ∃ c ∈ label, c ≠ ofChar ' ' := by
  constructor
  · intro nonempty
    obtain ⟨c, rest, hlabel⟩ := List.exists_cons_of_ne_nil nonempty
    have kept := head_stripOf hlabel
    have mem : c ∈ label := stripOf_within.subset (hlabel ▸ List.mem_cons_self)
    refine ⟨c, mem, fun space => ?_⟩
    rw [space] at kept
    cases kept
  · rintro ⟨c, mem, other⟩
    have kept : isSpace c = false :=
      Bool.eq_false_iff.mpr fun space => other ((labelChar_plain (safe c mem)).2.mp space)
    exact List.ne_nil_of_mem ((mem_stripOf kept).mpr mem)

theorem notBlank_iff (positive : 0 < maxLen) : NotBlank maxLen value ↔ Worded maxLen value := by
  rw [NotBlank, strip_label safe_sanitizeLabelTo, sanitizeLabelTo_eq, keep_ne_nil positive, Worded]
  refine imp_congr_right fun _ => ?_
  constructor
  · rintro ⟨c, mem, other⟩
    obtain ⟨front, rest, split, safe, inside⟩ := mem_keep.mp mem
    exact ⟨front, c, rest, split, safe, other, inside⟩
  · rintro ⟨front, c, rest, split, safe, other, inside⟩
    exact ⟨c, mem_keep.mpr ⟨front, rest, split, safe, inside⟩, other⟩

end Values

/-- No tag of an entry and no title of a topic is blank. -/
structure NoBlank {E : Type} (db : JournalDb E) : Prop where
  tags : ∀ id entry, db.journal.entries.get id = some entry → ∀ tag ∈ entry.tags, strip tag ≠ []
  titles : ∀ id topic, db.topics.get id = some topic → strip topic.title ≠ []

/-- A call of a tool, with what it takes from the clock. -/
structure Request where
  call : Call
  today : Date
  now : Time

/-- A request that goes through commits; any other leaves the tables as they are. -/
def step {E : Type} (host : Host) (db : JournalDb E) (request : Request) : Option (JournalDb E) :=
  (request.call.write host db request.today request.now).toOption.map Written.db

/-- The tags and titles that a call brings. -/
def WordedCall : Call → Prop
  | .appendEntry _ _ _ tags _ => ∀ tag ∈ tags, Worded 50 tag
  | .updateEntry _ _ _ _ _ tags => ∀ given ∈ tags, ∀ tag ∈ given, Worded 50 tag
  | .createTopic _ title _ => Worded 100 title
  | _ => True

section Tools
variable {E : Type} {host : Host} {db db' : JournalDb E} {tags : List PyStr} {today : Date}
  {now : Time}

theorem sanitizeTags_notBlank :
    (∀ tag ∈ sanitizeTags tags, strip tag ≠ []) ↔ ∀ tag ∈ tags, Worded 50 tag := by
  have each : ∀ tag, NotBlank 50 tag ↔ Worded 50 tag := fun tag => notBlank_iff (by decide)
  simp only [sanitizeTags, List.mem_filter, List.mem_map, decide_eq_true_eq, ← each]
  constructor
  · intro all tag mem nonempty
    exact all _ ⟨⟨tag, mem, rfl⟩, nonempty⟩
  · rintro all _ ⟨⟨tag, mem, rfl⟩, nonempty⟩
    exact all tag mem nonempty

/-- A row that is put has its tags or its title checked, the others stay. -/
theorem noBlank_putEntry (clean : NoBlank db) {id : EntryId} {entry : Entry}
    {embeddings : Table EntryId E} :
    NoBlank { db with journal := ⟨db.journal.entries.put id entry, embeddings⟩ } ↔
      ∀ tag ∈ entry.tags, strip tag ≠ [] := by
  have rows := Table.forall_get_put (k := id) (v := entry) clean.tags
  constructor
  · exact fun after => rows.mp after.tags
  · exact fun new => ⟨rows.mpr new, clean.titles⟩

theorem noBlank_append {topic content : PyStr} {reasoning date : Option PyStr}
    (clean : NoBlank db) (ran : journalAppendEntry host db topic content reasoning tags date today =
      .ok db') : NoBlank db' ↔ ∀ tag ∈ tags, Worded 50 tag := by
  obtain ⟨_, _, ran⟩ := Fallible.bind_eq_ok.mp ran
  obtain ⟨_, _, ran⟩ := Fallible.bind_eq_ok.mp ran
  obtain ⟨_, _, ran⟩ := Fallible.bind_eq_ok.mp ran
  obtain ⟨_, _, ran⟩ := Fallible.bind_eq_ok.mp ran
  obtain ⟨_, _, ran⟩ := Fallible.bind_eq_ok.mp ran
  obtain ⟨_, _, ran⟩ := Fallible.bind_eq_ok.mp ran
  obtain ⟨_, bound, _, rfl⟩ := StoredText.appendRow_ok.mp (Fallible.mapError_eq_ok.mp ran)
  exact (noBlank_putEntry clean).trans sanitizeTags_notBlank

theorem noBlank_update {id : EntryId} {content reasoning date : Option PyStr} {mode : Mode}
    {given : Option (List PyStr)} (clean : NoBlank db)
    (ran : journalUpdateEntry host db id content reasoning mode date given = .ok db') :
    NoBlank db' ↔ ∀ tags ∈ given, ∀ tag ∈ tags, Worded 50 tag := by
  obtain ⟨_, _, ran⟩ := Fallible.bind_eq_ok.mp ran
  obtain ⟨_, _, ran⟩ := Fallible.bind_eq_ok.mp ran
  obtain ⟨_, _, ran⟩ := Fallible.bind_eq_ok.mp ran
  split at ran
  · cases ran
  · obtain ⟨entry, bound, hactive, _, rfl⟩ :=
      StoredText.updateRow_ok.mp (Fallible.mapError_eq_ok.mp ran)
    refine (noBlank_putEntry clean).trans ?_
    cases given with
    | none =>
      refine iff_of_true (clean.tags id entry (active_eq_some.mp hactive).1) ?_
      exact fun tags absent => by cases absent
    | some tags =>
      refine sanitizeTags_notBlank.trans ⟨?_, fun all => all tags rfl⟩
      intro all tags' same
      cases same
      exact all

theorem noBlank_createTopic {topic title description : PyStr} {written : Written E}
    (clean : NoBlank db) (ran : createTopicTool host db topic title description = .ok written) :
    NoBlank written.db ↔ Worded 100 title := by
  obtain ⟨path, _, ran⟩ := Fallible.bind_eq_ok.mp ran
  split at ran
  · cases ran
  · next nonempty =>
    obtain ⟨after, created, ran⟩ := Fallible.bind_eq_ok.mp ran
    cases ran
    have put : ∃ path', after = { db with
        topics := db.topics.put db.topics.freshKey ⟨path', sanitizeLabelTo 100 title⟩ } := by
      unfold createTopicRow at created
      split at created
      · cases created
      · split at created
        · cases created
        · split at created
          · cases created
          · cases created
            exact ⟨_, rfl⟩
    obtain ⟨path', rfl⟩ := put
    have rows := Table.forall_get_put (k := db.topics.freshKey)
      (v := (⟨path', sanitizeLabelTo 100 title⟩ : TopicRow)) clean.titles
    have label : NotBlank 100 title ↔ Worded 100 title := notBlank_iff (by decide)
    rw [← label]
    constructor
    · exact fun stored _ => rows.mp stored.titles
    · exact fun new => ⟨clean.tags, rows.mpr (new nonempty)⟩

theorem noBlank_delete {id : EntryId} {written : Written E} (clean : NoBlank db)
    (ran : deleteTool db id now = .ok written) : NoBlank written.db := by
  unfold deleteTool at ran
  split at ran
  · cases ran
  · next journal deleted =>
    cases ran
    obtain ⟨entry, hactive, rfl⟩ := Option.map_eq_some_iff.mp deleted
    exact (noBlank_putEntry clean).mpr (clean.tags id entry (active_eq_some.mp hactive).1)

/-- The linked entry of a saved conversation is tagged as one, or keeps its tags. -/
theorem noBlank_save {topic title summary source : PyStr} {messages : List MessageInput}
    {date : Option PyStr} {written : Written E} (clean : NoBlank db)
    (ran : saveTool host db topic title messages summary source tags date today = .ok written) :
    NoBlank written.db := by
  obtain ⟨_, _, ran⟩ := Fallible.bind_eq_ok.mp ran
  obtain ⟨_, _, ran⟩ := Fallible.bind_eq_ok.mp ran
  obtain ⟨after, saved, ran⟩ := Fallible.bind_eq_ok.mp ran
  cases ran
  obtain ⟨_, _, saved⟩ := Fallible.bind_eq_ok.mp (liftWrite_eq_ok.mp saved)
  obtain ⟨_, _, saved⟩ := Fallible.bind_eq_ok.mp saved
  obtain ⟨_, _, saved⟩ := Fallible.bind_eq_ok.mp saved
  obtain ⟨_, _, saved⟩ := Fallible.bind_eq_ok.mp saved
  split at saved
  · cases saved
  · obtain ⟨_, _, saved⟩ := Fallible.bind_eq_ok.mp saved
    split at saved
    · cases saved
    · obtain ⟨_, id, rows⟩ := StoredText.saveRows_ok (Fallible.mapError_eq_ok.mp saved)
      unfold saveConversation at rows
      split at rows
      · cases rows
      · split at rows
        · cases rows
        · cases rows
          refine ⟨?_, clean.titles⟩
          unfold upsertLinkedEntry
          split
          · exact Table.forall_get_modify clean.tags fun _ kept => kept
          · refine (Table.forall_get_put clean.tags).mpr fun tag mem => ?_
            rw [List.mem_singleton.mp mem]
            decide

/-- The step lemma: a call that commits keeps the labels from being blank exactly when those
that it brings are worded. -/
theorem noBlank_step {request : Request} (clean : NoBlank db)
    (committed : step host db request = some db') : NoBlank db' ↔ WordedCall request.call := by
  obtain ⟨call, today, now⟩ := request
  obtain ⟨written, ran, rfl⟩ := Option.map_eq_some_iff.mp committed
  have ran := Fallible.toOption_eq_some.mp ran
  cases call with
  | appendEntry topic content reasoning tags date =>
    obtain ⟨_, _, ran⟩ := Fallible.bind_eq_ok.mp ran
    obtain ⟨after, appended, ran⟩ := Fallible.bind_eq_ok.mp ran
    cases ran
    exact noBlank_append clean (liftWrite_eq_ok.mp appended)
  | updateEntry id content reasoning mode date tags =>
    obtain ⟨after, updated, ran⟩ := Fallible.bind_eq_ok.mp ran
    obtain ⟨_, _, ran⟩ := Fallible.bind_eq_ok.mp ran
    cases ran
    exact noBlank_update clean (liftWrite_eq_ok.mp updated)
  | deleteEntry id => exact iff_of_true (noBlank_delete clean ran) trivial
  | createTopic topic title description => exact noBlank_createTopic clean ran
  | saveConversation topic title messages summary source tags date =>
    exact iff_of_true (noBlank_save clean ran) trivial

end Tools

/-- A label is canonical when each space of it is enclosed, and passes the test for emptiness
without being blank when it is worded. A run of committed calls stores no blank tag or title
exactly when all its calls are worded. -/
theorem labels_iff (E : Type) (host : Host) :
    (∀ maxLen value, 0 < maxLen → (Canonical maxLen value ↔ Enclosed maxLen value)) ∧
      (∀ maxLen value, 0 < maxLen → (NotBlank maxLen value ↔ Worded maxLen value)) ∧
      ∀ (db last : JournalDb E) (requests : List Request), NoBlank db →
        run (step host) db requests = some last →
          (Throughout (step host) NoBlank db requests ↔
            ∀ request ∈ requests, WordedCall request.call) := by
  refine ⟨fun _ _ => canonical_iff, fun _ _ => notBlank_iff, ?_⟩
  intro db last requests clean ran
  have keeps : ∀ (s : JournalDb E) request t, True → step host s request = some t → True :=
    fun _ _ _ _ _ => trivial
  have brings : ∀ (s : JournalDb E) request t, True → NoBlank s → step host s request = some t →
      (NoBlank t ↔ WordedCall request.call) := fun _ _ _ _ => noBlank_step
  refine (throughout_iff_obeys keeps brings trivial clean ran).trans ?_
  exact obeys_iff_mem ran

/-- A title of a space between two accented letters. -/
def accents : PyStr := [0xe9, 0x20, 0xe9]

example : sanitizeLabelTo 3 (py "ab cd") = py "ab " := by decide

theorem noBlank_emptyJournal : NoBlank emptyJournal where
  tags := fun _ _ h => nomatch h
  titles := fun _ _ h => nomatch h

/-- A topic and an entry in it. -/
def noted : List Request :=
  [⟨.createTopic (py "work") (py "My work") [], Listing.sampleTime.date, 0⟩,
    ⟨.appendEntry (py "work") (py "A note") none [py "a b"] none, Listing.sampleTime.date, 1⟩]

theorem labels_iff_noted : Canonical 50 (py "work") ∧ NotBlank 50 (py "a b") ∧
    Throughout (step sampleHost) NoBlank emptyJournal noted := by
  obtain ⟨canonical, notBlank, stored⟩ := labels_iff Unit sampleHost
  obtain ⟨last, ran⟩ := Option.isSome_iff_exists.mp
    (show (run (step sampleHost) emptyJournal noted).isSome = true by decide +kernel)
  have tag : Worded 50 (py "a b") :=
    fun _ => ⟨[], ofChar 'a', py " b", by decide, by decide, by decide, by decide⟩
  have title : Worded 100 (py "My work") :=
    fun _ => ⟨[], ofChar 'M', py "y work", by decide, by decide, by decide, by decide⟩
  refine ⟨(canonical 50 _ (by decide)).mpr ?_, (notBlank 50 _ (by decide)).mpr tag, ?_⟩
  · intro front rest split _
    have mem : ofChar ' ' ∈ bare (py "work") := split ▸ List.mem_append_right _ List.mem_cons_self
    exact absurd mem (by decide)
  · refine (stored emptyJournal last noted noBlank_emptyJournal ran).mpr ?_
    simp only [noted, List.forall_mem_cons]
    exact ⟨title, fun _ mem => List.mem_singleton.mp mem ▸ tag, fun _ mem => nomatch mem⟩

/-- The deletion of a letter that is not ASCII leaves the space at the start of a tag, and the
space of a title alone. -/
theorem accents_leave_spaces :
    ¬ (∀ maxLen value, 0 < maxLen → Canonical maxLen value) ∧ NoBlank emptyJournal ∧
      ∃ db, step sampleHost emptyJournal
        ⟨.createTopic (py "work") accents [], Listing.sampleTime.date, 0⟩ = some db ∧
          ¬ NoBlank db := by
  refine ⟨fun all => ?_, noBlank_emptyJournal, ?_⟩
  · exact (all 50 [0xe9, 0x20, 0x61] (by decide)).head (by decide)
  · obtain ⟨db, committed⟩ := Option.isSome_iff_exists.mp
      (show (step sampleHost emptyJournal ⟨.createTopic (py "work") accents [],
        Listing.sampleTime.date, 0⟩).isSome = true by decide)
    have title : ((step sampleHost emptyJournal ⟨.createTopic (py "work") accents [],
        Listing.sampleTime.date, 0⟩).bind (fun db => db.topics.get 1)).map TopicRow.title =
          some (py " ") := by decide
    rw [committed] at title
    obtain ⟨topic, stored, blank⟩ := Option.map_eq_some_iff.mp title
    refine ⟨db, committed, fun clean => clean.titles 1 topic stored ?_⟩
    rw [blank]
    decide

end Labels
