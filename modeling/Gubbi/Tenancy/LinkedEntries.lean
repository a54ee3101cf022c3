import Gubbi.Tenancy.Isolation

/-!
# Linked entries

A save of a conversation upserts its linked entry "so the conversation appears in
`journal_read_topic` and the timeline". It finds the row by the conversation alone and
rewrites its text and date, but not `deleted_at` and not `topic_id`: an entry that the
user has deleted stays deleted, and one that was moved stays where it is.
-/

namespace Tenancy

open Text Validation RowSecurity Transactions Connections
open JournalEntries (EntryId Entry linkedContent)
open JournalConversations (TopicId Message recordOf)
open ExtractionJobs (UserId)

/-- The saved conversation is visible through the entry that the save returns, and through
no other one. -/
structure Shown {E : Type} (saved : SaveConversationResult) (title summary date : PyStr)
    (db : Db E) : Prop where
  present : ∃ row conversation text, db.entries.get saved.linkedEntryId = some row ∧
    db.conversations.get saved.conversationId = some conversation ∧
    validateTitle title = .ok text ∧
    row.entry.deletedAt = none ∧ row.topicId = conversation.topicId ∧
    row.entry.conversationId = some saved.conversationId ∧ row.entry.date = date ∧
    row.entry.content = linkedContent text summary
  only : ∀ id row, db.entries.get id = some row →
    row.entry.conversationId = some saved.conversationId → id = saved.linkedEntryId

/-- The conversation that the save finds has no entry yet, or one that is active and in the
topic. -/
def LinkIntact {E : Type} (user : UserId) (path title : PyStr) (db : Db E) : Prop :=
  ∀ text topic id key row, validateTitle title = .ok text →
    selectTopicId path (loginOf user) db = .ok (some topic, db) →
    conversationAt db topic (slugify text) = some id →
    db.entries.get key = some row → row.entry.conversationId = some id →
    row.entry.deletedAt = none ∧ row.topicId = topic

section Steps
variable {E : Type} {user : UserId} {db db' : Db E}

theorem insertMessages_returned {id : ConversationId} {messages : List Message} {position : Nat}
    {c : Conn (Db E) Login}
    (h : insertMessages id messages position ⟨db, loginOf user, .inTransaction⟩ = (.ok (), c)) :
    ∃ rows, c = ⟨{ db with messages := rows }, loginOf user, .inTransaction⟩ := by
  induction messages generalizing db position with
  | nil =>
    cases h
    exact ⟨db.messages, rfl⟩
  | cons message rest ih =>
    obtain ⟨_, middle, inserted, hrest⟩ := bind_ok.mp h
    obtain ⟨db₁, written, rfl⟩ := run_returned inserted
    have kept : ∃ rows, db₁ = { db with messages := rows } := by
      unfold insertMessage at written
      obtain ⟨u, _, hreferences⟩ := Fallible.bind_eq_ok.mp written
      obtain ⟨_, _, hput⟩ := Fallible.bind_eq_ok.mp hreferences
      cases hput
      exact ⟨_, rfl⟩
    obtain ⟨rows, rfl⟩ := kept
    obtain ⟨rows', rfl⟩ := ih hrest
    exact ⟨rows', rfl⟩

/-- A conversation that is found keeps its topic; one that is inserted has a new id. -/
theorem upsertConversation_returned {record : JournalConversations.ConversationRow} {now : Time}
    {id : ConversationId} {isUpdate : Bool}
    (h : upsertConversation record now (loginOf user) db = .ok ((id, isUpdate), db')) :
    db'.entries = db.entries ∧ (access db' (loginOf user)).admits user = true ∧
      (∃ row, db'.conversations.get id = some row ∧ row.topicId = record.topicId) ∧
      (conversationAt db record.topicId record.slug = some id ∧
          (∃ row, db.conversations.get id = some row ∧ row.topicId = record.topicId) ∨
        conversationAt db record.topicId record.slug = none ∧ db.conversations.get id = none) := by
  unfold upsertConversation at h
  obtain ⟨u, hu, hrest⟩ := Fallible.bind_eq_ok.mp h
  have admitted : (access db (loginOf user)).admits user = true := by
    simp only [insertingUser] at hu
    split at hu
    · next seen => exact seen
    · cases hu
  split at hrest
  · next found hfound =>
    obtain ⟨row, hrow, hslot⟩ := Table.mem_keysWhere.mp (List.mem_of_head? hfound)
    have topic : row.topicId = record.topicId := congrArg Prod.fst (of_decide_eq_true hslot)
    split at hrest
    · cases hrest
      exact ⟨rfl, admitted, ⟨_, Table.get_modify_self _ hrow, topic⟩,
        Or.inl ⟨hfound, row, hrow, topic⟩⟩
    · cases hrest
  · next hfound =>
    obtain ⟨_, _, hwrite⟩ := Fallible.bind_eq_ok.mp hrest
    cases hwrite
    exact ⟨rfl, admitted, ⟨_, Table.get_put_self _ _ _, rfl⟩,
      Or.inr ⟨hfound, Table.get_freshKey _⟩⟩

/-- The row that `_upsert_linked_entry` finds is rewritten in place. -/
def relinked (content date : PyStr) (now : Time) (row : EntryRow) : EntryRow :=
  row.edit (fun entry => { entry with
    content := content, reasoning := none, date := date, indexedAt := none }) now

theorem selectLinked_found {id : ConversationId} {key : EntryId}
    (h : selectLinked id (loginOf user) db = .ok (some key, db')) :
    ∃ row, db.entries.get key = some row ∧
      (access db (loginOf user)).admits row.userId = true ∧ row.entry.conversationId = some id := by
  have first := (Prod.mk.inj (Except.ok.inj h)).1
  obtain ⟨row, hrow, seen, linked⟩ := mem_select.mp (List.mem_of_head? first)
  exact ⟨row, hrow, seen, of_decide_eq_true linked⟩

theorem upsertLinkedEntry_returned {topic : TopicId} {id : ConversationId}
    {title summary date : PyStr} {now : Time} {entryId : EntryId} {c : Conn (Db E) Login}
    (h : upsertLinkedEntry topic id title summary date now ⟨db, loginOf user, .inTransaction⟩ =
      (.ok entryId, c)) :
    ∃ entries, c = ⟨{ db with entries := entries }, loginOf user, .inTransaction⟩ ∧
      ((∃ row, db.entries.get entryId = some row ∧ row.entry.conversationId = some id ∧
          entries.get entryId = some (relinked (linkedContent title summary) date now row) ∧
          ∀ key new, entries.get key = some new → ∃ old, db.entries.get key = some old ∧
            old.entry.conversationId = new.entry.conversationId) ∨
        Unlinked user id db ∧ entries = db.entries.put entryId ⟨user, topic,
          newEntry (linkedContent title summary) none (some id) [py "conversation"] date,
          now⟩) := by
  obtain ⟨existing, middle, selected, hrest⟩ := bind_ok.mp h
  obtain ⟨db₁, found, rfl⟩ := run_returned selected
  obtain ⟨rfl, _, unlinked⟩ := selectLinked_spec found
  cases existing with
  | none =>
    obtain ⟨db₂, inserted, rfl⟩ := run_returned hrest
    unfold insertLinked at inserted
    obtain ⟨u, hu, hreferences⟩ := Fallible.bind_eq_ok.mp inserted
    obtain rfl := insertingUser_ok rfl hu
    obtain ⟨_, _, hreferences⟩ := Fallible.bind_eq_ok.mp hreferences
    obtain ⟨_, _, hput⟩ := Fallible.bind_eq_ok.mp hreferences
    cases hput
    exact ⟨_, rfl, Or.inr ⟨unlinked rfl, rfl⟩⟩
  | some key =>
    obtain ⟨_, middle, rewritten, hreturn⟩ := bind_ok.mp hrest
    obtain ⟨db₂, written, rfl⟩ := run_returned rewritten
    cases hreturn
    cases written
    obtain ⟨row, hrow, seen, linked⟩ := selectLinked_found found
    refine ⟨_, rfl, Or.inl ⟨row, hrow, linked, ?_, ?_⟩⟩
    · rw [get_update, hrow, Option.map_some, if_pos]
      · rfl
      · simpa using seen
    · intro key new hnew
      rw [get_update] at hnew
      obtain ⟨old, hold, rfl⟩ := Option.map_eq_some_iff.mp hnew
      refine ⟨old, hold, ?_⟩
      split
      · rfl
      · rfl

theorem getTopicId_returned {path : PyStr} {topic : TopicId} {c : Conn (Db E) Login}
    (h : getTopicId path ⟨db, loginOf user, .inTransaction⟩ = (.ok topic, c)) :
    selectTopicId path (loginOf user) db = .ok (some topic, db) ∧
      c = ⟨db, loginOf user, .inTransaction⟩ := by
  obtain ⟨row, middle, selected, hrest⟩ := bind_ok.mp h
  obtain ⟨db₁, found, rfl⟩ := run_returned selected
  obtain ⟨rfl, _⟩ := selectTopicId_spec found
  cases row with
  | none => exact absurd hrest fail_ok
  | some id =>
    cases hrest
    exact ⟨found, rfl⟩

/-- The steps that matter to the linked entry. -/
theorem saveConversation_returned {path title : PyStr} {messages : List Message}
    {summary source : PyStr} {tags : List PyStr} {date : PyStr} {now : Time}
    {saved : SaveConversationResult} {c : Conn (Db E) Login}
    (h : saveConversation path title messages summary source tags date now
      ⟨db, loginOf user, .inTransaction⟩ = (.ok saved, c)) :
    ∃ text topic db₁ messages' middle, validateTitle title = .ok text ∧
      selectTopicId path (loginOf user) db = .ok (some topic, db) ∧
      upsertConversation (recordOf topic text messages summary source tags date) now
        (loginOf user) db = .ok ((saved.conversationId, saved.isUpdate), db₁) ∧
      upsertLinkedEntry topic saved.conversationId text summary date now
        ⟨{ db₁ with messages := messages' }, loginOf user, .inTransaction⟩ =
          (.ok saved.linkedEntryId, middle) ∧
      ∃ topics, c = { middle with store := { middle.store with topics := topics } } := by
  obtain ⟨_, c₀, asserted, hbody⟩ := bind_ok.mp h
  obtain rfl : c₀ = ⟨db, loginOf user, .inTransaction⟩ := by
    cases asserted
    rfl
  cases hvalid : validateTitle title with
  | error e =>
    rw [hvalid] at hbody
    exact absurd hbody fail_ok
  | ok text =>
    rw [hvalid] at hbody
    obtain ⟨topic, c₁, found, hrest⟩ := bind_ok.mp hbody
    obtain ⟨selected, rfl⟩ := getTopicId_returned found
    obtain ⟨upserted, c₂, ran, hrest⟩ := bind_ok.mp hrest
    obtain ⟨db₁, written, rfl⟩ := run_returned ran
    obtain ⟨_, c₃, deleted, hrest⟩ := bind_ok.mp hrest
    obtain ⟨db₂, removed, rfl⟩ := run_returned deleted
    cases removed
    obtain ⟨_, c₄, inserted, hrest⟩ := bind_ok.mp hrest
    obtain ⟨rows, rfl⟩ := insertMessages_returned inserted
    obtain ⟨entryId, c₅, linked, hrest⟩ := bind_ok.mp hrest
    obtain ⟨_, c₆, touched, hreturn⟩ := bind_ok.mp hrest
    obtain ⟨db₃, wrote, rfl⟩ := run_returned touched
    cases wrote
    cases hreturn
    exact ⟨text, topic, db₁, rows, c₅, rfl, selected, written, linked, _, rfl⟩

end Steps

section Saves
variable {E : Type} {user : UserId} {db : Db E}

/-- The entries of a conversation in a topic of the user are the user's own. -/
theorem linked_mine (sound : Sound db) {topic : TopicId} {id : ConversationId}
    {conversation : ConversationRow} {key : EntryId} {row : EntryRow}
    (owns : topicOwner db topic = some user)
    (hconversation : db.conversations.get id = some conversation)
    (inTopic : conversation.topicId = topic) (hrow : db.entries.get key = some row)
    (linked : row.entry.conversationId = some id) : row.userId = user := by
  have byTopic := sound.conversationTopics id conversation _ hconversation rfl
  rw [inTopic, owns] at byTopic
  have byConversation := sound.linkedEntries key row id hrow linked
  rw [conversationOwner, ownerOf_of_get hconversation, ← Option.some.inj byTopic] at byConversation
  exact (Option.some.inj byConversation).symm

/-- A conversation that is not there has no entry. -/
theorem no_entry_of_absent (sound : Sound db) {id : ConversationId} {key : EntryId} {row : EntryRow}
    (absent : db.conversations.get id = none) (hrow : db.entries.get key = some row) :
    row.entry.conversationId ≠ some id := by
  intro linked
  have owner := sound.linkedEntries key row id hrow linked
  rw [conversationOwner, ownerOf, absent] at owner
  cases owner

theorem saveConversation_shown_iff (sound : Sound db) {path title : PyStr} {messages : List Message}
    {summary source : PyStr} {tags : List PyStr} {date : PyStr} {now : Time}
    {saved : SaveConversationResult} {c : Conn (Db E) Login}
    (h : saveConversation path title messages summary source tags date now
      ⟨db, loginOf user, .inTransaction⟩ = (.ok saved, c)) :
    c.status = .inTransaction ∧
      (Shown saved title summary date c.store ↔ LinkIntact user path title db) := by
  obtain ⟨text, topic, db₁, rows, middle, hvalid, selected, upserted, linked, topics, rfl⟩ :=
    saveConversation_returned h
  obtain ⟨_, owner⟩ := selectTopicId_spec selected
  obtain ⟨hentries, admitted, ⟨conversation, hconversation, hin⟩, found⟩ :=
    upsertConversation_returned upserted
  obtain ⟨entries, rfl, written⟩ := upsertLinkedEntry_returned linked
  refine ⟨rfl, ?_⟩
  -- what the condition speaks of is what the save has found
  have same : ∀ {text' topic'}, validateTitle title = .ok text' →
      selectTopicId path (loginOf user) db = .ok (some topic', db) →
        text' = text ∧ topic' = topic := by
    intro text' topic' hvalid' selected'
    refine ⟨Except.ok.inj (hvalid'.symm.trans hvalid), ?_⟩
    have pair := Except.ok.inj (selected'.symm.trans selected)
    exact Option.some.inj (congrArg Prod.fst pair)
  rcases written with ⟨row, hrow, hlinked, hwritten, hold⟩ | ⟨unlinked, rfl⟩
  · rw [hentries] at hrow
    have hfound : conversationAt db topic (slugify text) = some saved.conversationId := by
      rcases found with ⟨hfound, _⟩ | ⟨_, absent⟩
      · exact hfound
      · exact absurd hlinked (no_entry_of_absent sound absent hrow)
    constructor
    · rintro ⟨⟨row', conversation', _, hrow', hconversation', _, active, inTopic, _⟩, _⟩
      obtain rfl := Option.some.inj (hwritten.symm.trans hrow')
      obtain rfl := Option.some.inj (hconversation.symm.trans hconversation')
      intro text' topic' id key old hvalid' selected' hat hkey hlinked'
      obtain ⟨rfl, rfl⟩ := same hvalid' selected'
      obtain rfl := Option.some.inj (hat.symm.trans hfound)
      obtain rfl := sound.linkedOnce key _ old row _ hkey hrow hlinked' hlinked
      obtain rfl := Option.some.inj (hkey.symm.trans hrow)
      exact ⟨active, inTopic.trans hin⟩
    · intro intact
      obtain ⟨active, inTopic⟩ := intact text topic _ _ row hvalid selected hfound hrow hlinked
      refine ⟨⟨_, conversation, text, hwritten, hconversation, hvalid, active,
        inTopic.trans hin.symm, hlinked, rfl, rfl⟩, ?_⟩
      intro key new hnew hlinked'
      obtain ⟨old, hkey, hsame⟩ := hold key new hnew
      rw [hentries] at hkey
      exact sound.linkedOnce key _ old row _ hkey hrow (hsame.trans hlinked') hlinked
  · have noEntry : ∀ key row, db.entries.get key = some row →
        row.entry.conversationId ≠ some saved.conversationId := by
      intro key row hrow hlinked
      rcases found with ⟨_, before, hbefore, inTopic⟩ | ⟨_, absent⟩
      · have mine := linked_mine sound (owner topic rfl) hbefore inTopic hrow hlinked
        exact unlinked key row (hentries ▸ hrow) hlinked (mine ▸ admitted)
      · exact no_entry_of_absent sound absent hrow hlinked
    refine iff_of_true ⟨⟨_, conversation, text, Table.get_put_self _ _ _, hconversation, hvalid,
      rfl, hin.symm, rfl, rfl, rfl⟩, ?_⟩ ?_
    · intro key new hnew hlinked
      rcases Table.get_put_eq_some hnew with ⟨rfl, _⟩ | ⟨_, hkey⟩
      · rfl
      · exact absurd hlinked (noEntry key new (hentries ▸ hkey))
    · intro text' topic' id key row hvalid' selected' hat hrow hlinked
      obtain ⟨rfl, rfl⟩ := same hvalid' selected'
      rcases found with ⟨hfound, _⟩ | ⟨hfound, _⟩
      · obtain rfl := Option.some.inj (hat.symm.trans hfound)
        exact absurd hlinked (noEntry key row hrow)
      · cases hat.symm.trans hfound

/-- In every reachable state a committed save shows the conversation through its linked
entry exactly when the entry it finds is active and in the topic. -/
theorem linked_entry_shown_iff {acts : List (Action E)} {w : World E}
    (ran : Replay.run step (World.start E) acts = some w) {path title : PyStr}
    {messages : List Message} {summary source : PyStr} {tags : List PyStr} {date : PyStr}
    {now : Time} {saved : SaveConversationResult} {c : Conn (Db E) Login}
    (commits : userScoped user (saveConversation path title messages summary source tags date now)
      (connect false w.db) = (.ok saved, c)) :
    Shown saved title summary date c.store ↔ LinkIntact user path title w.db := by
  obtain ⟨after, body, committed⟩ := withTransaction_returned rfl commits
  have save : saveConversation path title messages summary source tags date now
      ⟨w.db, loginOf user, .inTransaction⟩ = (.ok saved, after) :=
    (setCurrentUser_bind false user w.db _).symm.trans body
  obtain ⟨opened, shown⟩ := saveConversation_shown_iff (run_held ran).sound save
  rw [committed opened]
  exact shown

theorem hidden_of_deleted {saved : SaveConversationResult} {title summary date : PyStr}
    (deleted : (db.entries.get saved.linkedEntryId).any (fun row => row.entry.deletedAt.isSome) =
      true) : ¬ Shown saved title summary date db := by
  rintro ⟨⟨row, _, _, hrow, _, _, active, _⟩, _⟩
  rw [hrow, Option.any_some, active] at deleted
  cases deleted

/-- The transaction commits with a result that meets `p`. -/
def commitsWith {A : Type} (x : Tx E A) (p : A → Db E → Bool) (w : World E) : Bool :=
  match x (connect false w.db) with
  | (.ok a, c) => p a c.store
  | (.error _, _) => false

theorem exists_commit {A : Type} {result : Option (World E)} (x : Tx E A) (p : A → Db E → Bool)
    (reached : result.any (commitsWith x p) = true) :
    ∃ w a c, result = some w ∧ x (connect false w.db) = (.ok a, c) ∧ p a c.store = true := by
  obtain ⟨w, rfl, committed⟩ := (Option.any_eq_true _ _).mp reached
  unfold commitsWith at committed
  split at committed
  · next a c returned => exact ⟨w, a, c, rfl, returned, committed⟩
  · cases committed

end Saves

/-- A saved conversation; its linked entry is entry 1. -/
def savedOnce : List (Action Unit) :=
  [.setUser 1 none, .createTopic 1 (py "work") (py "Work") [] 10,
    .saveConversation 1 (py "work") (py "a") [] (py "one") [] [] [] 11]

def saveAgain : Tx Unit SaveConversationResult :=
  userScoped 1 (saveConversation (py "work") (py "a") [] (py "two") [] [] [] 13)

theorem linked_entry_shown_saved_twice : ∃ w saved c,
    Replay.run step (World.start Unit) savedOnce = some w ∧
      saveAgain (connect false w.db) = (.ok saved, c) ∧
      (Shown saved (py "a") (py "two") [] c.store ↔ LinkIntact 1 (py "work") (py "a") w.db) := by
  obtain ⟨w, saved, c, ran, commits, _⟩ := exists_commit saveAgain (fun _ _ => true)
    (show (Replay.run step (World.start Unit) savedOnce).any _ = true by decide +kernel)
  exact ⟨w, saved, c, ran, commits, linked_entry_shown_iff ran commits⟩

/-- The user deletes the linked entry before the second save. -/
theorem saved_again_hidden : ∃ w saved c,
    Replay.run step (World.start Unit) (savedOnce ++ [.deleteEntry 1 1 12]) = some w ∧
      saveAgain (connect false w.db) = (.ok saved, c) ∧
      ¬ Shown saved (py "a") (py "two") [] c.store := by
  obtain ⟨w, saved, c, ran, commits, deleted⟩ := exists_commit saveAgain
    (fun saved db => (db.entries.get saved.linkedEntryId).any
      (fun row => row.entry.deletedAt.isSome))
    (show (Replay.run step (World.start Unit) (savedOnce ++ [.deleteEntry 1 1 12])).any _ = true by
      decide +kernel)
  exact ⟨w, saved, c, ran, commits, hidden_of_deleted deleted⟩

end Tenancy
