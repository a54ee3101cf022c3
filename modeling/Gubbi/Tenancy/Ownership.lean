import Gubbi.Tenancy.Operations
import Gubbi.Library.Fallible

/-!
# Who owns what

`Owned` ties the rows of all tables to the rows they name, `Untouched` says that the rows
of the other users stay what they are. Each statement of a session is shown to keep the
one and to stay within the other, given that the ids it is passed are the user's own; the
sessions of the repositories, and with them the transactions, follow by the rules for
triples.
-/

namespace Tenancy

open Text RowSecurity Transactions Connections
open JournalEntries (EntryId Entry Mode linkedContent)
open JournalConversations (TopicId Platform Message)
open ExtractionJobs (UserId JobId JobRow Jobs Period Cents ErrorCode Sweep)

section Owners
variable {E : Type} (db : Db E)

abbrev topicOwner : TopicId → Option UserId := ownerOf TopicRow.userId db.topics

abbrev conversationOwner : ConversationId → Option UserId :=
  ownerOf ConversationRow.userId db.conversations

abbrev entryOwner : EntryId → Option UserId := ownerOf EntryRow.userId db.entries

end Owners

/-- The parents that the rows name. -/
def EntryRow.topicRef (_ : EntryId) (row : EntryRow) : Option TopicId := some row.topicId

def EntryRow.conversationRef (_ : EntryId) (row : EntryRow) : Option ConversationId :=
  row.entry.conversationId

def ConversationRow.topicRef (_ : ConversationId) (row : ConversationRow) : Option TopicId :=
  some row.topicId

def MessageRow.conversationRef (_ : MessageId) (row : MessageRow) : Option ConversationId :=
  some row.message.conversationId

def jobConversationRef (_ : JobId) (row : JobRow) : Option ConversationId :=
  some row.conversationId

def EmbeddingRow.entryRef {E : Type} (id : EntryId) (_ : EmbeddingRow E) : Option EntryId :=
  some id

/-- Every row has the user of the row it names. -/
structure Owned {E : Type} (db : Db E) : Prop where
  entryTopics : Belongs EntryRow.userId EntryRow.topicRef (topicOwner db) db.entries
  conversationTopics :
    Belongs ConversationRow.userId ConversationRow.topicRef (topicOwner db) db.conversations
  linkedEntries : Belongs EntryRow.userId EntryRow.conversationRef (conversationOwner db) db.entries
  messages : Belongs MessageRow.userId MessageRow.conversationRef (conversationOwner db) db.messages
  jobs : Belongs JobRow.userId jobConversationRef (conversationOwner db) db.jobs
  embeddings : Belongs EmbeddingRow.userId EmbeddingRow.entryRef (entryOwner db) db.embeddings

/-- A conversation has one linked entry at most, deleted or not. -/
def LinkedOnce (entries : Table EntryId EntryRow) : Prop :=
  ∀ a b rowA rowB id, entries.get a = some rowA → entries.get b = some rowB →
    rowA.entry.conversationId = some id → rowB.entry.conversationId = some id → a = b

structure Sound {E : Type} (db : Db E) : Prop extends Owned db where
  linkedOnce : LinkedOnce db.entries

/-- No row of another user is inserted, changed or deleted. -/
structure Untouched {E : Type} (user : UserId) (db db' : Db E) : Prop where
  users : db'.users = db.users
  topics : SameBut TopicRow.userId user db.topics db'.topics
  conversations : SameBut ConversationRow.userId user db.conversations db'.conversations
  messages : SameBut MessageRow.userId user db.messages db'.messages
  entries : SameBut EntryRow.userId user db.entries db'.entries
  embeddings : SameBut EmbeddingRow.userId user db.embeddings db'.embeddings
  jobs : SameBut JobRow.userId user db.jobs db'.jobs
  audit : ∃ rows, db'.audit = db.audit ++ rows ∧ ∀ row ∈ rows, row.actorId = user

/-- Conversations and entries are never removed, and keep their users. -/
structure Keeps {E : Type} (db db' : Db E) : Prop where
  conversations : Grows (conversationOwner db) (conversationOwner db')
  entries : Grows (entryOwner db) (entryOwner db')

section Relations
variable {E : Type} {user : UserId} {db db' db'' : Db E}

theorem Untouched.refl (db : Db E) : Untouched user db db :=
  ⟨rfl, .refl _, .refl _, .refl _, .refl _, .refl _, .refl _, [], by simp, by simp⟩

theorem Untouched.trans (first : Untouched user db db') (second : Untouched user db' db'') :
    Untouched user db db'' := by
  refine ⟨second.users.trans first.users, first.topics.trans second.topics,
    first.conversations.trans second.conversations, first.messages.trans second.messages,
    first.entries.trans second.entries, first.embeddings.trans second.embeddings,
    first.jobs.trans second.jobs, ?_⟩
  obtain ⟨rows, hrows, actor⟩ := first.audit
  obtain ⟨more, hmore, actor'⟩ := second.audit
  refine ⟨rows ++ more, by rw [hmore, hrows, List.append_assoc], ?_⟩
  intro row mem
  rcases List.mem_append.mp mem with mem | mem
  · exact actor row mem
  · exact actor' row mem

theorem Keeps.refl (db : Db E) : Keeps db db := ⟨.refl _, .refl _⟩

theorem Keeps.trans (first : Keeps db db') (second : Keeps db' db'') : Keeps db db'' :=
  ⟨first.conversations.trans second.conversations, first.entries.trans second.entries⟩

theorem Owned.start : Owned (Db.empty E) :=
  ⟨.empty, .empty, .empty, .empty, .empty, .empty⟩

theorem Sound.start : Sound (Db.empty E) :=
  ⟨Owned.start, fun _ _ _ _ _ h => nomatch h⟩

end Relations

/-- What the sessions of a user may do. -/
structure Within {E : Type} (user : UserId) (db db' : Db E) : Prop where
  untouched : Untouched user db db'
  keeps : Keeps db db'

/-- All but the deletion of a topic. -/
structure Growing {E : Type} (user : UserId) (db db' : Db E) : Prop where
  within : Within user db db'
  topics : Grows (topicOwner db) (topicOwner db')

theorem Within.refl {E : Type} {user : UserId} (db : Db E) : Within user db db :=
  ⟨.refl db, .refl db⟩

theorem Within.trans {E : Type} {user : UserId} {a b c : Db E} (first : Within user a b)
    (second : Within user b c) : Within user a c :=
  ⟨first.untouched.trans second.untouched, first.keeps.trans second.keeps⟩

theorem Growing.refl {E : Type} {user : UserId} (db : Db E) : Growing user db db :=
  ⟨.refl db, .refl _⟩

theorem Growing.trans {E : Type} {user : UserId} {a b c : Db E} (first : Growing user a b)
    (second : Growing user b c) : Growing user a c :=
  ⟨first.within.trans second.within, first.topics.trans second.topics⟩

def ofUser (E : Type) (user : UserId) : Discipline (Db E) where
  inv := Sound
  step := Within user
  refl := Within.refl
  trans := Within.trans

def growing (E : Type) (user : UserId) : Discipline (Db E) where
  inv := Sound
  step := Growing user
  refl := Growing.refl
  trans := Growing.trans

/-- Of the sessions that are run for nobody. -/
def ofSystem (E : Type) : Discipline (Db E) where
  inv := Sound
  step := Keeps
  refl := Keeps.refl
  trans := Keeps.trans

section Writes
variable {E : Type} {user : UserId} {db : Db E}

/-- What a write keeps and stays within. -/
structure Moves {E : Type} (user : UserId) (db db' : Db E) : Prop where
  sound : Sound db'
  growing : Growing user db db'

theorem Moves.trans {a b c : Db E} (first : Moves user a b)
    (second : Sound b → Moves user b c) : Moves user a c :=
  ⟨(second first.sound).sound, first.growing.trans (second first.sound).growing⟩

theorem Moves.refl (sound : Sound db) : Moves user db db := ⟨sound, .refl db⟩

theorem moves_topics (sound : Sound db) {t : Table TopicId TopicRow}
    (same : SameBut TopicRow.userId user db.topics t)
    (grows : Grows (topicOwner db) (ownerOf TopicRow.userId t)) :
    Moves user db { db with topics := t } where
  sound := { sound with
    entryTopics := sound.entryTopics.grow grows
    conversationTopics := sound.conversationTopics.grow grows }
  growing :=
    { within := ⟨{ Untouched.refl db with topics := same }, { Keeps.refl db with }⟩
      topics := grows }

theorem moves_conversations (sound : Sound db) {t : Table ConversationId ConversationRow}
    (same : SameBut ConversationRow.userId user db.conversations t)
    (grows : Grows (conversationOwner db) (ownerOf ConversationRow.userId t))
    (ties : Belongs ConversationRow.userId ConversationRow.topicRef (topicOwner db) t) :
    Moves user db { db with conversations := t } where
  sound := { sound with
    conversationTopics := ties
    linkedEntries := sound.linkedEntries.grow grows
    messages := sound.messages.grow grows
    jobs := sound.jobs.grow grows }
  growing :=
    { within := ⟨{ Untouched.refl db with conversations := same },
        { Keeps.refl db with conversations := grows }⟩
      topics := .refl _ }

theorem moves_messages (sound : Sound db) {t : Table MessageId MessageRow}
    (same : SameBut MessageRow.userId user db.messages t)
    (ties : Belongs MessageRow.userId MessageRow.conversationRef (conversationOwner db) t) :
    Moves user db { db with messages := t } where
  sound := { sound with messages := ties }
  growing :=
    { within := ⟨{ Untouched.refl db with messages := same }, { Keeps.refl db with }⟩
      topics := .refl _ }

theorem moves_entries (sound : Sound db) {t : Table EntryId EntryRow}
    (same : SameBut EntryRow.userId user db.entries t)
    (grows : Grows (entryOwner db) (ownerOf EntryRow.userId t))
    (topics : Belongs EntryRow.userId EntryRow.topicRef (topicOwner db) t)
    (linked : Belongs EntryRow.userId EntryRow.conversationRef (conversationOwner db) t)
    (once : LinkedOnce t) : Moves user db { db with entries := t } where
  sound := { sound with
    entryTopics := topics
    linkedEntries := linked
    embeddings := sound.embeddings.grow grows
    linkedOnce := once }
  growing :=
    { within := ⟨{ Untouched.refl db with entries := same },
        { Keeps.refl db with entries := grows }⟩
      topics := .refl _ }

theorem moves_embeddings (sound : Sound db) {t : Table EntryId (EmbeddingRow E)}
    (same : SameBut EmbeddingRow.userId user db.embeddings t)
    (ties : Belongs EmbeddingRow.userId EmbeddingRow.entryRef (entryOwner db) t) :
    Moves user db { db with embeddings := t } where
  sound := { sound with embeddings := ties }
  growing :=
    { within := ⟨{ Untouched.refl db with embeddings := same }, { Keeps.refl db with }⟩
      topics := .refl _ }

theorem moves_jobs (sound : Sound db) {t : Jobs} (same : SameBut JobRow.userId user db.jobs t)
    (ties : Belongs JobRow.userId jobConversationRef (conversationOwner db) t) :
    Moves user db { db with jobs := t } where
  sound := { sound with jobs := ties }
  growing :=
    { within := ⟨{ Untouched.refl db with jobs := same }, { Keeps.refl db with }⟩
      topics := .refl _ }

theorem moves_audit (sound : Sound db) {row : AuditRow} (actor : row.actorId = user) :
    Moves user db { db with audit := db.audit ++ [row] } where
  sound := { sound with }
  growing :=
    { within := ⟨{ Untouched.refl db with audit := ⟨[row], rfl, by simpa using actor⟩ },
        { Keeps.refl db with }⟩
      topics := .refl _ }

end Writes

section Linked
variable {t : Table EntryId EntryRow}

theorem LinkedOnce.update (once : LinkedOnce t) {f : EntryId → EntryRow → EntryRow}
    (keeps : ∀ k row, (f k row).entry.conversationId = row.entry.conversationId) :
    LinkedOnce (t.update f) := by
  intro a b rowA rowB id hA hB linkedA linkedB
  rw [Table.get_update] at hA hB
  obtain ⟨oldA, holdA, rfl⟩ := Option.map_eq_some_iff.mp hA
  obtain ⟨oldB, holdB, rfl⟩ := Option.map_eq_some_iff.mp hB
  rw [keeps] at linkedA linkedB
  exact once a b oldA oldB id holdA holdB linkedA linkedB

theorem LinkedOnce.put (once : LinkedOnce t) {k : EntryId} {row : EntryRow}
    (first : ∀ key old id, t.get key = some old → old.entry.conversationId = some id →
      row.entry.conversationId ≠ some id) : LinkedOnce (t.put k row) := by
  intro a b rowA rowB id hA hB linkedA linkedB
  rcases Table.get_put_eq_some hA with ⟨rfl, rfl⟩ | ⟨_, holdA⟩
  · rcases Table.get_put_eq_some hB with ⟨rfl, _⟩ | ⟨_, holdB⟩
    · rfl
    · exact absurd linkedA (first b rowB id holdB linkedB)
  · rcases Table.get_put_eq_some hB with ⟨rfl, rfl⟩ | ⟨_, holdB⟩
    · exact absurd linkedB (first a rowA id holdA linkedA)
    · exact once a b rowA rowB id holdA holdB linkedA linkedB

end Linked

theorem admits_loginOf {E : Type} {db : Db E} {user owner : UserId}
    (seen : (access db (loginOf user)).admits owner = true) : owner = user :=
  admits_of_app rfl rfl seen

section Statements
variable {E : Type} {user : UserId} {db db' : Db E}

theorem selectTopicId_spec {path : PyStr} {id : Option TopicId}
    (h : selectTopicId path (loginOf user) db = .ok (id, db')) :
    db' = db ∧ ∀ found, id = some found → topicOwner db found = some user := by
  cases h
  refine ⟨rfl, ?_⟩
  intro found hfound
  obtain ⟨row, hrow, seen, _⟩ := mem_select.mp (List.mem_of_head? hfound)
  exact (ownerOf_of_get hrow).trans (congrArg some (admits_loginOf seen))

theorem selectTopicPath_spec {id : TopicId} {path : Option PyStr}
    (h : selectTopicPath id (loginOf user) db = .ok (path, db')) :
    db' = db ∧ (path.isSome → topicOwner db id = some user) := by
  cases h
  refine ⟨rfl, ?_⟩
  intro present
  rw [Option.isSome_map, Option.isSome_iff_exists] at present
  obtain ⟨row, hrow⟩ := present
  obtain ⟨hrow, seen⟩ := fetch_eq_some.mp hrow
  exact (ownerOf_of_get hrow).trans (congrArg some (admits_loginOf seen))

theorem insertTopic_spec (sound : Sound db) {path title description : PyStr} {now : Time}
    {id : TopicId} (h : insertTopic path title description now (loginOf user) db = .ok (id, db')) :
    Moves user db db' ∧ topicOwner db' id = some user := by
  unfold insertTopic at h
  obtain ⟨u, hu, hwrite⟩ := Fallible.bind_eq_ok.mp h
  obtain rfl := insertingUser_ok rfl hu
  split at hwrite
  · cases hwrite
  · cases hwrite
    have fresh := Table.get_freshKey db.topics
    refine ⟨moves_topics sound (SameBut.put rfl ?_) (grows_put_fresh fresh), ?_⟩
    · intro old hold
      rw [fresh] at hold
      cases hold
    · exact ownerOf_of_get (Table.get_put_self _ _ _)

/-- An update of visible topics that leaves the user column alone. -/
theorem moves_update_topics (sound : Sound db) {p : TopicId → TopicRow → Bool}
    {f : TopicRow → TopicRow} (keeps : ∀ row, (f row).userId = row.userId) :
    Moves user db { db with
      topics := update (access db (loginOf user)) TopicRow.userId db.topics p f } := by
  exact moves_topics sound (SameBut.update (fun _ => admits_loginOf) keeps) (grows_update keeps)

theorem moves_touched (sound : Sound db) (id : TopicId) (now : Time) :
    Moves user db { db with topics := touched (loginOf user) db id now } :=
  moves_update_topics sound (fun _ => rfl)

theorem updateTopicPath_spec (sound : Sound db) {id : TopicId} {path : PyStr}
    {title : Option PyStr} {now : Time} {found : Bool}
    (h : updateTopicPath id path title now (loginOf user) db = .ok (found, db')) :
    Moves user db db' := by
  unfold updateTopicPath at h
  split at h
  · cases h
    exact Moves.refl sound
  · split at h
    · cases h
    · cases h
      exact moves_update_topics sound (fun _ => rfl)

theorem touchTopic_spec (sound : Sound db) {id : TopicId} {now : Time}
    (h : touchTopic id now (loginOf user) db = .ok ((), db')) : Moves user db db' := by
  cases h
  exact moves_touched sound id now

/-- The rows that `ON DELETE RESTRICT` protects a topic for. -/
def Named (db : Db E) (topic : TopicId) : Prop :=
  (∃ key row, db.entries.get key = some row ∧ row.topicId = topic) ∨
    ∃ key row, db.conversations.get key = some row ∧ row.topicId = topic

theorem restricted_of_named {topic : TopicId} (named : Named db topic) :
    (!(db.entries.keysWhere (fun _ row => row.topicId = topic)).isEmpty ||
      !(db.conversations.keysWhere (fun _ row => row.topicId = topic)).isEmpty) = true := by
  rw [Bool.or_eq_true]
  rcases named with ⟨key, row, hrow, htopic⟩ | ⟨key, row, hrow, htopic⟩
  · left
    rw [Bool.not_eq_true', List.isEmpty_eq_false_iff_exists_mem]
    exact ⟨key, Table.mem_keysWhere.mpr ⟨row, hrow, decide_eq_true htopic⟩⟩
  · right
    rw [Bool.not_eq_true', List.isEmpty_eq_false_iff_exists_mem]
    exact ⟨key, Table.mem_keysWhere.mpr ⟨row, hrow, decide_eq_true htopic⟩⟩

/-- A topic that a row names stays when a deletion is not refused: it is another one, or
the session does not see it. -/
theorem named_topic_kept {id topic : TopicId} {owner : UserId} {db' : Db E}
    (h : deleteTopicRow id (loginOf user) db = .ok ((), db'))
    (owned : topicOwner db topic = some owner) (named : Named db topic) :
    topicOwner db' topic = some owner := by
  unfold deleteTopicRow at h
  split at h
  · cases h
  · next free =>
    cases h
    obtain ⟨row, hrow, rfl⟩ := Option.map_eq_some_iff.mp owned
    refine ownerOf_of_get ?_
    rw [get_delete, hrow, Option.filter_eq_some_iff]
    refine ⟨rfl, ?_⟩
    rw [Bool.not_eq_true', Bool.and_eq_false_iff]
    by_cases hid : topic = id
    · subst hid
      left
      by_contra seen
      rw [Bool.not_eq_false] at seen
      have visible : (fetch (access db (loginOf user)) TopicRow.userId db.topics topic).isSome :=
        Option.isSome_iff_exists.mpr ⟨row, fetch_eq_some.mpr ⟨hrow, seen⟩⟩
      exact free (Bool.and_eq_true _ _ ▸ ⟨visible, restricted_of_named named⟩)
    · right
      exact decide_eq_false hid

/-- The topic is gone only when no row names it. -/
theorem deleteTopicRow_spec (sound : Sound db) {id : TopicId}
    (h : deleteTopicRow id (loginOf user) db = .ok ((), db')) : Sound db' ∧ Within user db db' := by
  have kept : ∀ topic owner, topicOwner db topic = some owner → Named db topic →
      topicOwner db' topic = some owner := fun _ _ => named_topic_kept h
  unfold deleteTopicRow at h
  split at h
  · cases h
  · cases h
    have same : SameBut TopicRow.userId user db.topics (delete (access db (loginOf user))
        TopicRow.userId db.topics (fun key _ => decide (key = id))) :=
      SameBut.delete (fun _ => admits_loginOf)
    refine ⟨?_, ⟨{ Untouched.refl db with topics := same }, { Keeps.refl db with }⟩⟩
    refine { sound with entryTopics := ?_, conversationTopics := ?_ }
    · intro key row topic hrow href
      exact kept topic _ (sound.entryTopics key row topic hrow href)
        (Or.inl ⟨key, row, hrow, Option.some.inj href⟩)
    · intro key row topic hrow href
      exact kept topic _ (sound.conversationTopics key row topic hrow href)
        (Or.inr ⟨key, row, hrow, Option.some.inj href⟩)

/-- An update of entries, by whomever, that leaves the user and the references alone. -/
theorem sound_update_entries (sound : Sound db) (a : Access UserId)
    (p : EntryId → EntryRow → Bool) {f : EntryRow → EntryRow}
    (keeps : ∀ row, (f row).userId = row.userId ∧ (f row).topicId = row.topicId ∧
      (f row).entry.conversationId = row.entry.conversationId) :
    Sound { db with entries := update a EntryRow.userId db.entries p f } := by
  have owners := ownerOf_update (t := db.entries) (a := a) (p := p) (fun row => (keeps row).1)
  have topics := sound.entryTopics.update (a := a) (q := p)
    (fun _ row => ⟨(keeps row).1, congrArg some (keeps row).2.1⟩)
  have linked := sound.linkedEntries.update (a := a) (q := p)
    (fun _ row => ⟨(keeps row).1, (keeps row).2.2⟩)
  have once : LinkedOnce (update a EntryRow.userId db.entries p f) := by
    refine sound.linkedOnce.update ?_
    intro k row
    split
    · exact (keeps row).2.2
    · rfl
  exact { sound with
    entryTopics := topics
    linkedEntries := linked
    embeddings := by rw [entryOwner, owners]; exact sound.embeddings
    linkedOnce := once }

theorem moves_update_entries (sound : Sound db) (p : EntryId → EntryRow → Bool)
    (f : EntryRow → EntryRow)
    (keeps : ∀ row, (f row).userId = row.userId ∧ (f row).topicId = row.topicId ∧
      (f row).entry.conversationId = row.entry.conversationId) :
    Moves user db { db with
      entries := update (access db (loginOf user)) EntryRow.userId db.entries p f } := by
  have after := sound_update_entries sound (access db (loginOf user)) p keeps
  exact moves_entries sound (SameBut.update (fun _ => admits_loginOf) (fun row => (keeps row).1))
    (grows_update (fun row => (keeps row).1)) after.entryTopics after.linkedEntries
    after.linkedOnce

theorem moves_edit_entries (sound : Sound db) (p : EntryId → EntryRow → Bool)
    (f : Entry → Entry) (now : Time)
    (keeps : ∀ entry, (f entry).conversationId = entry.conversationId) :
    Moves user db { db with
      entries := update (access db (loginOf user)) EntryRow.userId db.entries p
        (EntryRow.edit f now) } :=
  moves_update_entries sound p _ (fun row => ⟨rfl, rfl, keeps row.entry⟩)

/-- A new row of the user under a topic of the user. -/
theorem moves_insert_entry (sound : Sound db) {topicId : TopicId} (entry : Entry) (now : Time)
    (topic : topicOwner db topicId = some user)
    (linked : ∀ id, entry.conversationId = some id → conversationOwner db id = some user)
    (first : ∀ key old id, db.entries.get key = some old → old.entry.conversationId = some id →
      entry.conversationId ≠ some id) :
    Moves user db { db with
      entries := db.entries.put db.entries.freshKey ⟨user, topicId, entry, now⟩ } := by
  have fresh := Table.get_freshKey db.entries
  refine moves_entries sound (SameBut.put rfl ?_) (grows_put_fresh fresh) ?_ ?_ ?_
  · intro old hold
    rw [fresh] at hold
    cases hold
  · refine sound.entryTopics.put ?_
    intro id href
    rw [← Option.some.inj href]
    exact topic
  · exact sound.linkedEntries.put linked
  · exact sound.linkedOnce.put first

theorem insertEntry_spec (sound : Sound db) {topicId : TopicId} {content : PyStr}
    {reasoning : Option PyStr} {tags : List PyStr} {date : PyStr} {now : Time} {id : EntryId}
    (topic : topicOwner db topicId = some user)
    (h : insertEntry topicId content reasoning tags date now (loginOf user) db = .ok (id, db')) :
    Moves user db db' ∧ entryOwner db' id = some user := by
  unfold insertEntry at h
  obtain ⟨u, hu, hrest⟩ := Fallible.bind_eq_ok.mp h
  obtain rfl := insertingUser_ok rfl hu
  obtain ⟨_, _, hwrite⟩ := Fallible.bind_eq_ok.mp hrest
  cases hwrite
  have inserted := moves_insert_entry sound (newEntry content reasoning none tags date) now topic
    (fun _ h => nomatch h) (fun _ _ _ _ _ h => nomatch h)
  refine ⟨inserted.trans (fun after => moves_touched after topicId now), ?_⟩
  · exact ownerOf_of_get (Table.get_put_self _ _ _)

theorem selectActive_spec {id : EntryId} {row : Option EntryRow}
    (h : selectActive id (loginOf user) db = .ok (row, db')) :
    db' = db ∧ (row.isSome → entryOwner db id = some user) := by
  cases h
  refine ⟨rfl, ?_⟩
  intro present
  obtain ⟨row, hrow⟩ := Option.isSome_iff_exists.mp present
  obtain ⟨hfetch, _⟩ := Option.filter_eq_some_iff.mp hrow
  obtain ⟨hget, seen⟩ := fetch_eq_some.mp hfetch
  exact (ownerOf_of_get hget).trans (congrArg some (admits_loginOf seen))

theorem updateEntryRow_spec (sound : Sound db) {id : EntryId} {f : Entry → Entry} {now : Time}
    (keeps : ∀ entry, (f entry).conversationId = entry.conversationId)
    (h : updateEntryRow id f now (loginOf user) db = .ok ((), db')) : Moves user db db' := by
  unfold updateEntryRow at h
  split at h
  · cases h
    exact Moves.refl sound
  · next row _ =>
    cases h
    exact (moves_edit_entries sound (fun key _ => decide (key = id)) f now keeps).trans
      (fun after => moves_touched after row.topicId now)

theorem moves_delete_embeddings (sound : Sound db) (p : EntryId → EmbeddingRow E → Bool) :
    Moves user db { db with
      embeddings := delete (access db (loginOf user)) EmbeddingRow.userId db.embeddings p } :=
  moves_embeddings sound (SameBut.delete (fun _ => admits_loginOf))
    (sound.embeddings.deleteWhere _)

theorem deleteEmbedding_spec (sound : Sound db) {id : EntryId}
    (h : deleteEmbedding id (loginOf user) db = .ok ((), db')) : Moves user db db' := by
  cases h
  exact moves_delete_embeddings sound _

theorem softDelete_spec (sound : Sound db) {id : EntryId} {now : Time} {topic : Option TopicId}
    (h : softDelete id now (loginOf user) db = .ok (topic, db')) : Moves user db db' := by
  unfold softDelete at h
  split at h
  · cases h
    exact Moves.refl sound
  · next row _ =>
    cases h
    have edited : Moves user db _ := moves_edit_entries sound (fun key _ => decide (key = id))
      (fun entry => { entry with deletedAt := some now }) now (fun _ => rfl)
    refine edited.trans (fun after => ?_)
    exact (moves_delete_embeddings after (fun key _ => decide (key = id))).trans
      (fun after => moves_touched after row.topicId now)

theorem setIndexedAt_spec (sound : Sound db) {p : EntryId → EntryRow → Bool}
    {indexedAt : Option Time} (h : setIndexedAt p indexedAt (loginOf user) db = .ok ((), db')) :
    Moves user db db' := by
  cases h
  exact moves_update_entries sound p _ (fun _ => ⟨rfl, rfl, rfl⟩)

theorem moveRows_spec (sound : Sound db) {p : EntryId → EntryRow → Bool} {dest : TopicId}
    {now : Time} {moved : List EntryId} (topic : topicOwner db dest = some user)
    (h : moveRows p dest now (loginOf user) db = .ok (moved, db')) : Moves user db db' := by
  unfold moveRows at h
  simp only at h
  split at h
  · cases h
    exact Moves.refl sound
  · obtain ⟨_, _, hwrite⟩ := Fallible.bind_eq_ok.mp h
    cases hwrite
    refine moves_entries sound (SameBut.update (fun _ => admits_loginOf) (fun _ => rfl))
      (grows_update (fun _ => rfl)) ?_ ?_ ?_
    · exact sound.entryTopics.update_to (fun _ => admits_loginOf) topic (fun _ _ => ⟨rfl, rfl⟩)
    · exact sound.linkedEntries.update (fun _ _ => ⟨rfl, rfl⟩)
    · refine sound.linkedOnce.update ?_
      intro k row
      split
      · rfl
      · rfl

/-- Under either role; a row that is there already is the user's own. -/
theorem upsertEmbedding_spec (sound : Sound db) {login : Login} {id : EntryId} {embedding : E}
    (setting : login.currentUserId = some user) (entry : entryOwner db id = some user)
    (h : upsertEmbedding id embedding login db = .ok ((), db')) : Moves user db db' := by
  have written : db' = { db with embeddings := db.embeddings.put id ⟨user, embedding⟩ } := by
    unfold upsertEmbedding at h
    obtain ⟨u, hu, hrest⟩ := Fallible.bind_eq_ok.mp h
    obtain rfl := insertingUser_ok setting hu
    split at hrest
    · split at hrest
      · cases hrest
        rfl
      · cases hrest
    · obtain ⟨_, _, hwrite⟩ := Fallible.bind_eq_ok.mp hrest
      cases hwrite
      rfl
  subst written
  refine moves_embeddings sound (SameBut.put rfl ?_) (sound.embeddings.put ?_)
  · intro old hold
    have owner := sound.embeddings id old id hold rfl
    exact Option.some.inj (owner.symm.trans entry)
  · rintro _ ⟨⟩
    exact entry

theorem moves_update_conversations (sound : Sound db) (p : ConversationId → ConversationRow → Bool)
    {f : ConversationRow → ConversationRow}
    (keeps : ∀ row, (f row).userId = row.userId ∧ (f row).topicId = row.topicId) :
    Moves user db { db with
      conversations := update (access db (loginOf user)) ConversationRow.userId db.conversations
        p f } := by
  exact moves_conversations sound
    (SameBut.update (fun _ => admits_loginOf) (fun row => (keeps row).1))
    (grows_update (fun row => (keeps row).1))
    (sound.conversationTopics.update
      (fun _ row => ⟨(keeps row).1, congrArg some (keeps row).2⟩))

theorem upsertConversation_spec (sound : Sound db)
    {record : JournalConversations.ConversationRow} {now : Time} {saved : ConversationId × Bool}
    (topic : topicOwner db record.topicId = some user)
    (h : upsertConversation record now (loginOf user) db = .ok (saved, db')) :
    Moves user db db' ∧ conversationOwner db' saved.1 = some user := by
  unfold upsertConversation at h
  obtain ⟨u, hu, hrest⟩ := Fallible.bind_eq_ok.mp h
  obtain rfl := insertingUser_ok rfl hu
  split at hrest
  · next id found =>
    obtain ⟨row, hrow, hslot⟩ := Table.mem_keysWhere.mp (List.mem_of_head? found)
    -- the row that conflicts is under the same topic, so it is the user's too
    have mine : row.userId = u := by
      have owner := sound.conversationTopics id row row.topicId hrow rfl
      have same : row.topicId = record.topicId := congrArg Prod.fst (of_decide_eq_true hslot)
      rw [same] at owner
      exact Option.some.inj (owner.symm.trans topic)
    split at hrest
    · cases hrest
      refine ⟨moves_conversations sound (SameBut.modify hrow mine (fun _ => rfl))
        (grows_modify (fun _ => rfl)) ?_, ?_⟩
      · refine sound.conversationTopics.update_same ?_
        intro k old
        split
        · exact ⟨rfl, rfl⟩
        · exact ⟨rfl, rfl⟩
      · exact (ownerOf_of_get (Table.get_modify_self _ hrow)).trans (congrArg some mine)
    · cases hrest
  · obtain ⟨_, _, hwrite⟩ := Fallible.bind_eq_ok.mp hrest
    cases hwrite
    have fresh := Table.get_freshKey db.conversations
    refine ⟨moves_conversations sound (SameBut.put rfl ?_) (grows_put_fresh fresh)
      (sound.conversationTopics.put ?_), ?_⟩
    · intro old hold
      rw [fresh] at hold
      cases hold
    · intro id href
      rw [← Option.some.inj href]
      exact topic
    · exact ownerOf_of_get (Table.get_put_self _ _ _)

theorem deleteMessages_spec (sound : Sound db) {id : ConversationId}
    (h : deleteMessages id (loginOf user) db = .ok ((), db')) : Moves user db db' := by
  cases h
  exact moves_messages sound (SameBut.delete (fun _ => admits_loginOf))
    (sound.messages.deleteWhere _)

theorem insertMessage_spec (sound : Sound db) {message : JournalConversations.MessageRow}
    (conversation : conversationOwner db message.conversationId = some user)
    (h : insertMessage message (loginOf user) db = .ok ((), db')) : Moves user db db' := by
  unfold insertMessage at h
  obtain ⟨u, hu, hrest⟩ := Fallible.bind_eq_ok.mp h
  obtain rfl := insertingUser_ok rfl hu
  obtain ⟨_, _, hwrite⟩ := Fallible.bind_eq_ok.mp hrest
  cases hwrite
  refine moves_messages sound (SameBut.put rfl ?_) (sound.messages.put ?_)
  · intro old hold
    rw [Table.get_freshKey] at hold
    cases hold
  · intro id href
    rw [← Option.some.inj href]
    exact conversation

/-- The session sees no entry of the conversation. -/
def Unlinked (user : UserId) (id : ConversationId) (db : Db E) : Prop :=
  ∀ key row, db.entries.get key = some row → row.entry.conversationId = some id →
    ¬ (access db (loginOf user)).admits row.userId = true

theorem selectLinked_spec {id : ConversationId} {found : Option EntryId}
    (h : selectLinked id (loginOf user) db = .ok (found, db')) :
    db' = db ∧ (∀ entryId, found = some entryId → entryOwner db entryId = some user) ∧
      (found = none → Unlinked user id db) := by
  cases h
  refine ⟨rfl, ?_, ?_⟩
  · intro entryId hfound
    obtain ⟨row, hrow, seen, _⟩ := mem_select.mp (List.mem_of_head? hfound)
    exact (ownerOf_of_get hrow).trans (congrArg some (admits_loginOf seen))
  intro none key row hrow linked seen
  rw [List.head?_eq_none_iff] at none
  have mem : key ∈ select (access db (loginOf user)) EntryRow.userId db.entries
      (fun _ row => row.entry.conversationId = some id) :=
    mem_select.mpr ⟨row, hrow, seen, decide_eq_true linked⟩
  rw [none] at mem
  cases mem

theorem rewriteLinked_spec (sound : Sound db) {id : EntryId} {content date : PyStr} {now : Time}
    (h : rewriteLinked id content date now (loginOf user) db = .ok ((), db')) :
    Moves user db db' := by
  cases h
  exact moves_edit_entries sound _ _ now (fun _ => rfl)

theorem insertLinked_spec (sound : Sound db) {topicId : TopicId} {id : ConversationId}
    {content date : PyStr} {now : Time} {entryId : EntryId}
    (topic : topicOwner db topicId = some user)
    (conversation : conversationOwner db id = some user) (unlinked : Unlinked user id db)
    (h : insertLinked topicId id content date now (loginOf user) db = .ok (entryId, db')) :
    Moves user db db' ∧ entryOwner db' entryId = some user := by
  unfold insertLinked at h
  obtain ⟨u, hu, hrest⟩ := Fallible.bind_eq_ok.mp h
  obtain rfl := insertingUser_ok rfl hu
  obtain ⟨_, _, hrest⟩ := Fallible.bind_eq_ok.mp hrest
  obtain ⟨_, _, hwrite⟩ := Fallible.bind_eq_ok.mp hrest
  cases hwrite
  refine ⟨moves_insert_entry sound (newEntry content none (some id) [py "conversation"] date) now
    topic ?_ ?_, ownerOf_of_get (Table.get_put_self _ _ _)⟩
  · rintro _ ⟨⟩
    exact conversation
  · rintro key old _ hold linked ⟨⟩
    -- an entry of the conversation has its user, who may insert rows and so sees it
    have owner := sound.linkedEntries key old id hold linked
    have mine : old.userId = u := Option.some.inj (owner.symm.trans conversation)
    refine unlinked key old hold linked ?_
    rw [mine]
    simp only [insertingUser] at hu
    split at hu
    · next seen => exact seen
    · cases hu

theorem updatePlatform_spec (sound : Sound db) {id : ConversationId} {platform : Platform}
    {platformId : PyStr}
    (h : updatePlatform id platform platformId (loginOf user) db = .ok ((), db')) :
    Moves user db db' := by
  unfold updatePlatform at h
  split at h
  · cases h
    exact Moves.refl sound
  · split at h
    · cases h
    · cases h
      exact moves_update_conversations sound _ (fun _ => ⟨rfl, rfl⟩)

theorem updateProcessedAt_spec (sound : Sound db) {id : ConversationId} {now : Time}
    (h : updateProcessedAt id now (loginOf user) db = .ok ((), db')) : Moves user db db' := by
  cases h
  exact moves_update_conversations sound _ (fun _ => ⟨rfl, rfl⟩)

theorem reassignConversations_spec (sound : Sound db) {source dest : TopicId} {now : Time}
    {moved : Nat} (topic : topicOwner db dest = some user)
    (h : reassignConversations source dest now (loginOf user) db = .ok (moved, db')) :
    Moves user db db' := by
  unfold reassignConversations at h
  simp only at h
  split at h
  · cases h
    exact Moves.refl sound
  · split at h
    · cases h
    · obtain ⟨_, _, hwrite⟩ := Fallible.bind_eq_ok.mp h
      cases hwrite
      exact moves_conversations sound
        (SameBut.update (fun _ => admits_loginOf) (fun _ => rfl)) (grows_update (fun _ => rfl))
        (sound.conversationTopics.update_to (fun _ => admits_loginOf) topic
          (fun _ _ => ⟨rfl, rfl⟩))

theorem insertPending_spec (sound : Sound db) {id : ConversationId} {source : PyStr}
    {periodStart : Period} {now : Time} {jobId : JobId}
    (conversation : conversationOwner db id = some user)
    (h : insertPending user id source periodStart now (loginOf user) db = .ok (jobId, db')) :
    Moves user db db' := by
  unfold insertPending at h
  split at h
  · split at h
    · cases h
    · next jobs hjobs =>
      obtain ⟨_, _, hwrite⟩ := Fallible.bind_eq_ok.mp h
      cases hwrite
      unfold ExtractionJobs.createPending at hjobs
      split at hjobs
      · cases hjobs
        refine moves_jobs sound (SameBut.put rfl ?_) (sound.jobs.put ?_)
        · intro old hold
          rw [Table.get_freshKey] at hold
          cases hold
        · intro id href
          rw [← Option.some.inj href]
          exact conversation
      · cases hjobs
  · cases h

theorem moves_update_jobs (sound : Sound db) (p : JobId → JobRow → Bool) {f : JobRow → JobRow}
    (keeps : ∀ row, (f row).userId = row.userId ∧ (f row).conversationId = row.conversationId) :
    Moves user db { db with
      jobs := update (access db (loginOf user)) JobRow.userId db.jobs p f } :=
  moves_jobs sound (SameBut.update (fun _ => admits_loginOf) (fun row => (keeps row).1))
    (sound.jobs.update (fun _ row => ⟨(keeps row).1, congrArg some (keeps row).2⟩))

theorem updateJob_spec (sound : Sound db) {id : JobId} {p : JobRow → Bool} {f : JobRow → JobRow}
    {updated : Bool}
    (keeps : ∀ row, (f row).userId = row.userId ∧ (f row).conversationId = row.conversationId)
    (h : updateJob id p f (loginOf user) db = .ok (updated, db')) : Moves user db db' := by
  cases h
  exact moves_update_jobs sound _ keeps

theorem markCompleted_keeps (topicsCreated entriesCreated : Nat) (centsSpent : Cents) (now : Time)
    (row : JobRow) :
    (row.markCompleted topicsCreated entriesCreated centsSpent now).userId = row.userId ∧
      (row.markCompleted topicsCreated entriesCreated centsSpent now).conversationId =
        row.conversationId := by
  unfold JobRow.markCompleted
  split
  · exact ⟨rfl, rfl⟩
  · exact ⟨rfl, rfl⟩

theorem markFailed_keeps (errorCode : ErrorCode) (now : Time) (row : JobRow) :
    (row.markFailed errorCode now).userId = row.userId ∧
      (row.markFailed errorCode now).conversationId = row.conversationId := by
  unfold JobRow.markFailed
  split
  · exact ⟨rfl, rfl⟩
  · exact ⟨rfl, rfl⟩

theorem markRunning_keeps (now : Time) (row : JobRow) :
    (row.markRunning now).userId = row.userId ∧
      (row.markRunning now).conversationId = row.conversationId := by
  unfold JobRow.markRunning
  split
  · exact ⟨rfl, rfl⟩
  · exact ⟨rfl, rfl⟩

theorem updateRunning_spec (sound : Sound db) {id : JobId} {now : Time}
    (h : updateRunning id now (loginOf user) db = .ok ((), db')) : Moves user db db' := by
  unfold updateRunning at h
  split at h
  · cases h
    exact Moves.refl sound
  · next row hfetch =>
    obtain ⟨hrow, seen⟩ := fetch_eq_some.mp hfetch
    split at h
    · cases h
    · next jobs hjobs =>
      cases h
      obtain rfl := ExtractionJobs.markRunning_some hrow hjobs
      refine moves_jobs sound (SameBut.modify hrow (admits_loginOf seen)
        (fun row => (markRunning_keeps now row).1)) (sound.jobs.update_same ?_)
      intro k old
      split
      · exact ⟨(markRunning_keeps now old).1, congrArg some (markRunning_keeps now old).2⟩
      · exact ⟨rfl, rfl⟩

theorem insertAudit_spec (sound : Sound db) {row : AuditRow}
    (h : insertAudit row (loginOf user) db = .ok ((), db')) : Moves user db db' := by
  unfold insertAudit at h
  split at h
  · cases h
  · split at h
    · next mine =>
      cases h
      exact moves_audit sound (Option.some.inj mine).symm
    · cases h

end Statements

end Tenancy
