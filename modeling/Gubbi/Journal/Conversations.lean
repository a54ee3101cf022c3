import Gubbi.Journal.Entries
import Gubbi.Validation

/-!
# Saved conversations of one user

`save_conversation` upserts on the topic and the slug of the title, and rewrites
the messages of the row it lands on. The two unique indexes of `conversations`
are fields of the table, so every write of a row proves that it respects them.
Archive files, search vectors and update times are left out, and the topic is
one that `validate_topic` accepts.
-/

namespace JournalConversations

open Text Validation JournalEntries

universe u

abbrev TopicId := Nat
/-- An instant; `isoformat` and `fromisoformat` cancel on it. -/
abbrev Timestamp := Int

inductive Platform
  | chatgpt
  | claude
  deriving DecidableEq, Repr

def Platform.text : Platform → PyStr
  | .chatgpt => py "chatgpt"
  | .claude => py "claude"

inductive Role
  | user
  | assistant
  | system
  deriving DecidableEq, Repr

def Role.text : Role → PyStr
  | .user => py "user"
  | .assistant => py "assistant"
  | .system => py "system"

structure Message where
  role : Role
  content : PyStr
  timestamp : Option Timestamp
  deriving DecidableEq

structure MessageRow where
  conversationId : ConversationId
  role : Role
  timestamp : Option Timestamp
  position : Nat
  content : PyStr
  deriving DecidableEq

structure TopicRow where
  path : PyStr
  title : PyStr
  deriving DecidableEq

structure ConversationRow where
  topicId : TopicId
  slug : PyStr
  title : PyStr
  source : PyStr
  summary : PyStr
  tags : List PyStr
  participants : List PyStr
  messageCount : Nat
  createdAt : PyStr
  platform : Option Platform
  platformId : Option PyStr
  deriving DecidableEq

/-- The columns of `idx_conv_platform_dedup`; a row without them is not indexed. -/
def ConversationRow.platformKey (row : ConversationRow) : Option (Platform × PyStr) :=
  match row.platform, row.platformId with
  | some platform, some platformId => some (platform, platformId)
  | _, _ => none

abbrev Rows := Table ConversationId ConversationRow

/-- `conversations_topic_id_slug_key`. -/
def SlugsUnique (rows : Rows) : Prop :=
  ∀ a b rowA rowB, rows.get a = some rowA → rows.get b = some rowB →
    rowA.topicId = rowB.topicId → rowA.slug = rowB.slug → a = b

/-- `idx_conv_platform_dedup`. -/
def PlatformsUnique (rows : Rows) : Prop :=
  ∀ a b rowA rowB key, rows.get a = some rowA → rows.get b = some rowB →
    rowA.platformKey = some key → rowB.platformKey = some key → a = b

theorem SlugsUnique.modify {rows : Rows} (unique : SlugsUnique rows) (id : ConversationId)
    {f : ConversationRow → ConversationRow}
    (keeps : ∀ row, (f row).topicId = row.topicId ∧ (f row).slug = row.slug) :
    SlugsUnique (rows.modify id f) := by
  have original : ∀ key row, (rows.modify id f).get key = some row →
      ∃ old, rows.get key = some old ∧ row.topicId = old.topicId ∧ row.slug = old.slug := by
    intro key row hrow
    rw [Table.get_modify] at hrow
    by_cases hkey : key = id
    · rw [if_pos hkey] at hrow
      obtain ⟨old, hold, rfl⟩ := Option.map_eq_some_iff.mp hrow
      exact ⟨old, hold, keeps old⟩
    · rw [if_neg hkey] at hrow
      exact ⟨row, hrow, rfl, rfl⟩
  intro a b rowA rowB hA hB htopic hslug
  obtain ⟨oldA, hA, htopicA, hslugA⟩ := original a rowA hA
  obtain ⟨oldB, hB, htopicB, hslugB⟩ := original b rowB hB
  exact unique a b oldA oldB hA hB (htopicA.symm.trans (htopic.trans htopicB))
    (hslugA.symm.trans (hslug.trans hslugB))

theorem SlugsUnique.put {rows : Rows} (unique : SlugsUnique rows) {id : ConversationId}
    {row : ConversationRow} (new : ∀ key old, rows.get key = some old →
      ¬ (old.topicId = row.topicId ∧ old.slug = row.slug)) : SlugsUnique (rows.put id row) := by
  intro a b rowA rowB hA hB htopic hslug
  rcases Table.get_put_eq_some hA with ⟨rfl, rfl⟩ | ⟨_, oldA⟩
  · rcases Table.get_put_eq_some hB with ⟨rfl, _⟩ | ⟨_, oldB⟩
    · rfl
    · exact False.elim (new b rowB oldB ⟨htopic.symm, hslug.symm⟩)
  · rcases Table.get_put_eq_some hB with ⟨rfl, rfl⟩ | ⟨_, oldB⟩
    · exact False.elim (new a rowA oldA ⟨htopic, hslug⟩)
    · exact unique a b rowA rowB oldA oldB htopic hslug

theorem PlatformsUnique.modify {rows : Rows} (unique : PlatformsUnique rows) (id : ConversationId)
    {f : ConversationRow → ConversationRow}
    (keeps : ∀ row key, (f row).platformKey = some key → row.platformKey = some key ∨
      ∀ other old, rows.get other = some old → old.platformKey = some key → other = id) :
    PlatformsUnique (rows.modify id f) := by
  have original : ∀ a row key, (rows.modify id f).get a = some row → row.platformKey = some key →
      (∃ old, rows.get a = some old ∧ old.platformKey = some key) ∨
        (a = id ∧ ∀ other old, rows.get other = some old → old.platformKey = some key →
          other = id) := by
    intro a row key hrow hkey
    rw [Table.get_modify] at hrow
    by_cases ha : a = id
    · rw [if_pos ha] at hrow
      obtain ⟨old, hold, rfl⟩ := Option.map_eq_some_iff.mp hrow
      rcases keeps old key hkey with hsame | honly
      · exact Or.inl ⟨old, hold, hsame⟩
      · exact Or.inr ⟨ha, honly⟩
    · rw [if_neg ha] at hrow
      exact Or.inl ⟨row, hrow, hkey⟩
  intro a b rowA rowB key hA hB hkeyA hkeyB
  rcases original a rowA key hA hkeyA with ⟨oldA, hA, hkeyA⟩ | ⟨ha, onlyA⟩
  · rcases original b rowB key hB hkeyB with ⟨oldB, hB, hkeyB⟩ | ⟨hb, onlyB⟩
    · exact unique a b oldA oldB key hA hB hkeyA hkeyB
    · exact (onlyB a oldA hA hkeyA).trans hb.symm
  · rcases original b rowB key hB hkeyB with ⟨oldB, hB, hkeyB⟩ | ⟨hb, _⟩
    · exact ha.trans (onlyA b oldB hB hkeyB).symm
    · exact ha.trans hb.symm

theorem PlatformsUnique.put {rows : Rows} (unique : PlatformsUnique rows) {id : ConversationId}
    {row : ConversationRow} (unkeyed : row.platformKey = none) :
    PlatformsUnique (rows.put id row) := by
  have original : ∀ a found key, (rows.put id row).get a = some found →
      found.platformKey = some key → rows.get a = some found := by
    intro a found key hfound hkey
    rcases Table.get_put_eq_some hfound with ⟨_, rfl⟩ | ⟨_, hfound⟩
    · rw [unkeyed] at hkey
      cases hkey
    · exact hfound
  intro a b rowA rowB key hA hB hkeyA hkeyB
  exact unique a b rowA rowB key (original a rowA key hA hkeyA) (original b rowB key hB hkeyB)
    hkeyA hkeyB

/-- The `conversations` table of one user with its unique indexes. -/
structure Conversations where
  rows : Rows
  slugs : SlugsUnique rows
  platforms : PlatformsUnique rows

def Conversations.empty : Conversations where
  rows := Table.empty
  slugs := fun _ _ _ _ h => by cases h
  platforms := fun _ _ _ _ _ h => by cases h

/-- The row that `ON CONFLICT (topic_id, slug)` finds. -/
def findSlug (rows : Rows) (topicId : TopicId) (slug : PyStr) : Option ConversationId :=
  (rows.keysWhere (fun _ row => row.topicId = topicId && row.slug = slug)).head?

theorem findSlug_some {rows : Rows} {topicId : TopicId} {slug : PyStr} {id : ConversationId}
    (h : findSlug rows topicId slug = some id) :
    ∃ row, rows.get id = some row ∧ row.topicId = topicId ∧ row.slug = slug := by
  obtain ⟨row, hrow, hwhere⟩ := Table.mem_keysWhere.mp (List.mem_of_head? h)
  simp only [Bool.and_eq_true, decide_eq_true_eq] at hwhere
  exact ⟨row, hrow, hwhere⟩

theorem findSlug_none {rows : Rows} {topicId : TopicId} {slug : PyStr}
    (h : findSlug rows topicId slug = none) (key : ConversationId) (row : ConversationRow)
    (hrow : rows.get key = some row) : ¬ (row.topicId = topicId ∧ row.slug = slug) := by
  rintro ⟨htopic, hslug⟩
  have hmem : key ∈ rows.keysWhere (fun _ row => row.topicId = topicId && row.slug = slug) :=
    Table.mem_keysWhere.mpr ⟨row, hrow, by simp [htopic, hslug]⟩
  rw [findSlug, List.head?_eq_none_iff] at h
  rw [h] at hmem
  cases hmem

/-- What `DO UPDATE` takes from the excluded row. -/
def ConversationRow.overwrite (row excluded : ConversationRow) : ConversationRow :=
  { row with
    source := excluded.source
    title := excluded.title
    summary := excluded.summary
    tags := excluded.tags
    participants := excluded.participants
    messageCount := excluded.messageCount }

/-- `_upsert_conversation_record`. An inserted row has no platform columns yet; an
updated one keeps those it has. -/
def upsertConversationRecord (c : Conversations) (row : ConversationRow) :
    Conversations × ConversationId :=
  match h : findSlug c.rows row.topicId row.slug with
  | some id =>
    ({ rows := c.rows.modify id (fun old => old.overwrite row)
       slugs := c.slugs.modify id (fun _ => ⟨rfl, rfl⟩)
       platforms := c.platforms.modify id (fun _ _ hkey => Or.inl hkey) }, id)
  | none =>
    ({ rows := c.rows.put c.rows.freshKey { row with platform := none, platformId := none }
       slugs := c.slugs.put (findSlug_none h)
       platforms := c.platforms.put rfl }, c.rows.freshKey)

theorem upsertConversationRecord_spec {c c' : Conversations} {row : ConversationRow}
    {id : ConversationId} (h : upsertConversationRecord c row = (c', id)) :
    (∃ stored, c'.rows.get id = some stored ∧ stored.topicId = row.topicId ∧
      stored.slug = row.slug) ∧
    (∀ other, other ≠ id → c'.rows.get other = c.rows.get other) ∧
    (∀ old, c.rows.get id = some old → old.topicId = row.topicId ∧ old.slug = row.slug) := by
  unfold upsertConversationRecord at h
  split at h
  · next found hfound =>
    cases h
    obtain ⟨old, hold, hkey⟩ := findSlug_some hfound
    refine ⟨⟨_, Table.get_modify_self _ hold, hkey⟩, fun _ => Table.get_modify_ne _ _, ?_⟩
    intro old' hold'
    obtain rfl : old = old' := Option.some.inj (hold.symm.trans hold')
    exact hkey
  · cases h
    refine ⟨⟨_, Table.get_put_self _ _ _, rfl, rfl⟩, fun _ => Table.get_put_ne _ _, ?_⟩
    intro old hold
    rw [Table.get_freshKey] at hold
    cases hold

/-- An upsert gives no row a platform key. -/
theorem upsertConversationRecord_platformKey {c c' : Conversations} {row found : ConversationRow}
    {id key : ConversationId} {platformKey : Platform × PyStr}
    (h : upsertConversationRecord c row = (c', id)) (hrow : c'.rows.get key = some found)
    (hkey : found.platformKey = some platformKey) :
    ∃ old, c.rows.get key = some old ∧ old.platformKey = some platformKey := by
  unfold upsertConversationRecord at h
  split at h
  · cases h
    rw [Table.get_modify] at hrow
    split at hrow
    · obtain ⟨old, hold, rfl⟩ := Option.map_eq_some_iff.mp hrow
      exact ⟨old, hold, hkey⟩
    · exact ⟨found, hrow, hkey⟩
  · cases h
    rcases Table.get_put_eq_some hrow with ⟨_, rfl⟩ | ⟨_, hold⟩
    · cases hkey
    · exact ⟨found, hold, hkey⟩

/-- The rows that have a platform key. -/
def holders (rows : Rows) (platform : Platform) (platformId : PyStr) : List ConversationId :=
  rows.keysWhere (fun _ row => row.platformKey = some (platform, platformId))

def existsByPlatformId (c : Conversations) (platform : Platform) (platformId : PyStr) : Bool :=
  !(holders c.rows platform platformId).isEmpty

theorem holders_all {rows : Rows} {platform : Platform} {platformId : PyStr} {id : ConversationId}
    (only : ∀ other ∈ holders rows platform platformId, other = id) (other : ConversationId)
    (old : ConversationRow) (hrow : rows.get other = some old)
    (hkey : old.platformKey = some (platform, platformId)) : other = id :=
  only other (Table.mem_keysWhere.mpr ⟨old, hrow, by simp [hkey]⟩)

def ConversationRow.setPlatform (platform : Platform) (platformId : PyStr)
    (row : ConversationRow) : ConversationRow :=
  { row with platform := some platform, platformId := some platformId }

/-- `none` is a `UniqueViolationError`. -/
def setPlatformMetadata (c : Conversations) (id : ConversationId) (platform : Platform)
    (platformId : PyStr) : Option Conversations :=
  if only : ∀ other ∈ holders c.rows platform platformId, other = id then
    some
      { rows := c.rows.modify id (ConversationRow.setPlatform platform platformId)
        slugs := c.slugs.modify id (fun _ => ⟨rfl, rfl⟩)
        platforms := c.platforms.modify id (fun _ _ hkey =>
          Or.inr (by cases hkey; exact holders_all only)) }
  else none

theorem existsByPlatformId_iff {c : Conversations} {platform : Platform} {platformId : PyStr} :
    existsByPlatformId c platform platformId = true ↔
      ∃ id row, c.rows.get id = some row ∧ row.platformKey = some (platform, platformId) := by
  rw [existsByPlatformId, Bool.not_eq_true', List.isEmpty_eq_false_iff_exists_mem]
  refine exists_congr fun id => ?_
  rw [holders, Table.mem_keysWhere]
  simp

theorem setPlatformMetadata_spec {c c' : Conversations} {id : ConversationId} {platform : Platform}
    {platformId : PyStr} {row : ConversationRow} (hrow : c.rows.get id = some row)
    (h : setPlatformMetadata c id platform platformId = some c') :
    c'.rows.get id = some (row.setPlatform platform platformId) ∧
      ∀ other, other ≠ id → c'.rows.get other = c.rows.get other := by
  unfold setPlatformMetadata at h
  split at h
  · cases h
    exact ⟨Table.get_modify_self _ hrow, fun _ => Table.get_modify_ne _ _⟩
  · cases h

/-- No unique violation when no row has the key. -/
theorem setPlatformMetadata_isSome {c : Conversations} {platform : Platform} {platformId : PyStr}
    (free : ∀ key row, c.rows.get key = some row →
      row.platformKey ≠ some (platform, platformId)) (id : ConversationId) :
    ∃ c', setPlatformMetadata c id platform platformId = some c' := by
  have only : ∀ other ∈ holders c.rows platform platformId, other = id := by
    intro other hother
    obtain ⟨row, hrow, hkey⟩ := Table.mem_keysWhere.mp hother
    exact absurd (of_decide_eq_true hkey) (free other row hrow)
  exact ⟨_, dif_pos only⟩

structure JournalDb (E : Type u) where
  topics : Table TopicId TopicRow
  conversations : Conversations
  messages : List MessageRow
  journal : Db E

inductive SaveError
  | invalidTitle (error : PyError)
  | topicNotFound
  | uniqueViolation
  deriving DecidableEq, Repr

section Saving
variable {E : Type u}

def getTopicId (db : JournalDb E) (path : PyStr) : Option TopicId :=
  (db.topics.keysWhere (fun _ row => row.path = path)).head?

/-- A new topic is found under its path. -/
theorem getTopicId_put (db : JournalDb E) (id : TopicId) (row : TopicRow) :
    ∃ found, getTopicId { db with topics := db.topics.put id row } row.path = some found := by
  have added : id ∈ (db.topics.put id row).keysWhere (fun _ other => other.path = row.path) :=
    Table.mem_keysWhere.mpr ⟨row, Table.get_put_self _ _ _, decide_eq_true rfl⟩
  exact Option.isSome_iff_exists.mp (List.isSome_head?.mpr (List.ne_nil_of_mem added))

/-- The messages of a conversation, in the order of their positions. -/
def messagesOf (db : JournalDb E) (id : ConversationId) : List MessageRow :=
  db.messages.filter (fun row => row.conversationId = id)

/-- The rows `_insert_messages` writes. -/
def messageRows (id : ConversationId) (messages : List Message) : List MessageRow :=
  messages.zipIdx.map (fun m => ⟨id, m.1.role, m.1.timestamp, m.2, m.1.content⟩)

/-- `sorted({m.role for m in messages})`. -/
def participantsOf (messages : List Message) : List PyStr :=
  ([Role.assistant, Role.system, Role.user].filter
    (fun role => messages.any (fun m => m.role = role))).map Role.text

/-- The row a save inserts, and takes its columns from on a conflict. -/
def recordOf (topicId : TopicId) (title : PyStr) (messages : List Message) (summary source : PyStr)
    (tags : List PyStr) (date : PyStr) : ConversationRow where
  topicId := topicId
  slug := slugify title
  title := title
  source := source
  summary := summary
  tags := tags
  participants := participantsOf messages
  messageCount := messages.length
  createdAt := date
  platform := none
  platformId := none

def saveConversation (db : JournalDb E) (topic title : PyStr) (messages : List Message)
    (summary source : PyStr) (tags : List PyStr) (date : PyStr) :
    Except SaveError (JournalDb E × ConversationId) :=
  match validateTitle title with
  | .error error => .error (.invalidTitle error)
  | .ok title =>
    match getTopicId db topic with
    | none => .error .topicNotFound
    | some topicId =>
      let saved := upsertConversationRecord db.conversations
        (recordOf topicId title messages summary source tags date)
      .ok ({ db with
        conversations := saved.1
        messages := db.messages.filter (fun row => row.conversationId ≠ saved.2) ++
          messageRows saved.2 messages
        journal := (upsertLinkedEntry db.journal saved.2 title summary date
          db.journal.entries.freshKey).1 }, saved.2)

theorem messagesOf_rewritten (kept : List MessageRow) (id : ConversationId)
    (messages : List Message) :
    (kept.filter (fun row => row.conversationId ≠ id) ++ messageRows id messages).filter
      (fun row => row.conversationId = id) = messageRows id messages := by
  have own : ∀ row ∈ messageRows id messages, row.conversationId = id := by
    intro row hrow
    obtain ⟨m, _, rfl⟩ := List.mem_map.mp hrow
    rfl
  have dropped : (kept.filter (fun row => row.conversationId ≠ id)).filter
      (fun row => row.conversationId = id) = [] := by
    rw [List.filter_filter, List.filter_eq_nil_iff]
    simp
  rw [List.filter_append, dropped, List.nil_append, List.filter_eq_self]
  exact fun row hrow => decide_eq_true (own row hrow)

theorem messagesOf_other (kept : List MessageRow) {id other : ConversationId} (hne : other ≠ id)
    (messages : List Message) :
    (kept.filter (fun row => row.conversationId ≠ id) ++ messageRows id messages).filter
      (fun row => row.conversationId = other) =
      kept.filter (fun row => row.conversationId = other) := by
  have foreign : (messageRows id messages).filter (fun row => row.conversationId = other) = [] := by
    rw [List.filter_eq_nil_iff]
    intro row hrow
    obtain ⟨m, _, rfl⟩ := List.mem_map.mp hrow
    simpa using Ne.symm hne
  rw [List.filter_append, foreign, List.append_nil, List.filter_filter]
  refine List.filter_congr ?_
  intro row _
  by_cases h : row.conversationId = other
  · simp [h, hne]
  · simp [h]

/-- What a save writes: its row and its messages, and nothing about another row. -/
theorem saveConversation_ok {db db' : JournalDb E} {topic title summary source date : PyStr}
    {messages : List Message} {tags : List PyStr} {id : ConversationId}
    (h : saveConversation db topic title messages summary source tags date = .ok (db', id)) :
    ∃ clean topicId, validateTitle title = .ok clean ∧ getTopicId db topic = some topicId ∧
      db'.topics = db.topics ∧
      upsertConversationRecord db.conversations
        (recordOf topicId clean messages summary source tags date) = (db'.conversations, id) ∧
      messagesOf db' id = messageRows id messages ∧
      ∀ other, other ≠ id → messagesOf db' other = messagesOf db other := by
  unfold saveConversation at h
  split at h
  · cases h
  · next clean hclean =>
    split at h
    · cases h
    · next topicId htopic =>
      cases h
      exact ⟨clean, topicId, hclean, htopic, rfl, rfl, messagesOf_rewritten _ _ _,
        fun other hne => messagesOf_other _ hne _⟩

theorem saveConversation_isOk {db : JournalDb E} {topic title clean : PyStr} {topicId : TopicId}
    (hclean : validateTitle title = .ok clean) (htopic : getTopicId db topic = some topicId)
    (messages : List Message) (summary source : PyStr) (tags : List PyStr) (date : PyStr) :
    ∃ saved, saveConversation db topic title messages summary source tags date = .ok saved := by
  rw [saveConversation, hclean]
  simp only [htopic]
  exact ⟨_, rfl⟩

end Saving

end JournalConversations
