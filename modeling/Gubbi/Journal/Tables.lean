import Gubbi.Library.Constraints
import Gubbi.Library.Queries
import Gubbi.Text

/-!
# The tables of one user

`topics`, `entries`, `conversations` and `messages` as a session of the user sees
them under row level security, with the columns that the queries of the
repositories read. Search vectors, archive paths and platform columns are left out.

The unique columns and the foreign keys are fields. So is what `save_conversation`,
the only writer of messages, keeps: `message_count` messages, numbered from 0.
-/

namespace JournalTables

open Text Queries

abbrev TopicId := Nat
abbrev EntryId := Nat
abbrev ConversationId := Nat

def isLeap (year : Nat) : Bool := year % 4 = 0 && (year % 100 ≠ 0 || year % 400 = 0)

def daysInMonth (year month : Nat) : Nat :=
  if month = 2 then if isLeap year then 29 else 28
  else if month = 4 ∨ month = 6 ∨ month = 9 ∨ month = 11 then 30
  else 31

structure Date where
  year : Nat
  month : Nat
  day : Nat
  valid : (1 ≤ year ∧ year ≤ 9999) ∧ (1 ≤ month ∧ month ≤ 12) ∧ 1 ≤ day ∧
    day ≤ daysInMonth year month
  deriving DecidableEq

/-- The last `width` decimal digits of a number. -/
def padded : Nat → Nat → PyStr
  | 0, _ => []
  | width + 1, n =>
    padded width (n / 10) ++
      [⟨0x30 + n % 10, Nat.lt_of_lt_of_le (Nat.add_lt_add_left (Nat.mod_lt n (by decide)) _)
        (by decide)⟩]

theorem length_padded (width n : Nat) : (padded width n).length = width := by
  induction width generalizing n with
  | zero => rfl
  | succ width ih => rw [padded, List.length_append, ih, List.length_singleton]

/-- `YYYY-MM`. -/
def Date.monthText (d : Date) : PyStr := padded 4 d.year ++ py "-" ++ padded 2 d.month

/-- `YYYY-MM-DD`. -/
def Date.text (d : Date) : PyStr := d.monthText ++ py "-" ++ padded 2 d.day

def Date.comparison : Comparison Date :=
  (Comparison.nat.asc Date.year).andThen
    ((Comparison.nat.asc Date.month).andThen (Comparison.nat.asc Date.day))

def Date.le (a b : Date) : Bool := (Date.comparison.cmp a b).isLE

/-- A `timestamptz` as Python reads it: a day of UTC and the microseconds since its start. -/
structure Timestamp where
  date : Date
  micros : Nat
  valid : micros < 86400000000
  deriving DecidableEq

def Timestamp.comparison : Comparison Timestamp :=
  (Date.comparison.asc Timestamp.date).andThen (Comparison.nat.asc Timestamp.micros)

/-- `isoformat()`; the microseconds are left out when there are none. -/
def Timestamp.isoformat (t : Timestamp) : PyStr :=
  let seconds := t.micros / 1000000
  let fraction := if t.micros % 1000000 = 0 then [] else py "." ++ padded 6 (t.micros % 1000000)
  t.date.text ++ py "T" ++ padded 2 (seconds / 3600) ++ py ":" ++ padded 2 (seconds / 60 % 60) ++
    py ":" ++ padded 2 (seconds % 60) ++ fraction ++ py "+00:00"

example : (Timestamp.mk ⟨2026, 2, 28, by decide⟩ 3661000500 (by decide)).isoformat =
    py "2026-02-28T01:01:01.000500+00:00" := by decide

/-- A ciphertext and its nonce. -/
abbrev Sealed := Bytes × Bytes

structure TopicRow where
  path : PyStr
  title : PyStr
  description : PyStr
  createdAt : Timestamp
  updatedAt : Timestamp
  deriving DecidableEq

structure EntryRow where
  topicId : TopicId
  date : Date
  conversationId : Option ConversationId
  tags : List PyStr
  createdAt : Timestamp
  updatedAt : Timestamp
  deletedAt : Option Timestamp
  content : Sealed
  reasoningEncrypted : Option Bytes
  reasoningNonce : Option Bytes
  deriving DecidableEq

structure ConversationRow where
  topicId : TopicId
  slug : PyStr
  source : PyStr
  title : Sealed
  summary : Sealed
  tags : List PyStr
  participants : List PyStr
  messageCount : Nat
  createdAt : Timestamp
  updatedAt : Timestamp
  deriving DecidableEq

/-- The columns of `conversations_topic_id_slug_key`. -/
def ConversationRow.slot (row : ConversationRow) : TopicId × PyStr := (row.topicId, row.slug)

structure MessageRow where
  conversationId : ConversationId
  role : PyStr
  timestamp : Option Timestamp
  position : Nat
  content : Sealed
  deriving DecidableEq

abbrev Conversations := Table ConversationId ConversationRow

def messagesOf (messages : List MessageRow) (id : ConversationId) : List MessageRow :=
  messages.filter (fun row => row.conversationId = id)

/-- Every conversation has `message_count` messages, at the positions from 0 on. -/
def Numbered (conversations : Conversations) (messages : List MessageRow) : Prop :=
  ∀ row ∈ conversations.rows,
    ((messagesOf messages row.1).map MessageRow.position).Perm (List.range row.2.messageCount)

structure Tables where
  topics : Table TopicId TopicRow
  entries : Table EntryId EntryRow
  conversations : Conversations
  messages : List MessageRow
  /-- `topics_user_path_key`. -/
  paths : topics.UniqueOn TopicRow.path
  /-- `conversations_topic_id_slug_key`. -/
  slugs : conversations.UniqueOn ConversationRow.slot
  entryTopics : entries.References EntryRow.topicId topics
  conversationTopics : conversations.References ConversationRow.topicId topics
  numbered : Numbered conversations messages

def Tables.empty : Tables where
  topics := Table.empty
  entries := Table.empty
  conversations := Table.empty
  messages := []
  paths := Table.uniqueOn_empty
  slugs := Table.uniqueOn_empty
  entryTopics := Table.references_empty
  conversationTopics := Table.references_empty
  numbered := fun _ mem => absurd mem List.not_mem_nil

structure NewMessage where
  role : PyStr
  timestamp : Option Timestamp
  content : Sealed
  deriving DecidableEq

/-- The rows of `_insert_messages`. -/
def insertMessages (id : ConversationId) (messages : List NewMessage) : List MessageRow :=
  messages.zipIdx.map (fun m => ⟨id, m.1.role, m.1.timestamp, m.2, m.1.content⟩)

/-- `DELETE FROM messages WHERE conversation_id = $1`, then the new ones. -/
def rewriteMessages (old : List MessageRow) (id : ConversationId) (messages : List NewMessage) :
    List MessageRow :=
  old.filter (fun row => row.conversationId ≠ id) ++ insertMessages id messages

theorem positions_insertMessages (id : ConversationId) (messages : List NewMessage) :
    (insertMessages id messages).map MessageRow.position = List.range messages.length := by
  rw [insertMessages, List.map_map, List.range_eq_range']
  exact List.zipIdx_map_snd 0 messages

theorem messagesOf_insertMessages (id : ConversationId) (messages : List NewMessage) :
    messagesOf (insertMessages id messages) id = insertMessages id messages := by
  refine List.filter_eq_self.mpr fun row mem => ?_
  obtain ⟨m, _, rfl⟩ := List.mem_map.mp mem
  exact decide_eq_true rfl

theorem messagesOf_rewriteMessages (old : List MessageRow) (id : ConversationId)
    (messages : List NewMessage) :
    messagesOf (rewriteMessages old id messages) id = insertMessages id messages := by
  have gone : messagesOf (old.filter (fun row => row.conversationId ≠ id)) id = [] := by
    rw [messagesOf, List.filter_filter, List.filter_eq_nil_iff]
    simp
  rw [rewriteMessages, messagesOf, List.filter_append]
  exact (congrArg (· ++ _) gone).trans (messagesOf_insertMessages id messages)

theorem messagesOf_rewriteMessages_ne (old : List MessageRow) {id other : ConversationId}
    (hne : other ≠ id) (messages : List NewMessage) :
    messagesOf (rewriteMessages old id messages) other = messagesOf old other := by
  have foreign : messagesOf (insertMessages id messages) other = [] := by
    refine List.filter_eq_nil_iff.mpr fun row mem => ?_
    obtain ⟨m, _, rfl⟩ := List.mem_map.mp mem
    simpa using Ne.symm hne
  have kept : messagesOf (old.filter (fun row => row.conversationId ≠ id)) other =
      messagesOf old other := by
    rw [messagesOf, List.filter_filter]
    refine List.filter_congr fun row _ => ?_
    by_cases h : row.conversationId = other
    · simp [h, hne]
    · simp [h]
  rw [rewriteMessages, messagesOf, List.filter_append]
  exact (congrArg₂ (· ++ ·) kept foreign).trans (List.append_nil _)

/-- A rewrite counts the messages of its conversation anew and leaves the others alone. -/
theorem Numbered.rewrite {conversations conversations' : Conversations} {old : List MessageRow}
    (numbered : Numbered conversations old) {id : ConversationId} {messages : List NewMessage}
    (written : ∀ row ∈ conversations'.rows, (row.1 = id ∧ row.2.messageCount = messages.length) ∨
      (row.1 ≠ id ∧ row ∈ conversations.rows)) :
    Numbered conversations' (rewriteMessages old id messages) := by
  intro row mem
  rcases written row mem with ⟨same, count⟩ | ⟨hne, kept⟩
  · rw [same, messagesOf_rewriteMessages, positions_insertMessages, count]
  · rw [messagesOf_rewriteMessages_ne old hne]
    exact numbered row kept

theorem Numbered.update {conversations : Conversations} {messages : List MessageRow}
    (numbered : Numbered conversations messages)
    {f : ConversationId → ConversationRow → ConversationRow}
    (keeps : ∀ id row, (f id row).messageCount = row.messageCount) :
    Numbered (conversations.update f) messages := by
  intro row mem
  obtain ⟨old, hold, rfl⟩ := List.mem_map.mp mem
  rw [keeps]
  exact numbered old hold

/-- What `DO UPDATE` takes from the excluded row. -/
def ConversationRow.overwrite (row excluded : ConversationRow) : ConversationRow :=
  { row with
    source := excluded.source
    title := excluded.title
    summary := excluded.summary
    tags := excluded.tags
    participants := excluded.participants
    messageCount := excluded.messageCount
    updatedAt := excluded.updatedAt }

/-- The writes of `save_conversation` to conversations and messages: the upsert on
the topic and the slug, and the rewrite of the messages. -/
def Tables.saveConversation (t : Tables) (excluded : ConversationRow)
    (known : excluded.topicId ∈ t.topics.keys) (messages : List NewMessage) : Tables :=
  let row := { excluded with messageCount := messages.length }
  match h : t.conversations.rows.find? (fun old => old.2.slot = row.slot) with
  | some found =>
    { t with
      conversations := t.conversations.modify found.1 (fun old => old.overwrite row)
      messages := rewriteMessages t.messages found.1 messages
      slugs := t.slugs.modify fun _ => rfl
      conversationTopics := t.conversationTopics.modify fun _ => rfl
      numbered := t.numbered.rewrite fun _ mem => (Table.mem_modify mem).imp
        (fun ⟨same, _, _, new⟩ => ⟨same, by rw [new]; rfl⟩) id }
  | none =>
    { t with
      conversations := t.conversations.put t.conversations.freshKey row
      messages := rewriteMessages t.messages t.conversations.freshKey messages
      slugs := t.slugs.put _ fun old mem same =>
        List.find?_eq_none.mp h old mem (decide_eq_true same)
      conversationTopics := t.conversationTopics.put _ known
      numbered := t.numbered.rewrite fun _ mem => (Table.mem_put mem).imp
        (fun ⟨same, new⟩ => ⟨same, by rw [new]⟩) id }

end JournalTables
