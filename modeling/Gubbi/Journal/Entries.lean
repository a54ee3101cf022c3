import Gubbi.Library.KeyedTable
import Gubbi.Text
import Mathlib.Data.List.Sort

/-!
# Entries and their embeddings

The rows of `entries` and `entry_embeddings` with the repository statements that
write them. A vector is whatever the encoder returns, so its type is a
parameter. Texts are stored encrypted; they are kept in the clear here.
-/

namespace JournalEntries

open Text

universe u

abbrev EntryId := Nat
abbrev ConversationId := Nat
abbrev Time := Nat

structure Entry where
  content : PyStr
  reasoning : Option PyStr
  conversationId : Option ConversationId
  date : PyStr
  tags : List PyStr
  indexedAt : Option Time
  deletedAt : Option Time
  deriving DecidableEq

structure Db (E : Type u) where
  entries : Table EntryId Entry
  embeddings : Table EntryId E

inductive Mode
  | replace
  | append
  deriving DecidableEq, Repr

section Repository
variable {E : Type u}

def emptyDb : Db E := ⟨Table.empty, Table.empty⟩

def append (db : Db E) (id : EntryId) (content : PyStr) (reasoning : Option PyStr)
    (tags : List PyStr) (date : PyStr) : Db E :=
  { db with
    entries := db.entries.put id
      { content := content, reasoning := reasoning, conversationId := none, date := date,
        tags := tags, indexedAt := none, deletedAt := none } }

/-- An entry that is there and not deleted. -/
def active (db : Db E) (id : EntryId) : Option Entry :=
  (db.entries.get id).filter (fun entry => entry.deletedAt = none)

def getText (db : Db E) (id : EntryId) : Option (PyStr × Option PyStr) :=
  (active db id).map (fun entry => (entry.content, entry.reasoning))

/-- `f"{old}\\n\\n{new}".strip()`. -/
def joinParagraphs (old new : PyStr) : PyStr := strip (old ++ py "\n\n" ++ new)

def newContent (mode : Mode) (old content : PyStr) : PyStr :=
  match mode with
  | .replace => content
  | .append => joinParagraphs old content

/-- Without an old reasoning, an appended one replaces it. -/
def newReasoning (mode : Mode) (old : Option PyStr) (reasoning : PyStr) : PyStr :=
  match mode, old with
  | .append, some (c :: rest) => joinParagraphs (c :: rest) reasoning
  | _, _ => reasoning

/-- Only a changed text takes the entry out of the index. -/
def Entry.update (entry : Entry) (content reasoning : Option PyStr) (mode : Mode)
    (date : Option PyStr) (tags : Option (List PyStr)) : Entry :=
  { entry with
    content := (content.map (newContent mode entry.content)).getD entry.content
    reasoning := (reasoning.map (newReasoning mode entry.reasoning)).or entry.reasoning
    date := date.getD entry.date
    tags := tags.getD entry.tags
    indexedAt := if content.isSome || reasoning.isSome then none else entry.indexedAt }

/-- `none` is `EntryNotFoundError`. A changed text deletes the embedding. -/
def update (db : Db E) (id : EntryId) (content reasoning : Option PyStr) (mode : Mode)
    (date : Option PyStr) (tags : Option (List PyStr)) : Option (Db E) :=
  (active db id).map fun entry =>
    { entries := db.entries.put id (entry.update content reasoning mode date tags)
      embeddings :=
        if content.isSome || reasoning.isSome then db.embeddings.erase id else db.embeddings }

def delete (db : Db E) (id : EntryId) (now : Time) : Option (Db E) :=
  (active db id).map fun entry =>
    { entries := db.entries.put id { entry with deletedAt := some now }
      embeddings := db.embeddings.erase id }

def saveByVector (db : Db E) (id : EntryId) (embedding : E) : Db E :=
  { db with embeddings := db.embeddings.put id embedding }

def markIndexed (db : Db E) (id : EntryId) (now : Time) : Db E :=
  { db with entries := db.entries.modify id (fun entry => { entry with indexedAt := some now }) }

def markIndexedBatch (db : Db E) (ids : List EntryId) (now : Time) : Db E :=
  { db with
    entries := db.entries.update (fun id entry =>
      if id ∈ ids then { entry with indexedAt := some now } else entry) }

def resetIndexedAtForIds (db : Db E) (ids : List EntryId) : Db E :=
  { db with
    entries := db.entries.update (fun id entry =>
      if id ∈ ids ∧ entry.deletedAt = none then { entry with indexedAt := none } else entry) }

/-- `FOR UPDATE SKIP LOCKED` passes over the rows in `locked`. -/
def unindexedIds (db : Db E) (lastId : EntryId) (locked : List EntryId) : List EntryId :=
  db.entries.keysWhere (fun id entry => entry.deletedAt = none && entry.indexedAt = none &&
    decide (lastId < id) && decide (id ∉ locked))

def getUnindexed (db : Db E) (lastId : EntryId) (batchSize : Nat) (locked : List EntryId) :
    List (EntryId × PyStr) :=
  (((unindexedIds db lastId locked).insertionSort (· ≤ ·)).take batchSize).filterMap
    (fun id => (db.entries.get id).map (fun entry => (id, entry.content)))

/-- The text of the entry that stands for a conversation. -/
def linkedContent (title summary : PyStr) : PyStr :=
  py "Conversation saved: " ++ title ++ py "\n\n" ++ summary

/-- The linked entry of a conversation, deleted or not. -/
def linkedEntry (db : Db E) (conversationId : ConversationId) : Option EntryId :=
  (db.entries.keysWhere (fun _ entry => entry.conversationId = some conversationId)).head?

/-- `_upsert_linked_entry`; `newId` is the id of a row that it has to insert. The
embedding of a row that it rewrites stays where it is. -/
def upsertLinkedEntry (db : Db E) (conversationId : ConversationId) (title summary : PyStr)
    (date : PyStr) (newId : EntryId) : Db E × EntryId :=
  match linkedEntry db conversationId with
  | some id =>
    ({ db with
      entries := db.entries.modify id (fun entry => { entry with
        content := linkedContent title summary
        reasoning := none
        date := date
        indexedAt := none }) }, id)
  | none =>
    ({ db with
      entries := db.entries.put newId
        { content := linkedContent title summary, reasoning := none,
          conversationId := some conversationId, date := date, tags := [py "conversation"],
          indexedAt := none, deletedAt := none } }, newId)

/-- What `journal_update_entry` embeds: the content and the reasoning. -/
def embedText (row : PyStr × Option PyStr) : PyStr :=
  strip (row.1 ++ py " " ++ row.2.getD [])

end Repository

section Lookups
variable {E : Type u} {db : Db E} {id : EntryId} {entry : Entry}

theorem active_eq_some : active db id = some entry ↔
    db.entries.get id = some entry ∧ entry.deletedAt = none := by
  rw [active, Option.filter_eq_some_iff]
  simp

theorem getText_eq_some {row : PyStr × Option PyStr} :
    getText db id = some row ↔
      ∃ entry, active db id = some entry ∧ row = (entry.content, entry.reasoning) := by
  rw [getText, Option.map_eq_some_iff]
  exact exists_congr fun entry => and_congr_right fun _ => eq_comm

theorem mem_getUnindexed {lastId : EntryId} {batchSize : Nat} {locked : List EntryId}
    {content : PyStr} (h : (id, content) ∈ getUnindexed db lastId batchSize locked) :
    ∃ entry, active db id = some entry ∧ entry.indexedAt = none ∧ entry.content = content := by
  rw [getUnindexed, List.mem_filterMap] at h
  obtain ⟨key, hkey, hrow⟩ := h
  obtain ⟨entry, hentry, hpair⟩ := Option.map_eq_some_iff.mp hrow
  obtain ⟨rfl, rfl⟩ := Prod.mk.inj hpair
  have hmem := (List.mem_insertionSort _).mp (List.mem_of_mem_take hkey)
  obtain ⟨found, hfound, hwhere⟩ := Table.mem_keysWhere.mp hmem
  obtain rfl : entry = found := Option.some.inj (hentry.symm.trans hfound)
  simp only [Bool.and_eq_true, decide_eq_true_eq] at hwhere
  exact ⟨entry, active_eq_some.mpr ⟨hentry, hwhere.1.1.1⟩, hwhere.1.1.2, rfl⟩

theorem linkedEntry_eq_some {conversationId : ConversationId}
    (h : linkedEntry db conversationId = some id) :
    ∃ entry, db.entries.get id = some entry ∧ entry.conversationId = some conversationId := by
  have hmem := List.mem_of_head? h
  obtain ⟨entry, hentry, hlinked⟩ := Table.mem_keysWhere.mp hmem
  exact ⟨entry, hentry, of_decide_eq_true hlinked⟩

end Lookups

end JournalEntries
