import Gubbi.Journal.Entries
import Gubbi.Library.Replay

/-!
# Freshness of the embeddings

Five writers encode a text outside any transaction and store the vector later,
by entry id. Each step below is one committed transaction, or the check of a
re-embed, whose read takes no row lock; between two steps of a writer any other
writer may commit. The text a writer has encoded stays in its program counter, and
a writer may fail or be lost at any point.
-/

namespace EmbeddingFreshness

open Text JournalEntries

universe u

abbrev WriterId := Nat

def reindexBatchSize : Nat := 100

/-- Where a writer stands, with the text it encodes for the entry. -/
inductive Writer
  | appended (id : EntryId) (content : PyStr)
  | appendSaved (id : EntryId)
  | updated (id : EntryId) (row : PyStr × Option PyStr)
  | checked (id : EntryId) (text : PyStr)
  | linked (id : EntryId) (content : PyStr)
  | scanning (lastId : EntryId)
  | indexing (lastId : EntryId) (todo : List (EntryId × PyStr)) (succeeded failed : List EntryId)
  deriving DecidableEq

structure World (E : Type u) where
  db : Db E
  writers : Table WriterId Writer

section Steps
variable {E : Type u} (encode : PyStr → E)

def World.start : World E := ⟨emptyDb, Table.empty⟩

def World.goto (w : World E) (p : WriterId) (writer : Writer) : World E :=
  { w with writers := w.writers.put p writer }

def World.finish (w : World E) (p : WriterId) : World E :=
  { w with writers := w.writers.erase p }

/-- `journal_append_entry` commits its row. -/
def appendEntry (w : World E) (p : WriterId) (id : EntryId) (content : PyStr)
    (reasoning : Option PyStr) (tags : List PyStr) (date : PyStr) : Option (World E) :=
  if w.writers.get p = none ∧ w.db.entries.get id = none then
    some (World.goto { w with db := append w.db id content reasoning tags date } p
      (.appended id content))
  else none

/-- `_embed_entry` stores the vector of the appended content. -/
def saveAppended (w : World E) (p : WriterId) : Option (World E) :=
  match w.writers.get p with
  | some (.appended id content) =>
    some (World.goto { w with db := saveByVector w.db id (encode content) } p (.appendSaved id))
  | _ => none

def markAppended (w : World E) (p : WriterId) (now : Time) : Option (World E) :=
  match w.writers.get p with
  | some (.appendSaved id) => some (World.finish { w with db := markIndexed w.db id now } p)
  | _ => none

/-- `journal_update_entry` commits; it re-embeds only when a text was given. -/
def updateEntry (w : World E) (p : WriterId) (id : EntryId) (content reasoning : Option PyStr)
    (mode : Mode) (date : Option PyStr) (tags : Option (List PyStr)) : Option (World E) :=
  if w.writers.get p = none then
    (update w.db id content reasoning mode date tags).map fun db =>
      match (if content.isSome || reasoning.isSome then getText db id else none) with
      | some row => World.goto { w with db := db } p (.updated id row)
      | none => { w with db := db }
  else none

/-- `journal_update_entry` reads the text again, and leaves a changed one alone. -/
def checkUpdated (w : World E) (p : WriterId) : Option (World E) :=
  match w.writers.get p with
  | some (.updated id row) =>
    if getText w.db id = some row then some (w.goto p (.checked id (embedText row)))
    else some (w.finish p)
  | _ => none

/-- Its store and stamp, and the commit. -/
def saveUpdated (w : World E) (p : WriterId) (now : Time) : Option (World E) :=
  match w.writers.get p with
  | some (.checked id text) =>
    some (World.finish { w with
      db := markIndexed (saveByVector w.db id (encode text)) id now } p)
  | _ => none

def deleteEntry (w : World E) (id : EntryId) (now : Time) : Option (World E) :=
  (delete w.db id now).map fun db => { w with db := db }

/-- `save_conversation` commits the linked entry among its rows. -/
def saveConversation (w : World E) (p : WriterId) (conversationId : ConversationId)
    (title summary date : PyStr) (newId : EntryId) : Option (World E) :=
  if w.writers.get p = none ∧ w.db.entries.get newId = none then
    some (World.goto
      { w with db := (upsertLinkedEntry w.db conversationId title summary date newId).1 } p
      (.linked (upsertLinkedEntry w.db conversationId title summary date newId).2
        (linkedContent title summary)))
  else none

def embedLinked (w : World E) (p : WriterId) (now : Time) : Option (World E) :=
  match w.writers.get p with
  | some (.linked id content) =>
    some (World.finish { w with
      db := markIndexed (saveByVector w.db id (encode content)) id now } p)
  | _ => none

/-- `_run_reindex` begins. -/
def startReindex (w : World E) (p : WriterId) : Option (World E) :=
  if w.writers.get p = none then some (w.goto p (.scanning 0)) else none

/-- The claim: a batch of unindexed entries is read and stamped. -/
def claim (w : World E) (p : WriterId) (locked : List EntryId) (now : Time) :
    Option (World E) :=
  match w.writers.get p with
  | some (.scanning lastId) =>
    match getUnindexed w.db lastId reindexBatchSize locked with
    | [] => some (w.finish p)
    | row :: batch =>
      some (World.goto
        { w with db := markIndexedBatch w.db ((row :: batch).map Prod.fst) now } p
        (.indexing lastId (row :: batch) [] []))
  | _ => none

def saveIndexed (w : World E) (p : WriterId) : Option (World E) :=
  match w.writers.get p with
  | some (.indexing lastId (row :: todo) succeeded failed) =>
    some (World.goto { w with db := saveByVector w.db row.1 (encode row.2) } p
      (.indexing lastId todo (succeeded ++ [row.1]) failed))
  | _ => none

/-- Encoding or saving one row of the batch raises. -/
def saveIndexedFails (w : World E) (p : WriterId) : Option (World E) :=
  match w.writers.get p with
  | some (.indexing lastId (row :: todo) succeeded failed) =>
    some (w.goto p (.indexing lastId todo succeeded (failed ++ [row.1])))
  | _ => none

/-- The end of a batch: the compensating reset, then the next batch or the end. -/
def endBatch (w : World E) (p : WriterId) : Option (World E) :=
  match w.writers.get p with
  | some (.indexing _ [] succeeded failed) =>
    match succeeded.max? with
    | some lastId =>
      some (World.goto { w with db := resetIndexedAtForIds w.db failed } p (.scanning lastId))
    | none => some (World.finish { w with db := resetIndexedAtForIds w.db failed } p)
  | _ => none

/-- The writer gives up where it is: an error is caught, or its process is gone. -/
def abandon (w : World E) (p : WriterId) : Option (World E) :=
  (w.writers.get p).map fun _ => w.finish p

inductive Action
  | appendEntry (p : WriterId) (id : EntryId) (content : PyStr) (reasoning : Option PyStr)
      (tags : List PyStr) (date : PyStr)
  | saveAppended (p : WriterId)
  | markAppended (p : WriterId) (now : Time)
  | updateEntry (p : WriterId) (id : EntryId) (content reasoning : Option PyStr) (mode : Mode)
      (date : Option PyStr) (tags : Option (List PyStr))
  | checkUpdated (p : WriterId)
  | saveUpdated (p : WriterId) (now : Time)
  | deleteEntry (id : EntryId) (now : Time)
  | saveConversation (p : WriterId) (conversationId : ConversationId) (title summary date : PyStr)
      (newId : EntryId)
  | embedLinked (p : WriterId) (now : Time)
  | startReindex (p : WriterId)
  | claim (p : WriterId) (locked : List EntryId) (now : Time)
  | saveIndexed (p : WriterId)
  | saveIndexedFails (p : WriterId)
  | endBatch (p : WriterId)
  | abandon (p : WriterId)

def step (w : World E) : Action → Option (World E)
  | .appendEntry p id content reasoning tags date =>
    appendEntry w p id content reasoning tags date
  | .saveAppended p => saveAppended encode w p
  | .markAppended p now => markAppended w p now
  | .updateEntry p id content reasoning mode date tags =>
    updateEntry w p id content reasoning mode date tags
  | .checkUpdated p => checkUpdated w p
  | .saveUpdated p now => saveUpdated encode w p now
  | .deleteEntry id now => deleteEntry w id now
  | .saveConversation p conversationId title summary date newId =>
    saveConversation w p conversationId title summary date newId
  | .embedLinked p now => embedLinked encode w p now
  | .startReindex p => startReindex w p
  | .claim p locked now => claim w p locked now
  | .saveIndexed p => saveIndexed encode w p
  | .saveIndexedFails p => saveIndexedFails w p
  | .endBatch p => endBatch w p
  | .abandon p => abandon w p

/-- The step as a relation: each way to take an action, with what it needs. -/
inductive Taken (w : World E) : Action → World E → Prop
  | appendEntry (p : WriterId) (id : EntryId) (content : PyStr) (reasoning : Option PyStr)
      (tags : List PyStr) (date : PyStr) (idle : w.writers.get p = none)
      (free : w.db.entries.get id = none) :
      Taken w (.appendEntry p id content reasoning tags date)
        (World.goto { w with db := append w.db id content reasoning tags date } p
          (.appended id content))
  | saveAppended (p : WriterId) (id : EntryId) (content : PyStr)
      (stands : w.writers.get p = some (.appended id content)) :
      Taken w (.saveAppended p)
        (World.goto { w with db := saveByVector w.db id (encode content) } p (.appendSaved id))
  | markAppended (p : WriterId) (now : Time) (id : EntryId)
      (stands : w.writers.get p = some (.appendSaved id)) :
      Taken w (.markAppended p now) (World.finish { w with db := markIndexed w.db id now } p)
  | updateTexts (p : WriterId) (id : EntryId) (content reasoning : Option PyStr) (mode : Mode)
      (date : Option PyStr) (tags : Option (List PyStr)) (db : Db E) (row : PyStr × Option PyStr)
      (idle : w.writers.get p = none)
      (updated : update w.db id content reasoning mode date tags = some db)
      (given : (content.isSome || reasoning.isSome) = true) (texts : getText db id = some row) :
      Taken w (.updateEntry p id content reasoning mode date tags)
        (World.goto { w with db := db } p (.updated id row))
  | updateFields (p : WriterId) (id : EntryId) (content reasoning : Option PyStr) (mode : Mode)
      (date : Option PyStr) (tags : Option (List PyStr)) (db : Db E)
      (idle : w.writers.get p = none)
      (updated : update w.db id content reasoning mode date tags = some db)
      (noTexts : (if content.isSome || reasoning.isSome then getText db id else none) = none) :
      Taken w (.updateEntry p id content reasoning mode date tags) { w with db := db }
  | checkUpdated (p : WriterId) (id : EntryId) (row : PyStr × Option PyStr)
      (stands : w.writers.get p = some (.updated id row)) (same : getText w.db id = some row) :
      Taken w (.checkUpdated p) (w.goto p (.checked id (embedText row)))
  | leaveAlone (p : WriterId) (id : EntryId) (row : PyStr × Option PyStr)
      (stands : w.writers.get p = some (.updated id row)) (changed : getText w.db id ≠ some row) :
      Taken w (.checkUpdated p) (w.finish p)
  | saveUpdated (p : WriterId) (now : Time) (id : EntryId) (text : PyStr)
      (stands : w.writers.get p = some (.checked id text)) :
      Taken w (.saveUpdated p now) (World.finish { w with
        db := markIndexed (saveByVector w.db id (encode text)) id now } p)
  | deleteEntry (id : EntryId) (now : Time) (db : Db E)
      (removed : delete w.db id now = some db) : Taken w (.deleteEntry id now) { w with db := db }
  | saveConversation (p : WriterId) (conversationId : ConversationId)
      (title summary date : PyStr) (newId : EntryId) (idle : w.writers.get p = none)
      (free : w.db.entries.get newId = none) :
      Taken w (.saveConversation p conversationId title summary date newId)
        (World.goto
          { w with db := (upsertLinkedEntry w.db conversationId title summary date newId).1 } p
          (.linked (upsertLinkedEntry w.db conversationId title summary date newId).2
            (linkedContent title summary)))
  | embedLinked (p : WriterId) (now : Time) (id : EntryId) (content : PyStr)
      (stands : w.writers.get p = some (.linked id content)) :
      Taken w (.embedLinked p now) (World.finish { w with
        db := markIndexed (saveByVector w.db id (encode content)) id now } p)
  | startReindex (p : WriterId) (idle : w.writers.get p = none) :
      Taken w (.startReindex p) (w.goto p (.scanning 0))
  | claimNothing (p : WriterId) (locked : List EntryId) (now : Time) (lastId : EntryId)
      (stands : w.writers.get p = some (.scanning lastId))
      (read : getUnindexed w.db lastId reindexBatchSize locked = []) :
      Taken w (.claim p locked now) (w.finish p)
  | claim (p : WriterId) (locked : List EntryId) (now : Time) (lastId : EntryId)
      (row : EntryId × PyStr) (batch : List (EntryId × PyStr))
      (stands : w.writers.get p = some (.scanning lastId))
      (read : getUnindexed w.db lastId reindexBatchSize locked = row :: batch) :
      Taken w (.claim p locked now) (World.goto
        { w with db := markIndexedBatch w.db ((row :: batch).map Prod.fst) now } p
        (.indexing lastId (row :: batch) [] []))
  | saveIndexed (p : WriterId) (lastId : EntryId) (row : EntryId × PyStr)
      (todo : List (EntryId × PyStr)) (succeeded failed : List EntryId)
      (stands : w.writers.get p = some (.indexing lastId (row :: todo) succeeded failed)) :
      Taken w (.saveIndexed p)
        (World.goto { w with db := saveByVector w.db row.1 (encode row.2) } p
          (.indexing lastId todo (succeeded ++ [row.1]) failed))
  | saveIndexedFails (p : WriterId) (lastId : EntryId) (row : EntryId × PyStr)
      (todo : List (EntryId × PyStr)) (succeeded failed : List EntryId)
      (stands : w.writers.get p = some (.indexing lastId (row :: todo) succeeded failed)) :
      Taken w (.saveIndexedFails p)
        (w.goto p (.indexing lastId todo succeeded (failed ++ [row.1])))
  | endBatch (p : WriterId) (lastId next : EntryId) (succeeded failed : List EntryId)
      (stands : w.writers.get p = some (.indexing lastId [] succeeded failed))
      (greatest : succeeded.max? = some next) :
      Taken w (.endBatch p)
        (World.goto { w with db := resetIndexedAtForIds w.db failed } p (.scanning next))
  | endScan (p : WriterId) (lastId : EntryId) (succeeded failed : List EntryId)
      (stands : w.writers.get p = some (.indexing lastId [] succeeded failed))
      (none : succeeded.max? = none) :
      Taken w (.endBatch p) (World.finish { w with db := resetIndexedAtForIds w.db failed } p)
  | abandon (p : WriterId) (writer : Writer) (stands : w.writers.get p = some writer) :
      Taken w (.abandon p) (w.finish p)

variable {encode}

theorem taken_of_step {w t : World E} {action : Action} (h : step encode w action = some t) :
    Taken encode w action t := by
  cases action with
  | appendEntry p id content reasoning tags date =>
    simp only [step, EmbeddingFreshness.appendEntry] at h
    split at h
    · rename_i free
      cases h
      exact .appendEntry p id content reasoning tags date free.1 free.2
    · cases h
  | saveAppended p =>
    simp only [step, EmbeddingFreshness.saveAppended] at h
    split at h
    · rename_i id content stands
      cases h
      exact .saveAppended p id content stands
    · cases h
  | markAppended p now =>
    simp only [step, EmbeddingFreshness.markAppended] at h
    split at h
    · rename_i id stands
      cases h
      exact .markAppended p now id stands
    · cases h
  | updateEntry p id content reasoning mode date tags =>
    simp only [step, EmbeddingFreshness.updateEntry] at h
    split at h
    · rename_i idle
      obtain ⟨db, updated, rfl⟩ := Option.map_eq_some_iff.mp h
      split
      · rename_i row texts
        split at texts
        · rename_i given
          exact .updateTexts p id content reasoning mode date tags db row idle updated given texts
        · cases texts
      · rename_i noTexts
        exact .updateFields p id content reasoning mode date tags db idle updated noTexts
    · cases h
  | checkUpdated p =>
    simp only [step, EmbeddingFreshness.checkUpdated] at h
    split at h
    · rename_i id row stands
      split at h
      · rename_i same
        cases h
        exact .checkUpdated p id row stands same
      · rename_i changed
        cases h
        exact .leaveAlone p id row stands changed
    · cases h
  | saveUpdated p now =>
    simp only [step, EmbeddingFreshness.saveUpdated] at h
    split at h
    · rename_i id text stands
      cases h
      exact .saveUpdated p now id text stands
    · cases h
  | deleteEntry id now =>
    obtain ⟨db, removed, rfl⟩ := Option.map_eq_some_iff.mp h
    exact .deleteEntry id now db removed
  | saveConversation p conversationId title summary date newId =>
    simp only [step, EmbeddingFreshness.saveConversation] at h
    split at h
    · rename_i free
      cases h
      exact .saveConversation p conversationId title summary date newId free.1 free.2
    · cases h
  | embedLinked p now =>
    simp only [step, EmbeddingFreshness.embedLinked] at h
    split at h
    · rename_i id content stands
      cases h
      exact .embedLinked p now id content stands
    · cases h
  | startReindex p =>
    simp only [step, EmbeddingFreshness.startReindex] at h
    split at h
    · rename_i idle
      cases h
      exact .startReindex p idle
    · cases h
  | claim p locked now =>
    simp only [step, EmbeddingFreshness.claim] at h
    split at h
    · rename_i lastId stands
      split at h
      · rename_i read
        cases h
        exact .claimNothing p locked now lastId stands read
      · rename_i row batch read
        cases h
        exact .claim p locked now lastId row batch stands read
    · cases h
  | saveIndexed p =>
    simp only [step, EmbeddingFreshness.saveIndexed] at h
    split at h
    · rename_i lastId row todo succeeded failed stands
      cases h
      exact .saveIndexed p lastId row todo succeeded failed stands
    · cases h
  | saveIndexedFails p =>
    simp only [step, EmbeddingFreshness.saveIndexedFails] at h
    split at h
    · rename_i lastId row todo succeeded failed stands
      cases h
      exact .saveIndexedFails p lastId row todo succeeded failed stands
    · cases h
  | endBatch p =>
    simp only [step, EmbeddingFreshness.endBatch] at h
    split at h
    · rename_i lastId succeeded failed stands
      split at h
      · rename_i next greatest
        cases h
        exact .endBatch p lastId next succeeded failed stands greatest
      · rename_i none
        cases h
        exact .endScan p lastId succeeded failed stands none
    · cases h
  | abandon p =>
    obtain ⟨writer, stands, rfl⟩ := Option.map_eq_some_iff.mp h
    exact .abandon p writer stands

theorem step_of_taken {w t : World E} {action : Action} (taken : Taken encode w action t) :
    step encode w action = some t := by
  cases taken with
  | appendEntry p id content reasoning tags date idle free => exact if_pos ⟨idle, free⟩
  | saveAppended p id content stands => simp only [step, saveAppended, stands]
  | markAppended p now id stands => simp only [step, markAppended, stands]
  | updateTexts p id content reasoning mode date tags db row idle updated given texts =>
    simp only [step, updateEntry, idle, updated, given, texts, if_true, Option.map_some]
  | updateFields p id content reasoning mode date tags db idle updated noTexts =>
    simp only [step, updateEntry, idle, updated, noTexts, if_true, Option.map_some]
  | checkUpdated p id row stands same => simp only [step, checkUpdated, stands, same, if_true]
  | leaveAlone p id row stands changed =>
    simp only [step, checkUpdated, stands, if_neg changed]
  | saveUpdated p now id text stands => simp only [step, saveUpdated, stands]
  | deleteEntry id now db removed => exact Option.map_eq_some_iff.mpr ⟨db, removed, rfl⟩
  | saveConversation p conversationId title summary date newId idle free =>
    exact if_pos ⟨idle, free⟩
  | embedLinked p now id content stands => simp only [step, embedLinked, stands]
  | startReindex p idle => exact if_pos idle
  | claimNothing p locked now lastId stands read => simp only [step, claim, stands, read]
  | claim p locked now lastId row batch stands read => simp only [step, claim, stands, read]
  | saveIndexed p lastId row todo succeeded failed stands =>
    simp only [step, saveIndexed, stands]
  | saveIndexedFails p lastId row todo succeeded failed stands =>
    simp only [step, saveIndexedFails, stands]
  | endBatch p lastId next succeeded failed stands greatest =>
    simp only [step, endBatch, stands, greatest]
  | endScan p lastId succeeded failed stands none => simp only [step, endBatch, stands, none]
  | abandon p writer stands => exact Option.map_eq_some_iff.mpr ⟨writer, stands, rfl⟩

end Steps

section Freshness
variable {E : Type u} (encode : PyStr → E)

/-- The vector encodes a text of the entry as it is now: its content, or what
`journal_update_entry` embeds for it. -/
def FreshFor (entry : Entry) (embedding : E) : Prop :=
  embedding = encode entry.content ∨
    embedding = encode (embedText (entry.content, entry.reasoning))

instance [DecidableEq E] (entry : Entry) (embedding : E) :
    Decidable (FreshFor encode entry embedding) :=
  inferInstanceAs (Decidable (_ ∨ _))

/-- Every active, indexed entry with an embedding has that of its current text. -/
def Fresh (w : World E) : Prop :=
  ∀ id entry embedding, active w.db id = some entry → entry.indexedAt ≠ none →
    w.db.embeddings.get id = some embedding → FreshFor encode entry embedding

/-- The entry still has this content, unless it is gone. -/
def Current (db : Db E) (row : EntryId × PyStr) : Prop :=
  ∀ entry ∈ active db row.1, entry.content = row.2

instance (db : Db E) (row : EntryId × PyStr) : Decidable (Current db row) :=
  inferInstanceAs (Decidable (∀ entry ∈ active db row.1, entry.content = row.2))

/-- The entry still has the texts that `journal_update_entry` embeds as this one. -/
def CurrentTexts (db : Db E) (row : EntryId × PyStr) : Prop :=
  ∀ entry ∈ active db row.1, embedText (entry.content, entry.reasoning) = row.2

instance (db : Db E) (row : EntryId × PyStr) : Decidable (CurrentTexts db row) :=
  inferInstanceAs (Decidable (∀ entry ∈ active db row.1, _ = row.2))

/-- The entry has no embedding, or a fresh one. -/
def UpToDate (db : Db E) (id : EntryId) : Prop :=
  ∀ entry ∈ active db id, ∀ embedding ∈ db.embeddings.get id, FreshFor encode entry embedding

instance [DecidableEq E] (db : Db E) (id : EntryId) : Decidable (UpToDate encode db id) :=
  inferInstanceAs (Decidable (∀ entry ∈ active db id, ∀ embedding ∈ db.embeddings.get id, _))

/-- The entry and the text that the next save of a writer is about. -/
def Writer.pending : Writer → Option (EntryId × PyStr)
  | .appended id content | .linked id content | .checked id content => some (id, content)
  | .indexing _ (row :: _) _ _ => some row
  | _ => none

/-- A save finds the text it has encoded still current, and a claim finds no
embedding of an earlier text on the rows it stamps. -/
def StoresCurrent (w : World E) : Action → Prop
  | .saveAppended p | .embedLinked p _ | .saveIndexed p =>
    ∀ row ∈ (w.writers.get p).bind Writer.pending, Current w.db row
  | .saveUpdated p _ => ∀ row ∈ (w.writers.get p).bind Writer.pending, CurrentTexts w.db row
  | .claim p locked _ =>
    match w.writers.get p with
    | some (.scanning lastId) =>
      ∀ row ∈ getUnindexed w.db lastId reindexBatchSize locked, UpToDate encode w.db row.1
    | _ => True
  | _ => True

instance [DecidableEq E] (w : World E) : DecidablePred (StoresCurrent encode w) := fun action =>
  match action with
  | .saveAppended p | .embedLinked p _ | .saveIndexed p =>
    inferInstanceAs (Decidable (∀ row ∈ (w.writers.get p).bind Writer.pending, Current w.db row))
  | .saveUpdated p _ =>
    inferInstanceAs
      (Decidable (∀ row ∈ (w.writers.get p).bind Writer.pending, CurrentTexts w.db row))
  | .claim p locked _ =>
    match h : w.writers.get p with
    | some (.scanning lastId) =>
      decidable_of_iff (∀ row ∈ getUnindexed w.db lastId reindexBatchSize locked,
        UpToDate encode w.db row.1) (by simp [StoresCurrent, h])
    | some (.appended _ _) | some (.appendSaved _) | some (.updated _ _) | some (.checked _ _)
    | some (.linked _ _) | some (.indexing _ _ _ _) | none => isTrue (by simp [StoresCurrent, h])
  | .appendEntry .. | .markAppended .. | .updateEntry .. | .checkUpdated .. | .deleteEntry ..
  | .saveConversation .. | .startReindex .. | .saveIndexedFails .. | .endBatch .. | .abandon .. =>
    instDecidableTrue

/-- Stale vectors are left only on linked entries that are out of the index, and
no vector is without its entry. -/
structure Sound (db : Db E) : Prop where
  fresh : ∀ id entry embedding, active db id = some entry →
    db.embeddings.get id = some embedding →
    FreshFor encode entry embedding ∨ (entry.conversationId ≠ none ∧ entry.indexedAt = none)
  owned : ∀ id, db.entries.get id = none → db.embeddings.get id = none

/-- Entries are never removed, and they keep the conversation they stand for. -/
def Keeps (db db' : Db E) : Prop :=
  ∀ id entry, db.entries.get id = some entry →
    ∃ entry', db'.entries.get id = some entry' ∧ entry'.conversationId = entry.conversationId

variable {encode} {db : Db E}

theorem Keeps.refl (db : Db E) : Keeps db db := fun _ entry h => ⟨entry, h, rfl⟩

/-- Rewriting rows in place without touching their conversation. -/
theorem Keeps.of_map {entries : Table EntryId Entry} (embeddings : Table EntryId E)
    (f : EntryId → Entry → Entry)
    (get : ∀ id, entries.get id = (db.entries.get id).map (f id))
    (same : ∀ id entry, (f id entry).conversationId = entry.conversationId) :
    Keeps db ⟨entries, embeddings⟩ := by
  intro id entry hentry
  exact ⟨f id entry, by simp [get, hentry], same id entry⟩

/-- A new row, under an id that is not taken. -/
theorem Keeps.of_put {id : EntryId} {entry : Entry} (embeddings : Table EntryId E)
    (fresh : db.entries.get id = none) : Keeps db ⟨db.entries.put id entry, embeddings⟩ := by
  intro key row hrow
  exact ⟨row, Table.get_put_of_absent entry fresh hrow, rfl⟩

/-- A row that is rewritten by key. -/
theorem Keeps.of_rewrite {id : EntryId} {entry entry' : Entry} (embeddings : Table EntryId E)
    (hentry : db.entries.get id = some entry)
    (same : entry'.conversationId = entry.conversationId) :
    Keeps db ⟨db.entries.put id entry', embeddings⟩ := by
  intro key row hrow
  by_cases hkey : key = id
  · subst hkey
    obtain rfl : entry = row := Option.some.inj (hentry.symm.trans hrow)
    exact ⟨entry', Table.get_put_self _ _ _, same⟩
  · exact ⟨row, (Table.get_put_ne _ _ hkey).trans hrow, rfl⟩

theorem Keeps.owned {db' : Db E} (keeps : Keeps db db') {id : EntryId}
    (hnone : db'.entries.get id = none) : db.entries.get id = none := by
  cases hentry : db.entries.get id with
  | none => rfl
  | some entry =>
    obtain ⟨entry', hsome, _⟩ := keeps id entry hentry
    rw [hnone] at hsome
    cases hsome

theorem Sound.append (sound : Sound encode db) {id : EntryId} {entry : Entry}
    (fresh : db.entries.get id = none) :
    Sound encode { db with entries := db.entries.put id entry } where
  fresh := by
    intro key row embedding hactive hembedding
    obtain ⟨hrow, hdeleted⟩ := active_eq_some.mp hactive
    rcases Table.get_put_eq_some hrow with ⟨rfl, rfl⟩ | ⟨_, hrow⟩
    · rw [sound.owned key fresh] at hembedding
      cases hembedding
    · exact sound.fresh key row embedding (active_eq_some.mpr ⟨hrow, hdeleted⟩) hembedding
  owned := fun key hnone => sound.owned key ((Keeps.of_put db.embeddings fresh).owned hnone)

theorem Sound.save (sound : Sound encode db) {id : EntryId} {embedding : E}
    (present : db.entries.get id ≠ none)
    (current : ∀ entry, active db id = some entry → FreshFor encode entry embedding) :
    Sound encode (saveByVector db id embedding) where
  fresh := by
    intro key row stored hactive hstored
    rcases Table.get_put_eq_some hstored with ⟨rfl, rfl⟩ | ⟨_, hstored⟩
    · exact Or.inl (current row hactive)
    · exact sound.fresh key row stored hactive hstored
  owned := by
    intro key hnone
    have hne : key ≠ id := by
      rintro rfl
      exact present hnone
    exact (Table.get_put_ne _ _ hne).trans (sound.owned key hnone)

/-- Stamping rows whose embeddings are fresh. -/
theorem Sound.stamp (sound : Sound encode db) {ids : List EntryId} {now : Time}
    (fresh : ∀ id ∈ ids, UpToDate encode db id) : Sound encode (markIndexedBatch db ids now) where
  fresh := by
    intro id row embedding hactive hembedding
    obtain ⟨hrow, hdeleted⟩ := active_eq_some.mp hactive
    obtain ⟨entry, hentry, rfl⟩ :=
      Option.map_eq_some_iff.mp ((Table.get_update _ _ _).symm.trans hrow)
    by_cases hmem : id ∈ ids
    · simp only [hmem, if_true] at hdeleted ⊢
      exact Or.inl
        (fresh id hmem entry (active_eq_some.mpr ⟨hentry, hdeleted⟩) embedding hembedding)
    · simp only [hmem, if_false] at hdeleted ⊢
      exact sound.fresh id entry embedding (active_eq_some.mpr ⟨hentry, hdeleted⟩) hembedding
  owned := by
    intro id hnone
    refine sound.owned id ?_
    rw [markIndexedBatch, Table.get_update, Option.map_eq_none_iff] at hnone
    exact hnone

theorem markIndexed_eq (db : Db E) (id : EntryId) (now : Time) :
    markIndexed db id now = markIndexedBatch db [id] now := by
  simp [markIndexed, markIndexedBatch, Table.modify]

theorem Sound.resetIndexedAtForIds (sound : Sound encode db) (ids : List EntryId) :
    Sound encode (resetIndexedAtForIds db ids) where
  fresh := by
    intro id row embedding hactive hembedding
    obtain ⟨hrow, hdeleted⟩ := active_eq_some.mp hactive
    obtain ⟨entry, hentry, rfl⟩ :=
      Option.map_eq_some_iff.mp ((Table.get_update _ _ _).symm.trans hrow)
    by_cases hmem : id ∈ ids ∧ entry.deletedAt = none
    · simp only [hmem] at hdeleted ⊢
      rcases sound.fresh id entry embedding (active_eq_some.mpr ⟨hentry, hmem.2⟩) hembedding with
        hfresh | ⟨hlinked, _⟩
      · exact Or.inl hfresh
      · exact Or.inr ⟨hlinked, rfl⟩
    · simp only [hmem, if_false] at hdeleted ⊢
      exact sound.fresh id entry embedding (active_eq_some.mpr ⟨hentry, hdeleted⟩) hembedding
  owned := by
    intro id hnone
    refine sound.owned id ?_
    rw [JournalEntries.resetIndexedAtForIds, Table.get_update, Option.map_eq_none_iff] at hnone
    exact hnone

theorem Sound.update (sound : Sound encode db) {db' : Db E} {id : EntryId}
    {content reasoning : Option PyStr} {mode : Mode} {date : Option PyStr}
    {tags : Option (List PyStr)} (h : update db id content reasoning mode date tags = some db') :
    Sound encode db' ∧ Keeps db db' := by
  obtain ⟨entry, hactive, rfl⟩ := Option.map_eq_some_iff.mp h
  obtain ⟨hentry, hlive⟩ := active_eq_some.mp hactive
  have keeps := Keeps.of_rewrite
    (if content.isSome || reasoning.isSome then db.embeddings.erase id else db.embeddings) hentry
    (show (entry.update content reasoning mode date tags).conversationId = entry.conversationId
      from rfl)
  refine ⟨⟨?_, ?_⟩, keeps⟩
  · intro key row embedding hrow hembedding
    obtain ⟨hrow, hdeleted⟩ := active_eq_some.mp hrow
    cases htext : content.isSome || reasoning.isSome with
    | true =>
      simp only [htext, if_true] at hembedding
      obtain ⟨hne, hembedding⟩ := Table.get_erase_eq_some hembedding
      rw [Table.get_put_ne _ _ hne] at hrow
      exact sound.fresh key row embedding (active_eq_some.mpr ⟨hrow, hdeleted⟩) hembedding
    | false =>
      simp only [htext, Bool.false_eq_true, if_false] at hembedding
      rcases Table.get_put_eq_some hrow with ⟨rfl, rfl⟩ | ⟨_, hrow⟩
      · obtain ⟨hcontent, hreasoning⟩ := Bool.or_eq_false_iff.mp htext
        rw [Option.isSome_eq_false_iff, Option.isNone_iff_eq_none] at hcontent hreasoning
        subst hcontent hreasoning
        exact sound.fresh key entry embedding hactive hembedding
      · exact sound.fresh key row embedding (active_eq_some.mpr ⟨hrow, hdeleted⟩) hembedding
  · intro key hnone
    have habsent := sound.owned key (keeps.owned hnone)
    cases htext : content.isSome || reasoning.isSome with
    | true =>
      simp only [if_true, Table.get_erase, habsent, ite_self]
    | false => simpa using habsent

theorem Sound.delete (sound : Sound encode db) {db' : Db E} {id : EntryId} {now : Time}
    (h : delete db id now = some db') : Sound encode db' ∧ Keeps db db' := by
  obtain ⟨entry, hactive, rfl⟩ := Option.map_eq_some_iff.mp h
  obtain ⟨hentry, _⟩ := active_eq_some.mp hactive
  have keeps := Keeps.of_rewrite (db.embeddings.erase id) hentry
    (show ({ entry with deletedAt := some now } : Entry).conversationId = entry.conversationId
      from rfl)
  refine ⟨⟨?_, ?_⟩, keeps⟩
  · intro key row embedding hrow hembedding
    obtain ⟨hne, hembedding⟩ := Table.get_erase_eq_some hembedding
    obtain ⟨hrow, hdeleted⟩ := active_eq_some.mp hrow
    rw [Table.get_put_ne _ _ hne] at hrow
    exact sound.fresh key row embedding (active_eq_some.mpr ⟨hrow, hdeleted⟩) hembedding
  · intro key hnone
    simp only [Table.get_erase, sound.owned key (keeps.owned hnone), ite_self]

theorem Sound.upsertLinkedEntry (sound : Sound encode db) (conversationId : ConversationId)
    (title summary date : PyStr) {newId : EntryId} (fresh : db.entries.get newId = none) :
    Sound encode (upsertLinkedEntry db conversationId title summary date newId).1 ∧
      Keeps db (upsertLinkedEntry db conversationId title summary date newId).1 ∧
      (upsertLinkedEntry db conversationId title summary date newId).1.entries.get
        (upsertLinkedEntry db conversationId title summary date newId).2 ≠ none := by
  unfold JournalEntries.upsertLinkedEntry
  cases hlinked : linkedEntry db conversationId with
  | none =>
    exact ⟨sound.append fresh, Keeps.of_put db.embeddings fresh, by simp⟩
  | some id =>
    obtain ⟨linked, hentry, hconversation⟩ := linkedEntry_eq_some hlinked
    refine ⟨⟨?_, ?_⟩, Keeps.of_map _ _ (fun key => Table.get_update _ _ _) ?_, ?_⟩
    · intro key row embedding hrow hembedding
      obtain ⟨hrow, hdeleted⟩ := active_eq_some.mp hrow
      by_cases hkey : key = id
      · subst hkey
        rw [Table.get_modify_self _ hentry] at hrow
        obtain rfl := Option.some.inj hrow
        exact Or.inr ⟨by simp [hconversation], rfl⟩
      · rw [Table.get_modify_ne _ _ hkey] at hrow
        exact sound.fresh key row embedding (active_eq_some.mpr ⟨hrow, hdeleted⟩) hembedding
    · intro key hnone
      refine sound.owned key ?_
      rw [Table.get_modify] at hnone
      by_cases hkey : key = id
      · simpa [hkey] using hnone
      · simpa [hkey] using hnone
    · intro key entry
      by_cases hkey : key = id
      · simp [hkey]
      · simp [hkey]
    · simp [Table.get_modify_self _ hentry]

/-- The entries a writer is about, and whether it appended them. -/
def Writer.targets : Writer → List EntryId
  | .appended id _ | .appendSaved id | .updated id _ | .checked id _ | .linked id _ => [id]
  | .scanning _ => []
  | .indexing _ todo _ _ => todo.map Prod.fst

def Writer.appends : Writer → Bool
  | .appended _ _ | .appendSaved _ => true
  | _ => false

/-- The entries of a writer exist, and an appended one stands for no conversation. -/
def Placed (db : Db E) (writer : Writer) : Prop :=
  ∀ id ∈ writer.targets, ∃ entry, db.entries.get id = some entry ∧
    (writer.appends = true → entry.conversationId = none)

structure Coherent (encode : PyStr → E) (w : World E) : Prop where
  sound : Sound encode w.db
  placed : ∀ p writer, w.writers.get p = some writer → Placed w.db writer

theorem Placed.keeps {db' : Db E} {writer : Writer} (placed : Placed db writer)
    (keeps : Keeps db db') : Placed db' writer := by
  intro id hmem
  obtain ⟨entry, hentry, happends⟩ := placed id hmem
  obtain ⟨entry', hentry', hsame⟩ := keeps id entry hentry
  exact ⟨entry', hentry', fun h => hsame.trans (happends h)⟩

theorem Placed.present {writer : Writer} {id : EntryId} (placed : Placed db writer)
    (hmem : id ∈ writer.targets) : db.entries.get id ≠ none := by
  obtain ⟨entry, hentry, _⟩ := placed id hmem
  simp [hentry]

variable {w : World E}

/-- A transaction after which the writer stands somewhere else. -/
theorem Coherent.goto (coherent : Coherent encode w) {db' : Db E} {p : WriterId} {writer : Writer}
    (sound : Sound encode db') (keeps : Keeps w.db db') (placed : Placed db' writer) :
    Coherent encode (World.goto { w with db := db' } p writer) where
  sound := sound
  placed := by
    intro q other hget
    rcases Table.get_put_eq_some hget with ⟨_, rfl⟩ | ⟨_, hget⟩
    · exact placed
    · exact (coherent.placed q other hget).keeps keeps

theorem Coherent.finish (coherent : Coherent encode w) {db' : Db E} (p : WriterId)
    (sound : Sound encode db') (keeps : Keeps w.db db') :
    Coherent encode (World.finish { w with db := db' } p) where
  sound := sound
  placed := fun q other hget =>
    (coherent.placed q other (Table.get_erase_eq_some hget).2).keeps keeps

theorem keeps_save (db : Db E) (id : EntryId) (embedding : E) :
    Keeps db (saveByVector db id embedding) := Keeps.refl db

theorem keeps_stamp (db : Db E) (ids : List EntryId) (now : Time) :
    Keeps db (markIndexedBatch db ids now) := by
  refine Keeps.of_map _ _ (fun _ => Table.get_update _ _ _) ?_
  intro id entry
  by_cases hmem : id ∈ ids
  · simp [hmem]
  · simp [hmem]

theorem keeps_reset (db : Db E) (ids : List EntryId) : Keeps db (resetIndexedAtForIds db ids) := by
  refine Keeps.of_map _ _ (fun _ => Table.get_update _ _ _) ?_
  intro id entry
  by_cases hmem : id ∈ ids ∧ entry.deletedAt = none
  · simp [hmem]
  · simp [hmem]

/-- Storing and stamping in one transaction what encodes the current text. -/
theorem Sound.saveAndMark (sound : Sound encode db) {id : EntryId} {embedding : E} {now : Time}
    (present : db.entries.get id ≠ none)
    (current : ∀ entry, active db id = some entry → FreshFor encode entry embedding) :
    Sound encode (markIndexed (saveByVector db id embedding) id now) := by
  rw [markIndexed_eq]
  refine (sound.save present current).stamp ?_
  intro key hmem entry hactive stored hstored
  obtain rfl := List.mem_singleton.mp hmem
  obtain rfl : embedding = stored :=
    Option.some.inj ((Table.get_put_self _ _ _).symm.trans hstored)
  exact current entry hactive

theorem keeps_saveAndMark (db : Db E) (id : EntryId) (embedding : E) (now : Time) :
    Keeps db (markIndexed (saveByVector db id embedding) id now) := by
  rw [markIndexed_eq]
  exact keeps_stamp (saveByVector db id embedding) [id] now

/-- The other targets of a scan still exist when one of them is done. -/
theorem Placed.rest {lastId : EntryId} {row : EntryId × PyStr} {todo : List (EntryId × PyStr)}
    {succeeded failed succeeded' failed' : List EntryId}
    (placed : Placed db (.indexing lastId (row :: todo) succeeded failed)) :
    Placed db (.indexing lastId todo succeeded' failed') := by
  intro id hmem
  obtain ⟨entry, hentry, _⟩ := placed id (List.mem_cons_of_mem _ hmem)
  exact ⟨entry, hentry, fun h => by cases h⟩

/-- What encodes the current text is fresh. -/
theorem Current.fresh {row : EntryId × PyStr} (current : Current db row) :
    ∀ entry, active db row.1 = some entry → FreshFor encode entry (encode row.2) :=
  fun entry hactive => Or.inl (by rw [current entry hactive])

theorem CurrentTexts.fresh {row : EntryId × PyStr} (current : CurrentTexts db row) :
    ∀ entry, active db row.1 = some entry → FreshFor encode entry (encode row.2) :=
  fun entry hactive => Or.inr (by rw [current entry hactive])

theorem coherent_step (w : World E) (action : Action) (t : World E)
    (coherent : Coherent encode w) (stores : StoresCurrent encode w action)
    (h : step encode w action = some t) : Coherent encode t := by
  cases taken_of_step h with
  | appendEntry p id content reasoning tags date idle free =>
    refine coherent.goto (coherent.sound.append free) (Keeps.of_put _ free) ?_
    intro key hmem
    obtain rfl := List.mem_singleton.mp hmem
    exact ⟨_, Table.get_put_self _ _ _, fun _ => rfl⟩
  | saveAppended p id content stands =>
    have placed := coherent.placed p _ stands
    have current : Current w.db (id, content) := stores _ (by simp [stands, Writer.pending])
    exact coherent.goto (coherent.sound.save (placed.present List.mem_cons_self) current.fresh)
      (keeps_save _ _ _) placed
  | markAppended p now id stands =>
    obtain ⟨entry, hentry, hnone⟩ := coherent.placed p _ stands id List.mem_cons_self
    rw [markIndexed_eq]
    refine coherent.finish p (coherent.sound.stamp ?_) (keeps_stamp _ _ _)
    -- the entry stands for no conversation, so its embedding cannot be a left-over
    intro key hmem found hactive embedding hembedding
    obtain rfl := List.mem_singleton.mp hmem
    obtain rfl : entry = found :=
      Option.some.inj (hentry.symm.trans (active_eq_some.mp hactive).1)
    rcases coherent.sound.fresh key entry embedding hactive hembedding with hfresh | ⟨hlinked, _⟩
    · exact hfresh
    · exact False.elim (hlinked (hnone rfl))
  | updateTexts p id content reasoning mode date tags db row idle updated given texts =>
    obtain ⟨sound, keeps⟩ := coherent.sound.update updated
    refine coherent.goto sound keeps ?_
    intro key hmem
    obtain rfl := List.mem_singleton.mp hmem
    obtain ⟨entry, hactive, _⟩ := getText_eq_some.mp texts
    exact ⟨entry, (active_eq_some.mp hactive).1, fun h => by cases h⟩
  | updateFields p id content reasoning mode date tags db idle updated noTexts =>
    obtain ⟨sound, keeps⟩ := coherent.sound.update updated
    exact ⟨sound, fun q other hget => (coherent.placed q other hget).keeps keeps⟩
  | checkUpdated p id row stands same =>
    have placed : Placed w.db (.updated id row) := coherent.placed p _ stands
    exact coherent.goto coherent.sound (Keeps.refl _) placed
  | leaveAlone p id row stands changed =>
    exact coherent.finish p coherent.sound (Keeps.refl _)
  | saveUpdated p now id text stands =>
    have placed := coherent.placed p _ stands
    have current : CurrentTexts w.db (id, text) := stores _ (by simp [stands, Writer.pending])
    exact coherent.finish p (coherent.sound.saveAndMark (placed.present List.mem_cons_self)
      current.fresh) (keeps_saveAndMark _ _ _ _)
  | deleteEntry id now db removed =>
    obtain ⟨sound, keeps⟩ := coherent.sound.delete removed
    exact ⟨sound, fun q other hget => (coherent.placed q other hget).keeps keeps⟩
  | saveConversation p conversationId title summary date newId idle free =>
    obtain ⟨sound, keeps, hpresent⟩ :=
      coherent.sound.upsertLinkedEntry conversationId title summary date free
    refine coherent.goto sound keeps ?_
    intro key hmem
    obtain rfl := List.mem_singleton.mp hmem
    obtain ⟨entry, hentry⟩ := Option.ne_none_iff_exists'.mp hpresent
    exact ⟨entry, hentry, fun h => by cases h⟩
  | embedLinked p now id content stands =>
    have placed := coherent.placed p _ stands
    have current : Current w.db (id, content) := stores _ (by simp [stands, Writer.pending])
    exact coherent.finish p (coherent.sound.saveAndMark (placed.present List.mem_cons_self)
      current.fresh) (keeps_saveAndMark _ _ _ _)
  | startReindex p idle =>
    exact coherent.goto coherent.sound (Keeps.refl _) (fun _ hmem => by cases hmem)
  | claimNothing p locked now lastId stands read =>
    exact coherent.finish p coherent.sound (Keeps.refl _)
  | claim p locked now lastId row batch stands read =>
    have upToDate : ∀ claimed ∈ row :: batch, UpToDate encode w.db claimed.1 := by
      simpa [StoresCurrent, stands, read] using stores
    refine coherent.goto (coherent.sound.stamp ?_) (keeps_stamp _ _ _) ?_
    · intro id hmem
      obtain ⟨claimed, hclaimed, rfl⟩ := List.mem_map.mp hmem
      exact upToDate claimed hclaimed
    · refine Placed.keeps ?_ (keeps_stamp _ _ _)
      intro id hmem
      obtain ⟨⟨key, content⟩, hclaimed, rfl⟩ := List.mem_map.mp hmem
      rw [← read] at hclaimed
      obtain ⟨entry, hactive, _⟩ := mem_getUnindexed hclaimed
      exact ⟨entry, (active_eq_some.mp hactive).1, fun h => by cases h⟩
  | saveIndexed p lastId row todo succeeded failed stands =>
    have placed := coherent.placed p _ stands
    have current : Current w.db row := stores _ (by simp [stands, Writer.pending])
    exact coherent.goto (coherent.sound.save (placed.present List.mem_cons_self) current.fresh)
      (keeps_save _ _ _) placed.rest
  | saveIndexedFails p lastId row todo succeeded failed stands =>
    have placed := coherent.placed p _ stands
    exact coherent.goto coherent.sound (Keeps.refl _) placed.rest
  | endBatch p lastId next succeeded failed stands greatest =>
    exact coherent.goto (coherent.sound.resetIndexedAtForIds failed) (keeps_reset _ _)
      (fun _ hmem => by cases hmem)
  | endScan p lastId succeeded failed stands none =>
    exact coherent.finish p (coherent.sound.resetIndexedAtForIds failed) (keeps_reset _ _)
  | abandon p writer stands => exact coherent.finish p coherent.sound (Keeps.refl _)

theorem coherent_start : Coherent encode (World.start : World E) where
  sound :=
    { fresh := fun _ _ _ _ h => by cases h
      owned := fun _ _ => rfl }
  placed := fun _ _ h => by cases h

/-- In every interleaving whose saves store a current text and whose claims stamp
no row with a left-over embedding, all embeddings are fresh. -/
theorem embeddings_fresh {actions : List Action} {w : World E}
    (ran : Replay.run (step encode) World.start actions = some w)
    (stores : Replay.Obeys (step encode) (StoresCurrent encode) World.start actions) :
    Fresh encode w := by
  have coherent : Coherent encode w :=
    Replay.run_invariant coherent_step coherent_start stores ran
  intro id entry embedding hactive hindexed hembedding
  rcases coherent.sound.fresh id entry embedding hactive hembedding with hfresh | ⟨_, hnone⟩
  · exact hfresh
  · exact False.elim (hindexed hnone)

end Freshness

/-- An entry is appended and edited, a conversation is saved without an embedding,
and a reindex picks it up. -/
def indexedSession : List Action :=
  [.appendEntry 1 1 (py "first") none [] (py "2026-05-10"), .saveAppended 1, .markAppended 1 10,
    .updateEntry 2 1 (some (py "second")) none .replace none none, .checkUpdated 2,
    .saveUpdated 2 20, .saveConversation 3 7 (py "Trip") (py "Plans") (py "2026-05-11") 2,
    .abandon 3, .startReindex 4, .claim 4 [] 30, .saveIndexed 4, .endBatch 4, .claim 4 [] 40]

theorem embeddings_fresh_session : ∃ w : World PyStr,
    Replay.run (step (fun text => text)) World.start indexedSession = some w ∧
    w.db.embeddings.get 2 = some (linkedContent (py "Trip") (py "Plans")) ∧
    Fresh (fun text => text) w := by
  refine ⟨_, rfl, by decide, ?_⟩
  exact @embeddings_fresh PyStr (fun text => text) indexedSession _ rfl (by decide)

/-- The append encodes, an update commits and re-embeds, and then the append
stores its vector by id. -/
def lateAppend : List Action :=
  [.appendEntry 1 1 (py "first") none [] (py "2026-05-10"),
    .updateEntry 2 1 (some (py "second")) none .replace none none, .checkUpdated 2,
    .saveUpdated 2 20, .saveAppended 1]

/-- Another update commits between the check and the store of a re-embed. -/
def lateReembed : List Action :=
  [.appendEntry 1 1 (py "first") none [] (py "2026-05-10"), .abandon 1,
    .updateEntry 2 1 (some (py "second")) none .replace none none, .checkUpdated 2,
    .updateEntry 3 1 (some (py "third")) none .replace none none, .saveUpdated 2 20]

/-- Both leave an indexed entry with the embedding of its old text. -/
theorem late_saves_leave_stale_embeddings :
    (∃ w : World PyStr, Replay.run (step (fun text => text)) World.start lateAppend = some w ∧
      ¬ Fresh (fun text => text) w) ∧
    ∃ w : World PyStr, Replay.run (step (fun text => text)) World.start lateReembed = some w ∧
      ¬ Fresh (fun text => text) w := by
  refine ⟨⟨_, rfl, ?_⟩, ⟨_, rfl, ?_⟩⟩
  · intro fresh
    exact absurd (fresh 1 _ _ rfl (by decide) rfl) (by decide)
  · intro fresh
    exact absurd (fresh 1 _ _ rfl (by decide) rfl) (by decide)

end EmbeddingFreshness
