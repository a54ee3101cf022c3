import Gubbi.Journal.Reindex

/-!
# The text that is embedded

Four paths store the vector of an entry: the append and the reindex encode the
content, `journal_update_entry` and the web PATCH encode the content and the
reasoning. A vector tells nothing about the path that stored it, so a reindex
rewrites what an update has stored with the vector of another text.
-/

namespace EmbeddedText

open Text JournalEntries EmbeddingFreshness ReindexRecovery

universe u

inductive Path
  | append
  | update
  | patch
  | reindex
  deriving DecidableEq, Repr

/-- `((row_data[0] or "") + " " + (row_data[1] or "")).strip()` of the web PATCH. -/
def reembedText (rowData : PyStr × Option PyStr) : PyStr :=
  strip (rowData.1 ++ py " " ++ rowData.2.getD [])

/-- `_reembed_if_changed` from its last read on. -/
def reembedIfChanged {E : Type u} (encode : PyStr → E) (db : Db E) (id : EntryId)
    (rowData : PyStr × Option PyStr) (now : Time) : Db E :=
  if getText db id = some rowData then
    markIndexed (saveByVector db id (encode (reembedText rowData))) id now
  else db

/-- The string that a path passes to `encode` for an entry with these texts. -/
def embeddedText : Path → PyStr × Option PyStr → PyStr
  | .append, row => row.1
  | .update, row => embedText row
  | .patch, row => reembedText row
  | .reindex, row => row.1

section Paths
variable {E : Type u} (encode : PyStr → E)

/-- The path stores the vector of the entry, whose texts are `row`. -/
inductive Stores : Path → EntryId → PyStr × Option PyStr → Db E → Db E → Prop
  | append {w t : World E} {p : WriterId} {id : EntryId} {content : PyStr}
      {reasoning : Option PyStr} (writer : w.writers.get p = some (.appended id content))
      (texts : getText w.db id = some (content, reasoning))
      (saved : saveAppended encode w p = some t) : Stores .append id (content, reasoning) w.db t.db
  | update {w t : World E} {p : WriterId} {id : EntryId} {row : PyStr × Option PyStr} {now : Time}
      (writer : w.writers.get p = some (.checked id (embedText row)))
      (texts : getText w.db id = some row) (saved : saveUpdated encode w p now = some t) :
      Stores .update id row w.db t.db
  | patch {db : Db E} {id : EntryId} {row : PyStr × Option PyStr} (now : Time)
      (texts : getText db id = some row) :
      Stores .patch id row db (reembedIfChanged encode db id row now)
  | reindex {w t : World E} {p : WriterId} {id lastId : EntryId} {content : PyStr}
      {reasoning : Option PyStr} {todo : List (EntryId × PyStr)} {succeeded failed : List EntryId}
      (writer : w.writers.get p = some (.indexing lastId ((id, content) :: todo) succeeded failed))
      (texts : getText w.db id = some (content, reasoning))
      (saved : saveIndexed encode w p = some t) : Stores .reindex id (content, reasoning) w.db t.db

variable {encode} {path : Path} {id : EntryId} {row : PyStr × Option PyStr} {db db' : Db E}

/-- Whichever path stores a vector, it is that of the path's text. -/
theorem embedding_of_stores (stores : Stores encode path id row db db') :
    db'.embeddings.get id = some (encode (embeddedText path row)) := by
  cases stores with
  | append writer texts saved =>
    simp only [saveAppended, writer, Option.some.injEq] at saved
    rw [← saved]
    exact Table.get_put_self _ _ _
  | update writer texts saved =>
    simp only [saveUpdated, writer, Option.some.injEq] at saved
    rw [← saved]
    exact Table.get_put_self _ _ _
  | patch now texts =>
    rw [reembedIfChanged, if_pos texts]
    exact Table.get_put_self _ _ _
  | reindex writer texts saved =>
    simp only [saveIndexed, writer, Option.some.injEq] at saved
    rw [← saved]
    exact Table.get_put_self _ _ _

end Paths

/-- No reasoning, or one of white space only. -/
def Blank (reasoning : Option PyStr) : Prop := ∀ c ∈ reasoning.getD [], isSpace c = true

instance (reasoning : Option PyStr) : Decidable (Blank reasoning) :=
  inferInstanceAs (Decidable (∀ c ∈ reasoning.getD [], _))

theorem embedText_eq_content (row : PyStr × Option PyStr) :
    embedText row = row.1 ↔ Blank row.2 ∧ strip row.1 = row.1 := by
  rw [embedText, List.append_assoc, strip, stripOf_append_eq_left]
  refine and_congr_left fun _ => ?_
  constructor
  · exact fun all c mem => all c (List.mem_append_right _ mem)
  · intro blank c mem
    rcases List.mem_append.mp mem with space | mem
    · obtain rfl : c = ofChar ' ' := List.mem_singleton.mp space
      decide
    · exact blank c mem

theorem embeddedText_agree (row : PyStr × Option PyStr) :
    (∀ path, embeddedText path row = row.1) ↔ Blank row.2 ∧ strip row.1 = row.1 := by
  constructor
  · exact fun all => (embedText_eq_content row).mp (all .update)
  · intro plain path
    cases path with
    | append => rfl
    | update => exact (embedText_eq_content row).mpr plain
    | patch => exact (embedText_eq_content row).mpr plain
    | reindex => rfl

/-- An entry that was just appended, and the append's writer. -/
def justAppended (row : PyStr × Option PyStr) : World PyStr :=
  ⟨append emptyDb 1 row.1 row.2 [] (py "2026-05-10"), Table.empty.put 1 (.appended 1 row.1)⟩

theorem getText_justAppended (row : PyStr × Option PyStr) :
    getText (justAppended row).db 1 = some row := by
  simp [getText, active, justAppended, append]

/-- The append embeds a new entry, and a PATCH without changes embeds it again. -/
theorem stores_justAppended (row : PyStr × Option PyStr) :
    (∃ db, Stores (fun text => text) .append 1 row (justAppended row).db db) ∧
      ∃ db, Stores (fun text => text) .patch 1 row (justAppended row).db db :=
  ⟨⟨_, .append (Table.get_put_self _ _ _) (getText_justAppended row) rfl⟩,
    ⟨_, .patch 10 (getText_justAppended row)⟩⟩

/-- Two paths never disagree about the vector of an entry, and reindexing an entry
leaves its vector as it is, exactly when its reasoning is blank and its content has
no white space at either end. -/
theorem indexing_paths_agree (row : PyStr × Option PyStr) :
    ((∀ (E : Type) (encode : PyStr → E) (id : EntryId) (path path' : Path)
        (db₁ db₁' db₂ db₂' : Db E), Stores encode path id row db₁ db₁' →
        Stores encode path' id row db₂ db₂' → db₁'.embeddings.get id = db₂'.embeddings.get id) ∧
      ∀ (E : Type) (encode : PyStr → E) (id : EntryId) (path : Path) (db db' : Db E)
        (w t : World E) (p : WriterId) (later : List Action), Stores encode path id row db db' →
        getText w.db id = some row → w.db.embeddings.get id = db'.embeddings.get id →
        w.db.entries.get 0 = none → (∀ q, holding w q = []) →
        (∀ action ∈ later, ofRun p action = true) →
        Replay.run (step encode) w (.startReindex p :: later) = some t →
        t.db.embeddings.get id = w.db.embeddings.get id) ↔
      Blank row.2 ∧ strip row.1 = row.1 := by
  constructor
  · rintro ⟨agree, _⟩
    obtain ⟨⟨_, appended⟩, _, patched⟩ := stores_justAppended row
    have same := agree PyStr (fun text => text) 1 .append .patch _ _ _ _ appended patched
    rw [embedding_of_stores appended, embedding_of_stores patched, Option.some.injEq] at same
    exact (embedText_eq_content row).mp same.symm
  · intro plain
    have texts := (embeddedText_agree row).mpr plain
    constructor
    · intro E encode id path path' db₁ db₁' db₂ db₂' stores stores'
      rw [embedding_of_stores stores, embedding_of_stores stores', texts path, texts path']
    · intro E encode id path db db' w t p later stores current stored numbered idle solo ran
      rcases (reindexing_of_run numbered idle solo ran).embeddings id with same | ⟨_, rewritten⟩
      · exact same
      · obtain ⟨content, reasoning, before, after⟩ := rewritten
        obtain rfl : row = (content, reasoning) := Option.some.inj (current.symm.trans before)
        rw [after, stored, embedding_of_stores stores, texts path]

/-- The append leaves the reasoning out of the vector, the PATCH puts it in. -/
theorem reasoning_embedded_by_patch_only :
    ¬ ∀ (E : Type) (encode : PyStr → E) (id : EntryId) (row : PyStr × Option PyStr)
      (path path' : Path) (db₁ db₁' db₂ db₂' : Db E), Stores encode path id row db₁ db₁' →
      Stores encode path' id row db₂ db₂' → db₁'.embeddings.get id = db₂'.embeddings.get id := by
  intro all
  obtain ⟨⟨_, appended⟩, _, patched⟩ :=
    stores_justAppended (py "Booked the flight", some (py "Cheapest in May"))
  have same := all PyStr (fun text => text) 1 _ .append .patch _ _ _ _ appended patched
  rw [embedding_of_stores appended, embedding_of_stores patched] at same
  revert same
  decide

end EmbeddedText
