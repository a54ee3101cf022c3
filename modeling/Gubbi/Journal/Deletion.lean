import Gubbi.Journal.EmbeddedText

/-!
# Deleted entries

A delete removes the embedding with the entry. The writers of embeddings have
read the text of the entry before, and store by id: two of them, the update tool
and the web PATCH, look at the entry once more, in a statement of its own before
the store, the others do not. The linked entry of a conversation is rewritten
without a look at `deleted_at`.
-/

namespace EntryDeletion

open Text JournalEntries
open EmbeddingFreshness (WriterId Writer)

universe u

/-- Where a PATCH stands after its commit. -/
inductive Reembed
  | patched (id : EntryId)
  | encoding (id : EntryId) (rowData : PyStr × Option PyStr)
  | checked (id : EntryId) (text : PyStr)

structure World (E : Type u) where
  journal : EmbeddingFreshness.World E
  reembeds : Table WriterId Reembed

section Steps
variable {E : Type u} (encode : PyStr → E)

def World.start : World E := ⟨EmbeddingFreshness.World.start, Table.empty⟩

abbrev World.db (w : World E) : Db E := w.journal.db

def World.write (w : World E) (db : Db E) : World E :=
  { w with journal := { w.journal with db := db } }

def World.goto (w : World E) (p : WriterId) (reembed : Reembed) : World E :=
  { w with reembeds := w.reembeds.put p reembed }

def World.finish (w : World E) (p : WriterId) : World E :=
  { w with reembeds := w.reembeds.erase p }

/-- The update of the web PATCH commits. -/
def patch (w : World E) (p : WriterId) (id : EntryId) (content reasoning : Option PyStr)
    (date : Option PyStr) (tags : Option (List PyStr)) : Option (World E) :=
  if w.reembeds.get p = none then
    (update w.db id content reasoning .replace date tags).map fun db =>
      if content.isSome || reasoning.isSome then (w.write db).goto p (.patched id)
      else w.write db
  else none

/-- The first read of `_reembed_if_changed`. -/
def patchRead (w : World E) (p : WriterId) : Option (World E) :=
  match w.reembeds.get p with
  | some (.patched id) =>
    match getText w.db id with
    | some rowData => some (w.goto p (.encoding id rowData))
    | none => some (w.finish p)
  | _ => none

/-- Its second read, after the text is encoded. -/
def patchCheck (w : World E) (p : WriterId) : Option (World E) :=
  match w.reembeds.get p with
  | some (.encoding id rowData) =>
    if getText w.db id = some rowData then
      some (w.goto p (.checked id (EmbeddedText.reembedText rowData)))
    else some (w.finish p)
  | _ => none

/-- What it does when the text has not changed. -/
def storeChecked (w : World E) (p : WriterId) (now : Time) : Option (World E) :=
  match w.reembeds.get p with
  | some (.checked id text) =>
    some ((w.write (markIndexed (saveByVector w.db id (encode text)) id now)).finish p)
  | _ => none

def abandon (w : World E) (p : WriterId) : Option (World E) :=
  (w.reembeds.get p).map fun _ => w.finish p

/-- A step of the tools and of the reindex, or of a PATCH. -/
inductive Action
  | journal (action : EmbeddingFreshness.Action)
  | patch (p : WriterId) (id : EntryId) (content reasoning : Option PyStr)
      (date : Option PyStr) (tags : Option (List PyStr))
  | patchRead (p : WriterId)
  | patchCheck (p : WriterId)
  | storeChecked (p : WriterId) (now : Time)
  | abandon (p : WriterId)

def step (w : World E) : Action → Option (World E)
  | .journal action =>
    (EmbeddingFreshness.step encode w.journal action).map fun journal =>
      { w with journal := journal }
  | .patch p id content reasoning date tags => patch w p id content reasoning date tags
  | .patchRead p => patchRead w p
  | .patchCheck p => patchCheck w p
  | .storeChecked p now => storeChecked encode w p now
  | .abandon p => abandon w p

end Steps

section Deleted
variable {E : Type u}

/-- An entry whose delete has committed. -/
def deleted (db : Db E) (id : EntryId) : Option Entry :=
  (db.entries.get id).filter (fun entry => entry.deletedAt ≠ none)

/-- The entry is deleted with this content, and nothing is derived from it. -/
def Gone (db : Db E) (id : EntryId) (content : PyStr) : Prop :=
  (∃ entry, deleted db id = some entry ∧ entry.content = content) ∧ db.embeddings.get id = none

/-- What a state owes to an earlier one: every entry that was deleted there is
deleted with the content it had, and without an embedding. -/
def KeepsDeleted (w t : World E) : Prop :=
  ∀ id entry, deleted w.db id = some entry → Gone t.db id entry.content

/-- The text of a linked entry is not put on a deleted row, unless it is there
already, and a vector is stored only for an entry that is not deleted. -/
def SparesDeleted (w : World E) : Action → Prop
  | .journal (.saveAppended p) | .journal (.saveUpdated p _) | .journal (.embedLinked p _)
  | .journal (.saveIndexed p) =>
    ∀ row ∈ (w.journal.writers.get p).bind Writer.pending, deleted w.db row.1 = none
  | .journal (.saveConversation _ conversationId title summary _ _) =>
    ∀ id ∈ linkedEntry w.db conversationId, ∀ entry ∈ deleted w.db id,
      entry.content = linkedContent title summary
  | .storeChecked p _ =>
    match w.reembeds.get p with
    | some (.checked id _) => deleted w.db id = none
    | _ => True
  | _ => True

variable {db db' : Db E} {id : EntryId} {entry : Entry}

theorem deleted_eq_some : deleted db id = some entry ↔
    db.entries.get id = some entry ∧ entry.deletedAt ≠ none := by
  rw [deleted, Option.filter_eq_some_iff]
  simp

/-- A write that leaves the deleted entries as they are, and deletes an entry only
together with its embedding. -/
structure Spares (db db' : Db E) : Prop where
  keeps : ∀ id content, Gone db id content → Gone db' id content
  origin : ∀ id, deleted db' id ≠ none → deleted db id ≠ none ∨ db'.embeddings.get id = none

theorem Spares.refl (db : Db E) : Spares db db where
  keeps := fun _ _ gone => gone
  origin := fun _ found => Or.inl found

/-- What is said of the deleted rows is enough where no embedding is written. -/
theorem Spares.of_deleted (same : db'.embeddings = db.embeddings)
    (kept : ∀ id entry, deleted db id = some entry →
      ∃ entry', deleted db' id = some entry' ∧ entry'.content = entry.content)
    (none_new : ∀ id, deleted db id = none → deleted db' id = none) : Spares db db' where
  keeps := by
    rintro id content ⟨⟨entry, found, rfl⟩, bare⟩
    exact ⟨kept id entry found, by rw [same]; exact bare⟩
  origin := fun id found => Or.inl fun absent => found (none_new id absent)

theorem deleted_put_ne {entries : Table EntryId Entry} {embeddings embeddings' : Table EntryId E}
    {key : EntryId} (hne : key ≠ id) :
    deleted (⟨entries.put id entry, embeddings'⟩ : Db E) key =
      deleted (⟨entries, embeddings⟩ : Db E) key := by
  rw [deleted, deleted, Table.get_put_ne _ _ hne]

theorem deleted_put_self {entries : Table EntryId Entry} {embeddings : Table EntryId E} :
    deleted (⟨entries.put id entry, embeddings⟩ : Db E) id =
      if entry.deletedAt = none then none else some entry := by
  rw [deleted, Table.get_put_self, Option.filter_some]
  by_cases h : entry.deletedAt = none <;> simp [h]

theorem deleted_of_active (hactive : active db id = some entry) : deleted db id = none := by
  obtain ⟨hentry, hnone⟩ := active_eq_some.mp hactive
  rw [deleted, hentry, Option.filter_some]
  simp [hnone]

/-- A row is put in the place of none, or of an active one, and it is active. -/
theorem Spares.put_active (free : deleted db id = none) (hactive : entry.deletedAt = none) :
    Spares db { db with entries := db.entries.put id entry } := by
  have same : ∀ key, deleted { db with entries := db.entries.put id entry } key =
      deleted db key := by
    intro key
    by_cases hkey : key = id
    · rw [hkey, deleted_put_self, if_pos hactive, free]
    · exact deleted_put_ne hkey
  refine Spares.of_deleted rfl ?_ ?_
  · intro key row found
    exact ⟨row, (same key).trans found, rfl⟩
  · intro key absent
    exact (same key).trans absent

theorem Spares.of_update {f : EntryId → Entry → Entry}
    (content : ∀ id, ∀ entry ∈ deleted db id, (f id entry).content = entry.content)
    (deletedAt : ∀ id entry, (f id entry).deletedAt = entry.deletedAt) :
    Spares db { db with entries := db.entries.update f } := by
  have get : ∀ key, deleted { db with entries := db.entries.update f } key =
      (deleted db key).map (f key) := by
    intro key
    rw [deleted, deleted, Table.get_update]
    cases db.entries.get key with
    | none => rfl
    | some row => by_cases h : row.deletedAt = none <;> simp [Option.filter_some, h, deletedAt]
  refine Spares.of_deleted rfl ?_ ?_
  · intro key row found
    exact ⟨f key row, by rw [get, found]; rfl, content key row found⟩
  · intro key absent
    rw [get, absent]
    rfl

theorem Spares.trans {db'' : Db E} (first : Spares db db') (second : Spares db' db'') :
    Spares db db'' where
  keeps := fun id content gone => second.keeps id content (first.keeps id content gone)
  origin := by
    intro id found
    rcases second.origin id found with found' | bare
    · rcases first.origin id found' with found | bare
      · exact Or.inl found
      · obtain ⟨entry, hentry⟩ := Option.ne_none_iff_exists'.mp found'
        exact Or.inr (second.keeps id entry.content ⟨⟨entry, hentry, rfl⟩, bare⟩).2
    · exact Or.inr bare

theorem Spares.erase (db : Db E) (id : EntryId) :
    Spares db { db with embeddings := db.embeddings.erase id } where
  keeps := by
    rintro key content ⟨found, bare⟩
    refine ⟨found, ?_⟩
    simp only [Table.get_erase, bare, ite_self]
  origin := fun _ found => Or.inl found

theorem Spares.save (free : deleted db id = none) (embedding : E) :
    Spares db (saveByVector db id embedding) where
  keeps := by
    rintro key content ⟨⟨entry, found, rfl⟩, bare⟩
    have hne : key ≠ id := by
      rintro rfl
      have found : deleted db key = some entry := found
      rw [free] at found
      cases found
    exact ⟨⟨entry, found, rfl⟩, (Table.get_put_ne _ _ hne).trans bare⟩
  origin := fun _ found => Or.inl found

theorem Spares.stamp (db : Db E) (ids : List EntryId) (now : Time) :
    Spares db (markIndexedBatch db ids now) :=
  Spares.of_update (fun id entry _ => by split <;> rfl) (fun id entry => by split <;> rfl)

theorem Spares.reset (db : Db E) (ids : List EntryId) : Spares db (resetIndexedAtForIds db ids) :=
  Spares.of_update (fun id entry _ => by split <;> rfl) (fun id entry => by split <;> rfl)

theorem Spares.mark (db : Db E) (id : EntryId) (now : Time) :
    Spares db (markIndexed db id now) := by
  rw [EmbeddingFreshness.markIndexed_eq]
  exact Spares.stamp db [id] now

theorem Spares.append (fresh : db.entries.get id = none) (content : PyStr)
    (reasoning : Option PyStr) (tags : List PyStr) (date : PyStr) :
    Spares db (append db id content reasoning tags date) := by
  refine Spares.put_active ?_ rfl
  rw [deleted, fresh, Option.filter_none]

theorem Spares.update {content reasoning : Option PyStr} {mode : Mode} {date : Option PyStr}
    {tags : Option (List PyStr)} (h : update db id content reasoning mode date tags = some db') :
    Spares db db' := by
  obtain ⟨entry, hactive, rfl⟩ := Option.map_eq_some_iff.mp h
  have rewritten : Spares db { db with
      entries := db.entries.put id (entry.update content reasoning mode date tags) } :=
    Spares.put_active (deleted_of_active hactive) (active_eq_some.mp hactive).2
  by_cases texts : (content.isSome || reasoning.isSome) = true
  · simp only [texts, if_true]
    exact rewritten.trans (Spares.erase _ id)
  · simp only [texts]
    exact rewritten

theorem Spares.delete {now : Time} (h : delete db id now = some db') : Spares db db' := by
  obtain ⟨entry, hactive, rfl⟩ := Option.map_eq_some_iff.mp h
  refine ⟨?_, ?_⟩
  · rintro key content ⟨⟨row, found, rfl⟩, bare⟩
    have hne : key ≠ id := by
      rintro rfl
      rw [deleted_of_active hactive] at found
      cases found
    refine ⟨⟨row, (deleted_put_ne hne).trans found, rfl⟩, ?_⟩
    exact (Table.get_erase _ _ _).trans (by simp [bare])
  · intro key found
    by_cases hkey : key = id
    · subst hkey
      exact Or.inr (Table.get_erase_self _ _)
    · exact Or.inl fun absent => found ((deleted_put_ne hkey).trans absent)

/-- The rewrite of a linked entry, with a text that a deleted one has already. -/
theorem Spares.upsertLinkedEntry {conversationId : ConversationId} {title summary : PyStr}
    (date : PyStr) {newId : EntryId} (fresh : db.entries.get newId = none)
    (same : ∀ id ∈ linkedEntry db conversationId, ∀ entry ∈ deleted db id,
      entry.content = linkedContent title summary) :
    Spares db (upsertLinkedEntry db conversationId title summary date newId).1 := by
  unfold JournalEntries.upsertLinkedEntry
  cases hlinked : linkedEntry db conversationId with
  | none =>
    refine Spares.put_active ?_ rfl
    rw [deleted, fresh, Option.filter_none]
  | some id =>
    refine Spares.of_update ?_ (fun key entry => by split <;> rfl)
    intro key entry found
    by_cases hkey : key = id
    · subst hkey
      rw [if_pos rfl]
      exact (same key hlinked entry found).symm
    · rw [if_neg hkey]

end Deleted

section Runs
variable {E : Type u} {encode : PyStr → E}

theorem spares_journal {w t : EmbeddingFreshness.World E} {reembeds : Table WriterId Reembed}
    {action : EmbeddingFreshness.Action} (spared : SparesDeleted ⟨w, reembeds⟩ (.journal action))
    (h : EmbeddingFreshness.step encode w action = some t) : Spares w.db t.db := by
  cases EmbeddingFreshness.taken_of_step h with
  | appendEntry p id content reasoning tags date idle free =>
    exact Spares.append free content reasoning tags date
  | saveAppended p id content stands =>
    exact Spares.save (spared (id, content) (by simp [stands, Writer.pending])) _
  | markAppended p now id stands => exact Spares.mark _ _ _
  | updateTexts p id content reasoning mode date tags db row idle updated given texts =>
    exact Spares.update updated
  | updateFields p id content reasoning mode date tags db idle updated noTexts =>
    exact Spares.update updated
  | checkUpdated p id row stands same => exact Spares.refl _
  | leaveAlone p id row stands changed => exact Spares.refl _
  | saveUpdated p now id text stands =>
    have free := spared (id, text) (by simp [stands, Writer.pending])
    exact (Spares.save free _).trans (Spares.mark _ _ _)
  | deleteEntry id now db removed => exact Spares.delete removed
  | saveConversation p conversationId title summary date newId idle free =>
    exact Spares.upsertLinkedEntry date free spared
  | embedLinked p now id content stands =>
    have free := spared (id, content) (by simp [stands, Writer.pending])
    exact (Spares.save free _).trans (Spares.mark _ _ _)
  | startReindex p idle => exact Spares.refl _
  | claimNothing p locked now lastId stands read => exact Spares.refl _
  | claim p locked now lastId row batch stands read => exact Spares.stamp _ _ _
  | saveIndexed p lastId row todo succeeded failed stands =>
    exact Spares.save (spared row (by simp [stands, Writer.pending])) _
  | saveIndexedFails p lastId row todo succeeded failed stands => exact Spares.refl _
  | endBatch p lastId next succeeded failed stands greatest => exact Spares.reset _ _
  | endScan p lastId succeeded failed stands none => exact Spares.reset _ _
  | abandon p writer stands => exact Spares.refl _

theorem spares_step {w t : World E} {action : Action} (spared : SparesDeleted w action)
    (h : step encode w action = some t) : Spares w.db t.db := by
  cases action with
  | journal action =>
    obtain ⟨journal, hjournal, rfl⟩ := Option.map_eq_some_iff.mp h
    exact spares_journal spared hjournal
  | patch p id content reasoning date tags =>
    simp only [step, patch] at h
    split at h
    · obtain ⟨db, hupdate, rfl⟩ := Option.map_eq_some_iff.mp h
      have spares := Spares.update hupdate
      split <;> exact spares
    · cases h
  | patchRead p =>
    simp only [step, patchRead] at h
    split at h
    · split at h <;> cases h <;> exact Spares.refl _
    · cases h
  | patchCheck p =>
    simp only [step, patchCheck] at h
    split at h
    · split at h <;> cases h <;> exact Spares.refl _
    · cases h
  | storeChecked p now =>
    simp only [step, storeChecked] at h
    split at h
    · rename_i id text hget
      cases h
      have free : deleted w.db id = none := by simpa [SparesDeleted, hget] using spared
      exact (Spares.save free _).trans (Spares.mark _ _ _)
    · cases h
  | abandon p =>
    obtain ⟨reembed, _, rfl⟩ := Option.map_eq_some_iff.mp h
    exact Spares.refl _

/-- A stored vector shows that the entry was not deleted. -/
theorem free_of_stored {w t : World E} (keeps : KeepsDeleted w t) {id : EntryId} {embedding : E}
    (stored : t.db.embeddings.get id = some embedding) : deleted w.db id = none := by
  cases found : deleted w.db id with
  | none => rfl
  | some entry =>
    have bare := (keeps id entry found).2
    rw [stored] at bare
    cases bare

theorem spared_of_stored {w t : World E} (keeps : KeepsDeleted w t) {p : WriterId}
    {writer : Writer} {row : EntryId × PyStr} {embedding : E}
    (hget : w.journal.writers.get p = some writer) (hrow : writer.pending = some row)
    (stored : t.db.embeddings.get row.1 = some embedding) :
    ∀ row ∈ (w.journal.writers.get p).bind Writer.pending, deleted w.db row.1 = none := by
  intro found hfound
  rw [hget, Option.bind_some, hrow] at hfound
  cases hfound
  exact free_of_stored keeps stored

/-- So does the new text of a linked entry, unless it had that text before. -/
theorem same_of_rewritten {w t : World E} (keeps : KeepsDeleted w t)
    {conversationId : ConversationId} {title summary date : PyStr} {newId id : EntryId}
    (saved : t.db = (upsertLinkedEntry w.db conversationId title summary date newId).1)
    (linked : linkedEntry w.db conversationId = some id) {entry : Entry}
    (found : deleted w.db id = some entry) : entry.content = linkedContent title summary := by
  obtain ⟨⟨entry', found', same⟩, _⟩ := keeps id entry found
  have row := (deleted_eq_some.mp found').1
  rw [saved] at row
  simp only [upsertLinkedEntry, linked] at row
  rw [Table.get_modify_self _ (deleted_eq_some.mp found).1] at row
  cases row
  exact same.symm

theorem spared_of_keeps {w t : World E} {action : Action} (h : step encode w action = some t)
    (keeps : KeepsDeleted w t) : SparesDeleted w action := by
  cases action with
  | journal action =>
    obtain ⟨journal, hjournal, rfl⟩ := Option.map_eq_some_iff.mp h
    cases EmbeddingFreshness.taken_of_step hjournal with
    | saveAppended p id content stands =>
      exact spared_of_stored keeps stands rfl (Table.get_put_self _ _ _)
    | saveUpdated p now id text stands =>
      exact spared_of_stored keeps stands rfl (Table.get_put_self _ _ _)
    | embedLinked p now id content stands =>
      exact spared_of_stored keeps stands rfl (Table.get_put_self _ _ _)
    | saveIndexed p lastId row todo succeeded failed stands =>
      exact spared_of_stored keeps stands rfl (Table.get_put_self _ _ _)
    | saveConversation p conversationId title summary date newId idle free =>
      intro id linked entry found
      exact same_of_rewritten keeps rfl linked found
    | appendEntry | markAppended | updateTexts | updateFields | checkUpdated | leaveAlone
    | deleteEntry | startReindex | claimNothing | claim | saveIndexedFails | endBatch | endScan
    | abandon => trivial
  | storeChecked p now =>
    simp only [step, storeChecked] at h
    split at h
    · rename_i id text hget
      cases h
      simp only [SparesDeleted, hget]
      exact free_of_stored keeps (Table.get_put_self _ _ _)
    · cases h
  | patch | patchRead | patchCheck | abandon => trivial

theorem keepsDeleted_step {m w t : World E} {action : Action} (keeps : KeepsDeleted m w)
    (spared : SparesDeleted w action) (h : step encode w action = some t) : KeepsDeleted m t :=
  fun id entry found => (spares_step spared h).keeps id entry.content (keeps id entry found)

theorem keepsDeleted_self {w t : World E} {action : Action} (keeps : KeepsDeleted w w)
    (spared : SparesDeleted w action) (h : step encode w action = some t) : KeepsDeleted t t := by
  intro id entry found
  refine ⟨⟨entry, found, rfl⟩, ?_⟩
  have spares := spares_step spared h
  rcases spares.origin id (by rw [found]; exact Option.some_ne_none entry) with before | bare
  · obtain ⟨old, hold⟩ := Option.ne_none_iff_exists'.mp before
    exact (spares.keeps id old.content (keeps id old hold)).2
  · exact bare

theorem keepsDeleted_start : KeepsDeleted (World.start : World E) World.start := by
  intro id entry found
  have row := (deleted_eq_some.mp found).1
  cases row

/-- In every state that a run reaches after an entry's delete has committed, the
entry has no embedding and the content that it was deleted with, exactly when no
vector is stored for an entry that is deleted by then, and no save puts another
text on a linked entry that is deleted by then. -/
theorem deletions_last_iff {actions : List Action} {w : World E}
    (ran : Replay.run (step encode) World.start actions = some w) :
    Replay.Lasting (step encode) KeepsDeleted World.start actions ↔
      Replay.Obeys (step encode) SparesDeleted World.start actions :=
  Replay.lasting_iff_obeys (r := KeepsDeleted)
    (fun _ _ _ _ keeps spared h => keepsDeleted_step keeps spared h)
    (fun _ _ _ keeps spared h => keepsDeleted_self keeps spared h)
    (fun _ _ _ h keeps => spared_of_keeps h keeps) keepsDeleted_start ran

end Runs

/-- A PATCH has read the text when the entry is deleted; it stores nothing. -/
def patchedSession : List Action :=
  [.journal (.appendEntry 1 1 (py "first") none [] (py "2026-05-10")),
    .journal (.saveAppended 1), .journal (.markAppended 1 10),
    .patch 2 1 (some (py "second")) none none none, .patchRead 2, .journal (.deleteEntry 1 20),
    .patchCheck 2]

theorem deletions_last_patched :
    Replay.Lasting (step (fun text => text)) KeepsDeleted (World.start : World PyStr)
      patchedSession :=
  (deletions_last_iff rfl).mpr
    ⟨trivial, by rintro _ ⟨⟩; rfl, trivial, trivial, trivial, trivial, trivial, trivial⟩

def lateAppend : List Action :=
  [.journal (.appendEntry 1 1 (py "first") none [] (py "2026-05-10")),
    .journal (.deleteEntry 1 10), .journal (.saveAppended 1)]

def resave : List Action :=
  [.journal (.saveConversation 1 7 (py "Trip") (py "Plans") (py "2026-05-10") 1),
    .journal (.embedLinked 1 10), .journal (.deleteEntry 1 20),
    .journal (.saveConversation 2 7 (py "Trip") (py "New plans") (py "2026-05-11") 2)]

/-- The append stores the vector of an entry that was deleted while it encoded the
text, and a second save of a conversation rewrites its deleted entry. -/
theorem deleted_entries_written :
    ¬ Replay.Lasting (step (fun text => text)) KeepsDeleted (World.start : World PyStr)
        lateAppend ∧
      ¬ Replay.Lasting (step (fun text => text)) KeepsDeleted (World.start : World PyStr)
        resave := by
  constructor
  · intro lasting
    have reached := lasting (lateAppend.take 2) (lateAppend.drop 2) _ rfl rfl
    have kept := Replay.throughout_last reached rfl
    cases (kept 1 _ rfl).2
  · intro lasting
    have reached := lasting (resave.take 3) (resave.drop 3) _ rfl rfl
    have kept := Replay.throughout_last reached rfl
    obtain ⟨⟨entry, found, same⟩, _⟩ := kept 1 _ rfl
    cases found
    revert same
    decide

end EntryDeletion
