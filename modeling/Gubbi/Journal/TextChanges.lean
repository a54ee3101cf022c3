import Gubbi.Journal.Freshness

/-!
# Changes of the text of an entry

`entries.update` and `_upsert_linked_entry` write the text of an entry. Both take
the entry out of the index; the update deletes the embedding as well, in the same
transaction, and the linked entry keeps it. Semantic search reads
`entry_embeddings` and not the stamp.
-/

namespace TextChanges

open Text JournalEntries EmbeddingFreshness

universe u

/-- A transaction that writes texts of an entry. -/
inductive TextWrite
  | update (id : EntryId) (content reasoning : Option PyStr) (mode : Mode) (date : Option PyStr)
      (tags : Option (List PyStr))
  | saveConversation (conversationId : ConversationId) (title summary date : PyStr)
      (newId : EntryId)

section Writes
variable {E : Type u}

/-- What is committed; `none` is a transaction that raises. -/
def TextWrite.commit (db : Db E) : TextWrite → Option (Db E)
  | .update id content reasoning mode date tags =>
    JournalEntries.update db id content reasoning mode date tags
  | .saveConversation conversationId title summary date newId =>
    if db.entries.get newId = none then
      some (upsertLinkedEntry db conversationId title summary date newId).1
    else none

/-- An update that is given a date or tags only. -/
def TextWrite.textless : TextWrite → Bool
  | .update _ content reasoning _ _ _ => content.isNone && reasoning.isNone
  | .saveConversation .. => false

def texts (entry : Entry) : PyStr × Option PyStr := (entry.content, entry.reasoning)

variable (encode : PyStr → E)

/-- No entry has a new text together with the embedding of its old one. -/
def RemovesOld (db db' : Db E) : Prop :=
  ∀ id before after embedding, db.entries.get id = some before →
    db'.entries.get id = some after → texts after ≠ texts before →
    db.embeddings.get id = some embedding → FreshFor encode before embedding →
    db'.embeddings.get id ≠ some embedding

def LeavesIndex (db db' : Db E) : Prop :=
  db'.embeddings = db.embeddings ∧
    ∀ id, (db'.entries.get id).map Entry.indexedAt = (db.entries.get id).map Entry.indexedAt

def Atomic (db : Db E) (write : TextWrite) : Prop :=
  ∀ db', write.commit db = some db' →
    RemovesOld encode db db' ∧ (write.textless = true → LeavesIndex db db')

/-- A save finds no linked entry with another text and the embedding of that text. -/
def Clean (db : Db E) : TextWrite → Prop
  | .update .. => True
  | .saveConversation conversationId title summary _ newId =>
    db.entries.get newId = none → ∀ id ∈ linkedEntry db conversationId,
      ∀ entry ∈ db.entries.get id, texts entry = (linkedContent title summary, none) ∨
        ∀ embedding ∈ db.embeddings.get id, ¬ FreshFor encode entry embedding

variable {encode} {db db' : Db E} {id : EntryId}

/-- An update deletes the embedding with the text, or writes neither. -/
theorem update_atomic {content reasoning : Option PyStr} {mode : Mode} {date : Option PyStr}
    {tags : Option (List PyStr)}
    (h : JournalEntries.update db id content reasoning mode date tags = some db') :
    RemovesOld encode db db' ∧
      ((content.isNone && reasoning.isNone) = true → LeavesIndex db db') := by
  obtain ⟨entry, hactive, rfl⟩ := Option.map_eq_some_iff.mp h
  have hentry := (active_eq_some.mp hactive).1
  constructor
  · intro key before after embedding hbefore hafter hchanged hembedding _
    by_cases hkey : key = id
    · subst hkey
      obtain rfl : entry = before := Option.some.inj (hentry.symm.trans hbefore)
      obtain rfl := Option.some.inj ((Table.get_put_self _ _ _).symm.trans hafter)
      have given : (content.isSome || reasoning.isSome) = true := by
        by_contra none_given
        rw [Bool.not_eq_true, Bool.or_eq_false_iff] at none_given
        obtain ⟨hcontent, hreasoning⟩ := none_given
        rw [Option.isSome_eq_false_iff, Option.isNone_iff_eq_none] at hcontent hreasoning
        subst hcontent hreasoning
        exact hchanged rfl
      simp only [given, if_true, Table.get_erase_self]
      exact (Option.some_ne_none embedding).symm
    · rw [Table.get_put_ne _ _ hkey] at hafter
      obtain rfl : before = after := Option.some.inj (hbefore.symm.trans hafter)
      exact absurd rfl hchanged
  · intro hnone
    obtain ⟨hcontent, hreasoning⟩ := Bool.and_eq_true_iff.mp hnone
    rw [Option.isNone_iff_eq_none] at hcontent hreasoning
    subst hcontent hreasoning
    refine ⟨rfl, fun key => ?_⟩
    rw [Table.get_put]
    by_cases hkey : key = id
    · subst hkey
      simp [hentry, Entry.update]
    · simp [hkey]

theorem upsertLinkedEntry_linked {conversationId : ConversationId} (title summary date : PyStr)
    (newId : EntryId) {entry : Entry} (hlinked : linkedEntry db conversationId = some id)
    (hentry : db.entries.get id = some entry) :
    (upsertLinkedEntry db conversationId title summary date newId).1.entries.get id =
      some { entry with
        content := linkedContent title summary
        reasoning := none
        date := date
        indexedAt := none } := by
  unfold upsertLinkedEntry
  rw [hlinked]
  exact Table.get_modify_self _ hentry

/-- A save rewrites the linked entry and no embedding. -/
theorem upsertLinkedEntry_texts (conversationId : ConversationId) (title summary date : PyStr)
    {newId key : EntryId} {before after : Entry} (fresh : db.entries.get newId = none)
    (hbefore : db.entries.get key = some before)
    (hafter : (upsertLinkedEntry db conversationId title summary date newId).1.entries.get key =
      some after) :
    after = before ∨
      (linkedEntry db conversationId = some key ∧
        texts after = (linkedContent title summary, none)) := by
  unfold upsertLinkedEntry at hafter
  cases hlinked : linkedEntry db conversationId with
  | none =>
    simp only [hlinked] at hafter
    rw [Table.get_put_of_absent _ fresh hbefore] at hafter
    exact Or.inl (Option.some.inj hafter).symm
  | some id =>
    simp only [hlinked] at hafter
    by_cases hkey : key = id
    · subst hkey
      rw [Table.get_modify_self _ hbefore] at hafter
      obtain rfl := Option.some.inj hafter
      exact Or.inr ⟨rfl, rfl⟩
    · rw [Table.get_modify_ne _ _ hkey, hbefore] at hafter
      exact Or.inl (Option.some.inj hafter).symm

theorem upsertLinkedEntry_embeddings (db : Db E) (conversationId : ConversationId)
    (title summary date : PyStr) (newId : EntryId) :
    (upsertLinkedEntry db conversationId title summary date newId).1.embeddings =
      db.embeddings := by
  unfold upsertLinkedEntry
  cases linkedEntry db conversationId <;> rfl

/-- From every state, a write of a text commits without leaving the embedding of the
old text, and an update of date and tags leaves the index alone, exactly when the
write is an update or a save that has no such embedding to remove. -/
theorem atomic_iff (db : Db E) (write : TextWrite) : Atomic encode db write ↔
    Clean encode db write := by
  cases write with
  | update id content reasoning mode date tags =>
    constructor
    · exact fun _ => trivial
    · exact fun _ db' h => update_atomic h
  | saveConversation conversationId title summary date newId =>
    constructor
    · intro atomic fresh id hlinked entry hentry
      by_cases same : texts entry = (linkedContent title summary, none)
      · exact Or.inl same
      · refine Or.inr fun embedding hembedding hfresh => ?_
        have hrow := upsertLinkedEntry_linked title summary date newId hlinked hentry
        have committed := (atomic _ (if_pos fresh)).1
        refine committed id entry _ embedding hentry hrow (fun texts => same texts.symm) hembedding
          hfresh ?_
        rw [upsertLinkedEntry_embeddings]
        exact hembedding
    · intro clean db' h
      simp only [TextWrite.commit] at h
      split at h
      · rename_i fresh
        cases h
        refine ⟨?_, fun textless => by cases textless⟩
        intro key before after embedding hbefore hafter hchanged hembedding hfresh _
        rcases upsertLinkedEntry_texts _ _ _ _ fresh hbefore hafter with rfl | ⟨hlinked, htexts⟩
        · exact hchanged rfl
        · rcases clean fresh key hlinked before hbefore with same | gone
          · exact hchanged (htexts.trans same.symm)
          · exact gone embedding hembedding hfresh
      · cases h

end Writes

/-- A conversation that was saved, and its linked entry embedded. -/
def savedTrip : Db PyStr :=
  markIndexed (saveByVector (upsertLinkedEntry emptyDb 7 (py "Trip") (py "Plans")
    (py "2026-05-10") 1).1 1 (linkedContent (py "Trip") (py "Plans"))) 1 10

/-- A second save puts its text over the embedding of the first. -/
theorem resave_keeps_embedding :
    ¬ Atomic (fun text => text) savedTrip
      (.saveConversation 7 (py "Trip") (py "Cancelled") (py "2026-05-11") 2) := by
  intro atomic
  have clean := (atomic _ rfl).1 1 _ _ _ rfl rfl (by decide) rfl (Or.inl rfl)
  exact clean rfl

end TextChanges
