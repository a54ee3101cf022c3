import Gubbi.Journal.Freshness
import Gubbi.Library.Keyset

/-!
# Reindexing after a crash

A reindex stamps the rows of a batch before it has their embeddings, so a stamped
row without one has to be in the hands of a run that will save or reset it. The
steps are those of all writers; a run that dies is an `abandon`.
-/

namespace ReindexRecovery

open Text JournalEntries EmbeddingFreshness

universe u

/-- The rows a run has claimed and has neither saved nor reset. -/
def holds : Writer → List EntryId
  | .indexing _ todo _ failed => todo.map Prod.fst ++ failed
  | _ => []

section Claims
variable {E : Type u} (encode : PyStr → E)

def holding (w : World E) (p : WriterId) : List EntryId :=
  ((w.writers.get p).map holds).getD []

/-- An active entry without an embedding that the next reindex passes over. -/
def Stamped (db : Db E) (id : EntryId) : Prop :=
  ∃ entry, active db id = some entry ∧ db.embeddings.get id = none ∧ entry.indexedAt ≠ none

/-- An active entry without an embedding is unindexed, or a live run holds it. -/
def Claimed (w : World E) : Prop :=
  ∀ id entry, active w.db id = some entry → w.db.embeddings.get id = none →
    entry.indexedAt = none ∨ ∃ p, id ∈ holding w p

def heldElsewhere (w : World E) (p : WriterId) (id : EntryId) : Bool :=
  w.writers.rows.any (fun row => row.1 ≠ p && decide (id ∈ holds row.2))

/-- A run dies only when each row it still holds is deleted, has an embedding, is
unindexed again or is held by another run too; and an append marks its entry only
while that has an embedding or is held. -/
def losesNothing (w : World E) : Action → Bool
  | .abandon p =>
    (holding w p).all (fun id => (active w.db id).all (fun entry =>
      (w.db.embeddings.get id).isSome || entry.indexedAt.isNone || heldElsewhere w p id))
  | .markAppended p _ =>
    match w.writers.get p with
    | some (.appendSaved id) =>
      (active w.db id).isNone || (w.db.embeddings.get id).isSome || heldElsewhere w p id
    | _ => true
  | _ => true

variable {encode} {w t : World E} {db : Db E} {p : WriterId} {id : EntryId}

theorem claimed_iff : Claimed w ↔ ∀ id, Stamped w.db id → ∃ p, id ∈ holding w p := by
  constructor
  · rintro claimed id ⟨entry, hactive, bare, stamped⟩
    exact (claimed id entry hactive bare).resolve_left stamped
  · intro held id entry hactive bare
    by_cases unindexed : entry.indexedAt = none
    · exact Or.inl unindexed
    · exact Or.inr (held id ⟨entry, hactive, bare, unindexed⟩)

theorem heldElsewhere_iff : heldElsewhere w p id = true ↔ ∃ q, q ≠ p ∧ id ∈ holding w q := by
  simp only [heldElsewhere, List.any_eq_true, Bool.and_eq_true, decide_eq_true_eq]
  constructor
  · rintro ⟨row, mem, hne, held⟩
    refine ⟨row.1, hne, ?_⟩
    rw [holding, Table.get_eq_some_iff.mpr mem]
    exact held
  · rintro ⟨q, hne, held⟩
    cases hget : w.writers.get q with
    | none => simp [holding, hget] at held
    | some writer =>
      refine ⟨(q, writer), Table.get_eq_some_iff.mp hget, hne, ?_⟩
      simpa [holding, hget] using held

@[simp] theorem holding_goto (w : World E) (p : WriterId) (writer : Writer) :
    holding (w.goto p writer) p = holds writer := by
  simp [holding, World.goto]

theorem holding_goto_ne (w : World E) {p q : WriterId} (writer : Writer) (hne : q ≠ p) :
    holding (w.goto p writer) q = holding w q := by
  simp [holding, World.goto, Table.get_put_ne _ _ hne]

@[simp] theorem holding_finish (w : World E) (p : WriterId) : holding (w.finish p) p = [] := by
  simp [holding, World.finish]

theorem holding_finish_ne (w : World E) {p q : WriterId} (hne : q ≠ p) :
    holding (w.finish p) q = holding w q := by
  simp [holding, World.finish, Table.get_erase, hne]

theorem stamped_append {content : PyStr} {reasoning : Option PyStr} {tags : List PyStr}
    {date : PyStr} {x : EntryId} (h : Stamped (append db id content reasoning tags date) x) :
    Stamped db x := by
  obtain ⟨entry, hactive, bare, stamped⟩ := h
  obtain ⟨hentry, live⟩ := active_eq_some.mp hactive
  rcases Table.get_put_eq_some hentry with ⟨rfl, rfl⟩ | ⟨_, hentry⟩
  · exact absurd rfl stamped
  · exact ⟨entry, active_eq_some.mpr ⟨hentry, live⟩, bare, stamped⟩

theorem stamped_saveByVector {embedding : E} {x : EntryId}
    (h : Stamped (saveByVector db id embedding) x) : Stamped db x ∧ x ≠ id := by
  obtain ⟨entry, hactive, bare, stamped⟩ := h
  have hne : x ≠ id := by
    rintro rfl
    simp [saveByVector] at bare
  exact ⟨⟨entry, hactive, (Table.get_put_ne _ _ hne).symm.trans bare, stamped⟩, hne⟩

theorem stamped_markIndexedBatch {ids : List EntryId} {now : Time} {x : EntryId}
    (h : Stamped (markIndexedBatch db ids now) x) : Stamped db x ∨ x ∈ ids := by
  obtain ⟨row, hactive, bare, stamped⟩ := h
  obtain ⟨hrow, live⟩ := active_eq_some.mp hactive
  obtain ⟨entry, hentry, rfl⟩ :=
    Option.map_eq_some_iff.mp ((Table.get_update _ _ _).symm.trans hrow)
  by_cases mem : x ∈ ids
  · exact Or.inr mem
  · simp only [mem, if_false] at live stamped
    exact Or.inl ⟨entry, active_eq_some.mpr ⟨hentry, live⟩, bare, stamped⟩

theorem stamped_resetIndexedAtForIds {ids : List EntryId} {x : EntryId}
    (h : Stamped (resetIndexedAtForIds db ids) x) : Stamped db x ∧ x ∉ ids := by
  obtain ⟨row, hactive, bare, stamped⟩ := h
  obtain ⟨hrow, live⟩ := active_eq_some.mp hactive
  obtain ⟨entry, hentry, rfl⟩ :=
    Option.map_eq_some_iff.mp ((Table.get_update _ _ _).symm.trans hrow)
  by_cases reset : x ∈ ids ∧ entry.deletedAt = none
  · simp only [reset] at stamped
    exact absurd rfl stamped
  · simp only [reset, if_false] at live stamped
    exact ⟨⟨entry, active_eq_some.mpr ⟨hentry, live⟩, bare, stamped⟩,
      fun mem => reset ⟨mem, live⟩⟩

theorem stamped_update {db' : Db E} {content reasoning : Option PyStr} {mode : Mode}
    {date : Option PyStr} {tags : Option (List PyStr)} {x : EntryId}
    (taken : update db id content reasoning mode date tags = some db') (h : Stamped db' x) :
    Stamped db x := by
  obtain ⟨old, hactive, rfl⟩ := Option.map_eq_some_iff.mp taken
  obtain ⟨entry, hnew, bare, stamped⟩ := h
  obtain ⟨hentry, live⟩ := active_eq_some.mp hnew
  cases texts : content.isSome || reasoning.isSome with
  | true =>
    rcases Table.get_put_eq_some hentry with ⟨rfl, rfl⟩ | ⟨hne, hentry⟩
    · simp [Entry.update, texts] at stamped
    · simp only [texts, if_true, Table.get_erase, if_neg hne] at bare
      exact ⟨entry, active_eq_some.mpr ⟨hentry, live⟩, bare, stamped⟩
  | false =>
    simp only [texts, Bool.false_eq_true, if_false] at bare
    rcases Table.get_put_eq_some hentry with ⟨rfl, rfl⟩ | ⟨_, hentry⟩
    · refine ⟨old, hactive, bare, ?_⟩
      simpa [Entry.update, texts] using stamped
    · exact ⟨entry, active_eq_some.mpr ⟨hentry, live⟩, bare, stamped⟩

theorem stamped_delete {db' : Db E} {now : Time} {x : EntryId}
    (taken : delete db id now = some db') (h : Stamped db' x) : Stamped db x := by
  obtain ⟨old, _, rfl⟩ := Option.map_eq_some_iff.mp taken
  obtain ⟨entry, hnew, bare, stamped⟩ := h
  obtain ⟨hentry, live⟩ := active_eq_some.mp hnew
  rcases Table.get_put_eq_some hentry with ⟨rfl, rfl⟩ | ⟨hne, hentry⟩
  · cases live
  · simp only [Table.get_erase, if_neg hne] at bare
    exact ⟨entry, active_eq_some.mpr ⟨hentry, live⟩, bare, stamped⟩

theorem stamped_upsertLinkedEntry {conversationId : ConversationId} {title summary date : PyStr}
    {newId x : EntryId}
    (h : Stamped (upsertLinkedEntry db conversationId title summary date newId).1 x) :
    Stamped db x := by
  obtain ⟨entry, hnew, bare, stamped⟩ := h
  obtain ⟨hentry, live⟩ := active_eq_some.mp hnew
  unfold upsertLinkedEntry at hentry bare
  split at hentry <;> rename_i linked
  · simp only [linked] at bare
    rw [Table.get_modify] at hentry
    split at hentry
    · obtain ⟨old, _, rfl⟩ := Option.map_eq_some_iff.mp hentry
      exact absurd rfl stamped
    · exact ⟨entry, active_eq_some.mpr ⟨hentry, live⟩, bare, stamped⟩
  · simp only [linked] at bare
    rcases Table.get_put_eq_some hentry with ⟨rfl, rfl⟩ | ⟨_, hentry⟩
    · exact absurd rfl stamped
    · exact ⟨entry, active_eq_some.mpr ⟨hentry, live⟩, bare, stamped⟩

/-- A step of one writer leaves no stamped row to itself or to nobody. -/
theorem claimed_move (claimed : Claimed w) (p : WriterId)
    (others : ∀ q, q ≠ p → holding t q = holding w q)
    (moved : ∀ x, Stamped t.db x → x ∈ holding t p ∨ (Stamped w.db x ∧ x ∉ holding w p)) :
    Claimed t := by
  refine claimed_iff.mpr ?_
  intro x stamped
  rcases moved x stamped with mine | ⟨before, notMine⟩
  · exact ⟨p, mine⟩
  · obtain ⟨q, held⟩ := claimed_iff.mp claimed x before
    have hne : q ≠ p := by
      rintro rfl
      exact notMine held
    exact ⟨q, (others q hne).symm ▸ held⟩

theorem holding_of_get {writer : Writer} (hget : w.writers.get p = some writer) :
    holding w p = holds writer := by
  simp [holding, hget]

theorem holding_of_free (free : w.writers.get p = none) : holding w p = [] := by
  simp [holding, free]

/-- A writer that holds nothing commits something that stamps no bare row. -/
theorem claimed_goto (claimed : Claimed w) {db' : Db E} (writer : Writer)
    (nothing : holding w p = []) (kept : ∀ x, Stamped db' x → Stamped w.db x) :
    Claimed (World.goto { w with db := db' } p writer) := by
  refine claimed_move claimed p (fun q hne => holding_goto_ne _ _ hne) ?_
  intro x stamped
  exact Or.inr ⟨kept x stamped, by simp [nothing]⟩

theorem claimed_finish (claimed : Claimed w) {db' : Db E} (nothing : holding w p = [])
    (kept : ∀ x, Stamped db' x → Stamped w.db x) :
    Claimed (World.finish { w with db := db' } p) := by
  refine claimed_move claimed p (fun q hne => holding_finish_ne _ hne) ?_
  intro x stamped
  exact Or.inr ⟨kept x stamped, by simp [nothing]⟩

theorem stamped_saveAndMark {embedding : E} {now : Time} {x : EntryId}
    (h : Stamped (markIndexed (saveByVector db id embedding) id now) x) : Stamped db x := by
  have elsewhere : x ≠ id := by
    rintro rfl
    obtain ⟨_, _, bare, _⟩ := h
    simp [markIndexed, saveByVector] at bare
  rw [markIndexed_eq] at h
  rcases stamped_markIndexedBatch h with saved | mem
  · exact (stamped_saveByVector saved).1
  · exact absurd (List.mem_singleton.mp mem) elsewhere

/-- Marking an appended entry strands it exactly when its embedding is gone again. -/
theorem claimed_markAppended (claimed : Claimed w) {now : Time}
    (hget : w.writers.get p = some (.appendSaved id)) :
    Claimed (World.finish { w with db := markIndexed w.db id now } p) ↔
      losesNothing w (.markAppended p now) = true := by
  have nothing : holding w p = [] := holding_of_get hget
  simp only [losesNothing, hget, Bool.or_eq_true, Option.isNone_iff_eq_none]
  rw [claimed_iff]
  constructor
  · intro after
    cases hactive : active w.db id with
    | none => exact Or.inl (Or.inl rfl)
    | some entry =>
      cases bare : w.db.embeddings.get id with
      | some embedding => exact Or.inl (Or.inr rfl)
      | none =>
        obtain ⟨hentry, live⟩ := active_eq_some.mp hactive
        have marked : Stamped (markIndexed w.db id now) id :=
          ⟨{ entry with indexedAt := some now },
            active_eq_some.mpr ⟨Table.get_modify_self _ hentry, live⟩, bare, by simp⟩
        obtain ⟨q, held⟩ := after id marked
        have hne : q ≠ p := by
          rintro rfl
          simp at held
        rw [holding_finish_ne _ hne] at held
        exact Or.inr (heldElsewhere_iff.mpr ⟨q, hne, held⟩)
  · intro guarded x stamped
    have byOther : ∀ q, q ≠ p → x ∈ holding w q →
        ∃ q, x ∈ holding (World.finish { w with db := markIndexed w.db id now } p) q :=
      fun q hne held => ⟨q, by rw [holding_finish_ne _ hne]; exact held⟩
    have marked : Stamped (markIndexed w.db id now) x := stamped
    rw [markIndexed_eq] at marked
    rcases stamped_markIndexedBatch marked with before | mem
    · obtain ⟨q, held⟩ := claimed_iff.mp claimed x before
      have hne : q ≠ p := by
        rintro rfl
        simp [nothing] at held
      exact byOther q hne held
    · obtain rfl := List.mem_singleton.mp mem
      obtain ⟨row, hactive, bare, _⟩ := stamped
      obtain ⟨hrow, live⟩ := active_eq_some.mp hactive
      obtain ⟨entry, hentry, rfl⟩ := Option.map_eq_some_iff.mp
        ((Table.get_update _ _ _).symm.trans hrow)
      simp only [if_true] at live
      have hactive : active w.db x = some entry := active_eq_some.mpr ⟨hentry, live⟩
      have bare : w.db.embeddings.get x = none := bare
      rw [hactive, bare] at guarded
      have held := guarded.resolve_left (by simp)
      obtain ⟨q, hne, held⟩ := heldElsewhere_iff.mp held
      exact byOther q hne held

/-- A death strands rows exactly when it leaves one that only the dead run held. -/
theorem claimed_abandon (claimed : Claimed w) :
    Claimed (w.finish p) ↔ losesNothing w (.abandon p) = true := by
  simp only [losesNothing, List.all_eq_true, Option.all_eq_true, Bool.or_eq_true,
    Option.isNone_iff_eq_none]
  rw [claimed_iff]
  constructor
  · intro after id mine entry hactive
    by_cases unindexed : entry.indexedAt = none
    · exact Or.inl (Or.inr unindexed)
    · cases bare : w.db.embeddings.get id with
      | some embedding => exact Or.inl (Or.inl rfl)
      | none =>
        obtain ⟨q, held⟩ := after id ⟨entry, hactive, bare, unindexed⟩
        have hne : q ≠ p := by
          rintro rfl
          simp at held
        rw [holding_finish_ne _ hne] at held
        exact Or.inr (heldElsewhere_iff.mpr ⟨q, hne, held⟩)
  · intro guarded x stamped
    have before : Stamped w.db x := stamped
    obtain ⟨q, held⟩ := claimed_iff.mp claimed x before
    by_cases same : q = p
    · subst same
      obtain ⟨entry, hactive, bare, unindexed⟩ := before
      rcases guarded x held entry hactive with (embedded | reset) | elsewhere
      · rw [bare] at embedded
        cases embedded
      · exact absurd reset unindexed
      · obtain ⟨other, hne, held⟩ := heldElsewhere_iff.mp elsewhere
        exact ⟨other, by rw [holding_finish_ne _ hne]; exact held⟩
    · exact ⟨q, by rw [holding_finish_ne _ same]; exact held⟩

/-- The reset at the end of a batch is of all the rows that the run still holds. -/
theorem stamped_endBatch {lastId x : EntryId} {succeeded failed : List EntryId}
    (stands : w.writers.get p = some (.indexing lastId [] succeeded failed))
    (stamped : Stamped (resetIndexedAtForIds w.db failed) x) :
    Stamped w.db x ∧ x ∉ holding w p := by
  have mine : holding w p = failed := by simp [holding_of_get stands, holds]
  rw [mine]
  exact stamped_resetIndexedAtForIds stamped

theorem step_claimed {action : Action} (claimed : Claimed w)
    (taken : step encode w action = some t) :
    Claimed t ↔ losesNothing w action = true := by
  cases taken_of_step taken with
  | appendEntry p id content reasoning tags date idle free =>
    refine iff_of_true ?_ rfl
    exact claimed_goto claimed _ (holding_of_free idle) (fun _ => stamped_append)
  | saveAppended p id content stands =>
    refine iff_of_true ?_ rfl
    exact claimed_goto claimed _ (holding_of_get stands) (fun _ h => (stamped_saveByVector h).1)
  | markAppended p now id stands => exact claimed_markAppended claimed stands
  | updateTexts p id content reasoning mode date tags db row idle updated given texts =>
    refine iff_of_true ?_ rfl
    exact claimed_goto claimed _ (holding_of_free idle) (fun _ => stamped_update updated)
  | updateFields p id content reasoning mode date tags db idle updated noTexts =>
    refine iff_of_true ?_ rfl
    refine claimed_move claimed p (fun _ _ => rfl) ?_
    intro x stamped
    exact Or.inr ⟨stamped_update updated stamped, by simp [holding_of_free idle]⟩
  | checkUpdated p id row stands same =>
    refine iff_of_true ?_ rfl
    exact claimed_goto claimed _ (holding_of_get stands) (fun _ stamped => stamped)
  | leaveAlone p id row stands changed =>
    refine iff_of_true ?_ rfl
    exact claimed_finish claimed (holding_of_get stands) (fun _ stamped => stamped)
  | saveUpdated p now id text stands =>
    refine iff_of_true ?_ rfl
    exact claimed_finish claimed (holding_of_get stands) (fun _ => stamped_saveAndMark)
  | deleteEntry id now db removed =>
    refine iff_of_true (claimed_iff.mpr ?_) rfl
    intro x stamped
    exact claimed_iff.mp claimed x (stamped_delete removed stamped)
  | saveConversation p conversationId title summary date newId idle free =>
    refine iff_of_true ?_ rfl
    exact claimed_goto claimed _ (holding_of_free idle) (fun _ => stamped_upsertLinkedEntry)
  | embedLinked p now id content stands =>
    refine iff_of_true ?_ rfl
    exact claimed_finish claimed (holding_of_get stands) (fun _ => stamped_saveAndMark)
  | startReindex p idle =>
    refine iff_of_true ?_ rfl
    exact claimed_goto claimed _ (holding_of_free idle) (fun _ => id)
  | claimNothing p locked now lastId stands read =>
    refine iff_of_true ?_ rfl
    exact claimed_finish claimed (holding_of_get stands) (fun _ => id)
  | claim p locked now lastId row batch stands read =>
    refine iff_of_true ?_ rfl
    refine claimed_move claimed p (fun q hne => holding_goto_ne _ _ hne) ?_
    intro x stamped
    rcases stamped_markIndexedBatch stamped with before | mine
    · exact Or.inr ⟨before, by simp [holding_of_get stands, holds]⟩
    · left
      simpa [holds] using mine
  | saveIndexed p lastId row todo succeeded failed stands =>
    refine iff_of_true ?_ rfl
    refine claimed_move claimed p (fun q hne => holding_goto_ne _ _ hne) ?_
    intro x stamped
    obtain ⟨before, hne⟩ := stamped_saveByVector stamped
    by_cases mine : x ∈ holding w p
    · left
      simpa [holding_of_get stands, holds, hne] using mine
    · exact Or.inr ⟨before, mine⟩
  | saveIndexedFails p lastId row todo succeeded failed stands =>
    refine iff_of_true ?_ rfl
    refine claimed_move claimed p (fun q hne => holding_goto_ne _ _ hne) ?_
    intro x stamped
    by_cases mine : x ∈ holding w p
    · left
      simp only [holding_of_get stands, holds, holding_goto, List.map_cons, List.mem_append,
        List.mem_cons] at mine ⊢
      tauto
    · exact Or.inr ⟨stamped, mine⟩
  | endBatch p lastId next succeeded failed stands greatest =>
    refine iff_of_true ?_ rfl
    exact claimed_move claimed p (fun q hne => holding_goto_ne _ _ hne)
      (fun x stamped => Or.inr (stamped_endBatch stands stamped))
  | endScan p lastId succeeded failed stands none =>
    refine iff_of_true ?_ rfl
    exact claimed_move claimed p (fun q hne => holding_finish_ne _ hne)
      (fun x stamped => Or.inr (stamped_endBatch stands stamped))
  | abandon p writer stands => exact claimed_abandon claimed

def Unindexed (db : Db E) (id : EntryId) : Prop :=
  ∃ entry, active db id = some entry ∧ entry.indexedAt = none

/-- The ids that a claim takes its batch from, in order. -/
def queue (db : Db E) (lastId : EntryId) (locked : List EntryId) : List EntryId :=
  (unindexedIds db lastId locked).insertionSort (· ≤ ·)

theorem mem_queue {lastId : EntryId} {locked : List EntryId} :
    id ∈ queue db lastId locked ↔ Unindexed db id ∧ lastId < id ∧ id ∉ locked := by
  rw [queue, List.mem_insertionSort, unindexedIds, Table.mem_keysWhere]
  simp only [Bool.and_eq_true, decide_eq_true_eq]
  constructor
  · rintro ⟨entry, hentry, ⟨⟨live, unindexed⟩, past⟩, free⟩
    exact ⟨⟨entry, active_eq_some.mpr ⟨hentry, live⟩, unindexed⟩, past, free⟩
  · rintro ⟨⟨entry, hactive, unindexed⟩, past, free⟩
    obtain ⟨hentry, live⟩ := active_eq_some.mp hactive
    exact ⟨entry, hentry, ⟨⟨live, unindexed⟩, past⟩, free⟩

theorem queue_sorted (db : Db E) (lastId : EntryId) (locked : List EntryId) :
    Keyset.Sorted (fun id : EntryId => id) (queue db lastId locked) := by
  have nodup : (queue db lastId locked).Nodup :=
    (List.perm_insertionSort _ _).nodup_iff.mpr (Table.nodup_keysWhere _ _)
  refine List.Pairwise.imp₂ (fun a b le ne => Nat.lt_of_le_of_ne le ne)
    (List.pairwise_insertionSort (· ≤ ·) (unindexedIds db lastId locked)) nodup

theorem map_fst_rows (db : Db E) {ids : List EntryId}
    (there : ∀ id ∈ ids, ∃ entry, db.entries.get id = some entry) :
    (ids.filterMap (fun id => (db.entries.get id).map (fun entry => (id, entry.content)))).map
      Prod.fst = ids := by
  induction ids with
  | nil => rfl
  | cons id rest ih =>
    obtain ⟨entry, hentry⟩ := there id List.mem_cons_self
    have tail := ih (fun key mem => there key (List.mem_cons_of_mem _ mem))
    simp only [List.filterMap_cons, hentry, Option.map_some, List.map_cons, tail]

/-- The ids of a batch: the smallest unindexed ones past the cursor. -/
theorem ids_getUnindexed (db : Db E) (lastId : EntryId) (size : Nat) (locked : List EntryId) :
    (getUnindexed db lastId size locked).map Prod.fst = (queue db lastId locked).take size := by
  refine map_fst_rows db ?_
  intro id mem
  obtain ⟨⟨entry, hactive, _⟩, _⟩ := mem_queue.mp (List.mem_of_mem_take mem)
  exact ⟨entry, (active_eq_some.mp hactive).1⟩

/-- What a batch leaves out lies past all of it. -/
theorem batch_lt {lastId x : EntryId} {size : Nat} (unindexed : Unindexed db x)
    (past : lastId < x) (outside : x ∉ (getUnindexed db lastId size []).map Prod.fst) :
    ∀ y ∈ (getUnindexed db lastId size []).map Prod.fst, y < x := by
  rw [ids_getUnindexed] at outside ⊢
  intro y mem
  exact (queue_sorted db lastId []).lt_of_not_mem_take
    (mem_queue.mpr ⟨unindexed, past, List.not_mem_nil⟩) outside mem

theorem batch_nil {lastId : EntryId} {size : Nat} (positive : 0 < size)
    (empty : getUnindexed db lastId size [] = []) (unindexed : Unindexed db id) :
    ¬ lastId < id := by
  intro past
  have listed : id ∈ queue db lastId [] := mem_queue.mpr ⟨unindexed, past, List.not_mem_nil⟩
  have ids := ids_getUnindexed db lastId size []
  rw [empty, List.map_nil, eq_comm, List.take_eq_nil_iff] at ids
  rw [ids.resolve_left (by omega)] at listed
  cases listed

/-- The steps of one run that meets no failure and no locked row. -/
def ofRun (p : WriterId) : Action → Bool
  | .claim q locked _ => q = p && locked.isEmpty
  | .saveIndexed q => q = p
  | .endBatch q => q = p
  | _ => false

/-- Where a run stands: nothing unindexed lies at or before its cursor or its batch. -/
def Passed (db : Db E) : Option Writer → Prop
  | none => ∀ id, ¬ Unindexed db id
  | some (.scanning lastId) => ∀ id, Unindexed db id → lastId < id
  | some (.indexing _ todo succeeded failed) =>
    failed = [] ∧ (succeeded ≠ [] ∨ todo ≠ []) ∧
      (∀ id, Unindexed db id → (∀ x ∈ succeeded, x < id) ∧ ∀ row ∈ todo, row.1 < id) ∧
      ∀ row ∈ todo, ∃ reasoning, getText db row.1 = some (row.2, reasoning)
  | _ => False

/-- A run that started at `w₀`: it keeps the texts, and it stores the vectors of
contents for rows that were unindexed. -/
structure Reindexing (encode : PyStr → E) (p : WriterId) (w₀ w : World E) : Prop where
  passed : Passed w.db (w.writers.get p)
  alone : ∀ q, q ≠ p → holding w q = []
  texts : ∀ id, getText w.db id = getText w₀.db id
  shrinks : ∀ id, Unindexed w.db id → Unindexed w₀.db id
  taken : ∀ id ∈ holding w p, Unindexed w₀.db id
  embeddings : ∀ id, w.db.embeddings.get id = w₀.db.embeddings.get id ∨
    Unindexed w₀.db id ∧ ∃ content reasoning, getText w₀.db id = some (content, reasoning) ∧
      w.db.embeddings.get id = some (encode content)

theorem active_markIndexedBatch (db : Db E) (ids : List EntryId) (now : Time) (id : EntryId) :
    active (markIndexedBatch db ids now) id = (active db id).map (fun entry =>
      if id ∈ ids then { entry with indexedAt := some now } else entry) := by
  rw [active, markIndexedBatch, Table.get_update, active]
  cases db.entries.get id with
  | none => rfl
  | some entry =>
    by_cases mem : id ∈ ids
    · by_cases live : entry.deletedAt = none
      · simp [mem, live, Option.filter_some]
      · simp [mem, live, Option.filter_some]
    · simp only [mem, if_false, Option.map_some, Option.map_id']

theorem getText_markIndexedBatch (db : Db E) (ids : List EntryId) (now : Time) (id : EntryId) :
    getText (markIndexedBatch db ids now) id = getText db id := by
  rw [getText, active_markIndexedBatch, getText, Option.map_map]
  refine congrArg (fun f => Option.map f (active db id)) (funext fun entry => ?_)
  by_cases mem : id ∈ ids
  · simp [mem]
  · simp [mem]

theorem unindexed_markIndexedBatch {ids : List EntryId} {now : Time}
    (h : Unindexed (markIndexedBatch db ids now) id) : Unindexed db id ∧ id ∉ ids := by
  obtain ⟨row, hactive, unindexed⟩ := h
  rw [active_markIndexedBatch] at hactive
  obtain ⟨entry, hentry, rfl⟩ := Option.map_eq_some_iff.mp hactive
  by_cases mem : id ∈ ids
  · simp [mem] at unindexed
  · simp only [mem, if_false] at unindexed
    exact ⟨⟨entry, hentry, unindexed⟩, mem⟩

theorem resetIndexedAtForIds_nil (db : Db E) : resetIndexedAtForIds db [] = db := by
  obtain ⟨⟨rows, unique⟩, embeddings⟩ := db
  simp [resetIndexedAtForIds, Table.update]

variable {w₀ : World E}

theorem claim_reindexing {now : Time} (going : Reindexing encode p w₀ w)
    (taken : claim w p [] now = some t) : Reindexing encode p w₀ t := by
  unfold claim at taken
  split at taken
  · rename_i lastId hget
    have passed := going.passed
    rw [hget] at passed
    split at taken
    · rename_i empty
      cases taken
      refine ⟨?_, ?_, going.texts, going.shrinks, by simp, going.embeddings⟩
      · simp only [World.finish, Table.get_erase_self]
        intro id unindexed
        exact batch_nil (by decide) empty unindexed (passed id unindexed)
      · intro q hne
        rw [holding_finish_ne _ hne]
        exact going.alone q hne
    · rename_i row batch hbatch
      cases taken
      refine ⟨?_, ?_, ?_, ?_, ?_, going.embeddings⟩
      · simp only [World.goto, Table.get_put_self]
        refine ⟨rfl, Or.inr (List.cons_ne_nil _ _), ?_, ?_⟩
        · intro id unindexed
          obtain ⟨before, outside⟩ := unindexed_markIndexedBatch unindexed
          rw [← hbatch] at outside
          refine ⟨fun _ mem => absurd mem List.not_mem_nil, ?_⟩
          intro claimed mem
          rw [← hbatch] at mem
          exact batch_lt before (passed id before) outside _ (List.mem_map_of_mem mem)
        · intro claimed mem
          rw [← hbatch] at mem
          obtain ⟨entry, hactive, _, hcontent⟩ := mem_getUnindexed mem
          rw [getText_markIndexedBatch]
          exact ⟨entry.reasoning, getText_eq_some.mpr ⟨entry, hactive, by rw [hcontent]⟩⟩
      · intro q hne
        rw [holding_goto_ne _ _ hne]
        exact going.alone q hne
      · intro id
        exact (getText_markIndexedBatch _ _ _ _).trans (going.texts id)
      · intro id unindexed
        exact going.shrinks id (unindexed_markIndexedBatch unindexed).1
      · intro id mem
        simp only [holding_goto, holds, List.append_nil] at mem
        obtain ⟨row, inBatch, rfl⟩ := List.mem_map.mp mem
        rw [← hbatch] at inBatch
        obtain ⟨entry, hactive, unindexed, _⟩ := mem_getUnindexed inBatch
        exact going.shrinks _ ⟨entry, hactive, unindexed⟩
  · cases taken

theorem saveIndexed_reindexing (going : Reindexing encode p w₀ w)
    (taken : saveIndexed encode w p = some t) : Reindexing encode p w₀ t := by
  unfold saveIndexed at taken
  split at taken
  · rename_i lastId row todo succeeded failed hget
    have passed := going.passed
    rw [hget] at passed
    obtain ⟨noFailure, _, before, current⟩ := passed
    have mine := going.taken
    rw [holding_of_get hget] at mine
    cases taken
    refine ⟨?_, ?_, going.texts, going.shrinks, ?_, ?_⟩
    · simp only [World.goto, Table.get_put_self]
      refine ⟨noFailure, Or.inl (by simp), ?_, ?_⟩
      · intro id unindexed
        obtain ⟨pastDone, pastTodo⟩ := before id unindexed
        refine ⟨?_, fun other mem => pastTodo other (List.mem_cons_of_mem _ mem)⟩
        intro x mem
        rcases List.mem_append.mp mem with done | this
        · exact pastDone x done
        · rw [List.mem_singleton.mp this]
          exact pastTodo row List.mem_cons_self
      · exact fun other mem => current other (List.mem_cons_of_mem _ mem)
    · intro q hne
      rw [holding_goto_ne _ _ hne]
      exact going.alone q hne
    · intro id mem
      rw [holding_goto] at mem
      exact mine id (List.mem_cons_of_mem _ mem)
    · intro id
      by_cases same : id = row.1
      · subst same
        obtain ⟨reasoning, htext⟩ := current row List.mem_cons_self
        exact Or.inr ⟨mine row.1 List.mem_cons_self, row.2, reasoning,
          (going.texts row.1).symm.trans htext, Table.get_put_self _ _ _⟩
      · have other : (saveByVector w.db row.1 (encode row.2)).embeddings.get id =
          w.db.embeddings.get id := Table.get_put_ne _ _ same
        simp only [World.goto, other]
        exact going.embeddings id
  · cases taken

theorem endBatch_reindexing (going : Reindexing encode p w₀ w) (taken : endBatch w p = some t) :
    Reindexing encode p w₀ t := by
  unfold endBatch at taken
  split at taken
  · rename_i succeeded failed hget
    have passed := going.passed
    rw [hget] at passed
    obtain ⟨rfl, nonempty, before, _⟩ := passed
    rw [resetIndexedAtForIds_nil] at taken
    split at taken
    · rename_i lastId hmax
      cases taken
      refine ⟨?_, ?_, going.texts, going.shrinks, by simp [holds], going.embeddings⟩
      · simp only [World.goto, Table.get_put_self]
        exact fun id unindexed => (before id unindexed).1 lastId (List.max?_mem hmax)
      · intro q hne
        rw [holding_goto_ne _ _ hne]
        exact going.alone q hne
    · rename_i hmax
      have none := List.max?_eq_none_iff.mp hmax
      rcases nonempty with some | some
      · exact absurd none some
      · exact absurd rfl some
  · cases taken

theorem ofRun_reindexing (w : World E) (action : Action) (t : World E)
    (going : Reindexing encode p w₀ w) (mine : ofRun p action = true)
    (taken : step encode w action = some t) : Reindexing encode p w₀ t := by
  cases action with
  | claim q locked now =>
    simp only [ofRun, Bool.and_eq_true, decide_eq_true_eq, List.isEmpty_iff] at mine
    obtain ⟨rfl, rfl⟩ := mine
    exact claim_reindexing going taken
  | saveIndexed q =>
    obtain rfl := of_decide_eq_true mine
    exact saveIndexed_reindexing going taken
  | endBatch q =>
    obtain rfl := of_decide_eq_true mine
    exact endBatch_reindexing going taken
  | appendEntry => cases mine
  | saveAppended => cases mine
  | markAppended => cases mine
  | updateEntry => cases mine
  | checkUpdated => cases mine
  | saveUpdated => cases mine
  | deleteEntry => cases mine
  | saveConversation => cases mine
  | embedLinked => cases mine
  | startReindex => cases mine
  | saveIndexedFails => cases mine
  | abandon => cases mine

theorem ofRun_claimed (w : World E) (action : Action) (t : World E) (claimed : Claimed w)
    (mine : ofRun p action = true) (taken : step encode w action = some t) : Claimed t := by
  refine (step_claimed claimed taken).mpr ?_
  cases action with
  | abandon => cases mine
  | markAppended => cases mine
  | _ => rfl

/-- A run that starts alone on the rows, up to any point of it. -/
theorem reindexing_of_run {later : List Action} (numbered : w.db.entries.get 0 = none)
    (idle : ∀ q, holding w q = []) (solo : ∀ action ∈ later, ofRun p action = true)
    (ran : Replay.run (step encode) w (.startReindex p :: later) = some t) :
    Reindexing encode p w t := by
  obtain ⟨m, started, ran⟩ := Replay.run_cons.mp ran
  cases taken_of_step started with
  | startReindex _ free =>
    refine Replay.run_invariant ofRun_reindexing ?_ (Replay.obeys_of_mem solo _) ran
    refine ⟨?_, ?_, fun _ => rfl, fun _ unindexed => unindexed, by simp [holds],
      fun _ => Or.inl rfl⟩
    · simp only [World.goto, Table.get_put_self]
      rintro id ⟨entry, hactive, _⟩
      refine Nat.pos_of_ne_zero ?_
      rintro rfl
      rw [(active_eq_some.mp hactive).1] at numbered
      cases numbered
    · intro q hne
      rw [holding_goto_ne _ _ hne]
      exact idle q

theorem active_of_getText {row : PyStr × Option PyStr} (htext : getText db id = some row) :
    ∃ entry, active db id = some entry := by
  obtain ⟨entry, hactive, _⟩ := getText_eq_some.mp htext
  exact ⟨entry, hactive⟩

/-- A complete run without failures embeds every active entry exactly when none was
stranded before it. -/
theorem completed_run {later : List Action} (numbered : w.db.entries.get 0 = none)
    (idle : ∀ q, holding w q = []) (solo : ∀ action ∈ later, ofRun p action = true)
    (ran : Replay.run (step encode) w (.startReindex p :: later) = some t)
    (done : t.writers.get p = none) :
    (∀ id entry, active t.db id = some entry → t.db.embeddings.get id ≠ none) ↔ Claimed w := by
  have going := reindexing_of_run numbered idle solo ran
  constructor
  · intro embedded
    refine claimed_iff.mpr ?_
    rintro id ⟨entry, hactive, bare, stamped⟩
    exfalso
    have htext := (going.texts id).trans (getText_eq_some.mpr ⟨entry, hactive, rfl⟩)
    obtain ⟨after, hafter⟩ := active_of_getText htext
    rcases going.embeddings id with same | ⟨⟨row, hrow, unindexed⟩, _⟩
    · exact embedded id after hafter (same.trans bare)
    · obtain rfl : entry = row := Option.some.inj (hactive.symm.trans hrow)
      exact stamped unindexed
  · intro claimed id entry hactive bare
    obtain ⟨m, started, ran⟩ := Replay.run_cons.mp ran
    have begun := (step_claimed claimed started).mpr rfl
    have kept := Replay.run_invariant ofRun_claimed begun (Replay.obeys_of_mem solo _) ran
    have passed := going.passed
    rw [done] at passed
    rcases kept id entry hactive bare with unindexed | ⟨q, held⟩
    · exact passed id ⟨entry, hactive, unindexed⟩
    · by_cases same : q = p
      · rw [same, holding_of_free done] at held
        cases held
      · rw [going.alone q same] at held
        cases held

/-- The id that an action inserts a new entry under. -/
def newId : Action → Option EntryId
  | .appendEntry _ id _ _ _ _ => some id
  | .saveConversation _ _ _ _ _ newId => some newId
  | _ => none

theorem absent_put {entries : Table EntryId Entry} {key : EntryId} (entry : Entry)
    (absent : entries.get id = none) (hne : id ≠ key) : (entries.put key entry).get id = none :=
  (Table.get_put_ne _ _ hne).trans absent

theorem absent_update {entries : Table EntryId Entry} (f : EntryId → Entry → Entry)
    (absent : entries.get id = none) : (entries.update f).get id = none := by
  rw [Table.get_update, absent]
  rfl

theorem ne_of_active {key : EntryId} {entry : Entry} (absent : db.entries.get id = none)
    (hactive : active db key = some entry) : id ≠ key := by
  rintro rfl
  rw [(active_eq_some.mp hactive).1] at absent
  cases absent

theorem absent_of_update {key : EntryId} {content reasoning : Option PyStr} {mode : Mode}
    {date : Option PyStr} {tags : Option (List PyStr)} {db' : Db E}
    (absent : db.entries.get id = none)
    (updated : update db key content reasoning mode date tags = some db') :
    db'.entries.get id = none := by
  obtain ⟨entry, hactive, rfl⟩ := Option.map_eq_some_iff.mp updated
  exact absent_put _ absent (ne_of_active absent hactive)

theorem step_absent {action : Action} (absent : w.db.entries.get id = none)
    (other : newId action ≠ some id) (taken : step encode w action = some t) :
    t.db.entries.get id = none := by
  cases taken_of_step taken with
  | appendEntry p key content reasoning tags date idle free =>
    exact absent_put _ absent (fun same => other (congrArg some same.symm))
  | saveAppended p key content stands => exact absent
  | markAppended p now key stands => exact absent_update _ absent
  | updateTexts p key content reasoning mode date tags db row idle updated given texts =>
    exact absent_of_update absent updated
  | updateFields p key content reasoning mode date tags db idle updated noTexts =>
    exact absent_of_update absent updated
  | checkUpdated p key row stands same => exact absent
  | leaveAlone p key row stands changed => exact absent
  | saveUpdated p now key text stands => exact absent_update _ absent
  | deleteEntry key now db removed =>
    obtain ⟨entry, hactive, rfl⟩ := Option.map_eq_some_iff.mp removed
    exact absent_put _ absent (ne_of_active absent hactive)
  | saveConversation p conversationId title summary date key idle free =>
    simp only [World.goto, upsertLinkedEntry]
    split
    · exact absent_update _ absent
    · exact absent_put _ absent (fun same => other (congrArg some same.symm))
  | embedLinked p now key content stands => exact absent_update _ absent
  | startReindex p idle => exact absent
  | claimNothing p locked now lastId stands read => exact absent
  | claim p locked now lastId row batch stands read => exact absent_update _ absent
  | saveIndexed p lastId row todo succeeded failed stands => exact absent
  | saveIndexedFails p lastId row todo succeeded failed stands => exact absent
  | endBatch p lastId next succeeded failed stands greatest => exact absent_update _ absent
  | endScan p lastId succeeded failed stands none => exact absent_update _ absent
  | abandon p writer stands => exact absent

theorem start_claimed : Claimed (World.start : World E) := by
  intro id entry hactive
  cases hactive

/-- In every state of a run the entries without an embedding are unindexed or held
exactly when no step of it strands a row. From a state in which nobody is at work,
a later complete run embeds every active entry exactly when none is stranded. -/
theorem reindex_survives_crashes {acts : List Action}
    (ran : Replay.run (step encode) World.start acts = some w)
    (numbered : ∀ action ∈ acts, newId action ≠ some 0) :
    (Replay.Throughout (step encode) Claimed World.start acts ↔
      Replay.Obeys (step encode) (fun w action => losesNothing w action = true) World.start
        acts) ∧
    ((∀ q, holding w q = []) → ∀ p later t, (∀ action ∈ later, ofRun p action = true) →
      Replay.run (step encode) w (.startReindex p :: later) = some t →
      t.writers.get p = none →
      ((∀ id entry, active t.db id = some entry → t.db.embeddings.get id ≠ none) ↔
        Claimed w)) := by
  constructor
  · have exact : ∀ w action t, True → Claimed w → step encode w action = some t →
        (Claimed t ↔ losesNothing w action = true) :=
      fun _ _ _ _ claimed taken => step_claimed claimed taken
    exact Replay.throughout_iff_obeys (fun _ _ _ _ _ => trivial) exact trivial start_claimed ran
  · intro idle p later t solo completed done
    have absent : w.db.entries.get 0 = none :=
      Replay.run_invariant (fun _ _ _ absent other taken => step_absent absent other taken)
        rfl (Replay.obeys_of_mem numbered _) ran
    exact completed_run absent idle solo completed done

end Claims

/-- Two entries are appended without embeddings; a run embeds one of them, resets
the other and dies. -/
def diesAfterReset : List Action :=
  [.appendEntry 1 1 (py "first") none [] (py "2026-05-10"), .abandon 1,
    .appendEntry 2 2 (py "second") none [] (py "2026-05-11"), .abandon 2,
    .startReindex 3, .claim 3 [] 10, .saveIndexed 3, .saveIndexedFails 3, .endBatch 3, .abandon 3]

def laterRun : List Action :=
  [.claim 4 [] 20, .saveIndexed 4, .endBatch 4, .claim 4 [] 30]

theorem reindex_survives_crashes_reset : ∃ w t : World PyStr,
    Replay.run (step (fun text => text)) World.start diesAfterReset = some w ∧
    Replay.run (step (fun text => text)) w (.startReindex 4 :: laterRun) = some t ∧
    Replay.Throughout (step (fun text => text)) Claimed World.start diesAfterReset ∧
    ∀ id entry, active t.db id = some entry → t.db.embeddings.get id ≠ none := by
  refine ⟨_, _, rfl, rfl, ?_⟩
  have survives := @reindex_survives_crashes PyStr (fun text => text) _ diesAfterReset rfl
    (by decide)
  have through := survives.1.mpr (by decide)
  refine ⟨through, ?_⟩
  refine (survives.2 (fun _ => rfl) 4 laterRun _ (by decide) rfl (by decide)).mpr ?_
  exact Replay.throughout_last through rfl

/-- The run dies between the commit of its claim and the first save. -/
def diesAfterClaim : List Action :=
  [.appendEntry 1 1 (py "first") none [] (py "2026-05-10"), .abandon 1,
    .startReindex 2, .claim 2 [] 10, .abandon 2]

theorem crash_after_claim_strands :
    ¬ ∀ (acts : List Action) (w : World PyStr),
      Replay.run (step (fun text => text)) World.start acts = some w →
      (∀ q, holding w q = []) → ∀ p later t, (∀ action ∈ later, ofRun p action = true) →
      Replay.run (step (fun text => text)) w (.startReindex p :: later) = some t →
      t.writers.get p = none →
      ∀ id entry, active t.db id = some entry → t.db.embeddings.get id ≠ none := by
  intro all
  refine all diesAfterClaim _ rfl (fun _ => rfl) 3 [.claim 3 [] 20] _ (by decide) rfl (by decide)
    1 _ rfl (by decide)

end ReindexRecovery
