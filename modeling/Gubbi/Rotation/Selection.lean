import Gubbi.Library.Keyset
import Gubbi.Rotation.Script

/-!
# The rows of a batch

What the SELECT of a batch returns, for any condition on the encrypted pair. The
cursor makes the batches of one screen the pages of one list.
-/

namespace KeyRotation

open Text Cipher

variable {Rest : Type}

/-- The rows after `last_id` that meet a condition, by identifier. -/
def candidates (p : EncryptedPair → Bool) (table : Table ℕ+ (Row Rest)) (column : Column)
    (lastId : Nat) : List Selected :=
  let rows := table.rows.filter (fun row => p (row.2.pairs column) && decide (lastId < row.1))
  (rows.map (fun row => (row.1, row.2.pairs column))).insertionSort
    (fun one two => one.1 ≤ two.1)

theorem selectOrdered_eq (table : Table ℕ+ (Row Rest)) (column : Column)
    (version lastId : Nat) :
    selectOrdered table column version lastId =
      candidates (whereClause version) table column lastId := rfl

section Candidates
variable {p : EncryptedPair → Bool} {table : Table ℕ+ (Row Rest)} {column : Column}
  {lastId : Nat}

theorem mem_candidates {selected : Selected} :
    selected ∈ candidates p table column lastId ↔
      lastId < selected.1 ∧ p selected.2 = true ∧
        ∃ row, table.get selected.1 = some row ∧ row.pairs column = selected.2 := by
  simp only [candidates, List.mem_insertionSort, List.mem_map, List.mem_filter,
    Bool.and_eq_true, decide_eq_true_eq, Table.get_eq_some_iff]
  constructor
  · rintro ⟨row, ⟨hrow, hmatch, hlast⟩, rfl⟩
    exact ⟨hlast, hmatch, row.2, hrow, rfl⟩
  · rintro ⟨hlast, hmatch, row, hrow, hpair⟩
    exact ⟨(selected.1, row), ⟨hrow, by rwa [hpair], hlast⟩, by rw [hpair]⟩

theorem candidates_nodup (p : EncryptedPair → Bool) (table : Table ℕ+ (Row Rest))
    (column : Column) (lastId : Nat) :
    ((candidates p table column lastId).map Prod.fst).Nodup := by
  refine ((List.perm_insertionSort _ _).map Prod.fst).nodup_iff.mpr ?_
  rw [List.map_map]
  exact List.Nodup.sublist (List.Sublist.map _ List.filter_sublist) table.unique

theorem candidates_sorted (p : EncryptedPair → Bool) (table : Table ℕ+ (Row Rest))
    (column : Column) (lastId : Nat) :
    Keyset.Sorted Prod.fst (candidates p table column lastId) := by
  have total : Std.Total (fun one two : Selected => one.1 ≤ two.1) :=
    ⟨fun one two => le_total one.1 two.1⟩
  have trans : IsTrans Selected (fun one two : Selected => one.1 ≤ two.1) :=
    ⟨fun _ _ _ => le_trans⟩
  have ordered : (candidates p table column lastId).Pairwise (fun one two => one.1 ≤ two.1) :=
    List.pairwise_insertionSort _ _
  have distinct := List.pairwise_map.mp (candidates_nodup p table column lastId)
  exact (ordered.and distinct).imp fun h => lt_of_le_of_ne h.1 h.2

/-- A selection looks at the rows after its cursor only. -/
theorem candidates_congr {table' : Table ℕ+ (Row Rest)}
    (same : ∀ id : ℕ+, lastId < id → table'.get id = table.get id) :
    candidates p table' column lastId = candidates p table column lastId := by
  refine (candidates_sorted _ _ _ _).ext (candidates_sorted _ _ _ _) ?_
  intro selected
  rw [mem_candidates, mem_candidates]
  refine and_congr_right fun hlast => ?_
  rw [same selected.1 hlast]

/-- The selection after a batch is the rest of the selection that the batch is from. -/
theorem candidates_next {n : Nat} {last : Selected}
    (hlast : ((candidates p table column lastId).take n).getLast? = some last) :
    candidates p table column last.1 = (candidates p table column lastId).drop n := by
  have before : lastId < last.1 :=
    (mem_candidates.mp (List.mem_of_mem_take (List.mem_of_getLast? hlast))).1
  rw [← (candidates_sorted p table column lastId).rest hlast]
  refine (candidates_sorted _ _ _ _).ext ((candidates_sorted _ _ _ _).filter _) ?_
  intro selected
  rw [mem_candidates, List.mem_filter, mem_candidates, decide_eq_true_eq]
  constructor
  · rintro ⟨after, hmatch⟩
    exact ⟨⟨before.trans after, hmatch⟩, after⟩
  · rintro ⟨⟨_, hmatch⟩, after⟩
    exact ⟨after, hmatch⟩

theorem length_candidates_le (p : EncryptedPair → Bool) (table : Table ℕ+ (Row Rest))
    (column : Column) (lastId : Nat) :
    (candidates p table column lastId).length ≤ table.rows.length := by
  rw [candidates, List.length_insertionSort, List.length_map]
  exact List.length_filter_le _ _

end Candidates

end KeyRotation
