import Gubbi.Library.KeyedTable

/-!
# Constraints of tables

`UNIQUE` over columns and `REFERENCES` to the key of another table, each with the
writes that keep it. Both are decidable, so a write that may break one can check.
-/

namespace Table

universe u v w x
variable {K : Type u} {V : Type v} {J : Type w} {W : Type x}

/-- `UNIQUE (column)`. -/
def UniqueOn (t : Table K V) (column : V → J) : Prop :=
  (t.rows.map (fun row => column row.2)).Nodup

/-- `FOREIGN KEY (column) REFERENCES target`. -/
def References (t : Table K V) (column : V → J) (target : Table J W) : Prop :=
  ∀ row ∈ t.rows, column row.2 ∈ target.keys

instance [DecidableEq J] (t : Table K V) (column : V → J) : Decidable (t.UniqueOn column) :=
  inferInstanceAs (Decidable (List.Nodup _))

instance [DecidableEq J] (t : Table K V) (column : V → J) (target : Table J W) :
    Decidable (t.References column target) :=
  inferInstanceAs (Decidable (∀ row ∈ t.rows, column row.2 ∈ target.keys))

section Rows
variable [DecidableEq K] {t : Table K V} {k : K}

theorem mem_modify {f : V → V} {row : K × V} (mem : row ∈ (t.modify k f).rows) :
    (row.1 = k ∧ ∃ old, (k, old) ∈ t.rows ∧ row.2 = f old) ∨ (row.1 ≠ k ∧ row ∈ t.rows) := by
  obtain ⟨old, hold, rfl⟩ := List.mem_map.mp mem
  by_cases h : old.1 = k
  · subst h
    exact Or.inl ⟨rfl, old.2, hold, if_pos rfl⟩
  · simp only [if_neg h]
    exact Or.inr ⟨h, hold⟩

theorem mem_put {v : V} {row : K × V} (mem : row ∈ (t.put k v).rows) :
    (row.1 = k ∧ row.2 = v) ∨ (row.1 ≠ k ∧ row ∈ t.rows) := by
  rcases List.mem_append.mp mem with old | new
  · obtain ⟨kept, other⟩ := List.mem_filter.mp old
    exact Or.inr ⟨by simpa using other, kept⟩
  · rw [List.mem_singleton.mp new]
    exact Or.inl ⟨rfl, rfl⟩

omit [DecidableEq K] in
/-- The results that a query reads from the rows are told apart by their keys. -/
theorem eq_of_mem_filterMap {B : Type x} {f : K × V → Option B} {key : B → K}
    (keeps : ∀ row b, f row = some b → key b = row.1) {a b : B} (ha : a ∈ t.rows.filterMap f)
    (hb : b ∈ t.rows.filterMap f) (same : key a = key b) : a = b := by
  obtain ⟨rowA, memA, fA⟩ := List.mem_filterMap.mp ha
  obtain ⟨rowB, memB, fB⟩ := List.mem_filterMap.mp hb
  have keys : rowA.1 = rowB.1 := by rw [← keeps rowA a fA, ← keeps rowB b fB, same]
  obtain rfl := List.inj_on_of_nodup_map t.unique memA memB keys
  exact Option.some.inj (fA.symm.trans fB)

omit [DecidableEq K] in
theorem length_keysWhere (p : K → V → Bool) : (t.keysWhere p).length = t.countWhere p := by
  rw [keysWhere, List.length_map, countWhere, List.countP_eq_length_filter]

end Rows

section Unique
variable {t : Table K V} {column : V → J}

theorem uniqueOn_empty : (empty : Table K V).UniqueOn column := List.nodup_nil

/-- A value of the column names its row. -/
theorem UniqueOn.eq_of_get [DecidableEq K] (unique : t.UniqueOn column) {k k' : K} {v v' : V}
    (row : t.get k = some v) (row' : t.get k' = some v') (same : column v = column v') : k = k' :=
  congrArg Prod.fst (List.inj_on_of_nodup_map unique (Table.get_eq_some_iff.mp row)
    (Table.get_eq_some_iff.mp row') same)

theorem UniqueOn.deleteWhere (unique : t.UniqueOn column) (p : K → V → Bool) :
    (t.deleteWhere p).UniqueOn column :=
  List.Nodup.sublist (List.Sublist.map _ List.filter_sublist) unique

theorem UniqueOn.update (unique : t.UniqueOn column) {f : K → V → V}
    (keeps : ∀ k v, column (f k v) = column v) : (t.update f).UniqueOn column := by
  simpa only [UniqueOn, Table.update, List.map_map, Function.comp_def, keeps] using unique

theorem UniqueOn.modify [DecidableEq K] (unique : t.UniqueOn column) {k : K} {f : V → V}
    (keeps : ∀ v, column (f v) = column v) : (t.modify k f).UniqueOn column := by
  refine unique.update fun key v => ?_
  split
  · exact keeps v
  · rfl

/-- An insert of a value that no row has. -/
theorem UniqueOn.put [DecidableEq K] (unique : t.UniqueOn column) (k : K) {v : V}
    (new : ∀ row ∈ t.rows, column row.2 ≠ column v) : (t.put k v).UniqueOn column := by
  rw [UniqueOn, Table.put, List.map_append, List.nodup_append]
  refine ⟨unique.deleteWhere _, List.nodup_singleton _, ?_⟩
  intro a ha b hb
  obtain ⟨row, mem, rfl⟩ := List.mem_map.mp ha
  rw [List.mem_singleton.mp hb]
  exact new row (List.mem_of_mem_filter mem)

end Unique

section References
variable {t : Table K V} {column : V → J} {target : Table J W}

theorem references_empty : (empty : Table K V).References column target :=
  fun _ mem => absurd mem List.not_mem_nil

theorem References.get [DecidableEq K] [DecidableEq J] (refers : t.References column target)
    {k : K} {v : V} (h : t.get k = some v) : ∃ w, target.get (column v) = some w :=
  mem_keys.mp (refers (k, v) (get_eq_some_iff.mp h))

theorem References.of_keys {target' : Table J W} (refers : t.References column target)
    (keys : ∀ k ∈ target.keys, k ∈ target'.keys) : t.References column target' :=
  fun row mem => keys _ (refers row mem)

theorem References.update (refers : t.References column target) {f : K → V → V}
    (keeps : ∀ k v, column (f k v) = column v ∨ column (f k v) ∈ target.keys) :
    (t.update f).References column target := by
  intro row mem
  obtain ⟨old, hold, rfl⟩ := List.mem_map.mp mem
  rcases keeps old.1 old.2 with same | known
  · rw [same]
    exact refers old hold
  · exact known

theorem References.modify [DecidableEq K] (refers : t.References column target) {k : K} {f : V → V}
    (keeps : ∀ v, column (f v) = column v) : (t.modify k f).References column target := by
  refine refers.update fun key v => Or.inl ?_
  split
  · exact keeps v
  · rfl

theorem References.put [DecidableEq K] (refers : t.References column target) (k : K) {v : V}
    (known : column v ∈ target.keys) : (t.put k v).References column target := by
  intro row mem
  rcases List.mem_append.mp mem with old | new
  · exact refers row (List.mem_of_mem_filter old)
  · rw [List.mem_singleton.mp new]
    exact known

end References

end Table
