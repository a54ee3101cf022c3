import Mathlib.Data.List.Nodup

/-!
# Tables with a primary key

A table is a finite list of rows without two rows of one key, so a lookup by
key is well defined and a table with a duplicated key cannot be built. The
writes are those of SQL: insert or replace by key, update where, delete where.
Each write comes with the lookup equation that later proofs use; none of them
needs to unfold the row list again.
-/

universe u v

structure Table (K : Type u) (V : Type v) where
  rows : List (K × V)
  unique : (rows.map Prod.fst).Nodup

namespace Table

variable {K : Type u} {V : Type v}

def empty : Table K V := ⟨[], List.nodup_nil⟩

/-- The first row of a key in a row list. -/
def find [DecidableEq K] (k : K) : List (K × V) → Option V
  | [] => none
  | row :: rest => if row.1 = k then some row.2 else find k rest

def get [DecidableEq K] (t : Table K V) (k : K) : Option V := find k t.rows

/-- `DELETE ... WHERE p`. -/
def deleteWhere (t : Table K V) (p : K → V → Bool) : Table K V :=
  ⟨t.rows.filter (fun row => !p row.1 row.2), by
    refine List.Nodup.sublist (List.Sublist.map _ List.filter_sublist) t.unique⟩

def erase [DecidableEq K] (t : Table K V) (k : K) : Table K V :=
  t.deleteWhere (fun key _ => key = k)

/-- Insert or replace the row of one key. -/
def put [DecidableEq K] (t : Table K V) (k : K) (v : V) : Table K V :=
  ⟨(t.erase k).rows ++ [(k, v)], by
    rw [List.map_append, List.nodup_append]
    refine ⟨(t.erase k).unique, by simp, ?_⟩
    intro a ha b hb
    simp only [List.map_cons, List.map_nil, List.mem_singleton] at hb
    simp only [erase, deleteWhere, List.mem_map, List.mem_filter] at ha
    obtain ⟨row, ⟨_, hne⟩, rfl⟩ := ha
    simpa [hb] using hne⟩

/-- `UPDATE ... SET`: the new row may depend on the key and the old row. -/
def update (t : Table K V) (f : K → V → V) : Table K V :=
  ⟨t.rows.map (fun row => (row.1, f row.1 row.2)), by
    simpa [List.map_map, Function.comp_def] using t.unique⟩

/-- The rows with other values, as a view has them. -/
def mapRows {W : Type v} (t : Table K V) (f : K → V → W) : Table K W :=
  ⟨t.rows.map (fun row => (row.1, f row.1 row.2)), by
    simpa [List.map_map, Function.comp_def] using t.unique⟩

/-- `UPDATE ... SET` of the row of one key. -/
def modify [DecidableEq K] (t : Table K V) (k : K) (f : V → V) : Table K V :=
  t.update (fun key v => if key = k then f v else v)

/-- `SELECT key WHERE p`, in the order of the rows. -/
def keysWhere (t : Table K V) (p : K → V → Bool) : List K :=
  (t.rows.filter (fun row => p row.1 row.2)).map Prod.fst

section Lookup
variable [DecidableEq K]

@[simp] theorem get_empty (k : K) : (empty : Table K V).get k = none := rfl

theorem find_eq_none {rows : List (K × V)} {k : K} (absent : k ∉ rows.map Prod.fst) :
    find k rows = none := by
  induction rows with
  | nil => rfl
  | cons row rest ih =>
    simp only [List.map_cons, List.mem_cons, not_or] at absent
    simp only [find, if_neg (Ne.symm absent.1)]
    exact ih absent.2

theorem find_filter (rows : List (K × V)) (nodup : (rows.map Prod.fst).Nodup)
    (p : K → V → Bool) (k : K) :
    find k (rows.filter (fun row => !p row.1 row.2)) =
      (find k rows).filter (fun v => !p k v) := by
  induction rows with
  | nil => rfl
  | cons row rest ih =>
    obtain ⟨hnot, htail⟩ := List.nodup_cons.mp nodup
    have tail := ih htail
    by_cases hk : row.1 = k
    · subst hk
      have absent := find_eq_none hnot
      by_cases hp : p row.1 row.2
      · simp [find, hp, tail, absent, Option.filter_some]
      · simp [find, hp, Option.filter_some]
    · by_cases hp : p row.1 row.2
      · simp [find, hk, hp, tail]
      · simp [find, hk, hp, tail]

theorem find_append (rows more : List (K × V)) (k : K) :
    find k (rows ++ more) = (find k rows).or (find k more) := by
  induction rows with
  | nil => simp [find]
  | cons row rest ih =>
    by_cases hk : row.1 = k
    · simp [find, hk]
    · simp [find, hk, ih]

theorem get_deleteWhere (t : Table K V) (p : K → V → Bool) (k : K) :
    (t.deleteWhere p).get k = (t.get k).filter (fun v => !p k v) :=
  find_filter t.rows t.unique p k

theorem get_erase (t : Table K V) (k k' : K) :
    (t.erase k).get k' = if k' = k then none else t.get k' := by
  rw [erase, get_deleteWhere]
  by_cases hk : k' = k
  · cases t.get k' <;> simp [hk]
  · cases t.get k' <;> simp [hk]

@[simp] theorem get_erase_self (t : Table K V) (k : K) : (t.erase k).get k = none := by
  simp [get_erase]

theorem get_put (t : Table K V) (k k' : K) (v : V) :
    (t.put k v).get k' = if k' = k then some v else t.get k' := by
  have h := get_erase t k k'
  simp only [get] at h
  simp only [get, put, find_append, h]
  by_cases hk : k' = k
  · simp [hk, find]
  · simp [hk, Ne.symm hk, find]

@[simp] theorem get_put_self (t : Table K V) (k : K) (v : V) : (t.put k v).get k = some v := by
  simp [get_put]

theorem get_put_ne (t : Table K V) {k k' : K} (v : V) (hne : k' ≠ k) :
    (t.put k v).get k' = t.get k' := by
  simp [get_put, hne]

/-- A row that is there stays when a row of an absent key is written. -/
theorem get_put_of_absent {t : Table K V} {k k' : K} {v : V} (new : V)
    (absent : t.get k = none) (present : t.get k' = some v) : (t.put k new).get k' = some v := by
  have hne : k' ≠ k := by
    rintro rfl
    rw [absent] at present
    cases present
  rw [get_put_ne t new hne, present]

theorem get_put_eq_some {t : Table K V} {k k' : K} {v v' : V}
    (h : (t.put k v).get k' = some v') : (k' = k ∧ v' = v) ∨ (k' ≠ k ∧ t.get k' = some v') := by
  rw [get_put] at h
  by_cases hk : k' = k
  · simp only [hk, if_true, Option.some.injEq] at h
    exact Or.inl ⟨hk, h.symm⟩
  · simp only [hk, if_false] at h
    exact Or.inr ⟨hk, h⟩

theorem get_erase_eq_some {t : Table K V} {k k' : K} {v : V}
    (h : (t.erase k).get k' = some v) : k' ≠ k ∧ t.get k' = some v := by
  rw [get_erase] at h
  by_cases hk : k' = k
  · simp [hk] at h
  · exact ⟨hk, by simpa [hk] using h⟩

theorem get_update (t : Table K V) (f : K → V → V) (k : K) :
    (t.update f).get k = (t.get k).map (f k) := by
  simp only [get, update]
  induction t.rows with
  | nil => rfl
  | cons row rest ih =>
    by_cases hk : row.1 = k
    · simp [find, hk]
    · simp [find, hk, ih]

theorem get_mapRows {W : Type v} (t : Table K V) (f : K → V → W) (k : K) :
    (t.mapRows f).get k = (t.get k).map (f k) := by
  simp only [get, mapRows]
  induction t.rows with
  | nil => rfl
  | cons row rest ih =>
    by_cases hk : row.1 = k
    · simp [find, hk]
    · simp [find, hk, ih]

theorem get_modify (t : Table K V) (k k' : K) (f : V → V) :
    (t.modify k f).get k' = if k' = k then (t.get k').map f else t.get k' := by
  rw [modify, get_update]
  by_cases hk : k' = k
  · simp [hk]
  · cases t.get k' <;> simp [hk]

theorem get_modify_ne (t : Table K V) {k k' : K} (f : V → V) (hne : k' ≠ k) :
    (t.modify k f).get k' = t.get k' := by
  rw [get_modify, if_neg hne]

theorem get_modify_self {t : Table K V} {k : K} {v : V} (f : V → V) (h : t.get k = some v) :
    (t.modify k f).get k = some (f v) := by
  rw [get_modify, if_pos rfl, h, Option.map_some]

/-- A property of all rows is kept by a put exactly when the new row has it. -/
theorem forall_get_put {t : Table K V} {k : K} {v : V} {p : V → Prop}
    (old : ∀ k v, t.get k = some v → p v) :
    (∀ k' v', (t.put k v).get k' = some v' → p v') ↔ p v := by
  constructor
  · exact fun all => all k v (get_put_self t k v)
  · intro new k' v' h
    rcases get_put_eq_some h with ⟨_, rfl⟩ | ⟨_, before⟩
    · exact new
    · exact old k' v' before

theorem forall_get_modify {t : Table K V} {k : K} {f : V → V} {p : V → Prop}
    (old : ∀ k v, t.get k = some v → p v) (keeps : ∀ v, p v → p (f v)) :
    ∀ k' v', (t.modify k f).get k' = some v' → p v' := by
  intro k' v' h
  rw [get_modify] at h
  split at h
  · obtain ⟨v, hv, rfl⟩ := Option.map_eq_some_iff.mp h
    exact keeps v (old k' v hv)
  · exact old k' v' h

theorem modify_same (t : Table K V) (k : K) : t.modify k (fun v => v) = t := by
  obtain ⟨rows, unique⟩ := t
  simp [modify, update]

theorem find_eq_some_iff {rows : List (K × V)} (nodup : (rows.map Prod.fst).Nodup)
    {k : K} {v : V} : find k rows = some v ↔ (k, v) ∈ rows := by
  induction rows with
  | nil => simp [find]
  | cons row rest ih =>
    obtain ⟨hnot, htail⟩ := List.nodup_cons.mp nodup
    by_cases hk : row.1 = k
    · subst hk
      simp only [find, if_true, Option.some.injEq, List.mem_cons]
      constructor
      · intro h
        exact Or.inl (by rw [← h])
      · rintro (h | h)
        · rw [← h]
        · exact False.elim (hnot (List.mem_map.mpr ⟨_, h, rfl⟩))
    · simp only [find, if_neg hk, List.mem_cons, ih htail]
      constructor
      · exact Or.inr
      · rintro (h | h)
        · exact False.elim (hk (by rw [← h]))
        · exact h

theorem get_eq_some_iff {t : Table K V} {k : K} {v : V} :
    t.get k = some v ↔ (k, v) ∈ t.rows :=
  find_eq_some_iff t.unique

theorem mem_keysWhere {t : Table K V} {p : K → V → Bool} {k : K} :
    k ∈ t.keysWhere p ↔ ∃ v, t.get k = some v ∧ p k v = true := by
  simp only [keysWhere, List.mem_map, List.mem_filter, get_eq_some_iff]
  constructor
  · rintro ⟨⟨a, b⟩, ⟨hmem, hp⟩, rfl⟩
    exact ⟨b, hmem, hp⟩
  · rintro ⟨v, hmem, hp⟩
    exact ⟨(k, v), ⟨hmem, hp⟩, rfl⟩

omit [DecidableEq K] in
theorem nodup_keysWhere (t : Table K V) (p : K → V → Bool) : (t.keysWhere p).Nodup :=
  List.Nodup.sublist (List.Sublist.map _ List.filter_sublist) t.unique

/-- The keys in the order of the rows. -/
def keys (t : Table K V) : List K := t.rows.map Prod.fst

omit [DecidableEq K] in
theorem keys_nodup (t : Table K V) : t.keys.Nodup := t.unique

theorem mem_keys {t : Table K V} {k : K} : k ∈ t.keys ↔ ∃ v, t.get k = some v := by
  simp only [keys, List.mem_map, get_eq_some_iff]
  constructor
  · rintro ⟨row, hrow, rfl⟩
    exact ⟨row.2, hrow⟩
  · rintro ⟨v, h⟩
    exact ⟨(k, v), h, rfl⟩

omit [DecidableEq K] in
theorem keys_update (t : Table K V) (f : K → V → V) : (t.update f).keys = t.keys := by
  simp [keys, update, List.map_map, Function.comp_def]

theorem keys_modify (t : Table K V) (k : K) (f : V → V) : (t.modify k f).keys = t.keys :=
  keys_update t _

/-- Selecting keys by their rows is filtering the keys by a lookup. -/
theorem keysWhere_eq_filter (t : Table K V) (p : K → V → Bool) :
    t.keysWhere p = t.keys.filter (fun k => (t.get k).any (p k)) := by
  have lookup : ∀ row ∈ t.rows, (t.get row.1).any (p row.1) = p row.1 row.2 := by
    intro row hrow
    have h : t.get row.1 = some row.2 := get_eq_some_iff.mpr hrow
    rw [h, Option.any_some]
  rw [keysWhere, keys, List.filter_map]
  refine congrArg (List.map Prod.fst) (List.filter_congr ?_)
  intro row hrow
  exact (lookup row hrow).symm

end Lookup

/-- A key that no row has, for the next row of a sequence. -/
def freshKey (t : Table Nat V) : Nat := t.keys.foldr max 0 + 1

theorem get_freshKey (t : Table Nat V) : t.get t.freshKey = none := by
  have bound : ∀ (keys : List Nat), ∀ k ∈ keys, k ≤ keys.foldr max 0 := by
    intro keys
    induction keys with
    | nil => exact fun k hk => by cases hk
    | cons key rest ih =>
      intro k hk
      rcases List.mem_cons.mp hk with rfl | hk
      · exact Nat.le_max_left _ _
      · exact Nat.le_trans (ih k hk) (Nat.le_max_right _ _)
  cases h : t.get t.freshKey with
  | none => rfl
  | some v =>
    have hle := bound t.keys t.freshKey (mem_keys.mpr ⟨v, h⟩)
    exact absurd hle (Nat.not_succ_le_self _)

section Many
variable [DecidableEq K] {t : Table K V} {pairs : List (K × V)} {k : K} {v : V}

/-- The pairs of a list in turn: a later pair replaces an earlier one of its key. -/
def putAll (t : Table K V) (pairs : List (K × V)) : Table K V :=
  pairs.foldl (fun written pair => written.put pair.1 pair.2) t

theorem putAll_cons (t : Table K V) (pair : K × V) (rest : List (K × V)) :
    t.putAll (pair :: rest) = (t.put pair.1 pair.2).putAll rest := rfl

/-- A row is one that was there or one of the pairs. -/
theorem get_putAll (h : (t.putAll pairs).get k = some v) :
    t.get k = some v ∨ (k, v) ∈ pairs := by
  induction pairs generalizing t with
  | nil => exact Or.inl h
  | cons pair rest ih =>
    rw [putAll_cons] at h
    rcases ih h with before | mem
    · rcases get_put_eq_some before with ⟨rfl, rfl⟩ | ⟨_, old⟩
      · exact Or.inr List.mem_cons_self
      · exact Or.inl old
    · exact Or.inr (List.mem_cons_of_mem _ mem)

theorem get_putAll_of_notMem (absent : k ∉ pairs.map Prod.fst) :
    (t.putAll pairs).get k = t.get k := by
  induction pairs generalizing t with
  | nil => rfl
  | cons pair rest ih =>
    rw [List.map_cons, List.mem_cons, not_or] at absent
    rw [putAll_cons, ih absent.2, get_put_ne t _ absent.1]

/-- Pairs of different keys are all there in the end. -/
theorem get_putAll_of_mem (apart : (pairs.map Prod.fst).Nodup) (mem : (k, v) ∈ pairs) :
    (t.putAll pairs).get k = some v := by
  induction pairs generalizing t with
  | nil => exact absurd mem List.not_mem_nil
  | cons pair rest ih =>
    obtain ⟨fresh, others⟩ := List.nodup_cons.mp apart
    rw [putAll_cons]
    rcases List.mem_cons.mp mem with rfl | mem
    · rw [get_putAll_of_notMem fresh, get_put_self]
    · exact ih others mem

end Many

section Counts
variable [DecidableEq K]

/-- `SELECT COUNT(*) WHERE p`. -/
def countWhere (t : Table K V) (p : K → V → Bool) : Nat :=
  t.rows.countP (fun row => p row.1 row.2)

theorem countP_filter_erase (rows : List (K × V)) (nodup : (rows.map Prod.fst).Nodup)
    (p : K → V → Bool) (k : K) :
    (rows.filter (fun row => !decide (row.1 = k))).countP (fun row => p row.1 row.2) +
        ((find k rows).any (p k)).toNat =
      rows.countP (fun row => p row.1 row.2) := by
  induction rows with
  | nil => rfl
  | cons row rest ih =>
    obtain ⟨hnot, htail⟩ := List.nodup_cons.mp nodup
    by_cases hk : row.1 = k
    · subst hk
      have keep : rest.filter (fun r => !decide (r.1 = row.1)) = rest := by
        refine List.filter_eq_self.mpr ?_
        intro r hr
        have hne : r.1 ≠ row.1 := fun h => hnot (List.mem_map.mpr ⟨r, hr, h⟩)
        simp [hne]
      cases hp : p row.1 row.2 <;> simp [find, keep, hp]
    · have h := ih htail
      cases hp : p row.1 row.2 <;> simp [find, hk, hp] <;> omega

/-- Writing one row changes a count by that row only. -/
theorem countWhere_put (t : Table K V) (p : K → V → Bool) (k : K) (v : V) :
    (t.put k v).countWhere p + ((t.get k).any (p k)).toNat =
      t.countWhere p + (p k v).toNat := by
  have h := countP_filter_erase t.rows t.unique p k
  have written : (t.put k v).countWhere p =
      (t.rows.filter (fun row => !decide (row.1 = k))).countP (fun row => p row.1 row.2) +
        (p k v).toNat := by
    rw [countWhere, put, List.countP_append, List.countP_singleton]
    cases p k v <;> rfl
  rw [written, countWhere, get]
  omega

omit [DecidableEq K] in
/-- Every row that is counted on the left is counted on the right. -/
theorem countWhere_le_add {t : Table K V} {p q r : K → V → Bool}
    (covered : ∀ k v, p k v = true → q k v = true ∨ r k v = true) :
    t.countWhere p ≤ t.countWhere q + t.countWhere r := by
  simp only [countWhere]
  induction t.rows with
  | nil => exact Nat.zero_le _
  | cons row rest ih =>
    simp only [List.countP_cons]
    by_cases hp : p row.1 row.2 = true
    · rcases covered row.1 row.2 hp with h | h
      · simp only [hp, h, if_true]
        omega
      · simp only [hp, h, if_true]
        omega
    · rw [if_neg hp]
      omega

omit [DecidableEq K] in
theorem countWhere_mono {t : Table K V} {p q : K → V → Bool}
    (covered : ∀ k v, p k v = true → q k v = true) : t.countWhere p ≤ t.countWhere q :=
  List.countP_mono_left (fun row _ => covered row.1 row.2)

omit [DecidableEq K] in
theorem countWhere_pos {t : Table K V} {p : K → V → Bool} {row : K × V} (mem : row ∈ t.rows)
    (hp : p row.1 row.2 = true) : 0 < t.countWhere p :=
  List.countP_pos_iff.mpr ⟨row, mem, hp⟩

omit [DecidableEq K] in
theorem countWhere_eq_zero {t : Table K V} {p : K → V → Bool}
    (none : ∀ row ∈ t.rows, p row.1 row.2 = false) : t.countWhere p = 0 := by
  refine List.countP_eq_zero.mpr ?_
  intro row mem
  simp [none row mem]

end Counts

end Table
