import Mathlib.Data.List.Sort
import Mathlib.Order.Basic

/-!
# Keyset pagination

Rows in the strict order of a key are determined by their members. A page holds the
first of them, and the next page those whose key is greater than the last key of it.
-/

namespace Keyset

universe u v
variable {R : Type u} {K : Type v} [LinearOrder K] {key : R → K}

def Sorted (key : R → K) (rows : List R) : Prop := rows.Pairwise (fun a b => key a < key b)

theorem Sorted.ext {one two : List R} (first : Sorted key one) (second : Sorted key two)
    (same : ∀ row, row ∈ one ↔ row ∈ two) : one = two := by
  have nodup : ∀ rows : List R, Sorted key rows → rows.Nodup := by
    intro rows sorted
    refine List.Pairwise.imp ?_ sorted
    rintro a b hlt rfl
    exact lt_irrefl _ hlt
  have perm : one.Perm two :=
    (List.perm_ext_iff_of_nodup (nodup one first) (nodup two second)).mpr same
  refine perm.eq_of_pairwise ?_ first second
  intro a b _ _ hab hba
  exact absurd (hab.trans hba) (lt_irrefl (key a))

theorem Sorted.filter {rows : List R} (sorted : Sorted key rows) (p : R → Bool) :
    Sorted key (rows.filter p) := List.Pairwise.filter p sorted

/-- The rows after a row are those with a greater key. -/
theorem Sorted.after {before after : List R} {row : R}
    (sorted : Sorted key (before ++ row :: after)) :
    (before ++ row :: after).filter (fun other => key row < key other) = after := by
  obtain ⟨_, rest, across⟩ := List.pairwise_append.mp sorted
  obtain ⟨later, _⟩ := List.pairwise_cons.mp rest
  rw [List.filter_append, List.filter_cons_of_neg (by simp),
    List.filter_eq_nil_iff.mpr fun other mem => by
      simpa using (across other mem row List.mem_cons_self).le,
    List.filter_eq_self.mpr fun other mem => by simpa using later other mem, List.nil_append]

/-- After the last row of a page come the rows that are not in it. -/
theorem Sorted.rest {rows : List R} (sorted : Sorted key rows) {n : Nat} {last : R}
    (hlast : (rows.take n).getLast? = some last) :
    rows.filter (fun row => key last < key row) = rows.drop n := by
  obtain ⟨front, hfront⟩ := List.getLast?_eq_some_iff.mp hlast
  have split : front ++ last :: rows.drop n = rows := by
    rw [List.append_cons, ← hfront, List.take_append_drop]
  rw [← split] at sorted
  calc rows.filter (fun row => key last < key row)
      = (front ++ last :: rows.drop n).filter (fun row => key last < key row) := by rw [split]
    _ = rows.drop n := sorted.after

/-- What a page leaves out comes after all of it. -/
theorem Sorted.lt_of_not_mem_take {rows : List R} (sorted : Sorted key rows) {n : Nat} {a b : R}
    (listed : b ∈ rows) (outside : b ∉ rows.take n) (mem : a ∈ rows.take n) : key a < key b := by
  rw [← List.take_append_drop n rows] at listed
  have parts := sorted
  rw [← List.take_append_drop n rows] at parts
  exact (List.pairwise_append.mp parts).2.2 a mem b
    ((List.mem_append.mp listed).resolve_left outside)

/-- A page ends at its greatest key. -/
theorem Sorted.le_last {rows : List R} (sorted : Sorted key rows) {last row : R}
    (hlast : rows.getLast? = some last) (mem : row ∈ rows) : key row ≤ key last := by
  obtain ⟨front, rfl⟩ := List.getLast?_eq_some_iff.mp hlast
  rcases List.mem_append.mp mem with before | this
  · exact ((List.pairwise_append.mp sorted).2.2 row before last List.mem_cons_self).le
  · rw [List.mem_singleton.mp this]

end Keyset
