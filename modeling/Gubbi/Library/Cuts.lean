import Mathlib.Data.List.Basic

/-!
# What a filter and a cut leave

A list is filtered and cut to a length. An element stays when it passes the filter and
fewer than that many elements before it do; it is the first one left when none before it
passes, and the last one when it is met at the cut or none after it passes.
-/

namespace Cuts

universe u
variable {α : Type u} {p : α → Bool} {n i : Nat} {l : List α} {a : α}

/-- The first `n` elements that pass. -/
def keep (p : α → Bool) (n : Nat) (l : List α) : List α := (l.filter p).take n

theorem length_keep_le : (keep p n l).length ≤ n := List.length_take_le _ _

theorem of_mem_keep (mem : a ∈ keep p n l) : p a = true :=
  (List.mem_filter.mp (List.mem_of_mem_take mem)).2

/-- What a filter has at a place stands behind that many elements that pass. -/
theorem getElem?_filter : (l.filter p)[i]? = some a ↔
    ∃ front rest, l = front ++ a :: rest ∧ p a = true ∧ front.countP p = i := by
  induction l generalizing i with
  | nil => simp
  | cons b tail ih =>
    by_cases pass : p b = true
    · rw [List.filter_cons_of_pos pass]
      constructor
      · intro found
        cases i with
        | zero =>
          cases found
          exact ⟨[], tail, rfl, pass, rfl⟩
        | succ i =>
          obtain ⟨front, rest, rfl, ha, count⟩ := ih.mp found
          exact ⟨b :: front, rest, rfl, ha, by rw [List.countP_cons_of_pos pass, count]⟩
      · rintro ⟨front, rest, split, ha, count⟩
        cases front with
        | nil =>
          cases split
          cases count
          rfl
        | cons b' front =>
          obtain ⟨rfl, rfl⟩ := List.cons.inj split
          rw [List.countP_cons_of_pos pass] at count
          subst count
          exact ih.mpr ⟨front, rest, rfl, ha, rfl⟩
    · rw [List.filter_cons_of_neg pass, ih]
      constructor
      · rintro ⟨front, rest, rfl, ha, count⟩
        exact ⟨b :: front, rest, rfl, ha, by rw [List.countP_cons_of_neg pass, count]⟩
      · rintro ⟨front, rest, split, ha, count⟩
        cases front with
        | nil =>
          cases split
          exact absurd ha pass
        | cons b' front =>
          obtain ⟨rfl, rfl⟩ := List.cons.inj split
          rw [List.countP_cons_of_neg pass] at count
          exact ⟨front, rest, rfl, ha, count⟩

theorem getElem?_keep : (keep p n l)[i]? = some a ↔
    i < n ∧ ∃ front rest, l = front ++ a :: rest ∧ p a = true ∧ front.countP p = i := by
  rw [keep, List.getElem?_take]
  by_cases inside : i < n
  · rw [if_pos inside, getElem?_filter]
    exact (and_iff_right inside).symm
  · rw [if_neg inside]
    exact iff_of_false (by simp) fun h => inside h.1

theorem mem_keep : a ∈ keep p n l ↔
    ∃ front rest, l = front ++ a :: rest ∧ p a = true ∧ front.countP p < n := by
  rw [List.mem_iff_getElem?]
  simp only [getElem?_keep]
  constructor
  · rintro ⟨i, inside, front, rest, split, pass, rfl⟩
    exact ⟨front, rest, split, pass, inside⟩
  · rintro ⟨front, rest, split, pass, inside⟩
    exact ⟨front.countP p, inside, front, rest, split, pass, rfl⟩

theorem head?_keep : (keep p n l).head? = some a ↔
    0 < n ∧ ∃ front rest, l = front ++ a :: rest ∧ p a = true ∧ front.countP p = 0 := by
  rw [List.head?_eq_getElem?]
  exact getElem?_keep

theorem length_keep : (keep p n l).length = min n (l.countP p) := by
  rw [keep, List.length_take, ← List.countP_eq_length_filter]

theorem countP_split {front rest : List α} (pass : p a = true) :
    (front ++ a :: rest).countP p = front.countP p + 1 + rest.countP p := by
  rw [List.countP_append, List.countP_cons_of_pos pass]
  omega

theorem getLast?_keep : (keep p n l).getLast? = some a ↔
    ∃ front rest, l = front ++ a :: rest ∧ p a = true ∧ front.countP p < n ∧
      (front.countP p + 1 = n ∨ rest.countP p = 0) := by
  rw [List.getLast?_eq_getElem?, getElem?_keep, length_keep]
  constructor
  · rintro ⟨inside, front, rest, rfl, pass, place⟩
    rw [countP_split pass] at inside place
    exact ⟨front, rest, rfl, pass, by omega, by omega⟩
  · rintro ⟨front, rest, rfl, pass, inside, last⟩
    rw [countP_split pass]
    exact ⟨by omega, front, rest, rfl, pass, by omega⟩

/-- Nothing is left when nothing passes, or when everything is cut off. -/
theorem keep_ne_nil (positive : 0 < n) : keep p n l ≠ [] ↔ ∃ a ∈ l, p a = true := by
  rw [← List.length_pos_iff, length_keep, ← List.countP_pos_iff]
  omega

/-- A short list of elements that pass is kept as it is. -/
theorem keep_of_forall (all : ∀ a ∈ l, p a = true) (short : l.length ≤ n) : keep p n l = l := by
  rw [keep, List.filter_eq_self.mpr all, List.take_of_length_le short]

end Cuts
