import Mathlib.Data.List.Dedup
import Mathlib.Data.List.Sort

/-!
# Merged and ranked lists

A merge takes elements one after the other and keeps the first one of each key. A
ranking sorts them, where ties stay in their order, and cuts the list at a limit. A map
that keeps the ranks may come before the ranking or after it.
-/

namespace Ranking

universe u v w

section Merges
variable {A : Type u} {K : Type v} {key : A → K}

/-- The keys that were seen and the elements that were kept. -/
structure Merge (key : A → K) where
  seen : List K
  kept : List A
  tracks : ∀ k, k ∈ seen ↔ k ∈ kept.map key
  nodup : (kept.map key).Nodup

def Merge.start (key : A → K) : Merge key where
  seen := []
  kept := []
  tracks _ := Iff.rfl
  nodup := List.nodup_nil

variable [DecidableEq K]

def Merge.add (m : Merge key) (a : A) : Merge key :=
  if seen : key a ∈ m.seen then m
  else {
    seen := key a :: m.seen
    kept := m.kept ++ [a]
    tracks := by
      intro k
      rw [List.mem_cons, m.tracks, List.map_append, List.mem_append, List.map_singleton,
        List.mem_singleton, or_comm]
    nodup := by
      rw [List.map_append, List.map_singleton]
      refine List.Nodup.append m.nodup (List.nodup_singleton _) ?_
      exact List.disjoint_singleton.mpr (fun mem => seen ((m.tracks _).mpr mem)) }

def Merge.addAll (m : Merge key) (as : List A) : Merge key := as.foldl Merge.add m

theorem Merge.kept_add (m : Merge key) (a : A) :
    (m.add a).kept = if key a ∈ m.kept.map key then m.kept else m.kept ++ [a] := by
  rw [add]
  by_cases seen : key a ∈ m.seen
  · rw [dif_pos seen, if_pos ((m.tracks _).mp seen)]
  · rw [dif_neg seen, if_neg (fun mem => seen ((m.tracks _).mpr mem))]

theorem Merge.keys_add (m : Merge key) (a : A) (k : K) :
    k ∈ (m.add a).kept.map key ↔ k ∈ m.kept.map key ∨ k = key a := by
  rw [kept_add]
  by_cases old : key a ∈ m.kept.map key
  · rw [if_pos old]
    refine ⟨Or.inl, ?_⟩
    rintro (mem | rfl)
    · exact mem
    · exact old
  · rw [if_neg old, List.map_append, List.mem_append, List.map_singleton, List.mem_singleton]

theorem Merge.keys_addAll (m : Merge key) (as : List A) (k : K) :
    k ∈ (m.addAll as).kept.map key ↔ k ∈ m.kept.map key ∨ k ∈ as.map key := by
  induction as generalizing m with
  | nil => simp [addAll]
  | cons a rest ih =>
    rw [addAll, List.foldl_cons, ← addAll, ih, keys_add, List.map_cons, List.mem_cons, or_assoc]

/-- An element is kept if it was before, or if it is the first of a new key. -/
theorem Merge.mem_addAll (m : Merge key) (as : List A) (a : A) :
    a ∈ (m.addAll as).kept ↔ a ∈ m.kept ∨
      (key a ∉ m.kept.map key ∧ as.find? (fun b => key b = key a) = some a) := by
  induction as generalizing m with
  | nil => simp [addAll]
  | cons b rest ih =>
    rw [addAll, List.foldl_cons, ← addAll, ih, keys_add, kept_add, List.find?_cons]
    by_cases old : key b ∈ m.kept.map key
    · rw [if_pos old]
      by_cases same : key b = key a
      · simp [same, same ▸ old]
      · simp [same, Ne.symm same]
    · rw [if_neg old, List.mem_append, List.mem_singleton]
      by_cases same : key b = key a
      · simp only [same, decide_true, not_or, not_true_eq_false, and_false, false_and, or_false,
          Option.some.injEq, same ▸ old, not_false_eq_true, true_and]
        exact or_congr_right eq_comm
      · have other : a ≠ b := fun equal => same (equal ▸ rfl)
        simp [same, Ne.symm same, other]

theorem length_eq_of_keys {as : List A} {ks : List K} (nodup : (as.map key).Nodup)
    (same : ∀ k, k ∈ as.map key ↔ k ∈ ks) : as.length = ks.dedup.length := by
  have perm : (as.map key).Perm ks.dedup :=
    (List.perm_ext_iff_of_nodup nodup ks.nodup_dedup).mpr
      (fun k => (same k).trans List.mem_dedup.symm)
  rw [← perm.length_eq, List.length_map]

end Merges

section Rankings
variable {A : Type u} {B : Type v} {R : Type w} [LinearOrder R] {rank : A → R} {limit : Nat}
  {as : List A}

/-- `sorted(as, key=rank)[:limit]`. -/
def best (rank : A → R) (limit : Nat) (as : List A) : List A :=
  (as.insertionSort (fun a b => rank a ≤ rank b)).take limit

theorem pairwise_sorted (rank : A → R) (as : List A) :
    (as.insertionSort (fun a b => rank a ≤ rank b)).Pairwise (fun a b => rank a ≤ rank b) := by
  have : Std.Total (fun a b : A => rank a ≤ rank b) := ⟨fun a b => le_total (rank a) (rank b)⟩
  have : IsTrans A (fun a b => rank a ≤ rank b) := ⟨fun _ _ _ => le_trans⟩
  exact List.pairwise_insertionSort _ as

theorem perm_sorted (rank : A → R) (as : List A) :
    (as.insertionSort (fun a b => rank a ≤ rank b)).Perm as :=
  List.perm_insertionSort _ as

theorem pairwise_best : (best rank limit as).Pairwise (fun a b => rank a ≤ rank b) :=
  (pairwise_sorted rank as).sublist (List.take_sublist _ _)

theorem length_best : (best rank limit as).length = min limit as.length := by
  rw [best, List.length_take, (perm_sorted rank as).length_eq]

theorem mem_of_mem_best {a : A} (mem : a ∈ best rank limit as) : a ∈ as :=
  (perm_sorted rank as).mem_iff.mp (List.mem_of_mem_take mem)

theorem nodup_best {K : Type v} {key : A → K} (nodup : (as.map key).Nodup) :
    ((best rank limit as).map key).Nodup := by
  have sorted := ((perm_sorted rank as).map key).nodup_iff.mpr nodup
  exact sorted.sublist ((List.take_sublist _ _).map key)

variable (rank limit) in
/-- What the limit drops ranks no better than what is kept. -/
theorem mem_best_or {a : A} (mem : a ∈ as) : a ∈ best rank limit as ∨
    ((best rank limit as).length = limit ∧ ∀ b ∈ best rank limit as, rank b ≤ rank a) := by
  have sorted := (perm_sorted rank as).mem_iff.mpr mem
  have split := List.take_append_drop limit (as.insertionSort (fun a b => rank a ≤ rank b))
  rw [← split] at sorted
  rcases List.mem_append.mp sorted with kept | dropped
  · exact Or.inl kept
  · refine Or.inr ⟨?_, fun b kept => ?_⟩
    · have long : limit < as.length := by
        by_contra short
        rw [List.drop_eq_nil_of_le ((perm_sorted rank as).length_eq ▸ Nat.le_of_not_lt short)]
          at dropped
        cases dropped
      rw [length_best]
      exact Nat.min_eq_left long.le
    · have pairs := pairwise_sorted rank as
      rw [← split] at pairs
      exact (List.pairwise_append.mp pairs).2.2 b kept a dropped

/-- The ranking looks at ranks only. -/
theorem map_best {f : A → B} {rank' : B → R} (keeps : ∀ a ∈ as, rank' (f a) = rank a) :
    (best rank limit as).map f = best rank' limit (as.map f) := by
  have ranks : ∀ a ∈ as, ∀ b ∈ as, rank a ≤ rank b ↔ rank' (f a) ≤ rank' (f b) := by
    intro a ha b hb
    rw [keeps a ha, keeps b hb]
  rw [best, best, List.map_take]
  exact congrArg (List.take limit) (List.map_insertionSort _ _ f as ranks)

end Rankings

end Ranking
