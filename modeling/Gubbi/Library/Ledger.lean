import Mathlib.Data.List.Pairwise
import Mathlib.Data.List.Nodup
import Mathlib.Algebra.BigOperators.Group.List.Basic
import Mathlib.Algebra.GroupWithZero.Nat

/-!
# Ledgers

A ledger is a list of entries, newest first, that only grows at its head. What
relates each new entry to all older ones is a pairwise relation, and "at most
one entry of a kind" is the pairwise exclusion of two of them.
-/

namespace Ledger

universe u
variable {E : Type u}

theorem countP_le_one {kind : E → Bool} {entries : List E}
    (exclusive : entries.Pairwise (fun new old => ¬ (kind new = true ∧ kind old = true))) :
    entries.countP kind ≤ 1 := by
  induction entries with
  | nil => simp
  | cons entry rest ih =>
    obtain ⟨hhead, htail⟩ := List.pairwise_cons.mp exclusive
    by_cases hkind : kind entry = true
    · have hrest : rest.countP kind = 0 :=
        List.countP_eq_zero.mpr (fun old hmem hold => hhead old hmem ⟨hkind, hold⟩)
      simp [List.countP_cons_of_pos hkind, hrest]
    · rw [List.countP_cons_of_neg hkind]
      exact ih htail

/-- Two entries of a ledger are the same, or one of them is newer. -/
theorem eq_or_related {R : E → E → Prop} {entries : List E} (pairwise : entries.Pairwise R)
    {one two : E} (hone : one ∈ entries) (htwo : two ∈ entries) :
    one = two ∨ R one two ∨ R two one := by
  induction entries with
  | nil => cases hone
  | cons entry rest ih =>
    obtain ⟨hhead, htail⟩ := List.pairwise_cons.mp pairwise
    rcases List.mem_cons.mp hone with hone | hone
    · rcases List.mem_cons.mp htwo with htwo | htwo
      · exact Or.inl (hone.trans htwo.symm)
      · exact Or.inr (Or.inl (hone ▸ hhead two htwo))
    · rcases List.mem_cons.mp htwo with htwo | htwo
      · exact Or.inr (Or.inr (htwo ▸ hhead one hone))
      · exact ih htail hone htwo

/-- A kind that splits into two others is counted by their sum. -/
theorem countP_split {kind one two : E → Bool} {entries : List E}
    (split : ∀ entry ∈ entries, kind entry = (one entry || two entry) ∧
      (one entry && two entry) = false) :
    entries.countP one + entries.countP two = entries.countP kind := by
  induction entries with
  | nil => simp
  | cons entry rest ih =>
    have tail := ih (fun e h => split e (List.mem_cons_of_mem _ h))
    obtain ⟨heither, hboth⟩ := split entry List.mem_cons_self
    simp only [List.countP_cons, heither]
    cases hone : one entry <;> cases htwo : two entry <;> simp [hone, htwo] at hboth ⊢ <;> omega

/-- Counting the members of a sublist without repetition is taking its length. -/
theorem countP_mem [DecidableEq E] {entries chosen : List E} (nodup : entries.Nodup)
    (once : chosen.Nodup) (within : ∀ e ∈ chosen, e ∈ entries) :
    entries.countP (fun e => decide (e ∈ chosen)) = chosen.length := by
  rw [List.countP_eq_length_filter]
  refine List.Perm.length_eq ((List.perm_ext_iff_of_nodup (nodup.filter _) once).mpr ?_)
  intro e
  simp only [List.mem_filter, decide_eq_true_eq]
  exact ⟨And.right, fun h => ⟨within e h, h⟩⟩

/-- A sum over distinct entries of which one gives up a part. -/
theorem sum_map_give {entries : List E} (nodup : entries.Nodup) {entry : E}
    (hmem : entry ∈ entries) {before after : E → Nat} {part : Nat}
    (same : ∀ other ∈ entries, other ≠ entry → after other = before other)
    (gives : after entry + part = before entry) :
    (entries.map after).sum + part = (entries.map before).sum := by
  induction entries with
  | nil => cases hmem
  | cons head rest ih =>
    obtain ⟨hnot, htail⟩ := List.nodup_cons.mp nodup
    simp only [List.map_cons, List.sum_cons]
    rcases List.mem_cons.mp hmem with rfl | hrest
    · have hsame : rest.map after = rest.map before := by
        refine List.map_congr_left ?_
        intro other hother
        exact same other (List.mem_cons_of_mem _ hother) (fun h => hnot (h ▸ hother))
      rw [hsame]
      omega
    · have hne : head ≠ entry := fun h => hnot (h ▸ hrest)
      have hhead := same head List.mem_cons_self hne
      have htail := ih htail hrest (fun other h => same other (List.mem_cons_of_mem _ h))
      omega

end Ledger
