import Mathlib.Data.Finset.Card

/-!
# Backlogs

A backlog is worked off in rounds of at most `limit` items, and nobody knows which of its items a
round takes. Stuck items stay behind when a round has taken them, and cost the next round a place.
-/

namespace Backlog

universe u
variable {K : Type u} [DecidableEq K] {limit n : Nat} {good stuck g s round : Finset K}

/-- A round takes what it may of the backlog. -/
structure Takes (limit : Nat) (backlog round : Finset K) : Prop where
  within : round ⊆ backlog
  full : round.card = min limit backlog.card

omit [DecidableEq K] in
theorem exists_takes (limit : Nat) (backlog : Finset K) : ∃ round, Takes limit backlog round := by
  obtain ⟨round, within, full⟩ := Finset.exists_subset_card_eq (Nat.min_le_right limit backlog.card)
  exact ⟨round, within, full⟩

/-- The stuck items take places of a round, and the good ones have the others. -/
theorem Takes.card_sdiff_le (taken : Takes limit (good ∪ stuck) round)
    (apart : Disjoint good stuck) :
    (good \ round).card ≤ good.card - (limit - stuck.card) := by
  have places : round.card ≤ (good ∩ round).card + (round ∩ stuck).card := by
    have whole : round = good ∩ round ∪ round ∩ stuck := by
      rw [Finset.inter_comm good, ← Finset.inter_union_distrib_left]
      exact (Finset.inter_eq_left.mpr taken.within).symm
    calc round.card = (good ∩ round ∪ round ∩ stuck).card := congrArg Finset.card whole
      _ ≤ (good ∩ round).card + (round ∩ stuck).card := Finset.card_union_le _ _
  have few : (round ∩ stuck).card ≤ stuck.card := Finset.card_le_card Finset.inter_subset_right
  have left : (good \ round).card + (good ∩ round).card = good.card :=
    Finset.card_sdiff_add_card_inter good round
  have full := taken.full
  rw [Finset.card_union_of_disjoint apart] at full
  omega

/-- The good and the stuck items that are left after a number of rounds, between which items may
go by themselves. -/
inductive Worked (limit : Nat) (good stuck : Finset K) : Nat → Finset K → Finset K → Prop
  | begins : Worked limit good stuck 0 good stuck
  | fewer {n : Nat} {g s g' s' : Finset K} (worked : Worked limit good stuck n g s)
      (less : g' ⊆ g) (lessStuck : s' ⊆ s) : Worked limit good stuck n g' s'
  | round {n : Nat} {g s g' s' round : Finset K} (worked : Worked limit good stuck n g s)
      (taken : Takes limit (g ∪ s) round) (left : g' ⊆ g \ round) (lessStuck : s' ⊆ s) :
      Worked limit good stuck (n + 1) g' s'

theorem Worked.subset (worked : Worked limit good stuck n g s) : g ⊆ good ∧ s ⊆ stuck := by
  induction worked with
  | begins => exact ⟨Finset.Subset.refl _, Finset.Subset.refl _⟩
  | fewer worked less lessStuck ih => exact ⟨less.trans ih.1, lessStuck.trans ih.2⟩
  | round worked taken left lessStuck ih =>
    exact ⟨(left.trans Finset.sdiff_subset).trans ih.1, lessStuck.trans ih.2⟩

/-- Each round gets through with the places that the stuck items leave. -/
theorem Worked.card_le (apart : Disjoint good stuck) (worked : Worked limit good stuck n g s) :
    g.card ≤ good.card - n * (limit - stuck.card) := by
  induction worked with
  | begins => simp
  | fewer worked less lessStuck ih => exact (Finset.card_le_card less).trans ih
  | @round n g s g' s' round worked taken left lessStuck ih =>
    obtain ⟨ofGood, ofStuck⟩ := worked.subset
    have one : g'.card ≤ g.card - (limit - s.card) :=
      (Finset.card_le_card left).trans (taken.card_sdiff_le (apart.mono ofGood ofStuck))
    have places : s.card ≤ stuck.card := Finset.card_le_card ofStuck
    rw [Nat.succ_mul]
    omega

end Backlog
