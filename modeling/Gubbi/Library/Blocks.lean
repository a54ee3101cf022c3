import Mathlib.Data.Nat.Find
import Mathlib.Order.Monotone.Basic

/-!
# Consecutive blocks of numbers

The numbers from 0 on are cut into blocks one after the other, as days are into
years and weeks; `start k` is the first number of block `k`. The block of a number
is found by going down from the last block that can hold it.
-/

namespace Blocks

structure Cut where
  start : Nat → Nat
  /-- No block is shorter. -/
  width : Nat
  start_zero : start 0 = 0
  width_pos : 0 < width
  wide : ∀ k, start k + width ≤ start (k + 1)

/-- The block of a number. -/
def Cut.index (c : Cut) (n : Nat) : Nat :=
  Nat.findGreatest (fun k => c.start k ≤ n) (n / c.width)

/-- The place of a number in its block. -/
def Cut.offset (c : Cut) (n : Nat) : Nat := n - c.start (c.index n)

variable {c : Cut} {k l n m : Nat}

theorem Cut.strictMono_start : StrictMono c.start := by
  apply strictMono_nat_of_lt_succ
  intro k
  have := c.wide k
  have := c.width_pos
  omega

theorem Cut.mul_width_le (c : Cut) (k : Nat) : k * c.width ≤ c.start k := by
  induction k with
  | zero => omega
  | succ k ih =>
    have := c.wide k
    rw [Nat.add_mul]
    omega

theorem Cut.start_index_le (c : Cut) (n : Nat) : c.start (c.index n) ≤ n := by
  have first : c.start 0 ≤ n := by have := c.start_zero; omega
  exact Nat.findGreatest_spec (P := fun k => c.start k ≤ n) (Nat.zero_le _) first

theorem Cut.le_index_iff : k ≤ c.index n ↔ c.start k ≤ n := by
  constructor
  · intro h
    exact (c.strictMono_start.monotone h).trans (c.start_index_le n)
  · intro h
    have bound : k ≤ n / c.width :=
      (Nat.le_div_iff_mul_le c.width_pos).mpr ((c.mul_width_le k).trans h)
    exact Nat.le_findGreatest bound h

theorem Cut.index_lt_iff : c.index n < k ↔ n < c.start k := by
  have := c.le_index_iff (k := k) (n := n)
  omega

theorem Cut.lt_start_index_succ (c : Cut) (n : Nat) : n < c.start (c.index n + 1) :=
  c.index_lt_iff.mp (Nat.lt_succ_self _)

theorem Cut.index_eq_iff : c.index n = k ↔ c.start k ≤ n ∧ n < c.start (k + 1) := by
  have lower := c.le_index_iff (k := k) (n := n)
  have upper := c.index_lt_iff (k := k + 1) (n := n)
  omega

theorem Cut.start_add_offset (c : Cut) (n : Nat) : c.start (c.index n) + c.offset n = n := by
  have := c.start_index_le n
  rw [Cut.offset]
  omega

theorem Cut.offset_lt (c : Cut) (n : Nat) :
    c.start (c.index n) + c.offset n < c.start (c.index n + 1) := by
  rw [c.start_add_offset]
  exact c.lt_start_index_succ n

/-- A place inside a block belongs to that block. -/
theorem Cut.index_add (h : c.start k + l < c.start (k + 1)) : c.index (c.start k + l) = k :=
  c.index_eq_iff.mpr ⟨Nat.le_add_right _ _, h⟩

theorem Cut.offset_add (h : c.start k + l < c.start (k + 1)) : c.offset (c.start k + l) = l := by
  rw [Cut.offset, c.index_add h]
  omega

end Blocks
