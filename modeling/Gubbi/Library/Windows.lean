import Mathlib.Order.Basic
import Mathlib.Data.List.Basic

/-!
# Counting events in windows of time

Events carry a time, and a kind of event is counted from an instant on, or
between two instants. A window counts no more than all events since an earlier
instant, and events beyond the present are not there yet.
-/

namespace Windows

universe u v
variable {E : Type u} {T : Type v}

section Counts
variable [LE T] [DecidableLE T]

def since (time : E → T) (kind : E → Bool) (events : List E) (start : T) : Nat :=
  events.countP (fun event => kind event && start ≤ time event)

def between (time : E → T) (kind : E → Bool) (events : List E) (start stop : T) : Nat :=
  events.countP (fun event => kind event && (start ≤ time event && time event ≤ stop))

end Counts

variable [Preorder T] [DecidableLE T]
variable {time : E → T} {kind : E → Bool} {events : List E}

theorem since_anti {start later : T} (h : start ≤ later) :
    since time kind events later ≤ since time kind events start := by
  apply List.countP_mono_left
  intro event _ counted
  simp only [Bool.and_eq_true, decide_eq_true_eq] at counted ⊢
  exact ⟨counted.1, le_trans h counted.2⟩

theorem since_append (event : E) (start : T) :
    since time kind (events ++ [event]) start =
      since time kind events start + (kind event && decide (start ≤ time event)).toNat := by
  rw [since, since, List.countP_append, List.countP_singleton]
  cases (kind event && decide (start ≤ time event)) <;> rfl

/-- Dropping events from before an instant does not change the count from it on. -/
theorem since_filter {keep : E → Bool} {start : T}
    (kept : ∀ event, start ≤ time event → keep event = true) :
    since time kind (events.filter keep) start = since time kind events start := by
  rw [since, since, List.countP_filter]
  apply List.countP_congr
  intro event _
  simp only [Bool.and_eq_true, decide_eq_true_eq]
  constructor
  · exact And.left
  · intro counted
    exact ⟨counted, kept event counted.2⟩

theorem since_future {now start : T} (past : ∀ event ∈ events, time event ≤ now)
    (future : now < start) : since time kind events start = 0 := by
  apply List.countP_eq_zero.mpr
  intro event member
  simp only [Bool.and_eq_true, decide_eq_true_eq, not_and]
  exact fun _ => not_le_of_gt (lt_of_le_of_lt (past event member) future)

theorem between_le_since {start later stop : T} (h : later ≤ start) :
    between time kind events start stop ≤ since time kind events later := by
  apply List.countP_mono_left
  intro event _ counted
  simp only [Bool.and_eq_true, decide_eq_true_eq] at counted ⊢
  exact ⟨counted.1, le_trans h counted.2.1⟩

/-- An event outside a window is not counted in it. -/
theorem between_append {event : E} {start stop : T}
    (outside : ¬ (start ≤ time event ∧ time event ≤ stop)) :
    between time kind (events ++ [event]) start stop = between time kind events start stop := by
  rw [between, between, List.countP_append, List.countP_singleton, ← Bool.decide_and,
    decide_eq_false outside, Bool.and_false]
  rfl

end Windows
