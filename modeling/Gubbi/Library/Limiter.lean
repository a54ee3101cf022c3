import Gubbi.Library.Replay
import Gubbi.Library.Windows
import Mathlib.Logic.Function.Basic
import Mathlib.Algebra.Order.Group.Int

/-!
# A limit on the events of a window that is checked before they are recorded

A request is admitted when the last window holds fewer events of its key than the limit. Its own
event is recorded later, if at all, and requests in between are under way. So the limit may be
passed by as many events as other requests are under way at an admission.
-/

namespace Limiter

variable {K : Type} [DecidableEq K]

structure State (K : Type) where
  now : Int
  log : List (K × Int)
  underWay : K → Nat

def State.start : State K := ⟨0, [], fun _ => 0⟩

inductive Action (K : Type)
  | tick (elapsed : Nat)
  | accept (key : K)
  | record (key : K)
  | withdraw (key : K)

def State.since (s : State K) (key : K) (start : Int) : Nat :=
  Windows.since Prod.snd (fun event => event.1 = key) s.log start

def State.between (s : State K) (key : K) (start stop : Int) : Nat :=
  Windows.between Prod.snd (fun event => event.1 = key) s.log start stop

/-- The number of requests under way with a key changes. -/
def State.become (s : State K) (key : K) (count : Nat) : State K :=
  { s with underWay := Function.update s.underWay key count }

def State.record (s : State K) (key : K) : State K :=
  { s.become key (s.underWay key - 1) with log := s.log ++ [(key, s.now)] }

section Limit
variable (limit window : Nat)

def step (s : State K) : Action K → Option (State K)
  | .tick elapsed => some { s with now := s.now + elapsed }
  | .accept key =>
    if s.since key (s.now - window) < limit then some (s.become key (s.underWay key + 1)) else none
  | .record key => if 0 < s.underWay key then some (s.record key) else none
  | .withdraw key =>
    if 0 < s.underWay key then some (s.become key (s.underWay key - 1)) else none

/-- An admission finds fewer requests of its key under way. -/
def crowd (width : Nat) (s : State K) : Action K → Prop
  | .accept key => s.underWay key < width
  | _ => True

/-- The events of a window, and those under way while it lasts, keep to the limit and the width. -/
structure Roomy (width : Nat) (key : K) (start : Int) (s : State K) : Prop where
  few : s.underWay key ≤ width
  within : s.between key start (start + window) ≤ limit - 1 + width
  ahead : s.now ≤ start + window →
    s.between key start (start + window) + s.underWay key ≤ limit - 1 + width

end Limit

section Bound
variable {limit window width : Nat} {key : K} {start : Int} {s t : State K}

theorem become_underWay (s : State K) (key other : K) (count : Nat) :
    (s.become key count).underWay other = if other = key then count else s.underWay other :=
  Function.update_apply s.underWay key count other

theorem become_self (s : State K) (key : K) (count : Nat) :
    (s.become key count).underWay key = count := by
  rw [become_underWay, if_pos rfl]

theorem become_le {other : K} {count : Nat} (fewer : count ≤ s.underWay other) :
    (s.become other count).underWay key ≤ s.underWay key := by
  rw [become_underWay]
  split
  · next same => exact same ▸ fewer
  · exact Nat.le_refl _

theorem record_between_le (s : State K) (key other : K) (start stop : Int) :
    (s.record other).between key start stop ≤ s.between key start stop + 1 := by
  rw [State.between, Windows.between, State.record, List.countP_append]
  exact Nat.add_le_add_left List.countP_le_length _

theorem record_between {other : K} {stop : Int}
    (outside : ¬ (other = key ∧ start ≤ s.now ∧ s.now ≤ stop)) :
    (s.record other).between key start stop = s.between key start stop := by
  rw [State.between, Windows.between, State.record, List.countP_append]
  refine Nat.add_eq_left.mpr (List.countP_eq_zero.mpr fun event member => ?_)
  rw [List.mem_singleton.mp member]
  simpa using outside

theorem Roomy.become (room : Roomy limit window width key start s) {other : K} {count : Nat}
    (fewer : count ≤ s.underWay other) :
    Roomy limit window width key start (s.become other count) where
  few := le_trans (become_le fewer) room.few
  within := room.within
  ahead open_ := le_trans (Nat.add_le_add_left (become_le fewer) _) (room.ahead open_)

theorem Roomy.accept (room : Roomy limit window width key start s) {other : K}
    (admitted : s.since other (s.now - window) < limit) (guard : s.underWay other < width) :
    Roomy limit window width key start (s.become other (s.underWay other + 1)) := by
  by_cases same : key = other
  · subst same
    have now := become_self s key (s.underWay key + 1)
    refine ⟨now.symm ▸ guard, room.within, fun open_ => ?_⟩
    -- a window that is still open starts in the one that the admission has looked at
    have reached : s.between key start (start + window) ≤ s.since key (s.now - window) :=
      Windows.between_le_since (Int.sub_right_le_of_le_add open_)
    rw [now]
    have fits : s.between key start (start + window) ≤ limit - 1 :=
      Nat.le_sub_one_of_lt (lt_of_le_of_lt reached admitted)
    exact Nat.add_le_add fits guard
  · have still : (s.become other (s.underWay other + 1)).underWay key = s.underWay key := by
      rw [become_underWay, if_neg same]
    refine ⟨still.symm ▸ room.few, room.within, fun open_ => ?_⟩
    rw [still]
    exact room.ahead open_

theorem Roomy.record (room : Roomy limit window width key start s) {other : K}
    (going : 0 < s.underWay other) : Roomy limit window width key start (s.record other) := by
  have less : (s.record other).underWay key ≤ s.underWay key := become_le (Nat.sub_le _ _)
  by_cases counted : other = key ∧ start ≤ s.now ∧ s.now ≤ start + window
  · obtain ⟨rfl, inside⟩ := counted
    have one := record_between_le s other other start (start + window)
    have before := room.ahead inside.2
    have now : (s.record other).underWay other = s.underWay other - 1 := become_self _ _ _
    exact ⟨le_trans less room.few, by omega, fun _ => by omega⟩
  · have same := record_between counted
    refine ⟨le_trans less room.few, le_of_eq_of_le same room.within, fun open_ => ?_⟩
    rw [same]
    exact le_trans (Nat.add_le_add_left less _) (room.ahead open_)

theorem Roomy.step {action : Action K} (room : Roomy limit window width key start s)
    (guard : crowd width s action) (enabled : step limit window s action = some t) :
    Roomy limit window width key start t := by
  cases action with
  | tick elapsed =>
    cases enabled
    refine ⟨room.few, room.within, fun open_ => room.ahead (le_trans ?_ open_)⟩
    exact Int.le_add_of_nonneg_right (Int.natCast_nonneg elapsed)
  | accept other =>
    obtain ⟨admitted, rfl⟩ := Replay.guarded_eq_some.mp enabled
    exact room.accept admitted guard
  | record other =>
    obtain ⟨going, rfl⟩ := Replay.guarded_eq_some.mp enabled
    exact room.record going
  | withdraw other =>
    obtain ⟨going, rfl⟩ := Replay.guarded_eq_some.mp enabled
    exact room.become (Nat.sub_le _ _)

theorem between_le {acts : List (Action K)}
    (ran : Replay.run (step limit window) State.start acts = some s)
    (crowded : Replay.Obeys (step limit window) (crowd width) State.start acts) (key : K)
    (start : Int) : s.between key start (start + window) ≤ limit - 1 + width := by
  have first : Roomy limit window width key start (State.start : State K) :=
    ⟨Nat.zero_le _, Nat.zero_le _, fun _ => Nat.zero_le _⟩
  exact (Replay.run_invariant (fun _ _ _ room => room.step) first crowded ran).within

end Bound

end Limiter
