import Gubbi.Library.Connections
import Mathlib.Order.Defs.Unbundled

/-!
# Sessions that call out

The state of a session is the local variables of a program and what it has sent so far. A call
that leaves the program comes back with an outcome that the program has no part in.
-/

namespace Effects

open Transactions Connections

variable {S ε A B : Type}

/-- A call out. -/
def await (outcome : Except ε A) : Session S ε A := fun s => (outcome, s)

def assign (f : S → S) : Session S ε Unit := fun s => (.ok (), f s)

/-- What the end of a block raises takes the place of what the block did. -/
def closing (exit : Except ε Unit) (result : Except ε A) : Except ε A :=
  match exit with
  | .ok () => result
  | .error e => .error e

/-- `async with ...`; `exit` is the outcome of its `__aexit__`. -/
def asyncWith (exit : Except ε Unit) (x : Session S ε A) : Session S ε A := fun s =>
  (closing exit (x s).1, (x s).2)

section Equations
variable {s : S} {a : A} {e : ε} {next : A → Session S ε B}

@[simp] theorem await_ok_bind : (await (.ok a) >>= next) s = next a s := bind_of_ok rfl

@[simp] theorem await_error_bind :
    (await (.error e) >>= next) s = (.error e, s) := bind_error rfl

@[simp] theorem assign_bind {f : S → S} {rest : Unit → Session S ε B} :
    (assign f >>= rest) s = rest () (f s) := bind_of_ok rfl

@[simp] theorem pure_apply : (pure a : Session S ε A) s = (.ok a, s) := rfl

@[simp] theorem await_apply {outcome : Except ε A} :
    (await outcome : Session S ε A) s = (outcome, s) := rfl

theorem asyncWith_apply {exit : Except ε Unit} {x : Session S ε A} :
    asyncWith exit x s = (closing exit (x s).1, (x s).2) := rfl

theorem closing_eq_ok {exit : Except ε Unit} {result : Except ε A} :
    closing exit result = .ok a ↔ exit = .ok () ∧ result = .ok a := by
  cases exit with
  | ok _ => exact (and_iff_right rfl).symm
  | error e => exact iff_of_false (fun h => by cases h) (fun h => by cases h.1)

end Equations

/-- The state moves within `R`, whether the session returns or raises. -/
def Within (R : S → S → Prop) (x : Session S ε A) : Prop := ∀ s, R s (x s).2

section Within
variable {R : S → S → Prop} [Std.Refl R]

theorem Within.pure (a : A) : Within R (pure a : Session S ε A) := Std.Refl.refl

theorem Within.await (outcome : Except ε A) : Within R (await outcome : Session S ε A) :=
  Std.Refl.refl

theorem Within.fail (e : ε) : Within R (fail e : Session S ε A) := Std.Refl.refl

theorem Within.query (f : S → A) : Within R (query f : Session S ε A) := Std.Refl.refl

end Within

section Rules
variable {R : S → S → Prop} [IsTrans S R]

theorem Within.bind {x : Session S ε A} {next : A → Session S ε B} (first : Within R x)
    (rest : ∀ a, Within R (next a)) : Within R (x >>= next) := by
  intro s
  cases returned : x s with
  | mk result after =>
    have moved : R s after := by
      have := first s
      rwa [returned] at this
    cases result with
    | ok a =>
      rw [bind_of_ok returned]
      exact trans_of R moved (rest a after)
    | error e =>
      rw [bind_error returned]
      exact moved

theorem Within.rescue {x : Session S ε A} {handler : ε → Session S ε A} (body : Within R x)
    (handles : ∀ e, Within R (handler e)) : Within R (rescue x handler) := by
  intro s
  cases returned : x s with
  | mk result after =>
    have moved : R s after := by
      have := body s
      rwa [returned] at this
    cases result with
    | ok a =>
      rw [rescue_of_ok returned]
      exact moved
    | error e =>
      rw [rescue_error returned]
      exact trans_of R moved (handles e after)

end Rules

theorem Within.asyncWith {R : S → S → Prop} {x : Session S ε A} (body : Within R x)
    (exit : Except ε Unit) : Within R (asyncWith exit x) := body

theorem Within.assign {R : S → S → Prop} {f : S → S} (moves : ∀ s, R s (f s)) :
    Within R (assign f : Session S ε Unit) := moves

end Effects
