import Gubbi.Library.Effects

/-!
# Resources of a program

What a program has open is held or loose. A resource is held when a variable has it that the
cleanup of the program looks at. It is loose when a helper has opened it that has not returned:
a helper that raises leaves it behind.
-/

namespace Resources

open Transactions Connections Effects

variable {R S ε A B : Type}

structure Desk (R : Type) where
  held : List R
  loose : List R

def Desk.empty : Desk R := ⟨[], []⟩

def Desk.opened (desk : Desk R) : List R := desk.held ++ desk.loose

/-- Open a resource into a variable. -/
def acquire (r : R) (outcome : Except ε A) : Session (Desk R) ε A := fun desk =>
  match outcome with
  | .ok a => (.ok a, { desk with held := r :: desk.held })
  | .error e => (.error e, desk)

/-- Open a resource inside a helper. -/
def openLoose (r : R) (outcome : Except ε A) : Session (Desk R) ε A := fun desk =>
  match outcome with
  | .ok a => (.ok a, { desk with loose := r :: desk.loose })
  | .error e => (.error e, desk)

/-- A helper hands over what it has opened when it returns. -/
def helper (x : Session (Desk R) ε A) : Session (Desk R) ε A := do
  let a ← x
  assign fun desk => ⟨desk.loose ++ desk.held, []⟩
  pure a

/-- Close the resource of a variable; what the call raises is suppressed. -/
def release [DecidableEq R] (r : R) : Session (Desk R) ε Unit :=
  assign fun desk => { desk with held := desk.held.filter (· ≠ r) }

/-- Close the resource of a variable; what the call raises comes out. -/
def closeHeld [DecidableEq R] (r : R) (outcome : Except ε Unit) : Session (Desk R) ε Unit :=
  fun desk =>
    if r ∈ desk.held then (outcome, { desk with held := desk.held.filter (· ≠ r) })
    else (.ok (), desk)

/-- `if ...: ...` -/
def onlyIf (c : Prop) [Decidable c] (x : Session S ε Unit) : Session S ε Unit :=
  if c then x else pure ()

/-- `try: ... finally: ...` -/
def ensuring (body : Session S ε A) (cleanup : Session S ε Unit) : Session S ε A := fun s =>
  match cleanup (body s).2 with
  | (.ok (), after) => ((body s).1, after)
  | (.error e, after) => (.error e, after)

theorem onlyIf_true {c : Prop} [Decidable c] {x : Session S ε Unit} (holds : c) :
    onlyIf c x = x := if_pos holds

theorem onlyIf_false {c : Prop} [Decidable c] {x : Session S ε Unit} (fails : ¬ c) :
    onlyIf c x = pure () := if_neg fails

theorem ensuring_ok {body : Session S ε A} {cleanup : Session S ε Unit} {s after : S}
    (closed : cleanup (body s).2 = (.ok (), after)) :
    ensuring body cleanup s = ((body s).1, after) := by
  rw [ensuring, closed]

theorem ensuring_error {body : Session S ε A} {cleanup : Session S ε Unit} {s after : S} {e : ε}
    (raised : cleanup (body s).2 = (.error e, after)) :
    ensuring body cleanup s = (.error e, after) := by
  rw [ensuring, raised]

theorem Within.onlyIf {Rel : S → S → Prop} [Std.Refl Rel] {c : Prop} [Decidable c]
    {x : Session S ε Unit} (body : Within Rel x) : Within Rel (onlyIf c x) := by
  by_cases holds : c
  · rw [onlyIf_true holds]
    exact body
  · rw [onlyIf_false holds]
    exact Within.pure ()

section Returning
variable {desk : Desk R} {r : R} {outcome : Except ε A} {a : A}

theorem bind_fst_ok {x : Session S ε A} {next : A → Session S ε B} {s : S} {b : B} :
    ((x >>= next) s).1 = .ok b ↔ ∃ a, (x s).1 = .ok a ∧ (next a (x s).2).1 = .ok b := by
  cases returned : x s with
  | mk result after =>
    cases result with
    | error e =>
      rw [bind_error returned]
      simp
    | ok a =>
      rw [bind_of_ok returned]
      simp

/-- A statement in front of the rest. -/
theorem then_fst_ok {x : Session S ε Unit} {next : Session S ε B} {s : S} {b : B} :
    ((x >>= fun _ => next) s).1 = .ok b ↔ (x s).1 = .ok () ∧ (next (x s).2).1 = .ok b := by
  rw [bind_fst_ok]
  exact ⟨fun ⟨(), first, rest⟩ => ⟨first, rest⟩, fun ⟨first, rest⟩ => ⟨(), first, rest⟩⟩

@[simp] theorem await_fst {s : S} : (await outcome s).1 = outcome := rfl

@[simp] theorem acquire_fst : (acquire r outcome desk).1 = outcome := by
  cases outcome <;> rfl

@[simp] theorem openLoose_fst : (openLoose r outcome desk).1 = outcome := by
  cases outcome <;> rfl

@[simp] theorem onlyIf_fst {c : Prop} [Decidable c] {x : Session S ε Unit} {s : S} :
    (onlyIf c x s).1 = .ok () ↔ (c → (x s).1 = .ok ()) := by
  by_cases holds : c
  · rw [onlyIf_true holds]
    exact ⟨fun ran _ => ran, fun ran => ran holds⟩
  · rw [onlyIf_false holds]
    exact iff_of_true rfl fun run => absurd run holds

@[simp] theorem helper_fst {x : Session (Desk R) ε A} : (helper x desk).1 = (x desk).1 := by
  cases returned : x desk with
  | mk result after =>
    cases result with
    | error e => rw [helper, bind_error returned]
    | ok a =>
      rw [helper, bind_of_ok returned]
      rfl

end Returning

/-- Variables keep what they have, and nothing is left loose; `special` is not opened. -/
structure Tidy (special : R) (before after : Desk R) : Prop where
  loose : after.loose = before.loose
  held : ∀ r ∈ before.held, r ∈ after.held
  special : special ∈ after.held → special ∈ before.held

/-- Nothing goes loose. -/
def SameLoose (before after : Desk R) : Prop := after.loose = before.loose

instance : Std.Refl (@SameLoose R) := ⟨fun _ => rfl⟩

instance : IsTrans (Desk R) SameLoose := ⟨fun _ _ _ first second => second.trans first⟩

theorem SameLoose.acquire (r : R) (outcome : Except ε A) :
    Within SameLoose (acquire r outcome) := by
  intro desk
  cases outcome <;> rfl

section Tidy
variable {special r : R}

instance : Std.Refl (Tidy special) := ⟨fun _ => ⟨rfl, fun _ mem => mem, id⟩⟩

instance : IsTrans (Desk R) (Tidy special) :=
  ⟨fun _ _ _ first second => ⟨second.loose.trans first.loose,
    fun r mem => second.held r (first.held r mem), fun mem => first.special (second.special mem)⟩⟩

theorem Tidy.acquire (other : r ≠ special) (outcome : Except ε A) :
    Within (Tidy special) (acquire r outcome) := by
  intro desk
  cases outcome with
  | error e => exact Std.Refl.refl desk
  | ok a =>
    refine ⟨rfl, fun r mem => List.mem_cons_of_mem _ mem, fun mem => ?_⟩
    exact (List.mem_cons.mp mem).resolve_left (Ne.symm other)

end Tidy

section Closing
variable [DecidableEq R] {r : R} {outcome : Except ε Unit} {desk : Desk R}

theorem closeHeld_snd :
    (closeHeld r outcome desk).2 = { desk with held := desk.held.filter (· ≠ r) } := by
  unfold closeHeld
  split
  · rfl
  · next missing =>
    have whole : desk.held.filter (· ≠ r) = desk.held :=
      List.filter_eq_self.mpr fun s mem => decide_eq_true fun same => missing (same ▸ mem)
    rw [whole]

theorem closeHeld_ok (closed : outcome = .ok ()) :
    closeHeld r outcome desk = (.ok (), { desk with held := desk.held.filter (· ≠ r) }) := by
  refine Prod.ext ?_ closeHeld_snd
  rw [closeHeld, closed]
  split <;> rfl

theorem closeHeld_error {e : ε} (held : r ∈ desk.held) (raised : outcome = .error e) :
    closeHeld r outcome desk = (.error e, { desk with held := desk.held.filter (· ≠ r) }) := by
  rw [closeHeld, if_pos held, raised]

end Closing

section Helpers
variable {x : Session (Desk R) ε A} {desk : Desk R}

theorem helper_ok {a : A} {after : Desk R} (returned : x desk = (.ok a, after)) :
    helper x desk = (.ok a, ⟨after.loose ++ after.held, []⟩) := by
  rw [helper, bind_of_ok returned]
  rfl

theorem helper_error {e : ε} {after : Desk R} (raised : x desk = (.error e, after)) :
    helper x desk = (.error e, after) := by
  rw [helper, bind_error raised]

end Helpers

end Resources
