import Mathlib.Data.List.Basic

/-!
# Sweeps

A sweep tries the elements of a queue page by page. It goes on behind the last element
that succeeded, so that the failures behind that one are tried again, and it stops at a
page without a success.
-/

namespace Sweep

universe u
variable {A : Type u} {n : Nat} {good : A → Prop}

/-- The sweeps of a queue with the elements that they pass successfully. -/
inductive Sweeps (n : Nat) (good : A → Prop) : List A → List A → Prop
  | stops {todo : List A} (failing : ∀ x ∈ todo.take n, ¬ good x) : Sweeps n good todo []
  | passes {before passed after later : List A} {last : A} (within : before.length < n)
      (succeeded : good last) (same : ∀ x, x ∈ passed ↔ x ∈ before ∧ good x)
      (rest : Sweeps n good after later) :
      Sweeps n good (before ++ last :: after) (passed ++ last :: later)

/-- A page of failures in a row lies before the element. -/
def Blocked (n : Nat) (good : A → Prop) (todo : List A) (x : A) : Prop :=
  ∃ before page after, todo = before ++ page ++ after ∧ page.length = n ∧
    (∀ y ∈ page, ¬ good y) ∧ x ∈ after

theorem Blocked.mem {todo : List A} {x : A} (blocked : Blocked n good todo x) : x ∈ todo := by
  obtain ⟨before, page, after, rfl, _, _, mem⟩ := blocked
  exact List.mem_append_right _ mem

/-- A page of failures does not reach over a success that lies less than a page from
the start. -/
theorem blocked_after {before after : List A} {last x : A} (within : before.length < n)
    (succeeded : good last) :
    Blocked n good (before ++ last :: after) x ↔ Blocked n good after x := by
  constructor
  · rintro ⟨front, page, back, same, full, failing, mem⟩
    have apart : last ∉ page := fun inPage => failing last inPage succeeded
    rw [List.append_assoc] at same
    rcases List.append_eq_append_iff.mp same with ⟨gap, rfl, tail⟩ | ⟨gap, rfl, tail⟩
    · cases gap with
      | nil =>
        -- the page would begin with the success
        cases page with
        | nil => exact absurd full (by rw [List.length_nil]; omega)
        | cons first page =>
          obtain ⟨rfl, _⟩ := List.cons.inj tail
          exact absurd List.mem_cons_self apart
      | cons first gap =>
        obtain ⟨rfl, rfl⟩ := List.cons.inj tail
        exact ⟨gap, page, back, (List.append_assoc _ _ _).symm, full, failing, mem⟩
    · rcases List.append_eq_append_iff.mp tail with ⟨more, rfl, _⟩ | ⟨more, rfl, later⟩
      · simp only [List.length_append] at within full
        omega
      · cases more with
        | nil =>
          simp only [List.length_append, List.length_nil] at within full
          omega
        | cons first more =>
          obtain ⟨rfl, _⟩ := List.cons.inj later
          exact absurd (List.mem_append_right _ List.mem_cons_self) apart
  · rintro ⟨front, page, back, rfl, full, failing, mem⟩
    exact ⟨before ++ last :: front, page, back, by simp only [List.append_assoc, List.cons_append],
      full, failing, mem⟩

/-- A sweep passes the good elements but those behind a page of failures in a row. -/
theorem Sweeps.mem_iff {todo passed : List A} (sweep : Sweeps n good todo passed)
    (unique : todo.Nodup) {x : A} (fine : good x) :
    x ∈ passed ↔ x ∈ todo ∧ ¬ Blocked n good todo x := by
  induction sweep with
  | @stops todo failing =>
    refine iff_of_false List.not_mem_nil ?_
    rintro ⟨mem, free⟩
    refine free ⟨[], todo.take n, todo.drop n, (List.take_append_drop n todo).symm, ?_, failing, ?_⟩
    · refine List.length_take_of_le (Nat.le_of_not_lt fun short => ?_)
      rw [List.take_of_length_le (Nat.le_of_lt short)] at failing
      exact failing x mem fine
    · rw [← List.take_append_drop n todo] at mem
      exact (List.mem_append.mp mem).resolve_left fun inPage => failing x inPage fine
  | @passes before passed after later last within succeeded same rest ih =>
    obtain ⟨_, uniqueRest, apart⟩ := List.nodup_append.mp unique
    rw [blocked_after within succeeded, List.mem_append, List.mem_append, List.mem_cons,
      List.mem_cons, ih (List.nodup_cons.mp uniqueRest).2, same]
    constructor
    · rintro (⟨inBefore, _⟩ | rfl | ⟨inAfter, free⟩)
      · refine ⟨Or.inl inBefore, fun blocked => ?_⟩
        exact apart x inBefore x (List.mem_cons_of_mem _ blocked.mem) rfl
      · exact ⟨Or.inr (Or.inl rfl), fun blocked => (List.nodup_cons.mp uniqueRest).1 blocked.mem⟩
      · exact ⟨Or.inr (Or.inr inAfter), free⟩
    · rintro ⟨inBefore | rfl | inAfter, free⟩
      · exact Or.inl ⟨inBefore, fine⟩
      · exact Or.inr (Or.inl rfl)
      · exact Or.inr (Or.inr ⟨inAfter, free⟩)

end Sweep
