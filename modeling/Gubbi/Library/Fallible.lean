import Mathlib.Data.List.Basic

/-!
# Fallible computations

A sequence or a list of computations that may fail stops at its first error; it
succeeds exactly when every one of them does.
-/

namespace Fallible

universe u v w
variable {A : Type u} {B : Type v} {ε : Type w} {f : A → Except ε B}

theorem bind_eq_ok {C : Type v} {x : Except ε C} {next : C → Except ε B} {b : B} :
    (x >>= next) = .ok b ↔ ∃ c, x = .ok c ∧ next c = .ok b := by
  cases x with
  | error e => simp [bind, Except.bind]
  | ok c => simp [bind, Except.bind]

theorem bind_eq_error {C : Type v} {x : Except ε C} {next : C → Except ε B} {e : ε} :
    (x >>= next) = .error e ↔ x = .error e ∨ ∃ c, x = .ok c ∧ next c = .error e := by
  cases x with
  | error e => simp [bind, Except.bind]
  | ok c => simp [bind, Except.bind]

theorem isOk_iff {x : Except ε B} : x.isOk = true ↔ ∃ b, x = .ok b := by
  cases x with
  | error e => simp [Except.isOk, Except.toBool]
  | ok b => simp [Except.isOk, Except.toBool]

theorem toOption_eq_some {x : Except ε B} {b : B} : x.toOption = some b ↔ x = .ok b := by
  cases x with
  | error e => simp [Except.toOption]
  | ok value => simp [Except.toOption]

theorem map_eq_ok {C : Type v} {g : C → B} {x : Except ε C} {b : B} :
    x.map g = .ok b ↔ ∃ c, x = .ok c ∧ g c = b := by
  cases x with
  | error e => simp [Except.map]
  | ok c => simp [Except.map]

theorem map_eq_error {C : Type v} {g : C → B} {x : Except ε C} {e : ε} :
    x.map g = .error e ↔ x = .error e := by
  cases x with
  | error e => simp [Except.map]
  | ok c => simp [Except.map]

@[simp] theorem mapError_eq_ok {ε' : Type w} {g : ε → ε'} {x : Except ε B} {b : B} :
    x.mapError g = .ok b ↔ x = .ok b := by
  cases x with
  | error e => simp [Except.mapError]
  | ok c => simp [Except.mapError]

/-- A check in front of the rest. -/
theorem guard_eq_ok {x : Except ε B} {c : Prop} [Decidable c] {e : ε} {b : B} :
    (if c then .error e else x) = .ok b ↔ ¬ c ∧ x = .ok b := by
  by_cases h : c
  · simp [h]
  · simp [h]

theorem mapM_nil_eq_ok {bs : List B} : ([] : List A).mapM f = .ok bs ↔ bs = [] := by
  simp [pure, Except.pure, eq_comm]

theorem mapM_cons_eq_ok {a : A} {rest : List A} {bs : List B} :
    (a :: rest).mapM f = .ok bs ↔
      ∃ b tail, f a = .ok b ∧ rest.mapM f = .ok tail ∧ bs = b :: tail := by
  rw [List.mapM_cons]
  cases first : f a with
  | error e => simp [bind, Except.bind]
  | ok b =>
    cases others : rest.mapM f with
    | error e => simp [bind, Except.bind]
    | ok tail => simp [bind, Except.bind, pure, Except.pure, eq_comm]

/-- The elements of an append are tried in turn. -/
theorem mapM_append (first rest : List A) :
    (first ++ rest).mapM f =
      match first.mapM f with
      | .error e => .error e
      | .ok left => (rest.mapM f).map (fun right => left ++ right) := by
  rw [List.mapM_append]
  cases first.mapM f with
  | error e => rfl
  | ok left =>
    cases rest.mapM f with
    | error e => rfl
    | ok right => rfl

theorem length_of_mapM {as : List A} {bs : List B} (h : as.mapM f = .ok bs) :
    bs.length = as.length := by
  induction as generalizing bs with
  | nil =>
    rw [mapM_nil_eq_ok] at h
    rw [h, List.length_nil, List.length_nil]
  | cons a rest ih =>
    rw [mapM_cons_eq_ok] at h
    obtain ⟨b, tail, _, htail, rfl⟩ := h
    rw [List.length_cons, List.length_cons, ih htail]

theorem exists_of_mem_mapM {as : List A} {bs : List B} (h : as.mapM f = .ok bs) {b : B}
    (mem : b ∈ bs) : ∃ a ∈ as, f a = .ok b := by
  induction as generalizing bs with
  | nil =>
    rw [mapM_nil_eq_ok] at h
    rw [h] at mem
    exact absurd mem List.not_mem_nil
  | cons a rest ih =>
    rw [mapM_cons_eq_ok] at h
    obtain ⟨first, tail, hfirst, htail, rfl⟩ := h
    rcases List.mem_cons.mp mem with rfl | mem
    · exact ⟨a, List.mem_cons_self, hfirst⟩
    · obtain ⟨a', mem', ha'⟩ := ih htail mem
      exact ⟨a', List.mem_cons_of_mem a mem', ha'⟩

theorem getElem?_of_mapM {as : List A} {bs : List B} (h : as.mapM f = .ok bs) {i : Nat} {b : B}
    (found : bs[i]? = some b) : ∃ a, as[i]? = some a ∧ f a = .ok b := by
  induction as generalizing bs i with
  | nil =>
    rw [mapM_nil_eq_ok] at h
    rw [h] at found
    cases found
  | cons a rest ih =>
    rw [mapM_cons_eq_ok] at h
    obtain ⟨first, tail, hfirst, htail, rfl⟩ := h
    cases i with
    | zero =>
      cases found
      exact ⟨a, rfl, hfirst⟩
    | succ i => exact ih htail found

theorem ok_of_mem_mapM {as : List A} {bs : List B} (h : as.mapM f = .ok bs) {a : A}
    (mem : a ∈ as) : ∃ b, f a = .ok b := by
  induction as generalizing bs with
  | nil => exact absurd mem List.not_mem_nil
  | cons first rest ih =>
    rw [mapM_cons_eq_ok] at h
    obtain ⟨b, tail, hb, htail, _⟩ := h
    rcases List.mem_cons.mp mem with rfl | mem
    · exact ⟨b, hb⟩
    · exact ih htail mem

theorem mapM_isOk {as : List A} : (∃ bs, as.mapM f = .ok bs) ↔ ∀ a ∈ as, ∃ b, f a = .ok b := by
  constructor
  · rintro ⟨bs, h⟩ a mem
    exact ok_of_mem_mapM h mem
  · intro all
    induction as with
    | nil => exact ⟨[], rfl⟩
    | cons a rest ih =>
      rw [List.forall_mem_cons] at all
      obtain ⟨b, hb⟩ := all.1
      obtain ⟨tail, htail⟩ := ih all.2
      refine ⟨b :: tail, ?_⟩
      rw [mapM_cons_eq_ok]
      exact ⟨b, tail, hb, htail, rfl⟩

/-- What a computation keeps of each element it keeps of the list. -/
theorem map_of_mapM {C : Type v} {left : A → C} {right : B → C}
    (keeps : ∀ a b, f a = .ok b → right b = left a) {as : List A} {bs : List B}
    (h : as.mapM f = .ok bs) : bs.map right = as.map left := by
  induction as generalizing bs with
  | nil =>
    rw [mapM_nil_eq_ok] at h
    rw [h, List.map_nil, List.map_nil]
  | cons a rest ih =>
    rw [mapM_cons_eq_ok] at h
    obtain ⟨b, tail, hb, htail, rfl⟩ := h
    rw [List.map_cons, List.map_cons, ih htail, keeps a b hb]

section Chain
variable {H : Type u} {handle : H → Except ε (Option B)} {passes breaks : H → Prop}
  {good : ε → Prop}

/-- Ask handlers in turn, up to the first one that answers or fails. -/
def firstAnswer (handle : H → Except ε (Option B)) : List H → Except ε (Option B)
  | [] => .ok none
  | h :: rest =>
    match handle h with
    | .error e => .error e
    | .ok (some answer) => .ok (some answer)
    | .ok none => firstAnswer handle rest

/-- No handler breaks that comes after handlers which pass. -/
def Orderly (passes breaks : H → Prop) : List H → Prop
  | [] => True
  | h :: rest => ¬ breaks h ∧ (passes h → Orderly passes breaks rest)

theorem firstAnswer_cons_some {h : H} {hs : List H} {b : B} :
    firstAnswer handle (h :: hs) = .ok (some b) ↔
      handle h = .ok (some b) ∨ handle h = .ok none ∧ firstAnswer handle hs = .ok (some b) := by
  rw [firstAnswer]
  cases handled : handle h with
  | error e => simp
  | ok answer => cases answer <;> simp

theorem firstAnswer_singleton {h : H} {b : B} :
    firstAnswer handle [h] = .ok (some b) ↔ handle h = .ok (some b) := by
  rw [firstAnswer_cons_some, or_iff_left]
  rintro ⟨_, nobody⟩
  cases nobody

theorem exists_of_firstAnswer_error {hs : List H} {e : ε}
    (failed : firstAnswer handle hs = .error e) : ∃ h ∈ hs, handle h = .error e := by
  induction hs with
  | nil => cases failed
  | cons h rest ih =>
    rw [firstAnswer] at failed
    split at failed
    · next first =>
      cases failed
      exact ⟨h, List.mem_cons_self, first⟩
    · cases failed
    · obtain ⟨later, mem, first⟩ := ih failed
      exact ⟨later, List.mem_cons_of_mem h mem, first⟩

/-- An error of the chain is one of a handler that all before it pass on to. -/
theorem firstAnswer_good_iff (passes_iff : ∀ h, passes h ↔ handle h = .ok none)
    (breaks_iff : ∀ h, breaks h ↔ ∃ e, handle h = .error e ∧ ¬ good e) (hs : List H) :
    (∀ e, firstAnswer handle hs = .error e → good e) ↔ Orderly passes breaks hs := by
  induction hs with
  | nil => simp [firstAnswer, Orderly]
  | cons h rest ih =>
    rw [firstAnswer, Orderly, passes_iff, breaks_iff]
    cases handled : handle h with
    | error e => simp
    | ok answer =>
      cases answer with
      | some answer => simp
      | none => simp [ih]

end Chain

/-- None of these errors comes out of a computation. -/
def Avoids (errors : ε → Prop) (x : Except ε B) : Prop := ∀ e, x = .error e → ¬ errors e

section Avoids
variable {errors : ε → Prop} {C : Type v} {x : Except ε C}

theorem avoids_ok {b : B} : Avoids errors (.ok b) := by
  intro e h
  cases h

theorem avoids_error {e : ε} (other : ¬ errors e) : Avoids errors (.error e : Except ε B) := by
  intro e' h
  cases h
  exact other

theorem avoids_bind {next : C → Except ε B} (hx : Avoids errors x)
    (hnext : ∀ c, x = .ok c → Avoids errors (next c)) : Avoids errors (x >>= next) := by
  intro e h
  rw [bind_eq_error] at h
  rcases h with failed | ⟨c, hc, failed⟩
  · exact hx e failed
  · exact hnext c hc e failed

theorem avoids_mapError {ε' : Type w} {y : Except ε' B} {g : ε' → ε}
    (other : ∀ e, ¬ errors (g e)) : Avoids errors (y.mapError g) := by
  cases y with
  | error e => exact avoids_error (other e)
  | ok b => exact avoids_ok

theorem avoids_mapM {as : List A} (each : ∀ a ∈ as, Avoids errors (f a)) :
    Avoids errors (as.mapM f) := by
  induction as with
  | nil => exact avoids_ok
  | cons a rest ih =>
    rw [List.forall_mem_cons] at each
    rw [List.mapM_cons]
    refine avoids_bind each.1 fun b _ => ?_
    exact avoids_bind (ih each.2) fun tail _ => avoids_ok

end Avoids

end Fallible
