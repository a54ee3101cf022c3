import Mathlib.Logic.Basic

/-!
# Transactions

A session runs statements one after the other. A statement that fails has no effect,
but what earlier ones wrote is there until the transaction around them is rolled back.
-/

namespace Transactions

/-- A computation on a store that may fail half way. -/
def Session (S ε A : Type) : Type := S → Except ε A × S

variable {S ε A B : Type}

instance : Monad (Session S ε) where
  pure a := fun s => (.ok a, s)
  bind x next := fun s =>
    match x s with
    | (.ok a, s') => next a s'
    | (.error e, s') => (.error e, s')

/-- A query. -/
def query (f : S → A) : Session S ε A := fun s => (.ok (f s), s)

/-- A statement that fails as a whole or writes as a whole. -/
def statement (f : S → Except ε (A × S)) : Session S ε A := fun s =>
  match f s with
  | .ok (a, s') => (.ok a, s')
  | .error e => (.error e, s)

def fail (e : ε) : Session S ε A := fun s => (.error e, s)

/-- `raise ... from exc`. -/
def mapError (f : ε → ε) (x : Session S ε A) : Session S ε A := fun s =>
  match x s with
  | (.ok a, s') => (.ok a, s')
  | (.error e, s') => (.error (f e), s')

/-- `async with conn.transaction()`: an error restores the store. -/
def transaction (x : Session S ε A) : Session S ε A := fun s =>
  match x s with
  | (.ok a, s') => (.ok a, s')
  | (.error e, _) => (.error e, s)

section Success
variable {s s' : S} {a : A} {b : B} {e : ε}

theorem bind_ok {x : Session S ε A} {next : A → Session S ε B} :
    (x >>= next) s = (.ok b, s') ↔
      ∃ a middle, x s = (.ok a, middle) ∧ next a middle = (.ok b, s') := by
  show (match x s with
    | (.ok a, s') => next a s'
    | (.error e, s') => (.error e, s')) = (.ok b, s') ↔ _
  cases h : x s with
  | mk result middle =>
    cases result with
    | error e => simp
    | ok a =>
      constructor
      · exact fun rest => ⟨a, middle, rfl, rest⟩
      · rintro ⟨_, _, same, rest⟩
        cases same
        exact rest

@[simp] theorem pure_ok {result : A} :
    (pure a : Session S ε A) s = (.ok result, s') ↔ a = result ∧ s = s' := by
  show ((.ok a, s) : Except ε A × S) = (.ok result, s') ↔ _
  simp

@[simp] theorem query_ok {f : S → A} {a : A} :
    (query f : Session S ε A) s = (.ok a, s') ↔ f s = a ∧ s = s' := by
  simp [query]

@[simp] theorem fail_ok : (fail e : Session S ε A) s ≠ (.ok a, s') := by
  simp [fail]

theorem statement_ok {f : S → Except ε (A × S)} :
    statement f s = (.ok a, s') ↔ f s = .ok (a, s') := by
  unfold statement
  cases f s with
  | error e => simp
  | ok written => simp [Prod.ext_iff]

@[simp] theorem mapError_ok {f : ε → ε} {x : Session S ε A} :
    mapError f x s = (.ok a, s') ↔ x s = (.ok a, s') := by
  unfold mapError
  cases h : x s with
  | mk result after =>
    cases result with
    | error e => simp
    | ok a => simp

end Success

/-- A transaction commits what its session has done, or the store is as it was. -/
theorem transaction_snd (x : Session S ε A) (s : S) :
    (∃ a, x s = (.ok a, (transaction x s).2)) ∨ (transaction x s).2 = s := by
  unfold transaction
  cases h : x s with
  | mk result after =>
    cases result with
    | error e => exact Or.inr rfl
    | ok a => exact Or.inl ⟨a, rfl⟩

/-- A transaction that fails leaves the store as it was; one that commits meets `post`. -/
def AllOrNothing (x : Session S ε A) (s : S) (post : A → S → Prop) : Prop :=
  match transaction x s with
  | (.error _, s') => s' = s
  | (.ok a, s') => post a s'

theorem allOrNothing_of_ok {x : Session S ε A} {s : S} {post : A → S → Prop}
    (committed : ∀ a s', x s = (.ok a, s') → post a s') : AllOrNothing x s post := by
  unfold AllOrNothing transaction
  cases h : x s with
  | mk result after =>
    cases result with
    | error e => rfl
    | ok a => exact committed a after h

end Transactions
