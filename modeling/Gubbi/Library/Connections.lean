import Gubbi.Library.Transactions

/-!
# Connections and their transactions

Outside a transaction a statement commits by itself. Inside one, a statement that
fails makes the connection refuse every other one until the transaction, or the
savepoint that the statement ran under, is rolled back. What the program does with
the error makes no difference to that.

A triple speaks of all runs of a session, of those that end in an error too: they
keep the invariant of a discipline and change the store within its relation. The
postcondition is owed by the runs that return.
-/

namespace Connections

open Transactions

/-- The state of a connection as its server reports it. -/
inductive Status
  | idle
  | inTransaction
  | inError
  deriving DecidableEq, Repr

/-- `settings` is what `SET LOCAL` writes; it lasts until the transaction ends. -/
structure Conn (S G : Type) where
  store : S
  settings : G
  status : Status

variable {S G ε A B : Type}

def Status.afterFailure : Status → Status
  | .idle => .idle
  | .inTransaction => .inError
  | .inError => .inError

/-- One statement; it fails as a whole or writes as a whole. -/
def execute (refused : ε) (f : G → S → Except ε (A × S)) : Session (Conn S G) ε A := fun c =>
  if c.status = .inError then (.error refused, c)
  else
    match f c.settings c.store with
    | .ok (a, s) => (.ok a, { c with store := s })
    | .error e => (.error e, { c with status := c.status.afterFailure })

/-- `set_config(..., true)`; without a transaction it lasts for one statement. -/
def setLocal (refused : ε) (f : G → G) : Session (Conn S G) ε Unit := fun c =>
  match c.status with
  | .idle => (.ok (), c)
  | .inTransaction => (.ok (), { c with settings := f c.settings })
  | .inError => (.error refused, c)

/-- `try: ... except ...`; a handler re-raises what it does not catch. -/
def rescue (x : Session S ε A) (handler : ε → Session S ε A) : Session S ε A := fun s =>
  match x s with
  | (.ok a, s') => (.ok a, s')
  | (.error e, s') => handler e s'

/-- The end of a block whose body has returned. A commit of a failed transaction is a
rollback that reports no error; a savepoint cannot be released in a failed one. -/
def leave (refused : ε) (before : Conn S G) (a : A) (after : Conn S G) :
    Except ε A × Conn S G :=
  match before.status, after.status with
  | .idle, .inError => (.ok a, before)
  | .idle, _ => (.ok a, { before with store := after.store })
  | _, .inError => (.error refused, after)
  | _, _ => (.ok a, after)

/-- `async with conn.transaction()`: a transaction, or a savepoint inside of one. -/
def withTransaction (refused : ε) (x : Session (Conn S G) ε A) : Session (Conn S G) ε A :=
  fun c =>
    if c.status = .inError then (.error refused, c)
    else
      match x { c with status := .inTransaction } with
      | (.error e, _) => (.error e, c)
      | (.ok a, after) => leave refused c a after

/-- The session starts with a statement, so a failed transaction refuses it. -/
def Refuses (x : Session (Conn S G) ε A) : Prop :=
  ∀ c, c.status = .inError → ∃ e, x c = (.error e, c)

section Refusing
variable {refused : ε}

theorem bind_error {x : Session S ε A} {next : A → Session S ε B} {s s' : S} {e : ε}
    (first : x s = (.error e, s')) : (x >>= next) s = (.error e, s') := by
  show (match x s with
    | (.ok a, s') => next a s'
    | (.error e, s') => (.error e, s')) = _
  rw [first]

theorem bind_of_ok {x : Session S ε A} {next : A → Session S ε B} {s s' : S} {a : A}
    (first : x s = (.ok a, s')) : (x >>= next) s = next a s' := by
  show (match x s with
    | (.ok a, s') => next a s'
    | (.error e, s') => (.error e, s')) = _
  rw [first]

theorem rescue_of_ok {x : Session S ε A} {handler : ε → Session S ε A} {s s' : S} {a : A}
    (returned : x s = (.ok a, s')) : rescue x handler s = (.ok a, s') := by
  simp only [rescue, returned]

theorem rescue_error {x : Session S ε A} {handler : ε → Session S ε A} {s s' : S} {e : ε}
    (raised : x s = (.error e, s')) : rescue x handler s = handler e s' := by
  simp only [rescue, raised]

theorem mapError_of_ok {f : ε → ε} {x : Session S ε A} {s s' : S} {a : A}
    (returned : x s = (.ok a, s')) : Transactions.mapError f x s = (.ok a, s') := by
  simp only [Transactions.mapError, returned]

theorem mapError_error {f : ε → ε} {x : Session S ε A} {s s' : S} {e : ε}
    (raised : x s = (.error e, s')) : Transactions.mapError f x s = (.error (f e), s') := by
  simp only [Transactions.mapError, raised]

theorem execute_refused {f : G → S → Except ε (A × S)} {c : Conn S G}
    (failed : c.status = .inError) :
    execute refused f c = (.error refused, c) := if_pos failed

theorem execute_ok {f : G → S → Except ε (A × S)} {c : Conn S G} {a : A} {s : S}
    (running : c.status ≠ .inError) (written : f c.settings c.store = .ok (a, s)) :
    execute refused f c = (.ok a, { c with store := s }) := by
  simp only [execute, if_neg running, written]

theorem execute_error {f : G → S → Except ε (A × S)} {c : Conn S G} {e : ε}
    (running : c.status ≠ .inError) (failed : f c.settings c.store = .error e) :
    execute refused f c = (.error e, { c with status := c.status.afterFailure }) := by
  simp only [execute, if_neg running, failed]

theorem withTransaction_congr {x y : Session (Conn S G) ε A} {c : Conn S G}
    (same : x { c with status := .inTransaction } = y { c with status := .inTransaction }) :
    withTransaction refused x c = withTransaction refused y c := by
  unfold withTransaction
  rw [same]

theorem withTransaction_savepoint {x : Session (Conn S G) ε A} {c c' : Conn S G} {a : A}
    (before : c.status = .inTransaction) (ran : x c = (.ok a, c'))
    (after : c'.status = .inTransaction) : withTransaction refused x c = (.ok a, c') := by
  have running : ¬ c.status = .inError := by simp [before]
  have same : ({ c with status := .inTransaction } : Conn S G) = c := by rw [← before]
  unfold withTransaction
  rw [if_neg running, same, ran]
  simp only [leave, before, after]

theorem withTransaction_commit {x : Session (Conn S G) ε A} {c c' : Conn S G} {a : A}
    (before : c.status = .idle) (ran : x { c with status := .inTransaction } = (.ok a, c'))
    (after : c'.status = .inTransaction) :
    withTransaction refused x c = (.ok a, { c with store := c'.store }) := by
  have running : ¬ c.status = .inError := by simp [before]
  unfold withTransaction
  rw [if_neg running, ran]
  simp only [leave, before, after]

theorem withTransaction_rollback {x : Session (Conn S G) ε A} {c c' : Conn S G} {e : ε}
    (running : c.status ≠ .inError)
    (raised : x { c with status := .inTransaction } = (.error e, c')) :
    withTransaction refused x c = (.error e, c) := by
  simp only [withTransaction, if_neg running, raised]

theorem withTransaction_returned {x : Session (Conn S G) ε A} {c c' : Conn S G} {a : A}
    (idle : c.status = .idle) (h : withTransaction refused x c = (.ok a, c')) :
    ∃ after, x { c with status := .inTransaction } = (.ok a, after) ∧
      (after.status = .inTransaction → c'.store = after.store) := by
  cases hx : x { c with status := .inTransaction } with
  | mk result after =>
    cases result with
    | error e =>
      rw [withTransaction_rollback (by simp [idle]) hx] at h
      cases h
    | ok b =>
      have running : ¬ c.status = .inError := by simp [idle]
      unfold withTransaction at h
      rw [if_neg running, hx] at h
      simp only [leave, idle] at h
      cases left : after.status with
      | idle =>
        rw [left] at h
        cases h
        exact ⟨after, rfl, fun _ => rfl⟩
      | inTransaction =>
        rw [left] at h
        cases h
        exact ⟨after, rfl, fun _ => rfl⟩
      | inError =>
        rw [left] at h
        cases h
        exact ⟨after, rfl, fun opened => by simp [left] at opened⟩

theorem refuses_execute (f : G → S → Except ε (A × S)) : Refuses (execute refused f) :=
  fun _ failed => ⟨refused, execute_refused failed⟩

theorem Refuses.bind {x : Session (Conn S G) ε A} (first : Refuses x)
    (next : A → Session (Conn S G) ε B) : Refuses (x >>= next) := by
  intro c failed
  obtain ⟨e, raised⟩ := first c failed
  exact ⟨e, bind_error raised⟩

end Refusing

/-- What the sessions of one kind keep, and how they may change the store. -/
structure Discipline (S : Type) where
  inv : S → Prop
  step : S → S → Prop
  refl : ∀ s, step s s
  trans : ∀ {a b c}, step a b → step b c → step a c

def Triple (D : Discipline S) (pre : Conn S G → Prop) (x : Session (Conn S G) ε A)
    (post : A → Conn S G → Prop) : Prop :=
  ∀ c, D.inv c.store → pre c → D.inv (x c).2.store ∧ D.step c.store (x c).2.store ∧
    ∀ a, (x c).1 = .ok a → post a (x c).2

/-- The state of a connection under these settings. -/
def At (status : Status) (g : G) (P : S → Prop) (c : Conn S G) : Prop :=
  c.status = status ∧ c.settings = g ∧ P c.store

/-- A transaction is open. -/
abbrev Open (g : G) (P : S → Prop) : Conn S G → Prop := At .inTransaction g P

abbrev Idle (g : G) (P : S → Prop) : Conn S G → Prop := At .idle g P

def Failed (c : Conn S G) : Prop := c.status = .inError

section Rules
variable {D : Discipline S} {g : G} {P R : S → Prop} {pre : Conn S G → Prop}
  {post : A → Conn S G → Prop} {x : Session (Conn S G) ε A} {refused : ε}

theorem Triple.pure {a : A} (holds : ∀ c, pre c → post a c) :
    Triple D pre (Pure.pure a : Session (Conn S G) ε A) post := by
  intro c inv hpre
  refine ⟨inv, D.refl _, ?_⟩
  intro b hb
  cases hb
  exact holds c hpre

theorem Triple.fail {e : ε} : Triple D pre (Transactions.fail e : Session (Conn S G) ε A) post :=
  fun _ inv _ => ⟨inv, D.refl _, fun _ h => nomatch h⟩

theorem Triple.bind {mid : A → Conn S G → Prop} {next : A → Session (Conn S G) ε B}
    {post : B → Conn S G → Prop} (first : Triple D pre x mid)
    (rest : ∀ a, Triple D (mid a) (next a) post) : Triple D pre (x >>= next) post := by
  intro c inv hpre
  obtain ⟨inv₁, step₁, mid₁⟩ := first c inv hpre
  cases hx : x c with
  | mk result after =>
    rw [hx] at inv₁ step₁ mid₁
    cases result with
    | error e =>
      rw [bind_error hx]
      exact ⟨inv₁, step₁, fun _ h => nomatch h⟩
    | ok a =>
      rw [bind_of_ok hx]
      obtain ⟨inv₂, step₂, done⟩ := rest a after inv₁ (mid₁ a rfl)
      exact ⟨inv₂, D.trans step₁ step₂, done⟩

theorem Triple.of_imp {pre' : Conn S G → Prop} (t : Triple D pre x post)
    (weaker : ∀ c, pre' c → pre c) : Triple D pre' x post :=
  fun c inv hpre => t c inv (weaker c hpre)

theorem Triple.imp {post' : A → Conn S G → Prop} (t : Triple D pre x post)
    (stronger : ∀ a c, post a c → post' a c) : Triple D pre x post' := by
  intro c inv hpre
  obtain ⟨inv', step, done⟩ := t c inv hpre
  exact ⟨inv', step, fun a h => stronger a _ (done a h)⟩

/-- A session may have its precondition for one of two reasons. -/
theorem Triple.or {pre' : Conn S G → Prop} (left : Triple D pre x post)
    (right : Triple D pre' x post) : Triple D (fun c => pre c ∨ pre' c) x post := by
  rintro c inv (hpre | hpre)
  · exact left c inv hpre
  · exact right c inv hpre

theorem Triple.ite {p : Prop} [Decidable p] {y : Session (Conn S G) ε A}
    (yes : p → Triple D pre x post) (no : ¬ p → Triple D pre y post) :
    Triple D pre (if p then x else y) post := by
  by_cases h : p
  · rw [if_pos h]
    exact yes h
  · rw [if_neg h]
    exact no h

theorem Triple.mapError {f : ε → ε} (t : Triple D pre x post) :
    Triple D pre (Transactions.mapError f x) post := by
  intro c inv hpre
  obtain ⟨inv', step, done⟩ := t c inv hpre
  unfold Transactions.mapError
  cases hx : x c with
  | mk result after =>
    rw [hx] at inv' step done
    cases result with
    | error e => exact ⟨inv', step, fun _ h => nomatch h⟩
    | ok a => exact ⟨inv', step, done⟩

/-- A discipline that allows more. -/
theorem Triple.loosen {D' : Discipline S} (t : Triple D pre x post)
    (inv : ∀ s, D'.inv s ↔ D.inv s) (step : ∀ a b, D.step a b → D'.step a b) :
    Triple D' pre x post := by
  intro c hinv hpre
  obtain ⟨inv', step', done⟩ := t c ((inv _).mp hinv) hpre
  exact ⟨(inv _).mpr inv', step _ _ step', done⟩

/-- How an error leaves the connection. -/
def Raises (pre : Conn S G → Prop) (x : Session (Conn S G) ε A)
    (raised : ε → Conn S G → Prop) : Prop :=
  ∀ c e c', pre c → x c = (.error e, c') → raised e c'

theorem Raises.execute {f : G → S → Except ε (A × S)} :
    Raises (Open g P) (Connections.execute refused f) (fun _ => Failed) := by
  rintro c e c' ⟨status, _⟩ h
  have running : ¬ c.status = .inError := by simp [status]
  unfold Connections.execute at h
  rw [if_neg running] at h
  split at h
  · cases h
  · cases h
    simp [Failed, status, Status.afterFailure]

theorem Raises.mapError {f : ε → ε} {after : Conn S G → Prop}
    (raises : Raises pre x (fun _ => after)) :
    Raises pre (Transactions.mapError f x) (fun _ => after) := by
  intro c e c' hpre h
  unfold Transactions.mapError at h
  split at h
  · cases h
  · next e' after' hx =>
    cases h
    exact raises c e' _ hpre hx

theorem Raises.bind_pure {raised : ε → Conn S G → Prop} (raises : Raises pre x raised)
    (f : A → B) : Raises pre (x >>= fun a => Pure.pure (f a)) raised := by
  intro c e c' hpre h
  cases hx : x c with
  | mk result after =>
    cases result with
    | ok a =>
      rw [bind_of_ok hx] at h
      cases h
    | error e' =>
      rw [bind_error hx] at h
      cases h
      exact raises c e c' hpre hx

theorem Raises.fail {e : ε} : Raises pre (Transactions.fail e : Session (Conn S G) ε A)
    (fun _ => pre) := by
  intro c e' c' hpre h
  cases h
  exact hpre

theorem Raises.of_refuses (refuses : Refuses x) : Raises Failed x (fun _ => Failed) := by
  intro c e c' failed h
  obtain ⟨e', raised⟩ := refuses c failed
  rw [raised] at h
  cases h
  exact failed

theorem Raises.rescue {raised raised' : ε → Conn S G → Prop}
    {handler : ε → Session (Conn S G) ε A} (raises : Raises pre x raised)
    (handled : ∀ e, Raises (raised e) (handler e) raised') :
    Raises pre (Connections.rescue x handler) raised' := by
  intro c e c' hpre h
  unfold Connections.rescue at h
  split at h
  · cases h
  · next e' after hx => exact handled e' after e c' (raises c e' after hpre hx) h

theorem Raises.committed : Raises (Idle g P) (withTransaction refused x) (fun _ => Idle g P) := by
  intro c e c' idle h
  have running : ¬ c.status = .inError := by simp [idle.1]
  unfold withTransaction at h
  rw [if_neg running] at h
  split at h
  · cases h
    exact idle
  · next a after _ =>
    simp only [leave, idle.1] at h
    split at h <;> cases h

/-- A handler takes the connection as the error has left it. -/
theorem Triple.rescue {raised : ε → Conn S G → Prop} {handler : ε → Session (Conn S G) ε A}
    (t : Triple D pre x post) (raises : Raises pre x raised)
    (handled : ∀ e, Triple D (raised e) (handler e) post) :
    Triple D pre (Connections.rescue x handler) post := by
  intro c inv hpre
  obtain ⟨inv₁, step₁, done⟩ := t c inv hpre
  unfold Connections.rescue
  cases hx : x c with
  | mk result after =>
    rw [hx] at inv₁ step₁ done
    cases result with
    | ok a => exact ⟨inv₁, step₁, done⟩
    | error e =>
      obtain ⟨inv₂, step₂, done₂⟩ := handled e after inv₁ (raises c e after hpre hx)
      exact ⟨inv₂, D.trans step₁ step₂, done₂⟩

theorem Triple.execute {status : Status} {f : G → S → Except ε (A × S)} {Q : A → S → Prop}
    (running : status ≠ .inError)
    (spec : ∀ s a s', D.inv s → P s → f g s = .ok (a, s') → D.inv s' ∧ D.step s s' ∧ Q a s') :
    Triple D (At status g P) (Connections.execute refused f) (fun a => At status g (Q a)) := by
  rintro c inv ⟨rfl, rfl, hP⟩
  cases hf : f c.settings c.store with
  | error e =>
    rw [execute_error running hf]
    exact ⟨inv, D.refl _, fun _ h => nomatch h⟩
  | ok written =>
    obtain ⟨a, s'⟩ := written
    rw [execute_ok running hf]
    obtain ⟨inv', step, hQ⟩ := spec c.store a s' inv hP hf
    refine ⟨inv', step, ?_⟩
    intro b hb
    cases hb
    exact ⟨rfl, rfl, hQ⟩

theorem Triple.of_refuses (refuses : Refuses x) : Triple D Failed x post := by
  intro c inv failed
  obtain ⟨e, raised⟩ := refuses c failed
  rw [raised]
  exact ⟨inv, D.refl _, fun _ h => nomatch h⟩

theorem Triple.setLocal (f : G → G) :
    Triple D (Open g P) (Connections.setLocal refused f) (fun _ => Open (f g) P) := by
  rintro c inv ⟨status, rfl, hP⟩
  have ran : Connections.setLocal refused f c = (.ok (), { c with settings := f c.settings }) := by
    simp only [Connections.setLocal, status]
  rw [ran]
  exact ⟨inv, D.refl _, fun _ _ => ⟨status, rfl, hP⟩⟩

/-- A savepoint. -/
theorem Triple.savepoint {Q : A → S → Prop} (t : Triple D (Open g P) x (fun a => Open g (Q a))) :
    Triple D (Open g P) (withTransaction refused x) (fun a => Open g (Q a)) := by
  rintro c inv ⟨status, settings, hP⟩
  obtain ⟨inv', step, done⟩ := t c inv ⟨status, settings, hP⟩
  cases hx : x c with
  | mk result after =>
    rw [hx] at inv' step done
    cases result with
    | error e =>
      have same : ({ c with status := .inTransaction } : Conn S G) = c := by rw [← status]
      rw [withTransaction_rollback (by simp [status]) (same ▸ hx)]
      exact ⟨inv, D.refl _, fun _ h => nomatch h⟩
    | ok a =>
      have opened : Open g (Q a) after := done a rfl
      rw [withTransaction_savepoint status hx opened.1]
      refine ⟨inv', step, ?_⟩
      intro b hb
      cases hb
      exact opened

/-- A transaction of its own; the settings it has made end with it. -/
theorem Triple.committed {g' : G} {Q : A → S → Prop}
    (t : Triple D (Open g P) x (fun a => Open g' (Q a))) :
    Triple D (Idle g P) (withTransaction refused x) (fun a => Idle g (Q a)) := by
  rintro c inv ⟨idle, settings, hP⟩
  obtain ⟨inv', step, done⟩ := t { c with status := .inTransaction } inv ⟨rfl, settings, hP⟩
  cases hx : x { c with status := .inTransaction } with
  | mk result after =>
    rw [hx] at inv' step done
    cases result with
    | error e =>
      rw [withTransaction_rollback (by simp [idle]) hx]
      exact ⟨inv, D.refl _, fun _ h => nomatch h⟩
    | ok a =>
      have opened : Open g' (Q a) after := done a rfl
      rw [withTransaction_commit idle hx opened.1]
      refine ⟨inv', step, ?_⟩
      intro b hb
      cases hb
      exact ⟨idle, settings, opened.2.2⟩

end Rules

end Connections
