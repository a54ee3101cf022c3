import Gubbi.Auth.Strategies
import Gubbi.Library.KeyedTable
import Gubbi.Library.Replay
import Mathlib.Logic.Function.Basic

/-!
# The operator's row while servers start

Any number of servers start at a time over one table of users. Each makes sure that its operator
has a row and binds itself to it, statement by statement, so that the statements of the others
come in between. No code deletes a user.
-/

namespace OperatorScaffold

open Text
open SelfHostAuth (UserId)

structure User where
  email : PyStr
  timezone : PyStr
  deleted : Bool

/-- The condition of `idx_users_email_active`, for one email. -/
def User.isActive (user : User) (email : PyStr) : Bool := user.email = email && !user.deleted

/-- `journal_app` has no privilege to insert a user, and its policies show it the row of the
current user only; `journal_admin` bypasses them. -/
inductive Role
  | app
  | admin
  deriving DecidableEq, Repr

structure Config where
  operatorEmail : PyStr
  timezone : PyStr
  role : Role

inductive Failure
  | interrupted
  | noActiveRow
  deriving DecidableEq, Repr

/-- Where a server is. -/
inductive Pod
  | scaffolding
  | auditing (insertedId : UserId)
  | verifying
  | resolving
  | bound (operatorUserId : Option UserId)
  | failed (reason : Failure)
  deriving DecidableEq, Repr

structure World where
  users : Table UserId User
  /-- The targets of the audit rows that `scaffold_operator` has written. -/
  audits : List UserId
  pods : Nat → Pod

def World.move (w : World) (pod : Nat) (place : Pod) : World :=
  { w with pods := Function.update w.pods pod place }

/-- `SELECT id FROM users WHERE email = $1 AND deleted_at IS NULL`, outside of a user scope. -/
def selectActive (users : Table UserId User) (config : Config) : Option UserId :=
  match config.role with
  | .app => none
  | .admin => (users.keysWhere fun _ user => user.isActive config.operatorEmail).head?

inductive Action
  /-- The `INSERT`; `id` is from `gen_random_uuid`. -/
  | insert (pod : Nat) (id : UserId)
  /-- `record_audit`, whose failure is logged only. -/
  | audit (pod : Nat) (written : Bool)
  | verify (pod : Nat)
  /-- `_resolve_operator_user_id`. -/
  | resolve (pod : Nat)
  /-- An exception ends the startup. -/
  | interrupt (pod : Nat)
  deriving DecidableEq, Repr

/-- `ON CONFLICT (email) WHERE deleted_at IS NULL DO NOTHING RETURNING id`. -/
def World.insert (w : World) (config : Config) (pod : Nat) (id : UserId) : World :=
  match config.role with
  | .app => w.move pod (.failed .interrupted)
  | .admin =>
    match selectActive w.users config with
    | some _ => w.move pod .verifying
    | none =>
      { w with users := w.users.put id ⟨config.operatorEmail, config.timezone, false⟩ }.move pod
        (.auditing id)

def World.afterAudit (w : World) (pod : Nat) (insertedId : UserId) (written : Bool) : World :=
  { w with audits := if written then insertedId :: w.audits else w.audits }.move pod .verifying

def World.afterVerify (w : World) (config : Config) (pod : Nat) : World :=
  match selectActive w.users config with
  | none => w.move pod (.failed .noActiveRow)
  | some _ => w.move pod .resolving

def step (configs : Nat → Config) (w : World) : Action → Option World
  | .insert pod id =>
    if w.pods pod = .scaffolding ∧ w.users.get id = none then
      some (w.insert (configs pod) pod id) else none
  | .audit pod written =>
    match w.pods pod with
    | .auditing insertedId => some (w.afterAudit pod insertedId written)
    | _ => none
  | .verify pod =>
    if w.pods pod = .verifying then some (w.afterVerify (configs pod) pod) else none
  | .resolve pod =>
    if w.pods pod = .resolving then
      some (w.move pod (.bound (selectActive w.users (configs pod)))) else none
  | .interrupt pod =>
    match w.pods pod with
    | .bound _ => none
    | .failed _ => none
    | _ => some (w.move pod (.failed .interrupted))

section Rows
variable {users : Table UserId User} {config : Config} {id : UserId} {email : PyStr}

/-- The row of an active user. -/
def HasActive (users : Table UserId User) (email : PyStr) (id : UserId) : Prop :=
  ∃ user, users.get id = some user ∧ user.isActive email = true

/-- What the partial index keeps. -/
def OneActive (users : Table UserId User) : Prop :=
  ∀ email id id', HasActive users email id → HasActive users email id' → id = id'

theorem mem_active : id ∈ users.keysWhere (fun _ user => user.isActive email) ↔
    HasActive users email id := Table.mem_keysWhere

theorem selectActive_some (found : selectActive users config = some id) :
    HasActive users config.operatorEmail id := by
  unfold selectActive at found
  cases role : config.role with
  | app =>
    rw [role] at found
    cases found
  | admin =>
    rw [role] at found
    exact mem_active.mp (List.mem_of_mem_head? found)

theorem selectActive_admin (admin : config.role = .admin)
    (active : HasActive users config.operatorEmail id) :
    ∃ id', selectActive users config = some id' := by
  rw [selectActive, admin]
  cases rows : users.keysWhere fun _ user => user.isActive config.operatorEmail with
  | nil =>
    have mem := mem_active.mpr active
    rw [rows] at mem
    cases mem
  | cons first rest => exact ⟨first, rfl⟩

def Grows (users users' : Table UserId User) : Prop :=
  ∀ id user, users.get id = some user → users'.get id = some user

theorem HasActive.grows {users' : Table UserId User} (active : HasActive users email id)
    (grows : Grows users users') : HasActive users' email id := by
  obtain ⟨user, row, shown⟩ := active
  exact ⟨user, grows id user row, shown⟩

theorem grows_put (fresh : users.get id = none) (user : User) :
    Grows users (users.put id user) := by
  intro id' user' row
  have other : id' ≠ id := by
    rintro rfl
    rw [fresh] at row
    cases row
  rw [Table.get_put_ne users user other]
  exact row

theorem hasActive_put {timezone : PyStr} {id' : UserId} {email' : PyStr}
    (fresh : users.get id = none) :
    HasActive (users.put id ⟨email, timezone, false⟩) email' id' ↔
      id' = id ∧ email' = email ∨ HasActive users email' id' := by
  unfold HasActive
  rw [Table.get_put]
  by_cases same : id' = id
  · subst same
    simp only [↓reduceIte, Option.some.injEq, exists_eq_left', User.isActive, Bool.not_false,
      Bool.and_true, decide_eq_true_eq, true_and, fresh, reduceCtorEq, false_and, exists_false,
      or_false]
    exact eq_comm
  · simp only [same, ↓reduceIte, false_and, false_or]

theorem oneActive_put {timezone : PyStr} (one : OneActive users) (fresh : users.get id = none)
    (free : ∀ id', ¬ HasActive users email id') :
    OneActive (users.put id ⟨email, timezone, false⟩) := by
  intro email' first second active active'
  rw [hasActive_put fresh] at active active'
  rcases active with ⟨rfl, rfl⟩ | old
  · rcases active' with ⟨rfl, -⟩ | old'
    · rfl
    · exact absurd old' (free second)
  · rcases active' with ⟨rfl, rfl⟩ | old'
    · exact absurd old (free first)
    · exact one email' first second old old'

end Rows

section Steps
variable {configs : Nat → Config} {start w w' : World} {pod : Nat} {place : Pod}

/-- What is known of a server by where it is. -/
def PodFits (start w : World) (config : Config) : Pod → Prop
  | .scaffolding => True
  | .auditing insertedId => config.role = .admin ∧
      HasActive w.users config.operatorEmail insertedId ∧ insertedId ∉ w.audits ∧
      ∀ id, ¬ HasActive start.users config.operatorEmail id
  | .verifying => config.role = .admin ∧ ∃ id, HasActive w.users config.operatorEmail id
  | .resolving => config.role = .admin ∧ ∃ id, HasActive w.users config.operatorEmail id
  | .bound operatorUserId => config.role = .admin ∧ ∃ id, operatorUserId = some id ∧
      HasActive w.users config.operatorEmail id
  | .failed reason => reason = .interrupted

structure Inv (configs : Nat → Config) (start w : World) : Prop where
  one : OneActive w.users
  kept : Grows start.users w.users
  pods : ∀ pod, PodFits start w (configs pod) (w.pods pod)
  apart : ∀ pod pod' id, w.pods pod = .auditing id → w.pods pod' = .auditing id → pod = pod'
  nodup : w.audits.Nodup
  audits : ∀ id ∈ w.audits, ∃ email, HasActive w.users email id ∧
    ∀ id', ¬ HasActive start.users email id'

theorem PodFits.grows {config : Config} (fits : PodFits start w config place)
    (grows : Grows w.users w'.users)
    (unaudited : ∀ id, place = .auditing id → id ∉ w'.audits) :
    PodFits start w' config place := by
  cases place with
  | scaffolding => trivial
  | auditing insertedId =>
    obtain ⟨admin, active, -, new⟩ := fits
    exact ⟨admin, active.grows grows, unaudited insertedId rfl, new⟩
  | verifying =>
    obtain ⟨admin, id, active⟩ := fits
    exact ⟨admin, id, active.grows grows⟩
  | resolving =>
    obtain ⟨admin, id, active⟩ := fits
    exact ⟨admin, id, active.grows grows⟩
  | bound operatorUserId =>
    obtain ⟨admin, id, same, active⟩ := fits
    exact ⟨admin, id, same, active.grows grows⟩
  | failed reason => exact fits

/-- A step that moves one server. -/
theorem Inv.moved (inv : Inv configs start w) (there : w'.pods = Function.update w.pods pod place)
    (grows : Grows w.users w'.users) (one : OneActive w'.users)
    (fits : PodFits start w' (configs pod) place)
    (others : ∀ q id, q ≠ pod → w.pods q = .auditing id → place ≠ .auditing id ∧ id ∉ w'.audits)
    (nodup : w'.audits.Nodup) (audits : ∀ id ∈ w'.audits, ∃ email, HasActive w'.users email id ∧
      ∀ id', ¬ HasActive start.users email id') : Inv configs start w' := by
  have self : w'.pods pod = place := by rw [there, Function.update_self]
  have other {q : Nat} (ne : q ≠ pod) : w'.pods q = w.pods q := by
    rw [there, Function.update_of_ne ne]
  refine ⟨one, fun id user row => grows id user (inv.kept id user row), fun q => ?_,
    fun p q id hp hq => ?_, nodup, audits⟩
  · by_cases same : q = pod
    · rw [same, self]
      exact fits
    · rw [other same]
      exact (inv.pods q).grows grows fun id auditing => (others q id same auditing).2
  · by_cases first : p = pod
    · by_cases second : q = pod
      · rw [first, second]
      · rw [first, self] at hp
        rw [other second] at hq
        exact absurd hp (others q id second hq).1
    · rw [other first] at hp
      by_cases second : q = pod
      · rw [second, self] at hq
        exact absurd hq (others p id first hp).1
      · rw [other second] at hq
        exact inv.apart p q id hp hq

/-- A step that writes no table. -/
theorem Inv.move (inv : Inv configs start w) (fits : PodFits start w (configs pod) place)
    (elsewhere : ∀ id, place ≠ .auditing id) : Inv configs start (w.move pod place) := by
  have same : Grows w.users w.users := fun _ _ row => row
  refine inv.moved rfl same inv.one (fits.grows same fun id at_ => absurd at_ (elsewhere id)) ?_
    inv.nodup inv.audits
  intro q id _ auditing
  have at_ := inv.pods q
  rw [auditing] at at_
  exact ⟨elsewhere id, at_.2.2.1⟩

theorem Inv.insert (inv : Inv configs start w) {id : UserId} (fresh : w.users.get id = none) :
    Inv configs start (w.insert (configs pod) pod id) := by
  unfold World.insert
  cases role : (configs pod).role with
  | app => exact inv.move rfl nofun
  | admin =>
    cases found : selectActive w.users (configs pod) with
    | some id' => exact inv.move ⟨role, id', selectActive_some found⟩ nofun
    | none =>
      have free (id' : UserId) : ¬ HasActive w.users (configs pod).operatorEmail id' := by
        intro active
        obtain ⟨id'', shown⟩ := selectActive_admin role active
        rw [found] at shown
        cases shown
      have grows := grows_put fresh ⟨(configs pod).operatorEmail, (configs pod).timezone, false⟩
      have unaudited : id ∉ w.audits := by
        intro mem
        obtain ⟨_, ⟨user, row, -⟩, -⟩ := inv.audits id mem
        rw [fresh] at row
        cases row
      refine inv.moved rfl grows (oneActive_put inv.one fresh free) ?_ ?_ inv.nodup ?_
      · refine ⟨role, (hasActive_put fresh).mpr (Or.inl ⟨rfl, rfl⟩), unaudited, ?_⟩
        exact fun id' active => free id' (active.grows inv.kept)
      · intro q id' _ auditing
        have at_ := inv.pods q
        rw [auditing] at at_
        refine ⟨?_, at_.2.2.1⟩
        rintro same
        obtain rfl := Pod.auditing.inj same
        obtain ⟨user, row, -⟩ := at_.2.1
        rw [fresh] at row
        cases row
      · intro id' mem
        obtain ⟨email, active, new⟩ := inv.audits id' mem
        exact ⟨email, active.grows grows, new⟩

theorem Inv.afterAudit (inv : Inv configs start w) {insertedId : UserId}
    (auditing : w.pods pod = .auditing insertedId) (written : Bool) :
    Inv configs start (w.afterAudit pod insertedId written) := by
  have at_ := inv.pods pod
  rw [auditing] at at_
  obtain ⟨admin, active, unaudited, new⟩ := at_
  have same : Grows w.users w.users := fun _ _ row => row
  refine inv.moved rfl same inv.one ⟨admin, insertedId, active⟩ ?_ ?_ ?_
  · intro q id ne at_q
    have fits := inv.pods q
    rw [at_q] at fits
    refine ⟨nofun, ?_⟩
    cases written with
    | false => exact fits.2.2.1
    | true =>
      rintro mem
      rcases List.mem_cons.mp mem with rfl | old
      · exact ne (inv.apart q pod _ at_q auditing)
      · exact fits.2.2.1 old
  · cases written with
    | false => exact inv.nodup
    | true => exact List.nodup_cons.mpr ⟨unaudited, inv.nodup⟩
  · intro id mem
    cases written with
    | false => exact inv.audits id mem
    | true =>
      rcases List.mem_cons.mp mem with rfl | old
      · exact ⟨_, active, new⟩
      · exact inv.audits id old

theorem Inv.step {action : Action} (inv : Inv configs start w)
    (moves : step configs w action = some w') : Inv configs start w' := by
  cases action with
  | insert pod id =>
    obtain ⟨⟨_, fresh⟩, rfl⟩ := Replay.guarded_eq_some.mp moves
    exact inv.insert fresh
  | audit pod written =>
    simp only [OperatorScaffold.step] at moves
    split at moves
    · next insertedId auditing =>
      cases moves
      exact inv.afterAudit auditing written
    · cases moves
  | verify pod =>
    obtain ⟨verifying, rfl⟩ := Replay.guarded_eq_some.mp moves
    have at_ := inv.pods pod
    rw [verifying] at at_
    obtain ⟨admin, id, active⟩ := at_
    obtain ⟨id', found⟩ := selectActive_admin admin active
    rw [World.afterVerify, found]
    exact inv.move ⟨admin, id, active⟩ nofun
  | resolve pod =>
    obtain ⟨resolving, rfl⟩ := Replay.guarded_eq_some.mp moves
    have at_ := inv.pods pod
    rw [resolving] at at_
    obtain ⟨admin, id, active⟩ := at_
    obtain ⟨id', found⟩ := selectActive_admin admin active
    exact inv.move ⟨admin, id', found, selectActive_some found⟩ nofun
  | interrupt pod =>
    simp only [OperatorScaffold.step] at moves
    split at moves
    · cases moves
    · cases moves
    · cases moves
      exact inv.move rfl nofun

end Steps

/-- Servers that are about to start, over a table of users that the index has kept. -/
structure Beginning (start : World) : Prop where
  one : OneActive start.users
  audits : start.audits = []
  pods : ∀ pod, start.pods pod = .scaffolding

theorem inv_beginning (configs : Nat → Config) {start : World} (beginning : Beginning start) :
    Inv configs start start := by
  refine ⟨beginning.one, fun _ _ row => row, fun pod => ?_, fun p q id auditing => ?_, ?_, ?_⟩
  · rw [beginning.pods pod]
    trivial
  · rw [beginning.pods p] at auditing
    cases auditing
  · rw [beginning.audits]
    exact List.nodup_nil
  · rw [beginning.audits]
    exact fun id mem => absurd mem List.not_mem_nil

structure Agreed (configs : Nat → Config) (start w : World) : Prop where
  /-- A server that has bound itself is bound to the one active row of its operator. -/
  bound : ∀ pod operatorUserId, w.pods pod = .bound operatorUserId →
    (configs pod).role = .admin ∧ ∃ id, operatorUserId = some id ∧
      ∀ id', HasActive w.users (configs pod).operatorEmail id' ↔ id' = id
  /-- Servers of one operator are bound to one user. -/
  alike : ∀ pod pod' op op', w.pods pod = .bound op → w.pods pod' = .bound op' →
    (configs pod).operatorEmail = (configs pod').operatorEmail → op = op'
  /-- The row is there when it is verified. -/
  verified : ∀ pod, w.pods pod ≠ .failed .noActiveRow
  kept : ∀ id user, start.users.get id = some user → w.users.get id = some user
  /-- One audit row at most for an operator, and only for one who had no row before. -/
  audits : w.audits.Nodup ∧ ∀ id ∈ w.audits, ∃ email, HasActive w.users email id ∧
    (∀ id', ¬ HasActive start.users email id') ∧
    ∀ id' ∈ w.audits, HasActive w.users email id' → id' = id

/-- However the statements of starting servers come in between each other, the servers agree. -/
theorem servers_agree {configs : Nat → Config} {start w : World} {actions : List Action}
    (beginning : Beginning start) (ran : Replay.run (step configs) start actions = some w) :
    Agreed configs start w := by
  have inv : Inv configs start w := by
    refine Replay.run_invariant' ?_ (inv_beginning configs beginning) ran
    exact fun _ _ _ inv moves => inv.step moves
  have bound (pod : Nat) (op : Option UserId) (at_ : w.pods pod = .bound op) :
      (configs pod).role = .admin ∧ ∃ id, op = some id ∧
        HasActive w.users (configs pod).operatorEmail id := by
    have fits := inv.pods pod
    rw [at_] at fits
    exact fits
  refine ⟨fun pod op at_ => ?_, fun p q op op' hp hq same => ?_, fun pod lost => ?_, inv.kept,
    inv.nodup, fun id mem => ?_⟩
  · obtain ⟨admin, id, rfl, active⟩ := bound pod op at_
    exact ⟨admin, id, rfl, fun id' =>
      ⟨fun other => inv.one _ id' id other active, fun here => here ▸ active⟩⟩
  · obtain ⟨-, id, rfl, active⟩ := bound p op hp
    obtain ⟨-, id', rfl, active'⟩ := bound q op' hq
    rw [← same] at active'
    rw [inv.one _ id id' active active']
  · have fits := inv.pods pod
    rw [lost] at fits
    cases fits
  · obtain ⟨email, active, new⟩ := inv.audits id mem
    exact ⟨email, active, new, fun id' _ active' => inv.one _ id' id active' active⟩

/-- Two servers start at a time; the second one inserts before the first one has verified. -/
theorem servers_agree_two : Agreed (fun _ => ⟨py "operator@example.org", py "UTC", .admin⟩)
    ⟨.empty, [], fun _ => .scaffolding⟩
    ((((((((⟨(Table.empty : Table UserId User).put 7 ⟨py "operator@example.org", py "UTC", false⟩,
      [], fun _ => .scaffolding⟩ : World).move 0 (.auditing 7)).move 1 .verifying).afterAudit 0 7
      true).move 1 .resolving).move 0 .resolving).move 1 (.bound (some 7))).move 0
      (.bound (some 7))) := by
  have beginning : Beginning ⟨.empty, [], fun _ => .scaffolding⟩ := by
    refine ⟨?_, rfl, fun _ => rfl⟩
    rintro email id id' ⟨user, row, -⟩
    cases row
  exact @servers_agree _ _ _ [.insert 0 7, .insert 1 8, .audit 0 true, .verify 1, .verify 0,
    .resolve 1, .resolve 0] beginning (by rfl)

end OperatorScaffold
