import Gubbi.Library.Backlog
import Gubbi.Library.KeyedTable
import Gubbi.Text
import Mathlib.Data.Finset.Image
import Mathlib.Logic.Function.Basic

/-!
# The backfill of expiries

Token rows of an old file have no `expires_at`. Each start reads up to 10 000 of them in a table
and fills in what their data tells. SQLite chooses the rows, and one whose data tells nothing is
there to be chosen again.
-/

namespace OAuthBackfill

open Text Backlog

structure Row where
  data : PyStr
  expiresAt : Option Int
  deriving DecidableEq

/-- `int(float(json.loads(row["data"]).get("expires_at")))`, on its way into a column. -/
inductive Reading
  /-- Caught: `JSONDecodeError`, `TypeError` of `json.loads`. -/
  | undecodable
  | absent
  | seconds (expiresAt : Int)
  /-- Not caught: no object, no number, none that SQLite takes. -/
  | raised (message : PyStr)
  deriving DecidableEq

inductive Name
  | authCodes
  | accessTokens
  | refreshTokens
  deriving DecidableEq

abbrev Db := Name → Table PyStr Row

def TABLES : List Name := [.authCodes, .accessTokens, .refreshTokens]

def BACKFILL_LIMIT : Nat := 10000

section Model
variable (readExpiresAt : PyStr → Reading)

def Row.fillIn (row : Row) (expiresAt : Int) : Row := { row with expiresAt := some expiresAt }

/-- `fetchall`, of the keys that the select has found. -/
def fetched (t : Table PyStr Row) (found : List PyStr) : List (PyStr × PyStr) :=
  found.filterMap (fun key => (t.get key).map (fun row => (key, row.data)))

def fillRows (t : Table PyStr Row) : List (PyStr × PyStr) → Except PyStr (Table PyStr Row)
  | [] => .ok t
  | (key, data) :: rest =>
    match readExpiresAt data with
    | .undecodable => fillRows t rest
    | .absent => fillRows t rest
    | .seconds expiresAt => fillRows (t.modify key (fun row => row.fillIn expiresAt)) rest
    | .raised message => .error message

def backfillTable (found : Name → List PyStr) (db : Db) (name : Name) :
    Except PyStr (Table PyStr Row) :=
  fillRows readExpiresAt (db name) (fetched (db name) (found name))

/-- Each table has a commit of its own. -/
def backfillTables (found : Name → List PyStr) : List Name → Db → Except PyStr Unit × Db
  | [], db => (.ok (), db)
  | name :: rest, db =>
    match backfillTable readExpiresAt found db name with
    | .ok t => backfillTables found rest (Function.update db name t)
    | .error message => (.error message, db)

def backfillExpiresAt (found : Name → List PyStr) (db : Db) : Except PyStr Unit × Db :=
  backfillTables readExpiresAt found TABLES db

def missing (t : Table PyStr Row) : Finset PyStr :=
  (t.keysWhere (fun _ row => row.expiresAt = none)).toFinset

def Row.tells (row : Row) : Bool :=
  match readExpiresAt row.data with
  | .seconds _ => true
  | _ => false

def fillable (t : Table PyStr Row) : Finset PyStr :=
  (t.keysWhere (fun _ row => row.expiresAt = none && row.tells readExpiresAt)).toFinset

def stuck (t : Table PyStr Row) : Finset PyStr :=
  (t.keysWhere (fun _ row => row.expiresAt = none && !row.tells readExpiresAt)).toFinset

/-- `SELECT ... WHERE expires_at IS NULL LIMIT 10000`, in any order. -/
structure Selects (t : Table PyStr Row) (found : List PyStr) : Prop where
  apart : found.Nodup
  taken : Takes BACKFILL_LIMIT (missing t) found.toFinset

/-- What a number of starts makes of a file, with those that have failed not counted. Requests
save rows with an expiry, and they delete rows, as cleanups do. -/
inductive Starts (db : Db) : Nat → Db → Prop
  | before : Starts db 0 db
  | saves {n : Nat} {db' : Db} (starts : Starts db n db') (name : Name) (key : PyStr) {row : Row}
    (expiring : row.expiresAt ≠ none) :
    Starts db n (Function.update db' name ((db' name).put key row))
  | deletes {n : Nat} {db' : Db} (starts : Starts db n db') (name : Name)
    (p : PyStr → Row → Bool) : Starts db n (Function.update db' name ((db' name).deleteWhere p))
  | fails {n : Nat} {db' db'' : Db} {found : Name → List PyStr} {message : PyStr}
    (starts : Starts db n db') (selects : ∀ name, Selects (db' name) (found name))
    (raised : backfillExpiresAt readExpiresAt found db' = (.error message, db'')) : Starts db n db''
  | returns {n : Nat} {db' db'' : Db} {found : Name → List PyStr} (starts : Starts db n db')
    (selects : ∀ name, Selects (db' name) (found name))
    (returned : backfillExpiresAt readExpiresAt found db' = (.ok (), db'')) : Starts db (n + 1) db''

def Breaks (row : Row) : Prop := ∃ message, readExpiresAt row.data = .raised message

/-- No row without an expiry makes a start raise. -/
def Calm (db : Db) : Prop :=
  ∀ name key row, (db name).get key = some row → row.expiresAt = none → ¬ Breaks readExpiresAt row

end Model

section OneTable
variable {readExpiresAt : PyStr → Reading} {t t' : Table PyStr Row} {found : List PyStr}
  {key : PyStr}

theorem mem_missing : key ∈ missing t ↔ ∃ row, t.get key = some row ∧ row.expiresAt = none := by
  simp only [missing, List.mem_toFinset, Table.mem_keysWhere, decide_eq_true_eq]

theorem mem_fillable : key ∈ fillable readExpiresAt t ↔
    ∃ row, t.get key = some row ∧ row.expiresAt = none ∧ row.tells readExpiresAt = true := by
  simp only [fillable, List.mem_toFinset, Table.mem_keysWhere, Bool.and_eq_true,
    decide_eq_true_eq]

theorem mem_stuck : key ∈ stuck readExpiresAt t ↔
    ∃ row, t.get key = some row ∧ row.expiresAt = none ∧ row.tells readExpiresAt = false := by
  simp only [stuck, List.mem_toFinset, Table.mem_keysWhere, Bool.and_eq_true,
    decide_eq_true_eq, Bool.not_eq_true']

theorem missing_eq : missing t = fillable readExpiresAt t ∪ stuck readExpiresAt t := by
  ext key
  rw [Finset.mem_union, mem_missing, mem_fillable, mem_stuck]
  constructor
  · rintro ⟨row, stored, unset⟩
    cases told : row.tells readExpiresAt with
    | true => exact Or.inl ⟨row, stored, unset, told⟩
    | false => exact Or.inr ⟨row, stored, unset, told⟩
  · rintro (⟨row, stored, unset, _⟩ | ⟨row, stored, unset, _⟩)
    · exact ⟨row, stored, unset⟩
    · exact ⟨row, stored, unset⟩

theorem fillable_stuck : Disjoint (fillable readExpiresAt t) (stuck readExpiresAt t) := by
  refine Finset.disjoint_left.mpr fun key fill stay => ?_
  obtain ⟨row, stored, _, told⟩ := mem_fillable.mp fill
  obtain ⟨row', stored', _, silent⟩ := mem_stuck.mp stay
  cases stored.symm.trans stored'
  cases told.symm.trans silent

/-- What a start makes of a row that it has fetched. -/
def Row.filled (readExpiresAt : PyStr → Reading) (row : Row) : Row :=
  match readExpiresAt row.data with
  | .seconds expiresAt => row.fillIn expiresAt
  | _ => row

theorem filled_fillIn (row : Row) {expiresAt : Int}
    (read : readExpiresAt row.data = .seconds expiresAt) :
    (row.fillIn expiresAt).filled readExpiresAt = row.filled readExpiresAt := by
  simp only [Row.filled, read, Row.fillIn]

theorem filled_of_silent {row : Row} (silent : row.tells readExpiresAt = false) :
    row.filled readExpiresAt = row := by
  unfold Row.filled
  unfold Row.tells at silent
  cases read : readExpiresAt row.data with
  | seconds expiresAt => simp [read] at silent
  | _ => rfl

theorem expiresAt_filled {row : Row} (told : row.tells readExpiresAt = true) :
    (row.filled readExpiresAt).expiresAt ≠ none := by
  unfold Row.filled
  unfold Row.tells at told
  cases read : readExpiresAt row.data with
  | seconds expiresAt => simp [Row.fillIn]
  | _ => simp [read] at told

theorem mem_fetched {data : PyStr} : (key, data) ∈ fetched t found ↔
    key ∈ found ∧ ∃ row, t.get key = some row ∧ row.data = data := by
  simp only [fetched, List.mem_filterMap, Option.map_eq_some_iff, Prod.mk.injEq]
  constructor
  · rintro ⟨k, mem, row, stored, rfl, rfl⟩
    exact ⟨mem, row, stored, rfl⟩
  · rintro ⟨mem, row, stored, rfl⟩
    exact ⟨key, mem, row, stored, rfl, rfl⟩

/-- The loop returns when no row that it reads raises. -/
theorem fillRows_isOk {rows : List (PyStr × PyStr)} :
    (∃ t', fillRows readExpiresAt t rows = .ok t') ↔
      ∀ pair ∈ rows, ∀ message, readExpiresAt pair.2 ≠ .raised message := by
  induction rows generalizing t with
  | nil => simp [fillRows]
  | cons pair rest ih =>
    obtain ⟨key, data⟩ := pair
    rw [List.forall_mem_cons]
    unfold fillRows
    cases read : readExpiresAt data with
    | raised message => simp
    | _ => simpa using ih

theorem fillRows_get {rows : List (PyStr × PyStr)}
    (stored : ∀ key data, (key, data) ∈ rows → ∃ row, t.get key = some row ∧ row.data = data)
    (ran : fillRows readExpiresAt t rows = .ok t') (k : PyStr) :
    t'.get k = (t.get k).map (fun row =>
      if k ∈ rows.map Prod.fst then row.filled readExpiresAt else row) := by
  induction rows generalizing t with
  | nil =>
    cases ran
    simp
  | cons pair rest ih =>
    obtain ⟨key, data⟩ := pair
    obtain ⟨row, got, rfl⟩ := stored key data List.mem_cons_self
    have later := fun k d mem => stored k d (List.mem_cons_of_mem (key, row.data) mem)
    unfold fillRows at ran
    cases read : readExpiresAt row.data with
    | raised message => simp [read] at ran
    | seconds expiresAt =>
      simp only [read] at ran
      have kept : ∀ k d, (k, d) ∈ rest → ∃ row',
          (t.modify key (fun row => row.fillIn expiresAt)).get k = some row' ∧ row'.data = d := by
        intro k d mem
        obtain ⟨row', got', rfl⟩ := later k d mem
        rw [Table.get_modify, got']
        split
        · exact ⟨row'.fillIn expiresAt, rfl, rfl⟩
        · exact ⟨row', rfl, rfl⟩
      rw [ih kept ran, Table.get_modify]
      by_cases same : k = key
      · subst same
        have again := filled_fillIn row read
        have once : (row.fillIn expiresAt) = row.filled readExpiresAt := by
          simp only [Row.filled, read]
        simp only [got, if_true, Option.map_some, List.map_cons, List.mem_cons, true_or]
        split
        · rw [again]
        · rw [once]
      · simp only [same, if_false, List.map_cons, List.mem_cons, false_or]
    | _ =>
      simp only [read] at ran
      rw [ih later ran]
      by_cases same : k = key
      · subst same
        have silent : row.filled readExpiresAt = row := by simp only [Row.filled, read]
        simp [got, silent]
      · simp only [List.map_cons, List.mem_cons, same, false_or]

/-- A row without an expiry was there before, and was not one that a start fills in. -/
theorem fillRows_missing (ran : fillRows readExpiresAt t (fetched t found) = .ok t') {row : Row}
    (stored : t'.get key = some row) (unset : row.expiresAt = none) :
    t.get key = some row ∧ (key ∈ found → row.tells readExpiresAt = false) := by
  have after := fillRows_get (fun k d mem => (mem_fetched.mp mem).2) ran key
  rw [stored, eq_comm, Option.map_eq_some_iff] at after
  obtain ⟨old, got, rfl⟩ := after
  have listed : key ∈ (fetched t found).map Prod.fst ↔ key ∈ found := by
    rw [List.mem_map]
    constructor
    · rintro ⟨⟨k, d⟩, mem, rfl⟩
      exact (mem_fetched.mp mem).1
    · exact fun mem => ⟨(key, old.data), mem_fetched.mpr ⟨mem, old, got, rfl⟩, rfl⟩
  simp only [listed] at unset ⊢
  by_cases mem : key ∈ found
  · rw [if_pos mem] at unset ⊢
    cases told : old.tells readExpiresAt with
    | true => exact absurd unset (expiresAt_filled told)
    | false =>
      rw [filled_of_silent told]
      exact ⟨got, fun _ => told⟩
  · rw [if_neg mem]
    exact ⟨got, fun there => absurd there mem⟩

/-- A start that chooses rows that tell nothing changes nothing. -/
theorem fillRows_silent (silent : ∀ key ∈ found, ∀ row, t.get key = some row →
      row.tells readExpiresAt = false ∧ ¬ Breaks readExpiresAt row) :
    fillRows readExpiresAt t (fetched t found) = .ok t := by
  have quiet : ∀ pair ∈ fetched t found, readExpiresAt pair.2 = .undecodable ∨
      readExpiresAt pair.2 = .absent := by
    rintro ⟨key, data⟩ mem
    obtain ⟨listed, row, stored, rfl⟩ := mem_fetched.mp mem
    obtain ⟨told, whole⟩ := silent key listed row stored
    unfold Row.tells at told
    cases read : readExpiresAt row.data with
    | undecodable => exact Or.inl rfl
    | absent => exact Or.inr rfl
    | seconds expiresAt => simp [read] at told
    | raised message => exact absurd ⟨message, read⟩ whole
  generalize fetched t found = rows at quiet
  induction rows with
  | nil => rfl
  | cons pair rest ih =>
    obtain ⟨now, later⟩ := List.forall_mem_cons.mp quiet
    unfold fillRows
    rcases now with read | read
    · simp only [read, ih later]
    · simp only [read, ih later]

/-- A row without an expiry was there before. -/
def Retains (t t' : Table PyStr Row) : Prop :=
  ∀ key row, t'.get key = some row → row.expiresAt = none → t.get key = some row

theorem retains_put {row : Row} (expiring : row.expiresAt ≠ none) : Retains t (t.put key row) := by
  intro other row' stored unset
  rw [Table.get_put] at stored
  split at stored
  · cases stored
    exact absurd unset expiring
  · exact stored

theorem retains_deleteWhere (p : PyStr → Row → Bool) : Retains t (t.deleteWhere p) := by
  intro other row' stored _
  rw [Table.get_deleteWhere] at stored
  exact (Option.filter_eq_some_iff.mp stored).1

theorem Retains.fillable (kept : Retains t t') :
    fillable readExpiresAt t' ⊆ OAuthBackfill.fillable readExpiresAt t := by
  intro key mem
  obtain ⟨row, stored, unset, told⟩ := mem_fillable.mp mem
  exact mem_fillable.mpr ⟨row, kept key row stored unset, unset, told⟩

theorem Retains.stuck (kept : Retains t t') :
    stuck readExpiresAt t' ⊆ OAuthBackfill.stuck readExpiresAt t := by
  intro key mem
  obtain ⟨row, stored, unset, told⟩ := mem_stuck.mp mem
  exact mem_stuck.mpr ⟨row, kept key row stored unset, unset, told⟩

theorem retains_fillRows (ran : fillRows readExpiresAt t (fetched t found) = .ok t') :
    Retains t t' :=
  fun _ _ stored unset => (fillRows_missing ran stored unset).1

theorem fillable_fillRows (ran : fillRows readExpiresAt t (fetched t found) = .ok t') :
    fillable readExpiresAt t' ⊆ fillable readExpiresAt t \ found.toFinset := by
  intro key mem
  obtain ⟨row, stored, unset, told⟩ := mem_fillable.mp mem
  obtain ⟨before, silent⟩ := fillRows_missing ran stored unset
  refine Finset.mem_sdiff.mpr ⟨mem_fillable.mpr ⟨row, before, unset, told⟩, fun chosen => ?_⟩
  cases told.symm.trans (silent (List.mem_toFinset.mp chosen))

end OneTable

section AStart
variable {readExpiresAt : PyStr → Reading} {found : Name → List PyStr} {db db' : Db} {name : Name}
  {names : List Name} {answer : Except PyStr Unit}

theorem mem_TABLES (name : Name) : name ∈ TABLES := by
  cases name with
  | authCodes => decide
  | accessTokens => decide
  | refreshTokens => decide

theorem backfillTable_update {t : Table PyStr Row} {other : Name} (apart : other ≠ name) :
    backfillTable readExpiresAt found (Function.update db name t) other =
      backfillTable readExpiresAt found db other := by
  simp only [backfillTable, Function.update_of_ne apart]

theorem backfillTables_other (absent : name ∉ names) :
    (backfillTables readExpiresAt found names db).2 name = db name := by
  induction names generalizing db with
  | nil => rfl
  | cons first rest ih =>
    obtain ⟨apart, later⟩ := not_or.mp (fun mem => absent (List.mem_cons.mpr mem))
    unfold backfillTables
    cases backfillTable readExpiresAt found db first with
    | error message => rfl
    | ok t => exact (ih later).trans (Function.update_of_ne apart t db)

/-- A table is filled, or it is as it was and the start has not come to its end. -/
theorem backfillTables_table (apart : names.Nodup) (name : Name) :
    (backfillTables readExpiresAt found names db).2 name = db name ∧
        ((backfillTables readExpiresAt found names db).1 = .ok () → name ∉ names) ∨
      backfillTable readExpiresAt found db name =
        .ok ((backfillTables readExpiresAt found names db).2 name) := by
  induction names generalizing db with
  | nil => exact Or.inl ⟨rfl, fun _ => List.not_mem_nil⟩
  | cons first rest ih =>
    obtain ⟨absent, later⟩ := List.nodup_cons.mp apart
    unfold backfillTables
    cases filled : backfillTable readExpiresAt found db first with
    | error message => exact Or.inl ⟨rfl, fun returned => by cases returned⟩
    | ok t =>
      by_cases same : name = first
      · subst same
        have last : (backfillTables readExpiresAt found rest (Function.update db name t)).2 name =
            t := (backfillTables_other absent).trans (Function.update_self name t db)
        exact Or.inr (filled.trans (congrArg Except.ok last.symm))
      · have others := @ih (Function.update db first t) later
        rw [backfillTable_update same, Function.update_of_ne same] at others
        rcases others with ⟨kept, ended⟩ | done
        · refine Or.inl ⟨kept, fun returned mem => ?_⟩
          exact ended returned ((List.mem_cons.mp mem).resolve_left same)
        · exact Or.inr done

theorem backfillTables_ok (apart : names.Nodup) :
    (backfillTables readExpiresAt found names db).1 = .ok () ↔
      ∀ name ∈ names, ∃ t, backfillTable readExpiresAt found db name = .ok t := by
  induction names generalizing db with
  | nil => simp [backfillTables]
  | cons first rest ih =>
    obtain ⟨absent, later⟩ := List.nodup_cons.mp apart
    rw [List.forall_mem_cons]
    unfold backfillTables
    cases filled : backfillTable readExpiresAt found db first with
    | error message => simp
    | ok t =>
      rw [ih later]
      have others : ∀ name ∈ rest, name ≠ first := fun name mem same => absent (same ▸ mem)
      constructor
      · refine fun all => ⟨⟨t, rfl⟩, fun name mem => ?_⟩
        obtain ⟨t', ran⟩ := all name mem
        exact ⟨t', (backfillTable_update (others name mem)).symm.trans ran⟩
      · rintro ⟨-, all⟩ name mem
        obtain ⟨t', ran⟩ := all name mem
        exact ⟨t', (backfillTable_update (others name mem)).trans ran⟩

theorem start_table (ran : backfillExpiresAt readExpiresAt found db = (answer, db')) (name : Name) :
    db' name = db name ∧ answer ≠ .ok () ∨
      backfillTable readExpiresAt found db name = .ok (db' name) := by
  have table := @backfillTables_table readExpiresAt found db TABLES (by decide) name
  rw [← backfillExpiresAt, ran] at table
  rcases table with ⟨kept, ended⟩ | done
  · exact Or.inl ⟨kept, fun returned => ended returned (mem_TABLES name)⟩
  · exact Or.inr done

/-- A start returns when it finds no row that makes it raise. -/
theorem start_isOk : (backfillExpiresAt readExpiresAt found db).1 = .ok () ↔
    ∀ name, ∀ key ∈ found name, ∀ row, (db name).get key = some row →
      ¬ Breaks readExpiresAt row := by
  rw [backfillExpiresAt, backfillTables_ok (by decide)]
  simp only [backfillTable, fillRows_isOk]
  constructor
  · rintro whole name key chosen row stored ⟨message, read⟩
    exact whole name (mem_TABLES name) (key, row.data) (mem_fetched.mpr ⟨chosen, row, stored, rfl⟩)
      message read
  · rintro whole name - ⟨key, data⟩ mem message read
    obtain ⟨chosen, row, stored, rfl⟩ := mem_fetched.mp mem
    exact whole name key chosen row stored ⟨message, read⟩

theorem start_ok (ran : backfillExpiresAt readExpiresAt found db = (.ok (), db')) (name : Name) :
    backfillTable readExpiresAt found db name = .ok (db' name) :=
  (start_table ran name).resolve_left fun kept => kept.2 rfl

theorem start_retains (ran : backfillExpiresAt readExpiresAt found db = (answer, db'))
    (name : Name) : Retains (db name) (db' name) := by
  rcases start_table ran name with ⟨same, -⟩ | done
  · rw [same]
    exact fun _ _ stored _ => stored
  · exact retains_fillRows done

/-- A start leaves a row alone or fills in what its data tells. -/
theorem start_row (ran : backfillExpiresAt readExpiresAt found db = (answer, db')) (key : PyStr) :
    (db' name).get key = (db name).get key ∨
      (db' name).get key = ((db name).get key).map (Row.filled readExpiresAt) := by
  rcases start_table ran name with ⟨same, -⟩ | done
  · exact Or.inl (congrArg (fun t => Table.get t key) same)
  · have after := fillRows_get (fun k d mem => (mem_fetched.mp mem).2) done key
    rw [after]
    by_cases listed : key ∈ (fetched (db name) (found name)).map Prod.fst
    · exact Or.inr (by simp only [listed, if_true])
    · exact Or.inl (by simp only [listed, if_false, Option.map_id'])

end AStart

section Runs
variable {readExpiresAt : PyStr → Reading} {found : Name → List PyStr} {db db' : Db} {name : Name}
  {n : Nat}

theorem Retains.updated {t : Table PyStr Row} (kept : Retains (db name) t) (other : Name) :
    Retains (db other) (Function.update db name t other) := by
  by_cases same : other = name
  · subst same
    rw [Function.update_self]
    exact kept
  · rw [Function.update_of_ne same]
    exact fun _ _ stored _ => stored

theorem Starts.worked (starts : Starts readExpiresAt db n db') (name : Name) :
    Worked BACKFILL_LIMIT (fillable readExpiresAt (db name)) (stuck readExpiresAt (db name)) n
      (fillable readExpiresAt (db' name)) (stuck readExpiresAt (db' name)) := by
  induction starts with
  | before => exact .begins
  | @saves n current starts saved key row expiring ih =>
    have kept := @Retains.updated current saved _ (@retains_put _ key row expiring) name
    exact .fewer ih kept.fillable kept.stuck
  | @deletes n current starts deleted p ih =>
    have kept := @Retains.updated current deleted _ (retains_deleteWhere p) name
    exact .fewer ih kept.fillable kept.stuck
  | fails starts selects raised ih =>
    have kept := start_retains raised name
    exact .fewer ih kept.fillable kept.stuck
  | returns starts selects returned ih =>
    have taken := (selects name).taken
    rw [@missing_eq readExpiresAt] at taken
    exact .round ih taken (fillable_fillRows (start_ok returned name))
      (start_retains returned name).stuck

theorem Calm.retains (calm : Calm readExpiresAt db) (kept : ∀ name, Retains (db name) (db' name)) :
    Calm readExpiresAt db' :=
  fun name key row stored unset => calm name key row (kept name key row stored unset) unset

theorem exists_selects (t : Table PyStr Row) : ∃ found, Selects t found := by
  obtain ⟨round, taken⟩ := exists_takes BACKFILL_LIMIT (missing t)
  refine ⟨round.toList, round.nodup_toList, ?_⟩
  rwa [Finset.toList_toFinset]

/-- A select may find nothing but rows that tell nothing, if there are enough of them. -/
theorem exists_selects_stuck {t : Table PyStr Row}
    (full : BACKFILL_LIMIT ≤ (stuck readExpiresAt t).card) :
    ∃ found, Selects t found ∧ ∀ key ∈ found, key ∈ stuck readExpiresAt t := by
  obtain ⟨round, within, size⟩ := Finset.exists_subset_card_eq full
  have ofMissing : stuck readExpiresAt t ⊆ missing t := by
    rw [@missing_eq readExpiresAt]
    exact Finset.subset_union_right
  refine ⟨round.toList, ⟨round.nodup_toList, ?_⟩, fun key mem => within (Finset.mem_toList.mp mem)⟩
  rw [Finset.toList_toFinset]
  refine ⟨within.trans ofMissing, ?_⟩
  rw [size, Nat.min_eq_left (full.trans (Finset.card_le_card ofMissing))]

/-- The same rows again at every start. -/
theorem starving (calm : Calm readExpiresAt db)
    (full : BACKFILL_LIMIT ≤ (stuck readExpiresAt (db name)).card) (n : Nat) :
    ∃ db', Starts readExpiresAt db n db' ∧ Calm readExpiresAt db' ∧ db' name = db name := by
  induction n with
  | zero => exact ⟨db, .before, calm, rfl⟩
  | succ n ih =>
    obtain ⟨db', starts, calm', same⟩ := ih
    rw [← same] at full
    have chosen : ∀ other, ∃ keys, Selects (db' other) keys ∧
        (other = name → ∀ key ∈ keys, key ∈ stuck readExpiresAt (db' name)) := by
      intro other
      by_cases isName : other = name
      · subst isName
        obtain ⟨keys, selects, silent⟩ := exists_selects_stuck full
        exact ⟨keys, selects, fun _ => silent⟩
      · obtain ⟨keys, selects⟩ := exists_selects (db' other)
        exact ⟨keys, selects, fun equal => absurd equal isName⟩
    choose found selects silent using chosen
    have unbroken : ∀ other, ∀ key ∈ found other, ∀ row, (db' other).get key = some row →
        ¬ Breaks readExpiresAt row := by
      intro other key mem row stored
      obtain ⟨row', stored', unset⟩ :=
        mem_missing.mp ((selects other).taken.within (List.mem_toFinset.mpr mem))
      cases stored.symm.trans stored'
      exact calm' other key row stored unset
    have returned := start_isOk.mpr unbroken
    cases ran : backfillExpiresAt readExpiresAt found db' with
    | mk answer after =>
      rw [ran] at returned
      cases returned
      refine ⟨after, .returns starts selects ran, calm'.retains (start_retains ran), ?_⟩
      have still : backfillTable readExpiresAt found db' name = .ok (db' name) := by
        refine fillRows_silent fun key mem row stored => ?_
        obtain ⟨row', stored', _, told⟩ := mem_stuck.mp (silent name rfl key mem)
        cases stored.symm.trans stored'
        exact ⟨told, unbroken name key mem row stored⟩
      exact (Except.ok.inj ((start_ok ran name).symm.trans still)).trans same

/-- A start that finds all rows finds the one that makes it raise. -/
theorem start_breaks {key : PyStr} {row : Row} (stored : (db name).get key = some row)
    (unset : row.expiresAt = none) (breaks : Breaks readExpiresAt row)
    (few : (missing (db name)).card ≤ BACKFILL_LIMIT)
    (selects : ∀ name, Selects (db name) (found name)) :
    (backfillExpiresAt readExpiresAt found db).1 ≠ .ok () := by
  intro returned
  have taken := (selects name).taken
  have all : (found name).toFinset = missing (db name) := by
    refine Finset.eq_of_subset_of_card_le taken.within ?_
    rw [taken.full, Nat.min_eq_right few]
  have mem : key ∈ (found name).toFinset := all ▸ mem_missing.mpr ⟨row, stored, unset⟩
  exact start_isOk.mp returned name key (List.mem_toFinset.mp mem) row stored breaks

/-- Starts fill in what rows without an expiry tell, as many in each as the rows that tell nothing
leave places. With as many of these as a start reads, others may wait for ever, and with a row that
makes a start raise among no more than it reads, no start returns. -/
theorem backfill_starts (readExpiresAt : PyStr → Reading) (db : Db) (name : Name) :
    (∀ found, ∀ key, ((backfillExpiresAt readExpiresAt found db).2 name).get key =
        (db name).get key ∨ ((backfillExpiresAt readExpiresAt found db).2 name).get key =
          ((db name).get key).map (Row.filled readExpiresAt)) ∧
    (∀ n db', Starts readExpiresAt db n db' →
      (fillable readExpiresAt (db' name)).card ≤ (fillable readExpiresAt (db name)).card -
        n * (BACKFILL_LIMIT - (stuck readExpiresAt (db name)).card)) ∧
    (Calm readExpiresAt db → BACKFILL_LIMIT ≤ (stuck readExpiresAt (db name)).card →
      ∀ n, ∃ db', Starts readExpiresAt db n db' ∧ db' name = db name) ∧
    ∀ key row, (db name).get key = some row → row.expiresAt = none → Breaks readExpiresAt row →
      (missing (db name)).card ≤ BACKFILL_LIMIT → ∀ found,
        (∀ name, Selects (db name) (found name)) →
        (backfillExpiresAt readExpiresAt found db).1 ≠ .ok () := by
  refine ⟨fun found key => start_row rfl key,
    fun n db' starts => (starts.worked name).card_le fillable_stuck, ?_, ?_⟩
  · intro calm full n
    obtain ⟨db', starts, -, same⟩ := starving calm full n
    exact ⟨db', starts, same⟩
  · intro key row stored unset breaks few found selects
    exact start_breaks stored unset breaks few selects

end Runs

def told : PyStr := py "\x7b\"expires_at\": 7\x7d"

def readTold (data : PyStr) : Reading := if data = told then .seconds 7 else .absent

def twoTokens : Table PyStr Row where
  rows := [(py "a", ⟨told, none⟩), (py "b", ⟨py "\x7b\x7d", none⟩)]
  unique := by decide

def oldFile : Db
  | .refreshTokens => twoTokens
  | _ => .empty

def bothTokens : Name → List PyStr
  | .refreshTokens => [py "b", py "a"]
  | _ => []

theorem selects_bothTokens (name : Name) : Selects (oldFile name) (bothTokens name) := by
  cases name with
  | refreshTokens => exact ⟨by decide +kernel, by decide +kernel, by decide +kernel⟩
  | _ => exact ⟨by decide +kernel, by decide +kernel, by decide +kernel⟩

/-- The token that tells its expiry has it after one start, behind the one that does not. -/
theorem backfill_starts_two : ∃ db', Starts readTold oldFile 1 db' ∧
    fillable readTold (db' .refreshTokens) = ∅ := by
  have ran : backfillExpiresAt readTold bothTokens oldFile =
      (.ok (), (backfillExpiresAt readTold bothTokens oldFile).2) :=
    Prod.ext (by decide +kernel) rfl
  have starts := Starts.returns .before selects_bothTokens ran
  refine ⟨_, starts, ?_⟩
  obtain ⟨-, fills, -⟩ := backfill_starts readTold oldFile .refreshTokens
  have none_left := (fills 1 _ starts).trans (by decide +kernel : _ ≤ 0)
  exact Finset.card_eq_zero.mp (Nat.le_zero.mp none_left)

end OAuthBackfill
