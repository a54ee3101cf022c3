import Gubbi.Library.KeyedTable

/-!
# Row security

Each row has an owner, and a policy shows a session the rows of one owner only, both to
its queries and to its writes. A role may bypass the policies. A foreign key looks at
all the rows, so it does not tie a row to a parent of the same owner: `Belongs` says
that the rows of a table are tied, and each write comes with what it needs to stay so.
-/

namespace RowSecurity

universe u v w x
variable {U : Type u} {K : Type v} {V : Type w} {P : Type x}

/-- The rows a session may touch: all of them, or those of the current user, if any. -/
inductive Access (U : Type u)
  | all
  | only (user : Option U)

section Statements
variable [DecidableEq U]

def Access.admits (a : Access U) (owner : U) : Bool :=
  match a with
  | .all => true
  | .only user => user = some owner

variable (a : Access U) (owner : V → U) (t : Table K V)

/-- `SELECT key WHERE p`. -/
def select (p : K → V → Bool) : List K := t.keysWhere (fun k v => a.admits (owner v) && p k v)

/-- `SELECT * WHERE key = k`. -/
def fetch [DecidableEq K] (k : K) : Option V := (t.get k).filter (fun v => a.admits (owner v))

/-- `UPDATE ... SET ... WHERE p`. -/
def update (p : K → V → Bool) (f : V → V) : Table K V :=
  t.update (fun k v => if a.admits (owner v) && p k v then f v else v)

/-- `DELETE WHERE p`. -/
def delete (p : K → V → Bool) : Table K V := t.deleteWhere (fun k v => a.admits (owner v) && p k v)

end Statements

section Lookups
variable [DecidableEq U] [DecidableEq K] {a : Access U} {owner : V → U} {t : Table K V}
  {p : K → V → Bool} {k : K} {v : V}

theorem admits_only {user : U} {o : U} :
    (Access.only (some user)).admits o = true ↔ o = user := by
  rw [Access.admits, decide_eq_true_eq, Option.some.injEq, eq_comm]

theorem mem_select : k ∈ select a owner t p ↔
    ∃ v, t.get k = some v ∧ a.admits (owner v) = true ∧ p k v = true := by
  simp only [select, Table.mem_keysWhere, Bool.and_eq_true]

theorem fetch_eq_some :
    fetch a owner t k = some v ↔ t.get k = some v ∧ a.admits (owner v) = true := by
  rw [fetch, Option.filter_eq_some_iff]

theorem get_update (f : V → V) : (update a owner t p f).get k =
    (t.get k).map (fun v => if a.admits (owner v) && p k v then f v else v) :=
  Table.get_update t _ k

theorem get_delete : (delete a owner t p).get k =
    (t.get k).filter (fun v => !(a.admits (owner v) && p k v)) :=
  Table.get_deleteWhere t _ k

end Lookups

/-- The rows of all users but one are the same. -/
def SameBut [DecidableEq K] (owner : V → U) (user : U) (t t' : Table K V) : Prop :=
  ∀ k v, owner v ≠ user → (t'.get k = some v ↔ t.get k = some v)

section Frames
variable [DecidableEq K] {owner : V → U} {user : U} {t t' t'' : Table K V}

@[simp] theorem SameBut.refl (t : Table K V) : SameBut owner user t t :=
  fun _ _ _ => Iff.rfl

theorem SameBut.trans (first : SameBut owner user t t') (second : SameBut owner user t' t'') :
    SameBut owner user t t'' :=
  fun k v foreign => (second k v foreign).trans (first k v foreign)

theorem SameBut.put {k : K} {v : V} (mine : owner v = user)
    (replaced : ∀ old, t.get k = some old → owner old = user) :
    SameBut owner user t (t.put k v) := by
  intro key row foreign
  rw [Table.get_put]
  by_cases hkey : key = k
  · subst hkey
    simp only [if_true, Option.some.injEq]
    constructor
    · rintro rfl
      exact absurd mine foreign
    · intro hrow
      exact absurd (replaced row hrow) foreign
  · rw [if_neg hkey]

theorem SameBut.update_table {f : K → V → V} (others : ∀ k v, owner v ≠ user → f k v = v)
    (own : ∀ k v, owner v = user → owner (f k v) = user) : SameBut owner user t (t.update f) := by
  intro key row foreign
  rw [Table.get_update, Option.map_eq_some_iff]
  constructor
  · rintro ⟨old, hold, rfl⟩
    by_cases mine : owner old = user
    · exact absurd (own key old mine) foreign
    · rw [others key old mine]
      exact hold
  · intro hrow
    exact ⟨row, hrow, others key row foreign⟩

theorem SameBut.modify {k : K} {v : V} {f : V → V} (present : t.get k = some v)
    (mine : owner v = user) (keeps : ∀ v, owner (f v) = owner v) :
    SameBut owner user t (t.modify k f) := by
  intro key row foreign
  rw [Table.get_modify]
  by_cases hkey : key = k
  · subst hkey
    rw [if_pos rfl, present, Option.map_some, Option.some.injEq, Option.some.injEq]
    constructor
    · rintro rfl
      exact absurd ((keeps v).trans mine) foreign
    · rintro rfl
      exact absurd mine foreign
  · rw [if_neg hkey]

theorem SameBut.deleteWhere {p : K → V → Bool}
    (own : ∀ k v, p k v = true → owner v = user) : SameBut owner user t (t.deleteWhere p) := by
  intro key row foreign
  rw [Table.get_deleteWhere, Option.filter_eq_some_iff]
  constructor
  · exact And.left
  · intro hrow
    refine ⟨hrow, ?_⟩
    cases hp : p key row with
    | false => rfl
    | true => exact absurd (own key row hp) foreign

variable [DecidableEq U] {a : Access U} {p : K → V → Bool}

theorem SameBut.update (admitted : ∀ o, a.admits o = true → o = user) {f : V → V}
    (keeps : ∀ v, owner (f v) = owner v) :
    SameBut owner user t (RowSecurity.update a owner t p f) := by
  refine SameBut.update_table ?_ ?_
  · intro k v foreign
    have hidden : ¬ (a.admits (owner v) && p k v) = true := by
      intro h
      rw [Bool.and_eq_true] at h
      exact foreign (admitted _ h.1)
    exact if_neg hidden
  · intro k v mine
    split
    · rw [keeps, mine]
    · exact mine

theorem SameBut.delete (admitted : ∀ o, a.admits o = true → o = user) :
    SameBut owner user t (RowSecurity.delete a owner t p) := by
  refine SameBut.deleteWhere ?_
  intro k v h
  rw [Bool.and_eq_true] at h
  exact admitted _ h.1

end Frames

def ownerOf [DecidableEq K] (owner : V → U) (t : Table K V) (k : K) : Option U :=
  (t.get k).map owner

/-- Every row is still there with the owner it had. -/
def Grows (before after : K → Option U) : Prop :=
  ∀ k user, before k = some user → after k = some user

@[simp] theorem Grows.refl (owners : K → Option U) : Grows owners owners := fun _ _ h => h

theorem Grows.trans {a b c : K → Option U} (first : Grows a b) (second : Grows b c) :
    Grows a c :=
  fun k user h => second k user (first k user h)

section Owners
variable [DecidableEq K] {owner : V → U} {t : Table K V}

theorem ownerOf_of_get {k : K} {v : V} (h : t.get k = some v) :
    ownerOf owner t k = some (owner v) := by
  rw [ownerOf, h, Option.map_some]

theorem grows_put_fresh {k : K} {v : V} (fresh : t.get k = none) :
    Grows (ownerOf owner t) (ownerOf owner (t.put k v)) := by
  intro key user h
  have other : key ≠ k := by
    rintro rfl
    rw [ownerOf, fresh] at h
    cases h
  rw [ownerOf, Table.get_put_ne t v other]
  exact h

theorem ownerOf_update_table {f : K → V → V} (keeps : ∀ k v, owner (f k v) = owner v) :
    ownerOf owner (t.update f) = ownerOf owner t := by
  funext k
  simp only [ownerOf, Table.get_update, Option.map_map, Function.comp_def, keeps]

theorem ownerOf_update [DecidableEq U] {a : Access U} {p : K → V → Bool} {f : V → V}
    (keeps : ∀ v, owner (f v) = owner v) :
    ownerOf owner (update a owner t p f) = ownerOf owner t := by
  refine ownerOf_update_table ?_
  intro k v
  split
  · exact keeps v
  · rfl

theorem ownerOf_modify {k : K} {f : V → V} (keeps : ∀ v, owner (f v) = owner v) :
    ownerOf owner (t.modify k f) = ownerOf owner t := by
  refine ownerOf_update_table ?_
  intro key v
  split
  · exact keeps v
  · rfl

theorem grows_update [DecidableEq U] {a : Access U} {p : K → V → Bool} {f : V → V}
    (keeps : ∀ v, owner (f v) = owner v) :
    Grows (ownerOf owner t) (ownerOf owner (update a owner t p f)) := by
  rw [ownerOf_update keeps]
  exact .refl _

theorem grows_modify {k : K} {f : V → V} (keeps : ∀ v, owner (f v) = owner v) :
    Grows (ownerOf owner t) (ownerOf owner (t.modify k f)) := by
  rw [ownerOf_modify keeps]
  exact .refl _

end Owners

/-- A row that names a parent has the owner of that parent. -/
def Belongs [DecidableEq K] (owner : V → U) (ref : K → V → Option P) (parent : P → Option U)
    (t : Table K V) : Prop :=
  ∀ k v p, t.get k = some v → ref k v = some p → parent p = some (owner v)

section Ties
variable [DecidableEq K] {owner : V → U} {ref : K → V → Option P} {parent parent' : P → Option U}
  {t : Table K V}

theorem Belongs.empty : Belongs owner ref parent (Table.empty : Table K V) :=
  fun _ _ _ h => nomatch h

theorem Belongs.grow (ties : Belongs owner ref parent t) (grows : Grows parent parent') :
    Belongs owner ref parent' t :=
  fun k v p hrow href => grows p _ (ties k v p hrow href)

theorem Belongs.put (ties : Belongs owner ref parent t) {k : K} {v : V}
    (tied : ∀ p, ref k v = some p → parent p = some (owner v)) :
    Belongs owner ref parent (t.put k v) := by
  intro key row p hrow href
  rcases Table.get_put_eq_some hrow with ⟨rfl, rfl⟩ | ⟨_, hold⟩
  · exact tied p href
  · exact ties key row p hold href

theorem belongs_update {f : K → V → V} (tied : ∀ k v p, t.get k = some v →
    ref k (f k v) = some p → parent p = some (owner (f k v))) :
    Belongs owner ref parent (t.update f) := by
  intro key row p hrow href
  rw [Table.get_update] at hrow
  obtain ⟨old, hold, rfl⟩ := Option.map_eq_some_iff.mp hrow
  exact tied key old p hold href

theorem Belongs.deleteWhere (ties : Belongs owner ref parent t) (q : K → V → Bool) :
    Belongs owner ref parent (t.deleteWhere q) := by
  intro key row p hrow href
  rw [Table.get_deleteWhere, Option.filter_eq_some_iff] at hrow
  exact ties key row p hrow.1 href

/-- An update of columns other than the owner and the reference. -/
theorem Belongs.update_same (ties : Belongs owner ref parent t) {f : K → V → V}
    (keeps : ∀ k v, owner (f k v) = owner v ∧ ref k (f k v) = ref k v) :
    Belongs owner ref parent (t.update f) := by
  refine belongs_update ?_
  intro k v p hrow href
  rw [(keeps k v).1]
  rw [(keeps k v).2] at href
  exact ties k v p hrow href

variable [DecidableEq U] {a : Access U} {q : K → V → Bool}

/-- An update that points the rows it sees to one parent. -/
theorem Belongs.update_to {user : U} (ties : Belongs owner ref parent t) {f : V → V} {dest : P}
    (admitted : ∀ o, a.admits o = true → o = user) (owned : parent dest = some user)
    (moves : ∀ k v, owner (f v) = owner v ∧ ref k (f v) = some dest) :
    Belongs owner ref parent (update a owner t q f) := by
  refine belongs_update ?_
  intro k v p hrow href
  by_cases seen : (a.admits (owner v) && q k v) = true
  · rw [if_pos seen] at href ⊢
    rw [Bool.and_eq_true] at seen
    rw [(moves k v).2] at href
    rw [(moves k v).1, admitted _ seen.1, ← Option.some.inj href]
    exact owned
  · rw [if_neg seen] at href ⊢
    exact ties k v p hrow href

theorem Belongs.update (ties : Belongs owner ref parent t) {f : V → V}
    (keeps : ∀ k v, owner (f v) = owner v ∧ ref k (f v) = ref k v) :
    Belongs owner ref parent (RowSecurity.update a owner t q f) := by
  refine ties.update_same ?_
  intro k v
  split
  · exact keeps k v
  · exact ⟨rfl, rfl⟩

end Ties

end RowSecurity
