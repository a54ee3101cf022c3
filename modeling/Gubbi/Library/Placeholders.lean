import Mathlib.Data.List.Basic

/-!
# Statements with numbered placeholders

A statement that is put together part by part numbers each placeholder by the length that
the list of its params has then. Params that come later do not move those before them, so
the parts are assigned what they were added with.
-/

namespace Placeholders

universe u v w
variable {P : Type u} {C : Type v} {A : Type w}

/-- `$n`; the numbers begin at 1. -/
def param (params : List P) : Nat → Option P
  | 0 => none
  | n + 1 => params[n]?

theorem param_append {params : List P} {n : Nat} (more : List P) (le : n ≤ params.length) :
    param (params ++ more) n = param params n := by
  cases n with
  | zero => rfl
  | succ n => exact List.getElem?_append_left le

theorem param_next (params : List P) (p : P) : param (params ++ [p]) (params.length + 1) = some p :=
  List.getElem?_concat_length

/-- `column = $n`, or an assignment without a placeholder. -/
inductive Part (C : Type v) (A : Type w)
  | numbered (column : C) (n : Nat)
  | literal (assignment : A)

def Part.placeholder : Part C A → Nat
  | .numbered _ n => n
  | .literal _ => 0

/-- What a part assigns; a column may refuse the param. -/
def Part.assign (bind : C → P → Option A) (params : List P) : Part C A → Option A
  | .numbered column n => (param params n).bind (bind column)
  | .literal assignment => some assignment

/-- A list of parts with the params of its placeholders. -/
structure Draft (P : Type u) (C : Type v) (A : Type w) where
  parts : List (Part C A)
  params : List P
  complete : ∀ part ∈ parts, part.placeholder ≤ params.length

namespace Draft

def start : Draft P C A := ⟨[], [], fun _ mem => absurd mem List.not_mem_nil⟩

def add (d : Draft P C A) (column : C) (p : P) : Draft P C A where
  parts := d.parts ++ [.numbered column (d.params.length + 1)]
  params := d.params ++ [p]
  complete := by
    intro part mem
    rw [List.length_append, List.length_singleton]
    rcases List.mem_append.mp mem with before | this
    · exact Nat.le_succ_of_le (d.complete part before)
    · rw [List.mem_singleton.mp this]
      exact Nat.le_refl _

def addLiteral (d : Draft P C A) (assignment : A) : Draft P C A where
  parts := d.parts ++ [.literal assignment]
  params := d.params
  complete := by
    intro part mem
    rcases List.mem_append.mp mem with before | this
    · exact d.complete part before
    · rw [List.mem_singleton.mp this]
      exact Nat.zero_le _

/-- What the parts assign when the statement has more params behind those of the draft. -/
def assignments (bind : C → P → Option A) (d : Draft P C A) (more : List P) : Option (List A) :=
  d.parts.mapM (Part.assign bind (d.params ++ more))

end Draft

variable {bind : C → P → Option A}

theorem assign_append {params : List P} {part : Part C A} (more : List P)
    (le : part.placeholder ≤ params.length) :
    part.assign bind (params ++ more) = part.assign bind params := by
  cases part with
  | numbered column n =>
    exact congrArg (fun p => Option.bind p (bind column)) (param_append more le)
  | literal assignment => rfl

theorem mapM_assign_append {params : List P} {parts : List (Part C A)} (more : List P)
    (complete : ∀ part ∈ parts, part.placeholder ≤ params.length) :
    parts.mapM (Part.assign bind (params ++ more)) = parts.mapM (Part.assign bind params) := by
  induction parts with
  | nil => rfl
  | cons part rest ih =>
    rw [List.mapM_cons, List.mapM_cons, assign_append more (complete part List.mem_cons_self),
      ih (fun other mem => complete other (List.mem_cons_of_mem _ mem))]

/-- Params behind those of a draft do not change what it assigns. -/
theorem assignments_more (d : Draft P C A) (more : List P) :
    d.assignments bind more = d.assignments bind [] := by
  rw [Draft.assignments, Draft.assignments, mapM_assign_append more d.complete, List.append_nil]

@[simp] theorem assignments_start (more : List P) :
    (Draft.start : Draft P C A).assignments bind more = some [] := rfl

/-- A part that is added is assigned its own param. -/
theorem assignments_add {d : Draft P C A} {as : List A} (before : d.assignments bind [] = some as)
    {column : C} {p : P} {a : A} (own : bind column p = some a) (more : List P) :
    (d.add column p).assignments bind more = some (as ++ [a]) := by
  have others : d.parts.mapM (Part.assign bind (d.params ++ [p])) = some as := by
    rw [← before, ← assignments_more d [p]]
    rfl
  rw [assignments_more, Draft.assignments, List.append_nil, Draft.add, List.mapM_append, others]
  simp only [Option.bind_eq_bind, Option.bind_some, List.mapM_cons, List.mapM_nil, Part.assign,
    param_next, own]
  rfl

theorem assignments_addLiteral {d : Draft P C A} {as : List A}
    (before : d.assignments bind [] = some as) (a : A) (more : List P) :
    (d.addLiteral a).assignments bind more = some (as ++ [a]) := by
  have others : d.parts.mapM (Part.assign bind d.params) = some as := by
    rw [← before, Draft.assignments, List.append_nil]
  rw [assignments_more, Draft.assignments, List.append_nil, Draft.addLiteral, List.mapM_append,
    others]
  rfl

end Placeholders
