import Mathlib.Data.List.Chain
import Mathlib.Data.List.Nodup
import Mathlib.Data.List.Perm.Subperm
import Mathlib.Logic.Relation

/-!
# Bounded walks

A walk follows a partial function from a start. It stops where there is no successor and
on a vertex that it has met, and gives up at a bound. A walk that has not given up has met
exactly what the start leads to; one that has given up has a path of different vertices
that is longer than the bound.
-/

namespace Walks

universe u
variable {V : Type u}

/-- The vertices of the walk in their order, and whether it gave up. -/
def walk [DecidableEq V] (next : V → Option V) : Nat → List V → Option V → List V × Bool
  | _, met, none => (met, false)
  | 0, met, some x => (met, decide (x ∉ met))
  | bound + 1, met, some x =>
    if x ∈ met then (met, false) else walk next bound (met ++ [x]) (next x)

/-- `b` is the successor of `a`. -/
def Follows (next : V → Option V) (a b : V) : Prop := next a = some b

abbrev Leads (next : V → Option V) : V → V → Prop := Relation.ReflTransGen (Follows next)

/-- Different vertices from a start, each the successor of the one before. -/
structure Path (next : V → Option V) (start : V) (path : List V) : Prop where
  head : path.head? = some start
  linked : path.IsChain (Follows next)
  nodup : path.Nodup

/-- A set of vertices that no successor leaves. -/
def Closed (next : V → Option V) (met : List V) : Prop := ∀ x ∈ met, ∀ y, next x = some y → y ∈ met

section Paths
variable {next : V → Option V} {start : V} {met path : List V}

theorem mem_of_leads (closed : Closed next met) {x y : V} (mem : x ∈ met)
    (leads : Leads next x y) : y ∈ met := by
  induction leads with
  | refl => exact mem
  | tail _ step ih => exact closed _ ih _ step

theorem leads_of_linked {a : V} {rest : List V} (linked : (a :: rest).IsChain (Follows next)) :
    ∀ x ∈ a :: rest, Leads next a x := by
  induction rest generalizing a with
  | nil =>
    intro x mem
    rw [List.mem_singleton.mp mem]
  | cons b rest ih =>
    obtain ⟨first, others⟩ := List.isChain_cons_cons.mp linked
    intro x mem
    rcases List.mem_cons.mp mem with rfl | mem
    · exact .refl
    · exact .head first (ih others x mem)

theorem Path.leads (h : Path next start path) : ∀ x ∈ path, Leads next start x := by
  obtain ⟨rest, rfl⟩ := List.head?_eq_some_iff.mp h.head
  exact leads_of_linked h.linked

end Paths

section Walk
variable {next : V → Option V} {start : V} {met : List V} {current : Option V}

/-- What holds before each turn: the met vertices and the current one are a chain from the start,
and a successor that was not met is the current one. -/
structure Going (next : V → Option V) (start : V) (met : List V) (current : Option V) : Prop where
  head : (met ++ current.toList).head? = some start
  linked : (met ++ current.toList).IsChain (Follows next)
  nodup : met.Nodup
  pending : ∀ x ∈ met, ∀ y, next x = some y → y ∈ met ∨ current = some y

theorem going_start : Going next start [] (some start) where
  head := rfl
  linked := .singleton start
  nodup := List.nodup_nil
  pending := fun _ mem => absurd mem List.not_mem_nil

theorem Going.step {x : V} (going : Going next start met (some x)) (new : x ∉ met) :
    Going next start (met ++ [x]) (next x) := by
  have linked : (met ++ [x]).IsChain (Follows next) := going.linked
  refine ⟨?_, ?_, ?_, ?_⟩
  · have head : (met ++ [x]).head? = some start := going.head
    rw [List.head?_append, head]
    rfl
  · cases successor : next x with
    | none => simpa using linked
    | some y =>
      refine List.isChain_append.mpr ⟨linked, .singleton y, ?_⟩
      intro a last b first
      rw [List.getLast?_concat, Option.mem_some_iff] at last
      obtain rfl := last
      obtain rfl : y = b := Option.some.inj first
      exact successor
  · exact List.nodup_append.mpr ⟨going.nodup, List.nodup_singleton x, fun a mem b single same =>
      new (List.mem_singleton.mp single ▸ same ▸ mem)⟩
  · intro z mem y successor
    rcases List.mem_append.mp mem with before | last
    · rcases going.pending z before y successor with met | current
      · exact Or.inl (List.mem_append_left _ met)
      · obtain rfl := Option.some.inj current
        exact Or.inl (List.mem_append_right _ List.mem_cons_self)
    · rw [List.mem_singleton.mp last] at successor
      exact Or.inr successor

variable [DecidableEq V]

/-- A walk that stops by itself has met a closed path of bounded length. -/
theorem Going.stops {bound : Nat} (going : Going next start met current)
    (stopped : (walk next bound met current).2 = false) :
    Path next start (walk next bound met current).1 ∧
      Closed next (walk next bound met current).1 ∧
      (walk next bound met current).1.length ≤ met.length + bound := by
  have whole : ∀ {met : List V} {current : Option V}, Going next start met current →
      (∀ x, current = some x → x ∈ met) → Path next start met ∧ Closed next met := by
    intro met current going inside
    have closed : Closed next met := by
      intro x mem y successor
      rcases going.pending x mem y successor with known | last
      · exact known
      · exact inside y last
    refine ⟨⟨?_, (List.isChain_append.mp going.linked).1, going.nodup⟩, closed⟩
    cases met with
    | nil =>
      cases current with
      | none => exact going.head
      | some x => exact absurd (inside x rfl) List.not_mem_nil
    | cons a rest => exact going.head
  fun_induction walk next bound met current with
  | case1 bound met =>
    obtain ⟨path, closed⟩ := whole going (fun x none => nomatch none)
    exact ⟨path, closed, Nat.le_add_right _ _⟩
  | case2 met x =>
    have known : x ∈ met := not_not.mp (of_decide_eq_false stopped)
    obtain ⟨path, closed⟩ := whole going (fun y same => Option.some.inj same ▸ known)
    exact ⟨path, closed, Nat.le_add_right _ _⟩
  | case3 bound met x known =>
    obtain ⟨path, closed⟩ := whole going (fun y same => Option.some.inj same ▸ known)
    exact ⟨path, closed, Nat.le_add_right _ _⟩
  | case4 bound met x new ih =>
    obtain ⟨path, closed, length⟩ := ih (going.step new) stopped
    refine ⟨path, closed, ?_⟩
    rw [List.length_append, List.length_singleton] at length
    omega

/-- A walk that gives up has one vertex too many on its path. -/
theorem Going.exhausted {bound : Nat} (going : Going next start met current)
    (gaveUp : (walk next bound met current).2 = true) :
    ∃ path, Path next start path ∧ path.length = met.length + bound + 1 := by
  fun_induction walk next bound met current with
  | case1 => cases gaveUp
  | case2 met x =>
    have new : x ∉ met := of_decide_eq_true gaveUp
    have longer := going.step new
    refine ⟨met ++ [x], ⟨going.head, going.linked, longer.nodup⟩, ?_⟩
    rw [List.length_append, List.length_singleton, Nat.add_zero]
  | case3 => cases gaveUp
  | case4 bound met x new ih =>
    obtain ⟨path, isPath, length⟩ := ih (going.step new) gaveUp
    refine ⟨path, isPath, ?_⟩
    rw [List.length_append, List.length_singleton] at length
    omega

/-- What a walk that stopped has met is what the start leads to. -/
theorem mem_walk {bound : Nat} (stopped : (walk next bound [] (some start)).2 = false) {x : V} :
    x ∈ (walk next bound [] (some start)).1 ↔ Leads next start x := by
  obtain ⟨path, closed, _⟩ := Going.stops going_start stopped
  constructor
  · exact path.leads x
  · exact mem_of_leads closed (List.mem_of_head? path.head)

/-- A walk gives up exactly when a path is longer than its bound. -/
theorem walk_exhausted_iff {bound : Nat} : (walk next bound [] (some start)).2 = true ↔
    ∃ path, Path next start path ∧ path.length = bound + 1 := by
  constructor
  · intro gaveUp
    obtain ⟨path, isPath, length⟩ := Going.exhausted going_start gaveUp
    exact ⟨path, isPath, by simpa using length⟩
  · rintro ⟨path, isPath, length⟩
    cases result : (walk next bound [] (some start)).2 with
    | true => rfl
    | false =>
      obtain ⟨_, _, short⟩ := Going.stops going_start result
      have inside : path ⊆ (walk next bound [] (some start)).1 :=
        fun x mem => (mem_walk result).mpr (isPath.leads x mem)
      have fits := (isPath.nodup.subperm inside).length_le
      rw [List.length_nil] at short
      omega

end Walk

end Walks
