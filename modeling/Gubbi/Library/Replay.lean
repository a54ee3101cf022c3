import Mathlib.Logic.Basic

/-!
# Replaying actions of a guarded step function

`step s a` is `some t` when the action `a` is enabled in `s` and leads to `t`,
and `none` otherwise. A run is a list of actions that replays from a state.
A guard restricts the schedules: `Obeys` says that every action of the list is
taken from a state that meets the guard. Since a prefix of an obeying list
obeys, a property of the last state of every obeying run is a property of every
state such a run passes through.
-/

namespace Replay

universe u v
variable {S : Type u} {A : Type v}

/-- Replay a list of actions; `none` once one of them is not enabled. -/
def run (step : S → A → Option S) : S → List A → Option S
  | s, [] => some s
  | s, a :: rest =>
    match step s a with
    | none => none
    | some t => run step t rest

/-- Each action of the list meets the guard in the state it is taken from. -/
def Obeys (step : S → A → Option S) (guard : S → A → Prop) : S → List A → Prop
  | _, [] => True
  | s, a :: rest =>
    guard s a ∧
      match step s a with
      | none => True
      | some t => Obeys step guard t rest

instance decidableObeys (step : S → A → Option S) (guard : S → A → Prop)
    [∀ s a, Decidable (guard s a)] : ∀ s acts, Decidable (Obeys step guard s acts)
  | _, [] => instDecidableTrue
  | s, a :: rest =>
    have : Decidable (match step s a with
        | none => True
        | some t => Obeys step guard t rest) :=
      match step s a with
      | none => instDecidableTrue
      | some t => decidableObeys step guard t rest
    inferInstanceAs (Decidable (_ ∧ _))

/-- A step that is enabled by a condition. -/
theorem guarded_eq_some {p : Prop} [Decidable p] {next t : S} :
    (if p then some next else none) = some t ↔ p ∧ t = next := by
  by_cases h : p
  · simp only [h, if_true, true_and, Option.some.injEq, eq_comm]
  · simp [h]

@[simp] theorem run_nil (step : S → A → Option S) (s : S) : run step s [] = some s := rfl

theorem run_cons {step : S → A → Option S} {s t : S} {a : A} {rest : List A} :
    run step s (a :: rest) = some t ↔ ∃ m, step s a = some m ∧ run step m rest = some t := by
  cases h : step s a with
  | none => simp [run, h]
  | some m => simp [run, h]

theorem obeys_cons {step : S → A → Option S} {guard : S → A → Prop} {s m : S} {a : A}
    {rest : List A} (hstep : step s a = some m) :
    Obeys step guard s (a :: rest) ↔ guard s a ∧ Obeys step guard m rest := by
  simp [Obeys, hstep]

theorem exists_run_of_total {step : S → A → Option S} (total : ∀ s a, ∃ t, step s a = some t)
    (s : S) (acts : List A) : ∃ t, run step s acts = some t := by
  induction acts generalizing s with
  | nil => exact ⟨s, rfl⟩
  | cons a rest ih =>
    obtain ⟨m, hm⟩ := total s a
    obtain ⟨t, ht⟩ := ih m
    exact ⟨t, run_cons.mpr ⟨m, hm, ht⟩⟩

theorem run_append {step : S → A → Option S} {s t : S} {first rest : List A} :
    run step s (first ++ rest) = some t ↔
      ∃ m, run step s first = some m ∧ run step m rest = some t := by
  induction first generalizing s with
  | nil => simp
  | cons a first ih =>
    simp only [List.cons_append, run_cons, ih]
    constructor
    · rintro ⟨n, hn, m, hm, ht⟩
      exact ⟨m, ⟨n, hn, hm⟩, ht⟩
    · rintro ⟨m, ⟨n, hn, hm⟩, ht⟩
      exact ⟨n, hn, m, hm, ht⟩

theorem obeys_first {step : S → A → Option S} {guard : S → A → Prop} {s : S}
    {first rest : List A} (obeys : Obeys step guard s (first ++ rest)) :
    Obeys step guard s first := by
  induction first generalizing s with
  | nil => trivial
  | cons a first ih =>
    refine ⟨obeys.1, ?_⟩
    have tail := obeys.2
    cases h : step s a with
    | none => trivial
    | some m =>
      simp only [h] at tail
      exact ih tail

theorem obeys_rest {step : S → A → Option S} {guard : S → A → Prop} {s m : S}
    {first rest : List A} (obeys : Obeys step guard s (first ++ rest))
    (ran : run step s first = some m) : Obeys step guard m rest := by
  induction first generalizing s with
  | nil =>
    have same : s = m := Option.some.inj ran
    exact same ▸ obeys
  | cons a first ih =>
    rw [run_cons] at ran
    obtain ⟨n, hn, hrest⟩ := ran
    exact ih ((obeys_cons hn).mp obeys).2 hrest

/-- Run rule: what holds at the start and is kept by every guarded step holds
at the end of every run that obeys the guard. -/
theorem run_invariant {step : S → A → Option S} {guard : S → A → Prop} {inv : S → Prop}
    (keeps : ∀ s a t, inv s → guard s a → step s a = some t → inv t)
    {s t : S} {acts : List A} (start : inv s) (obeys : Obeys step guard s acts)
    (ran : run step s acts = some t) : inv t := by
  induction acts generalizing s with
  | nil =>
    have same : s = t := Option.some.inj ran
    exact same ▸ start
  | cons a rest ih =>
    rw [run_cons] at ran
    obtain ⟨m, hm, hrest⟩ := ran
    obtain ⟨hguard, htail⟩ := (obeys_cons hm).mp obeys
    exact ih (keeps s a m start hguard hm) htail hrest

theorem obeys_of_forall {step : S → A → Option S} {guard : S → A → Prop}
    (always : ∀ s a, guard s a) (s : S) (acts : List A) : Obeys step guard s acts := by
  induction acts generalizing s with
  | nil => trivial
  | cons a rest ih =>
    refine ⟨always s a, ?_⟩
    cases step s a with
    | none => trivial
    | some m => exact ih m

/-- A guard on the actions alone is met when each action of the list meets it. -/
theorem obeys_of_mem {step : S → A → Option S} {guard : A → Prop} {acts : List A}
    (all : ∀ a ∈ acts, guard a) (s : S) : Obeys step (fun _ a => guard a) s acts := by
  induction acts generalizing s with
  | nil => trivial
  | cons a rest ih =>
    refine ⟨all a List.mem_cons_self, ?_⟩
    cases step s a with
    | none => trivial
    | some m => exact ih (fun b mem => all b (List.mem_cons_of_mem _ mem)) m

/-- On a run that goes through, such a guard is met by the actions of the list. -/
theorem obeys_iff_mem {step : S → A → Option S} {guard : A → Prop} {s t : S} {acts : List A}
    (ran : run step s acts = some t) :
    Obeys step (fun _ a => guard a) s acts ↔ ∀ a ∈ acts, guard a := by
  induction acts generalizing s with
  | nil => exact iff_of_true trivial fun a mem => absurd mem List.not_mem_nil
  | cons a rest ih =>
    rw [run_cons] at ran
    obtain ⟨m, hm, hrest⟩ := ran
    rw [obeys_cons hm, ih hrest, List.forall_mem_cons]

/-- Run rule without a guard: the invariant is kept by every enabled step. -/
theorem run_invariant' {step : S → A → Option S} {inv : S → Prop}
    (keeps : ∀ s a t, inv s → step s a = some t → inv t)
    {s t : S} {acts : List A} (start : inv s) (ran : run step s acts = some t) : inv t :=
  have always : Obeys step (fun _ _ => True) s acts :=
    obeys_of_forall (fun _ _ => trivial) s acts
  run_invariant (fun s a t hs _ => keeps s a t hs) start always ran

/-- The converse of a run rule: when a step against the guard leaves a mark that
no later step removes, a run that ends without the mark obeyed the guard. -/
theorem obeys_of_unmarked {step : S → A → Option S} {guard : S → A → Prop}
    {inv marked : S → Prop}
    (keeps : ∀ s a t, inv s → step s a = some t → inv t)
    (marks : ∀ s a t, inv s → ¬ guard s a → step s a = some t → marked t)
    (stays : ∀ s a t, marked s → step s a = some t → marked t)
    {s t : S} {acts : List A} (start : inv s) (ran : run step s acts = some t)
    (unmarked : ¬ marked t) : Obeys step guard s acts := by
  induction acts generalizing s with
  | nil => trivial
  | cons a rest ih =>
    rw [run_cons] at ran
    obtain ⟨m, hm, hrest⟩ := ran
    have guarded : guard s a := Classical.byContradiction fun violated =>
      unmarked (run_invariant' stays (marks s a m start violated hm) hrest)
    exact (obeys_cons hm).mpr ⟨guarded, ih (keeps s a m start hm) hrest⟩

/-- The property holds in every state that the run passes through. -/
def Throughout (step : S → A → Option S) (p : S → Prop) : S → List A → Prop
  | s, [] => p s
  | s, a :: rest =>
    p s ∧
      match step s a with
      | none => True
      | some t => Throughout step p t rest

theorem throughout_cons {step : S → A → Option S} {p : S → Prop} {s m : S} {a : A}
    {rest : List A} (hstep : step s a = some m) :
    Throughout step p s (a :: rest) ↔ p s ∧ Throughout step p m rest := by
  simp [Throughout, hstep]

theorem throughout_head {step : S → A → Option S} {p : S → Prop} {s : S} {acts : List A}
    (through : Throughout step p s acts) : p s := by
  cases acts with
  | nil => exact through
  | cons a rest => exact through.1

theorem throughout_last {step : S → A → Option S} {p : S → Prop} {s t : S} {acts : List A}
    (through : Throughout step p s acts) (ran : run step s acts = some t) : p t := by
  induction acts generalizing s with
  | nil =>
    have same : s = t := Option.some.inj ran
    exact same ▸ through
  | cons a rest ih =>
    rw [run_cons] at ran
    obtain ⟨m, hm, hrest⟩ := ran
    exact ih ((throughout_cons hm).mp through).2 hrest

theorem throughout_mono {step : S → A → Option S} {p q : S → Prop} (weaker : ∀ s, p s → q s)
    {s : S} {acts : List A} (through : Throughout step p s acts) : Throughout step q s acts := by
  induction acts generalizing s with
  | nil => exact weaker s through
  | cons a rest ih =>
    refine ⟨weaker s through.1, ?_⟩
    have tail := through.2
    cases h : step s a with
    | none => trivial
    | some m =>
      simp only [h] at tail
      exact ih tail

/-- Run rule for every state of the run. -/
theorem throughout_of_obeys {step : S → A → Option S} {guard : S → A → Prop} {inv : S → Prop}
    (keeps : ∀ s a t, inv s → guard s a → step s a = some t → inv t)
    {s : S} {acts : List A} (start : inv s) (obeys : Obeys step guard s acts) :
    Throughout step inv s acts := by
  induction acts generalizing s with
  | nil => exact start
  | cons a rest ih =>
    refine ⟨start, ?_⟩
    have tail := obeys.2
    cases h : step s a with
    | none => trivial
    | some m =>
      simp only [h] at tail
      exact ih (keeps s a m start obeys.1 h) tail

/-- Exact run rule: when the guard of a step is what keeps the property, a run
has the property throughout exactly when it obeys the guard. -/
theorem throughout_iff_obeys {step : S → A → Option S} {guard : S → A → Prop}
    {inv p : S → Prop} (keeps : ∀ s a t, inv s → step s a = some t → inv t)
    (exact : ∀ s a t, inv s → p s → step s a = some t → (p t ↔ guard s a))
    {s t : S} {acts : List A} (start : inv s) (first : p s) (ran : run step s acts = some t) :
    Throughout step p s acts ↔ Obeys step guard s acts := by
  induction acts generalizing s with
  | nil => exact ⟨fun _ => trivial, fun _ => first⟩
  | cons a rest ih =>
    rw [run_cons] at ran
    obtain ⟨m, hm, hrest⟩ := ran
    have next := exact s a m start first hm
    have tail := ih (keeps s a m start hm)
    rw [throughout_cons hm, obeys_cons hm]
    constructor
    · rintro ⟨_, through⟩
      have hp := throughout_head through
      exact ⟨next.mp hp, (tail hp hrest).mp through⟩
    · rintro ⟨guarded, obeys⟩
      have hp := next.mpr guarded
      exact ⟨first, (tail hp hrest).mpr obeys⟩

/-- From each state of the run on, its relation to all later states of the run. -/
def Lasting (step : S → A → Option S) (r : S → S → Prop) (s : S) (acts : List A) : Prop :=
  ∀ first rest m, acts = first ++ rest → run step s first = some m →
    Throughout step (r m) m rest

theorem lasting_tail {step : S → A → Option S} {r : S → S → Prop} {s m : S} {a : A}
    {rest : List A} (hstep : step s a = some m) (lasting : Lasting step r s (a :: rest)) :
    Lasting step r m rest := by
  intro first later n split ran
  exact lasting (a :: first) later n (by rw [split, List.cons_append])
    (run_cons.mpr ⟨m, hstep, ran⟩)

/-- Exact run rule for a relation between earlier and later states: each guarded
step hands it on, and a step that keeps it was guarded. -/
theorem lasting_iff_obeys {step : S → A → Option S} {guard : S → A → Prop} {r : S → S → Prop}
    (lasts : ∀ m s a t, r m s → guard s a → step s a = some t → r m t)
    (renews : ∀ s a t, r s s → guard s a → step s a = some t → r t t)
    (exact : ∀ s a t, step s a = some t → r s t → guard s a)
    {s t : S} {acts : List A} (start : r s s) (ran : run step s acts = some t) :
    Lasting step r s acts ↔ Obeys step guard s acts := by
  constructor
  · intro lasting
    clear start
    induction acts generalizing s with
    | nil => trivial
    | cons a rest ih =>
      rw [run_cons] at ran
      obtain ⟨m, hm, hrest⟩ := ran
      have now := (throughout_cons hm).mp (lasting [] (a :: rest) s rfl rfl)
      have guarded := exact s a m hm (throughout_head now.2)
      exact (obeys_cons hm).mpr ⟨guarded, ih hrest (lasting_tail hm lasting)⟩
  · intro obeys first rest m split reached
    rw [split] at obeys
    have related : r m m := run_invariant renews start (obeys_first obeys) reached
    exact throughout_of_obeys (lasts m) related (obeys_rest obeys reached)

end Replay
