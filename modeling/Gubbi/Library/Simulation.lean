import Gubbi.Library.Replay

/-!
# Simulation of runs

One system is simulated by another when each of its steps is matched by a run of the
other that looks the same from outside. The matching run may be empty, and it may hold
more steps than one: a loop of the second system may have more entries to go through.
-/

namespace Replay

universe u v w
variable {S T : Type u} {A B : Type v} {O : Type w}

theorem obeys_append {step : S → A → Option S} {guard : S → A → Prop} {s m : S}
    {first rest : List A} (ran : run step s first = some m) (obeys : Obeys step guard s first)
    (later : Obeys step guard m rest) : Obeys step guard s (first ++ rest) := by
  induction first generalizing s with
  | nil =>
    have same : s = m := Option.some.inj ran
    exact same ▸ later
  | cons a first ih =>
    obtain ⟨n, hn, reached⟩ := run_cons.mp ran
    obtain ⟨guarded, kept⟩ := (obeys_cons hn).mp obeys
    exact (obeys_cons hn).mpr ⟨guarded, ih reached kept⟩

/-- A matching run for every guarded step gives a matching run for every guarded run. -/
theorem simulates {step : S → A → Option S} {step' : T → B → Option T} {guard : S → A → Prop}
    {R : S → T → Prop} {see : A → Option O} {see' : B → Option O}
    (matched : ∀ s t a s', R s t → guard s a → step s a = some s' →
      ∃ acts t', run step' t acts = some t' ∧ R s' t' ∧ acts.filterMap see' = (see a).toList)
    {s s' : S} {t : T} {acts : List A} (related : R s t) (obeys : Obeys step guard s acts)
    (ran : run step s acts = some s') :
    ∃ acts' t', run step' t acts' = some t' ∧ R s' t' ∧
      acts'.filterMap see' = acts.filterMap see := by
  induction acts generalizing s t with
  | nil =>
    have same : s = s' := Option.some.inj ran
    exact ⟨[], t, rfl, same ▸ related, rfl⟩
  | cons a rest ih =>
    rw [run_cons] at ran
    obtain ⟨m, hm, hrest⟩ := ran
    obtain ⟨guarded, later⟩ := (obeys_cons hm).mp obeys
    obtain ⟨first, n, reached, relatedNow, seenNow⟩ := matched s t a m related guarded hm
    obtain ⟨others, t', ended, relatedLater, seenLater⟩ := ih relatedNow later hrest
    refine ⟨first ++ others, t', run_append.mpr ⟨n, reached, ended⟩, relatedLater, ?_⟩
    rw [List.filterMap_append, seenNow, seenLater, List.filterMap_cons]
    cases see a <;> rfl

/-- Matching runs that obey a guard of their own. -/
theorem simulates_obeying {step : S → A → Option S} {step' : T → B → Option T}
    {guard : S → A → Prop} {guard' : T → B → Prop} {R : S → T → Prop}
    (matched : ∀ s t a s', R s t → guard s a → step s a = some s' →
      ∃ acts t', run step' t acts = some t' ∧ Obeys step' guard' t acts ∧ R s' t')
    {s s' : S} {t : T} {acts : List A} (related : R s t) (obeys : Obeys step guard s acts)
    (ran : run step s acts = some s') :
    ∃ acts' t', run step' t acts' = some t' ∧ Obeys step' guard' t acts' ∧ R s' t' := by
  induction acts generalizing s t with
  | nil =>
    have same : s = s' := Option.some.inj ran
    exact ⟨[], t, rfl, trivial, same ▸ related⟩
  | cons a rest ih =>
    rw [run_cons] at ran
    obtain ⟨m, hm, hrest⟩ := ran
    obtain ⟨guarded, later⟩ := (obeys_cons hm).mp obeys
    obtain ⟨first, n, reached, kept, relatedNow⟩ := matched s t a m related guarded hm
    obtain ⟨others, t', ended, keptLater, relatedLater⟩ := ih relatedNow later hrest
    refine ⟨first ++ others, t', run_append.mpr ⟨n, reached, ended⟩, ?_, relatedLater⟩
    exact obeys_append reached kept keptLater

end Replay

/-- The first list is the second one without some entries that meet the condition. -/
inductive Thinned {A : Type*} (dropped : A → Prop) : List A → List A → Prop
  | nil : Thinned dropped [] []
  | keep (x : A) {short long : List A} (rest : Thinned dropped short long) :
    Thinned dropped (x :: short) (x :: long)
  | skip {x : A} {short long : List A} (gone : dropped x) (rest : Thinned dropped short long) :
    Thinned dropped short (x :: long)

namespace Thinned

variable {A B : Type*} {dropped : A → Prop} {short long : List A}

theorem refl (dropped : A → Prop) (l : List A) : Thinned dropped l l := by
  induction l with
  | nil => exact .nil
  | cons x rest ih => exact .keep x ih

theorem sublist (thinned : Thinned dropped short long) : short.Sublist long := by
  induction thinned with
  | nil => exact .slnil
  | keep x _ ih => exact ih.cons_cons x
  | skip _ _ ih => exact ih.cons _

theorem mem_or_dropped (thinned : Thinned dropped short long) {x : A} (mem : x ∈ long) :
    x ∈ short ∨ dropped x := by
  induction thinned with
  | nil => cases mem
  | keep y _ ih =>
    rcases List.mem_cons.mp mem with rfl | later
    · exact Or.inl List.mem_cons_self
    · exact (ih later).imp_left (List.mem_cons_of_mem y)
  | skip gone _ ih =>
    rcases List.mem_cons.mp mem with rfl | later
    · exact Or.inr gone
    · exact ih later

/-- In a list without duplicates the lost entries are those that the short list lacks. -/
theorem of_sublist (sublist : short.Sublist long) (nodup : long.Nodup)
    (lost : ∀ x ∈ long, x ∉ short → dropped x) : Thinned dropped short long := by
  induction sublist with
  | slnil => exact .nil
  | @cons short long x sub ih =>
    obtain ⟨apart, rest⟩ := List.nodup_cons.mp nodup
    refine .skip (lost x List.mem_cons_self fun mem => apart (sub.subset mem)) (ih rest ?_)
    exact fun y mem => lost y (List.mem_cons_of_mem x mem)
  | @cons_cons short long x sub ih =>
    obtain ⟨apart, rest⟩ := List.nodup_cons.mp nodup
    refine .keep x (ih rest fun y mem missing => lost y (List.mem_cons_of_mem x mem) ?_)
    intro found
    rcases List.mem_cons.mp found with rfl | found
    · exact apart mem
    · exact missing found

theorem mono {more : A → Prop} (thinned : Thinned dropped short long)
    (weaker : ∀ x ∈ long, dropped x → more x) : Thinned more short long := by
  induction thinned with
  | nil => exact .nil
  | keep x _ ih => exact .keep x (ih fun y mem => weaker y (List.mem_cons_of_mem x mem))
  | skip gone _ ih =>
    exact .skip (weaker _ List.mem_cons_self gone)
      (ih fun y mem => weaker y (List.mem_cons_of_mem _ mem))

theorem append (thinned : Thinned dropped short long) (more : List A) :
    Thinned dropped (short ++ more) (long ++ more) := by
  induction thinned with
  | nil => exact refl dropped more
  | keep x _ ih => exact .keep x ih
  | skip gone _ ih => exact .skip gone ih

/-- The short list loses further entries. -/
theorem thin (thinned : Thinned dropped short long) {p : A → Bool}
    (lost : ∀ x ∈ short, p x = false → dropped x) : Thinned dropped (short.filter p) long := by
  induction thinned with
  | nil => exact .nil
  | keep x _ ih =>
    have tail := ih fun y mem => lost y (List.mem_cons_of_mem x mem)
    cases kept : p x with
    | true =>
      rw [List.filter_cons_of_pos kept]
      exact .keep x tail
    | false =>
      rw [List.filter_cons_of_neg (ne_true_of_eq_false kept)]
      exact .skip (lost x List.mem_cons_self kept) tail
  | skip gone _ ih => exact .skip gone (ih lost)

theorem map {droppedB : B → Prop} (f : A → B) (thinned : Thinned dropped short long)
    (still : ∀ x, dropped x → droppedB (f x)) :
    Thinned droppedB (short.map f) (long.map f) := by
  induction thinned with
  | nil => exact .nil
  | keep x _ ih => exact .keep (f x) ih
  | skip gone _ ih => exact .skip (still _ gone) ih

/-- Both lists lose the same entries. -/
theorem filter (p : A → Bool) (thinned : Thinned dropped short long) :
    Thinned dropped (short.filter p) (long.filter p) := by
  induction thinned with
  | nil => exact .nil
  | keep x _ ih =>
    cases kept : p x with
    | true =>
      rw [List.filter_cons_of_pos kept, List.filter_cons_of_pos kept]
      exact .keep x ih
    | false =>
      rw [List.filter_cons_of_neg (ne_true_of_eq_false kept),
        List.filter_cons_of_neg (ne_true_of_eq_false kept)]
      exact ih
  | @skip x _ _ gone _ ih =>
    cases kept : p x with
    | true =>
      rw [List.filter_cons_of_pos kept]
      exact .skip gone ih
    | false =>
      rw [List.filter_cons_of_neg (ne_true_of_eq_false kept)]
      exact ih

end Thinned
