import Mathlib.Data.List.Chain

/-!
# Words joined by a separator

The texts of `w+(sw+)*`: nonempty words over a class of letters with one separator between
two of them. They are the texts over letters and separator that start and end in a letter and
have no two separators in a row. Such rows are what is left out when each run of other letters
is replaced by one separator.
-/

namespace Words

universe u
variable {α : Type u}

/-- `w+(sw+)*`. -/
inductive Joined (word : α → Bool) (sep : α) : List α → Prop
  | last {c : α} (hc : word c = true) : Joined word sep [c]
  | next {c : α} {rest : List α} (hc : word c = true) (more : Joined word sep rest) :
      Joined word sep (c :: rest)
  | gap {c : α} {rest : List α} (hc : word c = true) (more : Joined word sep rest) :
      Joined word sep (c :: sep :: rest)

/-- No two separators in a row. -/
def NoDouble (sep : α) (text : List α) : Prop := text.IsChain (fun a b => a = sep → b ≠ sep)

section Joined
variable {word : α → Bool} {sep c : α} {text rest : List α}

theorem Joined.ne_nil (h : Joined word sep text) : text ≠ [] := by
  cases h <;> exact List.cons_ne_nil _ _

theorem Joined.head (h : Joined word sep (c :: rest)) : word c = true := by
  cases h with
  | last hc => exact hc
  | next hc _ => exact hc
  | gap hc _ => exact hc

theorem Joined.mem (h : Joined word sep text) : ∀ c ∈ text, word c = true ∨ c = sep := by
  induction h with
  | last hc =>
    intro c mem
    rw [List.mem_singleton.mp mem]
    exact Or.inl hc
  | next hc _ ih => exact List.forall_mem_cons.mpr ⟨Or.inl hc, ih⟩
  | gap hc _ ih =>
    exact List.forall_mem_cons.mpr ⟨Or.inl hc, List.forall_mem_cons.mpr ⟨Or.inr rfl, ih⟩⟩

theorem Joined.getLast (h : Joined word sep text) :
    ∀ c, text.getLast? = some c → word c = true := by
  induction h with
  | last hc =>
    intro c last
    cases last
    exact hc
  | next hc more ih =>
    intro c last
    obtain ⟨d, tail, rfl⟩ := List.exists_cons_of_ne_nil more.ne_nil
    exact ih c (by simpa using last)
  | gap hc more ih =>
    intro c last
    obtain ⟨d, tail, rfl⟩ := List.exists_cons_of_ne_nil more.ne_nil
    exact ih c (by simpa using last)

/-- The same texts, told by their ends and their pairs. -/
theorem joined_of_noDouble : ∀ {text : List α}, text ≠ [] →
    (∀ c ∈ text, word c = true ∨ c = sep) → NoDouble sep text →
    (∀ c, text.head? = some c → c ≠ sep) → (∀ c, text.getLast? = some c → c ≠ sep) →
    Joined word sep text
  | [], nonempty, _, _, _, _ => absurd rfl nonempty
  | [c], _, all, _, first, _ =>
    .last ((all c List.mem_cons_self).resolve_right (first c rfl))
  | c :: d :: rest, _, all, chain, first, last => by
    have hc := (all c List.mem_cons_self).resolve_right (first c rfl)
    have chain' := (List.isChain_cons_cons.mp chain).2
    have all' : ∀ e ∈ d :: rest, word e = true ∨ e = sep :=
      fun e mem => all e (List.mem_cons_of_mem _ mem)
    by_cases separator : d = sep
    · cases rest with
      | nil => exact absurd separator (last d rfl)
      | cons e more =>
        obtain ⟨pair, chain''⟩ := List.isChain_cons_cons.mp chain'
        rw [separator]
        refine .gap hc (joined_of_noDouble (List.cons_ne_nil _ _)
          (fun f mem => all' f (List.mem_cons_of_mem _ mem)) chain'' ?_ ?_)
        · intro f head
          cases head
          exact pair separator
        · intro f hf
          exact last f (by simpa using hf)
    · refine .next hc (joined_of_noDouble (List.cons_ne_nil _ _) all' chain' ?_ ?_)
      · intro e head
        cases head
        exact separator
      · intro e he
        exact last e (by simpa using he)

theorem Joined.noDouble (hsep : word sep = false) (h : Joined word sep text) :
    NoDouble sep text := by
  have other : ∀ {c}, word c = true → c ≠ sep := by
    rintro c hc rfl
    rw [hsep] at hc
    cases hc
  induction h with
  | last hc => exact .singleton _
  | next hc _ ih => exact List.isChain_cons.mpr ⟨fun _ _ same => absurd same (other hc), ih⟩
  | gap hc more ih =>
    refine List.isChain_cons_cons.mpr ⟨fun same => absurd same (other hc), ?_⟩
    refine List.isChain_cons.mpr ⟨fun d head _ => ?_, ih⟩
    obtain ⟨rest, rfl⟩ := List.head?_eq_some_iff.mp head
    exact other more.head

end Joined

/-- Each run of letters outside the class becomes one separator, at its end. -/
def replaceRuns (keep : α → Bool) (sep : α) : List α → List α
  | [] => []
  | c :: rest =>
    if keep c then c :: replaceRuns keep sep rest
    else if rest.head?.all keep then sep :: replaceRuns keep sep rest
    else replaceRuns keep sep rest

section Runs
variable {keep : α → Bool} {sep c : α} {text : List α}

theorem forall_mem_replaceRuns (text : List α) :
    ∀ c ∈ replaceRuns keep sep text, keep c = true ∨ c = sep := by
  fun_induction replaceRuns keep sep text with
  | case1 => exact fun c mem => absurd mem List.not_mem_nil
  | case2 c rest hc ih => exact List.forall_mem_cons.mpr ⟨Or.inl hc, ih⟩
  | case3 c rest hc ended ih => exact List.forall_mem_cons.mpr ⟨Or.inr rfl, ih⟩
  | case4 c rest hc going ih => exact ih

theorem mem_replaceRuns (hsep : keep sep = false) (hc : keep c = true) :
    c ∈ replaceRuns keep sep text ↔ c ∈ text := by
  have other : ∀ {d}, ¬ keep d = true → c ≠ d := by
    rintro d hd rfl
    exact hd hc
  have differs : c ≠ sep := other (Bool.eq_false_iff.mp hsep)
  fun_induction replaceRuns keep sep text with
  | case1 => rfl
  | case2 d rest hd ih =>
    rw [List.mem_cons, List.mem_cons]
    exact or_congr_right ih
  | case3 d rest hd ended ih =>
    rw [List.mem_cons, List.mem_cons, or_iff_right differs, or_iff_right (other hd)]
    exact ih
  | case4 d rest hd going ih =>
    rw [List.mem_cons, or_iff_right (other hd)]
    exact ih

/-- A text that starts with a kept letter still does. -/
theorem head_replaceRuns (kept : text.head?.all keep = true) :
    (replaceRuns keep sep text).head? = text.head? := by
  cases text with
  | nil => rfl
  | cons c rest =>
    rw [List.head?_cons, Option.all_some] at kept
    rw [replaceRuns, if_pos kept, List.head?_cons, List.head?_cons]

/-- A text that starts with another letter starts with a separator then. -/
theorem head_replaceRuns_of_other (other : text.head?.all keep = false) :
    (replaceRuns keep sep text).head? = some sep := by
  fun_induction replaceRuns keep sep text with
  | case1 => cases other
  | case2 c rest hc ih =>
    rw [List.head?_cons, Option.all_some, hc] at other
    cases other
  | case3 c rest hc ended ih => rfl
  | case4 c rest hc going ih => exact ih (Bool.eq_false_iff.mpr going)

theorem noDouble_replaceRuns (hsep : keep sep = false) (text : List α) :
    NoDouble sep (replaceRuns keep sep text) := by
  have other : ∀ {c}, keep c = true → c ≠ sep := by
    rintro c hc rfl
    rw [hsep] at hc
    cases hc
  fun_induction replaceRuns keep sep text with
  | case1 => exact .nil
  | case2 c rest hc ih =>
    exact List.isChain_cons.mpr ⟨fun _ _ same => absurd same (other hc), ih⟩
  | case3 c rest hc ended ih =>
    refine List.isChain_cons.mpr ⟨fun d head _ => ?_, ih⟩
    have first : rest.head? = some d := (head_replaceRuns ended).symm.trans head
    rw [first, Option.all_some] at ended
    exact other ended
  | case4 c rest hc going ih => exact ih

/-- Single separators are runs already. -/
theorem replaceRuns_of_noDouble (all : ∀ c ∈ text, keep c = true ∨ c = sep)
    (single : NoDouble sep text) : replaceRuns keep sep text = text := by
  fun_induction replaceRuns keep sep text with
  | case1 => rfl
  | case2 c rest hc ih =>
    rw [ih (fun d mem => all d (List.mem_cons_of_mem c mem)) (List.isChain_cons.mp single).2]
  | case3 c rest hc ended ih =>
    have same : c = sep := (all c List.mem_cons_self).resolve_left hc
    rw [ih (fun d mem => all d (List.mem_cons_of_mem c mem)) (List.isChain_cons.mp single).2, same]
  | case4 c rest hc going ih =>
    -- a second separator would follow the first
    have same : c = sep := (all c List.mem_cons_self).resolve_left hc
    cases rest with
    | nil => exact absurd rfl going
    | cons d rest =>
      rw [List.head?_cons, Option.all_some] at going
      have next : d = sep := (all d (List.mem_cons_of_mem c List.mem_cons_self)).resolve_left going
      exact absurd next ((List.isChain_cons_cons.mp single).1 same)

end Runs

end Words
