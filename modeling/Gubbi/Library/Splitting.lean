import Mathlib.Data.List.Basic

/-!
# Splitting at a separator

A list is cut at every place where a separator of one or more letters is met, from
the left and without overlaps, as `str.split` does. Where single letters separate, that is
`List.splitOnP`.
-/

namespace Splitting

universe u
variable {α : Type u} [DecidableEq α]

/-- `skip` letters of a separator that was met are still to be passed. -/
def splitFrom (sep : List α) : Nat → List α → List (List α)
  | _, [] => [[]]
  | skip + 1, _ :: rest => splitFrom sep skip rest
  | 0, c :: rest =>
    if sep.isPrefixOf (c :: rest) then [] :: splitFrom sep (sep.length - 1) rest
    else (splitFrom sep 0 rest).modifyHead (c :: ·)

def split (sep text : List α) : List (List α) := splitFrom sep 0 text

variable {sep text front rest passed a b : List α} {c : α}

theorem splitFrom_length : splitFrom sep passed.length (passed ++ rest) = split sep rest := by
  induction passed with
  | nil => rfl
  | cons c passed ih => exact ih

theorem split_cons (h : ¬ sep <+: c :: rest) :
    split sep (c :: rest) = (split sep rest).modifyHead (c :: ·) := by
  rw [split, splitFrom, if_neg (mt List.isPrefixOf_iff_prefix.mp h), split]

theorem split_sep (nonempty : sep ≠ []) : split sep (sep ++ rest) = [] :: split sep rest := by
  cases sep with
  | nil => exact absurd rfl nonempty
  | cons c passed =>
    have met : ((c :: passed).isPrefixOf (c :: (passed ++ rest))) = true :=
      List.isPrefixOf_iff_prefix.mpr (List.prefix_append (c :: passed) rest)
    rw [split, List.cons_append, splitFrom, if_pos met]
    exact congrArg ([] :: ·) splitFrom_length

/-- The part before the first separator. -/
theorem split_append (nonempty : sep ≠ [])
    (first : ∀ tail, tail <:+ front → tail ≠ [] → ¬ sep <+: tail ++ (sep ++ rest)) :
    split sep (front ++ (sep ++ rest)) = front :: split sep rest := by
  induction front with
  | nil => exact split_sep nonempty
  | cons c front ih =>
    have here := first (c :: front) List.suffix_rfl (List.cons_ne_nil _ _)
    have later := ih fun tail h => first tail (h.trans (List.suffix_cons c front))
    rw [List.cons_append, split_cons (by simpa using here), later]
    rfl

theorem split_of_not_infix (absent : ¬ sep <:+: text) : split sep text = [text] := by
  induction text with
  | nil => rfl
  | cons c rest ih =>
    have here : ¬ sep <+: c :: rest := fun h => absent h.isInfix
    have later := ih fun h => absent (h.trans (List.suffix_cons c rest).isInfix)
    rw [split_cons here, later]
    rfl

theorem split_ne_nil (sep text : List α) : split sep text ≠ [] := by
  have each : ∀ skip, splitFrom sep skip text ≠ [] := by
    intro skip
    fun_induction splitFrom sep skip text with
    | case1 => exact List.cons_ne_nil _ _
    | case2 _ _ _ ih => exact ih
    | case3 => exact List.cons_ne_nil _ _
    | case4 c rest _ ih =>
      intro empty
      cases parts : splitFrom sep 0 rest with
      | nil => exact ih parts
      | cons part parts' =>
        rw [parts] at empty
        cases empty
  exact each 0

/-- The parts with the separator between them are the text. -/
theorem intercalate_split (nonempty : sep ≠ []) (text : List α) :
    sep.intercalate (split sep text) = text := by
  induction h : text.length using Nat.strongRecOn generalizing text with
  | ind n ih =>
    subst h
    cases text with
    | nil => rfl
    | cons c rest =>
      by_cases met : sep <+: c :: rest
      · obtain ⟨more, hmore⟩ := met
        have shorter : more.length < (c :: rest).length := by
          have := List.length_pos_iff.mpr nonempty
          rw [← hmore, List.length_append]
          omega
        have later := ih _ shorter more rfl
        rw [← hmore, split_sep nonempty]
        obtain ⟨part, parts, split⟩ := List.exists_cons_of_ne_nil (split_ne_nil sep more)
        rw [split] at later ⊢
        rw [List.intercalate_cons_cons, later]
        rfl
      · have later := ih _ (Nat.lt_succ_self _) rest rfl
        rw [split_cons met]
        obtain ⟨part, parts, split⟩ := List.exists_cons_of_ne_nil (split_ne_nil sep rest)
        rw [split] at later ⊢
        cases parts with
        | nil =>
          rw [List.intercalate_singleton] at later
          simp [later]
        | cons next parts =>
          rw [List.intercalate_cons_cons] at later
          rw [List.modifyHead_cons, List.intercalate_cons_cons, ← later]
          rfl

/-- Two parts come from the text with one separator between them. -/
theorem eq_append_of_split_pair (nonempty : sep ≠ []) (h : split sep text = [a, b]) :
    text = a ++ (sep ++ b) := by
  have whole := intercalate_split nonempty text
  rw [h, List.intercalate_cons_cons, List.intercalate_singleton, List.append_assoc] at whole
  exact whole.symm

section Letters
variable {α : Type u} {separates : α → Bool} {text piece : List α} {c : α}

/-- The pieces have the letters of the text that do not separate. -/
theorem mem_splitOnP :
    (∃ piece ∈ text.splitOnP separates, c ∈ piece) ↔ c ∈ text ∧ separates c = false := by
  induction text with
  | nil => simp
  | cons d rest ih =>
    rw [List.splitOnP_cons_eq_if_modifyHead]
    cases blank : separates d with
    | true =>
      have other : c = d → separates c = true := fun same => by rw [same, blank]
      rw [if_pos rfl, List.exists_mem_cons_iff, ih, List.mem_cons]
      constructor
      · rintro (nothing | found)
        · cases nothing
        · exact ⟨.inr found.1, found.2⟩
      · rintro ⟨same | mem, kept⟩
        · cases kept.symm.trans (other same)
        · exact .inr ⟨mem, kept⟩
    | false =>
      obtain ⟨first, others, pieces⟩ :=
        List.exists_cons_of_ne_nil (List.splitOnP_ne_nil separates rest)
      rw [pieces, List.exists_mem_cons_iff] at ih
      rw [if_neg Bool.false_ne_true, pieces, List.modifyHead_cons, List.exists_mem_cons_iff,
        List.mem_cons, List.mem_cons, or_assoc, ih, or_and_right]
      refine or_congr_left ⟨fun same => ⟨same, by rw [same, blank]⟩, And.left⟩

/-- The first piece starts the text, and every piece is a part of it. -/
theorem splitOnP_within (text : List α) : (∀ piece, (text.splitOnP separates).head? = some piece →
    piece <+: text) ∧ ∀ piece ∈ text.splitOnP separates, piece <:+: text := by
  induction text with
  | nil =>
    rw [List.splitOnP_nil]
    exact ⟨fun piece head => Option.some.inj head ▸ List.prefix_rfl,
      fun piece mem => List.mem_singleton.mp mem ▸ List.infix_rfl⟩
  | cons d rest ih =>
    obtain ⟨first, others, pieces⟩ :=
      List.exists_cons_of_ne_nil (List.splitOnP_ne_nil separates rest)
    rw [pieces, List.forall_mem_cons] at ih
    have later : ∀ piece ∈ others, piece <:+: d :: rest :=
      fun piece mem => (ih.2.2 piece mem).trans (List.suffix_cons d rest).isInfix
    rw [List.splitOnP_cons_eq_if_modifyHead, pieces]
    split
    · constructor
      · exact fun piece head => Option.some.inj head ▸ List.nil_prefix
      · refine List.forall_mem_cons.mpr ⟨List.nil_infix, List.forall_mem_cons.mpr ⟨?_, later⟩⟩
        exact ih.2.1.trans (List.suffix_cons d rest).isInfix
    · have start : d :: first <+: d :: rest := List.prefix_cons_inj d |>.mpr (ih.1 first rfl)
      constructor
      · exact fun piece head => Option.some.inj head ▸ start
      · exact List.forall_mem_cons.mpr ⟨start.isInfix, later⟩

end Letters

end Splitting
