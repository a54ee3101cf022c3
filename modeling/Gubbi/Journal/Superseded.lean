import Gubbi.Journal.Archives
import Mathlib.Data.List.Induction

/-!
# Removal of superseded archives

Each published file should be taken away by the save that replaces it. A save
takes away the file that its early read saw, and replaces the file that the row
has at its commit. Where these differ, two published files of one conversation
are nobody's target, and no later save makes up for it: it targets one file and
publishes one.
-/

namespace Archives

open Text Validation JournalConversations

/-- Some committed save has the file as its `superseded_json_path`. -/
def Targeted (s : State) (fileId : FileId) : Prop :=
  ∃ id save, s.saves.get id = some save ∧ save.phase.superseded = some (jsonPath fileId)

/-- Every save has returned from its caller or rolled back. -/
def State.finished (s : State) : Bool := s.saves.rows.all (fun row => row.2.phase.over)

/-- Every path that a committed row had at some point of the run and that no row
has at its end names a file that is gone. -/
def Removed (acts : List Action) (s : State) : Prop :=
  ∀ first rest m key path, acts = first ++ rest → Replay.run step initial first = some m →
    m.jsonPathAt key = some path → (∀ other, s.jsonPathAt other ≠ some path) →
    s.files.get (pathName path) = none

/-- At its commit, the row has the path that the save read before. -/
def readsCurrent (s : State) : Action → Bool
  | .commit id =>
    (s.saves.get id).all (fun save => s.jsonPathAt save.key = save.oldJsonPath)
  | _ => true

/-- Nothing changes about which files are published, in a row, or a target. -/
structure Calm (s t : State) : Prop where
  published : ∀ {key fileId}, Published t key fileId ↔ Published s key fileId
  targeted : ∀ {fileId}, Targeted t fileId ↔ Targeted s fileId
  jsonPathAt : ∀ key, t.jsonPathAt key = s.jsonPathAt key

theorem superseded_of_uncommitted {phase : Phase} (uncommitted : phase.published = false) :
    phase.superseded = none := by
  cases phase with
  | preRead => rfl
  | archived => rfl
  | upserted isUpdate => rfl
  | committed superseded => cases uncommitted
  | returned superseded => cases uncommitted
  | rolledBack => rfl

section Calmness
variable {s t : State} {id : SaveId} {save : Save} {phase : Phase}

theorem Moved.calm (moved : Moved s t id save phase) (rows : t.rows = s.rows)
    (published : phase.published = save.phase.published)
    (superseded : phase.superseded = save.phase.superseded) : Calm s t := by
  constructor
  · intro key fileId
    constructor
    · rintro ⟨a, A, hA, hphase, hkey, hfile⟩
      rcases moved.origin hA with ⟨rfl, rfl⟩ | ⟨_, oldA⟩
      · exact ⟨a, save, moved.1, published.symm.trans hphase, hkey, hfile⟩
      · exact ⟨a, A, oldA, hphase, hkey, hfile⟩
    · exact moved.published (fun was => published.trans was)
  · intro fileId
    constructor
    · rintro ⟨a, A, hA, target⟩
      rcases moved.origin hA with ⟨rfl, rfl⟩ | ⟨_, oldA⟩
      · exact ⟨a, save, moved.1, superseded.symm.trans target⟩
      · exact ⟨a, A, oldA, target⟩
    · rintro ⟨a, A, hA, target⟩
      by_cases ha : a = id
      · subst ha
        have same : save = A := Option.some.inj (moved.1.symm.trans hA)
        subst same
        exact ⟨a, save.at phase, moved.self, superseded.trans target⟩
      · exact ⟨a, A, (moved.other ha).trans hA, target⟩
  · intro key
    rw [State.jsonPathAt, State.jsonPathAt, rows]

theorem calm_preRead {topicId : TopicId} {title : PyStr} {messages : List Message}
    {fileId : FileId} (unused : s.saves.get id = none) :
    Calm s (s.preRead id topicId title messages fileId) := by
  have old : ∀ {a A}, s.saves.get a = some A →
      (s.preRead id topicId title messages fileId).saves.get a = some A :=
    Table.get_put_of_absent _ unused
  constructor
  · intro key file
    constructor
    · rintro ⟨a, A, hA, hphase, rest⟩
      rcases Table.get_put_eq_some hA with ⟨rfl, rfl⟩ | ⟨_, oldA⟩
      · cases hphase
      · exact ⟨a, A, oldA, hphase, rest⟩
    · rintro ⟨a, A, hA, rest⟩
      exact ⟨a, A, old hA, rest⟩
  · intro file
    constructor
    · rintro ⟨a, A, hA, target⟩
      rcases Table.get_put_eq_some hA with ⟨rfl, rfl⟩ | ⟨_, oldA⟩
      · cases target
      · exact ⟨a, A, oldA, target⟩
    · rintro ⟨a, A, hA, target⟩
      exact ⟨a, A, old hA, target⟩
  · exact fun _ => rfl

/-- The step is a commit, or none of the three relations notices it. -/
theorem calm_or_commit {action : Action} (enabled : step s action = some t) :
    Calm s t ∨ ∃ id save isUpdate, action = .commit id ∧ s.saves.get id = some save ∧
      save.phase = .upserted isUpdate ∧ t = s.commit id save isUpdate := by
  cases action with
  | preRead id topicId title messages fileId =>
    obtain ⟨⟨unused, _⟩, rfl⟩ := step_preRead.mp enabled
    exact Or.inl (calm_preRead unused)
  | writeJson id =>
    obtain ⟨save, hsave, hphase, rfl⟩ := step_writeJson.mp enabled
    have moved : Moved s (s.writeJson id save) id save .archived := ⟨hsave, rfl⟩
    exact Or.inl (moved.calm rfl (by rw [hphase]; rfl) (by rw [hphase]; rfl))
  | upsert id =>
    obtain ⟨save, hsave, ⟨hphase, _⟩, rfl⟩ := step_upsert.mp enabled
    refine Or.inl (Moved.calm ⟨hsave, rfl⟩ rfl ?_ ?_)
    · rw [hphase]
      rfl
    · rw [hphase]
      rfl
  | commit id =>
    obtain ⟨save, isUpdate, hsave, hphase, rfl⟩ := step_commit enabled
    exact Or.inr ⟨id, save, isUpdate, rfl, hsave, hphase, rfl⟩
  | rollback id =>
    obtain ⟨save, hsave, ⟨uncommitted, _⟩, rfl⟩ := step_rollback.mp enabled
    refine Or.inl (Moved.calm ⟨hsave, rfl⟩ rfl ?_ ?_)
    · exact uncommitted.symm
    · exact (superseded_of_uncommitted uncommitted).symm
  | deleteSuperseded id =>
    obtain ⟨save, superseded, hsave, hphase, rfl⟩ := step_deleteSuperseded enabled
    have moved : Moved s (s.deleteSuperseded id save superseded) id save
        (.returned superseded) := ⟨hsave, rfl⟩
    exact Or.inl (moved.calm rfl (by rw [hphase]; rfl) (by rw [hphase]; rfl))

end Calmness

section Commit
variable {s : State} {id : SaveId} {save : Save} {isUpdate : Bool}

theorem moved_commit (isUpdate : Bool) (hsave : s.saves.get id = some save) :
    Moved s (s.commit id save isUpdate) id save (.committed (supersededJsonPath isUpdate
      save.oldJsonPath (jsonPath save.fileId))) :=
  ⟨hsave, rfl⟩

theorem uncommitted_of_upserted (hphase : save.phase = .upserted isUpdate) :
    save.phase.published = false := by
  rw [hphase]
  rfl

theorem published_commit (hsave : s.saves.get id = some save) {key : Key} {fileId : FileId} :
    Published (s.commit id save isUpdate) key fileId ↔
      Published s key fileId ∨ (key = save.key ∧ fileId = save.fileId) := by
  have moved := moved_commit isUpdate hsave
  constructor
  · rintro ⟨a, A, hA, published, hkey, hfile⟩
    rcases moved.origin hA with ⟨rfl, rfl⟩ | ⟨_, oldA⟩
    · exact Or.inr ⟨hkey.symm, hfile.symm⟩
    · exact Or.inl ⟨a, A, oldA, published, hkey, hfile⟩
  · rintro (was | ⟨rfl, rfl⟩)
    · exact moved.published (fun _ => rfl) was
    · exact ⟨id, _, moved.self, rfl, rfl, rfl⟩

theorem targeted_commit (hsave : s.saves.get id = some save)
    (hphase : save.phase = .upserted isUpdate) {fileId : FileId} :
    Targeted (s.commit id save isUpdate) fileId ↔ Targeted s fileId ∨
      supersededJsonPath isUpdate save.oldJsonPath (jsonPath save.fileId) =
        some (jsonPath fileId) := by
  have moved := moved_commit isUpdate hsave
  constructor
  · rintro ⟨a, A, hA, target⟩
    rcases moved.origin hA with ⟨rfl, rfl⟩ | ⟨_, oldA⟩
    · exact Or.inr target
    · exact Or.inl ⟨a, A, oldA, target⟩
  · rintro (⟨a, A, hA, target⟩ | target)
    · have hne : a ≠ id := by
        rintro rfl
        have same : save = A := Option.some.inj (hsave.symm.trans hA)
        subst same
        rw [hphase] at target
        cases target
      exact ⟨a, A, (moved.other hne).trans hA, target⟩
    · exact ⟨id, _, moved.self, target⟩

end Commit

/-- Upserts of one key exclude each other until the end of the transaction, so
what an upsert found is still there at the commit. -/
structure Locking (s : State) : Prop where
  oneLock : ∀ {a b A B}, s.saves.get a = some A → s.saves.get b = some B →
    A.phase.locks = true → B.phase.locks = true → A.key = B.key → a = b
  found : ∀ {id save isUpdate}, s.saves.get id = some save →
    save.phase = .upserted isUpdate → isUpdate = (s.rows.get save.key).isSome

theorem locks_of_upserted {phase : Phase} {isUpdate : Bool} (h : phase = .upserted isUpdate) :
    phase.locks = true := by
  rw [h]
  rfl

theorem Locking.initial : Locking initial where
  oneLock := fun hA => by cases hA
  found := fun hsave => by cases hsave

section Locks
variable {s t : State} {id : SaveId} {save : Save} {phase : Phase}

theorem Locking.preRead (locking : Locking s) {topicId : TopicId} {title : PyStr}
    {messages : List Message} {fileId : FileId} :
    Locking (s.preRead id topicId title messages fileId) := by
  constructor
  · intro a b A B hA hB locksA locksB hkey
    rcases Table.get_put_eq_some hA with ⟨_, rfl⟩ | ⟨_, oldA⟩
    · cases locksA
    · rcases Table.get_put_eq_some hB with ⟨_, rfl⟩ | ⟨_, oldB⟩
      · cases locksB
      · exact locking.oneLock oldA oldB locksA locksB hkey
  · intro a A isUpdate hA hphase
    rcases Table.get_put_eq_some hA with ⟨_, rfl⟩ | ⟨_, oldA⟩
    · cases hphase
    · exact locking.found oldA hphase

/-- A save that holds no lock afterwards leaves those of the others. -/
theorem Locking.release (locking : Locking s) (moved : Moved s t id save phase)
    (unlocked : phase.locks = false)
    (rows : ∀ a A, a ≠ id → s.saves.get a = some A → A.phase.locks = true →
      t.rows.get A.key = s.rows.get A.key) : Locking t := by
  have stale : ∀ {a A}, t.saves.get a = some A → A.phase.locks = true →
      a ≠ id ∧ s.saves.get a = some A := by
    intro a A hA locks
    rcases moved.origin hA with ⟨_, rfl⟩ | old
    · rw [Save.at, unlocked] at locks
      cases locks
    · exact old
  constructor
  · intro a b A B hA hB locksA locksB hkey
    exact locking.oneLock (stale hA locksA).2 (stale hB locksB).2 locksA locksB hkey
  · intro a A isUpdate hA hphase
    have locks := locks_of_upserted hphase
    obtain ⟨hne, oldA⟩ := stale hA locks
    rw [rows a A hne oldA locks]
    exact locking.found oldA hphase

theorem Locking.upsert (locking : Locking s) (hsave : s.saves.get id = some save)
    (free : s.locked save.key = false) :
    Locking (s.move id save (.upserted (s.rows.get save.key).isSome)) := by
  have moved : Moved s (s.move id save (.upserted (s.rows.get save.key).isSome)) id save
      (.upserted (s.rows.get save.key).isSome) := ⟨hsave, rfl⟩
  constructor
  · intro a b A B hA hB locksA locksB hkey
    rcases moved.origin hA with ⟨rfl, rfl⟩ | ⟨_, oldA⟩
    · rcases moved.origin hB with ⟨rfl, _⟩ | ⟨_, oldB⟩
      · rfl
      · exact absurd hkey.symm (not_locked free oldB locksB)
    · rcases moved.origin hB with ⟨rfl, rfl⟩ | ⟨_, oldB⟩
      · exact absurd hkey (not_locked free oldA locksA)
      · exact locking.oneLock oldA oldB locksA locksB hkey
  · intro a A isUpdate hA hphase
    rcases moved.origin hA with ⟨rfl, rfl⟩ | ⟨_, oldA⟩
    · cases hphase
      rfl
    · exact locking.found oldA hphase

theorem Locking.commit (locking : Locking s) {isUpdate : Bool}
    (hsave : s.saves.get id = some save) (hphase : save.phase = .upserted isUpdate) :
    Locking (s.commit id save isUpdate) := by
  refine locking.release (moved_commit isUpdate hsave) rfl ?_
  intro a A hne hA locks
  refine Table.get_put_ne _ _ ?_
  intro hkey
  exact hne (locking.oneLock hA hsave locks (locks_of_upserted hphase) hkey)

theorem Locking.step (locking : Locking s) {action : Action}
    (enabled : step s action = some t) : Locking t := by
  cases action with
  | preRead id topicId title messages fileId =>
    obtain ⟨_, rfl⟩ := step_preRead.mp enabled
    exact locking.preRead
  | writeJson id =>
    obtain ⟨save, hsave, _, rfl⟩ := step_writeJson.mp enabled
    have moved : Moved s (s.writeJson id save) id save .archived := ⟨hsave, rfl⟩
    exact locking.release moved rfl (fun _ _ _ _ _ => rfl)
  | upsert id =>
    obtain ⟨save, hsave, ⟨_, free⟩, rfl⟩ := step_upsert.mp enabled
    exact locking.upsert hsave free
  | commit id =>
    obtain ⟨save, isUpdate, hsave, hphase, rfl⟩ := step_commit enabled
    exact locking.commit hsave hphase
  | rollback id =>
    obtain ⟨save, hsave, _, rfl⟩ := step_rollback.mp enabled
    have moved : Moved s (s.move id save .rolledBack) id save .rolledBack := ⟨hsave, rfl⟩
    exact locking.release moved rfl (fun _ _ _ _ _ => rfl)
  | deleteSuperseded id =>
    obtain ⟨save, superseded, hsave, _, rfl⟩ := step_deleteSuperseded enabled
    have moved : Moved s (s.deleteSuperseded id save superseded) id save
        (.returned superseded) := ⟨hsave, rfl⟩
    exact locking.release moved rfl (fun _ _ _ _ _ => rfl)

end Locks

/-- A published file is gone only when it was a target, and the target of a save
that has returned is gone. -/
structure Filed (s : State) : Prop where
  row : ∀ {key fileId}, Published s key fileId → s.jsonPathAt key ≠ none
  swept : ∀ {id save path}, s.saves.get id = some save →
    save.phase = .returned (some path) → s.files.get (pathName path) = none
  kept : ∀ {key fileId}, Published s key fileId → s.files.get (fileName fileId) = none →
    Targeted s fileId

theorem Filed.initial : Filed initial where
  row := by
    rintro _ _ ⟨_, _, hsave, _⟩
    cases hsave
  swept := fun hsave => by cases hsave
  kept := by
    rintro _ _ ⟨_, _, hsave, _⟩
    cases hsave

section Filing
variable {s t : State} {id : SaveId} {save : Save} {phase : Phase}

theorem Filed.calm (filed : Filed s) (calm : Calm s t)
    (swept : ∀ {a A path}, t.saves.get a = some A → A.phase = .returned (some path) →
      t.files.get (pathName path) = none)
    (kept : ∀ {key fileId}, Published s key fileId → t.files.get (fileName fileId) = none →
      s.files.get (fileName fileId) = none ∨ Targeted s fileId) : Filed t where
  row := by
    intro key fileId published
    rw [calm.jsonPathAt]
    exact filed.row (calm.published.mp published)
  swept := swept
  kept := by
    intro key fileId published gone
    have published := calm.published.mp published
    rcases kept published gone with gone | targeted
    · exact calm.targeted.mpr (filed.kept published gone)
    · exact calm.targeted.mpr targeted

/-- A step that touches no file and returns to no caller. -/
theorem Filed.still (filed : Filed s) (moved : Moved s t id save phase) (calm : Calm s t)
    (files : t.files = s.files) (inside : ∀ path, phase ≠ .returned (some path)) : Filed t := by
  refine filed.calm calm ?_ ?_
  · intro a A path hA hphase
    rw [files]
    rcases moved.origin hA with ⟨_, rfl⟩ | ⟨_, oldA⟩
    · exact absurd hphase (inside path)
    · exact filed.swept oldA hphase
  · intro key fileId _ gone
    rw [files] at gone
    exact Or.inl gone

theorem Filed.preRead (filed : Filed s) {topicId : TopicId} {title : PyStr}
    {messages : List Message} {fileId : FileId} (unused : s.saves.get id = none) :
    Filed (s.preRead id topicId title messages fileId) := by
  refine filed.calm (calm_preRead unused) ?_ ?_
  · intro a A path hA hphase
    rcases Table.get_put_eq_some hA with ⟨_, rfl⟩ | ⟨_, oldA⟩
    · cases hphase
    · exact filed.swept oldA hphase
  · exact fun _ gone => Or.inl gone

theorem Filed.writeJson (sound : Sound s) (filed : Filed s) (hsave : s.saves.get id = some save)
    (hphase : save.phase = .preRead) : Filed (s.writeJson id save) := by
  have moved : Moved s (s.writeJson id save) id save .archived := ⟨hsave, rfl⟩
  have uncommitted : save.phase.published = false := by
    rw [hphase]
    rfl
  have spares : ∀ {key fileId}, Published s key fileId →
      (s.writeJson id save).files.get (fileName fileId) = s.files.get (fileName fileId) := by
    intro key fileId published
    have hne := sound.not_published hsave uncommitted published
    exact Table.get_put_ne _ _ (fun same => hne (fileName_injective same))
  refine filed.calm (moved.calm rfl uncommitted.symm ?_) ?_ ?_
  · exact (superseded_of_uncommitted uncommitted).symm
  · intro a A path hA hreturned
    rcases moved.origin hA with ⟨_, rfl⟩ | ⟨_, oldA⟩
    · cases hreturned
    · have target : A.phase.superseded = some path := by
        rw [hreturned]
        rfl
      obtain ⟨fileId, rfl, published⟩ := sound.read oldA (sound.superseded oldA target).1
      have gone := filed.swept oldA hreturned
      rw [pathName_jsonPath] at gone ⊢
      rw [spares published, gone]
  · intro key fileId published gone
    rw [spares published] at gone
    exact Or.inl gone

theorem Filed.deleteSuperseded (sound : Sound s) (filed : Filed s) {superseded : Option PyStr}
    (hsave : s.saves.get id = some save) (hphase : save.phase = .committed superseded) :
    Filed (s.deleteSuperseded id save superseded) := by
  have moved : Moved s (s.deleteSuperseded id save superseded) id save (.returned superseded) :=
    ⟨hsave, rfl⟩
  have target : save.phase.superseded = superseded := by
    rw [hphase]
    rfl
  refine filed.calm (moved.calm rfl (by rw [hphase]; rfl) target.symm) ?_ ?_
  · intro a A path hA hreturned
    have mine : superseded = some path → (s.deleteSuperseded id save superseded).files.get
        (pathName path) = none := by
      rintro rfl
      exact Table.get_erase_self _ _
    rcases moved.origin hA with ⟨_, rfl⟩ | ⟨_, oldA⟩
    · exact mine (Phase.returned.inj hreturned)
    · have gone := filed.swept oldA hreturned
      cases superseded with
      | none => exact gone
      | some other =>
        show (s.files.erase (pathName other)).get (pathName path) = none
        rw [Table.get_erase, gone, ite_self]
  · intro key fileId published gone
    cases superseded with
    | none => exact Or.inl gone
    | some path =>
      obtain ⟨other, rfl, _⟩ := sound.read hsave (sound.superseded hsave target).1
      by_cases same : fileId = other
      · subst same
        exact Or.inr ⟨id, save, hsave, target⟩
      · have gone : (s.files.erase (pathName (jsonPath other))).get (fileName fileId) = none := gone
        rw [pathName_jsonPath, Table.get_erase,
          if_neg (fun equal => same (fileName_injective equal))] at gone
        exact Or.inl gone

theorem Filed.commit (sound : Sound s) (filed : Filed s) {isUpdate : Bool}
    (hsave : s.saves.get id = some save) (hphase : save.phase = .upserted isUpdate) :
    Filed (s.commit id save isUpdate) := by
  have moved := moved_commit isUpdate hsave
  constructor
  · intro key fileId published
    rw [jsonPathAt_commit]
    rcases (published_commit hsave).mp published with was | ⟨rfl, _⟩
    · split
      · exact fun h => by cases h
      · exact filed.row was
    · rw [if_pos rfl]
      exact fun h => by cases h
  · intro a A path hA hreturned
    rcases moved.origin hA with ⟨_, rfl⟩ | ⟨_, oldA⟩
    · cases hreturned
    · exact filed.swept oldA hreturned
  · intro key fileId published gone
    refine (targeted_commit hsave hphase).mpr (Or.inl ?_)
    rcases (published_commit hsave).mp published with was | ⟨_, rfl⟩
    · exact filed.kept was gone
    · have there := sound.pending hsave (by rw [hphase]; rfl)
      have gone : s.files.get (fileName save.fileId) = none := gone
      rw [there] at gone
      cases gone

theorem Filed.step (sound : Sound s) (filed : Filed s) {action : Action}
    (enabled : step s action = some t) : Filed t := by
  cases action with
  | preRead id topicId title messages fileId =>
    obtain ⟨⟨unused, _⟩, rfl⟩ := step_preRead.mp enabled
    exact filed.preRead unused
  | writeJson id =>
    obtain ⟨save, hsave, hphase, rfl⟩ := step_writeJson.mp enabled
    exact Filed.writeJson sound filed hsave hphase
  | upsert id =>
    obtain ⟨save, hsave, ⟨hphase, _⟩, rfl⟩ := step_upsert.mp enabled
    refine filed.still ⟨hsave, rfl⟩ (Moved.calm ⟨hsave, rfl⟩ rfl ?_ ?_) rfl ?_
    · rw [hphase]
      rfl
    · rw [hphase]
      rfl
    · exact fun _ h => by cases h
  | commit id =>
    obtain ⟨save, isUpdate, hsave, hphase, rfl⟩ := step_commit enabled
    exact Filed.commit sound filed hsave hphase
  | rollback id =>
    obtain ⟨save, hsave, ⟨uncommitted, _⟩, rfl⟩ := step_rollback.mp enabled
    refine filed.still ⟨hsave, rfl⟩ (Moved.calm ⟨hsave, rfl⟩ rfl ?_ ?_) rfl ?_
    · exact uncommitted.symm
    · exact (superseded_of_uncommitted uncommitted).symm
    · exact fun _ h => by cases h
  | deleteSuperseded id =>
    obtain ⟨save, superseded, hsave, hphase, rfl⟩ := step_deleteSuperseded enabled
    exact Filed.deleteSuperseded sound filed hsave hphase

end Filing

/-- What every reachable state satisfies. -/
structure Consistent (s : State) : Prop where
  sound : Sound s
  locking : Locking s
  filed : Filed s

theorem Consistent.initial : Consistent initial := ⟨Sound.initial, Locking.initial, Filed.initial⟩

theorem Consistent.step {s t : State} (consistent : Consistent s) {action : Action}
    (enabled : step s action = some t) : Consistent t where
  sound := consistent.sound.step action enabled
  locking := consistent.locking.step enabled
  filed := Filed.step consistent.sound consistent.filed enabled

theorem consistent_of_run {s : State} {acts : List Action}
    (ran : Replay.run step initial acts = some s) : Consistent s :=
  Replay.run_invariant' (fun _ _ _ consistent => consistent.step) Consistent.initial ran

def Swept (s : State) : Prop :=
  ∀ key fileId, Published s key fileId →
    s.jsonPathAt key = some (jsonPath fileId) ∨ Targeted s fileId

/-- A commit whose read is current targets exactly the file it replaces. -/
theorem Swept.step {s t : State} (consistent : Consistent s) (swept : Swept s) {action : Action}
    (current : readsCurrent s action = true) (enabled : step s action = some t) : Swept t := by
  intro key fileId published
  rcases calm_or_commit enabled with calm | ⟨id, save, isUpdate, rfl, hsave, hphase, rfl⟩
  · rw [calm.jsonPathAt, calm.targeted]
    exact swept key fileId (calm.published.mp published)
  rw [jsonPathAt_commit, targeted_commit hsave hphase]
  rcases (published_commit hsave).mp published with was | ⟨rfl, rfl⟩
  · by_cases hkey : key = save.key
    · subst hkey
      rcases swept save.key fileId was with now | targeted
      · have hold : save.oldJsonPath = some (jsonPath fileId) := by
          simp only [readsCurrent, hsave, Option.all_some, decide_eq_true_eq] at current
          exact current.symm.trans now
        have hupdate : isUpdate = true := by
          rw [consistent.locking.found hsave hphase]
          obtain ⟨row, hrow, _⟩ := Option.bind_eq_some_iff.mp now
          rw [hrow, Option.isSome_some]
        have hne : jsonPath fileId ≠ jsonPath save.fileId := by
          intro same
          exact consistent.sound.not_published hsave (uncommitted_of_upserted hphase) was
            (jsonPath_injective same)
        exact Or.inr (Or.inr (supersededJsonPath_eq_some.mpr
          ⟨hupdate, hold, jsonPath_ne_nil fileId, hne⟩))
      · exact Or.inr (Or.inl targeted)
    · rw [if_neg hkey]
      rcases swept key fileId was with now | targeted
      · exact Or.inl now
      · exact Or.inr (Or.inl targeted)
  · exact Or.inl (if_pos rfl)

/-- Two published files of one conversation that nobody has as a target. -/
def LeftBehind (s : State) : Prop :=
  ∃ key f g, f ≠ g ∧ Published s key f ∧ Published s key g ∧ ¬ Targeted s f ∧ ¬ Targeted s g

section Stale
variable {s : State} {id : SaveId} {save : Save} {isUpdate : Bool}

/-- Nobody has read the path of a file that its commit has just published. -/
theorem untargeted_own (sound : Sound s) (hsave : s.saves.get id = some save)
    (hphase : save.phase = .upserted isUpdate) :
    ¬ Targeted (s.commit id save isUpdate) save.fileId := by
  intro targeted
  rcases (targeted_commit hsave hphase).mp targeted with ⟨a, A, hA, target⟩ | target
  · obtain ⟨fileId, same, published⟩ := sound.read hA (sound.superseded hA target).1
    exact sound.not_published hsave (uncommitted_of_upserted hphase) published
      (jsonPath_injective same).symm
  · exact (supersededJsonPath_eq_some.mp target).2.2.2 rfl

/-- The file in a row is nobody's target. -/
theorem untargeted_current (sound : Sound s) {key : Key} {fileId : FileId}
    (now : s.jsonPathAt key = some (jsonPath fileId)) : ¬ Targeted s fileId := by
  rintro ⟨a, A, hA, target⟩
  obtain ⟨hold, gone⟩ := sound.superseded hA target
  obtain ⟨other, same, published⟩ := sound.read hA hold
  obtain ⟨mine, same', published'⟩ := sound.jsonPathAt now
  have files : other = mine := jsonPath_injective (same.symm.trans same')
  subst files
  have keys := sound.published_key published published'
  subst keys
  exact gone now

theorem leftBehind_of_stale (consistent : Consistent s) (hsave : s.saves.get id = some save)
    (hphase : save.phase = .upserted isUpdate)
    (stale : s.jsonPathAt save.key ≠ save.oldJsonPath) :
    LeftBehind (s.commit id save isUpdate) := by
  have sound := consistent.sound
  cases hnow : s.jsonPathAt save.key with
  | none =>
    cases hold : save.oldJsonPath with
    | none => exact absurd (hnow.trans hold.symm) stale
    | some path =>
      obtain ⟨fileId, _, published⟩ := sound.read hsave hold
      exact absurd hnow (consistent.filed.row published)
  | some path =>
    obtain ⟨current, rfl, published⟩ := sound.jsonPathAt hnow
    have hne := sound.not_published hsave (uncommitted_of_upserted hphase) published
    refine ⟨save.key, current, save.fileId, hne, ?_, ?_, ?_, untargeted_own sound hsave hphase⟩
    · exact (published_commit hsave).mpr (Or.inl published)
    · exact (published_commit hsave).mpr (Or.inr ⟨rfl, rfl⟩)
    · intro targeted
      rcases (targeted_commit hsave hphase).mp targeted with was | target
      · exact untargeted_current sound hnow was
      · exact stale (hnow.trans (supersededJsonPath_eq_some.mp target).2.1.symm)

theorem stale_commit {t : State} {action : Action} (stale : ¬ readsCurrent s action = true)
    (enabled : step s action = some t) :
    ∃ id save isUpdate, s.saves.get id = some save ∧ save.phase = .upserted isUpdate ∧
      s.jsonPathAt save.key ≠ save.oldJsonPath ∧ t = s.commit id save isUpdate := by
  cases action with
  | commit id =>
    obtain ⟨save, isUpdate, hsave, hphase, rfl⟩ := step_commit enabled
    simp only [readsCurrent, hsave, Option.all_some, decide_eq_true_eq] at stale
    exact ⟨id, save, isUpdate, hsave, hphase, stale, rfl⟩
  | preRead id topicId title messages fileId => exact absurd rfl stale
  | writeJson id => exact absurd rfl stale
  | upsert id => exact absurd rfl stale
  | rollback id => exact absurd rfl stale
  | deleteSuperseded id => exact absurd rfl stale

/-- The commit may target one of the two files, and then publishes a third. -/
theorem LeftBehind.commit (sound : Sound s) (left : LeftBehind s)
    (hsave : s.saves.get id = some save) (hphase : save.phase = .upserted isUpdate) :
    LeftBehind (s.commit id save isUpdate) := by
  have kept : ∀ {key file}, Published s key file →
      Published (s.commit id save isUpdate) key file :=
    fun was => (published_commit hsave).mpr (Or.inl was)
  -- the target of this commit is one file of the key of this commit
  have replaced : ∀ {key file other}, Published s key file → Published s key other →
      other ≠ file → ¬ Targeted s other →
      supersededJsonPath isUpdate save.oldJsonPath (jsonPath save.fileId) =
        some (jsonPath file) → LeftBehind (s.commit id save isUpdate) := by
    intro key file other published published' hne untargeted target
    obtain ⟨_, hold, _, _⟩ := supersededJsonPath_eq_some.mp target
    obtain ⟨file', same, read⟩ := sound.read hsave hold
    have files := jsonPath_injective same
    subst files
    have keys := sound.published_key published read
    subst keys
    have own := sound.not_published hsave (uncommitted_of_upserted hphase) published'
    refine ⟨save.key, other, save.fileId, own, kept published', ?_, ?_,
      untargeted_own sound hsave hphase⟩
    · exact (published_commit hsave).mpr (Or.inr ⟨rfl, rfl⟩)
    · intro targeted
      rcases (targeted_commit hsave hphase).mp targeted with was | also
      · exact untargeted was
      · exact hne (jsonPath_injective (Option.some.inj (also.symm.trans target)))
  obtain ⟨key, f, g, hne, publishedF, publishedG, untargetedF, untargetedG⟩ := left
  by_cases targetF : Targeted (s.commit id save isUpdate) f
  · rcases (targeted_commit hsave hphase).mp targetF with was | target
    · exact absurd was untargetedF
    · exact replaced publishedF publishedG (Ne.symm hne) untargetedG target
  · by_cases targetG : Targeted (s.commit id save isUpdate) g
    · rcases (targeted_commit hsave hphase).mp targetG with was | target
      · exact absurd was untargetedG
      · exact replaced publishedG publishedF hne untargetedF target
    · exact ⟨key, f, g, hne, kept publishedF, kept publishedG, targetF, targetG⟩

end Stale

theorem LeftBehind.step {s t : State} (sound : Sound s) (left : LeftBehind s) {action : Action}
    (enabled : step s action = some t) : LeftBehind t := by
  rcases calm_or_commit enabled with calm | ⟨id, save, isUpdate, rfl, hsave, hphase, rfl⟩
  · obtain ⟨key, f, g, hne, publishedF, publishedG, untargetedF, untargetedG⟩ := left
    refine ⟨key, f, g, hne, calm.published.mpr publishedF, calm.published.mpr publishedG, ?_, ?_⟩
    · exact fun targeted => untargetedF (calm.targeted.mp targeted)
    · exact fun targeted => untargetedG (calm.targeted.mp targeted)
  · exact LeftBehind.commit sound left hsave hphase

theorem Published.step {s t : State} {action : Action} {key : Key} {fileId : FileId}
    (was : Published s key fileId) (enabled : step s action = some t) :
    Published t key fileId := by
  rcases calm_or_commit enabled with calm | ⟨id, save, isUpdate, rfl, hsave, _, rfl⟩
  · exact calm.published.mpr was
  · exact (published_commit hsave).mpr (Or.inl was)

/-- A file is published by being put in a row. -/
theorem published_before {s t : State} {action : Action} {key : Key} {fileId : FileId}
    (enabled : step s action = some t) (now : Published t key fileId) :
    Published s key fileId ∨ t.jsonPathAt key = some (jsonPath fileId) := by
  rcases calm_or_commit enabled with calm | ⟨id, save, isUpdate, rfl, hsave, _, rfl⟩
  · exact Or.inl (calm.published.mp now)
  · rcases (published_commit hsave).mp now with was | ⟨rfl, rfl⟩
    · exact Or.inl was
    · refine Or.inr ?_
      rw [jsonPathAt_commit, if_pos rfl]

theorem referenced_of_published {acts : List Action} {s : State}
    (ran : Replay.run step initial acts = some s) {key : Key} {fileId : FileId}
    (published : Published s key fileId) :
    ∃ first rest m, acts = first ++ rest ∧ Replay.run step initial first = some m ∧
      m.jsonPathAt key = some (jsonPath fileId) := by
  induction acts using List.reverseRecOn generalizing s with
  | nil =>
    cases ran
    obtain ⟨_, _, hsave, _⟩ := published
    cases hsave
  | append_singleton before action ih =>
    obtain ⟨m, hm, last⟩ := Replay.run_append.mp ran
    obtain ⟨t, enabled, same⟩ := Replay.run_cons.mp last
    cases same
    rcases published_before enabled published with was | now
    · obtain ⟨first, rest, n, rfl, hn, path⟩ := ih hm was
      exact ⟨first, rest ++ [action], n, by rw [List.append_assoc], hn, path⟩
    · exact ⟨before ++ [action], [], s, by rw [List.append_nil], ran, now⟩

theorem published_of_referenced {rest : List Action} {m s : State} (sound : Sound m)
    (ran : Replay.run step m rest = some s) {key : Key} {path : PyStr}
    (referenced : m.jsonPathAt key = some path) :
    ∃ fileId, path = jsonPath fileId ∧ Published s key fileId := by
  obtain ⟨fileId, same, published⟩ := sound.jsonPathAt referenced
  have keeps : ∀ n action t, Published n key fileId → step n action = some t →
      Published t key fileId :=
    fun _ _ _ was => was.step
  exact ⟨fileId, same, Replay.run_invariant' keeps published ran⟩

theorem over_of_finished {s : State} (finished : s.finished = true) {id : SaveId} {save : Save}
    (hsave : s.saves.get id = some save) : save.phase.over = true := by
  have member := Table.get_eq_some_iff.mp hsave
  exact List.all_eq_true.mp finished (id, save) member

theorem gone_of_targeted {s : State} (consistent : Consistent s) (finished : s.finished = true)
    {fileId : FileId} (targeted : Targeted s fileId) :
    s.files.get (fileName fileId) = none := by
  obtain ⟨id, save, hsave, target⟩ := targeted
  have stopped := over_of_finished finished hsave
  have returned : save.phase = .returned (some (jsonPath fileId)) := by
    cases hphase : save.phase with
    | returned superseded =>
      rw [hphase] at target
      exact congrArg Phase.returned target
    | rolledBack => rw [hphase] at target; cases target
    | preRead => rw [hphase] at stopped; cases stopped
    | archived => rw [hphase] at stopped; cases stopped
    | upserted isUpdate => rw [hphase] at stopped; cases stopped
    | committed superseded => rw [hphase] at stopped; cases stopped
  rw [← pathName_jsonPath]
  exact consistent.filed.swept hsave returned

theorem swept_of_run {acts : List Action} {s : State}
    (ran : Replay.run step initial acts = some s)
    (current : Replay.Obeys step (fun s action => readsCurrent s action = true) initial acts) :
    Swept s := by
  have start : Consistent initial ∧ Swept initial := by
    refine ⟨Consistent.initial, ?_⟩
    rintro key fileId ⟨_, _, hsave, _⟩
    cases hsave
  have keeps : ∀ m action t, Consistent m ∧ Swept m → readsCurrent m action = true →
      step m action = some t → Consistent t ∧ Swept t := by
    rintro m action t ⟨consistent, swept⟩ hcurrent enabled
    exact ⟨consistent.step enabled, swept.step consistent hcurrent enabled⟩
  exact (Replay.run_invariant keeps start current ran).2

/-- Of two files left behind, one is in no row at the end. -/
theorem not_removed_of_leftBehind {acts : List Action} {s : State}
    (ran : Replay.run step initial acts = some s) (left : LeftBehind s) : ¬ Removed acts s := by
  have consistent := consistent_of_run ran
  obtain ⟨key, f, g, hne, publishedF, publishedG, untargetedF, untargetedG⟩ := left
  have stays : ∀ {file}, Published s key file → ¬ Targeted s file →
      s.jsonPathAt key ≠ some (jsonPath file) → ¬ Removed acts s := by
    intro file published untargeted absent removed
    obtain ⟨first, rest, m, split, hm, referenced⟩ := referenced_of_published ran published
    have unreferenced : ∀ other, s.jsonPathAt other ≠ some (jsonPath file) := by
      intro other now
      obtain ⟨file', same, published'⟩ := consistent.sound.jsonPathAt now
      have files := jsonPath_injective same
      subst files
      have keys := consistent.sound.published_key published published'
      subst keys
      exact absent now
    have gone := removed first rest m key (jsonPath file) split hm referenced unreferenced
    rw [pathName_jsonPath] at gone
    exact untargeted (consistent.filed.kept published gone)
  by_cases now : s.jsonPathAt key = some (jsonPath f)
  · refine stays publishedG untargetedG ?_
    rw [now]
    exact fun same => hne (jsonPath_injective (Option.some.inj same))
  · exact stays publishedF untargetedF now

/-- Once every save is over, all files that have left their rows are gone exactly
when no save of the run committed over a row that had changed since its read. -/
theorem superseded_removed {acts : List Action} {s : State}
    (ran : Replay.run step initial acts = some s) (finished : s.finished = true) :
    Removed acts s ↔
      Replay.Obeys step (fun s action => readsCurrent s action = true) initial acts := by
  have consistent := consistent_of_run ran
  constructor
  · intro removed
    have marks : ∀ m action t, Consistent m → ¬ readsCurrent m action = true →
        step m action = some t → Consistent t ∧ LeftBehind t := by
      intro m action t consistent stale enabled
      refine ⟨consistent.step enabled, ?_⟩
      obtain ⟨id, save, isUpdate, hsave, hphase, hstale, rfl⟩ := stale_commit stale enabled
      exact leftBehind_of_stale consistent hsave hphase hstale
    have stays : ∀ m action t, Consistent m ∧ LeftBehind m → step m action = some t →
        Consistent t ∧ LeftBehind t := by
      rintro m action t ⟨consistent, left⟩ enabled
      exact ⟨consistent.step enabled, left.step consistent.sound enabled⟩
    have unmarked : ¬ (Consistent s ∧ LeftBehind s) := by
      rintro ⟨_, left⟩
      exact not_removed_of_leftBehind ran left removed
    have keeps : ∀ m action t, Consistent m → step m action = some t → Consistent t :=
      fun _ _ _ consistent => consistent.step
    exact Replay.obeys_of_unmarked keeps marks stays Consistent.initial ran unmarked
  · intro current first rest m key path split hm referenced unreferenced
    subst split
    obtain ⟨m', hm', hrest⟩ := Replay.run_append.mp ran
    have same : m = m' := Option.some.inj (hm.symm.trans hm')
    subst same
    have sound := (consistent_of_run hm).sound
    obtain ⟨fileId, rfl, published⟩ := published_of_referenced sound hrest referenced
    rw [pathName_jsonPath]
    rcases swept_of_run ran current key fileId published with now | targeted
    · exact absurd now (unreferenced key)
    · exact gone_of_targeted consistent finished targeted

/-- Three saves one after the other. -/
def savedInTurn : List Action :=
  [.preRead 0 1 (py "Trip to Rome") [] firstFile, .writeJson 0, .upsert 0, .commit 0,
   .deleteSuperseded 0, .preRead 1 1 (py "Trip to Rome") [] secondFile, .writeJson 1, .upsert 1,
   .commit 1, .preRead 2 1 (py "trip to rome") [] thirdFile, .deleteSuperseded 1,
   .writeJson 2, .upsert 2, .commit 2, .deleteSuperseded 2]

theorem superseded_removed_savedInTurn :
    ∃ s, Replay.run step initial savedInTurn = some s ∧ Removed savedInTurn s := by
  refine ⟨_, rfl, ?_⟩
  exact (@superseded_removed savedInTurn _ rfl (by decide)).mpr (by decide)

/-- Two first saves of one title overlap: both reads find no row. -/
def savedTwiceAtOnce : List Action :=
  [.preRead 0 1 (py "Trip to Rome") [] firstFile,
   .preRead 1 1 (py "Trip to Rome") [] secondFile, .writeJson 0, .writeJson 1, .upsert 0,
   .commit 0, .upsert 1, .commit 1, .deleteSuperseded 0, .deleteSuperseded 1]

/-- The upsert of the second save is an update, and the file of the first stays. -/
theorem superseded_left_behind :
    ¬ ∀ (acts : List Action) (s : State), Replay.run step initial acts = some s →
      s.finished = true → Removed acts s := by
  intro all
  have removed := all savedTwiceAtOnce _ rfl (by decide)
  have gone := removed (savedTwiceAtOnce.take 6) (savedTwiceAtOnce.drop 6) _ (1, py "trip-to-rome")
    (jsonPath firstFile) rfl rfl rfl ?_
  · revert gone
    decide
  · intro other now
    obtain ⟨row, hrow, _⟩ := Option.bind_eq_some_iff.mp now
    have member := Table.mem_keys.mpr ⟨row, hrow⟩
    have only : other = (1, py "trip-to-rome") := List.mem_singleton.mp member
    subst only
    revert now
    decide

end Archives
