import Gubbi.Library.Walks
import Gubbi.Text
import Gubbi.Validation

/-!
# Exceptions whose text is withheld

`is_driver_caused` follows `__cause__`, and `__context__` where there is no cause, for ten
links at most. What the `exception` event of a span exports is the text of every exception
that Python's `traceback` prints, which also enters the members of a group, and the context of
an exception whose cause is printed already. The classification covers all that is
printed without these two.
-/

namespace SanitizedErrors

open Text Validation Walks

/-- What telemetry reads of an exception; `V` stands for its identity. -/
structure Raised (V : Type) where
  typeName : PyStr
  text : PyStr
  /-- `isinstance(exc, DRIVER_ERROR_TYPES)`. -/
  driver : Bool
  /-- `getattr(exc, "sqlstate", None)` where it is a string. -/
  sqlstate : Option PyStr
  cause : Option V
  context : Option V
  suppressContext : Bool
  /-- `exceptions` of a `BaseExceptionGroup`. -/
  members : Option (List V)
  deriving DecidableEq

section Chain
variable {V : Type} [DecidableEq V] (graph : V → Raised V)

def MAX_CHAIN_DEPTH : Nat := 10

/-- `cause if cause is not None else current.__context__`. -/
def link (exc : V) : Option V :=
  match (graph exc).cause with
  | some cause => some cause
  | none => (graph exc).context

/-- `_walk_chain`; its `seen` holds the identities of its `chain`. -/
def walkChain (exc : V) : List V × Bool := walk (link graph) MAX_CHAIN_DEPTH [] (some exc)

def isDriverCaused (exc : V) : Bool :=
  let (chain, exhausted) := walkChain graph exc
  if exhausted then true else chain.any (fun link => (graph link).driver)

def SQLSTATE_LENGTH : Nat := 5

def isSqlstate (candidate : PyStr) : Bool :=
  decide (candidate.length = SQLSTATE_LENGTH) && candidate.all (fun c => isDigit c || isUpper c)

/-- `_sqlstate_of`. -/
def sqlstateOf (exc : V) : Option PyStr := (graph exc).sqlstate.filter isSqlstate

/-- `_sqlstate_or_none`. -/
def sqlstateOrNone (exc : V) : Option PyStr := (walkChain graph exc).1.findSome? (sqlstateOf graph)

structure ErrorFields where
  errorType : PyStr
  dbSqlstate : Option PyStr
  deriving DecidableEq

def safeErrorFields (exc : V) : ErrorFields := ⟨(graph exc).typeName, sqlstateOrNone graph exc⟩

/-- What a span gets: the event of the SDK and a description, or a `db.error` event. -/
inductive Recorded
  | exception (description : PyStr)
  | dbError (exceptionType : PyStr) (sqlstate : Option PyStr)
  deriving DecidableEq

def recordExceptionSanitized (exc : V) : Recorded :=
  if isDriverCaused graph exc then .dbError (graph exc).typeName (sqlstateOrNone graph exc)
  else .exception ((graph exc).typeName ++ py ": " ++ (graph exc).text)

end Chain

section Renderer
variable {V : Type} [DecidableEq V] (graph : V → Raised V)

def maxGroupWidth : Nat := 15
def maxGroupDepth : Nat := 10

/-- A `TracebackException` of the queue. -/
structure Item (V : Type) where
  exc : V
  /-- `exception_group_depth` where it is formatted. -/
  depth : Nat
  /-- Its chain is formatted: it is in no group that is cut off. -/
  shown : Bool
  /-- The way to it enters a group, or the context of an exception that has a cause. -/
  strayed : Bool
  deriving DecidableEq

/-- The exceptions built for an item, the one to be popped first in front, and the seen ones. A
cause or context is built when it has not been seen, a member always. -/
def expand (seen : List V) (item : Item V) : List (Item V) × List V :=
  let raised := graph item.exc
  let cause := raised.cause.filter (fun c => c ∉ seen)
  let seen := cause.toList ++ seen
  let context :=
    if cause = none ∧ raised.suppressContext = false then
      raised.context.filter (fun c => c ∉ seen)
    else none
  let seen := context.toList ++ seen
  let members := raised.members.getD []
  let inside := members.zipIdx.map (fun m =>
    { exc := m.1, depth := max item.depth 1 + 1,
      shown := item.shown && decide (item.depth ≤ maxGroupDepth) && decide (m.2 < maxGroupWidth),
      strayed := true : Item V })
  (inside.reverse ++
      context.toList.map (fun c =>
        { item with exc := c, strayed := item.strayed || raised.cause.isSome }) ++
      cause.toList.map (fun c => { item with exc := c }),
    members ++ seen)

/-- The state of the loop of `TracebackException.__init__`. -/
structure Loop (V : Type) where
  queue : List (Item V)
  seen : List V
  built : List (Item V)

def Loop.start (root : V) : Loop V :=
  let item := ⟨root, 0, true, false⟩
  ⟨[item], [root], [item]⟩

/-- One turn; an empty queue stays. -/
def Loop.turn (loop : Loop V) : Loop V :=
  match loop.queue with
  | [] => loop
  | item :: rest =>
    let (items, seen) := expand graph loop.seen item
    ⟨items ++ rest, seen, loop.built ++ items⟩

def render (root : V) : Nat → Loop V
  | 0 => Loop.start root
  | turns + 1 => (render root turns).turn graph

/-- `format` prints the text of an item, unless it is a group that is too deep. -/
def printsText (item : Item V) : Bool :=
  item.shown && !((graph item.exc).members.isSome && decide (maxGroupDepth < item.depth))

/-- The text of an exception is in the rendering. -/
def Printed (root exc : V) : Prop :=
  ∃ turns, ∃ item ∈ (render graph root turns).built, item.exc = exc ∧ printsText graph item = true

/-- It is there on a way into a group, or beside a cause that is printed elsewhere. -/
def PrintedAstray (root exc : V) : Prop :=
  ∃ turns, ∃ item ∈ (render graph root turns).built, item.exc = exc ∧
    printsText graph item = true ∧ item.strayed = true

end Renderer

section Soundness
variable {V : Type} [DecidableEq V] {graph : V → Raised V} {root exc : V}

/-- The text of an exception reaches the span. -/
def ExportsText (graph : V → Raised V) (root exc : V) : Prop :=
  (∃ description, recordExceptionSanitized graph root = .exception description) ∧
    Printed graph root exc

structure Sanitised (graph : V → Raised V) (root : V) : Prop where
  sound : isDriverCaused graph root = false →
    ∀ exc, Printed graph root exc → (graph exc).driver = false
  recorded : ∀ exc, ExportsText graph root exc → (graph exc).driver = false
  fields : ∀ state, (safeErrorFields graph root).dbSqlstate = some state → isSqlstate state = true

/-- A link of the chain is a driver exception. -/
def DriverLink (graph : V → Raised V) (root : V) : Prop :=
  ∃ exc, Leads (link graph) root exc ∧ (graph exc).driver = true

/-- The chain has more different links than are followed. -/
def LongChain (graph : V → Raised V) (root : V) : Prop :=
  ∃ path, Path (link graph) root path ∧ path.length = MAX_CHAIN_DEPTH + 1

theorem isDriverCaused_eq (graph : V → Raised V) (root : V) :
    isDriverCaused graph root =
      ((walkChain graph root).2 ||
        (walkChain graph root).1.any (fun link => (graph link).driver)) := by
  rw [isDriverCaused]
  obtain ⟨chain, exhausted⟩ := walkChain graph root
  cases exhausted <;> rfl

theorem isDriverCaused_iff :
    isDriverCaused graph root = true ↔ DriverLink graph root ∨ LongChain graph root := by
  have exhausted : (walkChain graph root).2 = true ↔ LongChain graph root := walk_exhausted_iff
  cases stopped : (walkChain graph root).2 with
  | true =>
    have gaveUp : isDriverCaused graph root = true := by
      rw [isDriverCaused_eq, stopped, Bool.true_or]
    exact iff_of_true gaveUp (Or.inr (exhausted.mp stopped))
  | false =>
    have short : ¬ LongChain graph root := by
      intro long
      rw [exhausted.mpr long] at stopped
      cases stopped
    rw [or_iff_left short, isDriverCaused_eq, stopped, Bool.false_or, List.any_eq_true, DriverLink]
    refine exists_congr fun exc => and_congr_left fun _ => ?_
    exact mem_walk stopped

theorem isSqlstate_of_sqlstateOrNone {state : PyStr} (h : sqlstateOrNone graph root = some state) :
    isSqlstate state = true := by
  obtain ⟨_, exc, _, _, found, _⟩ := List.findSome?_eq_some_iff.mp h
  exact (Option.filter_eq_some_iff.mp found).2

/-- A new item that did not stray is the link of one that did not. -/
theorem link_of_expand {seen : List V} {item new : Item V}
    (mem : new ∈ (expand graph seen item).1) (kept : new.strayed = false) :
    item.strayed = false ∧ link graph item.exc = some new.exc := by
  simp only [expand, List.mem_append, List.mem_reverse, List.mem_map, Option.mem_toList] at mem
  rcases mem with (⟨m, _, rfl⟩ | ⟨context, found, rfl⟩) | ⟨cause, found, rfl⟩
  · cases kept
  · split at found
    · obtain ⟨straight, noCause⟩ := Bool.or_eq_false_iff.mp kept
      have context_eq := (Option.filter_eq_some_iff.mp found).1
      rw [Option.isSome_eq_false_iff, Option.isNone_iff_eq_none] at noCause
      exact ⟨straight, by rw [link, noCause]; exact context_eq⟩
    · cases found
  · have cause_eq := (Option.filter_eq_some_iff.mp found).1
    exact ⟨kept, by rw [link, cause_eq]⟩

/-- What is built without straying is on the chain. -/
structure OnChain (graph : V → Raised V) (root : V) (loop : Loop V) : Prop where
  queue : ∀ item ∈ loop.queue, item.strayed = false → Leads (link graph) root item.exc
  built : ∀ item ∈ loop.built, item.strayed = false → Leads (link graph) root item.exc

omit [DecidableEq V] in
theorem onChain_start : OnChain graph root (Loop.start root) := by
  constructor
  · intro item mem _
    rw [List.mem_singleton.mp mem]
  · intro item mem _
    rw [List.mem_singleton.mp mem]

theorem OnChain.turn {loop : Loop V} (inv : OnChain graph root loop) :
    OnChain graph root (loop.turn graph) := by
  rw [Loop.turn]
  split
  · exact inv
  · next item rest popped =>
    have fresh : ∀ new ∈ (expand graph loop.seen item).1, new.strayed = false →
        Leads (link graph) root new.exc := by
      intro new mem kept
      obtain ⟨straight, step⟩ := link_of_expand mem kept
      exact (inv.queue item (popped ▸ List.mem_cons_self) straight).tail step
    constructor
    · intro new mem kept
      rcases List.mem_append.mp mem with mem | mem
      · exact fresh new mem kept
      · exact inv.queue new (popped ▸ List.mem_cons_of_mem _ mem) kept
    · intro new mem kept
      rcases List.mem_append.mp mem with mem | mem
      · exact inv.built new mem kept
      · exact fresh new mem kept

theorem onChain_render (turns : Nat) : OnChain graph root (render graph root turns) := by
  induction turns with
  | zero => exact onChain_start
  | succ turns ih => exact ih.turn

/-- Whatever is printed is on the chain, or printed astray. -/
theorem printed_cases (printed : Printed graph root exc) :
    Leads (link graph) root exc ∨ PrintedAstray graph root exc := by
  obtain ⟨turns, item, mem, rfl, text⟩ := printed
  cases straight : item.strayed with
  | false => exact Or.inl ((onChain_render turns).built item mem straight)
  | true => exact Or.inr ⟨turns, item, mem, rfl, text, straight⟩

theorem printed_of_astray (astray : PrintedAstray graph root exc) : Printed graph root exc := by
  obtain ⟨turns, item, mem, same, text, _⟩ := astray
  exact ⟨turns, item, mem, same, text⟩

theorem exportsText_iff : ExportsText graph root exc ↔
    isDriverCaused graph root = false ∧ Printed graph root exc := by
  rw [ExportsText, recordExceptionSanitized]
  cases isDriverCaused graph root <;> simp

theorem sanitised_of_sound (sound : isDriverCaused graph root = false →
    ∀ exc, Printed graph root exc → (graph exc).driver = false) : Sanitised graph root := by
  refine ⟨sound, ?_, fun state h => isSqlstate_of_sqlstateOrNone h⟩
  intro exc exported
  obtain ⟨clean, printed⟩ := exportsText_iff.mp exported
  exact sound clean exc printed

/-- What is printed on the chain is no driver exception where the chain is classified so. -/
theorem sanitised_of_astray
    (clean : ∀ exc, PrintedAstray graph root exc → (graph exc).driver = false) :
    Sanitised graph root := by
  refine sanitised_of_sound fun unflagged exc printed => ?_
  rcases printed_cases printed with onChain | astray
  · have noLink : ¬ DriverLink graph root := by
      intro driverLink
      rw [isDriverCaused_iff.mpr (Or.inl driverLink)] at unflagged
      cases unflagged
    exact Bool.eq_false_iff.mpr fun driver => noLink ⟨exc, onChain, driver⟩
  · exact clean exc astray

/-- Driver text stays inside exactly when a link of the chain is a driver exception, or the chain is
too long to be followed, or no driver exception is printed astray. -/
theorem sanitised_iff (graph : V → Raised V) (root : V) :
    Sanitised graph root ↔
      DriverLink graph root ∨ LongChain graph root ∨
        ∀ exc, PrintedAstray graph root exc → (graph exc).driver = false := by
  rw [← or_assoc, ← isDriverCaused_iff]
  constructor
  · intro sanitised
    cases flagged : isDriverCaused graph root with
    | true => exact Or.inl rfl
    | false =>
      refine Or.inr fun exc astray => ?_
      exact sanitised.sound flagged exc (printed_of_astray astray)
  · rintro (flagged | clean)
    · refine sanitised_of_sound fun unflagged => ?_
      rw [flagged] at unflagged
      cases unflagged
    · exact sanitised_of_astray clean

/-- An exception that strays is a member, or the context of an exception with a cause that does not
suppress it. -/
theorem strayed_of_expand {seen : List V} {item new : Item V}
    (mem : new ∈ (expand graph seen item).1) (straight : item.strayed = false)
    (strayed : new.strayed = true) :
    (∃ members, (graph item.exc).members = some members ∧ new.exc ∈ members) ∨
      ((graph item.exc).cause.isSome = true ∧ (graph item.exc).suppressContext = false ∧
        (graph item.exc).context = some new.exc) := by
  simp only [expand, List.mem_append, List.mem_reverse, List.mem_map, Option.mem_toList] at mem
  rcases mem with (⟨m, inside, rfl⟩ | ⟨context, found, rfl⟩) | ⟨cause, found, rfl⟩
  · have member := List.fst_mem_of_mem_zipIdx inside
    cases members : (graph item.exc).members with
    | none =>
      rw [members] at member
      cases member
    | some all =>
      rw [members] at member
      exact Or.inl ⟨all, rfl, member⟩
  · split at found
    · next unsuppressed =>
      simp only [straight, Bool.false_or] at strayed
      exact Or.inr ⟨strayed, unsuppressed.2, (Option.filter_eq_some_iff.mp found).1⟩
    · cases found
  · rw [straight] at strayed
    cases strayed

/-- No exception is a group, and none with a cause shows its context. -/
structure Plain (graph : V → Raised V) : Prop where
  members : ∀ exc, (graph exc).members = none
  suppressed : ∀ exc, (graph exc).cause.isSome = true → (graph exc).suppressContext = true

theorem straight_of_plain (plain : Plain graph) (turns : Nat) :
    (∀ item ∈ (render graph root turns).queue, item.strayed = false) ∧
      ∀ item ∈ (render graph root turns).built, item.strayed = false := by
  induction turns with
  | zero =>
    constructor
    · intro item mem
      rw [List.mem_singleton.mp mem]
    · intro item mem
      rw [List.mem_singleton.mp mem]
  | succ turns ih =>
    obtain ⟨queue, built⟩ := ih
    rw [render, Loop.turn]
    split
    · exact ⟨queue, built⟩
    · next item rest popped =>
      have fresh : ∀ new ∈ (expand graph (render graph root turns).seen item).1,
          new.strayed = false := by
        intro new mem
        refine Bool.eq_false_iff.mpr fun strayed => ?_
        have straight := queue item (popped ▸ List.mem_cons_self)
        rcases strayed_of_expand mem straight strayed with ⟨_, group, _⟩ | ⟨cause, shown, _⟩
        · rw [plain.members] at group
          cases group
        · rw [plain.suppressed _ cause] at shown
          cases shown
      constructor
      · intro new mem
        rcases List.mem_append.mp mem with mem | mem
        · exact fresh new mem
        · exact queue new (popped ▸ List.mem_cons_of_mem _ mem)
      · intro new mem
        rcases List.mem_append.mp mem with mem | mem
        · exact built new mem
        · exact fresh new mem

/-- Chains of exceptions that are raised in the usual way export no driver text. -/
theorem sanitised_of_plain (plain : Plain graph) : Sanitised graph root := by
  refine sanitised_of_astray fun exc astray => ?_
  obtain ⟨turns, item, mem, _, _, strayed⟩ := astray
  rw [(straight_of_plain plain turns).2 item mem] at strayed
  cases strayed

end Soundness

/-- An exception without links. -/
def lone (typeName text : PyStr) (driver : Bool) : Raised Bool :=
  { typeName := typeName, text := text, driver := driver, sqlstate := none, cause := none,
    context := none, suppressContext := false, members := none }

/-- The group of a unique violation, which quotes a value of the row. -/
def taskGroup : Bool → Raised Bool
  | false =>
    lone (py "UniqueViolationError") (py "DETAIL: Key (ip)=(203.0.113.9) already exists.") true
  | true =>
    { lone (py "ExceptionGroup") (py "unhandled errors in a TaskGroup (1 sub-exception)") false with
      members := some [false] }

theorem taskGroup_exported : ¬ Sanitised taskGroup true := by
  intro sanitised
  have unflagged : isDriverCaused taskGroup true = false := by decide
  have printed : Printed taskGroup true false :=
    ⟨1, ⟨false, 2, true, true⟩, by decide, rfl, by decide⟩
  exact absurd (sanitised.sound unflagged false printed) (by decide)

/-- A cause that is printed already, and a context that is not suppressed. -/
def cyclicCause : Bool → Raised Bool
  | false => lone (py "UniqueViolationError") (py "DETAIL: Key (id)=(1) already exists.") true
  | true =>
    { lone (py "ValueError") (py "bad") false with cause := some true, context := some false }

example : isDriverCaused cyclicCause true = false ∧
    ⟨false, 0, true, true⟩ ∈ (render cyclicCause true 1).built := by decide

end SanitizedErrors
