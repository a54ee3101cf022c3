import Gubbi.Library.Limiter
import Gubbi.Library.Simulation
import Gubbi.OAuth.LoginLimit

/-!
# The limit on client registrations

A request to `/register` counts the registrations of its address in the last hour, records its
own, and only then goes on to the route. Requests of all addresses interleave between the two,
the failures of `/login` go to the same table, and cleanup may prune it at any moment.
-/

namespace RegisterLimit

open Text OAuthStorage
open LoginLimit (Event recordEvent countEvents countSince loginFailure countSince_recordEvent
  countSince_prune toSecs_mono RATE_LIMIT_EVENT_RETENTION_SECS)

def REGISTER_MAX_ATTEMPTS : Nat := 10
def REGISTER_WINDOW_SECS : Secs := 3600

inductive StorageError
  | aiosqlite
  | valueError
  | other
  deriving DecidableEq, Repr

/-- How far `record_event` gets. A row whose commit fails is still in the table of this
connection. -/
inductive Inserted
  | committed
  | uncommitted
  | nothing
  deriving DecidableEq, Repr

inductive Response
  | json (error : PyStr) (statusCode : Nat)
  | raised
  deriving DecidableEq

inductive Phase
  | arrived
  | counted
  | handedOn
  | answered (response : Response)
  deriving DecidableEq

/-- `found` is what the shared helper makes of the address of the request. -/
structure Request where
  found : Option PyStr
  phase : Phase
  recordedAt : Option Secs

abbrev RequestId := Nat

structure State where
  now : Micros
  events : List Event
  requests : Table RequestId Request

def start : State := ⟨0, [], .empty⟩

/-- `... or "unknown"`. -/
def clientIp : Option PyStr → PyStr
  | none | some [] => py "unknown"
  | some ip => ip

def register (ip : PyStr) : PyStr := py "register:" ++ ip

def Request.eventKey (request : Request) : PyStr := register (clientIp request.found)

def rateLimitUnavailable : Response := .json (py "rate_limit_unavailable") 503
def rateLimitExceeded : Response := .json (py "rate_limit_exceeded") 429

def State.recent (s : State) (eventKey : PyStr) : Nat :=
  countEvents s.events eventKey REGISTER_WINDOW_SECS s.now

def afterCount (count : Except StorageError Nat) : Phase :=
  match count with
  | .error .aiosqlite | .error .valueError => .answered rateLimitUnavailable
  | .error .other => .answered .raised
  | .ok count => if count ≥ REGISTER_MAX_ATTEMPTS then .answered rateLimitExceeded else .counted

def State.count (s : State) (id : RequestId) (failure : Option StorageError) (request : Request) :
    State :=
  let count := match failure with
    | some error => .error error
    | none => .ok (s.recent request.eventKey)
  { s with requests := s.requests.put id { request with phase := afterCount count } }

def State.insert (s : State) (id : RequestId) (request : Request) (phase : Phase) : State where
  now := s.now
  events := recordEvent s.events request.eventKey s.now
  requests := s.requests.put id ⟨request.found, phase, some (toSecs s.now)⟩

def State.record (s : State) (id : RequestId) (request : Request) : Inserted → State
  | .committed => s.insert id request .handedOn
  | .uncommitted => s.insert id request (.answered .raised)
  | .nothing =>
    { s with requests := s.requests.put id { request with phase := .answered .raised } }

inductive Action
  | tick (elapsed : Micros)
  | arrive (id : RequestId) (found : Option PyStr)
  | count (id : RequestId) (failure : Option StorageError)
  | record (id : RequestId) (inserted : Inserted)
  | loginFailure (clientHost : PyStr)
  | prune

/-- One step of a request that is in a given phase. -/
def State.advance (s : State) (id : RequestId) (phase : Phase) (next : Request → State) :
    Option State :=
  (s.requests.get id).bind fun request =>
    if request.phase = phase then some (next request) else none

def step (s : State) : Action → Option State
  | .tick elapsed => some { s with now := s.now + elapsed }
  | .arrive id found =>
    if s.requests.get id = none then
      some { s with requests := s.requests.put id ⟨found, .arrived, none⟩ }
    else none
  | .count id failure => s.advance id .arrived (s.count id failure)
  | .record id inserted => s.advance id .counted (s.record id · inserted)
  | .loginFailure clientHost =>
    some { s with events := recordEvent s.events (loginFailure clientHost) s.now }
  | .prune =>
    some { s with events := LoginLimit.prune s.events RATE_LIMIT_EVENT_RETENTION_SECS s.now }

def Request.recordedIn (request : Request) (seconds : Int → Bool) : Bool :=
  request.recordedAt.any fun (recorded : Secs) => seconds recorded

/-- The requests of a key whose record is of such a second. -/
def State.registered (s : State) (eventKey : PyStr) (seconds : Int → Bool) : Nat :=
  s.requests.countWhere fun _ request =>
    request.eventKey = eventKey && request.recordedIn seconds

/-- The requests between the check and the record. -/
def State.pending (s : State) (eventKey : PyStr) : Nat :=
  s.requests.countWhere fun _ request =>
    request.phase = .counted && request.eventKey = eventKey

def inWindow (first : Int) (second : Int) : Bool :=
  first ≤ second && second ≤ first + REGISTER_WINDOW_SECS

/-- A check that lets a request through finds fewer requests of its address pending. -/
def overlap (width : Nat) (s : State) : Action → Bool
  | .count id none =>
    (s.requests.get id).all fun request =>
      REGISTER_MAX_ATTEMPTS ≤ s.recent request.eventKey || s.pending request.eventKey < width
  | _ => true

/-- The log of the limiter has what the table has lost to the prunes, and the requests know it
all. -/
structure Limits (s : State) (t : Limiter.State PyStr) : Prop where
  now : t.now = toSecs s.now
  counts : ∀ (ip : PyStr) (cutoff : Int),
    (toSecs s.now : Int) - RATE_LIMIT_EVENT_RETENTION_SECS ≤ cutoff →
      countSince s.events (register ip) cutoff = t.since (register ip) cutoff
  underWay : ∀ eventKey, t.underWay eventKey = s.pending eventKey
  registered : ∀ eventKey seconds, s.registered eventKey seconds =
    t.log.countP (fun event => event.1 = eventKey && seconds event.2)
  fresh : ∀ id request, s.requests.get id = some request →
    request.phase = .arrived ∨ request.phase = .counted → request.recordedAt = none

section Simulation
variable {s s' : State} {t : Limiter.State PyStr} {id : RequestId} {request next : Request}
variable {phase : Phase}

theorem advance_eq_some {after : Request → State} : s.advance id phase after = some s' ↔
    ∃ request, s.requests.get id = some request ∧ request.phase = phase ∧ s' = after request := by
  simp only [State.advance, Option.bind_eq_some_iff, Replay.guarded_eq_some]

theorem start_limits : Limits start .start where
  now := rfl
  counts _ _ _ := rfl
  underWay _ := rfl
  registered _ _ := rfl
  fresh _ _ found := by cases found

theorem countWhere_move (was : s.requests.get id = some request) (next : Request)
    (p : Request → Bool) :
    (s.requests.put id next).countWhere (fun _ request => p request) + (p request).toNat =
      s.requests.countWhere (fun _ request => p request) + (p next).toNat := by
  have moved := Table.countWhere_put s.requests (fun _ request => p request) id next
  rw [was, Option.any_some] at moved
  exact moved

theorem pending_move (was : s.requests.get id = some request) (moved : s'.requests =
      s.requests.put id next) (same : next.found = request.found) (eventKey : PyStr) :
    s'.pending eventKey + (request.phase = .counted && request.eventKey = eventKey).toNat =
      s.pending eventKey + (next.phase = .counted && request.eventKey = eventKey).toNat := by
  have key : next.eventKey = request.eventKey := congrArg (fun f => register (clientIp f)) same
  rw [State.pending, moved, ← key, key]
  have counted := countWhere_move was next
    fun request => request.phase = .counted && request.eventKey = eventKey
  rw [key] at counted
  exact counted

theorem registered_move (was : s.requests.get id = some request)
    (moved : s'.requests = s.requests.put id next) (same : next.found = request.found)
    (fresh : request.recordedAt = none)
    (eventKey : PyStr) (seconds : Int → Bool) :
    s'.registered eventKey seconds = s.registered eventKey seconds +
      (request.eventKey = eventKey && next.recordedIn seconds).toNat := by
  have key : next.eventKey = request.eventKey := congrArg (fun f => register (clientIp f)) same
  have counted := countWhere_move was next
    fun request => request.eventKey = eventKey && request.recordedIn seconds
  rw [Request.recordedIn, fresh, key, Option.any_none, Bool.and_false] at counted
  rw [State.registered, moved]
  exact counted

/-- A request goes on to another phase, and the clock and the table stay. -/
theorem Limits.move (limits : Limits s t) (was : s.requests.get id = some request)
    (fresh : request.recordedAt = none) (phase : Phase) {underWay : PyStr → Nat}
    (going : ∀ eventKey, underWay eventKey +
      (request.phase = .counted && request.eventKey = eventKey).toNat =
        t.underWay eventKey + (phase = .counted && request.eventKey = eventKey).toNat) :
    Limits { s with requests := s.requests.put id { request with phase := phase } }
      { t with underWay := underWay } where
  now := limits.now
  counts := limits.counts
  underWay eventKey := by
    have moved : State.pending _ eventKey + _ = _ + (phase = .counted && _).toNat :=
      @pending_move s { s with requests := s.requests.put id _ } id request
        { request with phase := phase } was rfl rfl eventKey
    have before := limits.underWay eventKey
    have after := going eventKey
    show underWay eventKey = _
    omega
  registered eventKey seconds := by
    rw [@registered_move s { s with requests := s.requests.put id _ } id request
      { request with phase := phase } was rfl rfl fresh eventKey seconds, Request.recordedIn, fresh,
      Option.any_none, Bool.and_false]
    exact limits.registered eventKey seconds
  fresh := by
    intro other entry found early
    rcases Table.get_put_eq_some found with ⟨_, rfl⟩ | ⟨_, found⟩
    · exact fresh
    · exact limits.fresh other entry found early

theorem Limits.insert (limits : Limits s t) (was : s.requests.get id = some request)
    (counted : request.phase = .counted) (later : ¬ (phase = .arrived ∨ phase = .counted)) :
    Limits (s.insert id request phase) (t.record request.eventKey) where
  now := limits.now
  counts ip cutoff recent := by
    have old := limits.counts ip cutoff recent
    rw [State.insert, countSince_recordEvent, old, ← limits.now]
    exact (Windows.since_append (request.eventKey, t.now) cutoff).symm
  underWay eventKey := by
    have moved := @pending_move s (s.insert id request phase) id request
      ⟨request.found, phase, some (toSecs s.now)⟩ was rfl rfl eventKey
    have before := limits.underWay eventKey
    rw [counted, decide_eq_true rfl, Bool.true_and,
      decide_eq_false fun same => later (Or.inr same), Bool.false_and, Bool.toNat_false,
      Nat.add_zero] at moved
    rw [Limiter.State.record]
    show (t.become _ _).underWay eventKey = _
    rw [Limiter.become_underWay]
    by_cases same : eventKey = request.eventKey
    · subst same
      rw [if_pos rfl]
      rw [decide_eq_true rfl, Bool.toNat_true] at moved
      omega
    · rw [if_neg same, before]
      rw [decide_eq_false (Ne.symm same), Bool.toNat_false] at moved
      exact moved.symm
  registered eventKey seconds := by
    rw [@registered_move s (s.insert id request phase) id request
      ⟨request.found, phase, some (toSecs s.now)⟩ was rfl rfl
      (limits.fresh id request was (Or.inr counted)), limits.registered, Limiter.State.record,
      List.countP_append, List.countP_singleton, limits.now]
    show _ + (decide (request.eventKey = eventKey) && seconds (toSecs s.now)).toNat = _ + _
    cases decide (request.eventKey = eventKey) && seconds (toSecs s.now : Int) <;> rfl
  fresh := by
    intro other entry found early
    rcases Table.get_put_eq_some found with ⟨_, rfl⟩ | ⟨_, found⟩
    · exact absurd early later
    · exact limits.fresh other entry found early

/-- A failure of `/login` is recorded under a prefix of its own. -/
theorem loginFailure_ne (clientHost ip : PyStr) : loginFailure clientHost ≠ register ip := by
  intro same
  exact absurd (List.cons.inj same).1 (by decide)

theorem Limits.loginFailure (limits : Limits s t) (clientHost : PyStr) :
    Limits { s with events := recordEvent s.events (LoginLimit.loginFailure clientHost) s.now } t :=
  { limits with
    counts := fun ip cutoff recent => by
      rw [countSince_recordEvent, decide_eq_false (loginFailure_ne clientHost ip), Bool.false_and]
      exact limits.counts ip cutoff recent }

theorem Limits.prune (limits : Limits s t) :
    Limits { s with events := LoginLimit.prune s.events RATE_LIMIT_EVENT_RETENTION_SECS s.now } t :=
  { limits with
    counts := fun ip cutoff recent => by
      rw [countSince_prune s.events (register ip) recent]
      exact limits.counts ip cutoff recent }

theorem Limits.tick (limits : Limits s t) (elapsed : Micros) :
    Limits { s with now := s.now + elapsed }
      { t with now := t.now + (toSecs (s.now + elapsed) - toSecs s.now : Nat) } where
  now := by
    have later := toSecs_mono (Nat.le_add_right s.now elapsed)
    show t.now + ((toSecs (s.now + elapsed) - toSecs s.now : Nat) : Int) = _
    rw [limits.now]
    show (toSecs s.now : Int) + _ = (toSecs (s.now + elapsed) : Int)
    rw [Int.ofNat_sub later]
    exact add_sub_cancel _ _
  counts ip cutoff recent := by
    have later : (toSecs s.now : Int) ≤ toSecs (s.now + elapsed) :=
      Int.ofNat_le.mpr (toSecs_mono (Nat.le_add_right s.now elapsed))
    exact limits.counts ip cutoff (le_trans (Int.sub_le_sub_right later _) recent)
  underWay := limits.underWay
  registered := limits.registered
  fresh := limits.fresh

theorem Limits.arrive (limits : Limits s t) (unused : s.requests.get id = none)
    (found : Option PyStr) :
    Limits { s with requests := s.requests.put id ⟨found, .arrived, none⟩ } t where
  now := limits.now
  counts := limits.counts
  underWay eventKey := by
    have counted := Table.countWhere_put s.requests
      (fun _ request => request.phase = .counted && request.eventKey = eventKey) id
      ⟨found, .arrived, none⟩
    rw [unused] at counted
    exact (limits.underWay eventKey).trans counted.symm
  registered eventKey seconds := by
    have counted := Table.countWhere_put s.requests
      (fun _ request => request.eventKey = eventKey && request.recordedIn seconds) id
      ⟨found, .arrived, none⟩
    have nothing : (Request.mk found .arrived none).recordedIn seconds = false := rfl
    rw [unused, nothing, Bool.and_false] at counted
    exact counted.trans (limits.registered eventKey seconds)
  fresh := by
    intro other entry asked early
    rcases Table.get_put_eq_some asked with ⟨_, rfl⟩ | ⟨_, asked⟩
    · rfl
    · exact limits.fresh other entry asked early

/-- A check counts what the log of the limiter has. -/
theorem Limits.recent (limits : Limits s t) (request : Request) :
    s.recent request.eventKey =
      t.since request.eventKey (t.now - REGISTER_WINDOW_SECS) := by
  rw [limits.now]
  exact limits.counts _ _ (Int.sub_le_sub_left (by decide) _)

/-- The requests are matched by a run of the limiter. -/
def Follows (width : Nat) (t : Limiter.State PyStr) (s' : State) : Prop :=
  ∃ acts t', Replay.run (Limiter.step REGISTER_MAX_ATTEMPTS REGISTER_WINDOW_SECS) t acts =
      some t' ∧
    Replay.Obeys (Limiter.step REGISTER_MAX_ATTEMPTS REGISTER_WINDOW_SECS)
      (Limiter.crowd width) t acts ∧ Limits s' t'

variable {width : Nat}

theorem Follows.still (limits : Limits s' t) : Follows width t s' :=
  ⟨[], t, rfl, trivial, limits⟩

theorem Follows.one {t' : Limiter.State PyStr} (act : Limiter.Action PyStr)
    (taken : Limiter.step REGISTER_MAX_ATTEMPTS REGISTER_WINDOW_SECS t act = some t')
    (crowded : Limiter.crowd width t act) (limits : Limits s' t') : Follows width t s' :=
  ⟨[act], t', Replay.run_cons.mpr ⟨t', taken, rfl⟩,
    (Replay.obeys_cons taken).mpr ⟨crowded, trivial⟩, limits⟩

theorem Limits.turnAway (limits : Limits s t) (was : s.requests.get id = some request)
    (arrived : request.phase = .arrived) (last : phase ≠ .counted) :
    Limits { s with requests := s.requests.put id { request with phase := phase } } t := by
  have fresh := limits.fresh id request was (Or.inl arrived)
  refine limits.move was fresh phase fun eventKey => ?_
  rw [arrived, decide_eq_false last]
  rfl

theorem Limits.letThrough (limits : Limits s t) (was : s.requests.get id = some request)
    (arrived : request.phase = .arrived) :
    Limits { s with requests := s.requests.put id { request with phase := .counted } }
      (t.become request.eventKey (t.underWay request.eventKey + 1)) := by
  have fresh := limits.fresh id request was (Or.inl arrived)
  refine limits.move was fresh .counted fun eventKey => ?_
  rw [arrived, Function.update_apply, decide_eq_true rfl, Bool.true_and]
  by_cases same : eventKey = request.eventKey
  · subst same
    rw [if_pos rfl, decide_eq_true rfl]
    rfl
  · rw [if_neg same, decide_eq_false (Ne.symm same)]
    rfl

theorem Limits.giveUp (limits : Limits s t) (was : s.requests.get id = some request)
    (counted : request.phase = .counted) (going : 0 < t.underWay request.eventKey) :
    Limits { s with requests := s.requests.put id { request with phase := .answered .raised } }
      (t.become request.eventKey (t.underWay request.eventKey - 1)) := by
  have fresh := limits.fresh id request was (Or.inr counted)
  refine limits.move was fresh (.answered .raised) fun eventKey => ?_
  rw [counted, Function.update_apply, decide_eq_true rfl, Bool.true_and]
  by_cases same : eventKey = request.eventKey
  · subst same
    rw [if_pos rfl, decide_eq_true rfl, Bool.toNat_true]
    exact Nat.sub_add_cancel going
  · rw [if_neg same, decide_eq_false (Ne.symm same)]
    rfl

theorem Limits.going (limits : Limits s t) (was : s.requests.get id = some request)
    (counted : request.phase = .counted) : 0 < t.underWay request.eventKey := by
  rw [limits.underWay]
  refine Table.countWhere_pos (Table.get_eq_some_iff.mp was) ?_
  rw [counted, decide_eq_true rfl, decide_eq_true rfl]
  rfl

theorem Limits.count (limits : Limits s t) (was : s.requests.get id = some request)
    (arrived : request.phase = .arrived) (failure : Option StorageError)
    (guard : overlap width s (.count id failure) = true) :
    Follows width t (s.count id failure request) := by
  cases failure with
  | some error =>
    refine .still (limits.turnAway was arrived ?_)
    cases error <;> exact nofun
  | none =>
    by_cases full : s.recent request.eventKey ≥ REGISTER_MAX_ATTEMPTS
    · refine .still (limits.turnAway was arrived ?_)
      show (if _ then _ else _) ≠ _
      rw [if_pos full]
      nofun
    · have free := Nat.lt_of_not_le full
      have through : afterCount (.ok (s.recent request.eventKey)) = .counted := if_neg full
      rw [overlap, was, Option.all_some, decide_eq_false full, Bool.false_or,
        decide_eq_true_eq, ← limits.underWay] at guard
      rw [limits.recent] at free
      refine .one (.accept request.eventKey) (if_pos free) guard ?_
      simp only [State.count, through]
      exact limits.letThrough was arrived

theorem Limits.record (limits : Limits s t) (was : s.requests.get id = some request)
    (counted : request.phase = .counted) (inserted : Inserted) :
    Follows width t (s.record id request inserted) := by
  have going := limits.going was counted
  cases inserted with
  | committed =>
    exact .one (.record request.eventKey) (if_pos going) trivial
      (limits.insert was counted (by decide))
  | uncommitted =>
    exact .one (.record request.eventKey) (if_pos going) trivial
      (limits.insert was counted (by decide))
  | nothing =>
    exact .one (.withdraw request.eventKey) (if_pos going) trivial
      (limits.giveUp was counted going)

/-- A step of the requests is a step of the limiter, or none. -/
theorem Limits.step {action : Action} (limits : Limits s t)
    (guard : overlap width s action = true) (enabled : step s action = some s') :
    Follows width t s' := by
  cases action with
  | tick elapsed =>
    cases enabled
    exact .one (.tick _) rfl trivial (limits.tick elapsed)
  | arrive id found =>
    obtain ⟨unused, rfl⟩ := Replay.guarded_eq_some.mp enabled
    exact .still (limits.arrive unused found)
  | count id failure =>
    obtain ⟨request, was, arrived, rfl⟩ := advance_eq_some.mp enabled
    exact limits.count was arrived failure guard
  | record id inserted =>
    obtain ⟨request, was, counted, rfl⟩ := advance_eq_some.mp enabled
    exact limits.record was counted inserted
  | loginFailure clientHost =>
    cases enabled
    exact .still (limits.loginFailure clientHost)
  | prune =>
    cases enabled
    exact .still limits.prune

end Simulation

/-- The key of the requests whose address is not found. -/
def unknown : PyStr := register (py "unknown")

def logOf (done waiting : Nat) : Limiter.State PyStr :=
  ⟨0, List.replicate done (unknown, 0), Function.update (fun _ => 0) unknown waiting⟩

theorem logOf_underWay (done waiting : Nat) : (logOf done waiting).underWay unknown = waiting := by
  show Function.update (fun _ => 0) unknown waiting unknown = waiting
  rw [Function.update_apply, if_pos rfl]

theorem logOf_become (done waiting count : Nat) :
    (logOf done waiting).become unknown count = logOf done count := by
  rw [Limiter.State.become, logOf, logOf]
  exact congrArg (Limiter.State.mk 0 _) (Function.update_idem _ _ _)

theorem logOf_record (done waiting : Nat) :
    (logOf done (waiting + 1)).record unknown = logOf (done + 1) waiting := by
  rw [Limiter.State.record, logOf_become, logOf_underWay, Nat.add_sub_cancel]
  exact congrArg (fun log => Limiter.State.mk 0 log _) List.replicate_succ'.symm

/-- At time zero, `done` registrations are recorded and `waiting` requests may record theirs. -/
structure Stage (next : RequestId) (done : Nat) (waiting : List RequestId) (s : State) :
    Prop where
  now : s.now = 0
  limits : Limits s (logOf done waiting.length)
  free : ∀ id, next ≤ id → s.requests.get id = none
  here : ∀ id ∈ waiting, s.requests.get id = some ⟨none, .counted, none⟩

def Reaches (width : Nat) (P : State → Prop) : Prop :=
  ∃ acts s, Replay.run step start acts = some s ∧
    Replay.Obeys step (fun s action => overlap width s action = true) start acts ∧ P s

section Stages
variable {width : Nat} {P Q : State → Prop} {s : State}
variable {next : RequestId} {done : Nat} {waiting : List RequestId}

theorem Reaches.step (reached : Reaches width P) (further : ∀ s, P s → ∃ action t,
      step s action = some t ∧ overlap width s action = true ∧ Q t) : Reaches width Q := by
  obtain ⟨acts, s, ran, obeys, holds⟩ := reached
  obtain ⟨action, t, taken, guard, after⟩ := further s holds
  refine ⟨acts ++ [action], t, Replay.run_append.mpr ⟨s, ran, ?_⟩, ?_, after⟩
  · exact Replay.run_cons.mpr ⟨t, taken, rfl⟩
  · exact Replay.obeys_append ran obeys ((Replay.obeys_cons taken).mpr ⟨guard, trivial⟩)

theorem Stage.recent (stage : Stage next done waiting s) : s.recent unknown = done := by
  have counted := stage.limits.recent ⟨none, .arrived, none⟩
  refine counted.trans ?_
  rw [Limiter.State.since, Windows.since, logOf, List.countP_replicate]
  rfl

theorem Stage.pending (stage : Stage next done waiting s) :
    s.pending unknown = waiting.length :=
  (stage.limits.underWay unknown).symm.trans (logOf_underWay _ _)

theorem Stage.registered (stage : Stage next done waiting s) :
    s.registered unknown (inWindow 0) = done := by
  rw [stage.limits.registered, logOf, List.countP_replicate]
  rfl

theorem stage_start : Stage 0 0 [] start where
  now := rfl
  limits := by
    have same : logOf 0 0 = .start := congrArg (Limiter.State.mk 0 []) (Function.update_eq_self _ _)
    rw [List.length_nil, same]
    exact start_limits
  free _ _ := rfl
  here _ none := by cases none

/-- The next request arrives. -/
def Arrived (next : RequestId) (done : Nat) (waiting : List RequestId) (s : State) : Prop :=
  s.requests.get next = some ⟨none, .arrived, none⟩ ∧ Stage (next + 1) done waiting s

theorem Reaches.arrive (reached : Reaches width (Stage next done waiting)) :
    Reaches width (Arrived next done waiting) := by
  refine reached.step fun s stage => ?_
  have unused := stage.free next (Nat.le_refl _)
  refine ⟨.arrive next none, _, if_pos unused, rfl, ?_, stage.now, ?_, ?_, ?_⟩
  · exact Table.get_put_self _ _ _
  · exact stage.limits.arrive unused none
  · intro id later
    exact (Table.get_put_ne _ _ (Nat.ne_of_gt later)).trans (stage.free id (Nat.le_of_lt later))
  · intro id mem
    exact Table.get_put_of_absent _ unused (stage.here id mem)

theorem Reaches.count (reached : Reaches width (Arrived next done waiting))
    (few : done < REGISTER_MAX_ATTEMPTS) (room : waiting.length < width) :
    Reaches width (Stage (next + 1) done (next :: waiting)) := by
  refine reached.step fun s ⟨was, stage⟩ => ?_
  have open_ : ¬ s.recent unknown ≥ REGISTER_MAX_ATTEMPTS := by
    rw [stage.recent]
    exact Nat.not_le_of_lt few
  have through : afterCount (.ok (s.recent unknown)) = .counted := if_neg open_
  have counted : s.count next none ⟨none, .arrived, none⟩ =
      { s with requests := s.requests.put next ⟨none, .counted, none⟩ } := by
    rw [← through]
    rfl
  refine ⟨.count next none, _, advance_eq_some.mpr ⟨_, was, rfl, rfl⟩, ?_, ?_⟩
  · rw [overlap, was, Option.all_some]
    exact (Bool.or_eq_true _ _).mpr (Or.inr (decide_eq_true (stage.pending ▸ room)))
  rw [counted]
  refine ⟨stage.now, ?_, ?_, ?_⟩
  · have limits : Limits _ ((logOf done waiting.length).become unknown
        ((logOf done waiting.length).underWay unknown + 1)) := stage.limits.letThrough was rfl
    rw [logOf_underWay, logOf_become] at limits
    exact limits
  · intro id later
    exact (Table.get_put_ne _ _ (Nat.ne_of_gt later)).trans (stage.free id later)
  · intro id mem
    rcases List.mem_cons.mp mem with rfl | mem
    · exact Table.get_put_self _ _ _
    · by_cases same : id = next
      · exact same ▸ Table.get_put_self _ _ _
      · exact (Table.get_put_ne _ _ same).trans (stage.here id mem)

theorem Reaches.record {id : RequestId}
    (reached : Reaches width (Stage next done (id :: waiting))) (apart : id ∉ waiting) :
    Reaches width (Stage next (done + 1) waiting) := by
  refine reached.step fun s stage => ?_
  have was := stage.here id List.mem_cons_self
  refine ⟨.record id .committed, _, advance_eq_some.mpr ⟨_, was, rfl, rfl⟩, rfl, stage.now, ?_, ?_,
    ?_⟩
  · have limits : Limits (s.insert id ⟨none, .counted, none⟩ .handedOn)
        ((logOf done (waiting.length + 1)).record unknown) :=
      stage.limits.insert was rfl (by decide)
    rw [logOf_record] at limits
    exact limits
  · intro other later
    have here : other ≠ id := by
      rintro rfl
      rw [stage.free other later] at was
      cases was
    exact (Table.get_put_ne _ _ here).trans (stage.free other later)
  · intro other mem
    have here : other ≠ id := fun same => apart (same ▸ mem)
    exact (Table.get_put_ne _ _ here).trans (stage.here other (List.mem_cons_of_mem _ mem))

/-- One request after the other. -/
theorem reaches_serial (positive : 0 < width) (done : Nat) (few : done ≤ REGISTER_MAX_ATTEMPTS) :
    Reaches width (Stage done done []) := by
  induction done with
  | zero => exact ⟨[], start, rfl, trivial, stage_start⟩
  | succ done ih =>
    have before := (ih (Nat.le_of_succ_le few)).arrive.count few positive
    exact before.record List.not_mem_nil

/-- The requests that are let through at once. -/
def together (first : RequestId) : Nat → List RequestId
  | 0 => []
  | count + 1 => (first + count) :: together first count

@[simp] theorem together_length (first : RequestId) (count : Nat) :
    (together first count).length = count := by
  induction count with
  | zero => rfl
  | succ count ih => rw [together, List.length_cons, ih]

theorem together_lt {first id : RequestId} {count : Nat} (mem : id ∈ together first count) :
    id < first + count := by
  induction count with
  | zero => cases mem
  | succ count ih =>
    rcases List.mem_cons.mp mem with rfl | mem
    · exact Nat.lt_succ_self _
    · exact Nat.lt_succ_of_lt (ih mem)

theorem reaches_together (done : Nat) (few : done < REGISTER_MAX_ATTEMPTS)
    (positive : 0 < width) (count : Nat) (fits : count ≤ width) :
    Reaches width (Stage (done + count) done (together done count)) := by
  induction count with
  | zero => exact reaches_serial positive done (Nat.le_of_lt few)
  | succ count ih =>
    refine (ih (Nat.le_of_succ_le fits)).arrive.count few ?_
    rw [together_length]
    exact fits

theorem Reaches.recordAll {first : RequestId} {count : Nat}
    (reached : Reaches width (Stage next done (together first count))) :
    Reaches width (Stage next (done + count) []) := by
  induction count generalizing done with
  | zero => exact reached
  | succ count ih =>
    have recorded := reached.record fun mem => Nat.lt_irrefl _ (together_lt mem)
    have rest := ih recorded
    rw [Nat.succ_add, ← Nat.add_succ] at rest
    exact rest

end Stages

/-- When the checks that let a request through find fewer than `width` requests of its address
pending, at most `width - 1` registrations more than the limit lie in a window, and as many can;
a check counts the registrations of the last hour, prunes or not. -/
theorem registrations_limited {width : Nat} :
    (∀ acts s, Replay.run step start acts = some s →
      Replay.Obeys step (fun s action => overlap width s action = true) start acts →
      (∀ eventKey first, s.registered eventKey (inWindow first) ≤
        REGISTER_MAX_ATTEMPTS - 1 + width) ∧
      ∀ request : Request, s.recent request.eventKey = s.registered request.eventKey
        (fun second => (toSecs s.now : Int) - REGISTER_WINDOW_SECS ≤ second)) ∧
    (0 < width → ∃ acts s, Replay.run step start acts = some s ∧
      Replay.Obeys step (fun s action => overlap width s action = true) start acts ∧
      s.registered unknown (inWindow 0) = REGISTER_MAX_ATTEMPTS - 1 + width) := by
  constructor
  · intro acts s ran obeys
    have follows : ∀ s t action s', Limits s t → overlap width s action = true →
        step s action = some s' → Follows width t s' := fun _ _ _ _ limits => limits.step
    obtain ⟨acts', t, reached, crowded, limits⟩ :=
      Replay.simulates_obeying follows start_limits obeys ran
    constructor
    · intro eventKey first
      rw [limits.registered]
      exact Limiter.between_le reached crowded eventKey first
    · intro request
      rw [limits.registered, ← limits.now]
      exact limits.recent request
  · intro positive
    have all := (reaches_together 9 (by decide) positive width (Nat.le_refl _)).recordAll
    obtain ⟨acts, s, ran, obeys, stage⟩ := all
    exact ⟨acts, s, ran, obeys, stage.registered⟩

/-- Two requests of one address at once, a third whose record fails, and a prune. -/
def registerTwice : List Action :=
  [.tick 5000000, .arrive 0 (some (py "1.2.3.4")), .arrive 1 (some (py "1.2.3.4")),
   .arrive 2 (some []), .count 0 none, .count 1 none, .count 2 none,
   .loginFailure (py "1.2.3.4"), .record 1 .committed, .tick 700000, .record 0 .uncommitted,
   .record 2 .nothing, .prune]

theorem registrations_limited_twice : ∃ s, Replay.run step start registerTwice = some s ∧
    (∀ eventKey first, s.registered eventKey (inWindow first) ≤ REGISTER_MAX_ATTEMPTS - 1 + 2) ∧
      s.registered (register (py "1.2.3.4")) (inWindow 5) = 2 := by
  refine ⟨_, rfl, ?_, by decide⟩
  exact ((@registrations_limited 2).1 registerTwice _ rfl (by decide)).1

end RegisterLimit
