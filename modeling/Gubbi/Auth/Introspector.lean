import Gubbi.Library.KeyedTable
import Gubbi.Library.Replay
import Gubbi.Text

/-!
# Hydra token introspection

`introspect` answers from its cache, waits for a request that is under way for
the same token, or leads a request of its own. Calls are tasks of one event loop:
a call is interrupted at its awaits only, and the in-flight lock is never held
across one, so each step below runs from one await to the next.

A cancelled call gets its `CancelledError` when it resumes, except that the
cancellation of a follower goes to the future it waits for. A token stands for
its cache key. The clock that `exp` is read by and the timer of the cache run on
their own; the size limit of the cache is an eviction at any time.
-/

namespace HydraIntrospector

open Text

abbrev CacheKey := PyStr
abbrev CallId := Nat
abbrev FutureId := Nat
abbrev Uuid := Nat
/-- `time.time()`, in the unit of `exp`. -/
abbrev Instant := Int

structure TokenClaims where
  sub : Uuid
  scope : PyStr
  exp : Instant
  deriving DecidableEq, Repr

inductive SubField
  | falsy
  | text (value : PyStr)
  | other
  deriving DecidableEq, Repr

inductive ExpField
  | absent
  | number (value : Instant)
  | other
  deriving DecidableEq, Repr

/-- The fields that are read of a reply; `active` is `body.get("active") is True`. -/
structure Body where
  active : Bool
  sub : SubField
  scope : PyStr
  exp : ExpField
  deriving DecidableEq, Repr

inductive Json
  | invalid
  | nonObject
  | object (body : Body)
  deriving DecidableEq, Repr

/-- How the POST to the admin endpoint ends. -/
inductive Reply
  | response (statusCode : Nat) (json : Json)
  | timeout
  | connectionFailed
  | httpStatusError (statusCode : Nat)
  | otherException
  deriving DecidableEq, Repr

inductive IntrospectError
  | unreachable (message : String)
  | invalidToken (message : String)
  | typeError
  | attributeError
  | otherException
  deriving DecidableEq, Repr

abbrev Verdict := Except IntrospectError TokenClaims

section Upstream
variable (parseUuid : PyStr → Option Uuid)

/-- From the `active` check on. `UUID` of something that is not a string has no
`replace`, which is not caught. -/
def checkBody (body : Body) (now : Instant) : Verdict :=
  if body.active = false then .error (.invalidToken "inactive token")
  else
    match body.sub with
    | .falsy => .error (.invalidToken "malformed sub")
    | .other => .error .attributeError
    | .text subRaw =>
      match parseUuid subRaw with
      | none => .error (.invalidToken "malformed sub")
      | some sub =>
        match body.exp with
        | .absent => .error (.invalidToken "missing exp")
        | .other => .error .typeError
        | .number exp =>
          if exp < now then .error (.invalidToken "expired")
          else .ok ⟨sub, body.scope, exp⟩

/-- `_call_upstream`, up to its last log line. -/
def callUpstream (reply : Reply) (now : Instant) : Verdict :=
  match reply with
  | .timeout => .error (.unreachable "introspect timed out")
  | .connectionFailed => .error (.unreachable "Hydra unreachable")
  | .httpStatusError statusCode => .error (.unreachable s!"Hydra HTTP error: {statusCode}")
  | .otherException => .error .otherException
  | .response statusCode json =>
    if statusCode ≥ 400 then .error (.unreachable s!"Hydra admin returned {statusCode}")
    else
      match json with
      | .invalid => .error (.unreachable "Hydra returned non-JSON body")
      | .nonObject => .error (.unreachable "Hydra returned non-object JSON body")
      | .object body => checkBody parseUuid body now

variable {parseUuid}

/-- Claims that upstream answers with have not expired when they are checked. -/
theorem le_exp_of_callUpstream {reply : Reply} {now : Instant} {claims : TokenClaims}
    (answered : callUpstream parseUuid reply now = .ok claims) : now ≤ claims.exp := by
  unfold callUpstream checkBody at answered
  repeat' split at answered
  all_goals cases answered
  next unexpired => exact Int.not_lt.mp unexpired

end Upstream

structure CacheEntry where
  claims : TokenClaims
  expires : Nat
  deriving DecidableEq

/-- `InMemoryHydraCache`, over a `TTLCache`. -/
structure Cache where
  ttlSeconds : Nat
  entries : Table CacheKey CacheEntry

def Cache.get (cache : Cache) (key : CacheKey) (timer : Nat) : Option TokenClaims :=
  ((cache.entries.get key).filter (fun entry => decide (timer < entry.expires))).map
    CacheEntry.claims

def Cache.set (cache : Cache) (key : CacheKey) (claims : TokenClaims) (timer : Nat) : Cache :=
  { cache with entries := cache.entries.put key ⟨claims, timer + cache.ttlSeconds⟩ }

/-- How a call ends. -/
inductive Outcome
  | returned (claims : TokenClaims)
  | raised (error : IntrospectError)
  | cancelledError
  | invalidStateError
  deriving DecidableEq, Repr

def Outcome.ofVerdict : Verdict → Outcome
  | .ok claims => .returned claims
  | .error error => .raised error

inductive FutureState
  | pending
  | done (outcome : Outcome)
  | cancelled
  deriving DecidableEq, Repr

/-- Where a call is suspended. A leader awaits the request, and then the log line
about its verdict. -/
inductive Phase
  | leading (fut : FutureId)
  | logging (fut : FutureId) (verdict : Verdict)
  | waiting (fut : FutureId)
  | finished (outcome : Outcome) (time : Instant)
  deriving DecidableEq

/-- `mustCancel` is the exception that waits for the call to resume; `cancelled`
remembers that the call was cancelled. -/
structure Call where
  key : CacheKey
  phase : Phase
  mustCancel : Bool
  cancelled : Bool
  deriving DecidableEq

/-- The future that a call leads. -/
def Call.leads (call : Call) : Option FutureId :=
  match call.phase with
  | .leading fut => some fut
  | .logging fut _ => some fut
  | .waiting _ => none
  | .finished _ _ => none

/-- The future that a running call leads or waits for. -/
def Call.future (call : Call) : Option FutureId :=
  match call.phase with
  | .leading fut => some fut
  | .logging fut _ => some fut
  | .waiting fut => some fut
  | .finished _ _ => none

/-- `verdicts` logs what the requests of each token came to, newest first. -/
structure World where
  now : Instant
  timer : Nat
  cache : Option Cache
  inflight : Table CacheKey FutureId
  futures : Table FutureId FutureState
  calls : Table CallId Call
  verdicts : List (CacheKey × Verdict)

/-- A new introspector, with a cache of some TTL or without one. -/
def start (now : Instant) (ttlSeconds : Option Nat) : World :=
  { now := now, timer := 0, cache := ttlSeconds.map (fun ttl => ⟨ttl, Table.empty⟩),
    inflight := Table.empty, futures := Table.empty, calls := Table.empty, verdicts := [] }

def World.lookup (w : World) (key : CacheKey) : Option TokenClaims :=
  w.cache.bind (fun cache => cache.get key w.timer)

def World.remember (w : World) (key : CacheKey) (verdict : Verdict) : World :=
  match verdict with
  | .ok claims => { w with cache := w.cache.map (fun cache => cache.set key claims w.timer) }
  | .error _ => w

def World.putCall (w : World) (c : CallId) (call : Call) : World :=
  { w with calls := w.calls.put c call }

def World.finish (w : World) (c : CallId) (call : Call) (outcome : Outcome) : World :=
  w.putCall c { call with phase := .finished outcome w.now }

/-- The end of a leader: it sets its future and takes it off the map. Setting a
future that is done raises `InvalidStateError`, and so does the handler's attempt. -/
def World.settle (w : World) (c : CallId) (call : Call) (fut : FutureId) (outcome : Outcome) :
    World :=
  if w.futures.get fut = some .pending then
    World.finish { w with
      futures := w.futures.put fut (.done outcome)
      inflight := w.inflight.erase call.key } c call outcome
  else
    World.finish { w with inflight := w.inflight.erase call.key } c call .invalidStateError

/-- What `await fut` comes to on a future that is not pending. -/
def FutureState.outcome? : FutureState → Option Outcome
  | .pending => none
  | .done outcome => some outcome
  | .cancelled => some .cancelledError

section Steps
variable (parseUuid : PyStr → Option Uuid)

/-- `introspect`, up to its first await. -/
def introspect (w : World) (c : CallId) (key : CacheKey) : Option World :=
  if w.calls.get c = none then
    match w.lookup key with
    | some claims =>
      some (w.putCall c ⟨key, .finished (.returned claims) w.now, false, false⟩)
    | none =>
      match w.inflight.get key with
      | some fut => some (w.putCall c ⟨key, .waiting fut, false, false⟩)
      | none =>
        some (World.putCall { w with
          futures := w.futures.put w.futures.freshKey .pending
          inflight := w.inflight.put key w.futures.freshKey } c
          ⟨key, .leading w.futures.freshKey, false, false⟩)
  else none

/-- `task.cancel()`. -/
def cancel (w : World) (c : CallId) : Option World :=
  match w.calls.get c with
  | none => none
  | some call =>
    match call.phase with
    | .finished _ _ => none
    | .waiting fut =>
      if w.futures.get fut = some .pending then
        some (World.putCall { w with futures := w.futures.put fut .cancelled } c
          { call with cancelled := true })
      else some (w.putCall c { call with mustCancel := true, cancelled := true })
    | .leading _ => some (w.putCall c { call with mustCancel := true, cancelled := true })
    | .logging _ _ => some (w.putCall c { call with mustCancel := true, cancelled := true })

/-- The reply of Hydra reaches the leader. -/
def receive (w : World) (c : CallId) (reply : Reply) : Option World :=
  match w.calls.get c with
  | none => none
  | some call =>
    match call.phase with
    | .leading fut =>
      if call.mustCancel then none
      else
        let verdict := callUpstream parseUuid reply w.now
        some (World.putCall { w with verdicts := (call.key, verdict) :: w.verdicts } c
          { call with phase := .logging fut verdict })
    | _ => none

/-- The leader leaves `_call_upstream` with its verdict. -/
def resolve (w : World) (c : CallId) : Option World :=
  match w.calls.get c with
  | none => none
  | some call =>
    match call.phase with
    | .logging fut verdict =>
      if call.mustCancel then none
      else some ((w.remember call.key verdict).settle c call fut (.ofVerdict verdict))
    | _ => none

/-- A cancelled leader resumes with its `CancelledError`. -/
def unwind (w : World) (c : CallId) : Option World :=
  match w.calls.get c with
  | none => none
  | some call =>
    match call.leads with
    | some fut => if call.mustCancel then some (w.settle c call fut .cancelledError) else none
    | none => none

/-- A follower resumes, once its future is done or an exception waits for it. -/
def wake (w : World) (c : CallId) : Option World :=
  match w.calls.get c with
  | none => none
  | some call =>
    match call.phase with
    | .waiting fut =>
      ((w.futures.get fut).bind FutureState.outcome?).map fun outcome =>
        w.finish c call (if call.mustCancel then .cancelledError else outcome)
    | _ => none

inductive Action
  | introspect (c : CallId) (key : CacheKey)
  | cancel (c : CallId)
  | receive (c : CallId) (reply : Reply)
  | resolve (c : CallId)
  | unwind (c : CallId)
  | wake (c : CallId)
  | tick (elapsed ran : Nat)
  | evict (key : CacheKey)
  deriving DecidableEq

def step (w : World) : Action → Option World
  | .introspect c key => introspect w c key
  | .cancel c => cancel w c
  | .receive c reply => receive parseUuid w c reply
  | .resolve c => resolve w c
  | .unwind c => unwind w c
  | .wake c => wake w c
  | .tick elapsed ran => some { w with now := w.now + elapsed, timer := w.timer + ran }
  | .evict key =>
    some { w with cache := w.cache.map (fun cache =>
      { cache with entries := cache.entries.erase key }) }

end Steps

end HydraIntrospector
