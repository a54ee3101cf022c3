import Gubbi.Library.Replay
import Gubbi.Library.Windows
import Gubbi.OAuth.Storage

/-!
# The login lockout

A POST to `/login` counts the failures of its client, then checks the form and
the password, and records a failure afterwards. Each of the three is a step of
its own, and requests of all clients interleave; the password check itself does
not wait for anything. Time passes between the steps and never backwards. The
storage does not fail, and cleanup may prune old events at any moment.
-/

namespace LoginLimit

open Text OAuthStorage

structure Event where
  eventKey : PyStr
  occurredAt : Secs
  deriving DecidableEq

def recordEvent (events : List Event) (eventKey : PyStr) (now : Micros) : List Event :=
  events ++ [⟨eventKey, toSecs now⟩]

def countSince (events : List Event) (eventKey : PyStr) (cutoff : Int) : Nat :=
  Windows.since (fun event => (event.occurredAt : Int)) (fun event => event.eventKey = eventKey)
    events cutoff

def countEvents (events : List Event) (eventKey : PyStr) (windowSecs : Secs) (now : Micros) :
    Nat :=
  countSince events eventKey ((toSecs now : Int) - windowSecs)

def prune (events : List Event) (retentionSecs : Secs) (now : Micros) : List Event :=
  events.filter (fun event =>
    !decide ((event.occurredAt : Int) < (toSecs now : Int) - retentionSecs))

def LOGIN_MAX_FAILURES : Nat := 10
def LOGIN_LOCKOUT_WINDOW_SECS : Secs := 300
def RATE_LIMIT_EVENT_RETENTION_SECS : Secs := 3600

/-- `Must be >= max(LOGIN_LOCKOUT_WINDOW_SECS, REGISTER_WINDOW_SECS)`. -/
theorem retention_covers_window :
    (LOGIN_LOCKOUT_WINDOW_SECS : Int) ≤ RATE_LIMIT_EVENT_RETENTION_SECS := by
  decide

theorem countSince_recordEvent (events : List Event) (recorded eventKey : PyStr) (cutoff : Int)
    (now : Micros) :
    countSince (recordEvent events recorded now) eventKey cutoff =
      countSince events eventKey cutoff +
        (recorded = eventKey && decide (cutoff ≤ (toSecs now : Int))).toNat :=
  Windows.since_append _ _

theorem countSince_le_recordEvent (events : List Event) (recorded eventKey : PyStr)
    (cutoff : Int) (now : Micros) :
    countSince events eventKey cutoff ≤
      countSince (recordEvent events recorded now) eventKey cutoff := by
  rw [countSince_recordEvent]
  exact Nat.le_add_right _ _

/-- Pruned events are older than anything that is counted from then on. -/
theorem countSince_prune (events : List Event) (eventKey : PyStr) {retentionSecs : Secs}
    {now : Micros} {cutoff : Int} (recent : (toSecs now : Int) - retentionSecs ≤ cutoff) :
    countSince (prune events retentionSecs now) eventKey cutoff =
      countSince events eventKey cutoff := by
  apply Windows.since_filter
  intro event counted
  have kept : ¬ (event.occurredAt : Int) < (toSecs now : Int) - retentionSecs :=
    not_lt.mpr (le_trans recent counted)
  rw [decide_eq_false kept, Bool.not_false]

/-- What a POST brings along, and the address it comes from. -/
structure LoginForm where
  clientHost : PyStr
  cookieCsrf : PyStr
  formCsrf : PyStr
  clientId : PyStr
  redirectUri : PyStr
  password : PyStr

inductive Response
  | html (content : PyStr) (statusCode : Nat)
  | loginPage (error : PyStr)
  | redirect (redirectUri : PyStr)
  | raised (error : PyError)
  deriving DecidableEq

inductive Phase
  | arrived
  | counted
  | failed
  | answered (response : Response)
  deriving DecidableEq

structure Request where
  form : LoginForm
  phase : Phase

abbrev RequestId := Nat

/-- A password verification that failed, with the key of its client. -/
structure Failure where
  eventKey : PyStr
  time : Micros
  deriving DecidableEq

structure State where
  now : Micros
  events : List Event
  requests : Table RequestId Request
  failures : List Failure

def start : State := ⟨0, [], Table.empty, []⟩

def loginFailure (clientHost : PyStr) : PyStr := py "login_failure:" ++ clientHost

def Request.eventKey (request : Request) : PyStr := loginFailure request.form.clientHost

def tooManyAttempts : Response := .html (py "Too many failed attempts. Try again later.") 429
def csrfFailed : Response := .html (py "CSRF validation failed") 403
def invalidClient : Response := .html (py "Invalid client") 400
def invalidRedirectUri : Response := .html (py "Invalid redirect_uri") 400
def invalidPassword : Response := .loginPage (py "Invalid password")

def csrfMatches (form : LoginForm) : Except PyError Bool :=
  if form.formCsrf = [] ∨ form.cookieCsrf = [] then .ok false
  else compareDigest form.formCsrf form.cookieCsrf

section Handler
variable (checkpw : Bytes → Bytes → Except PyError Bool) (passwordHash : Bytes)

/-- `bcrypt.checkpw` on the encoded password; a lone surrogate cannot be encoded. -/
def verifyPassword (form : LoginForm) : Except PyError Bool :=
  match encodeUtf8 form.password with
  | none => .error (.valueError "surrogates not allowed")
  | some password => checkpw password passwordHash

/-- From the CSRF check to the password check. `client` is the list of redirect
URIs that `get_client` returns. -/
def verify (form : LoginForm) (client : Option (List PyStr)) : Phase :=
  match csrfMatches form with
  | .error error => .answered (.raised error)
  | .ok false => .answered csrfFailed
  | .ok true =>
    match client with
    | none => .answered invalidClient
    | some registeredUris =>
      if form.redirectUri ∉ registeredUris then .answered invalidRedirectUri
      else
        match verifyPassword checkpw passwordHash form with
        | .error error => .answered (.raised error)
        | .ok false => .failed
        | .ok true => .answered (.redirect form.redirectUri)

inductive Action
  | tick (elapsed : Micros)
  | post (id : RequestId) (form : LoginForm)
  | count (id : RequestId)
  | verify (id : RequestId) (client : Option (List PyStr))
  | record (id : RequestId)
  | register (clientHost : PyStr)
  | prune

def State.move (s : State) (id : RequestId) (request : Request) (phase : Phase) : State :=
  { s with requests := s.requests.put id { request with phase := phase } }

def State.recent (s : State) (eventKey : PyStr) : Nat :=
  countEvents s.events eventKey LOGIN_LOCKOUT_WINDOW_SECS s.now

def State.count (s : State) (id : RequestId) (request : Request) : State :=
  s.move id request
    (if s.recent request.eventKey ≥ LOGIN_MAX_FAILURES then .answered tooManyAttempts
    else .counted)

def State.verify (s : State) (id : RequestId) (request : Request)
    (client : Option (List PyStr)) : State :=
  let phase := LoginLimit.verify checkpw passwordHash request.form client
  { s.move id request phase with
    failures :=
      if phase = .failed then s.failures ++ [⟨request.eventKey, s.now⟩] else s.failures }

def State.record (s : State) (id : RequestId) (request : Request) : State :=
  { s.move id request (.answered invalidPassword) with
    events := recordEvent s.events request.eventKey s.now }

/-- One step of a request that is in a given phase. -/
def State.advance (s : State) (id : RequestId) (phase : Phase) (next : Request → State) :
    Option State :=
  (s.requests.get id).bind fun request =>
    if request.phase = phase then some (next request) else none

/-- `register` is the attempt that the registration route records in the same
table, under its own prefix. -/
def step (s : State) : Action → Option State
  | .tick elapsed => some { s with now := s.now + elapsed }
  | .post id form =>
    if s.requests.get id = none then
      some { s with requests := s.requests.put id ⟨form, .arrived⟩ }
    else none
  | .count id => s.advance id .arrived (s.count id)
  | .verify id client => s.advance id .counted (fun request =>
      s.verify checkpw passwordHash id request client)
  | .record id => s.advance id .failed (s.record id)
  | .register clientHost =>
    some { s with events := recordEvent s.events (py "register:" ++ clientHost) s.now }
  | .prune =>
    some { s with events := LoginLimit.prune s.events RATE_LIMIT_EVENT_RETENTION_SECS s.now }

/-- The password of the form does not verify. -/
def Request.wrong (request : Request) : Bool :=
  match verifyPassword checkpw passwordHash request.form with
  | .ok false => true
  | _ => false

def State.failuresSince (s : State) (eventKey : PyStr) (since : Micros) : Nat :=
  Windows.since Failure.time (fun failure => failure.eventKey = eventKey) s.failures since

def LOCKOUT_WINDOW : Micros := LOGIN_LOCKOUT_WINDOW_SECS * 1000000

/-- The failed verifications in the window that starts at an instant. -/
def State.failuresWithin (s : State) (eventKey : PyStr) (start : Micros) : Nat :=
  Windows.between Failure.time (fun failure => failure.eventKey = eventKey) s.failures start
    (start + LOCKOUT_WINDOW)

/-- Failed verifications that are not in the table yet. -/
def State.unrecorded (s : State) (eventKey : PyStr) : Nat :=
  s.requests.countWhere (fun _ request =>
    request.phase = .failed && request.eventKey = eventKey)

/-- Requests past the check whose verification is going to fail. -/
def State.unverified (s : State) (eventKey : PyStr) : Nat :=
  s.requests.countWhere (fun _ request =>
    request.phase = .counted && (request.wrong checkpw passwordHash && request.eventKey = eventKey))

/-- A check that lets a wrong password through leaves room for every request of
the client that is on its way to a failure. -/
def leavesRoom (s : State) : Action → Bool
  | .count id =>
    (s.requests.get id).all (fun request =>
      !request.wrong checkpw passwordHash || LOGIN_MAX_FAILURES ≤ s.recent request.eventKey ||
        s.recent request.eventKey + s.unrecorded request.eventKey +
          s.unverified checkpw passwordHash request.eventKey < LOGIN_MAX_FAILURES)
  | _ => true

section Steps
variable {checkpw passwordHash}
variable {s t : State} {id : RequestId} {request : Request} {phase : Phase}

theorem advance_eq_some {next : Request → State} : s.advance id phase next = some t ↔
    ∃ request, s.requests.get id = some request ∧ request.phase = phase ∧ t = next request := by
  simp only [State.advance, Option.bind_eq_some_iff, Replay.guarded_eq_some]

theorem verify_cases (form : LoginForm) (client : Option (List PyStr)) :
    (verify checkpw passwordHash form client = .failed ∧
      verifyPassword checkpw passwordHash form = .ok false) ∨
      ∃ response, verify checkpw passwordHash form client = .answered response := by
  unfold verify
  cases csrfMatches form with
  | error error => exact Or.inr ⟨_, rfl⟩
  | ok same =>
    cases same with
    | false => exact Or.inr ⟨_, rfl⟩
    | true =>
      cases client with
      | none => exact Or.inr ⟨_, rfl⟩
      | some registeredUris =>
        by_cases registered : form.redirectUri ∉ registeredUris
        · exact Or.inr ⟨_, if_pos registered⟩
        · simp only [if_neg registered]
          cases verifyPassword checkpw passwordHash form with
          | error error => exact Or.inr ⟨_, rfl⟩
          | ok right =>
            cases right with
            | false => exact Or.inl ⟨rfl, rfl⟩
            | true => exact Or.inr ⟨_, rfl⟩

theorem wrong_of_verify {client : Option (List PyStr)}
    (failed : verify checkpw passwordHash request.form client = .failed) :
    request.wrong checkpw passwordHash = true := by
  rcases verify_cases request.form client with ⟨_, wrong⟩ | ⟨response, answered⟩
  · rw [Request.wrong, wrong]
  · rw [failed] at answered
    cases answered

theorem verify_ne_counted (form : LoginForm) (client : Option (List PyStr)) :
    verify checkpw passwordHash form client ≠ .counted := by
  rcases verify_cases form client with ⟨failed, _⟩ | ⟨response, answered⟩
  · rw [failed]
    exact fun h => by cases h
  · rw [answered]
    exact fun h => by cases h

/-- One request going on to another phase changes a count of requests by itself. -/
theorem countWhere_move (was : s.requests.get id = some request)
    (moved : t.requests = s.requests.put id { request with phase := phase })
    (p : Request → Bool) :
    t.requests.countWhere (fun _ request => p request) + (p request).toNat =
      s.requests.countWhere (fun _ request => p request) +
        (p { request with phase := phase }).toNat := by
  have h := Table.countWhere_put s.requests (fun _ request => p request) id
    { request with phase := phase }
  rw [was, Option.any_some] at h
  rw [moved]
  exact h

theorem unrecorded_move (was : s.requests.get id = some request)
    (moved : t.requests = s.requests.put id { request with phase := phase }) (eventKey : PyStr) :
    t.unrecorded eventKey + (request.phase = .failed && request.eventKey = eventKey).toNat =
      s.unrecorded eventKey + (phase = .failed && request.eventKey = eventKey).toNat :=
  countWhere_move was moved (fun request => request.phase = .failed && request.eventKey = eventKey)

theorem unverified_move (was : s.requests.get id = some request)
    (moved : t.requests = s.requests.put id { request with phase := phase }) (eventKey : PyStr) :
    t.unverified checkpw passwordHash eventKey + (request.phase = .counted &&
        (request.wrong checkpw passwordHash && request.eventKey = eventKey)).toNat =
      s.unverified checkpw passwordHash eventKey + (phase = .counted &&
        (request.wrong checkpw passwordHash && request.eventKey = eventKey)).toNat :=
  countWhere_move was moved (fun request => request.phase = .counted &&
    (request.wrong checkpw passwordHash && request.eventKey = eventKey))

/-- A verification that fails is a failure of now. -/
theorem failures_verify {client : Option (List PyStr)}
    (failed : verify checkpw passwordHash request.form client = .failed) :
    (s.verify checkpw passwordHash id request client).failures =
      s.failures ++ [⟨request.eventKey, s.now⟩] :=
  if_pos failed

theorem failures_verify_same {client : Option (List PyStr)}
    (passed : verify checkpw passwordHash request.form client ≠ .failed) :
    (s.verify checkpw passwordHash id request client).failures = s.failures :=
  if_neg passed

end Steps

/-- Of the failures that the retention keeps, those of a client since any instant
are in the table or belong to a request that has yet to record its own. -/
structure Counted (s : State) : Prop where
  past : ∀ failure ∈ s.failures, failure.time ≤ s.now
  recorded : ∀ (eventKey : PyStr) (since : Micros),
    (toSecs s.now : Int) - RATE_LIMIT_EVENT_RETENTION_SECS ≤ toSecs since →
      s.failuresSince eventKey since ≤
        countSince s.events eventKey (toSecs since) + s.unrecorded eventKey

theorem toSecs_sub_window (now : Micros) :
    (toSecs now : Int) - LOGIN_LOCKOUT_WINDOW_SECS ≤ toSecs (now - LOCKOUT_WINDOW) := by
  have whole : ∀ n : Nat, n / 1000000 ≤ (n - 300000000) / 1000000 + 300 := by
    intro n
    omega
  have window : LOCKOUT_WINDOW = 300000000 := rfl
  rw [window]
  exact Int.sub_right_le_of_le_add (Int.ofNat_le.mpr (whole now))

theorem toSecs_mono {a b : Micros} (h : a ≤ b) : toSecs a ≤ toSecs b := Nat.div_le_div_right h

section Recording
variable {checkpw passwordHash}
variable {s t : State} {id : RequestId} {request : Request}

theorem failuresSince_append {failures : List Failure} {failure : Failure}
    (appended : t.failures = failures ++ [failure]) (same : s.failures = failures)
    (eventKey : PyStr) (since : Micros) :
    t.failuresSince eventKey since = s.failuresSince eventKey since +
      (failure.eventKey = eventKey && decide (since ≤ failure.time)).toNat := by
  rw [State.failuresSince, State.failuresSince, appended, same]
  exact Windows.since_append failure since

/-- A step that makes no failure and takes no event away from the counts. -/
theorem Counted.quiet (counted : Counted s) (failures : t.failures = s.failures)
    (later : s.now ≤ t.now)
    (stays : ∀ (eventKey : PyStr) (since : Micros),
      (toSecs t.now : Int) - RATE_LIMIT_EVENT_RETENTION_SECS ≤ toSecs since → since ≤ s.now →
        countSince s.events eventKey (toSecs since) + s.unrecorded eventKey ≤
          countSince t.events eventKey (toSecs since) + t.unrecorded eventKey) : Counted t where
  past := by
    intro failure member
    rw [failures] at member
    exact le_trans (counted.past failure member) later
  recorded := by
    intro eventKey since recent
    have same : t.failuresSince eventKey since = s.failuresSince eventKey since := by
      rw [State.failuresSince, State.failuresSince, failures]
    rw [same]
    rcases Nat.lt_or_ge s.now since with future | hsince
    · rw [State.failuresSince, Windows.since_future counted.past future]
      exact Nat.zero_le _
    · have mono : (toSecs s.now : Int) ≤ toSecs t.now := Int.ofNat_le.mpr (toSecs_mono later)
      have kept := le_trans (Int.sub_le_sub_right mono _) recent
      have earlier := counted.recorded eventKey since kept
      exact le_trans earlier (stays eventKey since recent hsince)

theorem Counted.start : Counted start where
  past := fun failure member => by cases member
  recorded := fun _ _ _ => Nat.zero_le _

theorem Counted.post (counted : Counted s) {form : LoginForm}
    (unused : s.requests.get id = none) :
    Counted { s with requests := s.requests.put id ⟨form, .arrived⟩ } := by
  refine counted.quiet rfl (Nat.le_refl _) ?_
  intro eventKey since _ _
  have h := Table.countWhere_put s.requests (fun _ request =>
    request.phase = .failed && request.eventKey = eventKey) id ⟨form, .arrived⟩
  rw [unused] at h
  exact Nat.add_le_add_left (Nat.le_of_eq h.symm) _

theorem Counted.count (counted : Counted s) (was : s.requests.get id = some request)
    (arrived : request.phase = .arrived) : Counted (s.count id request) := by
  refine counted.quiet rfl (Nat.le_refl _) ?_
  intro eventKey since _ _
  have h := unrecorded_move (t := s.count id request) was rfl eventKey
  rw [arrived] at h
  refine Nat.add_le_add_left ?_ _
  exact le_trans (Nat.le_add_right _ _) (Nat.le_of_eq h.symm)

theorem Counted.record (counted : Counted s) (was : s.requests.get id = some request)
    (failed : request.phase = .failed) : Counted (s.record id request) := by
  refine counted.quiet rfl (Nat.le_refl _) ?_
  intro eventKey since _ hsince
  have h := unrecorded_move (t := s.record id request) was rfl eventKey
  have secs : ((toSecs since : Nat) : Int) ≤ toSecs s.now := Int.ofNat_le.mpr (toSecs_mono hsince)
  have events := countSince_recordEvent s.events request.eventKey eventKey (toSecs since) s.now
  rw [failed] at h
  simp only [decide_true, Bool.true_and, reduceCtorEq, decide_false, Bool.false_and,
    Bool.toNat_false, Nat.add_zero] at h
  simp only [secs, decide_true, Bool.and_true] at events
  show _ ≤ countSince (recordEvent s.events request.eventKey s.now) eventKey (toSecs since) + _
  omega

theorem Counted.verify (counted : Counted s) (was : s.requests.get id = some request)
    (passed : request.phase = .counted) (client : Option (List PyStr)) :
    Counted (s.verify checkpw passwordHash id request client) := by
  have moved := unrecorded_move (t := s.verify checkpw passwordHash id request client) was rfl
  by_cases hfailed : LoginLimit.verify checkpw passwordHash request.form client = .failed
  · constructor
    · intro failure member
      rw [failures_verify hfailed] at member
      rcases List.mem_append.mp member with old | new
      · exact counted.past failure old
      · cases List.mem_singleton.mp new
        exact Nat.le_refl _
    · intro eventKey since recent
      have before := counted.recorded eventKey since recent
      have one : (s.verify checkpw passwordHash id request client).failuresSince eventKey since =
          s.failuresSince eventKey since +
            (request.eventKey = eventKey && decide (since ≤ s.now)).toNat :=
        failuresSince_append (failures_verify hfailed) rfl eventKey since
      have h := moved eventKey
      rw [passed, hfailed] at h
      simp only [decide_true, Bool.true_and, reduceCtorEq, decide_false, Bool.false_and,
        Bool.toNat_false, Nat.add_zero] at h
      have atMost : (request.eventKey = eventKey && decide (since ≤ s.now)).toNat ≤
          (decide (request.eventKey = eventKey)).toNat := by
        cases decide (request.eventKey = eventKey)
        · exact Nat.le_refl _
        · exact Bool.toNat_le _
      show _ ≤ countSince s.events eventKey (toSecs since) + _
      omega
  · refine counted.quiet (failures_verify_same hfailed) (Nat.le_refl _) ?_
    intro eventKey since _ _
    have h := moved eventKey
    rw [passed] at h
    exact Nat.add_le_add_left (le_trans (Nat.le_add_right _ _) (Nat.le_of_eq h.symm)) _

theorem Counted.step {action : Action} (counted : Counted s)
    (enabled : step checkpw passwordHash s action = some t) : Counted t := by
  cases action with
  | tick elapsed =>
    cases enabled
    exact counted.quiet rfl (Nat.le_add_right _ _) (fun _ _ _ _ => Nat.le_refl _)
  | post id form =>
    obtain ⟨unused, rfl⟩ := Replay.guarded_eq_some.mp enabled
    exact counted.post unused
  | count id =>
    obtain ⟨request, was, arrived, rfl⟩ := advance_eq_some.mp enabled
    exact counted.count was arrived
  | verify id client =>
    obtain ⟨request, was, passed, rfl⟩ := advance_eq_some.mp enabled
    exact counted.verify was passed client
  | record id =>
    obtain ⟨request, was, failed, rfl⟩ := advance_eq_some.mp enabled
    exact counted.record was failed
  | register clientHost =>
    cases enabled
    refine counted.quiet rfl (Nat.le_refl _) ?_
    intro eventKey since _ _
    exact Nat.add_le_add_right (countSince_le_recordEvent _ _ _ _ _) _
  | prune =>
    cases enabled
    refine counted.quiet rfl (Nat.le_refl _) ?_
    intro eventKey since recent _
    exact Nat.add_le_add_right (Nat.le_of_eq (countSince_prune s.events eventKey recent).symm) _

end Recording

/-- The failures of the last window and those to come share the allowance. -/
def Ahead (s : State) : Prop :=
  ∀ eventKey, s.failuresSince eventKey (s.now - LOCKOUT_WINDOW) +
    s.unverified checkpw passwordHash eventKey ≤ LOGIN_MAX_FAILURES

def Within (s : State) : Prop :=
  ∀ eventKey start, s.failuresWithin eventKey start ≤ LOGIN_MAX_FAILURES

/-- What every state of a run that leaves room satisfies. -/
structure Bounded (s : State) : Prop where
  counted : Counted s
  ahead : Ahead checkpw passwordHash s
  within : Within s

section Bound
variable {checkpw passwordHash}
variable {s t : State} {id : RequestId} {request : Request}

/-- What the check counts and what is not recorded yet cover the last window. -/
theorem Counted.recent (counted : Counted s) (eventKey : PyStr) :
    s.failuresSince eventKey (s.now - LOCKOUT_WINDOW) ≤
      s.recent eventKey + s.unrecorded eventKey := by
  have cutoff : (toSecs s.now : Int) - LOGIN_LOCKOUT_WINDOW_SECS ≤
      toSecs (s.now - LOCKOUT_WINDOW) :=
    toSecs_sub_window s.now
  have kept : (toSecs s.now : Int) - RATE_LIMIT_EVENT_RETENTION_SECS ≤
      toSecs (s.now - LOCKOUT_WINDOW) :=
    le_trans (Int.sub_le_sub_left retention_covers_window _) cutoff
  have fewer : countSince s.events eventKey (toSecs (s.now - LOCKOUT_WINDOW)) ≤
      s.recent eventKey :=
    Windows.since_anti cutoff
  exact le_trans (counted.recorded eventKey _ kept) (Nat.add_le_add_right fewer _)

/-- A step after which as few failures are to come. -/
theorem Ahead.quiet (ahead : Ahead checkpw passwordHash s) (failures : t.failures = s.failures)
    (later : s.now ≤ t.now) (fewer : ∀ eventKey, t.unverified checkpw passwordHash eventKey ≤
      s.unverified checkpw passwordHash eventKey) : Ahead checkpw passwordHash t := by
  intro eventKey
  have same : ∀ since, t.failuresSince eventKey since = s.failuresSince eventKey since := by
    intro since
    rw [State.failuresSince, State.failuresSince, failures]
  rw [same]
  have shorter : s.failuresSince eventKey (t.now - LOCKOUT_WINDOW) ≤
      s.failuresSince eventKey (s.now - LOCKOUT_WINDOW) :=
    Windows.since_anti (Nat.sub_le_sub_right later LOCKOUT_WINDOW)
  exact le_trans (Nat.add_le_add shorter (fewer eventKey)) (ahead eventKey)

theorem Within.quiet (within : Within s) (failures : t.failures = s.failures) : Within t := by
  intro eventKey start
  rw [State.failuresWithin, failures]
  exact within eventKey start

theorem Ahead.post (ahead : Ahead checkpw passwordHash s) {form : LoginForm}
    (unused : s.requests.get id = none) :
    Ahead checkpw passwordHash { s with requests := s.requests.put id ⟨form, .arrived⟩ } := by
  refine ahead.quiet rfl (Nat.le_refl _) ?_
  intro eventKey
  have h := Table.countWhere_put s.requests (fun _ request => request.phase = .counted &&
    (request.wrong checkpw passwordHash && request.eventKey = eventKey)) id ⟨form, .arrived⟩
  rw [unused] at h
  exact Nat.le_of_eq h

/-- A request that the check lets through takes up a place that is free. -/
theorem Ahead.count (counted : Counted s) (ahead : Ahead checkpw passwordHash s)
    (was : s.requests.get id = some request) (arrived : request.phase = .arrived)
    (room : leavesRoom checkpw passwordHash s (.count id) = true) :
    Ahead checkpw passwordHash (s.count id request) := by
  have moved := @unverified_move checkpw passwordHash s (s.count id request) id request _ was rfl
  simp only [arrived, reduceCtorEq, decide_false, Bool.false_and, Bool.toNat_false,
    Nat.add_zero] at moved
  simp only [leavesRoom, was, Option.all_some, Bool.or_eq_true, Bool.not_eq_true',
    decide_eq_true_eq] at room
  have same : ∀ eventKey since, (s.count id request).failuresSince eventKey since =
      s.failuresSince eventKey since := fun _ _ => rfl
  intro eventKey
  show (s.count id request).failuresSince eventKey (s.now - LOCKOUT_WINDOW) + _ ≤ _
  rw [same, moved]
  by_cases hkey : request.eventKey = eventKey
  · subst hkey
    rcases room with (right | full) | room
    · rw [right, Bool.false_and, Bool.and_false]
      exact ahead request.eventKey
    · rw [if_pos full]
      exact ahead request.eventKey
    · have covered := counted.recent request.eventKey
      have one := Bool.toNat_le (decide ((if s.recent request.eventKey ≥ LOGIN_MAX_FAILURES then
        Phase.answered tooManyAttempts else .counted) = .counted) &&
          (request.wrong checkpw passwordHash && decide (request.eventKey = request.eventKey)))
      omega
  · rw [decide_eq_false hkey, Bool.and_false, Bool.and_false]
    exact ahead eventKey

/-- A failing verification turns a failure to come into one of the past. -/
theorem Ahead.verify (ahead : Ahead checkpw passwordHash s)
    (was : s.requests.get id = some request) (passed : request.phase = .counted)
    (client : Option (List PyStr)) :
    Ahead checkpw passwordHash (s.verify checkpw passwordHash id request client) := by
  have moved := @unverified_move checkpw passwordHash s
    (s.verify checkpw passwordHash id request client) id request _ was rfl
  by_cases hfailed : LoginLimit.verify checkpw passwordHash request.form client = .failed
  · intro eventKey
    have before := ahead eventKey
    have one : (s.verify checkpw passwordHash id request client).failuresSince eventKey
          (s.now - LOCKOUT_WINDOW) = s.failuresSince eventKey (s.now - LOCKOUT_WINDOW) +
          (request.eventKey = eventKey && decide (s.now - LOCKOUT_WINDOW ≤ s.now)).toNat :=
      failuresSince_append (failures_verify hfailed) rfl eventKey _
    have h := moved eventKey
    rw [passed, hfailed, wrong_of_verify hfailed] at h
    simp only [decide_true, Bool.true_and, reduceCtorEq, decide_false, Bool.false_and,
      Bool.toNat_false, Nat.add_zero] at h
    rw [decide_eq_true (Nat.sub_le s.now LOCKOUT_WINDOW), Bool.and_true] at one
    show (s.verify checkpw passwordHash id request client).failuresSince eventKey
      (s.now - LOCKOUT_WINDOW) + _ ≤ _
    omega
  · refine ahead.quiet (failures_verify_same hfailed) (Nat.le_refl _) ?_
    intro eventKey
    have h := moved eventKey
    rw [decide_eq_false (verify_ne_counted request.form client), Bool.false_and] at h
    exact le_trans (Nat.le_add_right _ _) (Nat.le_of_eq h)

theorem Within.verify (within : Within s) (client : Option (List PyStr))
    (ahead : Ahead checkpw passwordHash (s.verify checkpw passwordHash id request client)) :
    Within (s.verify checkpw passwordHash id request client) := by
  by_cases hfailed : LoginLimit.verify checkpw passwordHash request.form client = .failed
  · intro eventKey start
    by_cases inside : start ≤ s.now ∧ s.now ≤ start + LOCKOUT_WINDOW
    · -- a window that reaches the present lies in the last one
      have last : (s.verify checkpw passwordHash id request client).failuresWithin eventKey
          start ≤ (s.verify checkpw passwordHash id request client).failuresSince eventKey
            (s.now - LOCKOUT_WINDOW) :=
        Windows.between_le_since (Nat.sub_le_iff_le_add.mpr inside.2)
      exact le_trans last (le_trans (Nat.le_add_right _ _) (ahead eventKey))
    · have outside : (s.verify checkpw passwordHash id request client).failuresWithin eventKey
          start = s.failuresWithin eventKey start := by
        rw [State.failuresWithin, failures_verify hfailed]
        exact Windows.between_append inside
      rw [outside]
      exact within eventKey start
  · exact within.quiet (failures_verify_same hfailed)

theorem Bounded.start : Bounded checkpw passwordHash start where
  counted := Counted.start
  ahead := fun _ => Nat.zero_le _
  within := fun _ _ => Nat.zero_le _

theorem Bounded.step {action : Action} (bounded : Bounded checkpw passwordHash s)
    (room : leavesRoom checkpw passwordHash s action = true)
    (enabled : step checkpw passwordHash s action = some t) :
    Bounded checkpw passwordHash t := by
  have counted := bounded.counted.step enabled
  have ahead := bounded.ahead
  have within := bounded.within
  cases action with
  | tick elapsed =>
    cases enabled
    exact ⟨counted, ahead.quiet rfl (Nat.le_add_right _ _) (fun _ => Nat.le_refl _),
      within.quiet rfl⟩
  | post id form =>
    obtain ⟨unused, rfl⟩ := Replay.guarded_eq_some.mp enabled
    exact ⟨counted, ahead.post unused, within.quiet rfl⟩
  | count id =>
    obtain ⟨request, was, arrived, rfl⟩ := advance_eq_some.mp enabled
    exact ⟨counted, Ahead.count bounded.counted ahead was arrived room, within.quiet rfl⟩
  | verify id client =>
    obtain ⟨request, was, passed, rfl⟩ := advance_eq_some.mp enabled
    have next := ahead.verify was passed client
    exact ⟨counted, next, within.verify client next⟩
  | record id =>
    obtain ⟨request, was, failed, rfl⟩ := advance_eq_some.mp enabled
    refine ⟨counted, ahead.quiet rfl (Nat.le_refl _) ?_, within.quiet rfl⟩
    intro eventKey
    have h := @unverified_move checkpw passwordHash s (s.record id request) id request _ was rfl
      eventKey
    exact le_trans (Nat.le_add_right _ _) (Nat.le_of_eq h)
  | register clientHost =>
    cases enabled
    exact ⟨counted, ahead.quiet rfl (Nat.le_refl _) (fun _ => Nat.le_refl _), within.quiet rfl⟩
  | prune =>
    cases enabled
    exact ⟨counted, ahead.quiet rfl (Nat.le_refl _) (fun _ => Nat.le_refl _), within.quiet rfl⟩

end Bound

def Action.isPrune : Action → Bool
  | .prune => true
  | _ => false

def withoutPrunes (acts : List Action) : List Action := acts.filter (fun action => !action.isPrune)

/-- The states differ in events only that no count will reach. -/
structure Alike (s t : State) : Prop where
  now : s.now = t.now
  requests : s.requests = t.requests
  failures : s.failures = t.failures
  counts : ∀ (eventKey : PyStr) (cutoff : Int),
    (toSecs s.now : Int) - RATE_LIMIT_EVENT_RETENTION_SECS ≤ cutoff →
      countSince s.events eventKey cutoff = countSince t.events eventKey cutoff

section Pruning
variable {checkpw passwordHash}
variable {s t u : State}

theorem Alike.recent (alike : Alike s u) (eventKey : PyStr) :
    s.recent eventKey = u.recent eventKey := by
  have reached := Int.sub_le_sub_left retention_covers_window (toSecs s.now)
  rw [State.recent, State.recent, ← alike.now]
  exact alike.counts eventKey _ reached

theorem Alike.recordEvent (alike : Alike s u) (recorded : PyStr) (eventKey : PyStr)
    {cutoff : Int} (recent : (toSecs s.now : Int) - RATE_LIMIT_EVENT_RETENTION_SECS ≤ cutoff) :
    countSince (LoginLimit.recordEvent s.events recorded s.now) eventKey cutoff =
      countSince (LoginLimit.recordEvent u.events recorded u.now) eventKey cutoff := by
  rw [countSince_recordEvent, countSince_recordEvent, alike.counts eventKey cutoff recent,
    alike.now]

theorem Alike.prune (alike : Alike s u)
    (enabled : step checkpw passwordHash s .prune = some t) : Alike t u := by
  cases enabled
  refine ⟨alike.now, alike.requests, alike.failures, ?_⟩
  intro eventKey cutoff recent
  rw [← alike.counts eventKey cutoff recent]
  exact countSince_prune s.events eventKey recent

theorem Alike.step {action : Action} (alike : Alike s u) (other : action.isPrune = false)
    (enabled : step checkpw passwordHash s action = some t) :
    ∃ v, step checkpw passwordHash u action = some v ∧ Alike t v := by
  cases action with
  | tick elapsed =>
    cases enabled
    refine ⟨_, rfl, congrArg (· + elapsed) alike.now, alike.requests, alike.failures, ?_⟩
    intro eventKey cutoff recent
    have mono : (toSecs s.now : Int) ≤ toSecs (s.now + elapsed) :=
      Int.ofNat_le.mpr (toSecs_mono (Nat.le_add_right _ _))
    exact alike.counts eventKey cutoff (le_trans (Int.sub_le_sub_right mono _) recent)
  | post id form =>
    obtain ⟨unused, rfl⟩ := Replay.guarded_eq_some.mp enabled
    rw [alike.requests] at unused
    refine ⟨_, if_pos unused, alike.now, ?_, alike.failures, alike.counts⟩
    exact congrArg (fun requests => requests.put id ⟨form, .arrived⟩) alike.requests
  | count id =>
    obtain ⟨request, was, arrived, rfl⟩ := advance_eq_some.mp enabled
    rw [alike.requests] at was
    refine ⟨u.count id request, advance_eq_some.mpr ⟨request, was, arrived, rfl⟩, ?_⟩
    refine ⟨alike.now, ?_, alike.failures, alike.counts⟩
    rw [State.count, State.count, State.move, State.move, alike.requests, alike.recent]
  | verify id client =>
    obtain ⟨request, was, passed, rfl⟩ := advance_eq_some.mp enabled
    rw [alike.requests] at was
    refine ⟨u.verify checkpw passwordHash id request client,
      advance_eq_some.mpr ⟨request, was, passed, rfl⟩, alike.now, ?_, ?_, alike.counts⟩
    · rw [State.verify, State.verify, State.move, State.move, alike.requests]
    · rw [State.verify, State.verify, alike.failures, alike.now]
  | record id =>
    obtain ⟨request, was, failed, rfl⟩ := advance_eq_some.mp enabled
    rw [alike.requests] at was
    refine ⟨u.record id request, advance_eq_some.mpr ⟨request, was, failed, rfl⟩, alike.now, ?_,
      alike.failures, ?_⟩
    · rw [State.record, State.record, State.move, State.move, alike.requests]
    · exact fun eventKey _ recent => alike.recordEvent request.eventKey eventKey recent
  | register clientHost =>
    cases enabled
    refine ⟨_, rfl, alike.now, alike.requests, alike.failures, ?_⟩
    exact fun eventKey _ recent => alike.recordEvent (py "register:" ++ clientHost) eventKey recent
  | prune => cases other

theorem alike_of_run {acts : List Action} (alike : Alike s u)
    (ran : Replay.run (step checkpw passwordHash) s acts = some t) :
    ∃ v, Replay.run (step checkpw passwordHash) u (withoutPrunes acts) = some v ∧ Alike t v := by
  induction acts generalizing s u with
  | nil =>
    cases ran
    exact ⟨u, rfl, alike⟩
  | cons action rest ih =>
    obtain ⟨m, enabled, hrest⟩ := Replay.run_cons.mp ran
    cases hprune : action.isPrune with
    | true =>
      have dropped : withoutPrunes (action :: rest) = withoutPrunes rest := by
        simp [withoutPrunes, hprune]
      cases action with
      | prune =>
        rw [dropped]
        exact ih (alike.prune enabled) hrest
      | tick elapsed => cases hprune
      | post id form => cases hprune
      | count id => cases hprune
      | verify id client => cases hprune
      | record id => cases hprune
      | register clientHost => cases hprune
    | false =>
      have kept : withoutPrunes (action :: rest) = action :: withoutPrunes rest := by
        simp [withoutPrunes, hprune]
      obtain ⟨n, hn, next⟩ := alike.step hprune enabled
      obtain ⟨v, hv, last⟩ := ih next hrest
      rw [kept]
      exact ⟨v, Replay.run_cons.mpr ⟨n, hn, hv⟩, last⟩

end Pruning

end Handler

/-- A run in which every check leaves room for the failures under way has at most
`LOGIN_MAX_FAILURES` failed verifications of a client in any window, and every
run answers its requests as it would without the prunes. -/
theorem login_lockout (checkpw : Bytes → Bytes → Except PyError Bool) (passwordHash : Bytes)
    {acts : List Action} {s : State}
    (ran : Replay.run (step checkpw passwordHash) start acts = some s) :
    (Replay.Obeys (step checkpw passwordHash)
        (fun s action => leavesRoom checkpw passwordHash s action = true) start acts →
      ∀ eventKey start, s.failuresWithin eventKey start ≤ LOGIN_MAX_FAILURES) ∧
    ∃ t, Replay.run (step checkpw passwordHash) start (withoutPrunes acts) = some t ∧
      t.requests = s.requests ∧ t.failures = s.failures := by
  constructor
  · intro room
    have keeps : ∀ m action t, Bounded checkpw passwordHash m →
        leavesRoom checkpw passwordHash m action = true →
        step checkpw passwordHash m action = some t → Bounded checkpw passwordHash t :=
      fun _ _ _ bounded => bounded.step
    exact (Replay.run_invariant keeps Bounded.start room ran).within
  · have same : Alike start start := ⟨rfl, rfl, rfl, fun _ _ _ => rfl⟩
    obtain ⟨t, ht, alike⟩ := alike_of_run same ran
    exact ⟨t, ht, alike.requests.symm, alike.failures.symm⟩

/-- A form with a wrong password. -/
def wrongForm : LoginForm :=
  ⟨py "1.2.3.4", py "t0ken", py "t0ken", py "client", py "https://a/cb", py "guess"⟩

/-- `bcrypt.checkpw` on a hash that no password in sight has. -/
def noMatch (_ _ : Bytes) : Except PyError Bool := .ok false

/-- Two guesses under way at once, and cleanup after each of them. -/
def guessTwice : List Action :=
  [.tick 5000000, .post 0 wrongForm, .post 1 wrongForm, .count 0, .count 1,
   .verify 1 (some [py "https://a/cb"]), .tick 700000, .verify 0 (some [py "https://a/cb"]),
   .record 0, .prune, .record 1, .tick 301000000, .prune]

theorem login_lockout_guessTwice : ∃ s,
    Replay.run (step noMatch []) start guessTwice = some s ∧
      (∀ eventKey start, s.failuresWithin eventKey start ≤ LOGIN_MAX_FAILURES) ∧
      s.failuresWithin (loginFailure (py "1.2.3.4")) 5000000 = 2 := by
  refine ⟨_, rfl, ?_, by decide⟩
  exact (@login_lockout noMatch [] guessTwice _ rfl).1 (by decide)

/-- Eleven requests pass the check before the first of them records its failure. -/
def guessAtOnce : List Action :=
  (List.range 11).map (fun id => .post id wrongForm) ++ (List.range 11).map .count ++
    (List.range 11).map (fun id => .verify id (some [py "https://a/cb"]))

theorem eleven_failures_at_once :
    ¬ ∀ (checkpw : Bytes → Bytes → Except PyError Bool) (passwordHash : Bytes)
      (acts : List Action) (s : State),
      Replay.run (step checkpw passwordHash) start acts = some s →
      ∀ eventKey start, s.failuresWithin eventKey start ≤ LOGIN_MAX_FAILURES := by
  intro all
  have bound := all noMatch [] guessAtOnce _ rfl (loginFailure (py "1.2.3.4")) 0
  revert bound
  decide

end LoginLimit
