import Gubbi.OAuth.LoginLimit
import Gubbi.OAuth.Provider

/-!
# What an authorization code stands for

The SDK checks an authorize request before it calls `authorize`, which puts the
request into the query of a redirect to `/login`. The page writes the query into
hidden fields, and the POST builds the code from the fields that it gets back. Of
these it looks up the client and the redirect URI again; scope and challenge are
taken as they come, and a resource never reaches the form.
-/

namespace AuthorizationCodes

open Text OAuthStorage
open LoginLimit (LoginForm RequestId Event)

def OAUTH_AUTH_CODE_TTL_SECS : Secs := 300

/-- `OAuthClientInformationFull`, with the scopes that the registration allows. -/
structure OAuthClient where
  clientId : PyStr
  redirectUris : List PyStr
  scopes : List PyStr
  deriving DecidableEq

structure AuthorizationParams where
  state : Option PyStr
  scopes : Option (List PyStr)
  codeChallenge : PyStr
  redirectUri : PyStr
  resource : Option PyStr
  deriving DecidableEq

abbrev Query := List (PyStr × PyStr)

/-- The authorize handler of the SDK, up to its call of the provider. -/
structure AuthorizeHandler where
  check : OAuthClient → Query → Option AuthorizationParams
  registered : ∀ client query params, check client query = some params →
    params.redirectUri ∈ client.redirectUris
  allowed : ∀ client query params, check client query = some params →
    ∀ scope ∈ params.scopes.getD [], scope ∈ client.scopes
  challenged : ∀ client query params, check client query = some params →
    params.codeChallenge ≠ []

/-- The query of the redirect to the login page. -/
structure LoginQuery where
  clientId : PyStr
  redirectUri : PyStr
  state : Option PyStr
  codeChallenge : PyStr
  scope : Option PyStr
  deriving DecidableEq

/-- `JournalOAuthProvider.authorize`; `none` is the `AuthorizeError`. -/
def authorize (client : OAuthClient) (params : AuthorizationParams) : Option LoginQuery :=
  if client.clientId = [] then none
  else some
    { clientId := client.clientId
      redirectUri := params.redirectUri
      state := params.state
      codeChallenge := params.codeChallenge
      scope := params.scopes.bind OAuthProvider.joinScopes }

structure AuthorizeForm extends LoginForm where
  state : PyStr
  codeChallenge : PyStr
  scope : PyStr

/-- `str.split()`. -/
def splitSpaces (text : PyStr) : List PyStr :=
  (text.splitOnP isSpace).filter (fun word => word ≠ [])

example : splitSpaces (py " journal:read  journal:write") =
    [py "journal:read", py "journal:write"] := by decide

/-- The code that a login with this form stores. -/
def newAuthorizationCode (code : PyStr) (form : AuthorizeForm) (now : Micros) :
    AuthorizationCode where
  code := code
  scopes := if form.scope = [] then [] else splitSpaces form.scope
  expiresAt := now + OAUTH_AUTH_CODE_TTL_SECS * 1000000
  clientId := form.clientId
  codeChallenge := form.codeChallenge
  redirectUri := form.redirectUri
  redirectUriProvidedExplicitly := true
  resource := none

/-- `counted` and `verified` remember how many failures the lockout check saw. -/
inductive Phase
  | arrived
  | counted (failures : Nat)
  | verified (failures : Nat)
  | failed
  | answered (response : LoginLimit.Response)

structure Request where
  form : AuthorizeForm
  phase : Phase

/-- An authorize request that passed the check of the SDK. -/
structure Grant where
  client : OAuthClient
  params : AuthorizationParams

/-- A code with the login that stored it. -/
structure Issued where
  code : AuthorizationCode
  form : AuthorizeForm
  failures : Nat

/-- `grants` and `issued` are ledgers; the program keeps neither. -/
structure State where
  now : Micros
  events : List Event
  clients : Table PyStr OAuthClient
  grants : List Grant
  requests : Table RequestId Request
  db : Db
  issued : List Issued

def start : State := ⟨0, [], Table.empty, [], Table.empty, emptyDb, []⟩

inductive Action
  | tick (elapsed : Micros)
  | register (clientHost : PyStr) (client : OAuthClient)
  | authorize (clientId : PyStr) (query : Query)
  | loginPage (query : Query)
  | post (id : RequestId) (form : AuthorizeForm)
  | count (id : RequestId)
  | verify (id : RequestId)
  | save (id : RequestId) (code : PyStr)
  | record (id : RequestId)
  | redeem (code : PyStr)
  | cleanup

def State.move (s : State) (id : RequestId) (form : AuthorizeForm) (phase : Phase) : State :=
  { s with requests := s.requests.put id ⟨form, phase⟩ }

def eventKey (form : AuthorizeForm) : PyStr := LoginLimit.loginFailure form.clientHost

section Steps
variable (sdk : AuthorizeHandler)
variable (checkpw : Bytes → Bytes → Except PyError Bool) (passwordHash : Bytes)

/-- Where the checks of the form lead. -/
def verifyForm (s : State) (form : AuthorizeForm) (failures : Nat) : Phase :=
  match LoginLimit.verify checkpw passwordHash form.toLoginForm
      ((s.clients.get form.clientId).map OAuthClient.redirectUris) with
  | .answered (.redirect _) => .verified failures
  | .answered response => .answered response
  | .failed => .failed
  | .arrived | .counted => .counted failures -- not a result of `verify`

def step (s : State) : Action → Option State
  | .tick elapsed => some { s with now := s.now + elapsed }
  | .register clientHost client =>
    -- the SDK draws a client id that is new
    if s.clients.get client.clientId = none then
      some { s with
        clients := s.clients.put client.clientId client
        events := LoginLimit.recordEvent s.events (py "register:" ++ clientHost) s.now }
    else none
  | .authorize clientId query =>
    some (match s.clients.get clientId with
      | none => s
      | some client =>
        match sdk.check client query with
        | none => s
        | some params =>
          match AuthorizationCodes.authorize client params with
          | none => s
          | some _ => { s with grants := s.grants ++ [⟨client, params⟩] })
  | .loginPage _ => some s
  | .post id form =>
    if s.requests.get id = none then some (s.move id form .arrived) else none
  | .count id =>
    match s.requests.get id with
    | some ⟨form, .arrived⟩ =>
      let failures := LoginLimit.countEvents s.events (eventKey form)
        LoginLimit.LOGIN_LOCKOUT_WINDOW_SECS s.now
      some (s.move id form
        (if failures ≥ LoginLimit.LOGIN_MAX_FAILURES then .answered LoginLimit.tooManyAttempts
        else .counted failures))
    | _ => none
  | .verify id =>
    match s.requests.get id with
    | some ⟨form, .counted failures⟩ =>
      some (s.move id form (verifyForm checkpw passwordHash s form failures))
    | _ => none
  | .save id code =>
    match s.requests.get id with
    | some ⟨form, .verified failures⟩ =>
      let authCode := newAuthorizationCode code form s.now
      some { s.move id form (.answered (.redirect form.redirectUri)) with
        db := saveAuthCode s.db code authCode
        issued := s.issued ++ [⟨authCode, form, failures⟩] }
    | _ => none
  | .record id =>
    match s.requests.get id with
    | some ⟨form, .failed⟩ =>
      some { s.move id form (.answered LoginLimit.invalidPassword) with
        events := LoginLimit.recordEvent s.events (eventKey form) s.now }
    | _ => none
  | .redeem code => some { s with db := deleteAuthCode s.db code }
  | .cleanup =>
    some { s with
      db := (cleanupExpired s.db s.now).1
      events := LoginLimit.prune s.events LoginLimit.RATE_LIMIT_EVENT_RETENTION_SECS s.now }

end Steps

section Authorised
variable {sdk : AuthorizeHandler}
variable (checkpw : Bytes → Bytes → Except PyError Bool) (passwordHash : Bytes)

/-- The owner's password and a token that equals the cookie, before the lockout,
for a registered client and one of its redirect URIs. -/
structure LoggedIn (s : State) (form : AuthorizeForm) (failures : Nat) : Prop where
  password : LoginLimit.verifyPassword checkpw passwordHash form.toLoginForm = .ok true
  csrf : form.formCsrf = form.cookieCsrf ∧ form.formCsrf ≠ []
  unlocked : failures < LoginLimit.LOGIN_MAX_FAILURES
  client : ∃ client, s.clients.get form.clientId = some client ∧
    form.redirectUri ∈ client.redirectUris

/-- The code carries this grant. -/
structure Grant.Carried (grant : Grant) (code : AuthorizationCode) : Prop where
  clientId : code.clientId = grant.client.clientId
  redirectUri : code.redirectUri = grant.params.redirectUri
  scopes : code.scopes = grant.params.scopes.getD []
  codeChallenge : code.codeChallenge = grant.params.codeChallenge
  resource : code.resource = grant.params.resource

/-- What is asked of a stored code. -/
structure Authorised (s : State) (one : Issued) : Prop where
  login : LoggedIn checkpw passwordHash s one.form one.failures
  client : ∃ client, s.clients.get one.code.clientId = some client ∧
    one.code.redirectUri ∈ client.redirectUris ∧ ∀ scope ∈ one.code.scopes, scope ∈ client.scopes
  challenge : one.code.codeChallenge ≠ []
  grant : ∃ grant ∈ s.grants, grant.Carried one.code

def AllAuthorised (s : State) : Prop :=
  ∀ one ∈ s.issued, Authorised checkpw passwordHash s one

/-- A form brings back what an authorize request without a resource asked for. -/
def Grant.BroughtBack (grant : Grant) (form : AuthorizeForm) : Prop :=
  form.clientId = grant.client.clientId ∧ form.redirectUri = grant.params.redirectUri ∧
    splitSpaces form.scope = grant.params.scopes.getD [] ∧
    form.codeChallenge = grant.params.codeChallenge ∧ grant.params.resource = none

/-- A login that passes its checks brings back an earlier grant. -/
def BringsBack (s : State) : Action → Prop
  | .save id _ =>
    match s.requests.get id with
    | some ⟨form, .verified _⟩ => ∃ grant ∈ s.grants, grant.BroughtBack form
    | _ => True
  | _ => True

/-- What every run keeps: passed logins are logged in, and grants are checked. -/
structure Coherent (s : State) : Prop where
  logins : ∀ id form failures, s.requests.get id = some ⟨form, .verified failures⟩ →
    LoggedIn checkpw passwordHash s form failures
  counted : ∀ id form failures, s.requests.get id = some ⟨form, .counted failures⟩ →
    failures < LoginLimit.LOGIN_MAX_FAILURES
  grants : ∀ grant ∈ s.grants, s.clients.get grant.client.clientId = some grant.client ∧
    grant.params.redirectUri ∈ grant.client.redirectUris ∧
    (∀ scope ∈ grant.params.scopes.getD [], scope ∈ grant.client.scopes) ∧
    grant.params.codeChallenge ≠ []
  /-- A client is stored under its id. -/
  keyed : ∀ clientId client, s.clients.get clientId = some client → client.clientId = clientId

variable {checkpw passwordHash} {s t : State} {form : AuthorizeForm} {failures : Nat}

theorem newAuthorizationCode_scopes (code : PyStr) (form : AuthorizeForm) (now : Micros) :
    (newAuthorizationCode code form now).scopes = splitSpaces form.scope := by
  by_cases empty : form.scope = []
  · simp [newAuthorizationCode, splitSpaces, empty]
  · simp [newAuthorizationCode, empty]

/-- A stored code carries a grant exactly when its form brought the grant back. -/
theorem carried_iff {grant : Grant} (code : PyStr) (now : Micros) :
    grant.Carried (newAuthorizationCode code form now) ↔ grant.BroughtBack form := by
  constructor
  · intro carried
    exact ⟨carried.clientId, carried.redirectUri,
      (newAuthorizationCode_scopes code form now).symm.trans carried.scopes,
      carried.codeChallenge, carried.resource.symm⟩
  · rintro ⟨clientId, redirectUri, scopes, codeChallenge, resource⟩
    exact ⟨clientId, redirectUri, (newAuthorizationCode_scopes code form now).trans scopes,
      codeChallenge, resource.symm⟩

/-- The checks of the form, read back from their result. -/
theorem loggedIn_of_verifyForm (unlocked : failures < LoginLimit.LOGIN_MAX_FAILURES)
    {passed : Nat} (verified : verifyForm checkpw passwordHash s form failures = .verified passed) :
    passed = failures ∧ LoggedIn checkpw passwordHash s form failures := by
  unfold verifyForm LoginLimit.verify at verified
  cases csrf : LoginLimit.csrfMatches form.toLoginForm with
  | error error => simp [csrf] at verified
  | ok same =>
    cases same with
    | false => simp [csrf, LoginLimit.csrfFailed] at verified
    | true =>
      cases client : s.clients.get form.clientId with
      | none => simp [csrf, client, LoginLimit.invalidClient] at verified
      | some found =>
        by_cases registered : form.redirectUri ∉ found.redirectUris
        · simp [csrf, client, registered, LoginLimit.invalidRedirectUri] at verified
        · cases password : LoginLimit.verifyPassword checkpw passwordHash form.toLoginForm with
          | error error => simp [csrf, client, registered, password] at verified
          | ok right =>
            cases right with
            | false => simp [csrf, client, registered, password] at verified
            | true =>
              simp only [csrf, client, registered, password, Option.map_some, if_false] at verified
              have tokens := csrf
              unfold LoginLimit.csrfMatches at tokens
              split at tokens
              · cases tokens
              · rename_i present
                cases verified
                refine ⟨rfl, password, ⟨eq_of_compareDigest tokens, ?_⟩, unlocked, found, client,
                  not_not.mp registered⟩
                exact fun empty => present (Or.inl empty)

theorem eq_of_verifyForm_counted {passed : Nat}
    (counted : verifyForm checkpw passwordHash s form failures = .counted passed) :
    passed = failures := by
  unfold verifyForm at counted
  split at counted <;> cases counted <;> rfl

/-- Clients and grants stay. -/
structure Grows (s t : State) : Prop where
  clients : ∀ clientId client, s.clients.get clientId = some client →
    t.clients.get clientId = some client
  grants : ∀ grant ∈ s.grants, grant ∈ t.grants

theorem Grows.of_same (clients : t.clients = s.clients) (grants : t.grants = s.grants) :
    Grows s t :=
  ⟨fun _ _ known => by rw [clients]; exact known, fun _ known => by rw [grants]; exact known⟩

theorem LoggedIn.mono (login : LoggedIn checkpw passwordHash s form failures)
    (grows : Grows s t) : LoggedIn checkpw passwordHash t form failures where
  password := login.password
  csrf := login.csrf
  unlocked := login.unlocked
  client := by
    obtain ⟨client, found, registered⟩ := login.client
    exact ⟨client, grows.clients _ _ found, registered⟩

theorem Authorised.mono {one : Issued} (authorised : Authorised checkpw passwordHash s one)
    (grows : Grows s t) : Authorised checkpw passwordHash t one where
  login := authorised.login.mono grows
  client := by
    obtain ⟨client, found, allowed⟩ := authorised.client
    exact ⟨client, grows.clients _ _ found, allowed⟩
  challenge := authorised.challenge
  grant := by
    obtain ⟨grant, known, carried⟩ := authorised.grant
    exact ⟨grant, grows.grants grant known, carried⟩

theorem grows_step {action : Action} (h : step sdk checkpw passwordHash s action = some t) :
    Grows s t := by
  cases action with
  | tick elapsed =>
    cases h
    exact Grows.of_same rfl rfl
  | register clientHost client =>
    obtain ⟨fresh, rfl⟩ := Replay.guarded_eq_some.mp h
    exact ⟨fun id other found => Table.get_put_of_absent client fresh found, fun _ known => known⟩
  | authorize clientId query =>
    cases h
    split
    · exact Grows.of_same rfl rfl
    · split
      · exact Grows.of_same rfl rfl
      · split
        · exact Grows.of_same rfl rfl
        · exact ⟨fun _ _ found => found, fun grant known => List.mem_append_left _ known⟩
  | loginPage query =>
    cases h
    exact Grows.of_same rfl rfl
  | post id form =>
    obtain ⟨_, rfl⟩ := Replay.guarded_eq_some.mp h
    exact Grows.of_same rfl rfl
  | count id | verify id | save id code | record id =>
    simp only [step] at h
    split at h
    · cases h
      exact Grows.of_same rfl rfl
    · cases h
  | redeem code =>
    cases h
    exact Grows.of_same rfl rfl
  | cleanup =>
    cases h
    exact Grows.of_same rfl rfl

/-- A request moves on to a phase that its own checks justify. -/
theorem Coherent.move (coherent : Coherent checkpw passwordHash s) (id : RequestId) {phase : Phase}
    (verified : ∀ failures, phase = .verified failures →
      LoggedIn checkpw passwordHash s form failures)
    (counted : ∀ failures, phase = .counted failures → failures < LoginLimit.LOGIN_MAX_FAILURES) :
    Coherent checkpw passwordHash (s.move id form phase) where
  logins := by
    intro key other seen found
    rcases Table.get_put_eq_some found with ⟨rfl, same⟩ | ⟨_, found⟩
    · cases same
      exact (verified seen rfl).mono (Grows.of_same rfl rfl)
    · exact (coherent.logins key other seen found).mono (Grows.of_same rfl rfl)
  counted := by
    intro key other seen found
    rcases Table.get_put_eq_some found with ⟨rfl, same⟩ | ⟨_, found⟩
    · cases same
      exact counted seen rfl
    · exact coherent.counted key other seen found
  grants := coherent.grants
  keyed := coherent.keyed

/-- Steps that leave requests, clients and grants alone. -/
theorem Coherent.quiet (coherent : Coherent checkpw passwordHash s)
    (requests : t.requests = s.requests) (clients : t.clients = s.clients)
    (grants : t.grants = s.grants) : Coherent checkpw passwordHash t where
  logins := by
    intro id form failures found
    rw [requests] at found
    exact (coherent.logins id form failures found).mono (Grows.of_same clients grants)
  counted := by
    intro id form failures found
    rw [requests] at found
    exact coherent.counted id form failures found
  grants := by
    rw [grants, clients]
    exact coherent.grants
  keyed := by
    rw [clients]
    exact coherent.keyed

theorem Coherent.register (coherent : Coherent checkpw passwordHash s) {client : OAuthClient}
    (fresh : s.clients.get client.clientId = none) (events : List Event) :
    Coherent checkpw passwordHash { s with
      clients := s.clients.put client.clientId client, events := events } where
  logins := fun id form failures found => (coherent.logins id form failures found).mono
    ⟨fun _ _ known => Table.get_put_of_absent client fresh known, fun _ known => known⟩
  counted := coherent.counted
  grants := by
    intro grant known
    obtain ⟨found, checked⟩ := coherent.grants grant known
    exact ⟨Table.get_put_of_absent client fresh found, checked⟩
  keyed := by
    intro clientId found hfound
    rcases Table.get_put_eq_some hfound with ⟨rfl, rfl⟩ | ⟨_, hfound⟩
    · rfl
    · exact coherent.keyed clientId found hfound

/-- A request that passed the check of the SDK is a grant. -/
theorem Coherent.authorize (coherent : Coherent checkpw passwordHash s) {clientId : PyStr}
    {client : OAuthClient} {query : Query} {params : AuthorizationParams}
    (found : s.clients.get clientId = some client) (passed : sdk.check client query = some params) :
    Coherent checkpw passwordHash { s with grants := s.grants ++ [⟨client, params⟩] } where
  logins := fun id form failures known => (coherent.logins id form failures known).mono
    ⟨fun _ _ known => known, fun grant known => List.mem_append_left _ known⟩
  counted := coherent.counted
  grants := by
    intro grant known
    rcases List.mem_append.mp known with old | new
    · exact coherent.grants grant old
    · obtain rfl := List.mem_singleton.mp new
      refine ⟨?_, sdk.registered _ _ _ passed, sdk.allowed _ _ _ passed,
        sdk.challenged _ _ _ passed⟩
      rw [coherent.keyed clientId client found]
      exact found
  keyed := coherent.keyed

theorem coherent_step (s : State) (action : Action) (t : State)
    (coherent : Coherent checkpw passwordHash s)
    (h : step sdk checkpw passwordHash s action = some t) : Coherent checkpw passwordHash t := by
  cases action with
  | tick elapsed =>
    cases h
    exact coherent.quiet rfl rfl rfl
  | register clientHost client =>
    obtain ⟨fresh, rfl⟩ := Replay.guarded_eq_some.mp h
    exact coherent.register fresh _
  | authorize clientId query =>
    simp only [step, Option.some.injEq] at h
    subst h
    split
    · exact coherent
    · rename_i client found
      split
      · exact coherent
      · rename_i params passed
        split
        · exact coherent
        · exact coherent.authorize found passed
  | loginPage query =>
    cases h
    exact coherent
  | post id form =>
    obtain ⟨_, rfl⟩ := Replay.guarded_eq_some.mp h
    exact coherent.move id (fun _ same => by cases same) (fun _ same => by cases same)
  | count id =>
    simp only [step] at h
    split at h
    · rename_i form found
      cases h
      refine coherent.move id ?_ ?_
      · intro failures same
        split at same <;> cases same
      · intro failures same
        split at same
        · cases same
        · rename_i below
          cases same
          exact Nat.not_le.mp below
    · cases h
  | verify id =>
    simp only [step] at h
    split at h
    · rename_i form failures found
      cases h
      have unlocked := coherent.counted id form failures found
      refine coherent.move id ?_ ?_
      · intro passed same
        obtain ⟨rfl, login⟩ := loggedIn_of_verifyForm unlocked same
        exact login
      · intro passed same
        rw [eq_of_verifyForm_counted same]
        exact unlocked
    · cases h
  | save id code =>
    simp only [step] at h
    split at h
    · rename_i form failures found
      cases h
      refine Coherent.quiet (s := s.move id form (.answered (.redirect form.redirectUri)))
        ?_ rfl rfl rfl
      exact coherent.move id (fun _ same => by cases same) (fun _ same => by cases same)
    · cases h
  | record id =>
    simp only [step] at h
    split at h
    · rename_i form found
      cases h
      refine Coherent.quiet (s := s.move id form (.answered LoginLimit.invalidPassword))
        ?_ rfl rfl rfl
      exact coherent.move id (fun _ same => by cases same) (fun _ same => by cases same)
    · cases h
  | redeem code =>
    cases h
    exact coherent.quiet rfl rfl rfl
  | cleanup =>
    cases h
    exact coherent.quiet rfl rfl rfl

theorem coherent_start : Coherent checkpw passwordHash start where
  logins := fun _ _ _ found => by cases found
  counted := fun _ _ _ found => by cases found
  grants := fun _ known => absurd known List.not_mem_nil
  keyed := fun _ _ found => by cases found

/-- Only a login that has passed stores a code. -/
theorem issued_step {action : Action} (h : step sdk checkpw passwordHash s action = some t) :
    t.issued = s.issued ∨ ∃ id code form failures, action = .save id code ∧
      s.requests.get id = some ⟨form, .verified failures⟩ ∧
      t.issued = s.issued ++ [⟨newAuthorizationCode code form s.now, form, failures⟩] := by
  cases action with
  | register clientHost client =>
    obtain ⟨_, rfl⟩ := Replay.guarded_eq_some.mp h
    exact Or.inl rfl
  | post id form =>
    obtain ⟨_, rfl⟩ := Replay.guarded_eq_some.mp h
    exact Or.inl rfl
  | authorize clientId query =>
    simp only [step, Option.some.injEq] at h
    subst h
    left
    split
    · rfl
    · split
      · rfl
      · split <;> rfl
  | save id code =>
    simp only [step] at h
    split at h
    · rename_i form failures found
      cases h
      exact Or.inr ⟨id, code, form, failures, rfl, found, rfl⟩
    · cases h
  | count id | verify id | record id =>
    simp only [step] at h
    split at h
    · cases h
      exact Or.inl rfl
    · cases h
  | tick elapsed | loginPage query | redeem code | cleanup =>
    cases h
    exact Or.inl rfl

/-- The code of a login is authorised exactly when its form brings back a grant. -/
theorem authorised_iff (coherent : Coherent checkpw passwordHash s) (grows : Grows s t)
    (same : t.grants = s.grants) (code : PyStr) (now : Micros)
    (login : LoggedIn checkpw passwordHash s form failures) :
    Authorised checkpw passwordHash t ⟨newAuthorizationCode code form now, form, failures⟩ ↔
      ∃ grant ∈ s.grants, grant.BroughtBack form := by
  constructor
  · rintro ⟨_, _, _, grant, known, carried⟩
    rw [same] at known
    exact ⟨grant, known, (carried_iff code now).mp carried⟩
  · rintro ⟨grant, known, brought⟩
    obtain ⟨found, registered, allowed, challenged⟩ := coherent.grants grant known
    have carried := (carried_iff code now).mpr brought
    refine ⟨login.mono grows, ⟨grant.client, ?_, ?_, ?_⟩, ?_, grant, grows.grants grant known,
      carried⟩
    · rw [carried.clientId]
      exact grows.clients _ _ found
    · rw [carried.redirectUri]
      exact registered
    · rw [carried.scopes]
      exact allowed
    · rw [carried.codeChallenge]
      exact challenged

theorem allAuthorised_step (s : State) (action : Action) (t : State)
    (coherent : Coherent checkpw passwordHash s) (before : AllAuthorised checkpw passwordHash s)
    (h : step sdk checkpw passwordHash s action = some t) :
    AllAuthorised checkpw passwordHash t ↔ BringsBack s action := by
  have grows := grows_step h
  have kept : ∀ one ∈ s.issued, Authorised checkpw passwordHash t one :=
    fun one known => (before one known).mono grows
  rcases issued_step h with same | ⟨id, code, form, failures, rfl, found, added⟩
  · have free : BringsBack s action := by
      cases action with
      | save id code =>
        simp only [step] at h
        split at h
        · cases h
          have longer := congrArg List.length same
          simp at longer
        · cases h
      | tick | register | authorize | loginPage | post | count | verify | record | redeem
      | cleanup => trivial
    refine ⟨fun _ => free, fun _ one known => ?_⟩
    rw [same] at known
    exact kept one known
  · have grants : t.grants = s.grants := by
      simp only [step, found, Option.some.injEq] at h
      rw [← h]
      rfl
    have newOne := authorised_iff coherent grows grants code s.now
      (coherent.logins id form failures found)
    have guard : BringsBack s (.save id code) ↔ ∃ grant ∈ s.grants, grant.BroughtBack form := by
      simp only [BringsBack, found]
    rw [guard, ← newOne]
    constructor
    · intro all
      exact all _ (by rw [added]; exact List.mem_append_right _ List.mem_cons_self)
    · intro new one known
      rw [added] at known
      rcases List.mem_append.mp known with old | fresh
      · exact kept one old
      · obtain rfl := List.mem_singleton.mp fresh
        exact new

/-- In every state of a run all codes stored so far are authorised, exactly when
every login that passes its checks brings back the client, redirect URI, scopes and
challenge of an earlier authorize request that named no resource. -/
theorem all_authorised_iff {actions : List Action} {s : State}
    (ran : Replay.run (step sdk checkpw passwordHash) start actions = some s) :
    Replay.Throughout (step sdk checkpw passwordHash) (AllAuthorised checkpw passwordHash)
        start actions ↔
      Replay.Obeys (step sdk checkpw passwordHash) BringsBack start actions :=
  Replay.throughout_iff_obeys coherent_step allAuthorised_step coherent_start
    (fun _ known => absurd known List.not_mem_nil) ran

end Authorised

/-- A scope as the SDK reads it from a request. -/
def IsWord (scope : PyStr) : Prop := scope ≠ [] ∧ ∀ c ∈ scope, isSpace c = false

theorem splitSpaces_word {scope : PyStr} (word : IsWord scope) : splitSpaces scope = [scope] := by
  have whole : scope.splitOnP isSpace = [scope] :=
    List.splitOnP_eq_singleton fun c mem => word.2 c mem
  rw [splitSpaces, whole]
  simp [word.1]

theorem splitSpaces_word_cons {scope : PyStr} (word : IsWord scope) (rest : PyStr) :
    splitSpaces (scope ++ py " " ++ rest) = scope :: splitSpaces rest := by
  have first : (scope ++ ofChar ' ' :: rest).splitOnP isSpace = scope :: rest.splitOnP isSpace :=
    List.splitOnP_append_cons_of_forall_mem (fun c mem => word.2 c mem) _ (by decide) rest
  have joined : scope ++ py " " ++ rest = scope ++ ofChar ' ' :: rest := List.append_assoc _ _ _
  rw [splitSpaces, joined, first]
  simp [splitSpaces, word.1]

theorem splitSpaces_intersperse {scopes : List PyStr} (words : ∀ scope ∈ scopes, IsWord scope) :
    splitSpaces (scopes.intersperse (py " ")).flatten = scopes := by
  induction scopes with
  | nil => rfl
  | cons scope rest ih =>
    have word := words scope List.mem_cons_self
    cases rest with
    | nil => simpa using splitSpaces_word word
    | cons next more =>
      have tail := ih fun other mem => words other (List.mem_cons_of_mem _ mem)
      rw [List.intersperse_cons_cons, List.flatten_cons, List.flatten_cons, ← List.append_assoc,
        splitSpaces_word_cons word, tail]

/-- What the page and the browser do with the query of the redirect. -/
def LoginQuery.FilledIn (query : LoginQuery) (form : AuthorizeForm) : Prop :=
  form.clientId = query.clientId ∧ form.redirectUri = query.redirectUri ∧
    form.codeChallenge = query.codeChallenge ∧ form.scope = query.scope.getD []

/-- A form that was left as it came brings the grant back, if its scopes are words
and it named no resource. -/
theorem broughtBack_of_filledIn {grant : Grant} {query : LoginQuery} {form : AuthorizeForm}
    (redirected : authorize grant.client grant.params = some query)
    (filled : query.FilledIn form) (noResource : grant.params.resource = none)
    (words : ∀ scope ∈ grant.params.scopes.getD [], IsWord scope) : grant.BroughtBack form := by
  unfold authorize at redirected
  split at redirected
  · cases redirected
  · cases redirected
    obtain ⟨clientId, redirectUri, codeChallenge, scope⟩ := filled
    refine ⟨clientId, redirectUri, ?_, codeChallenge, noResource⟩
    have joined : form.scope = ((grant.params.scopes.getD []).intersperse (py " ")).flatten := by
      rw [scope]
      cases grant.params.scopes with
      | none => rfl
      | some scopes => cases scopes <;> rfl
    rw [joined]
    exact splitSpaces_intersperse words

/-- An authorize handler that reads the query as it is. -/
def plainHandler : AuthorizeHandler where
  check client query :=
    let redirectUri := (query.lookup (py "redirect_uri")).getD []
    let codeChallenge := (query.lookup (py "code_challenge")).getD []
    let scopes := (query.lookup (py "scope")).map splitSpaces
    if redirectUri ∈ client.redirectUris ∧ (∀ scope ∈ scopes.getD [], scope ∈ client.scopes) ∧
        codeChallenge ≠ [] then
      some ⟨query.lookup (py "state"), scopes, codeChallenge, redirectUri,
        query.lookup (py "resource")⟩
    else none
  registered := by
    intro client query params passed
    obtain ⟨checked, rfl⟩ := Replay.guarded_eq_some.mp passed
    exact checked.1
  allowed := by
    intro client query params passed
    obtain ⟨checked, rfl⟩ := Replay.guarded_eq_some.mp passed
    exact checked.2.1
  challenged := by
    intro client query params passed
    obtain ⟨checked, rfl⟩ := Replay.guarded_eq_some.mp passed
    exact checked.2.2

/-- A password that is stored as it is. -/
def plainCheckpw (password passwordHash : Bytes) : Except PyError Bool :=
  .ok (password = passwordHash)

def notesClient : OAuthClient :=
  ⟨py "notes", [py "https://a/cb"], [py "journal:read", py "journal:write"]⟩

def ownerPassword : Bytes := (encodeUtf8 (py "pw")).getD []

/-- A form of the owner, with these challenge and scope fields. -/
def ownerForm (codeChallenge scope : PyStr) : AuthorizeForm where
  clientHost := py "1.2.3.4"
  cookieCsrf := py "t0ken"
  formCsrf := py "t0ken"
  clientId := py "notes"
  redirectUri := py "https://a/cb"
  password := py "pw"
  state := py "s1"
  codeChallenge := codeChallenge
  scope := scope

/-- An authorize request for the read scope, then a login with a form. -/
def loginWith (form : AuthorizeForm) : List Action :=
  [.register (py "1.2.3.4") notesClient,
    .authorize (py "notes") [(py "redirect_uri", py "https://a/cb"),
      (py "code_challenge", py "abc"), (py "scope", py "journal:read"), (py "state", py "s1")],
    .loginPage [], .post 0 form, .count 0, .verify 0, .save 0 (py "c0de")]

theorem all_authorised_as_it_came :
    Replay.Throughout (step plainHandler plainCheckpw ownerPassword)
      (AllAuthorised plainCheckpw ownerPassword) start
      (loginWith (ownerForm (py "abc") (py "journal:read"))) :=
  (all_authorised_iff rfl).mpr ⟨trivial, trivial, trivial, trivial, trivial, trivial,
    ⟨_, List.mem_cons_self, rfl, rfl, by decide, rfl, rfl⟩, trivial⟩

/-- The challenge is emptied and the scope raised before the form is sent: a code
without PKCE that may write. -/
theorem altered_form_stored : ∃ s,
    Replay.run (step plainHandler plainCheckpw ownerPassword) start
      (loginWith (ownerForm [] (py "journal:write"))) = some s ∧
    ¬ AllAuthorised plainCheckpw ownerPassword s := by
  refine ⟨_, rfl, fun all => ?_⟩
  exact (all _ List.mem_cons_self).challenge rfl

end AuthorizationCodes
