import Gubbi.Deploy.Lifespan

/-!
# Who a started server admits

The settings choose the strategies of the server, and with them whom the middleware in front of
the tools lets in: the users that the gateway names, the subjects of Hydra's tokens, or the one
operator.
-/

namespace DeployShapes

open Text Fallible AuthStrategies Transactions Effects Resources
open SelfHostAuth (AuthResult UserId journalRead journalWrite)

def REQUIRED_OAUTH_SCOPE : PyStr := py "journal"

/-- `build_mcp_middleware`, without the check of the origin. -/
def Server.middleware (server : Server) : BearerAuthMiddleware :=
  ⟨server.strategies, some REQUIRED_OAUTH_SCOPE, server.protectedResourceMetadataUrl⟩

inductive BootError
  | settings (messages : List PyStr)
  | lifespan (exc : Exc)

def boot (calls : Calls) (env : Variables) : Except BootError Server :=
  match getSettings env with
  | .error messages => .error (.settings messages)
  | .ok settings => (startup calls settings .empty).1.mapError .lifespan

section Chain
variable {calls : Calls} {settings : Settings} {shape : Shape} {wired : Wired}

/-- An API key with the gateway is a conflict, and a server without Hydra has an API key. -/
def chainOf (calls : Calls) (settings : Settings) (wired : Wired) : Shape → Option (List Strategy)
  | .hosted =>
    if settings.auth.trustGateway then
      some [.trustGateway ⟨decodeGatewaySecret settings.auth.gatewaySecret,
        settings.auth.gatewayRequireSignature⟩]
    else some [.hydra ⟨some calls.introspect⟩]
  | .selfHost =>
    if settings.auth.trustGateway then none
    else some [.apiKey ⟨settings.auth.apiKey, settings.auth.apiKeyScopes, wired.operatorUserId⟩,
      .selfHost ⟨wired.tokenValidator, wired.operatorUserId⟩]
  | .apiKeyOnly =>
    if settings.auth.trustGateway then none
    else some [.apiKey ⟨settings.auth.apiKey, settings.auth.apiKeyScopes, wired.operatorUserId⟩]

/-- What the routes of a shape validate tokens with. -/
theorem tokenValidator_of_fits (fits : settings.auth.Fits shape)
    (returns : OauthReturns calls settings wired.tokenValidator) :
    (shape = .selfHost → ∃ validator, calls.registerSelfhost = .ok validator ∧
        wired.tokenValidator = some validator) ∧
      (shape ≠ .selfHost → wired.tokenValidator = none) := by
  have routes := returns.routes
  unfold registerOauthRoutes at routes
  cases shape with
  | apiKeyOnly =>
    obtain ⟨admin, _, _, password, _⟩ := fits
    simp only [admin, password, ne_eq, not_true_eq_false, ↓reduceIte, Except.ok.injEq] at routes
    exact ⟨nofun, fun _ => routes.symm⟩
  | selfHost =>
    obtain ⟨admin, _, _, password, _⟩ := fits
    simp only [admin, password, ne_eq, not_true_eq_false, ↓reduceIte] at routes
    cases registered : calls.registerSelfhost with
    | error e =>
      rw [registered] at routes
      cases routes
    | ok validator =>
      rw [registered] at routes
      exact ⟨fun _ => ⟨validator, rfl, (Except.ok.inj routes).symm⟩, absurd rfl⟩
  | hosted =>
    simp only [fits.1, ne_eq, not_false_eq_true, ↓reduceIte] at routes
    cases registered : calls.registerWellknown with
    | error e =>
      rw [registered] at routes
      cases routes
    | ok _ =>
      rw [registered] at routes
      exact ⟨nofun, fun _ => (Except.ok.inj routes).symm⟩

theorem lifespanStrategies_of_fits (fits : settings.auth.Fits shape)
    (returns : WireReturns calls settings wired) :
    lifespanStrategies settings.auth.toAuthSettings wired.gatewaySecret wired.introspector
      wired.tokenValidator wired.operatorUserId = chainOf calls settings wired shape := by
  have validator := tokenValidator_of_fits fits returns.oauth
  have introspector := returns.connect.introspector
  simp only [lifespanStrategies, effectiveApiKey, AuthConfig.toAuthSettings, introspector,
    returns.gatewaySecret]
  cases shape with
  | apiKeyOnly =>
    obtain ⟨admin, _, _, _, key, _⟩ := fits
    simp [chainOf, admin, key, validator.2 (by decide)]
  | selfHost =>
    obtain ⟨admin, _, _, _, key, _⟩ := fits
    obtain ⟨validator, _, made⟩ := validator.1 rfl
    simp [chainOf, admin, key, made]
  | hosted =>
    simp [chainOf, fits.1, validator.2 (by decide)]

/-- A shape has a chain unless it trusts a gateway without Hydra. -/
theorem chainOf_isSome : (∃ strategies, chainOf calls settings wired shape = some strategies) ↔
    (settings.auth.trustGateway = true → shape = .hosted) := by
  cases shape <;> by_cases trusts : settings.auth.trustGateway = true <;> simp [chainOf, trusts]

/-- The metadata document is advertised where there is an authorization server. -/
theorem advertises_iff (fits : settings.auth.Fits shape)
    (returns : WireReturns calls settings wired) :
    (wired.introspector.isSome || wired.tokenValidator.isSome) = true ↔ shape ≠ .apiKeyOnly := by
  have validator := tokenValidator_of_fits fits returns.oauth
  rw [returns.connect.introspector]
  cases shape with
  | apiKeyOnly =>
    simp [fits.1, validator.2 (by decide)]
  | selfHost =>
    obtain ⟨validator, _, made⟩ := validator.1 rfl
    simp [made]
  | hosted => simp [fits.1]

end Chain

section Boot
variable {calls : Calls} {settings : Settings} {env : Variables} {server : Server}

theorem assemble_ok {wired : Wired} {desk : Desk Resource} :
    (assemble calls settings wired desk).1 = .ok server ↔
      lifespanStrategies settings.auth.toAuthSettings wired.gatewaySecret wired.introspector
          wired.tokenValidator wired.operatorUserId = some server.strategies ∧
        (if wired.introspector.isSome || wired.tokenValidator.isSome then
          calls.metadataUrl.map some else .ok none) = .ok server.protectedResourceMetadataUrl ∧
        calls.mount = .ok () := by
  unfold assemble
  cases lifespanStrategies settings.auth.toAuthSettings wired.gatewaySecret wired.introspector
      wired.tokenValidator wired.operatorUserId with
  | none => exact iff_of_false (by nofun) (by nofun)
  | some strategies =>
    simp only [bind_fst_ok, await_fst, pure_apply, Except.ok.injEq]
    constructor
    · rintro ⟨metadataUrl, made, _, mounted, rfl⟩
      exact ⟨rfl, made, mounted⟩
    · rintro ⟨same, made, mounted⟩
      obtain rfl := Option.some.inj same
      exact ⟨_, made, _, mounted, rfl⟩

/-- Behind `startup`: everything is wired, and the chain of the shape is mounted. -/
structure Started (calls : Calls) (settings : Settings) (wired : Wired) (server : Server) :
    Prop where
  returns : WireReturns calls settings wired
  chain : chainOf calls settings wired settings.auth.shape = some server.strategies
  metadata : if settings.auth.shape = .apiKeyOnly then server.protectedResourceMetadataUrl = none
    else ∃ url, calls.metadataUrl = .ok url ∧ some url = server.protectedResourceMetadataUrl
  mount : calls.mount = .ok ()

theorem startup_ok {desk : Desk Resource} (fits : settings.auth.Fits settings.auth.shape) :
    (startup calls settings desk).1 = .ok server ↔
      ∃ wired, Started calls settings wired server := by
  rw [startup, bind_fst_ok]
  refine exists_congr fun wired => ?_
  rw [wire_ok, assemble_ok]
  constructor
  · rintro ⟨returns, chain, metadata, mount⟩
    refine ⟨returns, (lifespanStrategies_of_fits fits returns).symm.trans chain, ?_, mount⟩
    have advertises := advertises_iff fits returns
    split
    · next only =>
      rw [if_neg fun shown => advertises.mp shown only] at metadata
      exact (Except.ok.inj metadata).symm
    · next oauth =>
      rw [if_pos (advertises.mpr oauth)] at metadata
      exact map_eq_ok.mp metadata
  · rintro ⟨returns, chain, metadata, mount⟩
    refine ⟨returns, (lifespanStrategies_of_fits fits returns).trans chain, ?_, mount⟩
    have advertises := advertises_iff fits returns
    split at metadata
    · next only => rw [if_neg fun shown => advertises.mp shown only, metadata]
    · next oauth =>
      rw [if_pos (advertises.mpr oauth)]
      exact map_eq_ok.mpr metadata

theorem boot_eq_ok : boot calls env = .ok server ↔
    ∃ settings, getSettings env = .ok settings ∧ ∃ wired, Started calls settings wired server := by
  unfold boot
  cases loaded : getSettings env with
  | error messages => simp
  | ok settings =>
    obtain ⟨-, -, fits, -⟩ := getSettings_eq_ok.mp loaded
    simp only [mapError_eq_ok, startup_ok fits, Except.ok.injEq, exists_eq_left']

/-- What it takes to trust a gateway. -/
structure GatewayFits (calls : Calls) (settings : Settings) : Prop where
  shape : settings.auth.trustGateway = true → settings.auth.shape = .hosted
  signature : settings.auth.trustGateway = true → settings.isDeployed = true →
    settings.auth.gatewayRequireSignature = true
  address : settings.auth.trustGateway = true →
    ∃ addrs, calls.addresses settings.host = some addrs ∧
      ∀ addr ∈ addrs, addr.publicRoutable = false

/-- The calls that the startup makes go through. -/
structure CallsReturn (calls : Calls) (settings : Settings) : Prop where
  appCtx : ∃ operatorUserId, AppCtxReturns calls settings operatorUserId
  oauth : ∃ tokenValidator, OauthReturns calls settings tokenValidator
  connect : ∃ introspector, ConnectReturns calls settings introspector
  metadata : settings.auth.shape ≠ .apiKeyOnly → ∃ url, calls.metadataUrl = .ok url
  mount : calls.mount = .ok ()

theorem bindAddress_ok {addresses : PyStr → Option (List Address)} {host : PyStr}
    {trustGateway : Bool} : checkTrustGatewayBindAddress addresses host trustGateway = .ok () ↔
      (trustGateway = true → ∃ addrs, addresses host = some addrs ∧
        ∀ addr ∈ addrs, addr.publicRoutable = false) := by
  unfold checkTrustGatewayBindAddress
  cases trustGateway with
  | false => simp
  | true =>
    cases addresses host with
    | none => simp
    | some addrs => simp [List.any_eq_true]

/-- A server starts when its variables are well formed and fit one of the three shapes, a
gateway is trusted in the hosted shape only, behind an address that is not public, and in a
deployed environment by its signature, and every call that is made goes through. -/
theorem boots_iff (calls : Calls) (env : Variables) : (∃ server, boot calls env = .ok server) ↔
    WellFormed env ∧ ∃ settings : Settings, settings.Reads env ∧
      settings.auth.Fits settings.auth.shape ∧ GatewayFits calls settings ∧
      CallsReturn calls settings := by
  simp only [boot_eq_ok, getSettings_eq_ok]
  constructor
  · rintro ⟨server, settings, ⟨formed, reads, fits, signature⟩, wired, started⟩
    refine ⟨formed, settings, reads, fits, ⟨?_, signature, ?_⟩, ?_⟩
    · exact chainOf_isSome.mp ⟨_, started.chain⟩
    · exact bindAddress_ok.mp started.returns.bindAddress
    · refine ⟨⟨_, started.returns.appCtx⟩, ⟨_, started.returns.oauth⟩,
        ⟨_, started.returns.connect⟩, fun oauth => ?_, started.mount⟩
      have shown := started.metadata
      rw [if_neg oauth] at shown
      obtain ⟨url, made, -⟩ := shown
      exact ⟨url, made⟩
  · rintro ⟨formed, settings, reads, fits, gateway, goes⟩
    obtain ⟨operatorUserId, appCtx⟩ := goes.appCtx
    obtain ⟨tokenValidator, oauth⟩ := goes.oauth
    obtain ⟨introspector, connected⟩ := goes.connect
    have returns : WireReturns calls settings ⟨operatorUserId, tokenValidator, introspector,
        decodeGatewaySecret settings.auth.gatewaySecret⟩ :=
      ⟨bindAddress_ok.mpr gateway.address, appCtx, oauth, connected, rfl⟩
    obtain ⟨strategies, chain⟩ := chainOf_isSome.mpr gateway.shape
    by_cases only : settings.auth.shape = .apiKeyOnly
    · refine ⟨⟨strategies, none⟩, settings, ⟨formed, reads, fits, gateway.signature⟩, _,
        returns, chain, ?_, goes.mount⟩
      rw [if_pos only]
    · obtain ⟨url, made⟩ := goes.metadata only
      refine ⟨⟨strategies, some url⟩, settings, ⟨formed, reads, fits, gateway.signature⟩, _,
        returns, chain, ?_, goes.mount⟩
      rw [if_neg only]
      exact ⟨url, made, rfl⟩

end Boot

section Credentials
variable (calls : Calls) (settings : Settings) (library : GatewayLibrary) (request : Request)
  (user : AuthResult)

/-- The signature of the gateway over the user. -/
structure Signed : Prop where
  contract : supportedContract library request
  signature : ∃ secret path, decodeGatewaySecret settings.auth.gatewaySecret = some secret ∧
    request.urlPath = .ok path ∧
    library.verifySignature secret (request.header (py "x-auth-signature"))
      (uuidText user.userId) (request.header (py "x-auth-scopes"))
      (request.header (py "x-auth-timestamp")) (request.method.map upperAscii) path = .ok ()

/-- The gateway names the user. -/
structure GatewayNames : Prop where
  userId : parseUuid (request.header (py "x-auth-user-id")) = some user.userId
  scopes : user.scopes = resolveScopes (request.header (py "x-auth-scopes"))
  signed : request.header (py "x-auth-signature") ≠ [] ∨
    settings.auth.gatewayRequireSignature = true → Signed settings library request user

/-- Hydra knows the token. -/
def HydraKnows : Prop :=
  ∃ token scope, request.bearerToken = .ok token ∧ (py "ory_at_").isPrefixOf token = true ∧
    calls.introspect token = .claims (some user.userId) (some scope) ∧ user.scopes = split scope

/-- The operator shows the API key. -/
structure OperatorKey : Prop where
  operator : calls.operatorRow = .ok (some user.userId)
  token : request.bearerToken = .ok settings.auth.apiKey
  ascii : isAscii settings.auth.apiKey = true
  scopes : user.scopes = settings.auth.apiKeyScopes

/-- The operator shows a token of the server's own, which is compared to the API key first. -/
structure OperatorToken : Prop where
  operator : calls.operatorRow = .ok (some user.userId)
  token : ∃ token validator, request.bearerToken = .ok token ∧
    Comparable token settings.auth.apiKey ∧ token ≠ settings.auth.apiKey ∧
    calls.registerSelfhost = .ok validator ∧ validator token = some user.scopes

/-- What the chain of the shape asks for. -/
def Shows : Prop :=
  match settings.auth.shape with
  | .hosted => if settings.auth.trustGateway then GatewayNames settings library request user
    else HydraKnows calls request user
  | .selfHost => OperatorKey calls settings request user ∨ OperatorToken calls settings request user
  | .apiKeyOnly => OperatorKey calls settings request user

end Credentials

section Answers
variable {calls : Calls} {settings : Settings} {library : GatewayLibrary} {request : Request}
  {user : AuthResult}

theorem verifyRequest_ok {secret : Bytes} {userUuid : HydraIntrospector.Uuid} :
    verifyRequest library secret userUuid request = .ok () ↔
      ∃ path, request.urlPath = .ok path ∧
        library.verifySignature secret (request.header (py "x-auth-signature"))
          (uuidText userUuid) (request.header (py "x-auth-scopes"))
          (request.header (py "x-auth-timestamp")) (request.method.map upperAscii) path =
            .ok () := by
  unfold verifyRequest reject
  cases request.urlPath with
  | error exc => simp
  | ok path =>
    simp only [Except.ok.injEq, exists_eq_left']
    split
    · next verified => simp [verified]
    · next refused => simp [refused]
    · next exc escaped => simp [escaped]

theorem checkSignature_ok {strategy : TrustGatewayStrategy} {userUuid : HydraIntrospector.Uuid} :
    strategy.checkSignature library userUuid request = .ok () ↔
      (strategy.checksSignature request = true → supportedContract library request ∧
        ∃ secret, strategy.gatewaySecret = some secret ∧
          verifyRequest library secret userUuid request = .ok ()) := by
  unfold TrustGatewayStrategy.checkSignature reject
  by_cases checks : strategy.checksSignature request = true
  · by_cases supported : supportedContract library request
    · cases strategy.gatewaySecret <;> simp [checks, supported]
    · simp [checks, supported]
  · simp [checks]

theorem trustGateway_answers :
    (⟨decodeGatewaySecret settings.auth.gatewaySecret, settings.auth.gatewayRequireSignature⟩ :
        TrustGatewayStrategy).authenticate library request = .ok (some user) ↔
      GatewayNames settings library request user := by
  have checks_iff : (⟨decodeGatewaySecret settings.auth.gatewaySecret,
      settings.auth.gatewayRequireSignature⟩ : TrustGatewayStrategy).checksSignature request =
        true ↔ request.header (py "x-auth-signature") ≠ [] ∨
          settings.auth.gatewayRequireSignature = true := by
    simp [TrustGatewayStrategy.checksSignature]
  have signed_iff (userUuid : HydraIntrospector.Uuid) (same : userUuid = user.userId) :
      (⟨decodeGatewaySecret settings.auth.gatewaySecret,
        settings.auth.gatewayRequireSignature⟩ : TrustGatewayStrategy).checkSignature library
          userUuid request = .ok () ↔
        (request.header (py "x-auth-signature") ≠ [] ∨
          settings.auth.gatewayRequireSignature = true → Signed settings library request user) := by
    subst same
    rw [checkSignature_ok, checks_iff]
    refine imp_congr_right fun _ => ?_
    simp only [verifyRequest_ok]
    exact ⟨fun ⟨supported, secret, made, path, parsed, verified⟩ =>
        ⟨supported, secret, path, made, parsed, verified⟩,
      fun ⟨supported, secret, path, made, parsed, verified⟩ =>
        ⟨supported, secret, made, path, parsed, verified⟩⟩
  unfold TrustGatewayStrategy.authenticate reject
  constructor
  · intro answered
    split at answered
    · cases answered
    split at answered
    · cases answered
    next userUuid parsed =>
    split at answered
    · cases answered
    next signed =>
    obtain rfl := Option.some.inj (Except.ok.inj answered)
    exact ⟨parsed, rfl, (signed_iff userUuid rfl).mp signed⟩
  · rintro ⟨parsed, scopes, signed⟩
    have given : request.header (py "x-auth-user-id") ≠ [] := by
      intro missing
      rw [missing] at parsed
      cases (show parseUuid [] = none by decide).symm.trans parsed
    rw [if_neg (by simpa using given), parsed]
    simp only [(signed_iff user.userId rfl).mpr signed, ← scopes]

theorem hydra_answers : (⟨some calls.introspect⟩ : HydraStrategy).authenticate request =
    .ok (some user) ↔ HydraKnows calls request user := by
  unfold HydraStrategy.authenticate HydraKnows reject
  cases request.bearerToken with
  | error exc => simp
  | ok token =>
    cases shaped : (py "ory_at_").isPrefixOf token with
    | false => simp only [Except.ok.injEq, ↓existsAndEq, shaped, Bool.false_eq_true, false_and,
        and_false, exists_false, ↓reduceIte, reduceCtorEq]
    | true =>
      simp only [Except.ok.injEq, ↓existsAndEq, shaped, true_and, ↓reduceIte]
      cases calls.introspect token with
      | hydraUnreachable => simp
      | hydraInvalidToken => simp
      | otherException => simp
      | claims sub scope =>
        cases sub with
        | none => simp
        | some sub =>
          cases scope with
          | none => simp
          | some scope =>
            cases user
            simp [eq_comm]

theorem apiKey_answers {operatorUserId : Option UserId} (set : settings.auth.apiKey ≠ []) :
    (⟨settings.auth.apiKey, settings.auth.apiKeyScopes, operatorUserId⟩ :
        ApiKeyStrategy).authenticate request = .ok (some user) ↔
      operatorUserId = some user.userId ∧ request.bearerToken = .ok settings.auth.apiKey ∧
        isAscii settings.auth.apiKey = true ∧ user.scopes = settings.auth.apiKeyScopes := by
  unfold ApiKeyStrategy.authenticate reject
  cases request.bearerToken with
  | error exc => simp
  | ok token =>
    simp only [List.isEmpty_iff, set, ↓reduceIte, Except.ok.injEq]
    by_cases comparable : Comparable token settings.auth.apiKey
    · rw [compareDigest_of_comparable comparable]
      by_cases same : token = settings.auth.apiKey
      · rw [decide_eq_true same]
        cases operatorUserId with
        | none => exact iff_of_false (by nofun) (by nofun)
        | some userId =>
          rw [Except.ok.injEq, Option.some.injEq, Option.some.injEq]
          constructor
          · rintro rfl
            exact ⟨rfl, same, comparable.2, rfl⟩
          · rintro ⟨rfl, _, _, scopes⟩
            rw [← scopes]
      · rw [decide_eq_false same]
        exact iff_of_false (by nofun) fun shown => same shown.2.1
    · rw [compareDigest_of_not_comparable comparable]
      refine iff_of_false (by nofun) ?_
      rintro ⟨_, rfl, ascii, _⟩
      exact comparable ⟨ascii, ascii⟩

theorem apiKey_passesOn {operatorUserId : Option UserId} (set : settings.auth.apiKey ≠ []) :
    (⟨settings.auth.apiKey, settings.auth.apiKeyScopes, operatorUserId⟩ :
        ApiKeyStrategy).authenticate request = .ok none ↔
      ∃ token, request.bearerToken = .ok token ∧ Comparable token settings.auth.apiKey ∧
        token ≠ settings.auth.apiKey := by
  rw [← apiKey_passes]
  simp only [ApiKeyStrategy.Passes, set, false_or]

theorem selfHost_answers {tokenValidator : PyStr → Option (List PyStr)}
    {operatorUserId : Option UserId} :
    (⟨some tokenValidator, operatorUserId⟩ : SelfHostAuth.SelfHostStrategy).authenticate
        (request.header (py "authorization")) = .ok (some user) ↔
      operatorUserId = some user.userId ∧
        ∃ token, request.bearerToken = .ok token ∧ tokenValidator token = some user.scopes := by
  unfold SelfHostAuth.SelfHostStrategy.authenticate Request.bearerToken
  cases SelfHostAuth.extractBearerToken (request.header (py "authorization")) with
  | error exc => simp
  | ok token =>
    simp only [Except.ok.injEq, exists_eq_left']
    cases tokenValidator token with
    | none => simp
    | some granted =>
      cases operatorUserId with
      | none => simp
      | some userId =>
        cases user
        simp

/-- `hasScope` at the scope of the server. -/
theorem hasScope_required {scopes : List PyStr} : hasScope scopes REQUIRED_OAUTH_SCOPE = true ↔
    py "journal" ∈ scopes ∨ journalRead ∈ scopes ∧ journalWrite ∈ scopes := by
  have direct : SelfHostAuth.checkScope scopes REQUIRED_OAUTH_SCOPE = true ↔
      py "journal" ∈ scopes := by
    have outside : REQUIRED_OAUTH_SCOPE ∉ SelfHostAuth.GRANTS_UNION := by decide
    rw [SelfHostAuth.checkScope, decide_eq_false outside, Bool.false_and, ite_eq_left_iff]
    exact ⟨fun whole => by_contra fun missing => Bool.false_ne_true (whole missing),
      fun whole missing => absurd whole missing⟩
  have entry : SelfHostAuth.SCOPE_GRANTS.find? (fun entry => entry.1 = REQUIRED_OAUTH_SCOPE) =
      some (py "journal", [journalRead, journalWrite]) := by decide
  unfold hasScope
  rw [entry]
  by_cases whole : SelfHostAuth.checkScope scopes REQUIRED_OAUTH_SCOPE = true
  · rw [if_pos whole]
    exact iff_of_true rfl (Or.inl (direct.mp whole))
  · rw [if_neg whole, ← direct, or_iff_right whole]
    simp

theorem call_app {strategies : List Strategy} {metadataUrl : Option PyStr} :
    BearerAuthMiddleware.call library ⟨strategies, some REQUIRED_OAUTH_SCOPE, metadataUrl⟩ .http
        request = .ok (.app (some user)) ↔
      authenticate library strategies request = .ok (some user) ∧
        hasScope user.scopes REQUIRED_OAUTH_SCOPE = true := by
  unfold BearerAuthMiddleware.call
  cases authenticate library strategies request with
  | error exc => cases exc <;> simp
  | ok answer =>
    cases answer with
    | none => simp
    | some result =>
      by_cases granted : hasScope result.scopes REQUIRED_OAUTH_SCOPE = true
      · simp only [granted, ↓reduceIte, Except.ok.injEq, Handled.app.injEq, Option.some.injEq]
        exact ⟨fun same => ⟨same, same ▸ granted⟩, fun same => same.1⟩
      · simp only [granted, Bool.false_eq_true, ↓reduceIte, Except.ok.injEq, reduceCtorEq,
          Option.some.injEq, false_iff, not_and]
        rintro rfl
        exact granted

/-- Whom the chain of a started server answers. -/
theorem authenticate_iff {wired : Wired} {server : Server}
    (fits : settings.auth.Fits settings.auth.shape)
    (started : Started calls settings wired server) :
    authenticate library server.strategies request = .ok (some user) ↔
      Shows calls settings library request user := by
  have chain := started.chain
  have validator := (tokenValidator_of_fits fits started.returns.oauth).1
  have operator_iff (provisioned : settings.auth.operatorEmail ≠ []) :
      wired.operatorUserId = some user.userId ↔ calls.operatorRow = .ok (some user.userId) := by
    have resolved := started.returns.appCtx.operator
    rw [resolveOperatorUserId, if_neg provisioned] at resolved
    rw [resolved, Except.ok.injEq]
  unfold Shows authenticate
  cases shape : settings.auth.shape with
  | hosted =>
    rw [shape, chainOf] at chain
    by_cases trusts : settings.auth.trustGateway = true
    · rw [if_pos trusts] at chain
      simp only [← Option.some.inj chain, if_pos trusts]
      exact firstAnswer_singleton.trans trustGateway_answers
    · rw [if_neg trusts] at chain
      simp only [← Option.some.inj chain, if_neg trusts]
      exact firstAnswer_singleton.trans hydra_answers
  | selfHost =>
    rw [shape] at fits chain
    obtain ⟨-, -, -, -, set, provisioned⟩ := fits
    obtain ⟨validate, registered, made⟩ := validator shape
    rw [chainOf] at chain
    by_cases trusts : settings.auth.trustGateway = true
    · rw [if_pos trusts] at chain
      cases chain
    rw [if_neg trusts, made] at chain
    simp only [← Option.some.inj chain]
    rw [firstAnswer_cons_some, firstAnswer_singleton]
    refine or_congr ?_ ?_
    · refine (apiKey_answers set).trans ?_
      rw [operator_iff provisioned]
      exact ⟨fun ⟨operator, token, ascii, scopes⟩ => ⟨operator, token, ascii, scopes⟩,
        fun ⟨operator, token, ascii, scopes⟩ => ⟨operator, token, ascii, scopes⟩⟩
    · refine (and_congr (apiKey_passesOn set) (mapError_eq_ok.trans selfHost_answers)).trans ?_
      rw [operator_iff provisioned]
      constructor
      · rintro ⟨⟨token, shown, comparable, other⟩, operator, token', shown', granted⟩
        obtain rfl := Except.ok.inj (shown.symm.trans shown')
        exact ⟨operator, token, validate, shown, comparable, other, registered, granted⟩
      · rintro ⟨operator, token, validate', shown, comparable, other, registered', granted⟩
        obtain rfl := Except.ok.inj (registered.symm.trans registered')
        exact ⟨⟨token, shown, comparable, other⟩, operator, token, shown, granted⟩
  | apiKeyOnly =>
    rw [shape] at fits chain
    obtain ⟨-, -, -, -, set, provisioned⟩ := fits
    rw [chainOf] at chain
    by_cases trusts : settings.auth.trustGateway = true
    · rw [if_pos trusts] at chain
      cases chain
    rw [if_neg trusts] at chain
    simp only [← Option.some.inj chain]
    refine firstAnswer_singleton.trans ((apiKey_answers set).trans ?_)
    rw [operator_iff provisioned]
    exact ⟨fun ⟨operator, token, ascii, scopes⟩ => ⟨operator, token, ascii, scopes⟩,
      fun ⟨operator, token, ascii, scopes⟩ => ⟨operator, token, ascii, scopes⟩⟩

end Answers

section Admission
variable {calls : Calls} {settings : Settings} {env : Variables} {server : Server}

/-- The middleware of a started server lets a request through to the tools, for a user and with
scopes, exactly when the request shows what the chain of the shape asks for and the scopes cover
the scope of the server. -/
theorem admitted_iff (loaded : getSettings env = .ok settings)
    (started : (startup calls settings .empty).1 = .ok server) (library : GatewayLibrary)
    (request : Request) (user : AuthResult) :
    BearerAuthMiddleware.call library server.middleware .http request = .ok (.app (some user)) ↔
      Shows calls settings library request user ∧
        (py "journal" ∈ user.scopes ∨
          journalRead ∈ user.scopes ∧ journalWrite ∈ user.scopes) := by
  obtain ⟨-, -, fits, -⟩ := getSettings_eq_ok.mp loaded
  obtain ⟨wired, started⟩ := (startup_ok fits).mp started
  exact call_app.trans (and_congr (authenticate_iff fits started) hasScope_required)

/-- What a deployed server takes from a user, or from the gateway for a user. -/
inductive Credential (calls : Calls) (settings : Settings) (library : GatewayLibrary)
    (request : Request) (user : AuthResult) : Prop
  | signature (secret : Bytes) (path : PyStr)
      (decoded : decodeGatewaySecret settings.auth.gatewaySecret = some secret)
      (long : 32 ≤ secret.length) (served : request.urlPath = .ok path)
      (verified : library.verifySignature secret (request.header (py "x-auth-signature"))
        (uuidText user.userId) (request.header (py "x-auth-scopes"))
        (request.header (py "x-auth-timestamp")) (request.method.map upperAscii) path = .ok ())
  | hydraToken (token scope : PyStr) (shown : request.bearerToken = .ok token)
      (known : calls.introspect token = .claims (some user.userId) (some scope))
  | apiKey (operator : calls.operatorRow = .ok (some user.userId))
      (shown : request.bearerToken = .ok settings.auth.apiKey)
      (long : 32 ≤ settings.auth.apiKey.length)
  | ownToken (operator : calls.operatorRow = .ok (some user.userId)) (token : PyStr)
      (validator : PyStr → Option (List PyStr)) (shown : request.bearerToken = .ok token)
      (registered : calls.registerSelfhost = .ok validator)
      (granted : validator token = some user.scopes)

theorem decodeGatewaySecret_long {rawHex : PyStr} {secret : Bytes}
    (decoded : decodeGatewaySecret rawHex = some secret) : 32 ≤ secret.length := by
  unfold decodeGatewaySecret at decoded
  split at decoded
  · cases decoded
  · exact of_decide_eq_true (Option.filter_eq_some_iff.mp decoded).2

theorem apiKey_long (loaded : getSettings env = .ok settings) (set : settings.auth.apiKey ≠ []) :
    32 ≤ settings.auth.apiKey.length := by
  obtain ⟨formed, reads, -, -⟩ := getSettings_eq_ok.mp loaded
  have same := reads.auth.apiKey
  cases given : env.apiKey with
  | none =>
    rw [given] at same
    exact absurd same set
  | some v =>
    rw [given] at same
    rw [same]
    exact (formed.apiKey v given).resolve_left fun empty => set (same.trans empty)

/-- A server in staging or production lets nobody through on a name alone, and on no short
secret; a signature is one under the secret of its own settings, over the path of the request. -/
theorem deployed_admits (loaded : getSettings env = .ok settings)
    (started : (startup calls settings .empty).1 = .ok server)
    (deployed : settings.isDeployed = true) {library : GatewayLibrary} {request : Request}
    {user : AuthResult} (admitted : BearerAuthMiddleware.call library server.middleware .http
      request = .ok (.app (some user))) : Credential calls settings library request user := by
  obtain ⟨-, -, fits, signature⟩ := getSettings_eq_ok.mp loaded
  obtain ⟨wired, behind⟩ := (startup_ok fits).mp started
  have shows := (authenticate_iff fits behind).mp (call_app.mp admitted).1
  unfold Shows at shows
  cases shape : settings.auth.shape with
  | hosted =>
    rw [shape] at shows
    by_cases trusts : settings.auth.trustGateway = true
    · simp only [if_pos trusts] at shows
      obtain ⟨-, secret, path, decoded, served, verified⟩ :=
        shows.signed (Or.inr (signature trusts deployed))
      exact .signature secret path decoded (decodeGatewaySecret_long decoded) served verified
    · simp only [if_neg trusts] at shows
      obtain ⟨token, scope, shown, -, known, -⟩ := shows
      exact .hydraToken token scope shown known
  | selfHost =>
    rw [shape] at shows fits
    rcases shows with key | own
    · exact .apiKey key.operator key.token (apiKey_long loaded fits.2.2.2.2.1)
    · obtain ⟨token, validator, shown, -, -, registered, granted⟩ := own.token
      exact .ownToken own.operator token validator shown registered granted
  | apiKeyOnly =>
    rw [shape] at shows fits
    exact .apiKey shows.operator shows.token (apiKey_long loaded fits.2.2.2.2.1)

end Admission

/-- A self-host server, which its operator has configured. -/
def operatorVariables : Variables where
  apiKey := some (py "0123456789abcdef0123456789abcdef")
  hydraAdminUrl := none
  hydraPublicIssuerUrl := none
  hydraPublicUrl := none
  passwordHash := some (py "$2b$12$hash")
  operatorEmail := some (py " operator@example.org ")
  trustGateway := none
  gatewaySecret := none
  gatewayRequireSignature := none
  apiKeyScopes := none
  appEnv := some .production
  host := none
  adminUrl := none
  llmBudgetEnabled := none

def operatorSettings : Settings where
  appEnv := .production
  auth := {
    apiKey := py "0123456789abcdef0123456789abcdef"
    hydraAdminUrl := []
    hydraPublicIssuerUrl := []
    hydraPublicUrl := none
    passwordHash := py "$2b$12$hash"
    operatorEmail := py "operator@example.org"
    trustGateway := false
    gatewaySecret := []
    gatewayRequireSignature := true
    apiKeyScopes := [py "journal:read", py "journal:write"] }
  host := py "0.0.0.0"
  adminUrl := []
  llmBudgetEnabled := false

/-- Every call goes through; the server knows one token of its own. -/
def operatorCalls : Calls where
  addresses := fun _ => none
  initAdminPool := .ok ()
  initPool := .ok ()
  scaffoldOperator := .ok ()
  embeddingService := .ok ()
  makeDirectory := .ok ()
  operatorRow := .ok (some 7)
  contentCipher := .ok ()
  createMcpServer := .ok ()
  oauthConnect := .ok ()
  oauthSchema := .ok ()
  oauthCleanup := .ok ()
  registerWellknown := .ok ()
  registerSelfhost := .ok fun token =>
    if token = py "token" then some [journalRead, journalWrite] else none
  hydraHttpClient := .ok ()
  introspect := fun _ => .hydraInvalidToken
  redisPool := .ok ()
  redisClient := .ok ()
  resourceProbes := .ok ()
  arqPool := .ok ()
  registerScript := .ok ()
  metadataUrl := .ok (py "https://example.org/.well-known/oauth-protected-resource/mcp")
  mount := .ok ()
  served := .ok ()
  cronEnds := .error .cancelledError

def operatorServer : Server where
  strategies := [.apiKey ⟨operatorSettings.auth.apiKey, [journalRead, journalWrite], some 7⟩,
    .selfHost ⟨some fun token =>
      if token = py "token" then some [journalRead, journalWrite] else none, some 7⟩]
  protectedResourceMetadataUrl :=
    some (py "https://example.org/.well-known/oauth-protected-resource/mcp")

def tokenRequest : Request where
  headers := [(latin1 "authorization", latin1 "Bearer token")]
  method := py "POST"
  urlPath := .ok (py "/mcp")

theorem admitted_iff_token :
    BearerAuthMiddleware.call demoLibrary operatorServer.middleware .http tokenRequest =
      .ok (.app (some ⟨7, [journalRead, journalWrite]⟩)) := by
  have loaded : getSettings operatorVariables = .ok operatorSettings := by rfl
  have started : (startup operatorCalls operatorSettings .empty).1 = .ok operatorServer := by rfl
  refine (admitted_iff loaded started demoLibrary tokenRequest _).mpr ⟨?_, ?_⟩
  · exact Or.inr ⟨rfl, py "token", _, by decide, by unfold Comparable; decide, by decide, rfl,
      by decide⟩
  · exact Or.inr (by decide)

theorem deployed_admits_token : Credential operatorCalls operatorSettings demoLibrary tokenRequest
    ⟨7, [journalRead, journalWrite]⟩ := by
  have loaded : getSettings operatorVariables = .ok operatorSettings := by rfl
  have started : (startup operatorCalls operatorSettings .empty).1 = .ok operatorServer := by rfl
  exact deployed_admits loaded started (by decide) (by rfl)

end DeployShapes
