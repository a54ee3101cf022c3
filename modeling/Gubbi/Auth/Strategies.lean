import Gubbi.Auth.Introspector
import Gubbi.Library.Fallible
import Gubbi.Numerals
import Gubbi.OAuth.Scopes

/-!
# The strategy chain and its two adapters

A request is shown to the configured strategies in turn, up to the first one that
answers or rejects it. The MCP middleware and the dependency of the REST routes run
the same chain and translate what comes out of it. Logging does not fail.
-/

namespace AuthStrategies

open Text Fallible
open HydraIntrospector (Uuid Outcome)
open SelfHostAuth (AuthRejected AuthResult UserId SelfHostStrategy extractBearerToken checkScope
  SCOPE_GRANTS journalRead journalWrite)

/-- `bytes.decode("latin-1")`. -/
def decodeLatin1 (bytes : Bytes) : PyStr :=
  bytes.map (fun b => ⟨b.toNat, Nat.lt_trans b.toNat_lt (by decide)⟩)

/-- Header names are in lower case. `urlPath` is `request.url.path`, which parses the
URL that the target and the `Host` header make up. -/
structure Request where
  headers : List (Bytes × Bytes)
  method : PyStr
  urlPath : Except PyError PyStr

/-- `request.headers.get(name, "")`. -/
def Request.header (request : Request) (name : PyStr) : PyStr :=
  match request.headers.find? (fun pair => decodeLatin1 pair.1 = name) with
  | none => []
  | some pair => decodeLatin1 pair.2

def Request.bearerToken (request : Request) : Except AuthRejected PyStr :=
  extractBearerToken (request.header (py "authorization"))

def upperAscii (c : CodePoint) : CodePoint :=
  if 0x61 ≤ c.val ∧ c.val ≤ 0x7a then c - 0x20 else c

/-- The words of `str.split()`; `word` is read already. -/
def splitWords (word : PyStr) : PyStr → List PyStr
  | [] => if word.isEmpty then [] else [word]
  | c :: rest =>
    if isSpace c then
      if word.isEmpty then splitWords [] rest else word :: splitWords [] rest
    else splitWords (word ++ [c]) rest

def split (s : PyStr) : List PyStr := splitWords [] s

/-- `s.replace(old, "")` with `skip` code points of an occurrence to go. -/
def removeFrom (old : PyStr) : Nat → PyStr → PyStr
  | _, [] => []
  | skip + 1, _ :: rest => removeFrom old skip rest
  | 0, c :: rest =>
    if old.isPrefixOf (c :: rest) then removeFrom old (old.length - 1) rest
    else c :: removeFrom old 0 rest

def hexDigit (c : CodePoint) : Option Nat :=
  if 0x30 ≤ c.val ∧ c.val ≤ 0x39 then some (c.val - 0x30)
  else if 0x61 ≤ c.val ∧ c.val ≤ 0x66 then some (c.val - 0x61 + 10)
  else if 0x41 ≤ c.val ∧ c.val ≤ 0x46 then some (c.val - 0x41 + 10)
  else none

/-- Digits to the base 16, with single underscores between them. -/
def hexDigits : Bool → Nat → PyStr → Option Nat
  | afterDigit, value, [] => if afterDigit then some value else none
  | afterDigit, value, c :: rest =>
    if c.val = 0x5f then
      if afterDigit then hexDigits false value rest else none
    else
      match hexDigit c with
      | none => none
      | some digit => hexDigits true (16 * value + digit) rest

/-- `int(text, 16)` of a text without a minus sign. A header has digits of no other script. -/
def intBase16 (text : PyStr) : Option Nat :=
  let body := stripOf Numerals.isIntSpace text
  let unsigned := if body.head? = (py "+").head? then body.drop 1 else body
  if (py "0x").isPrefixOf unsigned || (py "0X").isPrefixOf unsigned then
    let digits := unsigned.drop 2
    if digits.head? = (py "_").head? then hexDigits false 0 (digits.drop 1)
    else hexDigits false 0 digits
  else hexDigits false 0 unsigned

/-- `UUID(text)`; `none` is the `ValueError`. -/
def parseUuid (text : PyStr) : Option Uuid :=
  let hex := removeFrom (py "uuid:") 0 (removeFrom (py "urn:") 0 text)
  let hex := (stripOf (fun c => c.val = 0x7b || c.val = 0x7d) hex).filter (fun c => c.val ≠ 0x2d)
  if hex.length ≠ 32 then none else (intBase16 hex).filter (fun value => value < 2 ^ 128)

def hexChar (digit : Nat) : CodePoint :=
  if digit < 10 then Fin.ofNat 0x110000 (0x30 + digit) else Fin.ofNat 0x110000 (0x61 + digit - 10)

/-- `str(uuid)`. -/
def uuidText (uuid : Uuid) : PyStr :=
  let hex := (List.range 32).map (fun i => hexChar (uuid / 16 ^ (31 - i) % 16))
  hex.take 8 ++ py "-" ++ (hex.drop 8).take 4 ++ py "-" ++ (hex.drop 12).take 4 ++ py "-" ++
    (hex.drop 16).take 4 ++ py "-" ++ hex.drop 20

/-- What escapes a strategy beside `AuthRejected`. -/
inductive Unhandled
  | compareDigest (exc : PyError)
  | requestUrl (exc : PyError)
  | verifySignature (exc : PyError)
  | introspect
  | attributeError
  deriving DecidableEq, Repr

inductive AuthError
  | rejected (exc : AuthRejected)
  | unhandled (exc : Unhandled)
  deriving DecidableEq

def reject {A : Type} (detail : String) (status : Nat) : Except AuthError A :=
  .error (.rejected ⟨detail, status⟩)

inductive SignatureFailure
  | signatureError
  | other (exc : PyError)
  deriving DecidableEq, Repr

/-- What the code takes from the gateway's library. -/
structure GatewayLibrary where
  GATEWAY_CONTRACT_VERSION : Nat
  /-- Secret, signature, user id, scopes, timestamp, method and path. -/
  verifySignature : Bytes → PyStr → PyStr → PyStr → PyStr → PyStr → PyStr →
    Except SignatureFailure Unit
  buildBearerChallenge : String → Option PyStr → Option PyStr → PyStr

/-- How `introspect` ends for a token. The fields of the claims that are not of their
type are `none`. -/
inductive Introspection
  | claims (sub : Option Uuid) (scope : Option PyStr)
  | hydraUnreachable
  | hydraInvalidToken
  | otherException
  deriving DecidableEq, Repr

def Introspection.ofOutcome : Outcome → Introspection
  | .returned answer => .claims (some answer.sub) (some answer.scope)
  | .raised (.unreachable _) => .hydraUnreachable
  | .raised (.invalidToken _) => .hydraInvalidToken
  | .raised .typeError => .otherException
  | .raised .attributeError => .otherException
  | .raised .otherException => .otherException
  | .cancelledError => .otherException
  | .invalidStateError => .otherException

structure TrustGatewayStrategy where
  gatewaySecret : Option Bytes
  gatewayRequireSignature : Bool

structure ApiKeyStrategy where
  apiKey : PyStr
  apiKeyScopes : List PyStr
  operatorUserId : Option UserId

structure HydraStrategy where
  introspector : Option (PyStr → Introspection)

inductive Strategy
  | trustGateway (strategy : TrustGatewayStrategy)
  | apiKey (strategy : ApiKeyStrategy)
  | hydra (strategy : HydraStrategy)
  | selfHost (strategy : SelfHostStrategy)

def DEFAULT_SCOPES : List PyStr := [journalRead, journalWrite]

def resolveScopes (scopesHeader : PyStr) : List PyStr :=
  if (split scopesHeader).isEmpty then DEFAULT_SCOPES else split scopesHeader

section Authenticate
variable (library : GatewayLibrary)

/-- The signature is looked at when there is one or when one is required. -/
def TrustGatewayStrategy.checksSignature (strategy : TrustGatewayStrategy) (request : Request) :
    Bool :=
  !(request.header (py "x-auth-signature")).isEmpty || strategy.gatewayRequireSignature

def supportedContract (request : Request) : Prop :=
  request.header (py "x-auth-contract-version") = py (toString library.GATEWAY_CONTRACT_VERSION)

instance (request : Request) : Decidable (supportedContract library request) := by
  unfold supportedContract
  infer_instance

/-- The call of `verify_signature`, whose last argument is `request.url.path`. -/
def verifyRequest (secret : Bytes) (userUuid : Uuid) (request : Request) :
    Except AuthError Unit :=
  match request.urlPath with
  | .error exc => .error (.unhandled (.requestUrl exc))
  | .ok path =>
    match library.verifySignature secret (request.header (py "x-auth-signature"))
      (uuidText userUuid) (request.header (py "x-auth-scopes"))
      (request.header (py "x-auth-timestamp")) (request.method.map upperAscii) path with
    | .ok () => .ok ()
    | .error .signatureError => reject "Invalid gateway signature" 401
    | .error (.other exc) => .error (.unhandled (.verifySignature exc))

def TrustGatewayStrategy.checkSignature (strategy : TrustGatewayStrategy) (userUuid : Uuid)
    (request : Request) : Except AuthError Unit :=
  if strategy.checksSignature request then
    if supportedContract library request then
      match strategy.gatewaySecret with
      | none => reject "gateway secret not configured" 503
      | some secret => verifyRequest library secret userUuid request
    else reject "Unsupported X-Auth-Contract-Version" 401
  else .ok ()

def TrustGatewayStrategy.authenticate (strategy : TrustGatewayStrategy) (request : Request) :
    Except AuthError (Option AuthResult) :=
  if (request.header (py "x-auth-user-id")).isEmpty then reject "Missing X-Auth-User-Id header" 401
  else
    match parseUuid (request.header (py "x-auth-user-id")) with
    | none => reject "Invalid X-Auth-User-Id header" 401
    | some userUuid =>
      match strategy.checkSignature library userUuid request with
      | .error exc => .error exc
      | .ok () => .ok (some ⟨userUuid, resolveScopes (request.header (py "x-auth-scopes"))⟩)

def ApiKeyStrategy.authenticate (strategy : ApiKeyStrategy) (request : Request) :
    Except AuthError (Option AuthResult) :=
  match request.bearerToken with
  | .error exc => .error (.rejected exc)
  | .ok token =>
    if strategy.apiKey.isEmpty then .ok none
    else
      match compareDigest token strategy.apiKey with
      | .error exc => .error (.unhandled (.compareDigest exc))
      | .ok false => .ok none
      | .ok true =>
        match strategy.operatorUserId with
        | none => reject "Auto-scaffold auth -- operator not provisioned" 503
        | some userId => .ok (some ⟨userId, strategy.apiKeyScopes⟩)

def HydraStrategy.authenticate (strategy : HydraStrategy) (request : Request) :
    Except AuthError (Option AuthResult) :=
  match strategy.introspector with
  | none => .ok none
  | some introspect =>
    match request.bearerToken with
    | .error exc => .error (.rejected exc)
    | .ok token =>
      if (py "ory_at_").isPrefixOf token then
        match introspect token with
        | .hydraUnreachable => reject "Auth service unavailable" 503
        | .hydraInvalidToken => reject "Invalid or expired token" 401
        | .otherException => .error (.unhandled .introspect)
        | .claims none _ => reject "Invalid or expired token" 401
        | .claims (some _) none => .error (.unhandled .attributeError)
        | .claims (some sub) (some scope) => .ok (some ⟨sub, split scope⟩)
      else .ok none

def Strategy.authenticate (request : Request) :
    Strategy → Except AuthError (Option AuthResult)
  | .trustGateway strategy => strategy.authenticate library request
  | .apiKey strategy => strategy.authenticate request
  | .hydra strategy => strategy.authenticate request
  | .selfHost strategy =>
    (strategy.authenticate (request.header (py "authorization"))).mapError .rejected

/-- The loop that both adapters run. -/
def authenticate (strategies : List Strategy) (request : Request) :
    Except AuthError (Option AuthResult) :=
  firstAnswer (Strategy.authenticate library request) strategies

end Authenticate

/-- `_has_scope`, the same text in both adapters. -/
def hasScope (tokenScopes : List PyStr) (requiredScope : PyStr) : Bool :=
  if checkScope tokenScopes requiredScope then true
  else
    match SCOPE_GRANTS.find? (fun entry => entry.1 = requiredScope) with
    | none => false
    | some entry => entry.2.all (fun scope => decide (scope ∈ tokenScopes))

structure JSONResponse where
  error : String
  statusCode : Nat
  headers : List (String × PyStr)
  deriving DecidableEq

structure BearerAuthMiddleware where
  strategies : List Strategy
  requiredScope : Option PyStr
  protectedResourceMetadataUrl : Option PyStr

inductive ScopeType
  | http
  | other
  deriving DecidableEq

/-- The app runs, for the user of the context variables, or a response is sent. -/
inductive Handled
  | app (user : Option AuthResult)
  | sent (response : JSONResponse)
  deriving DecidableEq

section Middleware
variable (library : GatewayLibrary)

def unauthorized (detail : String) (metadataUrl : Option PyStr) : JSONResponse :=
  ⟨detail, 401,
    [("WWW-Authenticate", library.buildBearerChallenge "invalid_token" metadataUrl none)]⟩

def forbidden (requiredScope : PyStr) (metadataUrl : Option PyStr) : JSONResponse :=
  ⟨"insufficient_scope", 403,
    [("WWW-Authenticate",
      library.buildBearerChallenge "insufficient_scope" metadataUrl (some requiredScope))]⟩

def serviceUnavailable (detail : String) : JSONResponse :=
  ⟨detail, 503, [("Retry-After", py "5")]⟩

def BearerAuthMiddleware.rejection (middleware : BearerAuthMiddleware) (exc : AuthRejected) :
    JSONResponse :=
  if exc.status = 503 then serviceUnavailable exc.detail
  else if exc.status = 403 then
    forbidden library (middleware.requiredScope.getD []) middleware.protectedResourceMetadataUrl
  else unauthorized library exc.detail middleware.protectedResourceMetadataUrl

def BearerAuthMiddleware.call (middleware : BearerAuthMiddleware) (scopeType : ScopeType)
    (request : Request) : Except Unhandled Handled :=
  match scopeType with
  | .other => .ok (.app none)
  | .http =>
    match authenticate library middleware.strategies request with
    | .error (.unhandled exc) => .error exc
    | .error (.rejected exc) => .ok (.sent (middleware.rejection library exc))
    | .ok none =>
      .ok (.sent (unauthorized library "Invalid or expired token"
        middleware.protectedResourceMetadataUrl))
    | .ok (some result) =>
      match middleware.requiredScope with
      | none => .ok (.app (some result))
      | some requiredScope =>
        if hasScope result.scopes requiredScope then .ok (.app (some result))
        else .ok (.sent (forbidden library requiredScope middleware.protectedResourceMetadataUrl))

inductive RestError
  | httpException (statusCode : Nat) (detail : String)
  | runtimeError (message : String)
  | unhandled (exc : Unhandled)
  deriving DecidableEq

def INVALID_TOKEN_MESSAGE : String := "Invalid or expired token"

/-- `require_auth_strategies`, from `app.state.auth_strategies`. -/
def requireAuthStrategies (authStrategies : Option (List Strategy)) :
    Except RestError (List Strategy) :=
  match authStrategies with
  | none => .error (.runtimeError "auth_strategies not initialised")
  | some strategies => .ok strategies

/-- `resolve_user_id`, the dependency of a route. -/
def resolveUserId (authStrategies : Option (List Strategy)) (scope : Option PyStr)
    (request : Request) : Except RestError (UserId × List PyStr) :=
  match requireAuthStrategies authStrategies with
  | .error exc => .error exc
  | .ok strategies =>
    match authenticate library strategies request with
    | .error (.unhandled exc) => .error (.unhandled exc)
    | .error (.rejected exc) => .error (.httpException exc.status exc.detail)
    | .ok none => .error (.httpException 401 INVALID_TOKEN_MESSAGE)
    | .ok (some result) =>
      match scope with
      | none => .ok (result.userId, result.scopes)
      | some scope =>
        if hasScope result.scopes scope then .ok (result.userId, result.scopes)
        else .error (.httpException 403 "insufficient_scope")

end Middleware

section Conditions
variable (library : GatewayLibrary) (request : Request)

/-- `verify_signature` is called and ends in something other than `SignatureError`. -/
def Unverifiable (secret : Bytes) (userUuid : Uuid) : Prop :=
  (∃ exc, request.urlPath = .error exc) ∨
    ∃ path exc, request.urlPath = .ok path ∧
      library.verifySignature secret (request.header (py "x-auth-signature"))
        (uuidText userUuid) (request.header (py "x-auth-scopes"))
        (request.header (py "x-auth-timestamp")) (request.method.map upperAscii) path =
        .error (.other exc)

def TrustGatewayStrategy.Breaks (strategy : TrustGatewayStrategy) : Prop :=
  request.header (py "x-auth-user-id") ≠ [] ∧
    ∃ userUuid, parseUuid (request.header (py "x-auth-user-id")) = some userUuid ∧
      strategy.checksSignature request = true ∧ supportedContract library request ∧
      ∃ secret, strategy.gatewaySecret = some secret ∧
        Unverifiable library request secret userUuid

/-- `secrets.compare_digest` takes ASCII only. -/
def Comparable (a b : PyStr) : Prop := isAscii a = true ∧ isAscii b = true

def ApiKeyStrategy.Breaks (strategy : ApiKeyStrategy) : Prop :=
  ∃ token, request.bearerToken = .ok token ∧ strategy.apiKey ≠ [] ∧
    ¬ Comparable token strategy.apiKey

def ApiKeyStrategy.Passes (strategy : ApiKeyStrategy) : Prop :=
  ∃ token, request.bearerToken = .ok token ∧
    (strategy.apiKey = [] ∨ Comparable token strategy.apiKey ∧ token ≠ strategy.apiKey)

/-- The token is introspected, and that ends in an exception of another kind or in
claims whose scope is no text. -/
def HydraStrategy.Breaks (strategy : HydraStrategy) : Prop :=
  ∃ introspect token, strategy.introspector = some introspect ∧
    request.bearerToken = .ok token ∧ (py "ory_at_").isPrefixOf token = true ∧
    (introspect token = .otherException ∨ ∃ sub, introspect token = .claims (some sub) none)

def HydraStrategy.Passes (strategy : HydraStrategy) : Prop :=
  strategy.introspector = none ∨
    ∃ token, request.bearerToken = .ok token ∧ (py "ory_at_").isPrefixOf token = false

def SelfHostPasses (strategy : SelfHostStrategy) : Prop :=
  strategy.tokenValidator = none ∨
    ∃ validator token, strategy.tokenValidator = some validator ∧
      request.bearerToken = .ok token ∧ validator token = none

def Strategy.Breaks : Strategy → Prop
  | .trustGateway strategy => strategy.Breaks library request
  | .apiKey strategy => strategy.Breaks request
  | .hydra strategy => strategy.Breaks request
  | .selfHost _ => False

def Strategy.Passes : Strategy → Prop
  | .trustGateway _ => False
  | .apiKey strategy => strategy.Passes request
  | .hydra strategy => strategy.Passes request
  | .selfHost strategy => SelfHostPasses request strategy

end Conditions

/-- The adapters catch `AuthRejected`; everything else escapes. -/
def AuthError.Handled : AuthError → Prop
  | .rejected _ => True
  | .unhandled _ => False

section Spec
variable {library : GatewayLibrary} {request : Request}

theorem verifyRequest_unhandled {secret : Bytes} {userUuid : Uuid} :
    (∃ exc, verifyRequest library secret userUuid request = .error exc ∧ ¬ exc.Handled) ↔
      Unverifiable library request secret userUuid := by
  unfold verifyRequest Unverifiable
  cases request.urlPath with
  | error exc => simp [AuthError.Handled]
  | ok path =>
    simp only [reduceCtorEq, exists_false, false_or, Except.ok.injEq, exists_and_left,
      exists_eq_left']
    split
    · next verified => simp [verified]
    · next refused => simp [refused, reject, AuthError.Handled]
    · next exc escaped => simp [escaped, AuthError.Handled]

theorem trustGateway_breaks (strategy : TrustGatewayStrategy) :
    strategy.Breaks library request ↔
      ∃ exc, strategy.authenticate library request = .error exc ∧ ¬ exc.Handled := by
  unfold TrustGatewayStrategy.Breaks TrustGatewayStrategy.authenticate
  by_cases empty : request.header (py "x-auth-user-id") = []
  · simp [empty, reject, AuthError.Handled]
  cases parsed : parseUuid (request.header (py "x-auth-user-id")) with
  | none => simp [empty, reject, AuthError.Handled]
  | some userUuid =>
    simp only [empty, ne_eq, not_false_eq_true, Option.some.injEq, exists_eq_left', true_and,
      List.isEmpty_iff, ↓reduceIte]
    unfold TrustGatewayStrategy.checkSignature
    by_cases checks : strategy.checksSignature request = true
    · by_cases supported : supportedContract library request
      · cases configured : strategy.gatewaySecret with
        | none => simp [checks, supported, reject, AuthError.Handled]
        | some secret =>
          simp only [checks, supported, true_and, Option.some.injEq, exists_eq_left', ↓reduceIte,
            ← verifyRequest_unhandled]
          cases verifyRequest library secret userUuid request with
          | error exc => simp
          | ok _ => simp
      · simp [checks, supported, reject, AuthError.Handled]
    · simp [checks]

theorem trustGateway_not_passes (strategy : TrustGatewayStrategy) :
    strategy.authenticate library request ≠ .ok none := by
  unfold TrustGatewayStrategy.authenticate reject
  repeat' split
  all_goals nofun

theorem compareDigest_of_comparable {a b : PyStr} (comparable : Comparable a b) :
    compareDigest a b = .ok (decide (a = b)) := by
  simp [compareDigest, comparable.1, comparable.2]

theorem compareDigest_of_not_comparable {a b : PyStr} (incomparable : ¬ Comparable a b) :
    compareDigest a b = .error .typeError := by
  rw [compareDigest, if_neg]
  simpa [Comparable] using incomparable

theorem apiKey_breaks (strategy : ApiKeyStrategy) :
    strategy.Breaks request ↔
      ∃ exc, strategy.authenticate request = .error exc ∧ ¬ exc.Handled := by
  unfold ApiKeyStrategy.Breaks ApiKeyStrategy.authenticate
  cases bearer : request.bearerToken with
  | error exc => simp [AuthError.Handled]
  | ok token =>
    by_cases unset : strategy.apiKey = []
    · simp [unset]
    by_cases comparable : Comparable token strategy.apiKey
    · have whole := compareDigest_of_comparable comparable
      by_cases same : token = strategy.apiKey
      · simp only [whole, decide_eq_true same]
        cases strategy.operatorUserId with
        | none => simp [unset, comparable, reject, AuthError.Handled]
        | some userId => simp [unset, comparable]
      · simp only [whole, decide_eq_false same]
        simp [unset, comparable]
    · simp only [compareDigest_of_not_comparable comparable]
      simp [unset, comparable, AuthError.Handled]

theorem apiKey_passes (strategy : ApiKeyStrategy) :
    strategy.Passes request ↔ strategy.authenticate request = .ok none := by
  unfold ApiKeyStrategy.Passes ApiKeyStrategy.authenticate
  cases request.bearerToken with
  | error exc => simp
  | ok token =>
    by_cases unset : strategy.apiKey = []
    · simp [unset]
    by_cases comparable : Comparable token strategy.apiKey
    · have whole := compareDigest_of_comparable comparable
      by_cases same : token = strategy.apiKey
      · simp only [whole, decide_eq_true same]
        cases strategy.operatorUserId with
        | none => simp [unset, same, reject]
        | some userId => simp [unset, same]
      · simp only [whole, decide_eq_false same]
        simp [unset, comparable, same]
    · simp only [compareDigest_of_not_comparable comparable]
      simp [unset, comparable]

theorem hydra_breaks (strategy : HydraStrategy) :
    strategy.Breaks request ↔
      ∃ exc, strategy.authenticate request = .error exc ∧ ¬ exc.Handled := by
  unfold HydraStrategy.Breaks HydraStrategy.authenticate
  cases strategy.introspector with
  | none => simp
  | some introspect =>
    cases bearer : request.bearerToken with
    | error exc => simp [AuthError.Handled]
    | ok token =>
      cases shaped : (py "ory_at_").isPrefixOf token with
      | false => simp only [Except.ok.injEq, ↓existsAndEq, shaped, Bool.false_eq_true, false_and,
          and_false, exists_false, ↓reduceIte, reduceCtorEq]
      | true =>
        simp only [Option.some.injEq, Except.ok.injEq, ↓existsAndEq, shaped, true_and, ↓reduceIte]
        cases introspect token with
        | hydraUnreachable => simp [reject, AuthError.Handled]
        | hydraInvalidToken => simp [reject, AuthError.Handled]
        | otherException => simp [AuthError.Handled]
        | claims sub scope =>
          cases sub with
          | none => simp [reject, AuthError.Handled]
          | some sub =>
            cases scope with
            | none => simp [AuthError.Handled]
            | some scope => simp

theorem hydra_passes (strategy : HydraStrategy) :
    strategy.Passes request ↔ strategy.authenticate request = .ok none := by
  unfold HydraStrategy.Passes HydraStrategy.authenticate reject
  cases strategy.introspector with
  | none => simp
  | some introspect =>
    cases request.bearerToken with
    | error exc => simp
    | ok token =>
      cases shaped : (py "ory_at_").isPrefixOf token with
      | false => simp [shaped]
      | true =>
        simp only [reduceCtorEq, Except.ok.injEq, ↓existsAndEq, shaped, Bool.true_eq_false,
          false_or, and_false, false_iff, ↓reduceIte]
        split
        all_goals simp

theorem selfHost_passes (strategy : SelfHostStrategy) :
    SelfHostPasses request strategy ↔
      strategy.authenticate (request.header (py "authorization")) = .ok none := by
  unfold SelfHostPasses SelfHostStrategy.authenticate Request.bearerToken
  cases strategy.tokenValidator with
  | none => simp
  | some validator =>
    cases bearer : extractBearerToken (request.header (py "authorization")) with
    | error exc => simp
    | ok token =>
      cases granted : validator token with
      | none => simp [granted]
      | some scopes =>
        cases strategy.operatorUserId with
        | none => simp [granted]
        | some userId => simp [granted]

end Spec

section Status
variable {library : GatewayLibrary} {request : Request} {exc : AuthRejected}

/-- The statuses of the rejections that the strategies raise. -/
def Usual (exc : AuthRejected) : Prop := exc.status = 401 ∨ exc.status = 503

theorem usual_of_bearerToken {authHeader : PyStr}
    (rejected : extractBearerToken authHeader = .error exc) : Usual exc := by
  unfold extractBearerToken at rejected
  repeat' split at rejected
  all_goals cases rejected
  all_goals exact Or.inl rfl

theorem usual_of_checkSignature {strategy : TrustGatewayStrategy} {userUuid : Uuid}
    (rejected : strategy.checkSignature library userUuid request = .error (.rejected exc)) :
    Usual exc := by
  unfold TrustGatewayStrategy.checkSignature verifyRequest reject at rejected
  repeat' split at rejected
  all_goals cases rejected
  · exact Or.inr rfl
  · exact Or.inl rfl
  · exact Or.inl rfl

theorem usual_of_trustGateway {strategy : TrustGatewayStrategy}
    (rejected : strategy.authenticate library request = .error (.rejected exc)) : Usual exc := by
  unfold TrustGatewayStrategy.authenticate reject at rejected
  split at rejected
  · cases rejected
    exact Or.inl rfl
  split at rejected
  · cases rejected
    exact Or.inl rfl
  split at rejected
  · next refused =>
    cases rejected
    exact usual_of_checkSignature refused
  · cases rejected

theorem usual_of_apiKey {strategy : ApiKeyStrategy}
    (rejected : strategy.authenticate request = .error (.rejected exc)) : Usual exc := by
  unfold ApiKeyStrategy.authenticate reject at rejected
  repeat' split at rejected
  all_goals cases rejected
  · next bearer => exact usual_of_bearerToken bearer
  · exact Or.inr rfl

theorem usual_of_hydra {strategy : HydraStrategy}
    (rejected : strategy.authenticate request = .error (.rejected exc)) : Usual exc := by
  unfold HydraStrategy.authenticate reject at rejected
  repeat' split at rejected
  all_goals cases rejected
  · next bearer => exact usual_of_bearerToken bearer
  · exact Or.inr rfl
  · exact Or.inl rfl
  · exact Or.inl rfl

theorem usual_of_selfHost {strategy : SelfHostStrategy} {authHeader : PyStr}
    (rejected : strategy.authenticate authHeader = .error exc) : Usual exc := by
  unfold SelfHostStrategy.authenticate at rejected
  repeat' split at rejected
  all_goals cases rejected
  · next bearer => exact usual_of_bearerToken bearer
  · exact Or.inr rfl

theorem usual_of_strategy {strategy : Strategy}
    (rejected : strategy.authenticate library request = .error (.rejected exc)) : Usual exc := by
  cases strategy with
  | trustGateway strategy => exact usual_of_trustGateway rejected
  | apiKey strategy => exact usual_of_apiKey rejected
  | hydra strategy => exact usual_of_hydra rejected
  | selfHost strategy =>
    simp only [Strategy.authenticate] at rejected
    cases result : strategy.authenticate (request.header (py "authorization")) with
    | ok answer =>
      rw [result] at rejected
      cases rejected
    | error refused =>
      rw [result] at rejected
      cases rejected
      exact usual_of_selfHost result

theorem usual_of_authenticate {strategies : List Strategy}
    (rejected : authenticate library strategies request = .error (.rejected exc)) :
    Usual exc := by
  obtain ⟨strategy, _, failed⟩ := exists_of_firstAnswer_error rejected
  exact usual_of_strategy failed

end Status

section Chain
variable {library : GatewayLibrary} {request : Request}

theorem strategy_breaks (strategy : Strategy) :
    strategy.Breaks library request ↔
      ∃ exc, strategy.authenticate library request = .error exc ∧ ¬ exc.Handled := by
  cases strategy with
  | trustGateway strategy => exact trustGateway_breaks strategy
  | apiKey strategy => exact apiKey_breaks strategy
  | hydra strategy => exact hydra_breaks strategy
  | selfHost strategy =>
    simp only [Strategy.Breaks, Strategy.authenticate]
    cases strategy.authenticate (request.header (py "authorization")) with
    | ok answer => simp [Except.mapError]
    | error rejected => simp [Except.mapError, AuthError.Handled]

theorem strategy_passes (strategy : Strategy) :
    strategy.Passes request ↔ strategy.authenticate library request = .ok none := by
  cases strategy with
  | trustGateway strategy => exact iff_of_false id (trustGateway_not_passes strategy)
  | apiKey strategy => exact apiKey_passes strategy
  | hydra strategy => exact hydra_passes strategy
  | selfHost strategy => exact (selfHost_passes strategy).trans mapError_eq_ok.symm

theorem authenticate_handled_iff (strategies : List Strategy) :
    (∀ exc, authenticate library strategies request = .error exc → exc.Handled) ↔
      Orderly (Strategy.Passes request) (Strategy.Breaks library request) strategies :=
  firstAnswer_good_iff strategy_passes strategy_breaks strategies

end Chain

inductive Verdict
  | accepted (userId : UserId) (scopes : List PyStr)
  | refused (status : Nat)
  deriving DecidableEq

/-- `none` when the middleware has no answer of its own to an HTTP request. -/
def mcpVerdict : Except Unhandled Handled → Option Verdict
  | .ok (.app (some user)) => some (.accepted user.userId user.scopes)
  | .ok (.sent response) => some (.refused response.statusCode)
  | .ok (.app none) => none
  | .error _ => none

/-- `none` for anything but an `HTTPException`. -/
def restVerdict : Except RestError (UserId × List PyStr) → Option Verdict
  | .ok (userId, scopes) => some (.accepted userId scopes)
  | .error (.httpException status _) => some (.refused status)
  | .error (.runtimeError _) => none
  | .error (.unhandled _) => none

def Verdict.Permitted : Verdict → Prop
  | .accepted _ _ => True
  | .refused status => status = 401 ∨ status = 403 ∨ status = 503

section Settled
variable (library : GatewayLibrary) (strategies : List Strategy)
  (requiredScope metadataUrl : Option PyStr) (request : Request)

/-- The server sets both adapters up with one list of strategies. -/
def mcpAnswer : Option Verdict :=
  mcpVerdict (BearerAuthMiddleware.call library ⟨strategies, requiredScope, metadataUrl⟩ .http
    request)

def restAnswer : Option Verdict :=
  restVerdict (resolveUserId library (some strategies) requiredScope request)

/-- The chain ends in a result, no match or `AuthRejected`, and both adapters give one
and the same answer. -/
structure Settled : Prop where
  chain : ∀ exc, authenticate library strategies request ≠ .error (.unhandled exc)
  answered : ∃ verdict, mcpAnswer library strategies requiredScope metadataUrl request =
      some verdict ∧ verdict.Permitted
  alike : mcpAnswer library strategies requiredScope metadataUrl request =
    restAnswer library strategies requiredScope request

end Settled

section Answers
variable {library : GatewayLibrary} {strategies : List Strategy}
  {requiredScope metadataUrl : Option PyStr} {request : Request}

/-- The middleware maps the status of a rejection, the dependency takes it over; for
the statuses that the strategies use that is the same. -/
theorem rejection_statusCode {middleware : BearerAuthMiddleware} {exc : AuthRejected}
    (usual : Usual exc) : (middleware.rejection library exc).statusCode = exc.status := by
  unfold BearerAuthMiddleware.rejection
  rcases usual with status | status
  · simp [status, unauthorized]
  · simp [status, serviceUnavailable]

theorem permitted_of_usual {exc : AuthRejected} (usual : Usual exc) :
    (Verdict.refused exc.status).Permitted := by
  rcases usual with status | status
  · exact Or.inl status
  · exact Or.inr (Or.inr status)

/-- The two adapters give one answer, or none when an exception escapes the chain. -/
theorem answers_alike : mcpAnswer library strategies requiredScope metadataUrl request =
    restAnswer library strategies requiredScope request := by
  unfold mcpAnswer restAnswer BearerAuthMiddleware.call resolveUserId requireAuthStrategies
  cases outcome : authenticate library strategies request with
  | error exc =>
    cases exc with
    | unhandled exc => simp [outcome, mcpVerdict, restVerdict]
    | rejected exc =>
      simp [outcome, mcpVerdict, restVerdict,
        rejection_statusCode (usual_of_authenticate outcome)]
  | ok answer =>
    cases answer with
    | none => simp [outcome, mcpVerdict, restVerdict, unauthorized]
    | some result =>
      cases requiredScope with
      | none => simp [outcome, mcpVerdict, restVerdict]
      | some scope =>
        cases granted : hasScope result.scopes scope with
        | true => simp [outcome, granted, mcpVerdict, restVerdict]
        | false => simp [outcome, granted, mcpVerdict, restVerdict, forbidden]

theorem mcpAnswer_permitted
    (handled : ∀ exc, authenticate library strategies request = .error exc → exc.Handled) :
    ∃ verdict, mcpAnswer library strategies requiredScope metadataUrl request = some verdict ∧
      verdict.Permitted := by
  unfold mcpAnswer BearerAuthMiddleware.call
  cases outcome : authenticate library strategies request with
  | error exc =>
    cases exc with
    | unhandled exc => exact (handled _ outcome).elim
    | rejected exc =>
      have usual := usual_of_authenticate outcome
      refine ⟨.refused exc.status, ?_, permitted_of_usual usual⟩
      simp [mcpVerdict, rejection_statusCode usual]
  | ok answer =>
    cases answer with
    | none => exact ⟨.refused 401, rfl, Or.inl rfl⟩
    | some result =>
      cases requiredScope with
      | none => exact ⟨.accepted result.userId result.scopes, rfl, trivial⟩
      | some scope =>
        cases granted : hasScope result.scopes scope with
        | true =>
          exact ⟨.accepted result.userId result.scopes, by simp [mcpVerdict, granted], trivial⟩
        | false =>
          exact ⟨.refused 403, by simp [mcpVerdict, granted, forbidden], Or.inr (Or.inl rfl)⟩

end Answers

/-- Requests are authenticated, with one answer in both adapters, exactly when no
strategy that is asked breaks on them. -/
theorem settled_iff (library : GatewayLibrary) (strategies : List Strategy)
    (requiredScope metadataUrl : Option PyStr) (request : Request) :
    Settled library strategies requiredScope metadataUrl request ↔
      Orderly (Strategy.Passes request) (Strategy.Breaks library request) strategies := by
  rw [← authenticate_handled_iff]
  constructor
  · intro settled exc failed
    cases exc with
    | unhandled exc => exact absurd failed (settled.chain exc)
    | rejected exc => trivial
  · intro handled
    exact ⟨fun exc escaped => handled _ escaped, mcpAnswer_permitted handled, answers_alike⟩

def demoLibrary : GatewayLibrary where
  GATEWAY_CONTRACT_VERSION := 1
  verifySignature := fun _ _ _ _ _ _ _ => .ok ()
  buildBearerChallenge := fun error _ _ => py error

def latin1 (s : String) : Bytes := s.toList.map (fun c => UInt8.ofNat c.toNat)

def accentedRequest : Request where
  headers := [(latin1 "authorization", latin1 "Bearer é")]
  method := py "POST"
  urlPath := .ok (py "/mcp")

theorem not_settled_accented : ¬ ∀ (library : GatewayLibrary) (strategies : List Strategy)
    (requiredScope metadataUrl : Option PyStr) (request : Request),
    Settled library strategies requiredScope metadataUrl request := by
  intro all
  have settled := all demoLibrary [.apiKey ⟨py "secret", [py "journal"], some 7⟩]
    (some (py "journal")) none accentedRequest
  exact settled.chain (.compareDigest .typeError) rfl

structure AuthSettings where
  trustGateway : Bool
  gatewayRequireSignature : Bool
  apiKey : PyStr
  apiKeyScopes : List PyStr

section Lifespan
variable (settings : AuthSettings) (gatewaySecret : Option Bytes)
  (introspector : Option (PyStr → Introspection))
  (tokenValidator : Option (PyStr → Option (List PyStr))) (operatorUserId : Option UserId)

def effectiveApiKey : PyStr := if introspector.isSome then [] else settings.apiKey

/-- The list that the lifespan builds; `none` is the conflict of an API key with the
trust-gateway mode. -/
def lifespanStrategies : Option (List Strategy) :=
  if settings.trustGateway then
    if (effectiveApiKey settings introspector).isEmpty then
      some [.trustGateway ⟨gatewaySecret, settings.gatewayRequireSignature⟩]
    else none
  else
    some ((if (effectiveApiKey settings introspector).isEmpty then []
        else [.apiKey ⟨effectiveApiKey settings introspector, settings.apiKeyScopes,
          operatorUserId⟩]) ++
      (if introspector.isSome then [.hydra ⟨introspector⟩] else []) ++
      (if tokenValidator.isSome then [.selfHost ⟨tokenValidator, operatorUserId⟩] else []))

end Lifespan

section Deployed
variable {library : GatewayLibrary} {requiredScope metadataUrl : Option PyStr} {request : Request}

theorem orderly_selfHost (tokenValidator : Option (PyStr → Option (List PyStr)))
    (operatorUserId : Option UserId) :
    Orderly (Strategy.Passes request) (Strategy.Breaks library request)
      (if tokenValidator.isSome then [.selfHost ⟨tokenValidator, operatorUserId⟩] else []) := by
  cases tokenValidator with
  | none => trivial
  | some validator => exact ⟨id, fun _ => trivial⟩

/-- Without a gateway and without Hydra, a bearer token has to be ASCII as soon as an API
key is set, whatever the self-host validator would say of it. -/
theorem settled_lifespan_iff (settings : AuthSettings) (direct : settings.trustGateway = false)
    (tokenValidator : Option (PyStr → Option (List PyStr))) (operatorUserId : Option UserId) :
    (∃ strategies, lifespanStrategies settings none none tokenValidator operatorUserId =
        some strategies ∧ Settled library strategies requiredScope metadataUrl request) ↔
      (settings.apiKey ≠ [] → ∀ token, request.bearerToken = .ok token →
        Comparable token settings.apiKey) := by
  have selfHost := @orderly_selfHost library request tokenValidator operatorUserId
  simp only [lifespanStrategies, effectiveApiKey, direct, Option.isSome_none, Bool.false_eq_true,
    ↓reduceIte, Option.some.injEq, exists_eq_left', settled_iff, List.append_nil]
  by_cases unset : settings.apiKey = []
  · simpa [unset] using selfHost
  · simp only [List.isEmpty_iff, unset, ↓reduceIte, List.singleton_append, Orderly, selfHost,
      implies_true, and_true, ne_eq, not_false_eq_true, forall_const, Strategy.Breaks,
      ApiKeyStrategy.Breaks, true_and, not_exists, not_and, not_not]

theorem ofOutcome_checkBody {parse : PyStr → Option Uuid} {body : HydraIntrospector.Body}
    {now : HydraIntrospector.Instant} :
    Introspection.ofOutcome (.ofVerdict (HydraIntrospector.checkBody parse body now)) =
        .otherException ↔
      body.active = true ∧ (body.sub = .other ∨ ∃ text sub, body.sub = .text text ∧
        parse text = some sub ∧ body.exp = .other) := by
  unfold HydraIntrospector.checkBody
  cases active : body.active with
  | false => simp [Outcome.ofVerdict, Introspection.ofOutcome]
  | true =>
    cases subRaw : body.sub with
    | falsy => simp [Outcome.ofVerdict, Introspection.ofOutcome]
    | other => simp [Outcome.ofVerdict, Introspection.ofOutcome]
    | text value =>
      cases parsed : parse value with
      | none => simp [parsed, Outcome.ofVerdict, Introspection.ofOutcome]
      | some sub =>
        cases body.exp with
        | absent => simp [parsed, Outcome.ofVerdict, Introspection.ofOutcome]
        | other => simp [parsed, Outcome.ofVerdict, Introspection.ofOutcome]
        | number exp =>
          by_cases expired : exp < now
          · simp [parsed, expired, Outcome.ofVerdict, Introspection.ofOutcome]
          · simp [parsed, expired, Outcome.ofVerdict, Introspection.ofOutcome]

/-- The introspection of a lone call breaks the chain when the request fails in a way
that is not foreseen, or `sub` or `exp` of an active token has a wrong type. -/
theorem ofOutcome_callUpstream {parse : PyStr → Option Uuid} {reply : HydraIntrospector.Reply}
    {now : HydraIntrospector.Instant} :
    Introspection.ofOutcome (.ofVerdict (HydraIntrospector.callUpstream parse reply now)) =
        .otherException ↔
      reply = .otherException ∨ ∃ statusCode body, statusCode < 400 ∧
        reply = .response statusCode (.object body) ∧ body.active = true ∧
        (body.sub = .other ∨ ∃ text sub, body.sub = .text text ∧ parse text = some sub ∧
          body.exp = .other) := by
  cases reply with
  | timeout => simp [HydraIntrospector.callUpstream, Outcome.ofVerdict, Introspection.ofOutcome]
  | connectionFailed =>
    simp [HydraIntrospector.callUpstream, Outcome.ofVerdict, Introspection.ofOutcome]
  | httpStatusError statusCode =>
    simp [HydraIntrospector.callUpstream, Outcome.ofVerdict, Introspection.ofOutcome]
  | otherException =>
    simp [HydraIntrospector.callUpstream, Outcome.ofVerdict, Introspection.ofOutcome]
  | response statusCode json =>
    unfold HydraIntrospector.callUpstream
    by_cases failed : statusCode ≥ 400
    · simp [failed, Outcome.ofVerdict, Introspection.ofOutcome, Nat.not_lt.mpr failed]
    cases json with
    | invalid => simp [failed, Outcome.ofVerdict, Introspection.ofOutcome]
    | nonObject => simp [failed, Outcome.ofVerdict, Introspection.ofOutcome]
    | object body =>
      simp only [failed, ↓reduceIte, reduceCtorEq, HydraIntrospector.Reply.response.injEq,
        HydraIntrospector.Json.object.injEq, false_or, ↓existsAndEq, Nat.lt_of_not_le failed,
        true_and]
      exact ofOutcome_checkBody

end Deployed

end AuthStrategies
