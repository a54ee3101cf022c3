import Gubbi.Auth.Strategies
import Mathlib.Algebra.Order.Ring.Rat

/-!
# What upstream may answer to an introspection

`_call_upstream` posts the token to Hydra and reads four fields of the reply. The POST
may raise any of httpx's exceptions, and the reply may be any JSON value. The module
follows each of them through `_call_upstream` and `HydraStrategy`, and tells which come
out as claims, as a refusal of the token or as an unreachable service.
-/

namespace HydraUpstream

open Text
open HydraIntrospector (Uuid IntrospectError)
open AuthStrategies (AuthError HydraStrategy Introspection Request)
open SelfHostAuth (AuthResult)

/-- A number that `json.loads` reads. An integer and a finite float compare by their
values; `Infinity` and `NaN` are read too. -/
inductive Number
  | finite (value : Rat)
  | infinity
  | negInfinity
  | nan
  deriving DecidableEq

/-- `number < now`. -/
def Number.before (now : Rat) : Number → Bool
  | .finite value => decide (value < now)
  | .infinity => false
  | .negInfinity => true
  | .nan => false

/-- A moment that is not before `now`; `NaN` is no moment. -/
def Number.NotBefore (now : Rat) : Number → Prop
  | .finite value => now ≤ value
  | .infinity => True
  | .negInfinity => False
  | .nan => False

inductive Json
  | null
  | bool (value : Bool)
  | number (value : Number)
  | string (value : PyStr)
  | array (items : List Json)
  | object (fields : List (PyStr × Json))

/-- `bool(value)`. -/
def Json.truthy : Json → Bool
  | .null => false
  | .bool value => value
  | .number value => value ≠ .finite 0
  | .string value => !value.isEmpty
  | .array items => !items.isEmpty
  | .object fields => !fields.isEmpty

def Json.isNull : Json → Bool
  | .null => true
  | _ => false

/-- `value is True`. -/
def isTrue : Option Json → Bool
  | some (.bool value) => value
  | _ => false

def Json.asText : Json → Option PyStr
  | .string value => some value
  | _ => none

/-- What compares with a number; a `bool` is 0 or 1. -/
def Json.asNumber : Json → Option Number
  | .number value => some value
  | .bool value => some (.finite (if value then 1 else 0))
  | _ => none

/-- `body.get(key)`: the last of the fields with one name counts. -/
def get (fields : List (PyStr × Json)) (key : PyStr) : Option Json :=
  (fields.reverse.find? (fun field => field.1 = key)).map Prod.snd

/-- The exceptions of httpx that sending a request raises. -/
inductive HttpxError
  | connectTimeout
  | readTimeout
  | writeTimeout
  | poolTimeout
  | connectError
  | readError
  | writeError
  | closeError
  | localProtocolError
  | remoteProtocolError
  | proxyError
  | unsupportedProtocol
  | decodingError
  | tooManyRedirects
  | httpStatusError (statusCode : Nat)
  deriving DecidableEq, Repr

/-- `isinstance(exc, httpx.TimeoutException)`. -/
def HttpxError.isTimeout : HttpxError → Bool
  | .connectTimeout => true
  | .readTimeout => true
  | .writeTimeout => true
  | .poolTimeout => true
  | _ => false

/-- `isinstance(exc, httpx.NetworkError)`; `ConnectError` is one. -/
def HttpxError.isNetwork : HttpxError → Bool
  | .connectError => true
  | .readError => true
  | .writeError => true
  | .closeError => true
  | _ => false

/-- `resp.json()`. Bytes that are not JSON raise a `ValueError`, JSON that nests too
deep a `RecursionError`. -/
inductive Decoded
  | value (json : Json)
  | valueError
  | recursionError

/-- How the POST ends. -/
inductive Upstream
  | response (statusCode : Nat) (body : Decoded)
  | raised (exc : HttpxError)

structure TokenClaims where
  sub : Uuid
  scope : Json
  exp : Json

/-- The class `TokenClaims` of the common library: a record of its three arguments. It
may refuse arguments that are not of the declared types. -/
structure ClaimsLibrary where
  tokenClaims : Uuid → Json → Json → Option TokenClaims
  keeps : ∀ sub scope exp claims,
    tokenClaims sub scope exp = some claims → claims = ⟨sub, scope, exp⟩
  accepts : ∀ sub scope exp, (Json.asNumber exp).isSome = true →
    (tokenClaims sub (.string scope) exp).isSome = true

section Code
variable (library : ClaimsLibrary) (parseUuid : PyStr → Option Uuid)

/-- From the `scope` line on. Only a number compares with the clock. -/
def checkExp (sub : Uuid) (fields : List (PyStr × Json)) (now : Rat) :
    Except IntrospectError TokenClaims :=
  let scope := (get fields (py "scope")).getD (.string [])
  let exp := (get fields (py "exp")).getD .null
  if exp.isNull then .error (.invalidToken "missing exp")
  else
    match exp.asNumber with
    | none => .error .typeError
    | some moment =>
      if moment.before now then .error (.invalidToken "expired")
      else
        match library.tokenClaims sub scope exp with
        | none => .error .otherException
        | some claims => .ok claims

/-- From the `active` check on. `UUID` of something that is not a string has no
`replace`, which is not caught. -/
def checkBody (fields : List (PyStr × Json)) (now : Rat) : Except IntrospectError TokenClaims :=
  if isTrue (get fields (py "active")) then
    let subRaw := (get fields (py "sub")).getD .null
    if subRaw.truthy then
      match subRaw.asText with
      | none => .error .attributeError
      | some text =>
        match parseUuid text with
        | none => .error (.invalidToken "malformed sub")
        | some sub => checkExp library sub fields now
    else .error (.invalidToken "malformed sub")
  else .error (.invalidToken "inactive token")

/-- `_call_upstream`. -/
def callUpstream (upstream : Upstream) (now : Rat) : Except IntrospectError TokenClaims :=
  match upstream with
  | .raised (.httpStatusError statusCode) =>
    .error (.unreachable s!"Hydra HTTP error: {statusCode}")
  | .raised exc =>
    if exc.isTimeout then .error (.unreachable "introspect timed out")
    else if exc.isNetwork then .error (.unreachable "Hydra unreachable")
    else .error .otherException
  | .response statusCode body =>
    if statusCode ≥ 400 then .error (.unreachable s!"Hydra admin returned {statusCode}")
    else
      match body with
      | .valueError => .error (.unreachable "Hydra returned non-JSON body")
      | .recursionError => .error .otherException
      | .value (.object fields) => checkBody library parseUuid fields now
      | .value _ => .error (.unreachable "Hydra returned non-object JSON body")

end Code

/-- What `introspect` hands to the strategy. -/
def introspection : Except IntrospectError TokenClaims → Introspection
  | .ok claims => .claims (some claims.sub) claims.scope.asText
  | .error (.unreachable _) => .hydraUnreachable
  | .error (.invalidToken _) => .hydraInvalidToken
  | .error _ => .otherException

/-- Claims of the declared types that have not expired, or one of the two errors. -/
def Closed (now : Rat) : Except IntrospectError TokenClaims → Prop
  | .ok claims =>
    claims.scope.asText.isSome = true ∧
      ∃ moment, claims.exp.asNumber = some moment ∧ moment.NotBefore now
  | .error (.unreachable _) => True
  | .error (.invalidToken _) => True
  | .error _ => False

/-- An `AuthResult`, a 401 or a 503. -/
def Mapped (answer : Except AuthError (Option AuthResult)) : Prop :=
  (∃ result, answer = .ok (some result)) ∨
    ∃ detail status, answer = .error (.rejected ⟨detail, status⟩) ∧
      (status = 401 ∨ status = 503)

/-- `_call_upstream` ends in one of its outcomes, and so does each request whose token
was introspected so. -/
structure Answers (library : ClaimsLibrary) (parseUuid : PyStr → Option Uuid)
    (upstream : Upstream) (now : Rat) : Prop where
  closed : Closed now (callUpstream library parseUuid upstream now)
  mapped : ∀ (introspect : PyStr → Introspection) (request : Request) (token : PyStr),
    request.bearerToken = .ok token → (py "ory_at_").isPrefixOf token = true →
    introspect token = introspection (callUpstream library parseUuid upstream now) →
    Mapped (HydraStrategy.authenticate ⟨some introspect⟩ request)

section Unforeseen
variable (parseUuid : PyStr → Option Uuid) (now : Rat)

/-- The token is active, and its subject is the text of a UUID. -/
structure Identified (fields : List (PyStr × Json)) : Prop where
  active : get fields (py "active") = some (.bool true)
  sub : ∃ json text uuid, get fields (py "sub") = some json ∧ json.truthy = true ∧
    json.asText = some text ∧ parseUuid text = some uuid

/-- A field of an object of a type that the code does not test for. -/
inductive Untested (fields : List (PyStr × Json)) : Prop
  | sub {json : Json} (active : get fields (py "active") = some (.bool true))
      (present : get fields (py "sub") = some json) (truthy : json.truthy = true)
      (shape : json.asText = none)
  | exp {json : Json} (identified : Identified parseUuid fields)
      (present : get fields (py "exp") = some json) (given : json.isNull = false)
      (shape : json.asNumber = none)
  | nan {json : Json} (identified : Identified parseUuid fields)
      (present : get fields (py "exp") = some json) (shape : json.asNumber = some .nan)
  | scope {exp json : Json} {moment : Number} (identified : Identified parseUuid fields)
      (expires : get fields (py "exp") = some exp) (number : exp.asNumber = some moment)
      (current : moment.NotBefore now) (present : get fields (py "scope") = some json)
      (shape : json.asText = none)

/-- An exception of another kind, JSON that nests too deep or an untested field. -/
inductive Unforeseen : Upstream → Prop
  | exception {exc : HttpxError} (timeout : exc.isTimeout = false)
      (network : exc.isNetwork = false) (status : ∀ statusCode, exc ≠ .httpStatusError statusCode) :
      Unforeseen (.raised exc)
  | nesting {statusCode : Nat} (success : statusCode < 400) :
      Unforeseen (.response statusCode .recursionError)
  | untested {statusCode : Nat} {fields : List (PyStr × Json)} (success : statusCode < 400)
      (field : Untested parseUuid now fields) :
      Unforeseen (.response statusCode (.value (.object fields)))

end Unforeseen

section Outcomes
variable {library : ClaimsLibrary} {parseUuid : PyStr → Option Uuid} {now : Rat}
  {fields : List (PyStr × Json)}

theorem Number.before_eq_false {moment : Number} :
    moment.before now = false ↔ moment = .nan ∨ moment.NotBefore now := by
  cases moment with
  | finite value => simp [Number.before, Number.NotBefore]
  | infinity => simp [Number.before, Number.NotBefore]
  | negInfinity => simp [Number.before, Number.NotBefore]
  | nan => simp [Number.before]

theorem notBefore_of_notNan {moment : Number} (current : moment.before now = false)
    (number : moment ≠ .nan) : moment.NotBefore now := by
  rcases Number.before_eq_false.mp current with rfl | notBefore
  · exact absurd rfl number
  · exact notBefore

/-- The class takes a string and a number, whatever else it may refuse. -/
theorem tokenClaims_of_string (sub : Uuid) (scope : PyStr) {exp : Json} {moment : Number}
    (number : exp.asNumber = some moment) :
    library.tokenClaims sub (.string scope) exp = some ⟨sub, .string scope, exp⟩ := by
  have taken := library.accepts sub scope exp (by rw [number]; rfl)
  obtain ⟨claims, made⟩ := Option.isSome_iff_exists.mp taken
  rw [made, library.keeps _ _ _ _ made]

theorem isTrue_iff {json : Option Json} : isTrue json = true ↔ json = some (.bool true) := by
  constructor
  · intro active
    match json with
    | some (.bool true) => rfl
  · rintro rfl
    rfl

theorem not_null_of_asNumber {json : Json} {moment : Number}
    (number : json.asNumber = some moment) : json.isNull = false := by
  cases json with
  | null => cases number
  | bool value => rfl
  | number value => rfl
  | string value => rfl
  | array items => rfl
  | object fields => rfl

/-- A field is untested only beyond the checks before it. -/
theorem active_of_untested (untested : Untested parseUuid now fields) :
    get fields (py "active") = some (.bool true) := by
  cases untested with
  | sub active present truthy shape => exact active
  | exp identified present given shape => exact identified.active
  | nan identified present shape => exact identified.active
  | scope identified expires number current present shape => exact identified.active

theorem sub_of_untested (untested : Untested parseUuid now fields) :
    ∃ json, get fields (py "sub") = some json ∧ json.truthy = true ∧
      ∀ text, json.asText = some text → ∃ uuid, parseUuid text = some uuid := by
  have ofIdentified (identified : Identified parseUuid fields) :
      ∃ json, get fields (py "sub") = some json ∧ json.truthy = true ∧
        ∀ text, json.asText = some text → ∃ uuid, parseUuid text = some uuid := by
    obtain ⟨json, text, uuid, present, truthy, shape, parsed⟩ := identified.sub
    refine ⟨json, present, truthy, fun other same => ⟨uuid, ?_⟩⟩
    obtain rfl := Option.some.inj (shape.symm.trans same)
    exact parsed
  cases untested with
  | sub active present truthy shape =>
    refine ⟨_, present, truthy, fun text same => ?_⟩
    cases shape.symm.trans same
  | exp identified present given shape => exact ofIdentified identified
  | nan identified present shape => exact ofIdentified identified
  | scope identified expires number current present shape => exact ofIdentified identified

/-- With an active token and its subject, what is untested is the expiry or the scope. -/
theorem untested_iff (identified : Identified parseUuid fields) :
    Untested parseUuid now fields ↔
      ∃ exp, get fields (py "exp") = some exp ∧ exp.isNull = false ∧
        (exp.asNumber = none ∨ exp.asNumber = some .nan ∨
          ∃ moment, exp.asNumber = some moment ∧ moment.NotBefore now ∧
            ∃ scope, get fields (py "scope") = some scope ∧ scope.asText = none) := by
  constructor
  · intro untested
    cases untested with
    | sub active present truthy shape =>
      obtain ⟨json, text, _, found, _, string, _⟩ := identified.sub
      obtain rfl := Option.some.inj (present.symm.trans found)
      cases shape.symm.trans string
    | exp _ present given shape => exact ⟨_, present, given, .inl shape⟩
    | nan _ present shape =>
      exact ⟨_, present, not_null_of_asNumber shape, .inr (.inl shape)⟩
    | scope _ expires number current present shape =>
      exact ⟨_, expires, not_null_of_asNumber number,
        .inr (.inr ⟨_, number, current, _, present, shape⟩)⟩
  · rintro ⟨exp, present, given, shape | shape | ⟨moment, number, current, scope, set, shape⟩⟩
    · exact .exp identified present given shape
    · exact .nan identified present shape
    · exact .scope identified present number current set shape

theorem closed_tokenClaims {sub : Uuid} {exp scope : Json} {moment : Number}
    (number : exp.asNumber = some moment) (unexpired : moment.before now = false) :
    Closed now
        (match library.tokenClaims sub scope exp with
        | none => .error .otherException
        | some claims => .ok claims) ↔
      moment ≠ .nan ∧ scope.asText.isSome = true := by
  cases scope with
  | string text =>
    rw [tokenClaims_of_string sub text number]
    constructor
    · rintro ⟨_, other, same, current⟩
      obtain rfl := Option.some.inj (number.symm.trans same)
      refine ⟨?_, rfl⟩
      rintro rfl
      exact current
    · rintro ⟨notNan, _⟩
      exact ⟨rfl, moment, number, notBefore_of_notNan unexpired notNan⟩
  | _ =>
    refine iff_of_false (fun closed => ?_) fun ⟨_, text⟩ => by cases text
    split at closed
    · exact closed
    · next claims made =>
      obtain rfl := library.keeps _ _ _ _ made
      cases closed.1

theorem closed_checkExp (identified : Identified parseUuid fields) (sub : Uuid) :
    Closed now (checkExp library sub fields now) ↔ ¬ Untested parseUuid now fields := by
  rw [untested_iff identified]
  unfold checkExp
  cases present : get fields (py "exp") with
  | none => exact iff_of_true trivial fun ⟨_, found, _⟩ => by cases found
  | some exp =>
    simp only [Option.getD_some, Option.some.injEq, exists_eq_left']
    cases given : exp.isNull with
    | true => exact iff_of_true trivial fun untested => by cases untested.1
    | false =>
      cases number : exp.asNumber with
      | none => exact iff_of_false not_false (not_not_intro ⟨rfl, .inl rfl⟩)
      | some moment =>
        simp only [Bool.false_eq_true, if_false, true_and, reduceCtorEq, false_or,
          Option.some.injEq, exists_eq_left']
        cases unexpired : moment.before now with
        | true =>
          refine iff_of_true trivial ?_
          rintro (rfl | ⟨current, _⟩)
          · cases unexpired
          · cases (Number.before_eq_false.mpr (.inr current)).symm.trans unexpired
        | false =>
          simp only [Bool.false_eq_true, if_false, closed_tokenClaims number unexpired, not_or]
          refine and_congr_right fun notNan => ?_
          have current := notBefore_of_notNan unexpired notNan
          cases set : get fields (py "scope") with
          | none => exact iff_of_true rfl fun ⟨_, _, found, _⟩ => by cases found
          | some scope =>
            simp only [Option.getD_some, current, true_and, Option.some.injEq, exists_eq_left']
            exact Option.isSome_iff_ne_none

theorem closed_checkBody :
    Closed now (checkBody library parseUuid fields now) ↔ ¬ Untested parseUuid now fields := by
  unfold checkBody
  by_cases active : get fields (py "active") = some (.bool true)
  · rw [if_pos (isTrue_iff.mpr active)]
    cases present : get fields (py "sub") with
    | none =>
      refine iff_of_true trivial fun untested => ?_
      obtain ⟨_, found, _⟩ := sub_of_untested untested
      cases present.symm.trans found
    | some json =>
      have untested_sub (untested : Untested parseUuid now fields) : json.truthy = true ∧
          ∀ text, json.asText = some text → ∃ uuid, parseUuid text = some uuid := by
        obtain ⟨_, found, rest⟩ := sub_of_untested untested
        obtain rfl := Option.some.inj (present.symm.trans found)
        exact rest
      cases truthy : json.truthy with
      | false =>
        simp only [Option.getD_some, truthy]
        refine iff_of_true trivial fun untested => ?_
        cases truthy.symm.trans (untested_sub untested).1
      | true =>
        cases shape : json.asText with
        | none =>
          simp only [Option.getD_some, truthy, if_true, shape]
          exact iff_of_false not_false (not_not_intro (.sub active present truthy shape))
        | some text =>
          cases parsed : parseUuid text with
          | none =>
            simp only [Option.getD_some, truthy, if_true, shape, parsed]
            refine iff_of_true trivial fun untested => ?_
            obtain ⟨uuid, known⟩ := (untested_sub untested).2 text shape
            cases parsed.symm.trans known
          | some uuid =>
            simp only [Option.getD_some, truthy, if_true, shape, parsed]
            exact closed_checkExp ⟨active, json, text, uuid, present, truthy, shape, parsed⟩ uuid
  · rw [if_neg fun true => active (isTrue_iff.mp true)]
    exact iff_of_true trivial fun untested => active (active_of_untested untested)

theorem closed_raised {exc : HttpxError} :
    Closed now (callUpstream library parseUuid (.raised exc) now) ↔
      ¬ Unforeseen parseUuid now (.raised exc) := by
  unfold callUpstream
  split
  · next statusCode raised =>
    obtain rfl := Upstream.raised.inj raised
    refine iff_of_true trivial fun unforeseen => ?_
    cases unforeseen with
    | exception timeout network status => exact status statusCode rfl
  · next other status raised =>
    obtain rfl := Upstream.raised.inj raised
    cases timeout : exc.isTimeout with
    | true =>
      refine iff_of_true trivial fun unforeseen => ?_
      cases unforeseen with
      | exception unlike _ _ => cases timeout.symm.trans unlike
    | false =>
      cases network : exc.isNetwork with
      | true =>
        refine iff_of_true trivial fun unforeseen => ?_
        cases unforeseen with
        | exception _ unlike _ => cases network.symm.trans unlike
      | false =>
        exact iff_of_false not_false (not_not_intro (.exception timeout network status))
  · next raised => cases raised

theorem closed_callUpstream (upstream : Upstream) :
    Closed now (callUpstream library parseUuid upstream now) ↔
      ¬ Unforeseen parseUuid now upstream := by
  cases upstream with
  | raised exc => exact closed_raised
  | response statusCode body =>
    unfold callUpstream
    by_cases failed : statusCode ≥ 400
    · simp only [if_pos failed]
      refine iff_of_true trivial fun unforeseen => ?_
      cases unforeseen with
      | nesting success => omega
      | untested success field => omega
    · simp only [if_neg failed]
      have success : statusCode < 400 := by omega
      cases body with
      | valueError => exact iff_of_true trivial fun unforeseen => by cases unforeseen
      | recursionError => exact iff_of_false not_false (not_not_intro (.nesting success))
      | value json =>
        cases json with
        | object fields =>
          rw [closed_checkBody]
          refine not_congr ⟨.untested success, fun unforeseen => ?_⟩
          cases unforeseen with
          | untested _ field => exact field
        | _ => exact iff_of_true trivial fun unforeseen => by cases unforeseen

theorem mapped_of_closed {outcome : Except IntrospectError TokenClaims}
    (closed : Closed now outcome) {introspect : PyStr → Introspection} {request : Request}
    {token : PyStr} (bearer : request.bearerToken = .ok token)
    (shaped : (py "ory_at_").isPrefixOf token = true)
    (introspected : introspect token = introspection outcome) :
    Mapped (HydraStrategy.authenticate ⟨some introspect⟩ request) := by
  simp only [HydraStrategy.authenticate, bearer, shaped, if_true, introspected]
  match outcome with
  | .ok claims =>
    obtain ⟨scope, text⟩ := Option.isSome_iff_exists.mp closed.1
    simp only [introspection, text]
    exact .inl ⟨_, rfl⟩
  | .error (.unreachable _) => exact .inr ⟨_, _, rfl, .inr rfl⟩
  | .error (.invalidToken _) => exact .inr ⟨_, _, rfl, .inl rfl⟩

/-- A request is answered unless httpx fails in another way, the reply nests too deep or a
field is of a type that is not tested for. -/
theorem upstream_answered_iff (library : ClaimsLibrary) (parseUuid : PyStr → Option Uuid)
    (upstream : Upstream) (now : Rat) :
    Answers library parseUuid upstream now ↔ ¬ Unforeseen parseUuid now upstream := by
  rw [← @closed_callUpstream library]
  constructor
  · exact Answers.closed
  · intro closed
    exact ⟨closed, fun _ _ _ => mapped_of_closed closed⟩

end Outcomes

section Flights
open HydraIntrospector (Body Reply SubField ExpField)

def readSub (json : Json) : SubField :=
  if json.truthy then json.asText.elim .other .text else .falsy

/-- A moment within a second that ends at or after it stands for the whole second. -/
def readExp (json : Json) : Option ExpField :=
  if json.isNull then some .absent
  else
    match json.asNumber with
    | none => some .other
    | some (.finite value) => some (.number value.floor)
    | some _ => none

/-- The fields of a reply whose scope is a string and whose expiry is no infinity. -/
def readBody (fields : List (PyStr × Json)) : Option Body :=
  match ((get fields (py "scope")).getD (.string [])).asText,
    readExp ((get fields (py "exp")).getD .null) with
  | some scope, some exp =>
    some ⟨isTrue (get fields (py "active")), readSub ((get fields (py "sub")).getD .null), scope,
      exp⟩
  | _, _ => none

def readClaims (claims : TokenClaims) : HydraIntrospector.TokenClaims where
  sub := claims.sub
  scope := claims.scope.asText.getD []
  exp :=
    match claims.exp.asNumber with
    | some (.finite value) => value.floor
    | _ => 0

variable {library : ClaimsLibrary} {parseUuid : PyStr → Option Uuid} {now : Int}
  {fields : List (PyStr × Json)} {body : Body}

theorem checkExp_of_read {sub : Uuid} {scope : PyStr} {exp : ExpField}
    (text : ((get fields (py "scope")).getD (.string [])).asText = some scope)
    (expires : readExp ((get fields (py "exp")).getD .null) = some exp) :
    (checkExp library sub fields now).map readClaims =
      match exp with
      | .absent => .error (.invalidToken "missing exp")
      | .other => .error .typeError
      | .number exp =>
        if exp < now then .error (.invalidToken "expired") else .ok ⟨sub, scope, exp⟩ := by
  unfold checkExp
  unfold readExp at expires
  have string : (get fields (py "scope")).getD (.string []) = .string scope := by
    cases scopes : (get fields (py "scope")).getD (.string []) with
    | string value =>
      rw [scopes] at text
      exact congrArg Json.string (Option.some.inj text)
    | _ => simp [scopes, Json.asText] at text
  cases given : ((get fields (py "exp")).getD .null).isNull with
  | true =>
    simp only [given, if_true] at expires
    obtain rfl := Option.some.inj expires
    simp [given, Except.map]
  | false =>
    simp only [given, Bool.false_eq_true, if_false] at expires
    simp only [given, Bool.false_eq_true, if_false, string]
    split at expires
    · next shape =>
      obtain rfl := Option.some.inj expires
      simp [shape, Except.map]
    · next value number =>
      obtain rfl := Option.some.inj expires
      have floor : value.floor < now ↔ value < now := Rat.floor_lt_iff
      simp only [number, Number.before, floor, decide_eq_true_eq]
      split
      · rfl
      · rw [tokenClaims_of_string sub scope number]
        simp [Except.map, readClaims, number, Json.asText]
    · cases expires

theorem checkBody_of_read (read : readBody fields = some body) :
    (checkBody library parseUuid fields now).map readClaims =
      HydraIntrospector.checkBody parseUuid body now := by
  unfold readBody at read
  split at read
  · next scope exp text expires =>
    obtain rfl := Option.some.inj read
    unfold checkBody HydraIntrospector.checkBody readSub
    cases isTrue (get fields (py "active")) with
    | false => rfl
    | true =>
      cases truthy : ((get fields (py "sub")).getD .null).truthy with
      | false => simp [truthy, Except.map]
      | true =>
        cases shape : ((get fields (py "sub")).getD .null).asText with
        | none => simp [truthy, shape, Except.map]
        | some subRaw =>
          cases parsed : parseUuid subRaw with
          | none => simp [truthy, shape, parsed, Except.map]
          | some sub =>
            simp only [truthy, shape, parsed, if_true, Bool.true_eq_false, if_false,
              Option.elim_some]
            rw [checkExp_of_read text expires]
            cases exp <;> rfl
  · cases read

/-- The reply, as far as `HydraIntrospector` tells replies apart. -/
def readReply : Upstream → Option Reply
  | .raised (.httpStatusError statusCode) => some (.httpStatusError statusCode)
  | .raised exc =>
    some (if exc.isTimeout then .timeout
      else if exc.isNetwork then .connectionFailed else .otherException)
  | .response statusCode .valueError => some (.response statusCode .invalid)
  | .response statusCode .recursionError =>
    some (if statusCode ≥ 400 then .response statusCode .invalid else .otherException)
  | .response statusCode (.value (.object fields)) =>
    (readBody fields).map (fun body => .response statusCode (.object body))
  | .response statusCode (.value _) => some (.response statusCode .nonObject)

/-- Its `callUpstream` is this one, on what it reads of a reply. -/
theorem callUpstream_of_read {upstream : Upstream} {reply : Reply}
    (read : readReply upstream = some reply) :
    (callUpstream library parseUuid upstream now).map readClaims =
      HydraIntrospector.callUpstream parseUuid reply now := by
  unfold readReply at read
  split at read
  · obtain rfl := Option.some.inj read
    rfl
  · next exc status =>
    obtain rfl := Option.some.inj read
    unfold callUpstream
    split
    · next statusCode raised => exact absurd (Upstream.raised.inj raised) (status statusCode)
    · next raised =>
      obtain rfl := Upstream.raised.inj raised
      cases exc.isTimeout with
      | true => rfl
      | false => cases exc.isNetwork <;> rfl
    · next raised => cases raised
  · obtain rfl := Option.some.inj read
    simp only [callUpstream, HydraIntrospector.callUpstream]
    split <;> rfl
  · next statusCode =>
    obtain rfl := Option.some.inj read
    simp only [callUpstream]
    split
    · next failed => simp only [HydraIntrospector.callUpstream, if_pos failed, Except.map]
    · rfl
  · next statusCode fields =>
    obtain ⟨body, some, rfl⟩ := Option.map_eq_some_iff.mp read
    simp only [callUpstream, HydraIntrospector.callUpstream]
    split
    · rfl
    · exact checkBody_of_read some
  · obtain rfl := Option.some.inj read
    simp only [callUpstream, HydraIntrospector.callUpstream]
    split <;> rfl

end Flights

theorem record_keeps (sub : Uuid) (scope exp : Json) (claims : TokenClaims)
    (made : some (TokenClaims.mk sub scope exp) = some claims) : claims = ⟨sub, scope, exp⟩ :=
  (Option.some.inj made).symm

theorem record_accepts (sub : Uuid) (scope : PyStr) (exp : Json)
    (_ : (Json.asNumber exp).isSome = true) :
    (some (TokenClaims.mk sub (.string scope) exp)).isSome = true :=
  rfl

/-- A class that stores what it is given. -/
def recordClass : ClaimsLibrary where
  tokenClaims sub scope exp := some ⟨sub, scope, exp⟩
  keeps := record_keeps
  accepts := record_accepts

/-- An active token whose `sub` is a number. -/
def numericSub : Upstream :=
  .response 200 (.value (.object [(py "active", .bool true), (py "sub", .number (.finite 5))]))

/-- A server that hangs up before it responds, and a `sub` that is not a string. -/
theorem remoteProtocolError_escapes :
    ¬ Answers recordClass AuthStrategies.parseUuid (.raised .remoteProtocolError) 0 ∧
      ¬ Answers recordClass AuthStrategies.parseUuid numericSub 0 := by
  have body : checkBody recordClass AuthStrategies.parseUuid
      [(py "active", .bool true), (py "sub", .number (.finite 5))] 0 = .error .attributeError :=
    by rfl
  constructor
  · intro answers
    exact answers.closed
  · intro answers
    have closed := answers.closed
    simp only [numericSub, callUpstream, body] at closed
    exact closed

end HydraUpstream
