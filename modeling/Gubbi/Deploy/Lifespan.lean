import Gubbi.Deploy.Settings
import Gubbi.Library.Resources

/-!
# Startup and shutdown of the server

The lifespan opens its resources one after the other, builds the strategy chain, serves, and
closes what its variables have when it is left in any way. What the calls out come back with is
a parameter, and logging does not fail. A startup probe that fails raises; whether the runner
wraps the exception makes no difference here.
-/

namespace DeployShapes

open Text AuthStrategies Transactions Connections Effects Resources
open SelfHostAuth (UserId)

inductive Exc
  | runtimeError (message : PyStr)
  | valueError (message : PyStr)
  | cancelledError
  | other (name : PyStr)
  deriving DecidableEq

inductive Resource
  | adminPool
  | pool
  | oauthStorage
  | hydraHttpClient
  | redisPool
  | redisClient
  | arqPool
  | cronTask
  deriving DecidableEq, Repr

/-- What `ipaddress` says of an address. -/
structure Address where
  isUnspecified : Bool
  isLoopback : Bool
  isPrivate : Bool
  isLinkLocal : Bool

structure Calls where
  /-- The addresses that a host stands for; `none` when it does not resolve. -/
  addresses : PyStr → Option (List Address)
  initAdminPool : Except Exc Unit
  initPool : Except Exc Unit
  scaffoldOperator : Except Exc Unit
  embeddingService : Except Exc Unit
  makeDirectory : Except Exc Unit
  /-- The user that `JOURNAL_OPERATOR_EMAIL` names. -/
  operatorRow : Except Exc (Option UserId)
  contentCipher : Except Exc Unit
  createMcpServer : Except Exc Unit
  oauthConnect : Except Exc Unit
  oauthSchema : Except Exc Unit
  oauthCleanup : Except Exc Unit
  registerWellknown : Except Exc Unit
  registerSelfhost : Except Exc (PyStr → Option (List PyStr))
  hydraHttpClient : Except Exc Unit
  introspect : PyStr → Introspection
  redisPool : Except Exc Unit
  redisClient : Except Exc Unit
  resourceProbes : Except Exc Unit
  arqPool : Except Exc Unit
  registerScript : Except Exc Unit
  metadataUrl : Except Exc PyStr
  mount : Except Exc Unit
  /-- How serving ends. -/
  served : Except Exc Unit
  /-- What awaiting the cancelled orphan sweep raises. -/
  cronEnds : Except Exc Unit

abbrev Startup (A : Type) := Session (Desk Resource) Exc A

/-- Neither the unspecified address nor one of a private network. -/
def Address.publicRoutable (addr : Address) : Bool :=
  !addr.isUnspecified && !(addr.isLoopback || addr.isPrivate || addr.isLinkLocal)

def checkTrustGatewayBindAddress (addresses : PyStr → Option (List Address)) (host : PyStr)
    (trustGateway : Bool) : Except Exc Unit :=
  if !trustGateway then .ok ()
  else
    match addresses host with
    | none => .error (.runtimeError (py "JOURNAL_TRUST_GATEWAY=true -- bind address '" ++ host ++
        py "' failed to resolve. Set JOURNAL_HOST to a resolvable address."))
    | some addrs =>
      if addrs.any Address.publicRoutable then
        .error (.runtimeError (
          py "JOURNAL_TRUST_GATEWAY=true is incompatible with bind address '" ++ host ++
            py "' -- set JOURNAL_HOST to a loopback or private-network address."))
      else .ok ()

def isHexSpace (c : CodePoint) : Bool := (0x09 ≤ c.val && c.val ≤ 0x0d) || c.val = 0x20

/-- `bytes.fromhex`: ASCII white space may stand between the bytes. -/
def fromHex : PyStr → Option Bytes
  | [] => some []
  | [c] => if isHexSpace c then some [] else none
  | c :: d :: rest =>
    if isHexSpace c then fromHex (d :: rest)
    else
      match hexDigit c, hexDigit d, fromHex rest with
      | some high, some low, some bytes => some (UInt8.ofNat (16 * high + low) :: bytes)
      | _, _, _ => none

/-- `decode_gateway_secret`; a secret that is no hex or too short is none. -/
def decodeGatewaySecret (rawHex : PyStr) : Option Bytes :=
  if rawHex = [] then none else (fromHex rawHex).filter (fun decoded => 32 ≤ decoded.length)

section Lifespan
variable (calls : Calls) (settings : Settings)

def resolveOperatorUserId : Except Exc (Option UserId) :=
  if settings.auth.operatorEmail = [] then .ok none else calls.operatorRow

def buildAppCtx : Startup (Option UserId) := do
  onlyIf (settings.adminUrl ≠ []) (openLoose .adminPool calls.initAdminPool)
  openLoose .pool calls.initPool
  onlyIf (settings.auth.hydraAdminUrl = []) (await calls.scaffoldOperator)
  await calls.embeddingService
  await calls.makeDirectory
  let operatorUserId ← await (resolveOperatorUserId calls settings)
  await calls.contentCipher
  await calls.createMcpServer
  pure operatorUserId

/-- `register_oauth_routes`. -/
def registerOauthRoutes : Except Exc (Option (PyStr → Option (List PyStr))) :=
  if settings.auth.hydraAdminUrl ≠ [] then calls.registerWellknown.map fun _ => none
  else if settings.auth.passwordHash = [] then .ok none
  else calls.registerSelfhost.map some

def setupOauth : Startup (Option (PyStr → Option (List PyStr))) := do
  openLoose .oauthStorage calls.oauthConnect
  await calls.oauthSchema
  await calls.oauthCleanup
  await (registerOauthRoutes calls settings)

structure Wired where
  operatorUserId : Option UserId
  tokenValidator : Option (PyStr → Option (List PyStr))
  introspector : Option (PyStr → Introspection)
  gatewaySecret : Option Bytes

/-- From the Hydra client to the budget script. -/
def connect : Startup (Option (PyStr → Introspection)) := do
  onlyIf (settings.auth.hydraAdminUrl ≠ []) (acquire .hydraHttpClient calls.hydraHttpClient)
  acquire .redisPool calls.redisPool
  acquire .redisClient calls.redisClient
  await calls.resourceProbes
  acquire .arqPool calls.arqPool
  onlyIf settings.llmBudgetEnabled (await calls.registerScript)
  pure (if settings.auth.hydraAdminUrl ≠ [] then some calls.introspect else none)

/-- The startup up to the orphan sweep. -/
def wire : Startup Wired := do
  await (checkTrustGatewayBindAddress calls.addresses settings.host settings.auth.trustGateway)
  let operatorUserId ← helper (buildAppCtx calls settings)
  let tokenValidator ← helper (setupOauth calls settings)
  let introspector ← connect calls settings
  onlyIf (settings.adminUrl ≠ []) (acquire .cronTask (.ok ()))
  pure ⟨operatorUserId, tokenValidator, introspector,
    decodeGatewaySecret settings.auth.gatewaySecret⟩

structure Server where
  strategies : List Strategy
  protectedResourceMetadataUrl : Option PyStr

def AuthConfig.toAuthSettings (auth : AuthConfig) : AuthSettings :=
  ⟨auth.trustGateway, auth.gatewayRequireSignature, auth.apiKey, auth.apiKeyScopes⟩

/-- The strategies and the middleware. -/
def assemble (wired : Wired) : Startup Server :=
  match lifespanStrategies settings.auth.toAuthSettings wired.gatewaySecret wired.introspector
    wired.tokenValidator wired.operatorUserId with
  | none => fail (.valueError
      (py "JOURNAL_API_KEY is set but JOURNAL_TRUST_GATEWAY is enabled. " ++
        py "API key auth is disabled in trust-gateway mode. " ++
        py "Either unset JOURNAL_API_KEY or unset JOURNAL_TRUST_GATEWAY."))
  | some strategies => do
    let metadataUrl ← await (if wired.introspector.isSome || wired.tokenValidator.isSome then
      calls.metadataUrl.map some else .ok none)
    await calls.mount
    pure ⟨strategies, metadataUrl⟩

def startup : Startup Server := do
  let wired ← wire calls settings
  assemble calls settings wired

/-- The orphan sweep is cancelled and awaited; an exception that it has ended with comes out. -/
def stopCron : Startup Unit := fun desk =>
  if .cronTask ∈ desk.held then
    match calls.cronEnds with
    | .ok () => release .cronTask desk
    | .error .cancelledError => release .cronTask desk
    | .error exc => (.error exc, { desk with held := desk.held.filter (· ≠ .cronTask) })
  else (.ok (), desk)

def shutdown : Startup Unit := do
  stopCron calls
  release .arqPool
  -- `teardown_lifespan_resources`
  release .redisClient
  release .redisPool
  release .oauthStorage
  release .hydraHttpClient
  release .pool
  release .adminPool

/-- The body of the `try`. -/
def serving : Startup Unit := do
  let _ ← startup calls settings
  await calls.served

def lifespan : Startup Unit := ensuring (serving calls settings) (shutdown calls)

end Lifespan

section Helpers
variable {calls : Calls} {settings : Settings} {desk : Desk Resource}

/-- The pool that is opened first. -/
def firstPool (calls : Calls) (settings : Settings) : Except Exc Unit :=
  if settings.adminUrl ≠ [] then calls.initAdminPool else calls.initPool

/-- Calls that open nothing. -/
def SameDesk (before after : Desk Resource) : Prop := after = before

instance : Std.Refl SameDesk := ⟨fun _ => rfl⟩

instance : IsTrans (Desk Resource) SameDesk := ⟨fun _ _ _ first second => second.trans first⟩

theorem within_await {A : Type} (outcome : Except Exc A) :
    Within SameDesk (await outcome : Startup A) := Within.await outcome

/-- What `_build_app_ctx` does behind its pools. -/
def restOfAppCtx (calls : Calls) (settings : Settings) : Startup (Option UserId) := do
  onlyIf (settings.auth.hydraAdminUrl = []) (await calls.scaffoldOperator)
  await calls.embeddingService
  await calls.makeDirectory
  let operatorUserId ← await (resolveOperatorUserId calls settings)
  await calls.contentCipher
  await calls.createMcpServer
  pure operatorUserId

theorem restOfAppCtx_within : Within SameDesk (restOfAppCtx calls settings) := by
  unfold restOfAppCtx
  refine Within.bind (Within.onlyIf (within_await _)) fun _ => ?_
  refine Within.bind (within_await _) fun _ => Within.bind (within_await _) fun _ => ?_
  refine Within.bind (within_await _) fun _ => Within.bind (within_await _) fun _ => ?_
  exact Within.bind (within_await _) fun _ => fun _ => rfl

/-- A helper that starts with nothing loose: when it returns, `r` is among what it has opened
and the orphan sweep is not, and when it raises it has left something exactly when `first`,
the first resource to be opened, was. -/
def LeavesBehind {A : Type} (r : Resource) (first : Except Exc Unit) (x : Startup A) : Prop :=
  ∀ held, match x ⟨held, []⟩ with
    | (.ok _, after) => after.held = held ∧ r ∈ after.loose ∧ .cronTask ∉ after.loose
    | (.error _, after) => after.held = held ∧ (after.loose = [] ↔ ∃ e, first = .error e)

theorem leavesBehind_rest {A : Type} {r : Resource} {first : Except Exc Unit} {x : Startup A}
    {desk : Desk Resource} (same : Within SameDesk x) (opened : first = .ok ())
    (mem : r ∈ desk.loose) (quiet : .cronTask ∉ desk.loose) :
    match x desk with
    | (.ok _, after) => after.held = desk.held ∧ r ∈ after.loose ∧ .cronTask ∉ after.loose
    | (.error _, after) => after.held = desk.held ∧ (after.loose = [] ↔ ∃ e, first = .error e) := by
  have kept := same desk
  cases result : x desk with
  | mk answer after =>
    rw [result] at kept
    obtain rfl : after = desk := kept
    cases answer with
    | ok a => exact ⟨rfl, mem, quiet⟩
    | error e =>
      refine ⟨rfl, iff_of_false (List.ne_nil_of_mem mem) ?_⟩
      rintro ⟨e, failed⟩
      rw [opened] at failed
      cases failed

theorem buildAppCtx_leaves :
    LeavesBehind .pool (firstPool calls settings) (buildAppCtx calls settings) := by
  intro held
  have rest := @restOfAppCtx_within calls settings
  have shape : buildAppCtx calls settings = (do
    onlyIf (settings.adminUrl ≠ []) (openLoose .adminPool calls.initAdminPool)
    openLoose .pool calls.initPool
    restOfAppCtx calls settings) := rfl
  rw [shape]
  by_cases unset : settings.adminUrl = []
  · rw [onlyIf_false (not_not_intro unset)]
    have first : firstPool calls settings = calls.initPool := if_neg (not_not_intro unset)
    cases opened : calls.initPool with
    | error e => exact ⟨rfl, iff_of_true rfl ⟨e, first.trans opened⟩⟩
    | ok _ =>
      exact @leavesBehind_rest _ _ _ _ ⟨held, [.pool]⟩ rest (first.trans opened) (by simp)
        (by simp)
  · rw [onlyIf_true unset]
    have first : firstPool calls settings = calls.initAdminPool := if_pos unset
    cases admin : calls.initAdminPool with
    | error e => exact ⟨rfl, iff_of_true rfl ⟨e, first.trans admin⟩⟩
    | ok _ =>
      cases opened : calls.initPool with
      | error e =>
        refine ⟨rfl, iff_of_false (by nofun) ?_⟩
        rintro ⟨e, failed⟩
        rw [first, admin] at failed
        cases failed
      | ok _ =>
        exact @leavesBehind_rest _ _ _ _ ⟨held, [.pool, .adminPool]⟩ rest (first.trans admin)
          (by simp) (by simp)

theorem setupOauth_leaves :
    LeavesBehind .oauthStorage calls.oauthConnect (setupOauth calls settings) := by
  intro held
  have rest : Within SameDesk (do
      await calls.oauthSchema
      await calls.oauthCleanup
      await (registerOauthRoutes calls settings)) := by
    refine Within.bind (within_await _) fun _ => ?_
    exact Within.bind (within_await _) fun _ => within_await _
  cases opened : calls.oauthConnect with
  | error e =>
    rw [setupOauth, opened]
    exact ⟨rfl, iff_of_true rfl ⟨e, rfl⟩⟩
  | ok _ =>
    rw [setupOauth, opened]
    exact @leavesBehind_rest _ _ _ _ ⟨held, [.oauthStorage]⟩ rest rfl (by simp) (by simp)

end Helpers

/-- The calls that `_build_app_ctx` makes go through. -/
structure AppCtxReturns (calls : Calls) (settings : Settings) (operatorUserId : Option UserId) :
    Prop where
  initAdminPool : settings.adminUrl ≠ [] → calls.initAdminPool = .ok ()
  initPool : calls.initPool = .ok ()
  scaffoldOperator : settings.auth.hydraAdminUrl = [] → calls.scaffoldOperator = .ok ()
  embeddingService : calls.embeddingService = .ok ()
  makeDirectory : calls.makeDirectory = .ok ()
  operator : resolveOperatorUserId calls settings = .ok operatorUserId
  contentCipher : calls.contentCipher = .ok ()
  createMcpServer : calls.createMcpServer = .ok ()

structure OauthReturns (calls : Calls) (settings : Settings)
    (tokenValidator : Option (PyStr → Option (List PyStr))) : Prop where
  connect : calls.oauthConnect = .ok ()
  schema : calls.oauthSchema = .ok ()
  cleanup : calls.oauthCleanup = .ok ()
  routes : registerOauthRoutes calls settings = .ok tokenValidator

structure ConnectReturns (calls : Calls) (settings : Settings)
    (introspector : Option (PyStr → Introspection)) : Prop where
  hydraHttpClient : settings.auth.hydraAdminUrl ≠ [] → calls.hydraHttpClient = .ok ()
  redisPool : calls.redisPool = .ok ()
  redisClient : calls.redisClient = .ok ()
  resourceProbes : calls.resourceProbes = .ok ()
  arqPool : calls.arqPool = .ok ()
  registerScript : settings.llmBudgetEnabled = true → calls.registerScript = .ok ()
  introspector : introspector =
    if settings.auth.hydraAdminUrl ≠ [] then some calls.introspect else none

structure WireReturns (calls : Calls) (settings : Settings) (wired : Wired) : Prop where
  bindAddress : checkTrustGatewayBindAddress calls.addresses settings.host
    settings.auth.trustGateway = .ok ()
  appCtx : AppCtxReturns calls settings wired.operatorUserId
  oauth : OauthReturns calls settings wired.tokenValidator
  connect : ConnectReturns calls settings wired.introspector
  gatewaySecret : wired.gatewaySecret = decodeGatewaySecret settings.auth.gatewaySecret

section Returning
variable {calls : Calls} {settings : Settings} {desk : Desk Resource}

theorem buildAppCtx_ok {operatorUserId : Option UserId} :
    (buildAppCtx calls settings desk).1 = .ok operatorUserId ↔
      AppCtxReturns calls settings operatorUserId := by
  simp only [buildAppCtx, then_fst_ok, onlyIf_fst, openLoose_fst, await_fst]
  rw [bind_fst_ok]
  simp only [then_fst_ok, await_fst, pure_apply, Except.ok.injEq]
  constructor
  · rintro ⟨admin, pool, scaffold, embedding, directory, _, operator, cipher, server, rfl⟩
    exact ⟨admin, pool, scaffold, embedding, directory, operator, cipher, server⟩
  · rintro ⟨admin, pool, scaffold, embedding, directory, operator, cipher, server⟩
    exact ⟨admin, pool, scaffold, embedding, directory, _, operator, cipher, server, rfl⟩

theorem setupOauth_ok {tokenValidator : Option (PyStr → Option (List PyStr))} :
    (setupOauth calls settings desk).1 = .ok tokenValidator ↔
      OauthReturns calls settings tokenValidator := by
  simp only [setupOauth, then_fst_ok, openLoose_fst, await_fst]
  exact ⟨fun ⟨connect, schema, cleanup, routes⟩ => ⟨connect, schema, cleanup, routes⟩,
    fun ⟨connect, schema, cleanup, routes⟩ => ⟨connect, schema, cleanup, routes⟩⟩

theorem connect_ok {introspector : Option (PyStr → Introspection)} :
    (connect calls settings desk).1 = .ok introspector ↔
      ConnectReturns calls settings introspector := by
  simp only [connect, then_fst_ok, onlyIf_fst, acquire_fst, await_fst, pure_apply,
    Except.ok.injEq]
  constructor
  · rintro ⟨hydra, pool, client, probes, arq, script, same⟩
    exact ⟨hydra, pool, client, probes, arq, script, same.symm⟩
  · rintro ⟨hydra, pool, client, probes, arq, script, same⟩
    exact ⟨hydra, pool, client, probes, arq, script, same.symm⟩

theorem wire_ok {wired : Wired} :
    (wire calls settings desk).1 = .ok wired ↔ WireReturns calls settings wired := by
  simp only [wire, then_fst_ok, await_fst]
  rw [bind_fst_ok]
  simp only [helper_fst, buildAppCtx_ok]
  constructor
  · rintro ⟨bound, operatorUserId, appCtx, rest⟩
    obtain ⟨tokenValidator, oauth, rest⟩ := bind_fst_ok.mp rest
    obtain ⟨introspector, connected, rest⟩ := bind_fst_ok.mp rest
    obtain ⟨-, same⟩ := then_fst_ok.mp rest
    obtain rfl := Except.ok.inj same
    rw [helper_fst] at oauth
    exact ⟨bound, appCtx, setupOauth_ok.mp oauth, connect_ok.mp connected, rfl⟩
  · rintro ⟨bound, appCtx, oauth, connected, secret⟩
    refine ⟨bound, wired.operatorUserId, appCtx, bind_fst_ok.mpr ⟨wired.tokenValidator, ?_,
      bind_fst_ok.mpr ⟨wired.introspector, connect_ok.mpr connected, then_fst_ok.mpr ⟨?_, ?_⟩⟩⟩⟩
    · rw [helper_fst]
      exact setupOauth_ok.mpr oauth
    · exact onlyIf_fst.mpr fun _ => acquire_fst
    · rw [← secret]
      rfl

end Returning

section Stopping
variable {calls : Calls} {settings : Settings}

/-- `_build_app_ctx` raises behind its first pool, or `setup_oauth` behind its connection. -/
def HelperLeaks (calls : Calls) (settings : Settings) : Prop :=
  checkTrustGatewayBindAddress calls.addresses settings.host settings.auth.trustGateway = .ok () ∧
    (firstPool calls settings = .ok () ∧
        (¬ ∃ operatorUserId, AppCtxReturns calls settings operatorUserId) ∨
      (∃ operatorUserId, AppCtxReturns calls settings operatorUserId) ∧
        calls.oauthConnect = .ok () ∧
        ¬ ∃ tokenValidator, OauthReturns calls settings tokenValidator)

/-- The orphan sweep was started and has ended with an exception of its own. -/
def SweepBreaks (calls : Calls) (settings : Settings) : Prop :=
  settings.adminUrl ≠ [] ∧ (∃ wired, WireReturns calls settings wired) ∧
    ∃ exc, calls.cronEnds = .error exc ∧ exc ≠ .cancelledError

theorem LeavesBehind.returns {A : Type} {r : Resource} {first : Except Exc Unit} {x : Startup A}
    (leaves : LeavesBehind r first x) {held : List Resource} {a : A}
    (returned : (x ⟨held, []⟩).1 = .ok a) :
    ∃ after, helper x ⟨held, []⟩ = (.ok a, ⟨after, []⟩) ∧ r ∈ after ∧
      (∀ s ∈ held, s ∈ after) ∧ (.cronTask ∈ after → .cronTask ∈ held) := by
  have left := leaves held
  cases result : x ⟨held, []⟩ with
  | mk answer after =>
    rw [result] at left returned
    obtain rfl : answer = .ok a := returned
    obtain ⟨same, mem, quiet⟩ := left
    refine ⟨_, helper_ok result, List.mem_append_left _ mem, ?_, ?_⟩
    · intro s held
      rw [same]
      exact List.mem_append_right _ held
    · intro held
      rw [← same]
      exact (List.mem_append.mp held).resolve_left quiet

theorem LeavesBehind.raises {A : Type} {r : Resource} {first : Except Exc Unit} {x : Startup A}
    (leaves : LeavesBehind r first x) {held : List Resource} {e : Exc}
    (raised : (x ⟨held, []⟩).1 = .error e) :
    ∃ loose, helper x ⟨held, []⟩ = (.error e, ⟨held, loose⟩) ∧
      (loose = [] ↔ ∃ e, first = .error e) := by
  have left := leaves held
  cases result : x ⟨held, []⟩ with
  | mk answer after =>
    rw [result] at left raised
    obtain rfl : answer = .error e := raised
    obtain ⟨same, opened⟩ := left
    refine ⟨after.loose, ?_, opened⟩
    rw [helper_error result, ← same]

theorem connect_within : Within (Tidy .cronTask) (connect calls settings) := by
  unfold connect
  refine Within.bind (Within.onlyIf (Tidy.acquire (by decide) _)) fun _ => ?_
  refine Within.bind (Tidy.acquire (by decide) _) fun _ => ?_
  refine Within.bind (Tidy.acquire (by decide) _) fun _ => ?_
  refine Within.bind (Within.await _) fun _ => ?_
  refine Within.bind (Tidy.acquire (by decide) _) fun _ => ?_
  exact Within.bind (Within.onlyIf (Within.await _)) fun _ => Within.pure _

theorem raises_iff {outcome : Except Exc Unit} :
    (∃ e, outcome = .error e) ↔ ¬ outcome = .ok () := by
  cases outcome with
  | error e => exact iff_of_true ⟨e, rfl⟩ (by nofun)
  | ok _ => exact iff_of_false (by nofun) (not_not_intro rfl)

/-- What `wire` leaves: the variables have the pool as soon as they have the orphan sweep. -/
structure WireLeaves (calls : Calls) (settings : Settings) (after : Desk Resource) : Prop where
  loose : after.loose = [] ↔ ¬ HelperLeaks calls settings
  sweep : .cronTask ∈ after.held ↔
    settings.adminUrl ≠ [] ∧ ∃ wired, WireReturns calls settings wired
  pool : .cronTask ∈ after.held → .pool ∈ after.held

theorem wireLeaves_raised {e : Exc} {after : Desk Resource}
    (raised : wire calls settings .empty = (.error e, after)) (quiet : .cronTask ∉ after.held)
    (loose : after.loose = [] ↔ ¬ HelperLeaks calls settings) :
    WireLeaves calls settings after := by
  refine ⟨loose, iff_of_false quiet ?_, fun mem => absurd mem quiet⟩
  rintro ⟨-, wired, returns⟩
  have returned : (wire calls settings .empty).1 = .ok wired := wire_ok.mpr returns
  rw [raised] at returned
  cases returned

/-- What `wire` does behind its helpers. -/
def restOfWire (calls : Calls) (settings : Settings) (operatorUserId : Option UserId)
    (tokenValidator : Option (PyStr → Option (List PyStr))) : Startup Wired := do
  let introspector ← connect calls settings
  onlyIf (settings.adminUrl ≠ []) (acquire .cronTask (.ok ()))
  pure ⟨operatorUserId, tokenValidator, introspector,
    decodeGatewaySecret settings.auth.gatewaySecret⟩

theorem wireLeaves_rest {operatorUserId : Option UserId}
    {tokenValidator : Option (PyStr → Option (List PyStr))} {held : List Resource}
    (reached : wire calls settings .empty =
      restOfWire calls settings operatorUserId tokenValidator ⟨held, []⟩)
    (pool : .pool ∈ held) (quiet : .cronTask ∉ held) (noLeak : ¬ HelperLeaks calls settings) :
    WireLeaves calls settings (wire calls settings .empty).2 := by
  have tidy := @connect_within calls settings ⟨held, []⟩
  cases connected : connect calls settings ⟨held, []⟩ with
  | mk answer after =>
    rw [connected] at tidy
    have still : .cronTask ∉ after.held := fun mem => quiet (tidy.special mem)
    cases answer with
    | error e =>
      have raised := reached.trans (bind_error connected)
      rw [raised]
      exact wireLeaves_raised raised still (iff_of_true tidy.loose noLeak)
    | ok introspector =>
      rw [restOfWire, bind_of_ok connected] at reached
      by_cases unset : settings.adminUrl = []
      · rw [onlyIf_false (not_not_intro unset)] at reached
        rw [reached]
        exact ⟨iff_of_true tidy.loose noLeak, iff_of_false still fun swept => swept.1 unset,
          fun mem => absurd mem still⟩
      · rw [onlyIf_true unset] at reached
        have returns := wire_ok.mp (congrArg Prod.fst reached)
        rw [reached]
        exact ⟨iff_of_true tidy.loose noLeak,
          iff_of_true List.mem_cons_self ⟨unset, _, returns⟩,
          fun _ => List.mem_cons_of_mem _ (tidy.held _ pool)⟩

theorem wireLeaves : WireLeaves calls settings (wire calls settings .empty).2 := by
  cases bound : checkTrustGatewayBindAddress calls.addresses settings.host
      settings.auth.trustGateway with
  | error e =>
    have raised : wire calls settings .empty = (.error e, .empty) := by
      rw [wire, bound, await_error_bind]
    rw [raised]
    refine wireLeaves_raised raised (by simp [Desk.empty]) (iff_of_true rfl fun leaks => ?_)
    rw [leaks.1] at bound
    cases bound
  | ok _ =>
    cases built : (buildAppCtx calls settings ⟨[], []⟩).1 with
    | error e =>
      have stuck : ¬ ∃ operatorUserId, AppCtxReturns calls settings operatorUserId := by
        rintro ⟨operatorUserId, returns⟩
        rw [buildAppCtx_ok.mpr returns] at built
        cases built
      obtain ⟨loose, ran, left⟩ := buildAppCtx_leaves.raises built
      have raised : wire calls settings .empty = (.error e, ⟨[], loose⟩) := by
        rw [wire, bound, await_ok_bind]
        exact bind_error ran
      rw [raised]
      refine wireLeaves_raised raised (by simp) (left.trans (raises_iff.trans (not_congr ?_)))
      constructor
      · exact fun first => ⟨bound, .inl ⟨first, stuck⟩⟩
      · rintro ⟨-, ⟨first, -⟩ | ⟨returns, -⟩⟩
        · exact first
        · exact absurd returns stuck
    | ok operatorUserId =>
      have appCtx := buildAppCtx_ok.mp built
      obtain ⟨held, ran, pool, -, quiet⟩ := buildAppCtx_leaves.returns built
      replace quiet : .cronTask ∉ held := fun mem => absurd (quiet mem) List.not_mem_nil
      have leaks_iff : HelperLeaks calls settings ↔ calls.oauthConnect = .ok () ∧
          ¬ ∃ tokenValidator, OauthReturns calls settings tokenValidator := by
        constructor
        · rintro ⟨-, ⟨-, stuck⟩ | ⟨-, leaks⟩⟩
          · exact absurd ⟨operatorUserId, appCtx⟩ stuck
          · exact leaks
        · exact fun leaks => ⟨bound, .inr ⟨⟨operatorUserId, appCtx⟩, leaks⟩⟩
      cases opened : (setupOauth calls settings ⟨held, []⟩).1 with
      | error e =>
        have stuck : ¬ ∃ tokenValidator, OauthReturns calls settings tokenValidator := by
          rintro ⟨tokenValidator, returns⟩
          rw [setupOauth_ok.mpr returns] at opened
          cases opened
        obtain ⟨loose, ranOauth, left⟩ := setupOauth_leaves.raises opened
        have raised : wire calls settings .empty = (.error e, ⟨held, loose⟩) := by
          rw [wire, bound, await_ok_bind]
          exact (bind_of_ok ran).trans (bind_error ranOauth)
        rw [raised]
        refine wireLeaves_raised raised quiet (left.trans (raises_iff.trans (not_congr ?_)))
        rw [leaks_iff]
        exact (and_iff_left stuck).symm
      | ok tokenValidator =>
        have oauth := setupOauth_ok.mp opened
        obtain ⟨held', ranOauth, -, kept, quiet'⟩ := setupOauth_leaves.returns opened
        have reached : wire calls settings .empty =
            restOfWire calls settings operatorUserId tokenValidator ⟨held', []⟩ := by
          rw [wire, bound, await_ok_bind]
          exact (bind_of_ok ran).trans (bind_of_ok ranOauth)
        refine wireLeaves_rest reached (kept _ pool) (fun mem => quiet (quiet' mem)) ?_
        rw [leaks_iff]
        exact fun leaks => leaks.2 ⟨tokenValidator, oauth⟩

theorem assemble_within (wired : Wired) : Within SameDesk (assemble calls settings wired) := by
  unfold assemble
  split
  · exact Within.fail _
  · refine Within.bind (within_await _) fun _ => Within.bind (within_await _) fun _ => ?_
    exact fun _ => rfl

theorem bind_snd {A B : Type} {x : Startup A} {next : A → Startup B} {desk : Desk Resource}
    (same : ∀ a, Within SameDesk (next a)) : ((x >>= next) desk).2 = (x desk).2 := by
  cases ran : x desk with
  | mk answer after =>
    cases answer with
    | error e => rw [bind_error ran]
    | ok a =>
      rw [bind_of_ok ran]
      exact same a after

theorem serving_leaves : WireLeaves calls settings (serving calls settings .empty).2 := by
  have started : (startup calls settings .empty).2 = (wire calls settings .empty).2 :=
    bind_snd assemble_within
  have served : (serving calls settings .empty).2 = (startup calls settings .empty).2 :=
    bind_snd fun _ => within_await _
  rw [served, started]
  exact wireLeaves

/-- All variables are looked at. -/
theorem releases_all (held : List Resource) :
    (((((((held.filter (· ≠ .arqPool)).filter (· ≠ .redisClient)).filter (· ≠ .redisPool)).filter
      (· ≠ .oauthStorage)).filter (· ≠ .hydraHttpClient)).filter (· ≠ .pool)).filter
      (· ≠ .adminPool)) = held.filter (· = .cronTask) := by
  simp only [List.filter_filter]
  refine List.filter_congr fun r _ => ?_
  cases r <;> rfl

theorem shutdown_after {desk after : Desk Resource}
    (stopped : stopCron calls desk = (.ok (), after)) :
    shutdown calls desk = (.ok (), ⟨after.held.filter (· = .cronTask), after.loose⟩) := by
  rw [shutdown, bind_of_ok stopped, ← releases_all]
  rfl

/-- The exception of the sweep comes out before anything else is closed. -/
theorem shutdown_broken {desk : Desk Resource} {exc : Exc} (swept : .cronTask ∈ desk.held)
    (ended : calls.cronEnds = .error exc) (own : exc ≠ .cancelledError) :
    shutdown calls desk =
      (.error exc, { desk with held := desk.held.filter (· ≠ .cronTask) }) := by
  refine bind_error ?_
  rw [stopCron, if_pos swept, ended]
  cases exc with
  | cancelledError => exact absurd rfl own
  | _ => rfl

theorem shutdown_quiet {desk : Desk Resource}
    (quiet : ¬ (.cronTask ∈ desk.held ∧
      ∃ exc, calls.cronEnds = .error exc ∧ exc ≠ .cancelledError)) :
    shutdown calls desk = (.ok (), ⟨[], desk.loose⟩) := by
  have emptied (held : List Resource) : (held.filter (· ≠ .cronTask)).filter (· = .cronTask) = [] :=
    by simp
  by_cases swept : .cronTask ∈ desk.held
  · have stopped : stopCron calls desk =
        (.ok (), { desk with held := desk.held.filter (· ≠ .cronTask) }) := by
      rw [stopCron, if_pos swept]
      cases ended : calls.cronEnds with
      | ok _ => rfl
      | error exc =>
        cases exc with
        | cancelledError => rfl
        | _ => exact absurd ⟨swept, _, ended, by nofun⟩ quiet
    rw [shutdown_after stopped, emptied]
  · have stopped : stopCron calls desk = (.ok (), desk) := if_neg swept
    rw [shutdown_after stopped]
    have none : desk.held.filter (· = .cronTask) = [] := by
      rw [List.filter_eq_nil_iff]
      intro r mem same
      exact swept (of_decide_eq_true same ▸ mem)
    rw [none]

/-- Whatever the calls come back with, the server ends with nothing open, except behind a
helper that has raised and behind a sweep that has ended by itself. -/
theorem lifespan_closes (calls : Calls) (settings : Settings) :
    ((lifespan calls settings .empty).2.opened = [] ↔
        ¬ HelperLeaks calls settings ∧ ¬ SweepBreaks calls settings) ∧
      (SweepBreaks calls settings → (lifespan calls settings .empty).1 = calls.cronEnds) ∧
      (¬ SweepBreaks calls settings →
        (lifespan calls settings .empty).1 = (serving calls settings .empty).1) := by
  have left := @serving_leaves calls settings
  have breaks_iff : SweepBreaks calls settings ↔
      .cronTask ∈ (serving calls settings .empty).2.held ∧
        ∃ exc, calls.cronEnds = .error exc ∧ exc ≠ .cancelledError := by
    rw [left.sweep, and_assoc, SweepBreaks]
  by_cases breaks : SweepBreaks calls settings
  · obtain ⟨swept, exc, ended, own⟩ := breaks_iff.mp breaks
    rw [lifespan, ensuring_error (shutdown_broken swept ended own)]
    refine ⟨iff_of_false ?_ fun closed => closed.2 breaks, fun _ => ended.symm, absurd breaks⟩
    have pool : .pool ∈ (serving calls settings .empty).2.held.filter (· ≠ .cronTask) :=
      List.mem_filter.mpr ⟨left.pool swept, rfl⟩
    exact List.ne_nil_of_mem (List.mem_append_left _ pool)
  · rw [lifespan, ensuring_ok (shutdown_quiet fun swept => breaks (breaks_iff.mpr swept))]
    exact ⟨left.loose.trans (and_iff_left breaks).symm, fun swept => absurd swept breaks,
      fun _ => rfl⟩

end Stopping

end DeployShapes
