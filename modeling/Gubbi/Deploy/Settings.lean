import Gubbi.Auth.Origins
import Gubbi.Auth.Strategies

/-!
# Settings and the shape of a deployment

Which requests a server answers is decided by which of its environment variables are set.
Values that are no text come from the parsers of their types. The settings that say who is
authenticated are kept, with what decides whether the server starts; the others are valid.
-/

namespace DeployShapes

open Text AuthStrategies

/-- `validate_api_key`. -/
def validateApiKey (v : PyStr) : Except PyStr PyStr :=
  if v ≠ [] ∧ v.length < 32 then .error (py "JOURNAL_API_KEY must be at least 32 characters")
  else .ok v

/-- `_split_csv_scopes`. -/
def splitCsvScopes (v : PyStr) : Except PyStr (List PyStr) :=
  let stripped := strip v
  if (py "[").isPrefixOf stripped then
    .error (py "api_key_scopes expects a comma-separated string " ++
      py "(e.g. 'journal:read,journal:write'), not a JSON " ++
      py "array. Drop the brackets and quotes.")
  else .ok (((stripped.splitOnP Origins.isSeparator).map strip).filter (fun s => !s.isEmpty))

inductive Environment
  | dev
  | ci
  | staging
  | production
  deriving DecidableEq, Repr

/-- The variables; `none` is one that is not set. -/
structure Variables where
  apiKey : Option PyStr
  hydraAdminUrl : Option PyStr
  hydraPublicIssuerUrl : Option PyStr
  hydraPublicUrl : Option PyStr
  passwordHash : Option PyStr
  operatorEmail : Option PyStr
  trustGateway : Option Bool
  gatewaySecret : Option PyStr
  gatewayRequireSignature : Option Bool
  apiKeyScopes : Option PyStr
  appEnv : Option Environment
  host : Option PyStr
  adminUrl : Option PyStr
  llmBudgetEnabled : Option Bool

@[ext] structure AuthConfig where
  apiKey : PyStr
  hydraAdminUrl : PyStr
  hydraPublicIssuerUrl : PyStr
  hydraPublicUrl : Option PyStr
  passwordHash : PyStr
  operatorEmail : PyStr
  trustGateway : Bool
  gatewaySecret : PyStr
  gatewayRequireSignature : Bool
  apiKeyScopes : List PyStr

/-- A field validator, which leaves the default of its field as it is. -/
def validated {A : Type} (default : A) (validate : PyStr → Except PyStr A) :
    Option PyStr → Except PyStr A
  | none => .ok default
  | some v => validate v

def errorOf {A : Type} : Except PyStr A → List PyStr
  | .error message => [message]
  | .ok _ => []

def AuthConfig.ofVariables (env : Variables) : Except (List PyStr) AuthConfig :=
  match validated [] validateApiKey env.apiKey,
    validated [py "journal:read", py "journal:write"] splitCsvScopes env.apiKeyScopes with
  | .ok apiKey, .ok apiKeyScopes => .ok {
      apiKey := apiKey
      hydraAdminUrl := env.hydraAdminUrl.getD []
      hydraPublicIssuerUrl := env.hydraPublicIssuerUrl.getD []
      hydraPublicUrl := env.hydraPublicUrl
      passwordHash := env.passwordHash.getD []
      -- `_strip_operator_email`
      operatorEmail := (env.operatorEmail.map strip).getD []
      trustGateway := env.trustGateway.getD false
      gatewaySecret := env.gatewaySecret.getD []
      gatewayRequireSignature := env.gatewayRequireSignature.getD true
      apiKeyScopes := apiKeyScopes }
  | apiKey, apiKeyScopes => .error (errorOf apiKey ++ errorOf apiKeyScopes)

structure Settings where
  appEnv : Environment
  auth : AuthConfig
  host : PyStr
  adminUrl : PyStr
  llmBudgetEnabled : Bool

def Settings.isDeployed (settings : Settings) : Bool :=
  settings.appEnv = .staging || settings.appEnv = .production

/-- `_validate_deploy_shape`. -/
def validateDeployShape (auth : AuthConfig) : Except PyStr Unit :=
  let hydraOn := auth.hydraAdminUrl ≠ []
  let passwordOn := auth.passwordHash ≠ []
  let hydraIssuerOn := auth.hydraPublicIssuerUrl ≠ []
  let hydraPuburlOn := auth.hydraPublicUrl.getD [] ≠ []
  if hydraOn ∧ passwordOn then
    .error (py "JOURNAL_HYDRA_ADMIN_URL and JOURNAL_PASSWORD_HASH are " ++
      py "mutually exclusive -- pick one deploy shape. See " ++
      py "docs/deployment.md for the 3-shape matrix.")
  else if hydraOn ∧ ¬ hydraIssuerOn then
    .error (py "JOURNAL_HYDRA_PUBLIC_ISSUER_URL is required when " ++
      py "JOURNAL_HYDRA_ADMIN_URL is set -- both must be non-empty " ++
      py "together for Mode 3 (multi-tenant hosted).")
  else if hydraIssuerOn ∧ ¬ hydraOn then
    .error (py "JOURNAL_HYDRA_ADMIN_URL is required when " ++
      py "JOURNAL_HYDRA_PUBLIC_ISSUER_URL is set -- both must be " ++
      py "non-empty together for Mode 3 (multi-tenant hosted).")
  else if hydraOn ∧ ¬ hydraPuburlOn then
    .error (py "JOURNAL_HYDRA_PUBLIC_URL is required when " ++
      py "JOURNAL_HYDRA_ADMIN_URL is set -- both must be non-empty " ++
      py "together for Mode 3 (multi-tenant hosted).")
  else if hydraPuburlOn ∧ ¬ hydraOn then
    .error (py "JOURNAL_HYDRA_ADMIN_URL is required when " ++
      py "JOURNAL_HYDRA_PUBLIC_URL is set -- both must be " ++
      py "non-empty together for Mode 3 (multi-tenant hosted).")
  else if hydraOn ∧ auth.operatorEmail ≠ [] then
    .error (py "JOURNAL_OPERATOR_EMAIL must not be set when JOURNAL_HYDRA_ADMIN_URL " ++
      py "is set -- mode 3 (multi-tenant hosted) has no operator concept; " ++
      py "remove the variable or unset Hydra to switch to mode 1/2.")
  else if ¬ hydraOn ∧ auth.apiKey = [] then
    .error (py "JOURNAL_API_KEY is required unless JOURNAL_HYDRA_ADMIN_URL " ++
      py "is set (hosted mode disables the static API key path).")
  else if ¬ hydraOn ∧ auth.operatorEmail = [] then
    .error (py "JOURNAL_OPERATOR_EMAIL is required unless JOURNAL_HYDRA_ADMIN_URL " ++
      py "is set -- Modes 1/2 bind every authenticated request to the " ++
      py "operator UUID resolved from this email.")
  else .ok ()

/-- `_validate_trust_gateway_signature`. -/
def validateTrustGatewaySignature (settings : Settings) : Except PyStr Unit :=
  if settings.auth.trustGateway ∧ ¬ settings.auth.gatewayRequireSignature ∧ settings.isDeployed then
    .error (py "auth.trust_gateway=True requires " ++
      py "auth.gateway_require_signature=True in deployed envs " ++
      py "(staging/production)")
  else .ok ()

/-- `get_settings`. -/
def getSettings (env : Variables) : Except (List PyStr) Settings := do
  let auth ← AuthConfig.ofVariables env
  let settings : Settings := {
    appEnv := env.appEnv.getD .dev
    auth := auth
    host := env.host.getD (py "0.0.0.0")
    adminUrl := env.adminUrl.getD []
    llmBudgetEnabled := env.llmBudgetEnabled.getD false }
  (validateDeployShape auth).mapError ([·])
  (validateTrustGatewaySignature settings).mapError ([·])
  pure settings

inductive Shape
  | apiKeyOnly
  | selfHost
  | hosted
  deriving DecidableEq, Repr

/-- What a deployment of a shape has set. -/
def AuthConfig.Fits (auth : AuthConfig) : Shape → Prop
  | .apiKeyOnly => auth.hydraAdminUrl = [] ∧ auth.hydraPublicIssuerUrl = [] ∧
      auth.hydraPublicUrl.getD [] = [] ∧ auth.passwordHash = [] ∧ auth.apiKey ≠ [] ∧
      auth.operatorEmail ≠ []
  | .selfHost => auth.hydraAdminUrl = [] ∧ auth.hydraPublicIssuerUrl = [] ∧
      auth.hydraPublicUrl.getD [] = [] ∧ auth.passwordHash ≠ [] ∧ auth.apiKey ≠ [] ∧
      auth.operatorEmail ≠ []
  | .hosted => auth.hydraAdminUrl ≠ [] ∧ auth.hydraPublicIssuerUrl ≠ [] ∧
      auth.hydraPublicUrl.getD [] ≠ [] ∧ auth.passwordHash = [] ∧ auth.operatorEmail = []

def AuthConfig.shape (auth : AuthConfig) : Shape :=
  if auth.hydraAdminUrl ≠ [] then .hosted
  else if auth.passwordHash ≠ [] then .selfHost
  else .apiKeyOnly

section Shapes
variable {auth : AuthConfig}

/-- The matrix lets a configuration pass exactly when it fits one of the shapes. -/
theorem validateDeployShape_ok : validateDeployShape auth = .ok () ↔ auth.Fits auth.shape := by
  simp only [validateDeployShape, Fallible.guard_eq_ok, ne_eq]
  by_cases hydra : auth.hydraAdminUrl = []
  · by_cases password : auth.passwordHash = []
    · have shape : auth.shape = .apiKeyOnly := by simp [AuthConfig.shape, hydra, password]
      rw [shape]
      simp [AuthConfig.Fits, hydra, password]
    · have shape : auth.shape = .selfHost := by simp [AuthConfig.shape, hydra, password]
      rw [shape]
      simp [AuthConfig.Fits, hydra, password]
  · have shape : auth.shape = .hosted := by simp [AuthConfig.shape, hydra]
    rw [shape]
    simp [AuthConfig.Fits, hydra]
    tauto

end Shapes

/-- The two fields with a validator accept their variables. What a variable is parsed to by the
type of its field is not looked at. -/
structure WellFormed (env : Variables) : Prop where
  apiKey : ∀ v, env.apiKey = some v → v = [] ∨ 32 ≤ v.length
  apiKeyScopes : ∀ v, env.apiKeyScopes = some v → (py "[").isPrefixOf (strip v) = false

/-- The values behind the variables. -/
structure AuthConfig.Reads (auth : AuthConfig) (env : Variables) : Prop where
  apiKey : auth.apiKey = env.apiKey.getD []
  hydraAdminUrl : auth.hydraAdminUrl = env.hydraAdminUrl.getD []
  hydraPublicIssuerUrl : auth.hydraPublicIssuerUrl = env.hydraPublicIssuerUrl.getD []
  hydraPublicUrl : auth.hydraPublicUrl = env.hydraPublicUrl
  passwordHash : auth.passwordHash = env.passwordHash.getD []
  operatorEmail : auth.operatorEmail = (env.operatorEmail.map strip).getD []
  trustGateway : auth.trustGateway = env.trustGateway.getD false
  gatewaySecret : auth.gatewaySecret = env.gatewaySecret.getD []
  gatewayRequireSignature : auth.gatewayRequireSignature = env.gatewayRequireSignature.getD true
  apiKeyScopes : validated [py "journal:read", py "journal:write"] splitCsvScopes
    env.apiKeyScopes = .ok auth.apiKeyScopes

structure Settings.Reads (settings : Settings) (env : Variables) : Prop where
  auth : settings.auth.Reads env
  appEnv : settings.appEnv = env.appEnv.getD .dev
  host : settings.host = env.host.getD (py "0.0.0.0")
  adminUrl : settings.adminUrl = env.adminUrl.getD []
  llmBudgetEnabled : settings.llmBudgetEnabled = env.llmBudgetEnabled.getD false

section Loading
variable {env : Variables} {auth : AuthConfig} {settings : Settings}

theorem validateApiKey_ok {v apiKey : PyStr} :
    validateApiKey v = .ok apiKey ↔ (v = [] ∨ 32 ≤ v.length) ∧ apiKey = v := by
  rw [validateApiKey, Fallible.guard_eq_ok, Except.ok.injEq, not_and_or, not_not, Nat.not_lt,
    @eq_comm _ v apiKey]

theorem validated_apiKey : (∃ apiKey, validated [] validateApiKey env.apiKey = .ok apiKey) ↔
    ∀ v, env.apiKey = some v → v = [] ∨ 32 ≤ v.length := by
  cases env.apiKey with
  | none => simp [validated]
  | some v => simp [validated, validateApiKey_ok]

theorem validated_scopes {default : List PyStr} :
    (∃ scopes, validated default splitCsvScopes env.apiKeyScopes = .ok scopes) ↔
      ∀ v, env.apiKeyScopes = some v → (py "[").isPrefixOf (strip v) = false := by
  cases env.apiKeyScopes with
  | none => simp [validated]
  | some v =>
    simp only [validated, splitCsvScopes, Fallible.guard_eq_ok, Except.ok.injEq, exists_and_left,
      exists_eq', and_true, Option.some.injEq, forall_eq', Bool.not_eq_true]

theorem ofVariables_reads (loaded : AuthConfig.ofVariables env = .ok auth) : auth.Reads env := by
  unfold AuthConfig.ofVariables at loaded
  split at loaded
  · next apiKey scopes key list =>
    cases loaded
    have same : apiKey = env.apiKey.getD [] := by
      cases given : env.apiKey with
      | none =>
        rw [given] at key
        exact (Except.ok.inj key).symm
      | some v =>
        rw [given] at key
        exact (validateApiKey_ok.mp key).2
    exact ⟨same, rfl, rfl, rfl, rfl, rfl, rfl, rfl, rfl, list⟩
  · cases loaded

theorem reads_unique {auth auth' : AuthConfig} (reads : auth.Reads env) (reads' : auth'.Reads env) :
    auth = auth' := by
  have scopes := reads.apiKeyScopes.symm.trans reads'.apiKeyScopes
  ext1
  · exact reads.apiKey.trans reads'.apiKey.symm
  · exact reads.hydraAdminUrl.trans reads'.hydraAdminUrl.symm
  · exact reads.hydraPublicIssuerUrl.trans reads'.hydraPublicIssuerUrl.symm
  · exact reads.hydraPublicUrl.trans reads'.hydraPublicUrl.symm
  · exact reads.passwordHash.trans reads'.passwordHash.symm
  · exact reads.operatorEmail.trans reads'.operatorEmail.symm
  · exact reads.trustGateway.trans reads'.trustGateway.symm
  · exact reads.gatewaySecret.trans reads'.gatewaySecret.symm
  · exact reads.gatewayRequireSignature.trans reads'.gatewayRequireSignature.symm
  · exact Except.ok.inj scopes

theorem ofVariables_eq_ok :
    AuthConfig.ofVariables env = .ok auth ↔ WellFormed env ∧ auth.Reads env := by
  constructor
  · intro loaded
    refine ⟨?_, ofVariables_reads loaded⟩
    unfold AuthConfig.ofVariables at loaded
    split at loaded
    · next apiKey scopes key list =>
      exact ⟨validated_apiKey.mp ⟨apiKey, key⟩, validated_scopes.mp ⟨scopes, list⟩⟩
    · cases loaded
  · rintro ⟨formed, reads⟩
    obtain ⟨apiKey, key⟩ := validated_apiKey.mpr formed.apiKey
    cases loaded : AuthConfig.ofVariables env with
    | ok auth' => rw [reads_unique reads (ofVariables_reads loaded)]
    | error messages =>
      unfold AuthConfig.ofVariables at loaded
      rw [key, reads.apiKeyScopes] at loaded
      cases loaded

/-- The settings load when the fields are valid and a shape fits; a deployed server that trusts
the gateway requires its signature. -/
theorem getSettings_eq_ok : getSettings env = .ok settings ↔
    WellFormed env ∧ settings.Reads env ∧ settings.auth.Fits settings.auth.shape ∧
      (settings.auth.trustGateway = true → settings.isDeployed = true →
        settings.auth.gatewayRequireSignature = true) := by
  unfold getSettings
  simp only [Fallible.bind_eq_ok]
  constructor
  · rintro ⟨auth, loaded, _, fits, _, signed, made⟩
    cases made
    obtain ⟨formed, reads⟩ := ofVariables_eq_ok.mp loaded
    refine ⟨formed, ⟨reads, rfl, rfl, rfl, rfl⟩, ?_, fun trusts deployed => ?_⟩
    · exact validateDeployShape_ok.mp (Fallible.mapError_eq_ok.mp fits)
    · have checked := (Fallible.guard_eq_ok.mp (Fallible.mapError_eq_ok.mp signed)).1
      by_contra unsigned
      exact checked ⟨trusts, unsigned, deployed⟩
  · rintro ⟨formed, reads, fits, signed⟩
    have same : settings = ⟨env.appEnv.getD .dev, settings.auth, env.host.getD (py "0.0.0.0"),
        env.adminUrl.getD [], env.llmBudgetEnabled.getD false⟩ := by
      rw [← reads.appEnv, ← reads.host, ← reads.adminUrl, ← reads.llmBudgetEnabled]
    refine ⟨settings.auth, ofVariables_eq_ok.mpr ⟨formed, reads.auth⟩, (), ?_, (), ?_,
      congrArg Except.ok same.symm⟩
    · exact Fallible.mapError_eq_ok.mpr (validateDeployShape_ok.mpr fits)
    · refine Fallible.mapError_eq_ok.mpr (Fallible.guard_eq_ok.mpr ⟨?_, rfl⟩)
      rw [← same]
      rintro ⟨trusts, unsigned, deployed⟩
      exact unsigned (signed trusts deployed)

end Loading

end DeployShapes
