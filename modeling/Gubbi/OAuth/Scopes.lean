import Gubbi.OAuth.Grants

/-!
# Scopes of an accepted request

A permission check looks a scope up in an inverted index of the grant table.
The self-host validator gives every stored token that has not expired one fixed
scope set, so the scopes on the token reach a permission check only through
this constant.
-/

namespace SelfHostAuth

open Text OAuthStorage OAuthProvider Pairing OAuthRequests OAuthGrants

abbrev UserId := Nat

def journalRead : PyStr := py "journal:read"
def journalWrite : PyStr := py "journal:write"

def SCOPE_GRANTS : List (PyStr × List PyStr) :=
  [(py "journal", [journalRead, journalWrite]),
   (journalRead, [journalRead]),
   (journalWrite, [journalWrite])]

/-- `_GRANTS_UNION`. -/
def GRANTS_UNION : List PyStr := SCOPE_GRANTS.flatMap Prod.snd

/-- `_GRANT_INVERSE`: which scopes grant a permission. -/
def GRANT_INVERSE : List (PyStr × List PyStr) :=
  GRANTS_UNION.map (fun perm =>
    (perm, (SCOPE_GRANTS.filter (fun entry => perm ∈ entry.2)).map Prod.fst))

def grantInverse (perm : PyStr) : List PyStr :=
  ((GRANT_INVERSE.find? (fun entry => entry.1 = perm)).map Prod.snd).getD []

def checkScope (tokenScopes : List PyStr) (requiredScope : PyStr) : Bool :=
  if requiredScope ∈ tokenScopes then true
  else decide (requiredScope ∈ GRANTS_UNION) &&
    (grantInverse requiredScope).any (fun scope => scope ∈ tokenScopes)

/-- The table says that a scope carries a permission. -/
def Grants (scope perm : PyStr) : Prop :=
  ∃ entry ∈ SCOPE_GRANTS, entry.1 = scope ∧ perm ∈ entry.2

theorem mem_grantsUnion {perm : PyStr} :
    perm ∈ GRANTS_UNION ↔ ∃ scope, Grants scope perm := by
  simp only [GRANTS_UNION, List.mem_flatMap, Grants]
  constructor
  · rintro ⟨entry, hentry, hperm⟩
    exact ⟨entry.1, entry, hentry, rfl, hperm⟩
  · rintro ⟨scope, entry, hentry, _, hperm⟩
    exact ⟨entry, hentry, hperm⟩

/-- The index inverts the table. -/
theorem mem_grantInverse {scope perm : PyStr} : scope ∈ grantInverse perm ↔ Grants scope perm := by
  have listed : ∀ entry ∈ GRANT_INVERSE, ∀ scope, scope ∈ entry.2 ↔ Grants scope entry.1 := by
    intro entry hentry scope
    obtain ⟨perm, _, rfl⟩ := List.mem_map.mp hentry
    simp only [List.mem_map, List.mem_filter, decide_eq_true_eq, Grants]
    constructor
    · rintro ⟨entry, ⟨hmem, hperm⟩, hscope⟩
      exact ⟨entry, hmem, hscope, hperm⟩
    · rintro ⟨entry, hmem, hscope, hperm⟩
      exact ⟨entry, ⟨hmem, hperm⟩, hscope⟩
  cases hfind : GRANT_INVERSE.find? (fun entry => entry.1 = perm) with
  | none =>
    -- A permission without an index entry is granted by no scope.
    have absent := List.find?_eq_none.mp hfind
    simp only [grantInverse, hfind, Option.map_none, Option.getD_none, List.not_mem_nil, false_iff]
    intro grants
    have hunion := mem_grantsUnion.mpr ⟨scope, grants⟩
    have hentry := List.mem_map_of_mem
      (f := fun perm => (perm, (SCOPE_GRANTS.filter (fun entry => perm ∈ entry.2)).map Prod.fst))
      hunion
    exact absent _ hentry (decide_eq_true rfl)
  | some entry =>
    have hkey : entry.1 = perm := by simpa using List.find?_some hfind
    simp only [grantInverse, hfind, Option.map_some, Option.getD_some]
    exact hkey ▸ listed entry (List.mem_of_find?_eq_some hfind) scope

theorem checkScope_iff {tokenScopes : List PyStr} {perm : PyStr} :
    checkScope tokenScopes perm = true ↔
      perm ∈ tokenScopes ∨ ∃ scope ∈ tokenScopes, Grants scope perm := by
  rw [checkScope]
  split
  · next direct => simp [direct]
  · next indirect =>
    simp only [Bool.and_eq_true, decide_eq_true_eq, List.any_eq_true, mem_grantInverse, indirect,
      false_or]
    constructor
    · rintro ⟨_, scope, grants, hscope⟩
      exact ⟨scope, hscope, grants⟩
    · rintro ⟨scope, hscope, grants⟩
      exact ⟨mem_grantsUnion.mpr ⟨scope, grants⟩, scope, grants, hscope⟩

/-- More scopes, more permissions. -/
theorem checkScope_mono {narrow wide : List PyStr} (within : ∀ scope ∈ narrow, scope ∈ wide)
    {perm : PyStr} (granted : checkScope narrow perm = true) : checkScope wide perm = true := by
  rcases checkScope_iff.mp granted with direct | ⟨scope, hscope, grants⟩
  · exact checkScope_iff.mpr (Or.inl (within perm direct))
  · exact checkScope_iff.mpr (Or.inr ⟨scope, within scope hscope, grants⟩)

structure AuthRejected where
  detail : String
  status : Nat
  deriving DecidableEq

structure AuthResult where
  userId : UserId
  scopes : List PyStr
  deriving DecidableEq

def MAX_BEARER_TOKEN_LEN : Nat := 256

/-- `c.lower()` where it matters: only ASCII letters lower to one of `bearer`. -/
def lowerAscii (c : CodePoint) : CodePoint :=
  if 0x41 ≤ c.val ∧ c.val ≤ 0x5a then c + 0x20 else c

/-- `_extract_bearer_token`; a missing header is an empty string. -/
def extractBearerToken (authHeader : PyStr) : Except AuthRejected PyStr :=
  if authHeader.isEmpty then .error ⟨"Missing or invalid Authorization header", 401⟩
  else if (authHeader.take 7).map lowerAscii ≠ py "bearer " then
    .error ⟨"Missing or invalid Authorization header", 401⟩
  else if (authHeader.drop 7).length > MAX_BEARER_TOKEN_LEN then .error ⟨"Invalid token", 401⟩
  else .ok (authHeader.drop 7)

/-- `_make_token_validator` over `get_access_token`, which may raise; the reading
of the clock is the one the request takes. -/
def makeTokenValidator (getAccessToken : PyStr → Except PyError (Option AccessToken))
    (now : Micros) (token : PyStr) : Option (List PyStr) :=
  match getAccessToken token with
  | .error _ => none
  | .ok none => none
  | .ok (some row) =>
    if row.expiresAt.all (fun expiresAt => expiresAt > toSecs now) then
      some [journalRead, journalWrite]
    else none

structure SelfHostStrategy where
  tokenValidator : Option (PyStr → Option (List PyStr))
  operatorUserId : Option UserId

def SelfHostStrategy.authenticate (strategy : SelfHostStrategy) (authHeader : PyStr) :
    Except AuthRejected (Option AuthResult) :=
  match strategy.tokenValidator with
  | none => .ok none
  | some validator =>
    match extractBearerToken authHeader with
    | .error rejected => .error rejected
    | .ok token =>
      match validator token with
      | none => .ok none
      | some granted =>
        match strategy.operatorUserId with
        | none => .error ⟨"Operator not provisioned", 503⟩
        | some userId => .ok (some ⟨userId, granted⟩)

/-- A read of the token table that may fail. -/
def readToken (db : Db) (failure : Option PyError) (token : PyStr) :
    Except PyError (Option AccessToken) :=
  match failure with
  | some e => .error e
  | none => .ok (getAccessToken db token)

/-- The strategy that the server sets up over its token store. -/
def selfHostStrategy (db : Db) (failure : Option PyError) (operatorUserId : Option UserId)
    (now : Micros) : SelfHostStrategy where
  tokenValidator := some (makeTokenValidator (readToken db failure) now)
  operatorUserId := operatorUserId

section Accepted
variable {db : Db} {failure : Option PyError} {operatorUserId : Option UserId} {now : Micros}

theorem makeTokenValidator_eq_some {token : PyStr} {granted : List PyStr}
    (accepted : makeTokenValidator (readToken db failure) now token = some granted) :
    granted = [journalRead, journalWrite] ∧ ∃ row, getAccessToken db token = some row ∧
      ∀ expiresAt, row.expiresAt = some expiresAt → toSecs now < expiresAt := by
  rw [makeTokenValidator] at accepted
  cases failure with
  | some e => cases accepted
  | none =>
    simp only [readToken] at accepted
    cases hrow : getAccessToken db token with
    | none =>
      rw [hrow] at accepted
      cases accepted
    | some row =>
      simp only [hrow] at accepted
      by_cases alive : row.expiresAt.all (fun expiresAt => expiresAt > toSecs now) = true
      · rw [if_pos alive] at accepted
        refine ⟨(Option.some.inj accepted).symm, row, rfl, ?_⟩
        intro expiresAt hexpires
        simpa [hexpires] using alive
      · rw [if_neg alive] at accepted
        cases accepted

theorem authenticate_eq_some {authHeader : PyStr} {result : AuthResult}
    (accepted : (selfHostStrategy db failure operatorUserId now).authenticate authHeader =
      .ok (some result)) :
    ∃ token, extractBearerToken authHeader = .ok token ∧ operatorUserId = some result.userId ∧
      makeTokenValidator (readToken db failure) now token = some result.scopes := by
  simp only [SelfHostStrategy.authenticate, selfHostStrategy] at accepted
  cases hheader : extractBearerToken authHeader with
  | error rejected =>
    rw [hheader] at accepted
    cases accepted
  | ok token =>
    simp only [hheader] at accepted
    cases hgranted : makeTokenValidator (readToken db failure) now token with
    | none =>
      simp only [hgranted] at accepted
      cases accepted
    | some granted =>
      simp only [hgranted] at accepted
      cases hoperator : operatorUserId with
      | none =>
        simp only [hoperator] at accepted
        cases accepted
      | some userId =>
        simp only [hoperator] at accepted
        cases accepted
        exact ⟨token, rfl, rfl, hgranted⟩

/-- The validator stops accepting a token no later than the provider does. -/
theorem loadAccessToken_of_alive {token : PyStr} {row : AccessToken}
    (stored : getAccessToken db token = some row)
    (alive : ∀ expiresAt, row.expiresAt = some expiresAt → toSecs now < expiresAt) :
    (loadAccessToken db token now).2 = some row := by
  have unexpired : expired (toSecs now) row.expiresAt = false := by
    cases hexpires : row.expiresAt with
    | none => rfl
    | some expiresAt =>
      simp only [expired, decide_eq_false_iff_not]
      exact Nat.lt_asymm (alive expiresAt hexpires)
  simp [loadAccessToken, stored, inspectAccessToken, unexpired]

end Accepted

/-- The fixed scope set has these two permissions. -/
theorem checkScope_fixed (perm : PyStr) :
    checkScope [journalRead, journalWrite] perm = true ↔
      perm = journalRead ∨ perm = journalWrite := by
  rw [checkScope_iff]
  constructor
  · rintro (direct | ⟨scope, hscope, entry, hentry, hkey, hperm⟩)
    · simpa using direct
    · have own : ∀ entry ∈ SCOPE_GRANTS, entry.1 = journalRead ∨ entry.1 = journalWrite →
          ∀ perm ∈ entry.2, perm = journalRead ∨ perm = journalWrite := by decide
      refine own entry hentry ?_ perm hperm
      simpa [hkey] using hscope
  · rintro (rfl | rfl)
    · exact Or.inl List.mem_cons_self
    · exact Or.inl (List.mem_cons_of_mem _ List.mem_cons_self)

/-- An accepted request has the two journal permissions whatever its token says.
What the token says stays within the consented scopes, and the provider would
load the token too. -/
theorem accepted_request_scopes {acts : List Action} {h : History}
    (ran : Replay.run record empty acts = some h) {failure : Option PyError}
    {operatorUserId : Option UserId} {now : Micros} {authHeader : PyStr} {result : AuthResult}
    (accepted : (selfHostStrategy h.server.db failure operatorUserId now).authenticate authHeader =
      .ok (some result)) :
    (∀ perm, checkScope result.scopes perm = true ↔ perm = journalRead ∨ perm = journalWrite) ∧
    ∃ one ∈ h.issued, extractBearerToken authHeader = .ok one.issue.access ∧
      (loadAccessToken h.server.db one.issue.access now).2 = some one.access ∧
      (∃ code ∈ h.codes, code.code = one.issue.grant ∧
        ∀ perm, checkScope one.access.scopes perm = true → checkScope code.scopes perm = true) ∧
      ∀ old, Descends h one old →
        ∀ perm, checkScope one.access.scopes perm = true →
          checkScope old.access.scopes perm = true := by
  have inv := Replay.run_invariant' record_traced empty_traced ran
  obtain ⟨token, hheader, _, hgranted⟩ := authenticate_eq_some accepted
  obtain ⟨hscopes, stored, hstored, alive⟩ := makeTokenValidator_eq_some hgranted
  obtain ⟨row, hrow, rfl⟩ := getAccessToken_eq_some.mp hstored
  obtain ⟨one, hone, rfl, hdata⟩ := inv.accessRows token row hrow
  obtain ⟨⟨code, hcode, hkey, _, within⟩, narrows⟩ := grant_scopes_never_widen ran one hone
  refine ⟨fun perm => hscopes ▸ checkScope_fixed perm, one, hone, hheader, ?_, ?_, ?_⟩
  · rw [hdata]
    exact loadAccessToken_of_alive hstored alive
  · exact ⟨code, hcode, hkey, fun perm granted => checkScope_mono within granted⟩
  · intro old descends perm granted
    exact checkScope_mono (fun scope hscope => (narrows old descends scope hscope).1) granted

def bearerHeader (token : PyStr) : PyStr := py "Bearer " ++ token

theorem accepted_request_scopes_once : ∃ h, Replay.run record empty redeemOnce = some h ∧
    (selfHostStrategy h.server.db none (some 7) 0).authenticate (bearerHeader (py "a1")) =
      .ok (some ⟨7, [journalRead, journalWrite]⟩) ∧
    checkScope [journalRead, journalWrite] journalWrite = true := by
  refine ⟨_, rfl, by rfl, ?_⟩
  have all := @accepted_request_scopes redeemOnce _ rfl none (some 7) 0 (bearerHeader (py "a1"))
    ⟨7, [journalRead, journalWrite]⟩ (by rfl)
  exact (all.1 journalWrite).mpr (Or.inr rfl)

/-- The operator consents to reading only. -/
def consentToRead : List Action :=
  [.saveCode { demoCode with scopes := [journalRead] },
   .loadCode 0 demoClient (py "code") 0, .takeCode 0, .issuePair 0 0 (py "a1") (py "r1")]

theorem read_only_token_may_write :
    ¬ ∀ (acts : List Action) (h : History) (failure : Option PyError)
      (operatorUserId : Option UserId) (now : Micros) (authHeader : PyStr) (result : AuthResult),
      Replay.run record empty acts = some h →
      (selfHostStrategy h.server.db failure operatorUserId now).authenticate authHeader =
        .ok (some result) →
      ∃ one ∈ h.issued, extractBearerToken authHeader = .ok one.issue.access ∧
        ∀ perm, checkScope result.scopes perm = true →
          checkScope one.access.scopes perm = true := by
  intro all
  obtain ⟨one, hone, _, bound⟩ := all consentToRead _ none (some 7) 0 (bearerHeader (py "a1"))
    ⟨7, [journalRead, journalWrite]⟩ rfl (by rfl)
  cases List.mem_singleton.mp hone
  have write := bound journalWrite (by decide)
  revert write
  decide

end SelfHostAuth
