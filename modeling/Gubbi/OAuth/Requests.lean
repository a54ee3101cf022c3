import Gubbi.OAuth.Pairing

/-!
# Interleaved OAuth requests

A request is a few locked sections of the storage with other requests' sections
in between. Each section is one action; a request remembers what it has read.
A revocation has the same shape for both kinds of token: read the pairing,
delete the token, delete its pair rows, delete the tokens read at the start.

`issues` is the ledger of all pairs handed out, newest first, with the
authorization code each pair descends from. The program keeps no such record.
-/

namespace OAuthRequests

open Text OAuthStorage OAuthProvider Pairing

inductive Role
  | access
  | refresh
  deriving DecidableEq

def Role.other : Role → Role
  | .access => .refresh
  | .refresh => .access

@[simp] theorem Role.other_other (role : Role) : role.other.other = role := by
  cases role <;> rfl

theorem Role.eq_or_eq_other (role role' : Role) : role' = role ∨ role' = role.other := by
  cases role <;> cases role' <;> simp [Role.other]

/-- How far a revocation has come, with the paired tokens it still has to delete. -/
inductive Stage
  | loaded
  | paired (counterparts : List PyStr)
  | deleted (counterparts : List PyStr)
  | unpaired (counterparts : List PyStr)
  | done
  deriving DecidableEq

inductive Request
  | codeDropping (code : PyStr)
  | codeLoaded (client : Client) (authCode : AuthorizationCode)
  | codeTaken (client : Client) (authCode : AuthorizationCode)
  | refreshDropping (token : PyStr)
  | refreshLoaded (client : Client) (token : RefreshToken)
  | accessDropping (token : PyStr)
  | verified
  | revoking (role : Role) (token : PyStr) (stage : Stage)
  | granted (accessStr refreshStr : PyStr)
  | rejected
  deriving DecidableEq

def Request.finished : Request → Bool
  | .verified => true
  | .revoking _ _ .done => true
  | .granted _ _ => true
  | .rejected => true
  | _ => false

/-- One pair handed out: to which request, for which grant, and in exchange for
which refresh token when it was not the code. -/
structure Issue where
  request : Nat
  grant : PyStr
  parent : Option PyStr
  access : PyStr
  refresh : PyStr
  deriving DecidableEq

def Issue.member (issue : Issue) : Role → PyStr
  | .access => issue.access
  | .refresh => issue.refresh

def Issue.pair (issue : Issue) : PyStr × PyStr := (issue.access, issue.refresh)

structure Server where
  db : Db
  requests : Table Nat Request
  issues : List Issue
  saved : List PyStr

def start : Server := ⟨emptyDb, .empty, [], []⟩

def deleteToken (db : Db) : Role → PyStr → Db
  | .access, token => deleteAccessToken db token
  | .refresh, token => deleteRefreshToken db token

def deleteTokenPairBy (db : Db) : Role → PyStr → Db
  | .access, token => deleteTokenPairByAccess db token
  | .refresh, token => deleteTokenPairByRefresh db token

/-- The tokens a revocation deletes in the end; `if paired_refresh:` skips an
empty string. -/
def getPaired (db : Db) : Role → PyStr → List PyStr
  | .access, token => (getPairedRefreshToken db token).toList.filter (fun r => !r.isEmpty)
  | .refresh, token => getPairedAccessTokens db token

/-- One section of a revocation; it has none left when it is done. -/
def revokeSection (db : Db) (role : Role) (token : PyStr) : Stage → Option (Db × Stage)
  | .loaded => some (db, .paired (getPaired db role token))
  | .paired counterparts => some (deleteToken db role token, .deleted counterparts)
  | .deleted counterparts => some (deleteTokenPairBy db role token, .unpaired counterparts)
  | .unpaired (counterpart :: rest) => some (deleteToken db role.other counterpart, .unpaired rest)
  | .unpaired [] => some (db, .done)
  | .done => none

inductive Action
  | saveCode (authCode : AuthorizationCode)
  | loadCode (id : Nat) (client : Client) (code : PyStr) (now : Micros)
  | takeCode (id : Nat)
  | issuePair (id : Nat) (now : Micros) (accessStr refreshStr : PyStr)
  | loadRefresh (id : Nat) (client : Client) (token : PyStr) (now : Micros)
  | rotate (id : Nat) (scopes : List PyStr) (now : Micros) (accessStr refreshStr : PyStr)
  | loadAccess (id : Nat) (token : PyStr) (now : Micros)
  | drop (id : Nat)
  | revokeAccess (id : Nat) (token : PyStr) (now : Micros)
  | revokeRefresh (id : Nat) (client : Client) (token : PyStr) (now : Micros)
  | revokeStep (id : Nat)
  | cleanup (now : Micros)

/-- What a request becomes when its load method has read the row. -/
def afterLoad {α : Type} (dropping : Request) (ready : α → Request) : Inspected α → Request
  | .absent => .rejected
  | .drop => dropping
  | .ready value => ready value
  | .raised _ => .rejected

/-- A request starts under an identifier of its own. -/
def Server.begin (s : Server) (id : Nat) (request : Request) : Option Server :=
  if s.requests.get id = none then some { s with requests := s.requests.put id request } else none

def Server.advance (s : Server) (id : Nat) (db : Db) (request : Request) : Server :=
  { s with db := db, requests := s.requests.put id request }

def Server.issued (s : Server) : List (PyStr × PyStr) := s.issues.map Issue.pair

/-- The authorization code a refresh token descends from. -/
def Server.grantOf (s : Server) (token : PyStr) : PyStr :=
  ((s.issues.find? (fun issue => issue.refresh = token)).map Issue.grant).getD []

def step (s : Server) : Action → Option Server
  | .saveCode authCode =>
    if authCode.code ∈ s.saved then none
    else some { s with
      db := saveAuthCode s.db authCode.code authCode
      saved := authCode.code :: s.saved }
  | .loadCode id client code now =>
    s.begin id (afterLoad (.codeDropping code) (.codeLoaded client)
      (inspectAuthorizationCode (getAuthCode s.db code) client now))
  | .takeCode id =>
    match s.requests.get id with
    | some (.codeLoaded client authCode) =>
      some (s.advance id (deleteAuthCode s.db authCode.code) (.codeTaken client authCode))
    | _ => none
  | .issuePair id now accessStr refreshStr =>
    match s.requests.get id with
    | some (.codeTaken client authCode) =>
      if Fresh s.issued accessStr refreshStr then
        some { s.advance id
            (issueTokenPair s.db client.idOrEmpty authCode.scopes authCode.resource now
              accessStr refreshStr).1
            (.granted accessStr refreshStr) with
          issues := ⟨id, authCode.code, none, accessStr, refreshStr⟩ :: s.issues }
      else none
    | _ => none
  | .loadRefresh id client token now =>
    s.begin id (afterLoad (.refreshDropping token) (.refreshLoaded client)
      (inspectRefreshToken (getRefreshToken s.db token) client now))
  | .rotate id scopes now accessStr refreshStr =>
    match s.requests.get id with
    | some (.refreshLoaded client token) =>
      if Fresh s.issued accessStr refreshStr then
        some { s.advance id
            (exchangeRefreshToken s.db client token scopes now accessStr refreshStr).1
            (.granted accessStr refreshStr) with
          issues := ⟨id, s.grantOf token.token, some token.token, accessStr, refreshStr⟩ ::
            s.issues }
      else none
    | _ => none
  | .loadAccess id token now =>
    s.begin id (afterLoad (.accessDropping token) (fun _ => .verified)
      (inspectAccessToken (getAccessToken s.db token) now))
  | .drop id =>
    match s.requests.get id with
    | some (.codeDropping code) => some (s.advance id (deleteAuthCode s.db code) .rejected)
    | some (.refreshDropping token) =>
      some (s.advance id (deleteRefreshToken s.db token) .rejected)
    | some (.accessDropping token) =>
      some (s.advance id (deleteAccessToken s.db token) .rejected)
    | _ => none
  | .revokeAccess id token now =>
    s.begin id (afterLoad (.accessDropping token)
      (fun accessToken => .revoking .access accessToken.token .loaded)
      (inspectAccessToken (getAccessToken s.db token) now))
  | .revokeRefresh id client token now =>
    s.begin id (afterLoad (.refreshDropping token)
      (fun refreshToken => .revoking .refresh refreshToken.token .loaded)
      (inspectRefreshToken (getRefreshToken s.db token) client now))
  | .revokeStep id =>
    match s.requests.get id with
    | some (.revoking role token stage) =>
      (revokeSection s.db role token stage).map (fun next =>
        s.advance id next.1 (.revoking role token next.2))
    | _ => none
  | .cleanup now => some { s with db := (cleanupExpired s.db now).1 }

section Inversion
variable {s t : Server} {id : Nat}

theorem begin_eq_some {request : Request} :
    s.begin id request = some t ↔
      s.requests.get id = none ∧ t = { s with requests := s.requests.put id request } := by
  unfold Server.begin
  split
  · next h => simp [h, eq_comm]
  · next h => simp [h]

theorem step_saveCode {authCode : AuthorizationCode} :
    step s (.saveCode authCode) = some t ↔ authCode.code ∉ s.saved ∧
      t = { s with
        db := saveAuthCode s.db authCode.code authCode
        saved := authCode.code :: s.saved } := by
  simp only [step]
  split
  · next h => simp [h]
  · next h => simp [h, eq_comm]

theorem step_takeCode :
    step s (.takeCode id) = some t ↔ ∃ client authCode,
      s.requests.get id = some (.codeLoaded client authCode) ∧
      t = s.advance id (deleteAuthCode s.db authCode.code) (.codeTaken client authCode) := by
  simp only [step]
  split
  · next client authCode h => simp [h, eq_comm]
  · next h =>
    simp only [false_iff, reduceCtorEq]
    rintro ⟨client, authCode, hget, _⟩
    exact h client authCode hget

theorem step_issuePair {now : Micros} {accessStr refreshStr : PyStr} :
    step s (.issuePair id now accessStr refreshStr) = some t ↔ ∃ client authCode,
      s.requests.get id = some (.codeTaken client authCode) ∧
      Fresh s.issued accessStr refreshStr ∧
      t = { s.advance id
              (issueTokenPair s.db client.idOrEmpty authCode.scopes authCode.resource now
                accessStr refreshStr).1
              (.granted accessStr refreshStr) with
            issues := ⟨id, authCode.code, none, accessStr, refreshStr⟩ :: s.issues } := by
  simp only [step]
  split
  · next client authCode h =>
    split
    · next fresh => simp [h, fresh, eq_comm]
    · next stale => simp [h, stale]
  · next h =>
    simp only [false_iff, reduceCtorEq]
    rintro ⟨client, authCode, hget, _⟩
    exact h client authCode hget

theorem step_rotate {scopes : List PyStr} {now : Micros} {accessStr refreshStr : PyStr} :
    step s (.rotate id scopes now accessStr refreshStr) = some t ↔ ∃ client token,
      s.requests.get id = some (.refreshLoaded client token) ∧
      Fresh s.issued accessStr refreshStr ∧
      t = { s.advance id
              (exchangeRefreshToken s.db client token scopes now accessStr refreshStr).1
              (.granted accessStr refreshStr) with
            issues := ⟨id, s.grantOf token.token, some token.token, accessStr, refreshStr⟩ ::
              s.issues } := by
  simp only [step]
  split
  · next client token h =>
    split
    · next fresh => simp [h, fresh, eq_comm]
    · next stale => simp [h, stale]
  · next h =>
    simp only [false_iff, reduceCtorEq]
    rintro ⟨client, token, hget, _⟩
    exact h client token hget

theorem step_drop :
    step s (.drop id) = some t ↔
      (∃ code, s.requests.get id = some (.codeDropping code) ∧
        t = s.advance id (deleteAuthCode s.db code) .rejected) ∨
      (∃ token, s.requests.get id = some (.refreshDropping token) ∧
        t = s.advance id (deleteRefreshToken s.db token) .rejected) ∨
      (∃ token, s.requests.get id = some (.accessDropping token) ∧
        t = s.advance id (deleteAccessToken s.db token) .rejected) := by
  simp only [step]
  split
  · next code h => simp [h, eq_comm]
  · next token h => simp [h, eq_comm]
  · next token h => simp [h, eq_comm]
  · next hcode hrefresh haccess =>
    simp only [false_iff, reduceCtorEq]
    rintro (⟨code, hget, _⟩ | ⟨token, hget, _⟩ | ⟨token, hget, _⟩)
    · exact hcode code hget
    · exact hrefresh token hget
    · exact haccess token hget

theorem step_revokeStep :
    step s (.revokeStep id) = some t ↔ ∃ role token stage db next,
      s.requests.get id = some (.revoking role token stage) ∧
      revokeSection s.db role token stage = some (db, next) ∧
      t = s.advance id db (.revoking role token next) := by
  simp only [step]
  split
  · next role token stage h =>
    simp only [Option.map_eq_some_iff, Prod.exists, h, Option.some.injEq, Request.revoking.injEq]
    constructor
    · rintro ⟨db, next, hsection, rfl⟩
      exact ⟨role, token, stage, db, next, ⟨rfl, rfl, rfl⟩, hsection, rfl⟩
    · rintro ⟨_, _, _, db, next, ⟨rfl, rfl, rfl⟩, hsection, rfl⟩
      exact ⟨db, next, hsection, rfl⟩
  · next h =>
    simp only [false_iff, reduceCtorEq]
    rintro ⟨role, token, stage, _, _, hget, _⟩
    exact h role token stage hget

end Inversion

/-- The row of a token of one kind is stored. -/
def Live (db : Db) : Role → PyStr → Prop
  | .access, token => ∃ row, db.accessTokens.get token = some row
  | .refresh, token => ∃ row, db.refreshTokens.get token = some row

theorem not_live_access {db : Db} {token : PyStr} :
    ¬ Live db .access token ↔ db.accessTokens.get token = none := by
  simp [Live, Option.eq_none_iff_forall_ne_some]

theorem not_live_refresh {db : Db} {token : PyStr} :
    ¬ Live db .refresh token ↔ db.refreshTokens.get token = none := by
  simp [Live, Option.eq_none_iff_forall_ne_some]

theorem live_deleteToken {db : Db} {role role' : Role} {token token' : PyStr} :
    Live (deleteToken db role token) role' token' ↔
      Live db role' token' ∧ ¬ (role' = role ∧ token' = token) := by
  cases role <;> cases role' <;>
    simp [deleteToken, Live, deleteAccessToken, deleteRefreshToken, Table.get_erase] <;>
    by_cases h : token' = token <;> simp [h]

theorem live_deleteTokenPairBy {db : Db} {role role' : Role} {token token' : PyStr} :
    Live (deleteTokenPairBy db role token) role' token' ↔ Live db role' token' := by
  cases role <;> cases role' <;> rfl

theorem deleteToken_tokenPairs (db : Db) (role : Role) (token : PyStr) :
    (deleteToken db role token).tokenPairs = db.tokenPairs := by
  cases role <;> rfl

theorem mem_deleteTokenPairBy {db : Db} {role : Role} {token : PyStr} {issue : Issue} :
    issue.pair ∈ (deleteTokenPairBy db role token).tokenPairs ↔
      issue.pair ∈ db.tokenPairs ∧ issue.member role ≠ token := by
  cases role with
  | access => exact mem_deleteTokenPairByAccess
  | refresh => exact mem_deleteTokenPairByRefresh

theorem live_retire {db : Db} {old token : PyStr} {role : Role} :
    Live (retireRefreshToken db old) role token ↔ Live db role token ∧
      match role with
      | .access => (token, old) ∉ db.tokenPairs
      | .refresh => token ≠ old := by
  cases role with
  | access =>
    simp only [Live, retire_accessTokens]
    by_cases h : (token, old) ∈ db.tokenPairs <;> simp [h]
  | refresh =>
    simp only [Live, retire_refreshTokens, Table.get_erase]
    by_cases h : token = old <;> simp [h]

theorem live_issued {db : Db} {accessStr refreshStr token : PyStr} {access : AccessToken}
    {refresh : RefreshToken} {role : Role} :
    Live (saveIssuedTokenPair db accessStr access refreshStr refresh) role token ↔
      Live db role token ∨
        match role with
        | .access => token = accessStr
        | .refresh => token = refreshStr := by
  cases role with
  | access =>
    simp only [Live, issued_accessTokens]
    by_cases h : token = accessStr <;> simp [h]
  | refresh =>
    simp only [Live, issued_refreshTokens]
    by_cases h : token = refreshStr <;> simp [h]

/-- The pair row of an access token that cleanup leaves stays with it. -/
theorem cleanup_keeps_pair {db : Db} {now : Micros} {accessStr refreshStr : PyStr}
    (live : Live (cleanupExpired db now).1 .access accessStr)
    (pair : (accessStr, refreshStr) ∈ db.tokenPairs) :
    (accessStr, refreshStr) ∈ (cleanupExpired db now).1.tokenPairs := by
  obtain ⟨row, h⟩ := live
  exact ((cleanupExpired_shrinks db now).accessTokens accessStr row h).2 refreshStr pair

end OAuthRequests
