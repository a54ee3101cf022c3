import Gubbi.OAuth.Storage
import Gubbi.Library.Replay

/-!
# OAuth provider

The methods of `JournalOAuthProvider` over the storage, each run to its end
without another request in between. What a load method decides after its read
is a function of its own (`inspect...`), because the interleaved model takes
the read and the delete of an expired row in two steps.

Token strings drawn by `secrets.token_urlsafe` are arguments.
-/

namespace OAuthProvider

open Text OAuthStorage

def OAUTH_ACCESS_TOKEN_TTL_SECS : Secs := 3600
def OAUTH_REFRESH_TOKEN_TTL_SECS : Secs := 2592000

structure Client where
  clientId : Option PyStr
  deriving DecidableEq

/-- `client.client_id or ""`. -/
def Client.idOrEmpty (client : Client) : PyStr := client.clientId.getD []

/-- What a load method does after it has read the row. -/
inductive Inspected (α : Type)
  | absent
  | drop
  | ready (value : α)
  | raised (error : PyError)
  deriving DecidableEq

def inspectAuthorizationCode (row : Option AuthorizationCode) (client : Client)
    (now : Micros) : Inspected AuthorizationCode :=
  match row with
  | none => .absent
  | some code =>
    match compareDigest code.clientId client.idOrEmpty with
    | .error e => .raised e
    | .ok false => .drop
    | .ok true => if code.expiresAt < now then .drop else .ready code

def loadAuthorizationCode (db : Db) (client : Client) (code : PyStr) (now : Micros) :
    Db × Except PyError (Option AuthorizationCode) :=
  match inspectAuthorizationCode (getAuthCode db code) client now with
  | .absent => (db, .ok none)
  | .drop => (deleteAuthCode db code, .ok none)
  | .ready authCode => (db, .ok (some authCode))
  | .raised e => (db, .error e)

/-- A refresh token of another client is refused and stays stored. -/
def inspectRefreshToken (row : Option RefreshToken) (client : Client)
    (now : Micros) : Inspected RefreshToken :=
  match row with
  | none => .absent
  | some token =>
    match compareDigest token.clientId client.idOrEmpty with
    | .error e => .raised e
    | .ok false => .absent
    | .ok true => if expired (toSecs now) token.expiresAt then .drop else .ready token

def loadRefreshToken (db : Db) (client : Client) (token : PyStr) (now : Micros) :
    Db × Except PyError (Option RefreshToken) :=
  match inspectRefreshToken (getRefreshToken db token) client now with
  | .absent => (db, .ok none)
  | .drop => (deleteRefreshToken db token, .ok none)
  | .ready refreshToken => (db, .ok (some refreshToken))
  | .raised e => (db, .error e)

def inspectAccessToken (row : Option AccessToken) (now : Micros) : Inspected AccessToken :=
  match row with
  | none => .absent
  | some token => if expired (toSecs now) token.expiresAt then .drop else .ready token

def loadAccessToken (db : Db) (token : PyStr) (now : Micros) : Db × Option AccessToken :=
  match inspectAccessToken (getAccessToken db token) now with
  | .absent => (db, none)
  | .drop => (deleteAccessToken db token, none)
  | .ready accessToken => (db, some accessToken)
  | .raised _ => (db, none)

/-- The response of the token endpoint. -/
structure OAuthToken where
  accessToken : PyStr
  tokenType : String
  expiresIn : Secs
  refreshToken : PyStr
  scope : Option PyStr
  deriving DecidableEq

/-- `" ".join(scopes) if scopes else None`. -/
def joinScopes (scopes : List PyStr) : Option PyStr :=
  if scopes.isEmpty then none else some ((scopes.intersperse (py " ")).flatten)

def oauthToken (accessStr refreshStr : PyStr) (scopes : List PyStr) : OAuthToken where
  accessToken := accessStr
  tokenType := "Bearer"
  expiresIn := OAUTH_ACCESS_TOKEN_TTL_SECS
  refreshToken := refreshStr
  scope := joinScopes scopes

def newAccessToken (accessStr clientId : PyStr) (scopes : List PyStr) (resource : Option PyStr)
    (now : Micros) : AccessToken where
  token := accessStr
  clientId := clientId
  scopes := scopes
  expiresAt := some (toSecs now + OAUTH_ACCESS_TOKEN_TTL_SECS)
  resource := resource

def newRefreshToken (refreshStr clientId : PyStr) (scopes : List PyStr) (now : Micros) :
    RefreshToken where
  token := refreshStr
  clientId := clientId
  scopes := scopes
  expiresAt := some (toSecs now + OAUTH_REFRESH_TOKEN_TTL_SECS)

def issueTokenPair (db : Db) (clientId : PyStr) (scopes : List PyStr) (resource : Option PyStr)
    (now : Micros) (accessStr refreshStr : PyStr) : Db × OAuthToken :=
  (saveIssuedTokenPair db accessStr (newAccessToken accessStr clientId scopes resource now)
      refreshStr (newRefreshToken refreshStr clientId scopes now),
    oauthToken accessStr refreshStr scopes)

def exchangeAuthorizationCode (db : Db) (client : Client) (authorizationCode : AuthorizationCode)
    (now : Micros) (accessStr refreshStr : PyStr) : Db × OAuthToken :=
  issueTokenPair (deleteAuthCode db authorizationCode.code) client.idOrEmpty
    authorizationCode.scopes authorizationCode.resource now accessStr refreshStr

/-- `scopes if scopes else refresh_token.scopes`. -/
def effectiveScopes (scopes : List PyStr) (refreshToken : RefreshToken) : List PyStr :=
  if scopes.isEmpty then refreshToken.scopes else scopes

/-- The new access token is built without a resource. -/
def exchangeRefreshToken (db : Db) (client : Client) (refreshToken : RefreshToken)
    (scopes : List PyStr) (now : Micros) (accessStr refreshStr : PyStr) : Db × OAuthToken :=
  let scopes := effectiveScopes scopes refreshToken
  (rotateRefreshToken db refreshToken.token
      accessStr (newAccessToken accessStr client.idOrEmpty scopes none now)
      refreshStr (newRefreshToken refreshStr client.idOrEmpty scopes now),
    oauthToken accessStr refreshStr scopes)

/-- `if paired_refresh:` skips a missing pair row, and an empty string. -/
def deletePairedRefresh (db : Db) : Option PyStr → Db
  | none => db
  | some refresh => if refresh.isEmpty then db else deleteRefreshToken db refresh

/-- `revoke_token` of an access token. -/
def revokeAccessToken (db : Db) (token : AccessToken) : Db :=
  let pairedRefresh := getPairedRefreshToken db token.token
  let db := deleteAccessToken db token.token
  let db := deleteTokenPairByAccess db token.token
  deletePairedRefresh db pairedRefresh

/-- `revoke_token` of a refresh token. -/
def revokeRefreshToken (db : Db) (token : RefreshToken) : Db :=
  let pairedAccess := getPairedAccessTokens db token.token
  let db := deleteRefreshToken db token.token
  let db := deleteTokenPairByRefresh db token.token
  pairedAccess.foldl deleteAccessToken db

theorem inspectAuthorizationCode_ready {row : Option AuthorizationCode} {client : Client}
    {now : Micros} {authCode : AuthorizationCode}
    (ready : inspectAuthorizationCode row client now = .ready authCode) : row = some authCode := by
  unfold inspectAuthorizationCode at ready
  split at ready
  · cases ready
  · split at ready
    · cases ready
    · cases ready
    · split at ready <;> cases ready
      rfl

theorem inspectRefreshToken_ready {row : Option RefreshToken} {client : Client}
    {now : Micros} {token : RefreshToken}
    (ready : inspectRefreshToken row client now = .ready token) : row = some token := by
  unfold inspectRefreshToken at ready
  split at ready
  · cases ready
  · split at ready
    · cases ready
    · cases ready
    · split at ready <;> cases ready
      rfl

theorem inspectAuthorizationCode_client {row : Option AuthorizationCode} {client : Client}
    {now : Micros} {authCode : AuthorizationCode}
    (ready : inspectAuthorizationCode row client now = .ready authCode) :
    authCode.clientId = client.idOrEmpty := by
  have found := inspectAuthorizationCode_ready ready
  subst found
  rw [inspectAuthorizationCode] at ready
  split at ready
  · cases ready
  · cases ready
  · next same => exact eq_of_compareDigest same

theorem inspectRefreshToken_client {row : Option RefreshToken} {client : Client}
    {now : Micros} {token : RefreshToken}
    (ready : inspectRefreshToken row client now = .ready token) :
    token.clientId = client.idOrEmpty := by
  have found := inspectRefreshToken_ready ready
  subst found
  rw [inspectRefreshToken] at ready
  split at ready
  · cases ready
  · cases ready
  · next same => exact eq_of_compareDigest same

theorem inspectAccessToken_ready {row : Option AccessToken} {now : Micros} {token : AccessToken}
    (ready : inspectAccessToken row now = .ready token) : row = some token := by
  unfold inspectAccessToken at ready
  split at ready
  · cases ready
  · split at ready <;> cases ready
    rfl

theorem loadAccessToken_absent {db : Db} {token : PyStr} {now : Micros}
    (absent : db.accessTokens.get token = none) : (loadAccessToken db token now).2 = none := by
  simp [loadAccessToken, getAccessToken, inspectAccessToken, absent]

theorem loadRefreshToken_absent {db : Db} {client : Client} {token : PyStr} {now : Micros}
    (absent : db.refreshTokens.get token = none) :
    (loadRefreshToken db client token now).2 = .ok none := by
  simp [loadRefreshToken, getRefreshToken, inspectRefreshToken, absent]

end OAuthProvider
