import Gubbi.Library.KeyedTable
import Gubbi.Text

/-!
# OAuth storage

The token tables of `oauth.db` and the methods of `OAuthStorage`. A method is
one section under the storage lock (or one `BEGIN IMMEDIATE` transaction), so
it is one function of the tables. The JSON blob of a row is the value it was
dumped from; the `expires_at` column is kept apart from it, because cleanup
reads the column and the provider reads the blob.

Clock readings are in microseconds; `int(time.time())` drops the fraction.
-/

namespace OAuthStorage

open Text

abbrev Micros := Nat
abbrev Secs := Nat

/-- Python's `int(...)` of a clock reading. -/
def toSecs (t : Micros) : Secs := t / 1000000

structure AuthorizationCode where
  code : PyStr
  scopes : List PyStr
  expiresAt : Micros
  clientId : PyStr
  codeChallenge : PyStr
  redirectUri : PyStr
  redirectUriProvidedExplicitly : Bool
  resource : Option PyStr
  deriving DecidableEq

structure AccessToken where
  token : PyStr
  clientId : PyStr
  scopes : List PyStr
  expiresAt : Option Secs
  resource : Option PyStr
  deriving DecidableEq

structure RefreshToken where
  token : PyStr
  clientId : PyStr
  scopes : List PyStr
  expiresAt : Option Secs
  deriving DecidableEq

/-- A row of a token table: the dumped value and the indexed column. -/
structure Stored (α : Type) where
  data : α
  expiresAt : Option Secs
  deriving DecidableEq

structure Db where
  authCodes : Table PyStr (Stored AuthorizationCode)
  accessTokens : Table PyStr (Stored AccessToken)
  refreshTokens : Table PyStr (Stored RefreshToken)
  tokenPairs : List (PyStr × PyStr)

/-- The store right after the schema was applied. -/
def emptyDb : Db := ⟨.empty, .empty, .empty, []⟩

def saveAuthCode (db : Db) (code : PyStr) (authCode : AuthorizationCode) : Db :=
  { db with authCodes := db.authCodes.put code ⟨authCode, some (toSecs authCode.expiresAt)⟩ }

def getAuthCode (db : Db) (code : PyStr) : Option AuthorizationCode :=
  (db.authCodes.get code).map Stored.data

def deleteAuthCode (db : Db) (code : PyStr) : Db :=
  { db with authCodes := db.authCodes.erase code }

def saveAccessToken (db : Db) (token : PyStr) (accessToken : AccessToken) : Db :=
  { db with accessTokens := db.accessTokens.put token ⟨accessToken, accessToken.expiresAt⟩ }

def getAccessToken (db : Db) (token : PyStr) : Option AccessToken :=
  (db.accessTokens.get token).map Stored.data

def deleteAccessToken (db : Db) (token : PyStr) : Db :=
  { db with accessTokens := db.accessTokens.erase token }

def saveRefreshToken (db : Db) (token : PyStr) (refreshToken : RefreshToken) : Db :=
  { db with refreshTokens := db.refreshTokens.put token ⟨refreshToken, refreshToken.expiresAt⟩ }

def getRefreshToken (db : Db) (token : PyStr) : Option RefreshToken :=
  (db.refreshTokens.get token).map Stored.data

def deleteRefreshToken (db : Db) (token : PyStr) : Db :=
  { db with refreshTokens := db.refreshTokens.erase token }

def saveTokenPair (db : Db) (accessToken refreshToken : PyStr) : Db :=
  { db with tokenPairs := db.tokenPairs ++ [(accessToken, refreshToken)] }

def getPairedRefreshToken (db : Db) (accessToken : PyStr) : Option PyStr :=
  (db.tokenPairs.find? (fun pair => pair.1 = accessToken)).map Prod.snd

def getPairedAccessTokens (db : Db) (refreshToken : PyStr) : List PyStr :=
  (db.tokenPairs.filter (fun pair => pair.2 = refreshToken)).map Prod.fst

def deleteTokenPairByAccess (db : Db) (accessToken : PyStr) : Db :=
  { db with tokenPairs := db.tokenPairs.filter (fun pair => pair.1 ≠ accessToken) }

def deleteTokenPairByRefresh (db : Db) (refreshToken : PyStr) : Db :=
  { db with tokenPairs := db.tokenPairs.filter (fun pair => pair.2 ≠ refreshToken) }

/-- The three inserts of one transaction. -/
def saveIssuedTokenPair (db : Db) (accessStr : PyStr) (accessToken : AccessToken)
    (refreshStr : PyStr) (refreshToken : RefreshToken) : Db :=
  saveTokenPair
    (saveRefreshToken (saveAccessToken db accessStr accessToken) refreshStr refreshToken)
    accessStr refreshStr

/-- Statements 1 to 4 of the rotation: revoke the old refresh token and the
access tokens paired with it. -/
def retireRefreshToken (db : Db) (oldRefreshStr : PyStr) : Db :=
  let pairedAccess := getPairedAccessTokens db oldRefreshStr
  let db := pairedAccess.foldl deleteAccessToken db
  let db := deleteTokenPairByRefresh db oldRefreshStr
  deleteRefreshToken db oldRefreshStr

/-- The seven statements of one transaction. Nothing asks whether the old
refresh token is still stored. -/
def rotateRefreshToken (db : Db) (oldRefreshStr newAccessStr : PyStr) (newAccess : AccessToken)
    (newRefreshStr : PyStr) (newRefresh : RefreshToken) : Db :=
  saveIssuedTokenPair (retireRefreshToken db oldRefreshStr) newAccessStr newAccess
    newRefreshStr newRefresh

/-- `expires_at IS NOT NULL AND expires_at < now`. -/
def expired (now : Secs) (expiresAt : Option Secs) : Bool :=
  match expiresAt with
  | none => false
  | some t => t < now

/-- The statements of `cleanup_expired` under the storage lock, with the number
of rows it reports. The rate-limit prune that follows them has a lock and a
table of its own. -/
def cleanupExpired (db : Db) (now : Micros) : Db × Nat :=
  let now := toSecs now
  -- Codes with a NULL column are treated as expired, tokens with one are kept.
  let oldCode := fun (_ : PyStr) (row : Stored AuthorizationCode) =>
    row.expiresAt.isNone || expired now row.expiresAt
  let oldAccess := fun (_ : PyStr) (row : Stored AccessToken) => expired now row.expiresAt
  let oldRefresh := fun (_ : PyStr) (row : Stored RefreshToken) => expired now row.expiresAt
  let expiredAccess := db.accessTokens.keysWhere oldAccess
  let expiredRefresh := db.refreshTokens.keysWhere oldRefresh
  let livePairs := db.tokenPairs.filter (fun pair => pair.1 ∉ expiredAccess)
  let liveAccess := db.accessTokens.deleteWhere oldAccess
  let orphaned := (livePairs.filter (fun pair => pair.2 ∈ expiredRefresh)).map Prod.fst
  let cascade := fun (token : PyStr) (_ : Stored AccessToken) => decide (token ∈ orphaned)
  ({ authCodes := db.authCodes.deleteWhere oldCode
     accessTokens := liveAccess.deleteWhere cascade
     refreshTokens := db.refreshTokens.deleteWhere oldRefresh
     tokenPairs := livePairs.filter (fun pair => pair.2 ∉ expiredRefresh) },
   (db.authCodes.keysWhere oldCode).length + expiredAccess.length +
     (liveAccess.keysWhere cascade).length + expiredRefresh.length)

@[simp] theorem getAuthCode_eq_some {db : Db} {code : PyStr} {authCode : AuthorizationCode} :
    getAuthCode db code = some authCode ↔ ∃ row, db.authCodes.get code = some row ∧
      row.data = authCode := by
  simp [getAuthCode]

@[simp] theorem getAccessToken_eq_some {db : Db} {token : PyStr} {accessToken : AccessToken} :
    getAccessToken db token = some accessToken ↔ ∃ row, db.accessTokens.get token = some row ∧
      row.data = accessToken := by
  simp [getAccessToken]

@[simp] theorem getRefreshToken_eq_some {db : Db} {token : PyStr} {refreshToken : RefreshToken} :
    getRefreshToken db token = some refreshToken ↔ ∃ row, db.refreshTokens.get token = some row ∧
      row.data = refreshToken := by
  simp [getRefreshToken]

theorem mem_getPairedAccessTokens {db : Db} {access refresh : PyStr} :
    access ∈ getPairedAccessTokens db refresh ↔ (access, refresh) ∈ db.tokenPairs := by
  simp only [getPairedAccessTokens, List.mem_map, List.mem_filter, decide_eq_true_eq]
  constructor
  · rintro ⟨⟨a, r⟩, ⟨hmem, rfl⟩, rfl⟩
    exact hmem
  · intro h
    exact ⟨(access, refresh), ⟨h, rfl⟩, rfl⟩

theorem getPairedRefreshToken_mem {db : Db} {access refresh : PyStr}
    (h : getPairedRefreshToken db access = some refresh) : (access, refresh) ∈ db.tokenPairs := by
  obtain ⟨pair, hfind, rfl⟩ := Option.map_eq_some_iff.mp h
  have hmem := List.mem_of_find?_eq_some hfind
  have hkey : pair.1 = access := by simpa using List.find?_some hfind
  rw [← hkey]
  exact hmem

theorem getPairedRefreshToken_none {db : Db} {access : PyStr}
    (h : getPairedRefreshToken db access = none) (refresh : PyStr) :
    (access, refresh) ∉ db.tokenPairs := by
  intro hmem
  have hfind := List.find?_eq_none.mp (Option.map_eq_none_iff.mp h) _ hmem
  simp at hfind

theorem mem_deleteTokenPairByAccess {db : Db} {access : PyStr} {pair : PyStr × PyStr} :
    pair ∈ (deleteTokenPairByAccess db access).tokenPairs ↔
      pair ∈ db.tokenPairs ∧ pair.1 ≠ access := by
  simp [deleteTokenPairByAccess]

theorem mem_deleteTokenPairByRefresh {db : Db} {refresh : PyStr} {pair : PyStr × PyStr} :
    pair ∈ (deleteTokenPairByRefresh db refresh).tokenPairs ↔
      pair ∈ db.tokenPairs ∧ pair.2 ≠ refresh := by
  simp [deleteTokenPairByRefresh]

theorem foldl_deleteAccessToken_get (tokens : List PyStr) (db : Db) (token : PyStr) :
    (tokens.foldl deleteAccessToken db).accessTokens.get token =
      if token ∈ tokens then none else db.accessTokens.get token := by
  induction tokens generalizing db with
  | nil => simp
  | cons head rest ih =>
    simp only [List.foldl_cons, ih, List.mem_cons]
    by_cases hrest : token ∈ rest
    · simp [hrest]
    · by_cases hhead : token = head
      · simp [hhead, deleteAccessToken]
      · simp [hrest, hhead, deleteAccessToken, Table.get_erase]

theorem foldl_deleteAccessToken_frame (tokens : List PyStr) (db : Db) :
    (tokens.foldl deleteAccessToken db).authCodes = db.authCodes ∧
    (tokens.foldl deleteAccessToken db).refreshTokens = db.refreshTokens ∧
    (tokens.foldl deleteAccessToken db).tokenPairs = db.tokenPairs := by
  induction tokens generalizing db with
  | nil => simp
  | cons head rest ih => exact ih (deleteAccessToken db head)

theorem retire_accessTokens (db : Db) (oldStr token : PyStr) :
    (retireRefreshToken db oldStr).accessTokens.get token =
      if (token, oldStr) ∈ db.tokenPairs then none else db.accessTokens.get token := by
  simp only [retireRefreshToken, deleteRefreshToken, deleteTokenPairByRefresh,
    foldl_deleteAccessToken_get, mem_getPairedAccessTokens]

theorem retire_refreshTokens (db : Db) (oldStr : PyStr) :
    (retireRefreshToken db oldStr).refreshTokens = db.refreshTokens.erase oldStr := by
  simp only [retireRefreshToken, deleteRefreshToken, deleteTokenPairByRefresh,
    (foldl_deleteAccessToken_frame _ db).2.1]

theorem retire_tokenPairs (db : Db) (oldStr : PyStr) :
    (retireRefreshToken db oldStr).tokenPairs =
      db.tokenPairs.filter (fun pair => pair.2 ≠ oldStr) := by
  simp only [retireRefreshToken, deleteRefreshToken, deleteTokenPairByRefresh,
    (foldl_deleteAccessToken_frame _ db).2.2]

theorem retire_authCodes (db : Db) (oldStr : PyStr) :
    (retireRefreshToken db oldStr).authCodes = db.authCodes :=
  (foldl_deleteAccessToken_frame _ db).1

section Issue
variable (db : Db) (accessStr refreshStr : PyStr) (access : AccessToken) (refresh : RefreshToken)

theorem issued_accessTokens (token : PyStr) :
    (saveIssuedTokenPair db accessStr access refreshStr refresh).accessTokens.get token =
      if token = accessStr then some ⟨access, access.expiresAt⟩
      else db.accessTokens.get token :=
  Table.get_put _ _ _ _

theorem issued_refreshTokens (token : PyStr) :
    (saveIssuedTokenPair db accessStr access refreshStr refresh).refreshTokens.get token =
      if token = refreshStr then some ⟨refresh, refresh.expiresAt⟩
      else db.refreshTokens.get token :=
  Table.get_put _ _ _ _

@[simp] theorem issued_tokenPairs :
    (saveIssuedTokenPair db accessStr access refreshStr refresh).tokenPairs =
      db.tokenPairs ++ [(accessStr, refreshStr)] := rfl

@[simp] theorem issued_authCodes :
    (saveIssuedTokenPair db accessStr access refreshStr refresh).authCodes = db.authCodes := rfl

end Issue

section Cleanup
variable {db : Db} {now : Micros}

theorem cleanup_authCodes {code : PyStr} {row : Stored AuthorizationCode} :
    (cleanupExpired db now).1.authCodes.get code = some row ↔
      db.authCodes.get code = some row ∧
        (row.expiresAt.isNone || expired (toSecs now) row.expiresAt) = false := by
  simp [cleanupExpired, Table.get_deleteWhere, Option.filter_eq_some_iff]

theorem cleanup_refreshTokens {token : PyStr} {row : Stored RefreshToken} :
    (cleanupExpired db now).1.refreshTokens.get token = some row ↔
      db.refreshTokens.get token = some row ∧ expired (toSecs now) row.expiresAt = false := by
  simp [cleanupExpired, Table.get_deleteWhere, Option.filter_eq_some_iff]

theorem mem_expiredKeys {α : Type} {t : Table PyStr (Stored α)} {instant : Secs} {key : PyStr} :
    key ∈ t.keysWhere (fun _ row => expired instant row.expiresAt) ↔
      (t.get key).any (fun row => expired instant row.expiresAt) = true := by
  rw [Table.mem_keysWhere, Option.any_eq_true]

/-- A pair row goes exactly when a stored member of it is past its expiry. -/
def pairExpired (db : Db) (now : Micros) (pair : PyStr × PyStr) : Bool :=
  (db.accessTokens.get pair.1).any (fun row => expired (toSecs now) row.expiresAt) ||
    (db.refreshTokens.get pair.2).any (fun row => expired (toSecs now) row.expiresAt)

theorem cleanup_tokenPairs :
    (cleanupExpired db now).1.tokenPairs =
      db.tokenPairs.filter (fun pair => !pairExpired db now pair) := by
  simp only [cleanupExpired, List.filter_filter, mem_expiredKeys]
  refine List.filter_congr ?_
  intro pair _
  simp [pairExpired, Bool.and_comm]

theorem cleanup_accessTokens {token : PyStr} {row : Stored AccessToken} :
    (cleanupExpired db now).1.accessTokens.get token = some row ↔
      db.accessTokens.get token = some row ∧ expired (toSecs now) row.expiresAt = false ∧
        ∀ refresh, (token, refresh) ∈ db.tokenPairs →
          ∀ refreshRow, db.refreshTokens.get refresh = some refreshRow →
            expired (toSecs now) refreshRow.expiresAt = false := by
  simp only [cleanupExpired, Table.get_deleteWhere, Option.filter_eq_some_iff, List.mem_map,
    List.mem_filter, mem_expiredKeys, decide_eq_true_eq, Bool.not_eq_true',
    decide_eq_false_iff_not, and_assoc]
  constructor
  · rintro ⟨hrow, hlive, horphan⟩
    refine ⟨hrow, hlive, ?_⟩
    intro refresh hpair refreshRow hrefresh
    by_contra hexp
    have hkeep : ¬ (db.accessTokens.get token).any
        (fun row => expired (toSecs now) row.expiresAt) = true := by simp [hrow, hlive]
    have hdrop : (db.refreshTokens.get refresh).any
        (fun row => expired (toSecs now) row.expiresAt) = true := by simpa [hrefresh] using hexp
    exact horphan ⟨(token, refresh), hpair, hkeep, hdrop, rfl⟩
  · rintro ⟨hrow, hlive, hpairs⟩
    refine ⟨hrow, hlive, ?_⟩
    rintro ⟨⟨a, refresh⟩, hpair, _, hexp, rfl⟩
    obtain ⟨refreshRow, hrefresh, hexp⟩ := (Option.any_eq_true _ _).mp hexp
    rw [hpairs refresh hpair refreshRow hrefresh] at hexp
    cases hexp

end Cleanup

end OAuthStorage
