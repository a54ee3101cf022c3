import Gubbi.OAuth.Provider

/-!
# Token pairs of a sequential session

Provider methods run one after another, each at a time of its own choosing.
The rows that the load methods and cleanup remove leave the pair table in step:
a removing method only shrinks the tables, and it never takes the pair row of
an access token that stays.
-/

namespace Pairing

open Text OAuthStorage OAuthProvider

/-- The store together with the pairs of strings issued so far. -/
structure Session where
  db : Db
  issued : List (PyStr × PyStr)

def start : Session := ⟨emptyDb, []⟩

inductive Operation
  | saveAuthCode (authCode : AuthorizationCode)
  | loadAuthorizationCode (client : Client) (code : PyStr) (now : Micros)
  | exchangeAuthorizationCode (client : Client) (authCode : AuthorizationCode) (now : Micros)
      (accessStr refreshStr : PyStr)
  | loadRefreshToken (client : Client) (token : PyStr) (now : Micros)
  | exchangeRefreshToken (client : Client) (token : RefreshToken) (scopes : List PyStr)
      (now : Micros) (accessStr refreshStr : PyStr)
  | loadAccessToken (token : PyStr) (now : Micros)
  | revokeAccessToken (token : AccessToken)
  | revokeRefreshToken (token : RefreshToken)
  | cleanupExpired (now : Micros)

/-- Neither string was issued before in its role, and the refresh token is not empty. -/
def Fresh (issued : List (PyStr × PyStr)) (accessStr refreshStr : PyStr) : Prop :=
  accessStr ∉ issued.map Prod.fst ∧ refreshStr ∉ issued.map Prod.snd ∧ refreshStr ≠ []

instance (issued : List (PyStr × PyStr)) (accessStr refreshStr : PyStr) :
    Decidable (Fresh issued accessStr refreshStr) :=
  inferInstanceAs (Decidable (_ ∧ _ ∧ _))

/-- One method call; an exchange is enabled with fresh strings only. -/
def perform (s : Session) : Operation → Option Session
  | .saveAuthCode authCode => some { s with db := saveAuthCode s.db authCode.code authCode }
  | .loadAuthorizationCode client code now =>
    some { s with db := (loadAuthorizationCode s.db client code now).1 }
  | .exchangeAuthorizationCode client authCode now accessStr refreshStr =>
    if Fresh s.issued accessStr refreshStr then
      some ⟨(exchangeAuthorizationCode s.db client authCode now accessStr refreshStr).1,
        (accessStr, refreshStr) :: s.issued⟩
    else none
  | .loadRefreshToken client token now =>
    some { s with db := (loadRefreshToken s.db client token now).1 }
  | .exchangeRefreshToken client token scopes now accessStr refreshStr =>
    if Fresh s.issued accessStr refreshStr then
      some ⟨(exchangeRefreshToken s.db client token scopes now accessStr refreshStr).1,
        (accessStr, refreshStr) :: s.issued⟩
    else none
  | .loadAccessToken token now => some { s with db := (loadAccessToken s.db token now).1 }
  | .revokeAccessToken token => some { s with db := revokeAccessToken s.db token }
  | .revokeRefreshToken token => some { s with db := revokeRefreshToken s.db token }
  | .cleanupExpired now => some { s with db := (cleanupExpired s.db now).1 }

/-- `after` has lost rows only, and no stored access token has lost its pair rows. -/
structure Shrinks (before after : Db) : Prop where
  authCodes : ∀ code row, after.authCodes.get code = some row →
    before.authCodes.get code = some row
  accessTokens : ∀ token row, after.accessTokens.get token = some row →
    before.accessTokens.get token = some row ∧
      ∀ refresh, (token, refresh) ∈ before.tokenPairs → (token, refresh) ∈ after.tokenPairs
  refreshTokens : ∀ token row, after.refreshTokens.get token = some row →
    before.refreshTokens.get token = some row
  tokenPairs : List.Sublist after.tokenPairs before.tokenPairs

theorem Shrinks.refl (db : Db) : Shrinks db db where
  authCodes := fun _ _ h => h
  accessTokens := fun _ _ h => ⟨h, fun _ hp => hp⟩
  refreshTokens := fun _ _ h => h
  tokenPairs := List.Sublist.refl _

theorem Shrinks.trans {first second third : Db} (one : Shrinks first second)
    (two : Shrinks second third) : Shrinks first third where
  authCodes := fun code row h => one.authCodes code row (two.authCodes code row h)
  accessTokens := by
    intro token row h
    obtain ⟨hmid, keepTwo⟩ := two.accessTokens token row h
    obtain ⟨hfirst, keepOne⟩ := one.accessTokens token row hmid
    exact ⟨hfirst, fun refresh hp => keepTwo refresh (keepOne refresh hp)⟩
  refreshTokens := fun token row h => one.refreshTokens token row (two.refreshTokens token row h)
  tokenPairs := two.tokenPairs.trans one.tokenPairs

theorem deleteAuthCode_shrinks (db : Db) (code : PyStr) : Shrinks db (deleteAuthCode db code) :=
  { Shrinks.refl db with authCodes := fun _ _ h => (Table.get_erase_eq_some h).2 }

theorem deleteAccessToken_shrinks (db : Db) (token : PyStr) :
    Shrinks db (deleteAccessToken db token) :=
  { Shrinks.refl db with
    accessTokens := fun _ _ h => ⟨(Table.get_erase_eq_some h).2, fun _ hp => hp⟩ }

theorem deleteRefreshToken_shrinks (db : Db) (token : PyStr) :
    Shrinks db (deleteRefreshToken db token) :=
  { Shrinks.refl db with refreshTokens := fun _ _ h => (Table.get_erase_eq_some h).2 }

theorem loadAuthorizationCode_shrinks (db : Db) (client : Client) (code : PyStr) (now : Micros) :
    Shrinks db (loadAuthorizationCode db client code now).1 := by
  unfold loadAuthorizationCode
  split
  · exact Shrinks.refl db
  · exact deleteAuthCode_shrinks db code
  · exact Shrinks.refl db
  · exact Shrinks.refl db

theorem loadRefreshToken_shrinks (db : Db) (client : Client) (token : PyStr) (now : Micros) :
    Shrinks db (loadRefreshToken db client token now).1 := by
  unfold loadRefreshToken
  split
  · exact Shrinks.refl db
  · exact deleteRefreshToken_shrinks db token
  · exact Shrinks.refl db
  · exact Shrinks.refl db

theorem loadAccessToken_shrinks (db : Db) (token : PyStr) (now : Micros) :
    Shrinks db (loadAccessToken db token now).1 := by
  unfold loadAccessToken
  split
  · exact Shrinks.refl db
  · exact deleteAccessToken_shrinks db token
  · exact Shrinks.refl db
  · exact Shrinks.refl db

/-- The token goes before its pair rows, so no stored token is left without one. -/
theorem unpairAccess_shrinks (db : Db) (token : PyStr) :
    Shrinks db (deleteTokenPairByAccess (deleteAccessToken db token) token) where
  authCodes := fun _ _ h => h
  accessTokens := by
    intro key row h
    obtain ⟨hne, hget⟩ := Table.get_erase_eq_some h
    refine ⟨hget, ?_⟩
    intro refresh hp
    exact mem_deleteTokenPairByAccess.mpr ⟨hp, hne⟩
  refreshTokens := fun _ _ h => h
  tokenPairs := List.filter_sublist

theorem deletePairedRefresh_shrinks (db : Db) (paired : Option PyStr) :
    Shrinks db (deletePairedRefresh db paired) := by
  unfold deletePairedRefresh
  split
  · exact Shrinks.refl db
  · split
    · exact Shrinks.refl db
    · exact deleteRefreshToken_shrinks _ _

theorem revokeAccessToken_shrinks (db : Db) (token : AccessToken) :
    Shrinks db (revokeAccessToken db token) :=
  (unpairAccess_shrinks db token.token).trans (deletePairedRefresh_shrinks _ _)

theorem retireRefreshToken_shrinks (db : Db) (oldStr : PyStr) :
    Shrinks db (retireRefreshToken db oldStr) where
  authCodes := by
    intro code row h
    rwa [retire_authCodes] at h
  accessTokens := by
    intro token row h
    rw [retire_accessTokens] at h
    by_cases hpair : (token, oldStr) ∈ db.tokenPairs
    · simp [hpair] at h
    · refine ⟨by simpa [hpair] using h, ?_⟩
      intro refresh hp
      have hne : refresh ≠ oldStr := fun heq => hpair (heq ▸ hp)
      simpa [retire_tokenPairs, hne] using hp
  refreshTokens := by
    intro token row h
    rw [retire_refreshTokens] at h
    exact (Table.get_erase_eq_some h).2
  tokenPairs := by
    rw [retire_tokenPairs]
    exact List.filter_sublist

/-- The revocation of a refresh token deletes what a rotation retires, in another order. -/
theorem revokeRefreshToken_get (db : Db) (token : RefreshToken) :
    (∀ key, (revokeRefreshToken db token).accessTokens.get key =
      (retireRefreshToken db token.token).accessTokens.get key) ∧
    (revokeRefreshToken db token).authCodes = (retireRefreshToken db token.token).authCodes ∧
    (revokeRefreshToken db token).refreshTokens =
      (retireRefreshToken db token.token).refreshTokens ∧
    (revokeRefreshToken db token).tokenPairs =
      (retireRefreshToken db token.token).tokenPairs := by
  refine ⟨?_, ?_, ?_, ?_⟩
  · intro key
    rw [retire_accessTokens]
    simp only [revokeRefreshToken, foldl_deleteAccessToken_get, mem_getPairedAccessTokens,
      deleteRefreshToken, deleteTokenPairByRefresh]
  · rw [retire_authCodes]
    exact (foldl_deleteAccessToken_frame _ _).1
  · rw [retire_refreshTokens]
    exact (foldl_deleteAccessToken_frame _ _).2.1
  · rw [retire_tokenPairs]
    exact (foldl_deleteAccessToken_frame _ _).2.2

theorem revokeRefreshToken_shrinks (db : Db) (token : RefreshToken) :
    Shrinks db (revokeRefreshToken db token) := by
  obtain ⟨hAccess, hCodes, hRefresh, hPairs⟩ := revokeRefreshToken_get db token
  have retired := retireRefreshToken_shrinks db token.token
  refine ⟨?_, ?_, ?_, ?_⟩
  · rw [hCodes]
    exact retired.authCodes
  · rw [hPairs]
    intro key row h
    rw [hAccess] at h
    exact retired.accessTokens key row h
  · rw [hRefresh]
    exact retired.refreshTokens
  · rw [hPairs]
    exact retired.tokenPairs

theorem not_expired_of_stored {db : Db} {now : Micros} {token : PyStr} {row : Stored AccessToken}
    (stored : (cleanupExpired db now).1.accessTokens.get token = some row) {refresh : PyStr}
    (pair : (token, refresh) ∈ db.tokenPairs) : pairExpired db now (token, refresh) = false := by
  obtain ⟨hrow, hlive, hpairs⟩ := cleanup_accessTokens.mp stored
  have hrefresh : (db.refreshTokens.get refresh).any
      (fun row => expired (toSecs now) row.expiresAt) = false := by
    cases h : db.refreshTokens.get refresh with
    | none => rfl
    | some refreshRow => simpa using hpairs refresh pair refreshRow h
  simp [pairExpired, hrow, hlive, hrefresh]

theorem cleanupExpired_shrinks (db : Db) (now : Micros) :
    Shrinks db (cleanupExpired db now).1 where
  authCodes := fun _ _ h => (cleanup_authCodes.mp h).1
  accessTokens := by
    intro token row h
    refine ⟨(cleanup_accessTokens.mp h).1, ?_⟩
    intro refresh hp
    rw [cleanup_tokenPairs, List.mem_filter]
    exact ⟨hp, by simp [not_expired_of_stored h hp]⟩
  refreshTokens := fun _ _ h => (cleanup_refreshTokens.mp h).1
  tokenPairs := by
    rw [cleanup_tokenPairs]
    exact List.filter_sublist

/-- Every stored access token has one pair row, the columns agree with the
blobs, and a pair row records an issue. -/
structure Paired (s : Session) : Prop where
  accessOnce : (s.issued.map Prod.fst).Nodup
  refreshOnce : (s.issued.map Prod.snd).Nodup
  nonempty : ∀ pair ∈ s.issued, pair.2 ≠ []
  rows : (s.db.tokenPairs.map Prod.fst).Nodup
  recorded : ∀ pair ∈ s.db.tokenPairs, pair ∈ s.issued
  authCodes : ∀ code row, s.db.authCodes.get code = some row →
    row.expiresAt = some (toSecs row.data.expiresAt)
  accessTokens : ∀ token row, s.db.accessTokens.get token = some row →
    row.expiresAt = row.data.expiresAt ∧ ∃ refresh, (token, refresh) ∈ s.db.tokenPairs
  refreshTokens : ∀ token row, s.db.refreshTokens.get token = some row →
    row.expiresAt = row.data.expiresAt

theorem start_paired : Paired start where
  accessOnce := List.nodup_nil
  refreshOnce := List.nodup_nil
  nonempty := by simp [start]
  rows := List.nodup_nil
  recorded := by simp [start, emptyDb]
  authCodes := by simp [start, emptyDb]
  accessTokens := by simp [start, emptyDb]
  refreshTokens := by simp [start, emptyDb]

theorem Paired.shrink {s : Session} (paired : Paired s) {db : Db} (shrinks : Shrinks s.db db) :
    Paired { s with db := db } where
  accessOnce := paired.accessOnce
  refreshOnce := paired.refreshOnce
  nonempty := paired.nonempty
  rows := (shrinks.tokenPairs.map Prod.fst).nodup paired.rows
  recorded := fun pair hp => paired.recorded pair (shrinks.tokenPairs.subset hp)
  authCodes := fun code row h => paired.authCodes code row (shrinks.authCodes code row h)
  accessTokens := by
    intro token row h
    obtain ⟨hbefore, keeps⟩ := shrinks.accessTokens token row h
    obtain ⟨hcolumn, refresh, hp⟩ := paired.accessTokens token row hbefore
    exact ⟨hcolumn, refresh, keeps refresh hp⟩
  refreshTokens := fun token row h =>
    paired.refreshTokens token row (shrinks.refreshTokens token row h)

theorem Paired.saveAuthCode {s : Session} (paired : Paired s) (authCode : AuthorizationCode) :
    Paired { s with db := saveAuthCode s.db authCode.code authCode } :=
  { paired with
    authCodes := by
      intro code row h
      simp only [OAuthStorage.saveAuthCode, Table.get_put] at h
      by_cases hcode : code = authCode.code
      · simp only [hcode, if_true, Option.some.injEq] at h
        rw [← h]
      · simp only [hcode, if_false] at h
        exact paired.authCodes code row h }

/-- Issuing a pair of fresh strings keeps the invariant. -/
theorem Paired.issue {s : Session} (paired : Paired s) {accessStr refreshStr : PyStr}
    (fresh : Fresh s.issued accessStr refreshStr) (access : AccessToken) (refresh : RefreshToken) :
    Paired ⟨saveIssuedTokenPair s.db accessStr access refreshStr refresh,
      (accessStr, refreshStr) :: s.issued⟩ where
  accessOnce := List.nodup_cons.mpr ⟨fresh.1, paired.accessOnce⟩
  refreshOnce := List.nodup_cons.mpr ⟨fresh.2.1, paired.refreshOnce⟩
  nonempty := by
    intro pair hp
    rcases List.mem_cons.mp hp with rfl | hp
    · exact fresh.2.2
    · exact paired.nonempty pair hp
  rows := by
    have absent : accessStr ∉ s.db.tokenPairs.map Prod.fst := by
      intro h
      obtain ⟨pair, hp, heq⟩ := List.mem_map.mp h
      exact fresh.1 (List.mem_map.mpr ⟨pair, paired.recorded pair hp, heq⟩)
    rw [issued_tokenPairs, List.map_append, List.nodup_append]
    refine ⟨paired.rows, by simp, ?_⟩
    intro a ha b hb
    simp only [List.map_cons, List.map_nil, List.mem_singleton] at hb
    rintro rfl
    exact absent (hb ▸ ha)
  recorded := by
    intro pair hp
    rw [issued_tokenPairs, List.mem_append, List.mem_singleton] at hp
    rcases hp with hp | rfl
    · exact List.mem_cons_of_mem _ (paired.recorded pair hp)
    · exact List.mem_cons_self
  authCodes := paired.authCodes
  accessTokens := by
    intro token row h
    rw [issued_accessTokens] at h
    simp only [issued_tokenPairs, List.mem_append]
    by_cases htoken : token = accessStr
    · subst htoken
      simp only [if_true, Option.some.injEq] at h
      exact ⟨by rw [← h], refreshStr, Or.inr (by simp)⟩
    · simp only [htoken, if_false] at h
      obtain ⟨hcolumn, refresh, hp⟩ := paired.accessTokens token row h
      exact ⟨hcolumn, refresh, Or.inl hp⟩
  refreshTokens := by
    intro token row h
    rw [issued_refreshTokens] at h
    by_cases htoken : token = refreshStr
    · simp only [htoken, if_true, Option.some.injEq] at h
      rw [← h]
    · simp only [htoken, if_false] at h
      exact paired.refreshTokens token row h

theorem perform_paired (s : Session) (op : Operation) (t : Session) (paired : Paired s)
    (performed : perform s op = some t) : Paired t := by
  cases op with
  | saveAuthCode authCode =>
    cases performed
    exact paired.saveAuthCode authCode
  | loadAuthorizationCode client code now =>
    cases performed
    exact paired.shrink (loadAuthorizationCode_shrinks _ _ _ _)
  | exchangeAuthorizationCode client authCode now accessStr refreshStr =>
    simp only [perform] at performed
    split at performed
    · next fresh =>
      cases performed
      exact (paired.shrink (deleteAuthCode_shrinks s.db authCode.code)).issue fresh _ _
    · cases performed
  | loadRefreshToken client token now =>
    cases performed
    exact paired.shrink (loadRefreshToken_shrinks _ _ _ _)
  | exchangeRefreshToken client token scopes now accessStr refreshStr =>
    simp only [perform] at performed
    split at performed
    · next fresh =>
      cases performed
      exact (paired.shrink (retireRefreshToken_shrinks s.db token.token)).issue fresh _ _
    · cases performed
  | loadAccessToken token now =>
    cases performed
    exact paired.shrink (loadAccessToken_shrinks _ _ _)
  | revokeAccessToken token =>
    cases performed
    exact paired.shrink (revokeAccessToken_shrinks _ _)
  | revokeRefreshToken token =>
    cases performed
    exact paired.shrink (revokeRefreshToken_shrinks _ _)
  | cleanupExpired now =>
    cases performed
    exact paired.shrink (cleanupExpired_shrinks _ _)

theorem run_paired {ops : List Operation} {s : Session}
    (ran : Replay.run perform start ops = some s) : Paired s :=
  Replay.run_invariant' perform_paired start_paired ran

/-- No load returns the access token and no load returns the refresh token, at any time. -/
def Dead (db : Db) (accessStr refreshStr : PyStr) : Prop :=
  ∀ client now, (loadAccessToken db accessStr now).2 = none ∧
    (loadRefreshToken db client refreshStr now).2 = .ok none

theorem dead_of_absent {db : Db} {accessStr refreshStr : PyStr}
    (access : db.accessTokens.get accessStr = none)
    (refresh : db.refreshTokens.get refreshStr = none) : Dead db accessStr refreshStr :=
  fun _ _ => ⟨loadAccessToken_absent access, loadRefreshToken_absent refresh⟩

theorem pair_eq_of_fst {pairs : List (PyStr × PyStr)} (nodup : (pairs.map Prod.fst).Nodup)
    {access one two : PyStr} (hone : (access, one) ∈ pairs) (htwo : (access, two) ∈ pairs) :
    one = two :=
  congrArg Prod.snd (List.inj_on_of_nodup_map nodup hone htwo rfl)

theorem filter_fst_eq {pairs : List (PyStr × PyStr)} (nodup : (pairs.map Prod.fst).Nodup)
    {access refresh : PyStr} (mem : (access, refresh) ∈ pairs) :
    pairs.filter (fun pair => pair.1 = access) = [(access, refresh)] := by
  induction pairs with
  | nil => cases mem
  | cons head rest ih =>
    obtain ⟨hnot, htail⟩ := List.nodup_cons.mp nodup
    by_cases hkey : head.1 = access
    · have hhead : head = (access, refresh) := by
        rcases List.mem_cons.mp mem with h | h
        · exact h.symm
        · exact False.elim (hnot (List.mem_map.mpr ⟨_, h, hkey.symm⟩))
      have hrest : rest.filter (fun pair => pair.1 = access) = [] := by
        refine List.filter_eq_nil_iff.mpr ?_
        intro pair hp
        have hne : pair.1 ≠ access := fun h =>
          hnot (List.mem_map.mpr ⟨pair, hp, h.trans hkey.symm⟩)
        simpa using hne
      rw [List.filter_cons_of_pos (by simpa using hkey), hrest, hhead]
    · have hmem : (access, refresh) ∈ rest := by
        rcases List.mem_cons.mp mem with h | h
        · exact False.elim (hkey (by rw [← h]))
        · exact h
      rw [List.filter_cons_of_neg (by simpa using hkey)]
      exact ih htail hmem

theorem Paired.pairRow {s : Session} (paired : Paired s) {token : PyStr}
    {row : Stored AccessToken} (stored : s.db.accessTokens.get token = some row) :
    ∃ refresh, s.db.tokenPairs.filter (fun pair => pair.1 = token) = [(token, refresh)] ∧
      ∀ other, (token, other) ∈ s.issued ↔ other = refresh := by
  obtain ⟨_, refresh, hp⟩ := paired.accessTokens token row stored
  refine ⟨refresh, filter_fst_eq paired.rows hp, ?_⟩
  intro other
  constructor
  · intro h
    exact pair_eq_of_fst paired.accessOnce h (paired.recorded _ hp)
  · rintro rfl
    exact paired.recorded _ hp

theorem Paired.getPairedRefreshToken {s : Session} (paired : Paired s) {token refresh : PyStr}
    (pair : (token, refresh) ∈ s.db.tokenPairs) :
    getPairedRefreshToken s.db token = some refresh := by
  cases h : OAuthStorage.getPairedRefreshToken s.db token with
  | none => exact False.elim (getPairedRefreshToken_none h refresh pair)
  | some other => rw [pair_eq_of_fst paired.rows (getPairedRefreshToken_mem h) pair]

theorem Paired.revokeAccessToken_dead {s : Session} (paired : Paired s) {token : AccessToken}
    {refresh : PyStr} (pair : (token.token, refresh) ∈ s.db.tokenPairs) :
    Dead (revokeAccessToken s.db token) token.token refresh := by
  have hread := paired.getPairedRefreshToken pair
  have hne : refresh.isEmpty = false := by
    simpa using paired.nonempty _ (paired.recorded _ pair)
  refine dead_of_absent ?_ ?_
  · simp [revokeAccessToken, hread, hne, deletePairedRefresh, deleteRefreshToken,
      deleteTokenPairByAccess, deleteAccessToken]
  · simp [revokeAccessToken, hread, hne, deletePairedRefresh, deleteRefreshToken]

theorem Paired.retired_access {s : Session} (paired : Paired s) {access refresh : PyStr}
    (issued : (access, refresh) ∈ s.issued) :
    (retireRefreshToken s.db refresh).accessTokens.get access = none := by
  rw [retire_accessTokens]
  by_cases hpair : (access, refresh) ∈ s.db.tokenPairs
  · simp [hpair]
  · -- An access token that is still stored would have the pair row it was issued with.
    cases hrow : s.db.accessTokens.get access with
    | none => simp
    | some row =>
      obtain ⟨_, other, hp⟩ := paired.accessTokens access row hrow
      have hsame := pair_eq_of_fst paired.accessOnce issued (paired.recorded _ hp)
      exact False.elim (hpair (hsame ▸ hp))

theorem Paired.revokeRefreshToken_dead {s : Session} (paired : Paired s) {token : RefreshToken}
    {access : PyStr} (issued : (access, token.token) ∈ s.issued) :
    Dead (revokeRefreshToken s.db token) access token.token := by
  obtain ⟨hAccess, _, hRefresh, _⟩ := revokeRefreshToken_get s.db token
  refine dead_of_absent ?_ ?_
  · rw [hAccess, paired.retired_access issued]
  · rw [hRefresh, retire_refreshTokens, Table.get_erase_self]

/-- Rotation leaves neither old member, because the new strings are fresh. -/
theorem Paired.exchangeRefreshToken_dead {s : Session} (paired : Paired s)
    {token : RefreshToken} {access accessStr refreshStr : PyStr}
    (issued : (access, token.token) ∈ s.issued) (fresh : Fresh s.issued accessStr refreshStr)
    (client : Client) (scopes : List PyStr) (now : Micros) :
    Dead (exchangeRefreshToken s.db client token scopes now accessStr refreshStr).1
      access token.token := by
  have hAccess : access ≠ accessStr := fun h =>
    fresh.1 (h ▸ List.mem_map.mpr ⟨_, issued, rfl⟩)
  have hRefresh : token.token ≠ refreshStr := fun h =>
    fresh.2.1 (h ▸ List.mem_map.mpr ⟨_, issued, rfl⟩)
  simp only [exchangeRefreshToken, rotateRefreshToken]
  refine dead_of_absent ?_ ?_
  · rw [issued_accessTokens, if_neg hAccess, paired.retired_access issued]
  · rw [issued_refreshTokens, if_neg hRefresh, retire_refreshTokens, Table.get_erase_self]

theorem Paired.cleanup_refreshToken {s : Session} (paired : Paired s) {token : PyStr}
    {row : Stored RefreshToken} (stored : s.db.refreshTokens.get token = some row) {now : Micros}
    (live : expired (toSecs now) row.data.expiresAt = false) :
    (cleanupExpired s.db now).1.refreshTokens.get token = some row :=
  cleanup_refreshTokens.mpr ⟨stored, by rwa [paired.refreshTokens token row stored]⟩

theorem Paired.cleanup_authCode {s : Session} (paired : Paired s) {code : PyStr}
    {row : Stored AuthorizationCode} (stored : s.db.authCodes.get code = some row) {now : Micros}
    (live : now ≤ row.data.expiresAt) :
    (cleanupExpired s.db now).1.authCodes.get code = some row := by
  refine cleanup_authCodes.mpr ⟨stored, ?_⟩
  have later : toSecs now ≤ toSecs row.data.expiresAt := Nat.div_le_div_right live
  simpa [paired.authCodes code row stored, expired] using later

theorem Paired.cleanup_accessToken {s : Session} (paired : Paired s) {token : PyStr}
    {row : Stored AccessToken} (stored : s.db.accessTokens.get token = some row) {now : Micros}
    (live : expired (toSecs now) row.data.expiresAt = false)
    (partner : ∀ refresh, (token, refresh) ∈ s.db.tokenPairs →
      ∀ refreshRow, s.db.refreshTokens.get refresh = some refreshRow →
        expired (toSecs now) refreshRow.data.expiresAt = false) :
    (cleanupExpired s.db now).1.accessTokens.get token = some row := by
  refine cleanup_accessTokens.mpr ⟨stored, ?_, ?_⟩
  · rwa [(paired.accessTokens token row stored).1]
  · intro refresh hp refreshRow hrow
    rw [paired.refreshTokens refresh refreshRow hrow]
    exact partner refresh hp refreshRow hrow

/-- The token pairing invariant with its consequences, after every sequence of
method calls from the empty store. -/
theorem session_pairing {ops : List Operation} {s : Session}
    (ran : Replay.run perform start ops = some s) :
    (∀ token row, s.db.accessTokens.get token = some row →
      ∃ refresh, s.db.tokenPairs.filter (fun pair => pair.1 = token) = [(token, refresh)] ∧
        ∀ other, (token, other) ∈ s.issued ↔ other = refresh) ∧
    (∀ token refresh, (AccessToken.token token, refresh) ∈ s.db.tokenPairs →
      Dead (revokeAccessToken s.db token) token.token refresh) ∧
    (∀ access token, (access, RefreshToken.token token) ∈ s.issued →
      Dead (revokeRefreshToken s.db token) access token.token) ∧
    (∀ access token, (access, RefreshToken.token token) ∈ s.issued →
      ∀ client scopes now accessStr refreshStr, Fresh s.issued accessStr refreshStr →
        Dead (exchangeRefreshToken s.db client token scopes now accessStr refreshStr).1
          access token.token) ∧
    (∀ now token row, s.db.refreshTokens.get token = some row →
      expired (toSecs now) row.data.expiresAt = false →
        (cleanupExpired s.db now).1.refreshTokens.get token = some row) ∧
    (∀ now code row, s.db.authCodes.get code = some row → now ≤ row.data.expiresAt →
      (cleanupExpired s.db now).1.authCodes.get code = some row) ∧
    (∀ now token row, s.db.accessTokens.get token = some row →
      expired (toSecs now) row.data.expiresAt = false →
      (∀ refresh, (token, refresh) ∈ s.db.tokenPairs →
        ∀ refreshRow, s.db.refreshTokens.get refresh = some refreshRow →
          expired (toSecs now) refreshRow.data.expiresAt = false) →
        (cleanupExpired s.db now).1.accessTokens.get token = some row) := by
  have paired := run_paired ran
  refine ⟨?_, ?_, ?_, ?_, ?_, ?_, ?_⟩
  · intro token row stored
    exact paired.pairRow stored
  · intro token refresh pair
    exact paired.revokeAccessToken_dead pair
  · intro access token issued
    exact paired.revokeRefreshToken_dead issued
  · intro access token issued client scopes now accessStr refreshStr fresh
    exact paired.exchangeRefreshToken_dead issued fresh client scopes now
  · intro now token row stored live
    exact paired.cleanup_refreshToken stored live
  · intro now code row stored live
    exact paired.cleanup_authCode stored live
  · intro now token row stored live partner
    exact paired.cleanup_accessToken stored live partner

def demoClient : Client := ⟨some (py "app")⟩

def demoCode : AuthorizationCode where
  code := py "code"
  scopes := [py "journal"]
  expiresAt := 300000000
  clientId := py "app"
  codeChallenge := py "challenge"
  redirectUri := py "https://app/callback"
  redirectUriProvidedExplicitly := true
  resource := none

/-- Log in, redeem the code, and clean up two hours later. -/
def demoOps : List Operation :=
  [.saveAuthCode demoCode,
   .exchangeAuthorizationCode demoClient demoCode 1000000 (py "a1") (py "r1"),
   .cleanupExpired 7200000000]

theorem session_pairing_demo : ∃ s, Replay.run perform start demoOps = some s ∧
    (py "a1", py "r1") ∈ s.issued ∧
    Dead (revokeRefreshToken s.db (newRefreshToken (py "r1") (py "app") [] 0))
      (py "a1") (py "r1") := by
  refine ⟨_, rfl, by decide, ?_⟩
  exact (@session_pairing demoOps _ rfl).2.2.1 (py "a1") _ (by decide)

end Pairing
