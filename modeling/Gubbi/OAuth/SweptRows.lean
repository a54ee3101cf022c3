import Gubbi.Library.Simulation
import Gubbi.OAuth.Revocation

/-!
# The rows that cleanup takes

`cleanup_expired` deletes expired rows, and the pair rows of the tokens that it takes. A
database that is cleaned up now and then is compared with one that never is: what the first
one lacks has expired, or is a pair row of an access token that it lacks. The statements of
the storage keep the two so.
-/

namespace OAuthRequests

open Text OAuthStorage OAuthProvider Pairing

theorem expired_later {now later : Micros} (le : now ≤ later) {expiresAt : Option Secs}
    (past : expired (toSecs now) expiresAt = true) :
    expired (toSecs later) expiresAt = true := by
  have seconds : toSecs now ≤ toSecs later := Nat.div_le_div_right le
  cases expiresAt with
  | none => cases past
  | some deadline =>
    simp only [expired, decide_eq_true_eq] at past ⊢
    exact Nat.lt_of_lt_of_le past seconds

/-- The first table is the second one without some rows that have expired. -/
structure Swept {α : Type} (now : Micros) (swept kept : Table PyStr (Stored α)) : Prop where
  subset : ∀ key row, swept.get key = some row → kept.get key = some row
  lost : ∀ key row, kept.get key = some row → swept.get key = none →
    expired (toSecs now) row.expiresAt = true

section Swept
variable {α : Type} {now : Micros} {swept kept : Table PyStr (Stored α)}

theorem Swept.refl (t : Table PyStr (Stored α)) : Swept now t t where
  subset := fun _ _ stored => stored
  lost := fun key row stored absent => by
    rw [stored] at absent
    cases absent

theorem Swept.later (sweeps : Swept now swept kept) {later : Micros} (le : now ≤ later) :
    Swept later swept kept where
  subset := sweeps.subset
  lost := fun key row stored absent => expired_later le (sweeps.lost key row stored absent)

theorem Swept.put (sweeps : Swept now swept kept) (key : PyStr) (row : Stored α) :
    Swept now (swept.put key row) (kept.put key row) where
  subset := by
    intro other found stored
    rw [Table.get_put] at stored ⊢
    split at stored
    · next same => rw [if_pos same, stored]
    · next differs => rw [if_neg differs, sweeps.subset other found stored]
  lost := by
    intro other found stored absent
    rw [Table.get_put] at stored absent
    split at absent
    · cases absent
    · next differs =>
      rw [if_neg differs] at stored
      exact sweeps.lost other found stored absent

theorem Swept.erase (sweeps : Swept now swept kept) (key : PyStr) :
    Swept now (swept.erase key) (kept.erase key) where
  subset := by
    intro other found stored
    obtain ⟨differs, stored⟩ := Table.get_erase_eq_some stored
    rw [Table.get_erase, if_neg differs, sweeps.subset other found stored]
  lost := by
    intro other found stored absent
    obtain ⟨differs, stored⟩ := Table.get_erase_eq_some stored
    rw [Table.get_erase, if_neg differs] at absent
    exact sweeps.lost other found stored absent

/-- The second table deletes a row that the first one has lost. -/
theorem Swept.eraseKept (sweeps : Swept now swept kept) {key : PyStr}
    (absent : swept.get key = none) : Swept now swept (kept.erase key) where
  subset := by
    intro other found stored
    have differs : other ≠ key := by
      rintro rfl
      rw [absent] at stored
      cases stored
    rw [Table.get_erase, if_neg differs, sweeps.subset other found stored]
  lost := fun other found stored =>
    sweeps.lost other found (Table.get_erase_eq_some stored).2

/-- The first table loses further rows that have expired. -/
theorem Swept.sweep (sweeps : Swept now swept kept) {less : Table PyStr (Stored α)}
    (subset : ∀ key row, less.get key = some row → swept.get key = some row)
    (lost : ∀ key row, swept.get key = some row → less.get key = none →
      expired (toSecs now) row.expiresAt = true) : Swept now less kept where
  subset := fun key row stored => sweeps.subset key row (subset key row stored)
  lost := by
    intro key row stored absent
    cases found : swept.get key with
    | none => exact sweeps.lost key row stored found
    | some other =>
      have same := sweeps.subset key other found
      rw [stored] at same
      cases same
      exact lost key row found absent

end Swept

/-- What the first database lacks is expired or of an access token that it lacks. -/
structure Keeps (now : Micros) (swept kept : Db) : Prop where
  authCodes : Swept now swept.authCodes kept.authCodes
  accessTokens : Swept now swept.accessTokens kept.accessTokens
  refreshTokens : Swept now swept.refreshTokens kept.refreshTokens
  tokenPairs : Thinned (fun pair => swept.accessTokens.get pair.1 = none) swept.tokenPairs
    kept.tokenPairs

theorem Keeps.refl (now : Micros) (db : Db) : Keeps now db db where
  authCodes := Swept.refl _
  accessTokens := Swept.refl _
  refreshTokens := Swept.refl _
  tokenPairs := Thinned.refl _ _

theorem Keeps.later {now later : Micros} {swept kept : Db} (keeps : Keeps now swept kept)
    (le : now ≤ later) : Keeps later swept kept where
  authCodes := keeps.authCodes.later le
  accessTokens := keeps.accessTokens.later le
  refreshTokens := keeps.refreshTokens.later le
  tokenPairs := keeps.tokenPairs

/-- The pair rows of an access token are there, up to those whose refresh token is gone. -/
def PairsKept (swept kept : Db) (token : PyStr) : Prop :=
  ∀ refresh, (token, refresh) ∈ kept.tokenPairs →
    (token, refresh) ∈ swept.tokenPairs ∨ ¬ Live swept .refresh refresh

/-- Both databases move on: they stay alike, no issued token comes back, and no pair row
is lost in the first one alone. -/
structure Carries (now : Micros) (issues : List Issue) (swept kept swept' kept' : Db) : Prop where
  keeps : Keeps now swept' kept'
  gone : ∀ issue ∈ issues, ∀ role, ¬ Live swept role (issue.member role) →
    ¬ Live swept' role (issue.member role)
  pairs : ∀ token, PairsKept swept kept token → PairsKept swept' kept' token

section Carries
variable {now : Micros} {issues : List Issue} {swept kept swept' kept' : Db}

theorem Carries.refl (keeps : Keeps now swept kept) : Carries now issues swept kept swept kept where
  keeps := keeps
  gone := fun _ _ _ absent => absent
  pairs := fun _ unchanged => unchanged

theorem Carries.trans {swept'' kept'' : Db} (one : Carries now issues swept kept swept' kept')
    (two : Carries now issues swept' kept' swept'' kept'') :
    Carries now issues swept kept swept'' kept'' where
  keeps := two.keeps
  gone := fun issue mem role absent => two.gone issue mem role (one.gone issue mem role absent)
  pairs := fun token unchanged => two.pairs token (one.pairs token unchanged)

theorem carries_saveAuthCode (keeps : Keeps now swept kept) (code : PyStr)
    (authCode : AuthorizationCode) :
    Carries now issues swept kept (saveAuthCode swept code authCode)
      (saveAuthCode kept code authCode) where
  keeps := ⟨keeps.authCodes.put code _, keeps.accessTokens, keeps.refreshTokens, keeps.tokenPairs⟩
  gone := fun _ _ role absent => by cases role <;> exact absent
  pairs := fun _ unchanged => unchanged

theorem carries_deleteAuthCode (keeps : Keeps now swept kept) (code : PyStr) :
    Carries now issues swept kept (deleteAuthCode swept code) (deleteAuthCode kept code) where
  keeps := ⟨keeps.authCodes.erase code, keeps.accessTokens, keeps.refreshTokens, keeps.tokenPairs⟩
  gone := fun _ _ role absent => by cases role <;> exact absent
  pairs := fun _ unchanged => unchanged

theorem carries_deleteToken (keeps : Keeps now swept kept) (role : Role) (token : PyStr) :
    Carries now issues swept kept (deleteToken swept role token) (deleteToken kept role token) where
  keeps := by
    cases role with
    | access =>
      refine ⟨keeps.authCodes, keeps.accessTokens.erase token, keeps.refreshTokens, ?_⟩
      refine keeps.tokenPairs.mono fun pair _ absent => ?_
      rw [deleteToken, deleteAccessToken, Table.get_erase, absent, ite_self]
    | refresh =>
      exact ⟨keeps.authCodes, keeps.accessTokens, keeps.refreshTokens.erase token,
        keeps.tokenPairs⟩
  gone := fun _ _ _ absent live => absent (live_deleteToken.mp live).1
  pairs := by
    intro other unchanged refresh pair
    rw [deleteToken_tokenPairs] at pair ⊢
    exact (unchanged refresh pair).imp_right fun absent live => absent (live_deleteToken.mp live).1

theorem carries_deleteTokenPairBy (keeps : Keeps now swept kept) (role : Role) (token : PyStr) :
    Carries now issues swept kept (deleteTokenPairBy swept role token)
      (deleteTokenPairBy kept role token) where
  keeps := by
    cases role with
    | access =>
      exact ⟨keeps.authCodes, keeps.accessTokens, keeps.refreshTokens, keeps.tokenPairs.filter _⟩
    | refresh =>
      exact ⟨keeps.authCodes, keeps.accessTokens, keeps.refreshTokens, keeps.tokenPairs.filter _⟩
  gone := fun _ _ _ absent live => absent (live_deleteTokenPairBy.mp live)
  pairs := by
    intro other unchanged refresh pair
    have absentStill : ¬ Live swept .refresh refresh →
        ¬ Live (deleteTokenPairBy swept role token) .refresh refresh :=
      fun absent live => absent (live_deleteTokenPairBy.mp live)
    cases role with
    | access =>
      obtain ⟨pair, differs⟩ := mem_deleteTokenPairByAccess.mp pair
      exact (unchanged refresh pair).imp
        (fun mem => mem_deleteTokenPairByAccess.mpr ⟨mem, differs⟩) absentStill
    | refresh =>
      obtain ⟨pair, differs⟩ := mem_deleteTokenPairByRefresh.mp pair
      exact (unchanged refresh pair).imp
        (fun mem => mem_deleteTokenPairByRefresh.mpr ⟨mem, differs⟩) absentStill

/-- The second database deletes a token that the first one does not have. -/
theorem carries_deleteKept (keeps : Keeps now swept kept) {role : Role} {token : PyStr}
    (absent : ¬ Live swept role token) :
    Carries now issues swept kept swept (deleteToken kept role token) where
  keeps := by
    cases role with
    | access =>
      exact ⟨keeps.authCodes, keeps.accessTokens.eraseKept (not_live_access.mp absent),
        keeps.refreshTokens, keeps.tokenPairs⟩
    | refresh =>
      exact ⟨keeps.authCodes, keeps.accessTokens,
        keeps.refreshTokens.eraseKept (not_live_refresh.mp absent), keeps.tokenPairs⟩
  gone := fun _ _ _ absent => absent
  pairs := by
    intro other unchanged refresh pair
    rw [deleteToken_tokenPairs] at pair
    exact unchanged refresh pair

theorem carries_retire (keeps : Keeps now swept kept) (old : PyStr) :
    Carries now issues swept kept (retireRefreshToken swept old) (retireRefreshToken kept old) where
  keeps := by
    refine ⟨?_, ⟨?_, ?_⟩, ?_, ?_⟩
    · rw [retire_authCodes, retire_authCodes]
      exact keeps.authCodes
    · intro token row stored
      rw [retire_accessTokens] at stored ⊢
      split at stored
      · cases stored
      · next unpaired =>
        have found := keeps.accessTokens.subset token row stored
        -- a pair row that only the second database has is one of a lost access token
        rw [if_neg, found]
        intro pair
        rcases keeps.tokenPairs.mem_or_dropped pair with mem | absent
        · exact unpaired mem
        · rw [stored] at absent
          cases absent
    · intro token row stored absent
      rw [retire_accessTokens] at stored absent
      split at stored
      · cases stored
      · next unpaired =>
        rw [if_neg fun mem => unpaired (keeps.tokenPairs.sublist.subset mem)] at absent
        exact keeps.accessTokens.lost token row stored absent
    · rw [retire_refreshTokens, retire_refreshTokens]
      exact keeps.refreshTokens.erase old
    · rw [retire_tokenPairs, retire_tokenPairs]
      refine (keeps.tokenPairs.filter _).mono fun pair _ absent => ?_
      rw [retire_accessTokens, absent, ite_self]
  gone := fun _ _ _ absent live => absent (live_retire.mp live).1
  pairs := by
    intro token unchanged refresh pair
    rw [retire_tokenPairs, List.mem_filter] at pair ⊢
    exact (unchanged refresh pair.1).imp (fun mem => ⟨mem, pair.2⟩)
      (fun absent live => absent (live_retire.mp live).1)

theorem Fresh.ne_of_issued {issued : List (PyStr × PyStr)} {accessStr refreshStr : PyStr}
    (fresh : Fresh issued accessStr refreshStr) {pair : PyStr × PyStr} (mem : pair ∈ issued) :
    pair.1 ≠ accessStr ∧ pair.2 ≠ refreshStr :=
  ⟨fun same => fresh.1 (List.mem_map.mpr ⟨pair, mem, same⟩),
    fun same => fresh.2.1 (List.mem_map.mpr ⟨pair, mem, same⟩)⟩

theorem carries_issue {s : Server} (keeps : Keeps now s.db kept)
    (recorded : ∀ pair ∈ kept.tokenPairs, pair ∈ s.issued) {accessStr refreshStr : PyStr}
    (fresh : Fresh s.issued accessStr refreshStr) (access : AccessToken) (refresh : RefreshToken) :
    Carries now s.issues s.db kept (saveIssuedTokenPair s.db accessStr access refreshStr refresh)
      (saveIssuedTokenPair kept accessStr access refreshStr refresh) where
  keeps := by
    refine ⟨keeps.authCodes, keeps.accessTokens.put accessStr _,
      keeps.refreshTokens.put refreshStr _, ?_⟩
    rw [issued_tokenPairs, issued_tokenPairs]
    refine (keeps.tokenPairs.mono fun pair mem absent => ?_).append _
    rw [issued_accessTokens, if_neg (Fresh.ne_of_issued fresh (recorded pair mem)).1, absent]
  gone := by
    intro old mem role absent live
    exact absent (@Fresh.live s ⟨0, [], none, accessStr, refreshStr⟩ old fresh mem role _ _ live)
  pairs := by
    intro token unchanged other pair
    rw [issued_tokenPairs, List.mem_append] at pair ⊢
    rcases pair with pair | new
    · refine (unchanged other pair).imp Or.inl fun absent live => ?_
      rcases live_issued.mp live with live | same
      · exact absent live
      · exact (Fresh.ne_of_issued fresh (recorded _ pair)).2 same
    · exact Or.inl (Or.inr new)

end Carries

/-- The keys and columns agree with the blobs, and an access token does not outlive the refresh
token that it was issued with. -/
structure Timed (s : Server) : Prop where
  keys : ∀ token row, s.db.accessTokens.get token = some row → row.data.token = token
  codes : ∀ code row, s.db.authCodes.get code = some row →
    row.expiresAt = some (toSecs row.data.expiresAt)
  access : ∀ token row, s.db.accessTokens.get token = some row →
    row.expiresAt = row.data.expiresAt
  refresh : ∀ token row, s.db.refreshTokens.get token = some row →
    row.expiresAt = row.data.expiresAt
  recorded : ∀ pair ∈ s.db.tokenPairs, pair ∈ s.issued
  unique : (s.db.tokenPairs.map Prod.fst).Nodup
  lifetimes : ∀ pair ∈ s.db.tokenPairs, ∀ accessRow refreshRow,
    s.db.accessTokens.get pair.1 = some accessRow →
    s.db.refreshTokens.get pair.2 = some refreshRow →
    ∀ now, expired now refreshRow.expiresAt = true → expired now accessRow.expiresAt = true

theorem start_timed : Timed start where
  keys := by simp [start, emptyDb]
  codes := by simp [start, emptyDb]
  access := by simp [start, emptyDb]
  refresh := by simp [start, emptyDb]
  recorded := by simp [start, emptyDb]
  unique := by simp [start, emptyDb]
  lifetimes := by simp [start, emptyDb]

/-- Rows are lost, and no codes, tokens or pairs are new. -/
structure Loses (before after : Db) : Prop extends Removes before after where
  authCodes : ∀ code row, after.authCodes.get code = some row →
    before.authCodes.get code = some row
  sublist : List.Sublist after.tokenPairs before.tokenPairs

theorem Timed.lose {s t : Server} (timed : Timed s) (issues : t.issues = s.issues)
    (loses : Loses s.db t.db) : Timed t where
  keys := fun token row stored => timed.keys token row (loses.accessTokens token row stored)
  codes := fun code row stored => timed.codes code row (loses.authCodes code row stored)
  access := fun token row stored => timed.access token row (loses.accessTokens token row stored)
  refresh := fun token row stored => timed.refresh token row (loses.refreshTokens token row stored)
  recorded := by
    intro pair mem
    rw [Server.issued, issues]
    exact timed.recorded pair (loses.tokenPairs pair mem)
  unique := timed.unique.sublist (loses.sublist.map Prod.fst)
  lifetimes := fun pair mem accessRow refreshRow access refresh =>
    timed.lifetimes pair (loses.tokenPairs pair mem) accessRow refreshRow
      (loses.accessTokens pair.1 accessRow access) (loses.refreshTokens pair.2 refreshRow refresh)

theorem loses_of_shrinks {before after : Db} (shrinks : Shrinks before after) :
    Loses before after :=
  ⟨removes_of_shrinks shrinks, shrinks.authCodes, shrinks.tokenPairs⟩

theorem loses_deleteToken (db : Db) (role : Role) (token : PyStr) :
    Loses db (deleteToken db role token) := by
  cases role with
  | access => exact loses_of_shrinks (deleteAccessToken_shrinks db token)
  | refresh => exact loses_of_shrinks (deleteRefreshToken_shrinks db token)

theorem loses_deleteTokenPairBy (db : Db) (role : Role) (token : PyStr) :
    Loses db (deleteTokenPairBy db role token) := by
  refine ⟨removes_deleteTokenPairBy db role token, ?_, ?_⟩
  · cases role with
    | access => exact fun _ _ stored => stored
    | refresh => exact fun _ _ stored => stored
  · cases role with
    | access => exact List.filter_sublist
    | refresh => exact List.filter_sublist

theorem loses_revokeSection {db db' : Db} {role : Role} {token : PyStr} {stage next : Stage}
    (hsection : revokeSection db role token stage = some (db', next)) : Loses db db' := by
  cases stage with
  | loaded => cases hsection; exact loses_of_shrinks (Shrinks.refl db)
  | paired counterparts => cases hsection; exact loses_deleteToken db role token
  | deleted counterparts => cases hsection; exact loses_deleteTokenPairBy db role token
  | unpaired counterparts =>
    cases counterparts with
    | nil => cases hsection; exact loses_of_shrinks (Shrinks.refl db)
    | cons counterpart rest => cases hsection; exact loses_deleteToken db role.other counterpart
  | done => cases hsection

/-- The pair of one exchange, issued by one reading of the clock. -/
theorem Timed.issue {s t : Server} (timed : Timed s) {accessStr refreshStr clientId : PyStr}
    {scopes : List PyStr} {resource : Option PyStr} {now : Micros}
    (fresh : Fresh s.issued accessStr refreshStr)
    (issued : t.issued = (accessStr, refreshStr) :: s.issued)
    (db : t.db = saveIssuedTokenPair s.db accessStr
      (newAccessToken accessStr clientId scopes resource now) refreshStr
      (newRefreshToken refreshStr clientId scopes now)) : Timed t where
  keys := by
    intro token row stored
    rw [db, issued_accessTokens] at stored
    split at stored
    · next same => cases stored; exact same.symm
    · exact timed.keys token row stored
  codes := by rw [db]; exact timed.codes
  access := by
    intro token row stored
    rw [db, issued_accessTokens] at stored
    split at stored
    · cases stored; rfl
    · exact timed.access token row stored
  refresh := by
    intro token row stored
    rw [db, issued_refreshTokens] at stored
    split at stored
    · cases stored; rfl
    · exact timed.refresh token row stored
  recorded := by
    intro pair mem
    rw [db, issued_tokenPairs, List.mem_append, List.mem_singleton] at mem
    rw [issued, List.mem_cons]
    exact mem.symm.imp_right (timed.recorded pair)
  unique := by
    rw [db, issued_tokenPairs, List.map_append, List.nodup_append]
    refine ⟨timed.unique, List.nodup_singleton _, ?_⟩
    intro access mem other new
    rw [List.map_singleton, List.mem_singleton] at new
    obtain ⟨pair, stored, rfl⟩ := List.mem_map.mp mem
    exact new ▸ (Fresh.ne_of_issued fresh (timed.recorded pair stored)).1
  lifetimes := by
    intro pair mem accessRow refreshRow access refresh later past
    rw [db, issued_accessTokens] at access
    rw [db, issued_refreshTokens] at refresh
    rw [db, issued_tokenPairs, List.mem_append, List.mem_singleton] at mem
    rcases mem with old | rfl
    · have differs := Fresh.ne_of_issued fresh (timed.recorded pair old)
      rw [if_neg differs.1] at access
      rw [if_neg differs.2] at refresh
      exact timed.lifetimes pair old accessRow refreshRow access refresh later past
    · rw [if_pos rfl] at access refresh
      cases access
      cases refresh
      simp only [newAccessToken, newRefreshToken, expired, decide_eq_true_eq] at past ⊢
      have shorter : OAUTH_ACCESS_TOKEN_TTL_SECS ≤ OAUTH_REFRESH_TOKEN_TTL_SECS := by decide
      exact Nat.lt_of_le_of_lt (Nat.add_le_add_left shorter (toSecs now)) past

theorem Timed.begin {s t : Server} (timed : Timed s) {id : Nat} {request : Request}
    (begun : s.begin id request = some t) : Timed t := by
  obtain ⟨_, rfl⟩ := begin_eq_some.mp begun
  exact timed.lose rfl (loses_of_shrinks (Shrinks.refl s.db))

theorem step_timed (s : Server) (a : Action) (t : Server) (timed : Timed s)
    (stepped : step s a = some t) : Timed t := by
  cases a with
  | saveCode authCode =>
    obtain ⟨_, rfl⟩ := step_saveCode.mp stepped
    refine { timed with codes := ?_ }
    intro code row stored
    rcases Table.get_put_eq_some stored with ⟨_, rfl⟩ | ⟨_, stored⟩
    · rfl
    · exact timed.codes code row stored
  | loadCode id client code now => exact timed.begin stepped
  | takeCode id =>
    obtain ⟨client, authCode, _, rfl⟩ := step_takeCode.mp stepped
    exact timed.lose rfl (loses_of_shrinks (deleteAuthCode_shrinks s.db authCode.code))
  | issuePair id now accessStr refreshStr =>
    obtain ⟨client, authCode, _, fresh, rfl⟩ := step_issuePair.mp stepped
    exact timed.issue fresh rfl rfl
  | loadRefresh id client token now => exact timed.begin stepped
  | rotate id scopes now accessStr refreshStr =>
    obtain ⟨client, token, _, fresh, rfl⟩ := step_rotate.mp stepped
    have retired : Timed { s with db := retireRefreshToken s.db token.token } :=
      timed.lose rfl (loses_of_shrinks (retireRefreshToken_shrinks s.db token.token))
    exact retired.issue fresh rfl rfl
  | loadAccess id token now => exact timed.begin stepped
  | drop id =>
    rcases step_drop.mp stepped with ⟨code, _, rfl⟩ | ⟨token, _, rfl⟩ | ⟨token, _, rfl⟩
    · exact timed.lose rfl (loses_of_shrinks (deleteAuthCode_shrinks s.db code))
    · exact timed.lose rfl (loses_deleteToken s.db .refresh token)
    · exact timed.lose rfl (loses_deleteToken s.db .access token)
  | revokeAccess id token now => exact timed.begin stepped
  | revokeRefresh id client token now => exact timed.begin stepped
  | revokeStep id =>
    obtain ⟨role, token, stage, db, next, _, hsection, rfl⟩ := step_revokeStep.mp stepped
    exact timed.lose rfl (loses_revokeSection hsection)
  | cleanup now =>
    cases stepped
    exact timed.lose rfl (loses_of_shrinks (cleanupExpired_shrinks s.db now))

section Cleaned
variable {now : Micros} {swept : Db} {kept : Server}

theorem keeps_cleanup (timed : Timed kept) (keeps : Keeps now swept kept.db) :
    Keeps now (cleanupExpired swept now).1 kept.db where
  authCodes := by
    refine keeps.authCodes.sweep (fun _ _ stored => (cleanup_authCodes.mp stored).1) ?_
    intro code row stored absent
    by_contra live
    have column := timed.codes code row (keeps.authCodes.subset code row stored)
    have found := cleanup_authCodes.mpr ⟨stored, by simpa [column] using live⟩
    rw [absent] at found
    cases found
  accessTokens := by
    refine keeps.accessTokens.sweep (fun _ _ stored => (cleanup_accessTokens.mp stored).1) ?_
    intro token row stored absent
    by_contra live
    have found := cleanup_accessTokens.mpr ⟨stored, by simpa using live, ?_⟩
    · rw [absent] at found
      cases found
    · -- the refresh token of the pair lives longer
      intro refresh pair refreshRow refreshStored
      by_contra past
      exact live (timed.lifetimes (token, refresh) (keeps.tokenPairs.sublist.subset pair) row
        refreshRow (keeps.accessTokens.subset token row stored)
        (keeps.refreshTokens.subset refresh refreshRow refreshStored) (toSecs now)
        (by simpa using past))
  refreshTokens := by
    refine keeps.refreshTokens.sweep (fun _ _ stored => (cleanup_refreshTokens.mp stored).1) ?_
    intro token row stored absent
    by_contra live
    have found := cleanup_refreshTokens.mpr ⟨stored, by simpa using live⟩
    rw [absent] at found
    cases found
  tokenPairs := by
    have lost : ∀ pair ∈ kept.db.tokenPairs, swept.accessTokens.get pair.1 = none →
        (cleanupExpired swept now).1.accessTokens.get pair.1 = none := by
      intro pair _ absent
      by_contra present
      obtain ⟨row, stored⟩ := Option.ne_none_iff_exists'.mp present
      rw [(cleanup_accessTokens.mp stored).1] at absent
      cases absent
    rw [cleanup_tokenPairs]
    refine (keeps.tokenPairs.mono lost).thin ?_
    intro pair mem dropped
    by_contra present
    obtain ⟨row, stored⟩ := Option.ne_none_iff_exists'.mp present
    simp [not_expired_of_stored stored mem] at dropped

theorem not_live_cleanup {role : Role} {token : PyStr} (absent : ¬ Live swept role token) :
    ¬ Live (cleanupExpired swept now).1 role token :=
  fun live => absent ((removes_of_shrinks (cleanupExpired_shrinks swept now)).live live)

theorem pairsKept_cleanup {token : PyStr} {kept : Db} (unchanged : PairsKept swept kept token)
    (quiet : (swept.accessTokens.get token).any
      (fun row => expired (toSecs now) row.expiresAt) = false) :
    PairsKept (cleanupExpired swept now).1 kept token := by
  intro refresh pair
  rcases unchanged refresh pair with mem | absent
  · rw [cleanup_tokenPairs, List.mem_filter]
    by_cases past : pairExpired swept now (token, refresh) = true
    · refine Or.inr (not_live_refresh.mpr ?_)
      rw [pairExpired, quiet, Bool.false_or, Option.any_eq_true] at past
      obtain ⟨row, stored, past⟩ := past
      by_contra present
      obtain ⟨left, cleaned⟩ := Option.ne_none_iff_exists'.mp present
      obtain ⟨same, live⟩ := cleanup_refreshTokens.mp cleaned
      rw [stored] at same
      cases same
      rw [past] at live
      cases live
    · exact Or.inl ⟨mem, by simpa using past⟩
  · exact Or.inr (not_live_cleanup absent)

end Cleaned

end OAuthRequests
