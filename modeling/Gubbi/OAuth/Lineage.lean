import Gubbi.OAuth.SingleUse

/-!
# The lineage of a grant

The pairs descended from one authorization code form a line as long as every
rotation starts from a refresh token that is still stored: the token is the
newest of its grant, and the rotation retires both members of its pair. A
rotation of a token whose row has gone adds a second branch.
-/

namespace OAuthRequests

open Text OAuthStorage OAuthProvider Pairing

/-- The rotation of a request finds the row of the refresh token it has loaded. -/
def refreshStillStored (s : Server) : Action → Bool
  | .rotate id _ _ _ _ =>
    match s.requests.get id with
    | some (.refreshLoaded _ token) => (getRefreshToken s.db token.token).isSome
    | _ => true
  | _ => true

/-- No token row and no pair row is added. -/
structure Removes (before after : Db) : Prop where
  accessTokens : ∀ token row, after.accessTokens.get token = some row →
    before.accessTokens.get token = some row
  refreshTokens : ∀ token row, after.refreshTokens.get token = some row →
    before.refreshTokens.get token = some row
  tokenPairs : ∀ pair ∈ after.tokenPairs, pair ∈ before.tokenPairs

theorem Removes.live {before after : Db} (removes : Removes before after) {role : Role}
    {token : PyStr} (live : Live after role token) : Live before role token := by
  cases role with
  | access =>
    obtain ⟨row, h⟩ := live
    exact ⟨row, removes.accessTokens token row h⟩
  | refresh =>
    obtain ⟨row, h⟩ := live
    exact ⟨row, removes.refreshTokens token row h⟩

theorem Removes.refl (db : Db) : Removes db db :=
  ⟨fun _ _ h => h, fun _ _ h => h, fun _ h => h⟩

theorem removes_of_shrinks {before after : Db} (shrinks : Shrinks before after) :
    Removes before after :=
  ⟨fun token row h => (shrinks.accessTokens token row h).1, shrinks.refreshTokens,
    fun _ h => shrinks.tokenPairs.subset h⟩

theorem removes_deleteToken (db : Db) (role : Role) (token : PyStr) :
    Removes db (deleteToken db role token) := by
  cases role with
  | access => exact removes_of_shrinks (deleteAccessToken_shrinks db token)
  | refresh => exact removes_of_shrinks (deleteRefreshToken_shrinks db token)

theorem removes_deleteTokenPairBy (db : Db) (role : Role) (token : PyStr) :
    Removes db (deleteTokenPairBy db role token) := by
  cases role with
  | access => exact ⟨fun _ _ h => h, fun _ _ h => h, fun _ h => (List.mem_filter.mp h).1⟩
  | refresh => exact ⟨fun _ _ h => h, fun _ _ h => h, fun _ h => (List.mem_filter.mp h).1⟩

theorem removes_revokeSection {db db' : Db} {role : Role} {token : PyStr} {stage next : Stage}
    (h : revokeSection db role token stage = some (db', next)) : Removes db db' := by
  cases stage with
  | loaded => cases h; exact Removes.refl db
  | paired counterparts => cases h; exact removes_deleteToken db role token
  | deleted counterparts => cases h; exact removes_deleteTokenPairBy db role token
  | unpaired counterparts =>
    cases counterparts with
    | nil => cases h; exact Removes.refl db
    | cons counterpart rest => cases h; exact removes_deleteToken db role.other counterpart
  | done => cases h

/-- The revocation has deleted its own token. -/
def Stage.ownDeleted : Stage → Prop
  | .loaded => False
  | .paired _ => False
  | .deleted _ => True
  | .unpaired _ => True
  | .done => True

/-- A revocation acts on an issued token, and it has deleted it from its second
statement on. -/
def RevocationOk (s : Server) (role : Role) (token : PyStr) (stage : Stage) : Prop :=
  (∃ issue ∈ s.issues, issue.member role = token) ∧ (stage.ownDeleted → ¬ Live s.db role token)

structure Lineage (s : Server) : Prop where
  accessKeys : ∀ token row, s.db.accessTokens.get token = some row → row.data.token = token
  refreshKeys : ∀ token row, s.db.refreshTokens.get token = some row → row.data.token = token
  stored : ∀ role token, Live s.db role token → ∃ issue ∈ s.issues, issue.member role = token
  recorded : ∀ pair ∈ s.db.tokenPairs, pair ∈ s.issued
  unique : ∀ role, (s.issues.map (fun issue => issue.member role)).Nodup
  nonempty : ∀ issue ∈ s.issues, issue.refresh ≠ []
  rooted : ∀ issue ∈ s.issues, ∃ root ∈ s.issues, root.parent = none ∧ root.grant = issue.grant
  spent : ∀ issue ∈ s.issues, ∀ token, issue.parent = some token →
    (∃ old ∈ s.issues, old.refresh = token) ∧ ¬ Live s.db .refresh token
  exchanged : s.issues.Pairwise (fun new old => ∀ token,
    ¬ (new.parent = some token ∧ old.parent = some token))
  newest : s.issues.Pairwise (fun new old => new.grant = old.grant →
    ∀ role, ¬ Live s.db role (old.member role))
  paired : ∀ issue ∈ s.issues, Live s.db .access issue.access →
    issue.pair ∈ s.db.tokenPairs ∨ ¬ Live s.db .refresh issue.refresh
  revocations : ∀ id role token stage,
    s.requests.get id = some (.revoking role token stage) → RevocationOk s role token stage

theorem start_lineage : Lineage start where
  accessKeys := by simp [start, emptyDb]
  refreshKeys := by simp [start, emptyDb]
  stored := by
    intro role token live
    cases role <;> simp [Live, start, emptyDb] at live
  recorded := by simp [start, emptyDb]
  unique := by simp [start]
  nonempty := by simp [start]
  rooted := by simp [start]
  spent := by simp [start]
  exchanged := by simp [start]
  newest := by simp [start]
  paired := by simp [start]
  revocations := by simp [start]

theorem Lineage.eq_of_member {s : Server} (inv : Lineage s) {role : Role} {one two : Issue}
    (hone : one ∈ s.issues) (htwo : two ∈ s.issues) (h : one.member role = two.member role) :
    one = two :=
  List.inj_on_of_nodup_map (inv.unique role) hone htwo h

theorem Lineage.grantOf_eq {s : Server} (inv : Lineage s) {issue : Issue}
    (hmem : issue ∈ s.issues) : s.grantOf issue.refresh = issue.grant := by
  unfold Server.grantOf
  cases h : s.issues.find? (fun other => other.refresh = issue.refresh) with
  | none =>
    have hnone := List.find?_eq_none.mp h issue hmem
    simp at hnone
  | some other =>
    have hkey : other.refresh = issue.refresh := by simpa using List.find?_some h
    have hsame : other = issue :=
      inv.eq_of_member (List.mem_of_find?_eq_some h) hmem (show other.member .refresh = _ from hkey)
    simp [hsame]

/-- The pair with a stored member is the newest of its grant; all others are dead. -/
theorem Lineage.others_dead {s : Server} (inv : Lineage s) {issue other : Issue}
    (hissue : issue ∈ s.issues) (hother : other ∈ s.issues) {role : Role}
    (live : Live s.db role (issue.member role)) (grant : other.grant = issue.grant)
    (hne : other ≠ issue) : ∀ role, ¬ Live s.db role (other.member role) := by
  rcases Ledger.eq_or_related inv.newest hother hissue with h | h | h
  · exact False.elim (hne h)
  · exact False.elim (h grant role live)
  · exact h grant.symm

/-- Steps that issue nothing and remove rows: they may take the pair row of a
pair only together with one of its members. -/
theorem Lineage.remove {s t : Server} (inv : Lineage s) (issues : t.issues = s.issues)
    (removes : Removes s.db t.db)
    (pairs : ∀ issue ∈ s.issues, issue.pair ∈ s.db.tokenPairs →
      Live t.db .access issue.access → Live t.db .refresh issue.refresh →
        issue.pair ∈ t.db.tokenPairs)
    (requests : ∀ id role token stage, t.requests.get id = some (.revoking role token stage) →
      s.requests.get id = some (.revoking role token stage) ∨ RevocationOk t role token stage) :
    Lineage t where
  accessKeys := fun token row h => inv.accessKeys token row (removes.accessTokens token row h)
  refreshKeys := fun token row h => inv.refreshKeys token row (removes.refreshTokens token row h)
  stored := fun role token live => issues ▸ inv.stored role token (removes.live live)
  recorded := by
    intro pair hp
    simpa [Server.issued, issues] using inv.recorded pair (removes.tokenPairs pair hp)
  unique := issues ▸ inv.unique
  nonempty := issues ▸ inv.nonempty
  rooted := issues ▸ inv.rooted
  spent := by
    rw [issues]
    intro issue hmem token hparent
    obtain ⟨hold, hdead⟩ := inv.spent issue hmem token hparent
    exact ⟨hold, fun live => hdead (removes.live live)⟩
  exchanged := issues ▸ inv.exchanged
  newest := by
    rw [issues]
    exact inv.newest.imp (fun h grant role live => h grant role (removes.live live))
  paired := by
    rw [issues]
    intro issue hmem live
    rcases inv.paired issue hmem (removes.live live) with hp | hdead
    · by_cases hrefresh : Live t.db .refresh issue.refresh
      · exact Or.inl (pairs issue hmem hp live hrefresh)
      · exact Or.inr hrefresh
    · exact Or.inr (fun h => hdead (removes.live h))
  revocations := by
    intro id role token stage h
    rcases requests id role token stage h with hold | hok
    · obtain ⟨hissued, hdeleted⟩ := inv.revocations id role token stage hold
      exact ⟨issues ▸ hissued, fun hown live => hdeleted hown (removes.live live)⟩
    · exact hok

theorem Fresh.member_ne {s : Server} {issue old : Issue}
    (fresh : Fresh s.issued issue.access issue.refresh) (hmem : old ∈ s.issues) (role : Role) :
    old.member role ≠ issue.member role := by
  intro heq
  have hpair : old.pair ∈ s.issued := List.mem_map.mpr ⟨old, hmem, rfl⟩
  cases role with
  | access => exact fresh.1 (List.mem_map.mpr ⟨old.pair, hpair, heq⟩)
  | refresh => exact fresh.2.1 (List.mem_map.mpr ⟨old.pair, hpair, heq⟩)

/-- Issuing a fresh pair makes no older member stored. -/
theorem Fresh.live {s : Server} {issue old : Issue}
    (fresh : Fresh s.issued issue.access issue.refresh) (hmem : old ∈ s.issues) {role : Role}
    {access : AccessToken} {refresh : RefreshToken}
    (live : Live (saveIssuedTokenPair s.db issue.access access issue.refresh refresh) role
      (old.member role)) : Live s.db role (old.member role) := by
  rcases live_issued.mp live with h | h
  · exact h
  · cases role with
    | access => exact False.elim (Fresh.member_ne fresh hmem .access h)
    | refresh => exact False.elim (Fresh.member_ne fresh hmem .refresh h)

/-- A pair of fresh strings for a grant without a stored token. -/
theorem Lineage.issue {s : Server} (inv : Lineage s) (issue : Issue)
    (fresh : Fresh s.issued issue.access issue.refresh)
    (dead : ∀ old ∈ s.issues, old.grant = issue.grant →
      ∀ role, ¬ Live s.db role (old.member role))
    (root : issue.parent = none ∨
      ∃ old ∈ s.issues, issue.parent = some old.refresh ∧ old.grant = issue.grant)
    (parent : ∀ token, issue.parent = some token →
      ¬ Live s.db .refresh token ∧ ∀ old ∈ s.issues, old.parent ≠ some token)
    {access : AccessToken} {refresh : RefreshToken} (accessKey : access.token = issue.access)
    (refreshKey : refresh.token = issue.refresh) :
    Lineage { s with
      db := saveIssuedTokenPair s.db issue.access access issue.refresh refresh
      issues := issue :: s.issues } := by
  have unissued : ∀ old ∈ s.issues, ∀ role, old.member role ≠ issue.member role :=
    fun _ hmem role => Fresh.member_ne fresh hmem role
  have stays : ∀ old ∈ s.issues, ∀ role,
      Live (saveIssuedTokenPair s.db issue.access access issue.refresh refresh) role
        (old.member role) → Live s.db role (old.member role) :=
    fun _ hmem _ live => Fresh.live fresh hmem live
  refine ⟨?_, ?_, ?_, ?_, ?_, ?_, ?_, ?_, ?_, ?_, ?_, ?_⟩
  · intro token row h
    rcases Table.get_put_eq_some h with ⟨rfl, rfl⟩ | ⟨_, hold⟩
    · exact accessKey
    · exact inv.accessKeys token row hold
  · intro token row h
    rcases Table.get_put_eq_some h with ⟨rfl, rfl⟩ | ⟨_, hold⟩
    · exact refreshKey
    · exact inv.refreshKeys token row hold
  · intro role token live
    rcases live_issued.mp live with h | h
    · obtain ⟨old, hmem, hold⟩ := inv.stored role token h
      exact ⟨old, List.mem_cons_of_mem _ hmem, hold⟩
    · refine ⟨issue, List.mem_cons_self, ?_⟩
      cases role <;> exact h.symm
  · intro pair hp
    simp only [issued_tokenPairs, List.mem_append, List.mem_singleton] at hp
    rcases hp with hp | rfl
    · exact List.mem_cons_of_mem _ (inv.recorded pair hp)
    · exact List.mem_cons_self
  · intro role
    refine List.nodup_cons.mpr ⟨?_, inv.unique role⟩
    intro h
    obtain ⟨old, hmem, heq⟩ := List.mem_map.mp h
    exact unissued old hmem role heq
  · intro old hmem
    rcases List.mem_cons.mp hmem with rfl | hmem
    · exact fresh.2.2
    · exact inv.nonempty old hmem
  · intro old hmem
    rcases List.mem_cons.mp hmem with rfl | hmem
    · rcases root with hroot | ⟨source, hsource, _, hgrant⟩
      · exact ⟨old, List.mem_cons_self, hroot, rfl⟩
      · obtain ⟨first, hfirst, hnone, heq⟩ := inv.rooted source hsource
        exact ⟨first, List.mem_cons_of_mem _ hfirst, hnone, heq.trans hgrant⟩
    · obtain ⟨first, hfirst, hnone, heq⟩ := inv.rooted old hmem
      exact ⟨first, List.mem_cons_of_mem _ hfirst, hnone, heq⟩
  · intro new hmem token hparent
    have spent : (∃ old ∈ s.issues, old.refresh = token) ∧ ¬ Live s.db .refresh token := by
      rcases List.mem_cons.mp hmem with rfl | hmem
      · refine ⟨?_, (parent token hparent).1⟩
        rcases root with hroot | ⟨source, hsource, hsome, _⟩
        · rw [hroot] at hparent
          cases hparent
        · rw [hsome] at hparent
          exact ⟨source, hsource, Option.some.inj hparent⟩
      · exact inv.spent new hmem token hparent
    obtain ⟨⟨old, hold, rfl⟩, hdead⟩ := spent
    exact ⟨⟨old, List.mem_cons_of_mem _ hold, rfl⟩,
      fun live => hdead (stays old hold .refresh live)⟩
  · refine List.pairwise_cons.mpr ⟨?_, inv.exchanged⟩
    rintro old hmem token ⟨hnew, hold⟩
    exact (parent token hnew).2 old hmem hold
  · refine List.pairwise_cons.mpr ⟨?_, ?_⟩
    · intro old hmem grant role live
      exact dead old hmem grant.symm role (stays old hmem role live)
    · refine inv.newest.imp_of_mem ?_
      intro new old _ hmem h grant role live
      exact h grant role (stays old hmem role live)
  · intro old hmem live
    simp only [issued_tokenPairs, List.mem_append, List.mem_singleton]
    rcases List.mem_cons.mp hmem with rfl | hmem
    · exact Or.inl (Or.inr rfl)
    · rcases inv.paired old hmem (stays old hmem .access live) with h | h
      · exact Or.inl (Or.inl h)
      · exact Or.inr (fun live => h (stays old hmem .refresh live))
  · intro id role token stage h
    obtain ⟨⟨old, hmem, rfl⟩, hdeleted⟩ := inv.revocations id role token stage h
    exact ⟨⟨old, List.mem_cons_of_mem _ hmem, rfl⟩,
      fun hown live => hdeleted hown (stays old hmem role live)⟩

theorem Lineage.move {s : Server} (inv : Lineage s) (id : Nat) {db : Db} {request : Request}
    (removes : Removes s.db db)
    (pairs : ∀ issue ∈ s.issues, issue.pair ∈ s.db.tokenPairs → Live db .access issue.access →
      Live db .refresh issue.refresh → issue.pair ∈ db.tokenPairs)
    (ok : ∀ role token stage, request = .revoking role token stage →
      RevocationOk (s.advance id db request) role token stage) :
    Lineage (s.advance id db request) := by
  refine inv.remove rfl removes pairs ?_
  intro id' role token stage h
  rcases Table.get_put_eq_some h with ⟨_, heq⟩ | ⟨_, hold⟩
  · exact Or.inr (ok role token stage heq.symm)
  · exact Or.inl hold

theorem Lineage.load {s t : Server} (inv : Lineage s) {id : Nat} {α : Type}
    {dropping : Request} {ready : α → Request} {found : Inspected α}
    (begun : s.begin id (afterLoad dropping ready found) = some t)
    (hdropping : ∀ role token stage, dropping ≠ .revoking role token stage)
    (hready : ∀ value, found = .ready value → ∀ role token stage,
      ready value = .revoking role token stage → RevocationOk s role token stage) :
    Lineage t := by
  obtain ⟨_, rfl⟩ := begin_eq_some.mp begun
  refine inv.move id (Removes.refl s.db) (fun _ _ h _ _ => h) ?_
  intro role token stage heq
  cases found with
  | absent => cases heq
  | drop => exact False.elim (hdropping role token stage heq)
  | ready value => exact hready value rfl role token stage heq
  | raised e => cases heq

theorem Lineage.loaded {s : Server} (inv : Lineage s) {role : Role} {token : PyStr}
    (live : Live s.db role token) : RevocationOk s role token .loaded :=
  ⟨inv.stored role token live, fun h => False.elim h⟩

theorem live_of_inspectAccess {s : Server} (inv : Lineage s) {token : PyStr} {now : Micros}
    {accessToken : AccessToken}
    (ready : inspectAccessToken (getAccessToken s.db token) now = .ready accessToken) :
    accessToken.token = token ∧ Live s.db .access accessToken.token := by
  obtain ⟨row, hrow, rfl⟩ := getAccessToken_eq_some.mp (inspectAccessToken_ready ready)
  have hkey := inv.accessKeys token row hrow
  exact ⟨hkey, row, by rw [hkey, hrow]⟩

theorem live_of_inspectRefresh {s : Server} (inv : Lineage s) {token : PyStr} {client : Client}
    {now : Micros} {refreshToken : RefreshToken}
    (ready : inspectRefreshToken (getRefreshToken s.db token) client now = .ready refreshToken) :
    refreshToken.token = token ∧ Live s.db .refresh refreshToken.token := by
  obtain ⟨row, hrow, rfl⟩ := getRefreshToken_eq_some.mp (inspectRefreshToken_ready ready)
  have hkey := inv.refreshKeys token row hrow
  exact ⟨hkey, row, by rw [hkey, hrow]⟩

theorem Lineage.revokeSection {s : Server} (inv : Lineage s) {id : Nat} {role : Role}
    {token : PyStr} {stage next : Stage} {db : Db}
    (hget : s.requests.get id = some (.revoking role token stage))
    (hsection : revokeSection s.db role token stage = some (db, next)) :
    Lineage (s.advance id db (.revoking role token next)) := by
  obtain ⟨hissued, hdeleted⟩ := inv.revocations id role token stage hget
  have removes := removes_revokeSection hsection
  have ok : (next.ownDeleted → ¬ Live db role token) →
      ∀ role' token' stage', Request.revoking role token next = .revoking role' token' stage' →
        RevocationOk (s.advance id db (.revoking role token next)) role' token' stage' := by
    rintro hown _ _ _ ⟨⟩
    exact ⟨hissued, hown⟩
  cases stage with
  | loaded =>
    cases hsection
    exact inv.move id removes (fun _ _ h _ _ => h) (ok False.elim)
  | paired counterparts =>
    cases hsection
    refine inv.move id removes ?_ (ok ?_)
    · intro issue _ h _ _
      rwa [deleteToken_tokenPairs]
    · intro _ live
      exact (live_deleteToken.mp live).2 ⟨rfl, rfl⟩
  | deleted counterparts =>
    cases hsection
    have gone := hdeleted trivial
    refine inv.move id removes ?_ (ok fun _ live => gone (live_deleteTokenPairBy.mp live))
    -- The pair rows of the token go after the token itself.
    intro issue _ h haccess hrefresh
    refine mem_deleteTokenPairBy.mpr ⟨h, ?_⟩
    rintro rfl
    cases role with
    | access => exact gone (live_deleteTokenPairBy.mp haccess)
    | refresh => exact gone (live_deleteTokenPairBy.mp hrefresh)
  | unpaired counterparts =>
    have gone := hdeleted trivial
    cases counterparts with
    | nil =>
      cases hsection
      exact inv.move id removes (fun _ _ h _ _ => h) (ok fun _ => gone)
    | cons counterpart rest =>
      cases hsection
      refine inv.move id removes ?_ (ok fun _ live => gone (live_deleteToken.mp live).1)
      intro issue _ h _ _
      rwa [deleteToken_tokenPairs]
  | done => cases hsection

theorem Lineage.takeCode {s : Server} (inv : Lineage s) (id : Nat) (client : Client)
    (authCode : AuthorizationCode) :
    Lineage (s.advance id (deleteAuthCode s.db authCode.code) (.codeTaken client authCode)) :=
  inv.move id ⟨fun _ _ h => h, fun _ _ h => h, fun _ h => h⟩ (fun _ _ h _ _ => h)
    (fun _ _ _ h => by cases h)

/-- Nothing descends from a code that a request has taken. -/
theorem Lineage.grant_unissued {s : Server} (inv : Lineage s) (single : SingleUse s) {id : Nat}
    {client : Client} {authCode : AuthorizationCode}
    (holds : s.requests.get id = some (.codeTaken client authCode)) {old : Issue}
    (hmem : old ∈ s.issues) : old.grant ≠ authCode.code := by
  intro grant
  obtain ⟨root, hroot, hnone, heq⟩ := inv.rooted old hmem
  exact (single.taken id client authCode holds).2.2 root hroot hnone (heq.trans grant)

theorem Lineage.issuePair {s : Server} (inv : Lineage s) (single : SingleUse s) {id : Nat}
    {client : Client} {authCode : AuthorizationCode}
    (holds : s.requests.get id = some (.codeTaken client authCode)) {accessStr refreshStr : PyStr}
    (fresh : Fresh s.issued accessStr refreshStr) (now : Micros) :
    Lineage { s.advance id
        (issueTokenPair s.db client.idOrEmpty authCode.scopes authCode.resource now
          accessStr refreshStr).1
        (.granted accessStr refreshStr) with
      issues := ⟨id, authCode.code, none, accessStr, refreshStr⟩ :: s.issues } := by
  have moved : Lineage (s.advance id s.db (.granted accessStr refreshStr)) :=
    inv.move id (Removes.refl s.db) (fun _ _ h _ _ => h) (fun _ _ _ h => by cases h)
  refine moved.issue ⟨id, authCode.code, none, accessStr, refreshStr⟩ fresh ?_
    (Or.inl rfl) (fun _ h => by cases h) rfl rfl
  intro old hmem grant
  exact False.elim (inv.grant_unissued single holds hmem grant)

/-- A rotation from a stored token: both members of the newest pair go. -/
theorem Lineage.rotate {s : Server} (inv : Lineage s) {id : Nat} {client : Client}
    {token : RefreshToken} (live : Live s.db .refresh token.token) {accessStr refreshStr : PyStr}
    (fresh : Fresh s.issued accessStr refreshStr) (scopes : List PyStr) (now : Micros) :
    Lineage { s.advance id
        (exchangeRefreshToken s.db client token scopes now accessStr refreshStr).1
        (.granted accessStr refreshStr) with
      issues := ⟨id, s.grantOf token.token, some token.token, accessStr, refreshStr⟩ ::
        s.issues } := by
  obtain ⟨source, hsource, hkey⟩ := inv.stored .refresh token.token live
  have hrefresh : source.refresh = token.token := hkey
  have hgrant : s.grantOf token.token = source.grant := hrefresh ▸ inv.grantOf_eq hsource
  have removes := removes_of_shrinks (retireRefreshToken_shrinks s.db token.token)
  have gone : ¬ Live (retireRefreshToken s.db token.token) .refresh token.token := by
    intro h
    exact (live_retire.mp h).2 rfl
  have moved : Lineage (s.advance id (retireRefreshToken s.db token.token)
      (.granted accessStr refreshStr)) := by
    refine inv.move id removes ?_ (fun _ _ _ h => by cases h)
    intro issue _ h _ hlive
    rw [retire_tokenPairs, List.mem_filter]
    refine ⟨h, ?_⟩
    have hne : issue.refresh ≠ token.token := (live_retire.mp hlive).2
    exact decide_eq_true hne
  refine moved.issue ⟨id, s.grantOf token.token, some token.token, accessStr, refreshStr⟩
    fresh ?_ (Or.inr ⟨source, hsource, congrArg some hrefresh.symm, hgrant.symm⟩) ?_ rfl rfl
  · intro old hmem grant role hold
    have before := removes.live hold
    by_cases hsame : old = source
    · subst hsame
      cases role with
      | access =>
        rcases inv.paired old hmem before with hp | hdead
        · have hp' : (old.access, token.token) ∈ s.db.tokenPairs := hrefresh ▸ hp
          exact (live_retire.mp hold).2 hp'
        · exact hdead (hrefresh ▸ live)
      | refresh => exact gone (hrefresh ▸ hold)
    · have hlive : Live s.db .refresh (source.member .refresh) := hkey ▸ live
      exact inv.others_dead hsource hmem hlive (grant.trans hgrant) hsame role before
  · rintro _ ⟨⟩
    refine ⟨gone, ?_⟩
    intro old hmem hparent
    exact (inv.spent old hmem token.token hparent).2 live

/-- The condition under which rotations stay on one line. -/
def oneLine (s : Server) (a : Action) : Bool := codeStillStored s a && refreshStillStored s a

theorem step_lineage (s : Server) (a : Action) (t : Server) (inv : Lineage s)
    (single : SingleUse s) (guard : refreshStillStored s a = true)
    (stepped : step s a = some t) : Lineage t := by
  cases a with
  | saveCode authCode =>
    obtain ⟨_, rfl⟩ := step_saveCode.mp stepped
    exact inv.remove rfl ⟨fun _ _ h => h, fun _ _ h => h, fun _ h => h⟩ (fun _ _ h _ _ => h)
      (fun _ _ _ _ h => Or.inl h)
  | loadCode id client code now =>
    exact inv.load stepped (fun _ _ _ h => by cases h) (fun _ _ _ _ _ h => by cases h)
  | takeCode id =>
    obtain ⟨client, authCode, _, rfl⟩ := step_takeCode.mp stepped
    exact inv.takeCode id client authCode
  | issuePair id now accessStr refreshStr =>
    obtain ⟨client, authCode, hget, fresh, rfl⟩ := step_issuePair.mp stepped
    exact inv.issuePair single hget fresh now
  | loadRefresh id client token now =>
    exact inv.load stepped (fun _ _ _ h => by cases h) (fun _ _ _ _ _ h => by cases h)
  | rotate id scopes now accessStr refreshStr =>
    obtain ⟨client, token, hget, fresh, rfl⟩ := step_rotate.mp stepped
    simp only [refreshStillStored, hget, Option.isSome_iff_exists, getRefreshToken_eq_some]
      at guard
    obtain ⟨_, row, hrow, _⟩ := guard
    exact inv.rotate ⟨row, hrow⟩ fresh scopes now
  | loadAccess id token now =>
    exact inv.load stepped (fun _ _ _ h => by cases h) (fun _ _ _ _ _ h => by cases h)
  | drop id =>
    rcases step_drop.mp stepped with ⟨code, _, rfl⟩ | ⟨token, _, rfl⟩ | ⟨token, _, rfl⟩
    · exact inv.move id ⟨fun _ _ h => h, fun _ _ h => h, fun _ h => h⟩ (fun _ _ h _ _ => h)
        (fun _ _ _ h => by cases h)
    · exact inv.move id (removes_deleteToken s.db .refresh token) (fun _ _ h _ _ => h)
        (fun _ _ _ h => by cases h)
    · exact inv.move id (removes_deleteToken s.db .access token) (fun _ _ h _ _ => h)
        (fun _ _ _ h => by cases h)
  | revokeAccess id token now =>
    refine inv.load stepped (fun _ _ _ h => by cases h) ?_
    rintro accessToken ready _ _ _ ⟨⟩
    exact inv.loaded (live_of_inspectAccess inv ready).2
  | revokeRefresh id client token now =>
    refine inv.load stepped (fun _ _ _ h => by cases h) ?_
    rintro refreshToken ready _ _ _ ⟨⟩
    exact inv.loaded (live_of_inspectRefresh inv ready).2
  | revokeStep id =>
    obtain ⟨role, token, stage, db, next, hget, hsection, rfl⟩ := step_revokeStep.mp stepped
    exact inv.revokeSection hget hsection
  | cleanup now =>
    cases stepped
    refine inv.remove rfl (removes_of_shrinks (cleanupExpired_shrinks s.db now)) ?_
      (fun _ _ _ _ h => Or.inl h)
    intro issue _ h haccess _
    exact cleanup_keeps_pair haccess h

/-- What holds together in a run on one line. -/
structure Orderly (s : Server) : Prop where
  single : SingleUse s
  lineage : Lineage s

theorem step_orderly (s : Server) (a : Action) (t : Server) (inv : Orderly s)
    (guard : oneLine s a = true) (stepped : step s a = some t) : Orderly t := by
  obtain ⟨hcode, hrefresh⟩ := Bool.and_eq_true_iff.mp guard
  exact ⟨step_singleUse s a t inv.single hcode stepped,
    step_lineage s a t inv.lineage inv.single hrefresh stepped⟩

/-- How often a refresh token was exchanged. -/
def Server.rotations (s : Server) (token : PyStr) : Nat :=
  s.issues.countP (fun issue => issue.parent = some token)

theorem Lineage.rotations_le {s : Server} (inv : Lineage s) (token : PyStr) :
    s.rotations token ≤ 1 := by
  refine Ledger.countP_le_one (inv.exchanged.imp ?_)
  intro new old differ both
  simp only [decide_eq_true_eq] at both
  exact differ token both

/-- Two issues of a grant that both have a stored member of one kind are one. -/
theorem Lineage.live_unique {s : Server} (inv : Lineage s) {one two : Issue}
    (hone : one ∈ s.issues) (htwo : two ∈ s.issues) (grant : one.grant = two.grant) {role : Role}
    (liveOne : Live s.db role (one.member role)) (liveTwo : Live s.db role (two.member role)) :
    one = two := by
  by_contra hne
  exact inv.others_dead htwo hone liveTwo grant hne role liveOne

/-- Each refresh token is exchanged at most once, and of the pairs descended
from one code at most one refresh token and one access token are stored, in
every run in which each exchange finds the row of what it exchanges. -/
theorem rotation_single_use {acts : List Action} {s : Server}
    (obeys : Replay.Obeys step (fun s a => oneLine s a = true) start acts)
    (ran : Replay.run step start acts = some s) :
    (∀ token, s.rotations token ≤ 1) ∧
    ∀ one ∈ s.issues, ∀ two ∈ s.issues, one.grant = two.grant → ∀ role,
      Live s.db role (one.member role) → Live s.db role (two.member role) → one = two := by
  have orderly : Orderly s :=
    Replay.run_invariant step_orderly ⟨start_singleUse, start_lineage⟩ obeys ran
  refine ⟨orderly.lineage.rotations_le, ?_⟩
  intro one hone two htwo grant role liveOne liveTwo
  exact orderly.lineage.live_unique hone htwo grant liveOne liveTwo

def rotateOnce : List Action :=
  redeemOnce ++ [.loadRefresh 1 demoClient (py "r1") 0, .rotate 1 [] 0 (py "a2") (py "r2")]

theorem rotation_single_use_once : ∃ s, Replay.run step start rotateOnce = some s ∧
    s.issued = [(py "a2", py "r2"), (py "a1", py "r1")] ∧ s.rotations (py "r1") ≤ 1 := by
  refine ⟨_, rfl, rfl, ?_⟩
  exact (@rotation_single_use rotateOnce _ (by decide) rfl).1 (py "r1")

/-- Both requests load the refresh token before either rotates it. -/
def rotateTwice : List Action :=
  redeemOnce ++ [.loadRefresh 1 demoClient (py "r1") 0, .loadRefresh 2 demoClient (py "r1") 0,
    .rotate 1 [] 0 (py "a2") (py "r2"), .rotate 2 [] 0 (py "a3") (py "r3")]

theorem refresh_rotated_twice :
    ¬ ∀ (acts : List Action) (s : Server), Replay.run step start acts = some s →
      (∀ token, s.rotations token ≤ 1) ∧
      ∀ one ∈ s.issues, ∀ two ∈ s.issues, one.grant = two.grant → ∀ role,
        Live s.db role (one.member role) → Live s.db role (two.member role) → one = two := by
  intro h
  have two := (h rotateTwice _ rfl).1 (py "r1")
  revert two
  decide

end OAuthRequests
