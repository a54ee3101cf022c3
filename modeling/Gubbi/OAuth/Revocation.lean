import Gubbi.OAuth.Lineage

/-!
# Finality of a revocation

A revocation deletes its own token and the counterparts it read from the pair
table at its start. It is final as long as that reading stays true until its
last statement: no rotation exchanges the refresh token in between, and cleanup
does not take the pair row before it was read. What one revocation fails to
find, because another one has taken the pair row, the other still has to delete.
-/

namespace OAuthRequests

open Text OAuthStorage OAuthProvider Pairing

/-- A revocation of a member of the pair with this refresh token is under way. -/
def underRevocation (s : Server) (refreshStr : PyStr) : Bool :=
  s.requests.rows.any (fun row =>
    match row.2 with
    | .revoking role token stage =>
      decide (stage ≠ .done) && s.issues.any (fun issue =>
        decide (issue.member role = token ∧ issue.refresh = refreshStr))
    | _ => false)

/-- The access token of a revocation that has yet to read the pairing expires now. -/
def expiresUnderRevocation (s : Server) (now : Micros) : Bool :=
  s.requests.rows.any (fun row =>
    match row.2 with
    | .revoking .access token .loaded =>
      (s.db.accessTokens.get token).any (fun row => expired (toSecs now) row.expiresAt)
    | _ => false)

def revocationUndisturbed (s : Server) : Action → Bool
  | .rotate id _ _ _ _ =>
    match s.requests.get id with
    | some (.refreshLoaded _ token) => !underRevocation s token.token
    | _ => true
  | .cleanup now => !expiresUnderRevocation s now
  | _ => true

theorem underRevocation_of {s : Server} {id : Nat} {role : Role} {token : PyStr} {stage : Stage}
    (hget : s.requests.get id = some (.revoking role token stage)) (running : stage ≠ .done)
    {issue : Issue} (hmem : issue ∈ s.issues) (target : issue.member role = token) :
    underRevocation s issue.refresh = true := by
  refine List.any_eq_true.mpr ⟨_, Table.get_eq_some_iff.mp hget, ?_⟩
  simp only [Bool.and_eq_true, decide_eq_true_eq, List.any_eq_true]
  exact ⟨running, issue, hmem, target, rfl⟩

theorem expiresUnderRevocation_of {s : Server} {now : Micros} {id : Nat} {token : PyStr}
    (hget : s.requests.get id = some (.revoking .access token .loaded))
    {row : Stored AccessToken} (hrow : s.db.accessTokens.get token = some row)
    (expires : expired (toSecs now) row.expiresAt = true) :
    expiresUnderRevocation s now = true := by
  refine List.any_eq_true.mpr ⟨_, Table.get_eq_some_iff.mp hget, ?_⟩
  simpa [hrow] using expires

/-- A revocation among `whose` is in its last loop and will delete the token. -/
def Due (whose : Nat → Prop) (s : Server) (role : Role) (token : PyStr) : Prop :=
  ∃ id own rest, whose id ∧
    s.requests.get id = some (.revoking role.other own (.unpaired rest)) ∧ token ∈ rest

theorem Due.put {whose : Nat → Prop} {s t : Server} {role : Role} {token : PyStr}
    (due : Due whose s role token) {id : Nat} {request : Request}
    (requests : t.requests = s.requests.put id request)
    (other : ∀ own rest, s.requests.get id ≠ some (.revoking role.other own (.unpaired rest))) :
    Due whose t role token := by
  obtain ⟨id', own, rest, hwhose, hget, hmem⟩ := due
  have hne : id' ≠ id := fun h => other own rest (h ▸ hget)
  exact ⟨id', own, rest, hwhose, by rw [requests, Table.get_put_ne _ _ hne, hget], hmem⟩

theorem Due.begin {whose : Nat → Prop} {s t : Server} {role : Role} {token : PyStr}
    (due : Due whose s role token) {id : Nat} {request : Request}
    (begun : s.begin id request = some t) : Due whose t role token := by
  obtain ⟨hnone, rfl⟩ := begin_eq_some.mp begun
  exact due.put rfl (fun own rest h => by rw [hnone] at h; cases h)

/-- A delete that is due stays due until the token is gone. -/
theorem due_step {whose : Nat → Prop} {s t : Server} {a : Action} (stepped : step s a = some t)
    {role : Role} {token : PyStr} (live : Live t.db role token) (due : Due whose s role token) :
    Due whose t role token := by
  cases a with
  | saveCode authCode =>
    obtain ⟨_, rfl⟩ := step_saveCode.mp stepped
    exact due
  | loadCode id client code now => exact due.begin stepped
  | takeCode id =>
    obtain ⟨client, authCode, hget, rfl⟩ := step_takeCode.mp stepped
    exact due.put rfl (by simp [hget])
  | issuePair id now accessStr refreshStr =>
    obtain ⟨client, authCode, hget, _, rfl⟩ := step_issuePair.mp stepped
    exact due.put rfl (by simp [hget])
  | loadRefresh id client token now => exact due.begin stepped
  | rotate id scopes now accessStr refreshStr =>
    obtain ⟨client, token, hget, _, rfl⟩ := step_rotate.mp stepped
    exact due.put rfl (by simp [hget])
  | loadAccess id token now => exact due.begin stepped
  | drop id =>
    rcases step_drop.mp stepped with ⟨code, hget, rfl⟩ | ⟨token, hget, rfl⟩ | ⟨token, hget, rfl⟩
    · exact due.put rfl (by simp [hget])
    · exact due.put rfl (by simp [hget])
    · exact due.put rfl (by simp [hget])
  | revokeAccess id token now => exact due.begin stepped
  | revokeRefresh id client token now => exact due.begin stepped
  | revokeStep id =>
    obtain ⟨acting, own, stage, db, next, hget, hsection, rfl⟩ := step_revokeStep.mp stepped
    cases stage with
    | loaded => exact due.put rfl (by simp [hget])
    | paired counterparts => exact due.put rfl (by simp [hget])
    | deleted counterparts => exact due.put rfl (by simp [hget])
    | unpaired counterparts =>
      obtain ⟨id', own', rest, hwhose, hget', hmem⟩ := due
      by_cases hid : id' = id
      · subst hid
        rw [hget] at hget'
        cases hget'
        cases counterparts with
        | nil => cases hmem
        | cons counterpart rest =>
          cases hsection
          -- The token just deleted is not stored, so what is due is in the rest.
          have hne : token ≠ counterpart := fun h =>
            (live_deleteToken.mp live).2 ⟨(Role.other_other role).symm, h⟩
          have hrest : token ∈ rest := (List.mem_cons.mp hmem).resolve_left hne
          exact ⟨id', own, rest, hwhose, Table.get_put_self _ _ _, hrest⟩
      · exact ⟨id', own', rest, hwhose, (Table.get_put_ne _ _ hid).trans hget', hmem⟩
    | done => cases hsection
  | cleanup now =>
    cases stepped
    exact due

/-- What a step issues: nothing, or one pair from a code or from a refresh token. -/
theorem step_issues {s t : Server} {a : Action} (stepped : step s a = some t) :
    (t.issues = s.issues ∧ Removes s.db t.db) ∨
    (∃ id client authCode now accessStr refreshStr,
      s.requests.get id = some (.codeTaken client authCode) ∧
      a = .issuePair id now accessStr refreshStr) ∨
    (∃ id client token scopes now accessStr refreshStr,
      s.requests.get id = some (.refreshLoaded client token) ∧
      a = .rotate id scopes now accessStr refreshStr) := by
  have same : ∀ {id : Nat} {request : Request}, s.begin id request = some t →
      t.issues = s.issues ∧ Removes s.db t.db := by
    intro id request begun
    obtain ⟨_, rfl⟩ := begin_eq_some.mp begun
    exact ⟨rfl, Removes.refl s.db⟩
  cases a with
  | saveCode authCode =>
    obtain ⟨_, rfl⟩ := step_saveCode.mp stepped
    exact Or.inl ⟨rfl, fun _ _ h => h, fun _ _ h => h, fun _ h => h⟩
  | loadCode id client code now => exact Or.inl (same stepped)
  | takeCode id =>
    obtain ⟨client, authCode, _, rfl⟩ := step_takeCode.mp stepped
    exact Or.inl ⟨rfl, fun _ _ h => h, fun _ _ h => h, fun _ h => h⟩
  | issuePair id now accessStr refreshStr =>
    obtain ⟨client, authCode, hget, _⟩ := step_issuePair.mp stepped
    exact Or.inr (Or.inl ⟨id, client, authCode, now, accessStr, refreshStr, hget, rfl⟩)
  | loadRefresh id client token now => exact Or.inl (same stepped)
  | rotate id scopes now accessStr refreshStr =>
    obtain ⟨client, token, hget, _⟩ := step_rotate.mp stepped
    exact Or.inr (Or.inr ⟨id, client, token, scopes, now, accessStr, refreshStr, hget, rfl⟩)
  | loadAccess id token now => exact Or.inl (same stepped)
  | drop id =>
    rcases step_drop.mp stepped with ⟨code, _, rfl⟩ | ⟨token, _, rfl⟩ | ⟨token, _, rfl⟩
    · exact Or.inl ⟨rfl, fun _ _ h => h, fun _ _ h => h, fun _ h => h⟩
    · exact Or.inl ⟨rfl, removes_deleteToken s.db .refresh token⟩
    · exact Or.inl ⟨rfl, removes_deleteToken s.db .access token⟩
  | revokeAccess id token now => exact Or.inl (same stepped)
  | revokeRefresh id client token now => exact Or.inl (same stepped)
  | revokeStep id =>
    obtain ⟨role, token, stage, db, next, _, hsection, rfl⟩ := step_revokeStep.mp stepped
    exact Or.inl ⟨rfl, removes_revokeSection hsection⟩
  | cleanup now =>
    cases stepped
    exact Or.inl ⟨rfl, removes_of_shrinks (cleanupExpired_shrinks s.db now)⟩

def Anyone (_ : Nat) : Prop := True

def Stage.counterparts : Stage → List PyStr
  | .loaded => []
  | .paired counterparts => counterparts
  | .deleted counterparts => counterparts
  | .unpaired counterparts => counterparts
  | .done => []

/-- What will take the counterpart of a revoked token, at each stage: the pair
row still to be read, the list that was read, or somebody's last loop. -/
def WillTake (s : Server) (role : Role) (issue : Issue) : Stage → Prop
  | .loaded => issue.pair ∈ s.db.tokenPairs ∨ Due Anyone s role.other (issue.member role.other)
  | .paired counterparts => issue.member role.other ∈ counterparts ∨
      Due Anyone s role.other (issue.member role.other)
  | .deleted counterparts => issue.member role.other ∈ counterparts ∨
      Due Anyone s role.other (issue.member role.other)
  | .unpaired _ => Due Anyone s role.other (issue.member role.other)
  | .done => Due Anyone s role.other (issue.member role.other)

/-- The revocation holds counterparts of its own pair only, no other pair of the
grant is stored, and a counterpart that is stored will be taken. -/
structure Covered (s : Server) (role : Role) (token : PyStr) (stage : Stage) : Prop where
  own : ∀ counterpart ∈ stage.counterparts, ∃ issue ∈ s.issues,
    issue.member role = token ∧ issue.member role.other = counterpart
  alone : ∀ issue ∈ s.issues, issue.member role = token → ∀ other ∈ s.issues,
    other.grant = issue.grant → other ≠ issue → ∀ role, ¬ Live s.db role (other.member role)
  willTake : ∀ issue ∈ s.issues, issue.member role = token →
    Live s.db role.other (issue.member role.other) → WillTake s role issue stage

structure Revocations (s : Server) : Prop where
  paired : ∀ issue ∈ s.issues, Live s.db .access issue.access →
    issue.pair ∈ s.db.tokenPairs ∨ Due Anyone s .access issue.access
  covered : ∀ id role token stage,
    s.requests.get id = some (.revoking role token stage) → Covered s role token stage

theorem start_revocations : Revocations start :=
  ⟨by simp [start], by simp [start]⟩

/-- Everything a revocation knows stays true under a step that issues nothing,
as long as the pair row it has yet to read stays or stops to matter. -/
theorem Covered.keep {s t : Server} {role : Role} {token : PyStr} {stage : Stage}
    (covered : Covered s role token stage) (issues : t.issues = s.issues)
    (removes : Removes s.db t.db)
    (due : ∀ role token, Live t.db role token → Due Anyone s role token → Due Anyone t role token)
    (pairs : stage = .loaded → ∀ issue ∈ s.issues, issue.member role = token →
      Live t.db role.other (issue.member role.other) → issue.pair ∈ s.db.tokenPairs →
        issue.pair ∈ t.db.tokenPairs ∨ Due Anyone t role.other (issue.member role.other)) :
    Covered t role token stage where
  own := issues ▸ covered.own
  alone := by
    rw [issues]
    intro issue hissue target other hother grant hne role live
    exact covered.alone issue hissue target other hother grant hne role (removes.live live)
  willTake := by
    rw [issues]
    intro issue hmem target live
    have before := covered.willTake issue hmem target (removes.live live)
    have keep := due _ _ live
    cases stage with
    | loaded =>
      rcases before with h | h
      · exact pairs rfl issue hmem target live h
      · exact Or.inr (keep h)
    | paired counterparts => exact before.imp_right keep
    | deleted counterparts => exact before.imp_right keep
    | unpaired counterparts => exact keep before
    | done => exact keep before

/-- Steps that issue nothing and move no revocation. -/
theorem Revocations.keep {s t : Server} (inv : Revocations s) (issues : t.issues = s.issues)
    (removes : Removes s.db t.db)
    (due : ∀ role token, Live t.db role token → Due Anyone s role token → Due Anyone t role token)
    (pairs : ∀ issue ∈ s.issues, Live t.db .access issue.access → issue.pair ∈ s.db.tokenPairs →
      issue.pair ∈ t.db.tokenPairs ∨ Due Anyone t .access issue.access)
    (unread : ∀ id issue, issue ∈ s.issues →
      s.requests.get id = some (.revoking .access issue.access .loaded) →
      Live t.db .refresh issue.refresh → issue.pair ∈ s.db.tokenPairs →
        issue.pair ∈ t.db.tokenPairs ∨ Due Anyone t .refresh issue.refresh)
    (requests : ∀ id role token stage, t.requests.get id = some (.revoking role token stage) →
      s.requests.get id = some (.revoking role token stage) ∨ Covered t role token stage) :
    Revocations t where
  paired := by
    rw [issues]
    intro issue hmem live
    rcases inv.paired issue hmem (removes.live live) with h | h
    · exact pairs issue hmem live h
    · exact Or.inr (due _ _ live h)
  covered := by
    intro id role token stage h
    rcases requests id role token stage h with hold | hnew
    · refine (inv.covered id role token stage hold).keep issues removes due ?_
      rintro rfl issue hmem rfl live hp
      cases role with
      | access => exact unread id issue hmem hold live hp
      | refresh => exact pairs issue hmem live hp
    · exact hnew

theorem mem_getPaired {s : Server} (lineage : Lineage s) {role : Role} {issue : Issue}
    (hmem : issue ∈ s.issues) (pair : issue.pair ∈ s.db.tokenPairs) :
    issue.member role.other ∈ getPaired s.db role (issue.member role) := by
  cases role with
  | access =>
    have hne : (issue.refresh).isEmpty = false := by simpa using lineage.nonempty issue hmem
    cases h : getPairedRefreshToken s.db issue.access with
    | none => exact False.elim (getPairedRefreshToken_none h issue.refresh pair)
    | some refreshStr =>
      obtain ⟨other, hother, hpair⟩ := List.mem_map.mp
        (lineage.recorded _ (getPairedRefreshToken_mem h))
      obtain ⟨haccess, hrefresh⟩ := Prod.mk.inj hpair
      have hsame : other = issue :=
        lineage.eq_of_member hother hmem (show other.member .access = _ from haccess)
      subst hsame
      have hread : getPairedRefreshToken s.db other.access = some other.refresh := by
        rw [h, hrefresh]
      refine List.mem_filter.mpr ⟨Option.mem_toList.mpr hread, ?_⟩
      exact congrArg Bool.not hne
  | refresh => exact mem_getPairedAccessTokens.mpr pair

theorem getPaired_own {s : Server} (lineage : Lineage s) {role : Role} {token counterpart : PyStr}
    (hmem : counterpart ∈ getPaired s.db role token) :
    ∃ issue ∈ s.issues, issue.member role = token ∧ issue.member role.other = counterpart := by
  cases role with
  | access =>
    obtain ⟨hread, _⟩ := List.mem_filter.mp hmem
    rw [Option.mem_toList] at hread
    obtain ⟨issue, hissue, hpair⟩ := List.mem_map.mp
      (lineage.recorded _ (getPairedRefreshToken_mem hread))
    obtain ⟨haccess, hrefresh⟩ := Prod.mk.inj hpair
    exact ⟨issue, hissue, haccess, hrefresh⟩
  | refresh =>
    obtain ⟨issue, hissue, hpair⟩ := List.mem_map.mp
      (lineage.recorded _ (mem_getPairedAccessTokens.mp hmem))
    obtain ⟨haccess, hrefresh⟩ := Prod.mk.inj hpair
    exact ⟨issue, hissue, hrefresh, haccess⟩

/-- A delete that is due names the pair of the revocation it is due from. -/
theorem Revocations.due_source {s : Server} (inv : Revocations s) {role : Role} {token : PyStr}
    (due : Due Anyone s role token) : ∃ id own rest,
      s.requests.get id = some (.revoking role.other own (.unpaired rest)) ∧
      ∃ issue ∈ s.issues, issue.member role.other = own ∧ issue.member role = token := by
  obtain ⟨id, own, rest, _, hget, hmem⟩ := due
  obtain ⟨issue, hissue, hown, hcounterpart⟩ := (inv.covered id _ own _ hget).own token hmem
  rw [Role.other_other] at hcounterpart
  exact ⟨id, own, rest, hget, issue, hissue, hown, hcounterpart⟩

/-- A revocation that has just loaded a stored token. -/
theorem Revocations.loaded {s : Server} (inv : Revocations s) (lineage : Lineage s)
    {role : Role} {token : PyStr} (live : Live s.db role token) :
    Covered s role token .loaded where
  own := fun _ h => by cases h
  alone := by
    rintro issue hissue rfl other hother grant hne
    exact lineage.others_dead hissue hother live grant hne
  willTake := by
    rintro issue hissue rfl hcounterpart
    cases role with
    | refresh => exact inv.paired issue hissue hcounterpart
    | access =>
      rcases inv.paired issue hissue live with h | h
      · exact Or.inl h
      · -- Whoever is about to take the access token has taken the refresh token before.
        obtain ⟨id, own, rest, hget, source, hsource, hown, haccess⟩ := inv.due_source h
        have hsame : source = issue :=
          lineage.eq_of_member hsource hissue (show source.member .access = _ from haccess)
        subst hsame
        have gone := (lineage.revocations id _ own _ hget).2 trivial
        exact False.elim (gone (hown ▸ hcounterpart))

theorem Revocations.move {s : Server} (inv : Revocations s) {a : Action} {id : Nat} {db : Db}
    {request : Request} (stepped : step s a = some (s.advance id db request))
    (removes : Removes s.db db) (pairs : db.tokenPairs = s.db.tokenPairs)
    (ok : ∀ role token stage, request = .revoking role token stage →
      Covered (s.advance id db request) role token stage) :
    Revocations (s.advance id db request) := by
  refine inv.keep rfl removes (fun _ _ live due => due_step stepped live due) ?_ ?_ ?_
  · intro issue _ _ h
    exact Or.inl (pairs ▸ h)
  · intro _ issue _ _ _ h
    exact Or.inl (pairs ▸ h)
  · intro id' role token stage h
    rcases Table.get_put_eq_some h with ⟨_, heq⟩ | ⟨_, hold⟩
    · exact Or.inr (ok role token stage heq.symm)
    · exact Or.inl hold

theorem Revocations.load {s t : Server} (inv : Revocations s) {a : Action} {id : Nat} {α : Type}
    {dropping : Request} {ready : α → Request} {found : Inspected α}
    (stepped : step s a = some t)
    (begun : s.begin id (afterLoad dropping ready found) = some t)
    (hdropping : ∀ role token stage, dropping ≠ .revoking role token stage)
    (hready : ∀ value, found = .ready value → ∀ role token stage,
      ready value = .revoking role token stage → Covered s role token stage) :
    Revocations t := by
  have started := begin_eq_some.mp begun
  obtain ⟨_, rfl⟩ := started
  have due : ∀ role token, Due Anyone s role token → Due Anyone _ role token :=
    fun _ _ h => h.begin begun
  refine inv.move stepped (Removes.refl s.db) rfl ?_
  intro role token stage heq
  cases found with
  | absent => cases heq
  | drop => exact False.elim (hdropping role token stage heq)
  | ready value =>
    exact (hready value rfl role token stage heq).keep rfl (Removes.refl s.db)
      (fun role token _ h => due role token h) (fun _ _ _ _ _ h => Or.inl h)
  | raised e => cases heq

/-- The four statements of a revocation. -/
theorem Revocations.revokeSection {s : Server} (inv : Revocations s) (lineage : Lineage s)
    {id : Nat} {role : Role} {token : PyStr} {stage next : Stage} {db : Db}
    (hget : s.requests.get id = some (.revoking role token stage))
    (hsection : revokeSection s.db role token stage = some (db, next)) :
    Revocations (s.advance id db (.revoking role token next)) := by
  have stepped : step s (.revokeStep id) = some (s.advance id db (.revoking role token next)) :=
    step_revokeStep.mpr ⟨role, token, stage, db, next, hget, hsection, rfl⟩
  have covered := inv.covered id role token stage hget
  have removes := removes_revokeSection hsection
  have alone : ∀ issue ∈ s.issues, issue.member role = token → ∀ other ∈ s.issues,
      other.grant = issue.grant → other ≠ issue →
        ∀ role, ¬ Live db role (other.member role) := by
    intro issue hissue target other hother grant hne role live
    exact covered.alone issue hissue target other hother grant hne role (removes.live live)
  have due : ∀ {role' token'}, Live db role' token' → Due Anyone s role' token' →
      Due Anyone (s.advance id db (.revoking role token next)) role' token' :=
    fun live h => due_step stepped live h
  cases stage with
  | loaded =>
    cases hsection
    refine inv.move stepped removes rfl ?_
    rintro _ _ _ ⟨⟩
    refine ⟨fun counterpart hmem => getPaired_own lineage hmem, alone, ?_⟩
    rintro issue hissue rfl live
    rcases covered.willTake issue hissue rfl live with h | h
    · exact Or.inl (mem_getPaired lineage hissue h)
    · exact Or.inr (due live h)
  | paired counterparts =>
    cases hsection
    refine inv.move stepped removes (deleteToken_tokenPairs _ _ _) ?_
    rintro _ _ _ ⟨⟩
    refine ⟨covered.own, alone, ?_⟩
    intro issue hissue target live
    exact (covered.willTake issue hissue target (removes.live live)).imp_right (due live)
  | deleted counterparts =>
    cases hsection
    have gone := (lineage.revocations id role token _ hget).2 trivial
    -- From here on the list that was read is what this revocation is due to delete.
    have taken : ∀ issue ∈ s.issues, issue.member role = token →
        Live s.db role.other (issue.member role.other) →
        Due Anyone (s.advance id (deleteTokenPairBy s.db role token)
          (.revoking role token (.unpaired counterparts))) role.other
          (issue.member role.other) := by
      intro issue hissue target live
      rcases covered.willTake issue hissue target live with h | h
      · exact ⟨id, token, counterparts, trivial, by simp [Server.advance], h⟩
      · exact due (live_deleteTokenPairBy.mpr live) h
    have lost : ∀ role' issue, issue ∈ s.issues → issue.pair ∈ s.db.tokenPairs →
        Live s.db role' (issue.member role') →
        issue.pair ∈ (deleteTokenPairBy s.db role token).tokenPairs ∨
        Due Anyone (s.advance id (deleteTokenPairBy s.db role token)
          (.revoking role token (.unpaired counterparts))) role' (issue.member role') := by
      intro role' issue hissue hp live
      by_cases target : issue.member role = token
      · rcases Role.eq_or_eq_other role role' with rfl | rfl
        · exact False.elim (gone (target ▸ live))
        · exact Or.inr (taken issue hissue target live)
      · exact Or.inl (mem_deleteTokenPairBy.mpr ⟨hp, target⟩)
    refine inv.keep rfl removes (fun _ _ live h => due live h) ?_ ?_ ?_
    · intro issue hissue live hp
      exact lost .access issue hissue hp (live_deleteTokenPairBy.mp live)
    · intro _ issue hissue _ live hp
      exact lost .refresh issue hissue hp (live_deleteTokenPairBy.mp live)
    · intro id' role' token' stage' h
      rcases Table.get_put_eq_some h with ⟨_, heq⟩ | ⟨_, hold⟩
      · cases heq
        refine Or.inr ⟨covered.own, alone, ?_⟩
        intro issue hissue target live
        exact taken issue hissue target (live_deleteTokenPairBy.mp live)
      · exact Or.inl hold
  | unpaired counterparts =>
    cases counterparts with
    | nil =>
      cases hsection
      refine inv.move stepped removes rfl ?_
      rintro _ _ _ ⟨⟩
      refine ⟨(fun _ h => by cases h), alone, ?_⟩
      intro issue hissue target live
      exact due live (covered.willTake issue hissue target live)
    | cons counterpart rest =>
      cases hsection
      refine inv.move stepped removes (deleteToken_tokenPairs _ _ _) ?_
      rintro _ _ _ ⟨⟩
      refine ⟨fun other hmem => covered.own other (List.mem_cons_of_mem _ hmem), alone, ?_⟩
      intro issue hissue target live
      exact due live (covered.willTake issue hissue target (removes.live live))
  | done => cases hsection

/-- A fresh pair for a grant that no revocation is concerned with. -/
theorem Revocations.issue {s : Server} (inv : Revocations s) (lineage : Lineage s) (issue : Issue)
    (fresh : Fresh s.issued issue.access issue.refresh)
    (free : ∀ id role token stage, s.requests.get id = some (.revoking role token stage) →
      ∀ old ∈ s.issues, old.member role = token → old.grant ≠ issue.grant)
    (access : AccessToken) (refresh : RefreshToken) :
    Revocations { s with
      db := saveIssuedTokenPair s.db issue.access access issue.refresh refresh
      issues := issue :: s.issues } := by
  have stays : ∀ old ∈ s.issues, ∀ role,
      Live (saveIssuedTokenPair s.db issue.access access issue.refresh refresh) role
        (old.member role) → Live s.db role (old.member role) :=
    fun _ hmem _ live => Fresh.live fresh hmem live
  -- No revocation acts on a member of the new pair.
  have older : ∀ {id role token stage}, s.requests.get id = some (.revoking role token stage) →
      ∀ {target}, target ∈ issue :: s.issues → target.member role = token →
        target ∈ s.issues := by
    intro id role token stage hget target hmem htarget
    rcases List.mem_cons.mp hmem with rfl | hmem
    · obtain ⟨⟨old, hold, hown⟩, _⟩ := lineage.revocations id role token stage hget
      exact False.elim (Fresh.member_ne fresh hold role (hown.trans htarget.symm))
    · exact hmem
  refine ⟨?_, ?_⟩
  · intro old hmem live
    rcases List.mem_cons.mp hmem with rfl | hmem
    · exact Or.inl (List.mem_append_right _ (List.mem_singleton.mpr rfl))
    · exact (inv.paired old hmem (stays old hmem .access live)).imp_left
        (List.mem_append_left _)
  · intro id role token stage hget
    have covered := inv.covered id role token stage hget
    refine ⟨?_, ?_, ?_⟩
    · intro counterpart hmem
      obtain ⟨old, hold, hown, hcounterpart⟩ := covered.own counterpart hmem
      exact ⟨old, List.mem_cons_of_mem _ hold, hown, hcounterpart⟩
    · intro target htarget hown other hother grant hne role' live
      have hold := older hget htarget hown
      rcases List.mem_cons.mp hother with rfl | hother
      · exact free id role token stage hget target hold hown grant.symm
      · exact covered.alone target hold hown other hother grant hne role'
          (stays other hother role' live)
    · intro target htarget hown live
      have hold := older hget htarget hown
      have before := covered.willTake target hold hown (stays target hold _ live)
      cases stage with
      | loaded => exact before.imp_left (List.mem_append_left _)
      | paired counterparts => exact before
      | deleted counterparts => exact before
      | unpaired counterparts => exact before
      | done => exact before

/-- With nothing of its pair under revocation, a stored refresh token belongs to
a grant that no revocation is concerned with. -/
theorem Revocations.grant_free {s : Server} (inv : Revocations s) (lineage : Lineage s)
    {source : Issue} (hsource : source ∈ s.issues) (live : Live s.db .refresh source.refresh)
    (quiet : underRevocation s source.refresh = false) {id : Nat} {role : Role} {token : PyStr}
    {stage : Stage} (hget : s.requests.get id = some (.revoking role token stage))
    {old : Issue} (hold : old ∈ s.issues) (target : old.member role = token) :
    old.grant ≠ source.grant := by
  intro grant
  have covered := inv.covered id role token stage hget
  have hsame : source = old := by
    by_contra hne
    exact covered.alone old hold target source hsource grant.symm hne .refresh live
  subst hsame
  by_cases hdone : stage = .done
  · subst hdone
    cases role with
    | access =>
      have due : Due Anyone s .refresh source.refresh := covered.willTake source hold target live
      obtain ⟨id', own, rest, hget', source', hsource', hown, hrefresh⟩ := inv.due_source due
      have busy := underRevocation_of hget' (by simp) hsource' hown
      rw [show source'.refresh = source.refresh from hrefresh, quiet] at busy
      cases busy
    | refresh =>
      have gone := (lineage.revocations id _ token _ hget).2 trivial
      exact gone (target ▸ live)
  · have busy := underRevocation_of hget hdone hold target
    rw [quiet] at busy
    cases busy

theorem Revocations.rotate {s : Server} (inv : Revocations s) (lineage : Lineage s) {id : Nat}
    {client : Client} {token : RefreshToken}
    (holds : s.requests.get id = some (.refreshLoaded client token))
    (live : Live s.db .refresh token.token) (quiet : underRevocation s token.token = false)
    {accessStr refreshStr : PyStr} (fresh : Fresh s.issued accessStr refreshStr)
    (scopes : List PyStr) (now : Micros) :
    Revocations { s.advance id
        (exchangeRefreshToken s.db client token scopes now accessStr refreshStr).1
        (.granted accessStr refreshStr) with
      issues := ⟨id, s.grantOf token.token, some token.token, accessStr, refreshStr⟩ ::
        s.issues } := by
  obtain ⟨source, hsource, hkey⟩ := lineage.stored .refresh token.token live
  have hrefresh : source.refresh = token.token := hkey
  have hgrant : s.grantOf token.token = source.grant := hrefresh ▸ lineage.grantOf_eq hsource
  have removes := removes_of_shrinks (retireRefreshToken_shrinks s.db token.token)
  -- A pair row that goes takes both members with it.
  have keepsPair : ∀ (role : Role) (issue : Issue), issue.pair ∈ s.db.tokenPairs →
      Live (retireRefreshToken s.db token.token) role (issue.member role) →
      issue.pair ∈ (retireRefreshToken s.db token.token).tokenPairs := by
    intro role issue hp hlive
    rw [retire_tokenPairs, List.mem_filter]
    refine ⟨hp, decide_eq_true ?_⟩
    cases role with
    | access => exact fun h => (live_retire.mp hlive).2 (h ▸ hp)
    | refresh => exact (live_retire.mp hlive).2
  have due : ∀ role token', Due Anyone s role token' →
      Due Anyone (s.advance id (retireRefreshToken s.db token.token)
        (.granted accessStr refreshStr)) role token' :=
    fun _ _ h => h.put rfl (by simp [holds])
  have requests : ∀ id' role token' stage, (s.requests.put id (.granted accessStr refreshStr)).get
      id' = some (.revoking role token' stage) →
      s.requests.get id' = some (.revoking role token' stage) := by
    intro id' role token' stage h
    rcases Table.get_put_eq_some h with ⟨_, heq⟩ | ⟨_, hold⟩
    · cases heq
    · exact hold
  have moved : Revocations (s.advance id (retireRefreshToken s.db token.token)
      (.granted accessStr refreshStr)) := by
    refine inv.keep rfl removes (fun role token' _ h => due role token' h) ?_ ?_
      (fun id' role token' stage h => Or.inl (requests id' role token' stage h))
    · intro issue _ hlive hp
      exact Or.inl (keepsPair .access issue hp hlive)
    · intro _ issue _ _ hlive hp
      exact Or.inl (keepsPair .refresh issue hp hlive)
  have movedLineage : Lineage (s.advance id (retireRefreshToken s.db token.token)
      (.granted accessStr refreshStr)) :=
    lineage.move id removes (fun issue _ hp _ hlive => keepsPair .refresh issue hp hlive)
      (fun _ _ _ h => by cases h)
  refine moved.issue movedLineage
    ⟨id, s.grantOf token.token, some token.token, accessStr, refreshStr⟩ fresh ?_ _ _
  intro id' role token' stage hget old hold target
  have hget := requests id' role token' stage hget
  rw [hgrant]
  exact inv.grant_free lineage hsource (hrefresh ▸ live) (hrefresh ▸ quiet) hget hold target

theorem Revocations.issuePair {s : Server} (inv : Revocations s) (orderly : Orderly s) {id : Nat}
    {client : Client} {authCode : AuthorizationCode}
    (holds : s.requests.get id = some (.codeTaken client authCode)) {accessStr refreshStr : PyStr}
    (fresh : Fresh s.issued accessStr refreshStr) (now : Micros) :
    Revocations { s.advance id
        (issueTokenPair s.db client.idOrEmpty authCode.scopes authCode.resource now
          accessStr refreshStr).1
        (.granted accessStr refreshStr) with
      issues := ⟨id, authCode.code, none, accessStr, refreshStr⟩ :: s.issues } := by
  have requests : ∀ id' role token stage, (s.requests.put id (.granted accessStr refreshStr)).get
      id' = some (.revoking role token stage) →
      s.requests.get id' = some (.revoking role token stage) := by
    intro id' role token stage h
    rcases Table.get_put_eq_some h with ⟨_, heq⟩ | ⟨_, hold⟩
    · cases heq
    · exact hold
  have moved : Revocations (s.advance id s.db (.granted accessStr refreshStr)) :=
    inv.keep rfl (Removes.refl s.db) (fun _ _ _ h => h.put rfl (by simp [holds]))
      (fun _ _ _ h => Or.inl h) (fun _ _ _ _ _ h => Or.inl h)
      (fun id' role token stage h => Or.inl (requests id' role token stage h))
  have movedLineage : Lineage (s.advance id s.db (.granted accessStr refreshStr)) :=
    orderly.lineage.move id (Removes.refl s.db) (fun _ _ h _ _ => h) (fun _ _ _ h => by cases h)
  refine moved.issue movedLineage ⟨id, authCode.code, none, accessStr, refreshStr⟩ fresh ?_ _ _
  intro _ _ _ _ _ old hold _ grant
  exact orderly.lineage.grant_unissued orderly.single holds hold grant

theorem Revocations.cleanup {s : Server} (inv : Revocations s) {now : Micros}
    (quiet : expiresUnderRevocation s now = false) :
    Revocations { s with db := (cleanupExpired s.db now).1 } := by
  refine inv.keep rfl (removes_of_shrinks (cleanupExpired_shrinks s.db now))
    (fun _ _ _ h => h) ?_ ?_ (fun _ _ _ _ h => Or.inl h)
  · intro issue _ live hp
    exact Or.inl (cleanup_keeps_pair live hp)
  · intro id issue hmem hget live hp
    refine Or.inl ?_
    rw [cleanup_tokenPairs, List.mem_filter]
    refine ⟨hp, ?_⟩
    obtain ⟨refreshRow, hrow⟩ := live
    obtain ⟨hrow, hlive⟩ := cleanup_refreshTokens.mp hrow
    have haccess : (s.db.accessTokens.get issue.access).any
        (fun row => expired (toSecs now) row.expiresAt) = false := by
      rw [Bool.eq_false_iff]
      intro hany
      obtain ⟨row, hrow, hexpired⟩ := (Option.any_eq_true _ _).mp hany
      rw [expiresUnderRevocation_of hget hrow hexpired] at quiet
      cases quiet
    simp [pairExpired, Issue.pair, haccess, hrow, hlive]

theorem step_revocations (s : Server) (a : Action) (t : Server) (inv : Revocations s)
    (orderly : Orderly s) (guard : oneLine s a = true)
    (undisturbed : revocationUndisturbed s a = true) (stepped : step s a = some t) :
    Revocations t := by
  have lineage := orderly.lineage
  cases a with
  | saveCode authCode =>
    obtain ⟨_, rfl⟩ := step_saveCode.mp stepped
    exact inv.keep rfl ⟨fun _ _ h => h, fun _ _ h => h, fun _ h => h⟩ (fun _ _ _ h => h)
      (fun _ _ _ h => Or.inl h) (fun _ _ _ _ _ h => Or.inl h) (fun _ _ _ _ h => Or.inl h)
  | loadCode id client code now =>
    exact inv.load stepped stepped (fun _ _ _ h => by cases h) (fun _ _ _ _ _ h => by cases h)
  | takeCode id =>
    obtain ⟨client, authCode, _, rfl⟩ := step_takeCode.mp stepped
    exact inv.move stepped ⟨fun _ _ h => h, fun _ _ h => h, fun _ h => h⟩ rfl
      (fun _ _ _ h => by cases h)
  | issuePair id now accessStr refreshStr =>
    obtain ⟨client, authCode, hget, fresh, rfl⟩ := step_issuePair.mp stepped
    exact inv.issuePair orderly hget fresh now
  | loadRefresh id client token now =>
    exact inv.load stepped stepped (fun _ _ _ h => by cases h) (fun _ _ _ _ _ h => by cases h)
  | rotate id scopes now accessStr refreshStr =>
    obtain ⟨client, token, hget, fresh, rfl⟩ := step_rotate.mp stepped
    obtain ⟨_, hstored⟩ := Bool.and_eq_true_iff.mp guard
    simp only [refreshStillStored, hget, Option.isSome_iff_exists, getRefreshToken_eq_some]
      at hstored
    obtain ⟨_, row, hrow, _⟩ := hstored
    have quiet : underRevocation s token.token = false := by
      simpa [revocationUndisturbed, hget] using undisturbed
    exact inv.rotate lineage hget ⟨row, hrow⟩ quiet fresh scopes now
  | loadAccess id token now =>
    exact inv.load stepped stepped (fun _ _ _ h => by cases h) (fun _ _ _ _ _ h => by cases h)
  | drop id =>
    rcases step_drop.mp stepped with ⟨code, _, rfl⟩ | ⟨token, _, rfl⟩ | ⟨token, _, rfl⟩
    · exact inv.move stepped ⟨fun _ _ h => h, fun _ _ h => h, fun _ h => h⟩ rfl
        (fun _ _ _ h => by cases h)
    · exact inv.move stepped (removes_deleteToken s.db .refresh token) rfl
        (fun _ _ _ h => by cases h)
    · exact inv.move stepped (removes_deleteToken s.db .access token) rfl
        (fun _ _ _ h => by cases h)
  | revokeAccess id token now =>
    refine inv.load stepped stepped (fun _ _ _ h => by cases h) ?_
    rintro accessToken ready _ _ _ ⟨⟩
    exact inv.loaded lineage (live_of_inspectAccess lineage ready).2
  | revokeRefresh id client token now =>
    refine inv.load stepped stepped (fun _ _ _ h => by cases h) ?_
    rintro refreshToken ready _ _ _ ⟨⟩
    exact inv.loaded lineage (live_of_inspectRefresh lineage ready).2
  | revokeStep id =>
    obtain ⟨role, token, stage, db, next, hget, hsection, rfl⟩ := step_revokeStep.mp stepped
    exact inv.revokeSection lineage hget hsection
  | cleanup now =>
    cases stepped
    exact inv.cleanup (by simpa [revocationUndisturbed] using undisturbed)

/-- A grant whose stored tokens are all due to be deleted by known requests. -/
structure Closing (whose : Nat → Prop) (grant : PyStr) (s : Server) : Prop where
  known : ∃ issue ∈ s.issues, issue.grant = grant
  due : ∀ issue ∈ s.issues, issue.grant = grant → ∀ role, Live s.db role (issue.member role) →
    Due whose s role (issue.member role)

theorem Due.anyone {whose : Nat → Prop} {s : Server} {role : Role} {token : PyStr}
    (due : Due whose s role token) : Due Anyone s role token := by
  obtain ⟨id, own, rest, _, hget, hmem⟩ := due
  exact ⟨id, own, rest, trivial, hget, hmem⟩

/-- Once a revocation is done, only the requests of that moment are left to act. -/
theorem closing_of_done {s : Server} (inv : Revocations s) (lineage : Lineage s) {id : Nat}
    {role : Role} {token : PyStr} (returned : s.requests.get id = some (.revoking role token .done))
    {issue : Issue} (hmem : issue ∈ s.issues) (target : issue.member role = token) :
    Closing (fun id => s.requests.get id ≠ none) issue.grant s := by
  have covered := inv.covered id role token .done returned
  have gone := (lineage.revocations id role token .done returned).2 trivial
  refine ⟨⟨issue, hmem, rfl⟩, ?_⟩
  intro other hother grant role' live
  by_cases hsame : other = issue
  · subst hsame
    rcases Role.eq_or_eq_other role role' with rfl | rfl
    · exact False.elim (gone (target ▸ live))
    · obtain ⟨id', own, rest, _, hget, hrest⟩ := covered.willTake other hmem target live
      exact ⟨id', own, rest, by simp [hget], hget, hrest⟩
  · exact False.elim (covered.alone issue hmem target other hother grant hsame role' live)

theorem step_closing {whose : Nat → Prop} {grant : PyStr} (s : Server) (a : Action) (t : Server)
    (closing : Closing whose grant s) (inv : Revocations s) (orderly : Orderly s)
    (guard : oneLine s a = true) (undisturbed : revocationUndisturbed s a = true)
    (stepped : step s a = some t) : Closing whose grant t := by
  have lineage := orderly.lineage
  rcases step_issues stepped with ⟨issues, removes⟩ |
      ⟨id, client, authCode, now, accessStr, refreshStr, hget, rfl⟩ |
      ⟨id, client, token, scopes, now, accessStr, refreshStr, hget, rfl⟩
  · refine ⟨issues ▸ closing.known, ?_⟩
    rw [issues]
    intro issue hmem hgrant role live
    exact due_step stepped live (closing.due issue hmem hgrant role (removes.live live))
  · -- A taken code is not the closing grant, which has an issue already.
    have hne : authCode.code ≠ grant := by
      rintro rfl
      obtain ⟨issue, hmem, hgrant⟩ := closing.known
      exact lineage.grant_unissued orderly.single hget hmem hgrant
    obtain ⟨_, _, hget', fresh, rfl⟩ := step_issuePair.mp stepped
    cases hget.symm.trans hget'
    obtain ⟨issue, hmem, hgrant⟩ := closing.known
    refine ⟨⟨issue, List.mem_cons_of_mem _ hmem, hgrant⟩, ?_⟩
    intro old hold hgrant role live
    rcases List.mem_cons.mp hold with rfl | hold
    · exact False.elim (hne hgrant)
    · refine due_step stepped live (closing.due old hold hgrant role ?_)
      exact @Fresh.live s ⟨id, authCode.code, none, accessStr, refreshStr⟩ old fresh hold role _ _
        live
  · -- The rotated token is stored, so it is not of the closing grant.
    obtain ⟨_, hstored⟩ := Bool.and_eq_true_iff.mp guard
    simp only [refreshStillStored, hget, Option.isSome_iff_exists, getRefreshToken_eq_some]
      at hstored
    obtain ⟨_, row, hrow, _⟩ := hstored
    have quiet : underRevocation s token.token = false := by
      simpa [revocationUndisturbed, hget] using undisturbed
    obtain ⟨source, hsource, hkey⟩ := lineage.stored .refresh token.token ⟨row, hrow⟩
    have hrefresh : source.refresh = token.token := hkey
    have hlive : Live s.db .refresh source.refresh := hrefresh ▸ ⟨row, hrow⟩
    have hne : s.grantOf token.token ≠ grant := by
      rw [← hrefresh, lineage.grantOf_eq hsource]
      intro hgrant
      obtain ⟨id', own, rest, hget', issue, hissue, hown, hmember⟩ :=
        inv.due_source (closing.due source hsource hgrant .refresh hlive).anyone
      have busy := underRevocation_of hget' (by simp) hissue hown
      rw [show issue.refresh = token.token from hmember.trans hrefresh, quiet] at busy
      cases busy
    obtain ⟨_, _, hget', fresh, rfl⟩ := step_rotate.mp stepped
    cases hget.symm.trans hget'
    obtain ⟨issue, hmem, hgrant⟩ := closing.known
    refine ⟨⟨issue, List.mem_cons_of_mem _ hmem, hgrant⟩, ?_⟩
    intro old hold hgrant role live
    rcases List.mem_cons.mp hold with rfl | hold
    · exact False.elim (hne hgrant)
    · refine due_step stepped live (closing.due old hold hgrant role ?_)
      have retired := @Fresh.live
        (s.advance id (retireRefreshToken s.db token.token) (.granted accessStr refreshStr))
        ⟨id, s.grantOf token.token, some token.token, accessStr, refreshStr⟩ old fresh hold role
        _ _ live
      exact (live_retire.mp retired).1

/-- The condition under which a revocation is final. -/
def revocationGuard (s : Server) (a : Action) : Bool := oneLine s a && revocationUndisturbed s a

structure Settled (s : Server) : Prop where
  orderly : Orderly s
  revocations : Revocations s

theorem start_settled : Settled start :=
  ⟨⟨start_singleUse, start_lineage⟩, start_revocations⟩

theorem step_settled (s : Server) (a : Action) (t : Server) (inv : Settled s)
    (guard : revocationGuard s a = true) (stepped : step s a = some t) : Settled t := by
  obtain ⟨hline, hundisturbed⟩ := Bool.and_eq_true_iff.mp guard
  exact ⟨step_orderly s a t inv.orderly hline stepped,
    step_revocations s a t inv.revocations inv.orderly hline hundisturbed stepped⟩

theorem run_closing {whose : Nat → Prop} {grant : PyStr} {s t : Server} {acts : List Action}
    (settled : Settled s) (closing : Closing whose grant s)
    (obeys : Replay.Obeys step (fun s a => revocationGuard s a = true) s acts)
    (ran : Replay.run step s acts = some t) : Closing whose grant t := by
  have keeps : ∀ m a m', Settled m ∧ Closing whose grant m → revocationGuard m a = true →
      step m a = some m' → Settled m' ∧ Closing whose grant m' := by
    intro m a m' ⟨inv, closing⟩ guard stepped
    obtain ⟨hline, hundisturbed⟩ := Bool.and_eq_true_iff.mp guard
    exact ⟨step_settled m a m' inv guard stepped,
      step_closing m a m' closing inv.revocations inv.orderly hline hundisturbed stepped⟩
  exact (Replay.run_invariant keeps ⟨settled, closing⟩ obeys ran).2

/-- Revocation is final: take a run in which every exchange finds the row of
what it exchanges and no revocation is disturbed. From the return of a
revocation on, once the requests of that moment have finished, no load accepts
a token of the grant, at that time or later. -/
theorem revocation_final {first rest : List Action} {s t : Server}
    (obeys : Replay.Obeys step (fun s a => revocationGuard s a = true) start (first ++ rest))
    (ran : Replay.run step start first = some s) (later : Replay.run step s rest = some t)
    {id : Nat} {role : Role} {token : PyStr}
    (returned : s.requests.get id = some (.revoking role token .done))
    {issue : Issue} (hissue : issue ∈ s.issues) (target : issue.member role = token)
    (finished : ∀ id request, s.requests.get id = some request →
      ∃ request', t.requests.get id = some request' ∧ request'.finished = true)
    {other : Issue} (hother : other ∈ t.issues) (grant : other.grant = issue.grant) :
    Dead t.db other.access other.refresh := by
  have settled : Settled s :=
    Replay.run_invariant step_settled start_settled (Replay.obeys_first obeys) ran
  have closing : Closing (fun id => s.requests.get id ≠ none) issue.grant t :=
    run_closing settled (closing_of_done settled.revocations settled.orderly.lineage returned
      hissue target) (Replay.obeys_rest obeys ran) later
  have gone : ∀ role, ¬ Live t.db role (other.member role) := by
    intro role live
    obtain ⟨id', own, rest, hwhose, hget, _⟩ := closing.due other hother grant role live
    obtain ⟨request, hrequest⟩ := Option.ne_none_iff_exists'.mp hwhose
    obtain ⟨request', hget', hfinished⟩ := finished id' request hrequest
    rw [hget] at hget'
    cases hget'
    cases hfinished
  exact dead_of_absent (not_live_access.mp (gone .access)) (not_live_refresh.mp (gone .refresh))

/-- Redeem a code, then revoke the refresh token in its five sections. -/
def revokeOnce : List Action :=
  redeemOnce ++ [.revokeRefresh 1 demoClient (py "r1") 0, .revokeStep 1, .revokeStep 1,
    .revokeStep 1, .revokeStep 1, .revokeStep 1]

theorem revocation_final_once : ∃ s, Replay.run step start revokeOnce = some s ∧
    Dead s.db (py "a1") (py "r1") := by
  refine ⟨_, rfl, ?_⟩
  refine @revocation_final revokeOnce [] _ _ (by decide) rfl rfl 1 .refresh (py "r1") (by decide)
    ⟨0, py "code", none, py "a1", py "r1"⟩ (by decide) (by decide) ?_
    ⟨0, py "code", none, py "a1", py "r1"⟩ (by decide) rfl
  intro id request h
  refine ⟨request, h, ?_⟩
  have all : ∀ row ∈ ((Replay.run step start revokeOnce).get (by decide)).requests.rows,
      row.2.finished = true := by decide
  exact all (id, request) (Table.get_eq_some_iff.mp h)

/-- A refresh request rotates the pair after the revocation has read the pairing. -/
def revokeAround : List Action :=
  redeemOnce ++ [.revokeAccess 1 (py "a1") 0, .loadRefresh 2 demoClient (py "r1") 0,
    .revokeStep 1, .rotate 2 [] 0 (py "a2") (py "r2"), .revokeStep 1, .revokeStep 1,
    .revokeStep 1, .revokeStep 1]

theorem revocation_outlived :
    ¬ ∀ (first rest : List Action) (s t : Server),
      Replay.run step start first = some s → Replay.run step s rest = some t →
      ∀ id role token, s.requests.get id = some (.revoking role token .done) →
      ∀ issue ∈ s.issues, issue.member role = token →
      (∀ id request, s.requests.get id = some request →
        ∃ request', t.requests.get id = some request' ∧ request'.finished = true) →
      ∀ other ∈ t.issues, other.grant = issue.grant → Dead t.db other.access other.refresh := by
  intro h
  have finished : ∀ id request,
      ((Replay.run step start revokeAround).get (by decide)).requests.get id = some request →
      request.finished = true := by
    intro id request hget
    have all : ∀ row ∈ ((Replay.run step start revokeAround).get (by decide)).requests.rows,
        row.2.finished = true := by decide
    exact all (id, request) (Table.get_eq_some_iff.mp hget)
  have dead := h revokeAround [] _ _ rfl rfl 1 .access (py "a1") (by decide)
    ⟨0, py "code", none, py "a1", py "r1"⟩ (by decide) (by decide)
    (fun id request hget => ⟨request, hget, finished id request hget⟩)
    ⟨2, py "code", some (py "r1"), py "a2", py "r2"⟩ (by decide) (by decide)
  have accepted := (dead demoClient 0).1
  revert accepted
  decide

end OAuthRequests
