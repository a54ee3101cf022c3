import Gubbi.OAuth.SweptRows

/-!
# Cleanup goes unnoticed

A server that cleans up is compared with one that never does. The requests of both stand at
the same point, except that a revocation of the second may have more tokens left to delete;
none of these is of use to anybody. A load of a row that only the second server has refuses
it, and deletes it in a section of its own.
-/

namespace OAuthRequests

open Text OAuthStorage OAuthProvider Pairing

/-- A counterpart of a revoked token that the first database has lost. -/
def LostCounterpart (swept : Db) (issues : List Issue) (role : Role) (token : PyStr) : Prop :=
  (∃ issue ∈ issues, issue.member role.other = token) ∧ ¬ Live swept role.other token

inductive SameStage (swept kept : Db) (issues : List Issue) (role : Role) (token : PyStr) :
    Stage → Stage → Prop
  | loaded (pairs : role = .access → PairsKept swept kept token) :
    SameStage swept kept issues role token .loaded .loaded
  | paired {short long : List PyStr}
    (thinned : Thinned (LostCounterpart swept issues role) short long) :
    SameStage swept kept issues role token (.paired short) (.paired long)
  | deleted {short long : List PyStr}
    (thinned : Thinned (LostCounterpart swept issues role) short long) :
    SameStage swept kept issues role token (.deleted short) (.deleted long)
  | unpaired {short long : List PyStr}
    (thinned : Thinned (LostCounterpart swept issues role) short long) :
    SameStage swept kept issues role token (.unpaired short) (.unpaired long)
  | done : SameStage swept kept issues role token .done .done

inductive SamePoint (swept kept : Db) (issues : List Issue) :
    Option Request → Option Request → Prop
  | same {request : Option Request}
    (plain : ∀ role token stage, request ≠ some (.revoking role token stage)) :
    SamePoint swept kept issues request request
  | revoking {role : Role} {token : PyStr} {stage stage' : Stage}
    (stages : SameStage swept kept issues role token stage stage') :
    SamePoint swept kept issues (some (.revoking role token stage))
      (some (.revoking role token stage'))

section SamePoint
variable {swept kept swept' kept' : Db} {issues issues' : List Issue}

theorem LostCounterpart.carry {role : Role} {token : PyStr}
    (lost : LostCounterpart swept issues role token)
    (gone : ∀ issue ∈ issues, ∀ role, ¬ Live swept role (issue.member role) →
      ¬ Live swept' role (issue.member role))
    (more : ∀ issue ∈ issues, issue ∈ issues') : LostCounterpart swept' issues' role token := by
  obtain ⟨⟨issue, mem, rfl⟩, absent⟩ := lost
  exact ⟨⟨issue, more issue mem, rfl⟩, gone issue mem role.other absent⟩

theorem SamePoint.carry {one two : Option Request} (point : SamePoint swept kept issues one two)
    (gone : ∀ issue ∈ issues, ∀ role, ¬ Live swept role (issue.member role) →
      ¬ Live swept' role (issue.member role))
    (more : ∀ issue ∈ issues, issue ∈ issues')
    (pairs : ∀ token, one = some (.revoking .access token .loaded) →
      PairsKept swept kept token → PairsKept swept' kept' token) :
    SamePoint swept' kept' issues' one two := by
  cases point with
  | same plain => exact .same plain
  | @revoking role token stage stage' stages =>
    have lost : ∀ short long, Thinned (LostCounterpart swept issues role) short long →
        Thinned (LostCounterpart swept' issues' role) short long :=
      fun short long thinned => thinned.mono fun _ _ dropped => dropped.carry gone more
    cases stages with
    | loaded kept =>
      refine .revoking (.loaded ?_)
      rintro rfl
      exact pairs token rfl (kept rfl)
    | paired thinned => exact .revoking (.paired (lost _ _ thinned))
    | deleted thinned => exact .revoking (.deleted (lost _ _ thinned))
    | unpaired thinned => exact .revoking (.unpaired (lost _ _ thinned))
    | done => exact .revoking .done

end SamePoint

/-- The second server has gone the way of the first one without the cleanups. -/
structure Unnoticed (now : Micros) (swept kept : Server) : Prop where
  db : Keeps now swept.db kept.db
  requests : ∀ id, SamePoint swept.db kept.db swept.issues (swept.requests.get id)
    (kept.requests.get id)
  issues : kept.issues = swept.issues
  saved : kept.saved = swept.saved
  timed : Timed kept

theorem start_unnoticed (now : Micros) : Unnoticed now start start where
  db := Keeps.refl now _
  requests := fun _ => .same (by simp [start])
  issues := rfl
  saved := rfl
  timed := start_timed

section Unnoticed
variable {now now' : Micros} {swept kept swept' kept' : Server}

theorem Unnoticed.issued (alike : Unnoticed now swept kept) : kept.issued = swept.issued := by
  rw [Server.issued, Server.issued, alike.issues]

theorem Unnoticed.recorded (alike : Unnoticed now swept kept) :
    ∀ pair ∈ kept.db.tokenPairs, pair ∈ swept.issued :=
  fun pair mem => alike.issued ▸ alike.timed.recorded pair mem

theorem Unnoticed.later (alike : Unnoticed now swept kept) (le : now ≤ now') :
    Unnoticed now' swept kept :=
  { alike with db := alike.db.later le }

theorem Unnoticed.carry (alike : Unnoticed now swept kept)
    (carries : Carries now' swept.issues swept.db kept.db swept'.db kept'.db)
    (issues : kept'.issues = swept'.issues)
    (more : ∀ issue ∈ swept.issues, issue ∈ swept'.issues)
    (saved : kept'.saved = swept'.saved) (timed : Timed kept')
    (requests : ∀ id, (swept'.requests.get id = swept.requests.get id ∧
        kept'.requests.get id = kept.requests.get id) ∨
      SamePoint swept'.db kept'.db swept'.issues (swept'.requests.get id)
        (kept'.requests.get id)) : Unnoticed now' swept' kept' where
  db := carries.keeps
  requests := by
    intro id
    rcases requests id with ⟨same, same'⟩ | point
    · rw [same, same']
      exact (alike.requests id).carry carries.gone more fun token _ => carries.pairs token
    · exact point
  issues := issues
  saved := saved
  timed := timed

/-- One request of each server moves on, and the others stay. -/
theorem put_requests {id : Nat} {one two : Request}
    (swepts : swept'.requests = swept.requests.put id one)
    (kepts : kept'.requests = kept.requests.put id two)
    (own : SamePoint swept'.db kept'.db swept'.issues (some one) (some two)) (other : Nat) :
    (swept'.requests.get other = swept.requests.get other ∧
        kept'.requests.get other = kept.requests.get other) ∨
      SamePoint swept'.db kept'.db swept'.issues (swept'.requests.get other)
        (kept'.requests.get other) := by
  rw [swepts, kepts]
  by_cases same : other = id
  · subst same
    rw [Table.get_put_self, Table.get_put_self]
    exact Or.inr own
  · rw [Table.get_put_ne _ _ same, Table.get_put_ne _ _ same]
    exact Or.inl ⟨rfl, rfl⟩

/-- A request that is no revocation stands at the same point in both servers. -/
theorem Unnoticed.get (alike : Unnoticed now swept kept) {id : Nat} {request : Request}
    (found : swept.requests.get id = some request)
    (plain : ∀ role token stage, request ≠ .revoking role token stage) :
    kept.requests.get id = some request := by
  have point := alike.requests id
  rw [found] at point
  generalize kept.requests.get id = other at point
  cases point with
  | same _ => rfl
  | revoking _ => exact absurd rfl (plain _ _ _)

theorem Unnoticed.get_none (alike : Unnoticed now swept kept) {id : Nat}
    (absent : swept.requests.get id = none) : kept.requests.get id = none := by
  have point := alike.requests id
  rw [absent] at point
  generalize kept.requests.get id = other at point
  cases point with
  | same _ => rfl

theorem Unnoticed.get_revoking (alike : Unnoticed now swept kept) {id : Nat} {role : Role}
    {token : PyStr} {stage : Stage}
    (found : swept.requests.get id = some (.revoking role token stage)) :
    ∃ stage', kept.requests.get id = some (.revoking role token stage') ∧
      SameStage swept.db kept.db swept.issues role token stage stage' := by
  have point := alike.requests id
  rw [found] at point
  generalize kept.requests.get id = other at point
  cases point with
  | same plain => exact absurd rfl (plain role token stage)
  | @revoking _ _ _ stage' stages => exact ⟨stage', rfl, stages⟩

end Unnoticed

def Action.reading : Action → Option Micros
  | .saveCode _ => none
  | .loadCode _ _ _ now => some now
  | .takeCode _ => none
  | .issuePair _ now _ _ => some now
  | .loadRefresh _ _ _ now => some now
  | .rotate _ _ now _ _ => some now
  | .loadAccess _ _ now => some now
  | .drop _ => none
  | .revokeAccess _ _ now => some now
  | .revokeRefresh _ _ _ now => some now
  | .revokeStep _ => none
  | .cleanup now => some now

/-- A step of a server whose clock does not go back, with the last reading of the clock. -/
def clockedStep (s : Server × Micros) (a : Action) : Option (Server × Micros) :=
  if s.2 ≤ a.reading.getD s.2 then (step s.1 a).map (fun t => (t, a.reading.getD s.2)) else none

def Action.isCleanup : Action → Bool
  | .cleanup _ => true
  | _ => false

/-- The server that never cleans up. -/
def keepingStep (s : Server × Micros) (a : Action) : Option (Server × Micros) :=
  if a.isCleanup then none else clockedStep s a

/-- What is asked of the server: not its deletes, and not the cleanups. -/
def Action.visible : Action → Option Action
  | .drop _ => none
  | .revokeStep _ => none
  | .cleanup _ => none
  | a => some a

/-- No access token expires between its load by a revocation and the read of its pairing,
with a cleanup in between. -/
def readsPairingInTime (s : Server × Micros) : Action → Bool
  | .cleanup now => !expiresUnderRevocation s.1 now
  | _ => true

section Clock
variable {s t : Server} {clock next : Micros} {a : Action}

theorem clockedStep_eq_some : clockedStep (s, clock) a = some (t, next) ↔
    step s a = some t ∧ clock ≤ next ∧ a.reading.getD clock = next := by
  unfold clockedStep
  split
  · next le =>
    simp only [Option.map_eq_some_iff, Prod.mk.injEq]
    constructor
    · rintro ⟨_, stepped, rfl, rfl⟩
      exact ⟨stepped, le, rfl⟩
    · rintro ⟨stepped, _, rfl⟩
      exact ⟨t, stepped, rfl, rfl⟩
  · next back =>
    simp only [false_iff, reduceCtorEq]
    rintro ⟨_, le, rfl⟩
    exact back le

theorem keepingStep_of (stepped : step s a = some t) (le : clock ≤ next)
    (reading : a.reading.getD clock = next) (keeps : a.isCleanup = false) :
    keepingStep (s, clock) a = some (t, next) := by
  rw [keepingStep, if_neg (ne_true_of_eq_false keeps)]
  exact clockedStep_eq_some.mpr ⟨stepped, le, reading⟩

end Clock

/-- It does something that looks the same and goes the way of the other server. The last
reading of its own clock may lie before the last cleanup. -/
def Matched (clock : Micros) (kept : Server) (a : Action) (now : Micros) (swept' : Server) :
    Prop :=
  ∃ acts kept' clock', Replay.run keepingStep (kept, clock) acts = some (kept', clock') ∧
    clock' ≤ now ∧ Unnoticed now swept' kept' ∧
    acts.filterMap Action.visible = a.visible.toList

section Matching
variable {clock now : Micros} {swept swept' kept kept' : Server} {a : Action} {id : Nat}

theorem matched_of_step (stepped : step kept a = some kept') (le : clock ≤ now)
    (reading : a.reading.getD now = now) (keeps : a.isCleanup = false)
    (alike : Unnoticed now swept' kept') : Matched clock kept a now swept' := by
  have read : clock ≤ a.reading.getD clock ∧ a.reading.getD clock ≤ now := by
    cases shown : a.reading with
    | none => exact ⟨Nat.le_refl clock, le⟩
    | some instant =>
      rw [shown, Option.getD_some] at reading
      exact ⟨reading ▸ le, Nat.le_of_eq reading⟩
  refine ⟨[a], kept', _, ?_, read.2, alike, ?_⟩
  · exact Replay.run_cons.mpr ⟨_, keepingStep_of stepped read.1 rfl keeps, rfl⟩
  · rw [List.filterMap_cons]
    cases a.visible <;> rfl

/-- The read of a row: both servers see the same, or the first one has lost a row that the
second one refuses. -/
def SameRead {α : Type} (lost : Prop) (one two : Inspected α) : Prop :=
  one = two ∨ (one = .absent ∧ (∀ value, two ≠ .ready value) ∧ lost)

/-- A load of a row and, where only the second server has one to refuse, its delete. -/
theorem matched_load {α : Type} {dropping : Request} {ready : α → Request}
    {one two : Inspected α} {lost : Prop} (alike : Unnoticed now swept kept) (le : clock ≤ now)
    (read : SameRead lost one two) (reading : a.reading = some now) (shown : a.visible = some a)
    (begun : swept.begin id (afterLoad dropping ready one) = some swept')
    (stepped : ∀ {t}, kept.begin id (afterLoad dropping ready two) = some t → step kept a = some t)
    (plain : ∀ role token stage, dropping ≠ .revoking role token stage)
    (begins : ∀ value, one = .ready value →
      SamePoint swept.db kept.db swept.issues (some (ready value)) (some (ready value)))
    (f : Db → Db)
    (drops : ∀ t : Server, t.requests.get id = some dropping →
      step t (.drop id) = some (t.advance id (f t.db) .rejected))
    (carries : lost → Carries now swept.issues swept.db kept.db swept.db (f kept.db))
    (loses : Loses kept.db (f kept.db)) : Matched clock kept a now swept' := by
  have keeps : a.isCleanup = false := by
    cases a with
    | cleanup _ => cases shown
    | _ => rfl
  obtain ⟨absent, rfl⟩ := begin_eq_some.mp begun
  have free := alike.get_none absent
  have loaded := stepped (begin_eq_some.mpr ⟨free, rfl⟩)
  have rejected : SamePoint swept.db kept.db swept.issues (some .rejected) (some .rejected) :=
    .same (by simp)
  have go : ∀ {request : Request}, afterLoad dropping ready one = request →
      afterLoad dropping ready two = request →
      SamePoint swept.db kept.db swept.issues (some request) (some request) →
      Matched clock kept a now
        { swept with requests := swept.requests.put id (afterLoad dropping ready one) } := by
    rintro request rfl same point
    refine matched_of_step loaded le (by rw [reading]; rfl) keeps ?_
    rw [same]
    exact alike.carry (Carries.refl alike.db) alike.issues (fun _ mem => mem) alike.saved
      (alike.timed.lose rfl (loses_of_shrinks (Shrinks.refl _))) (put_requests rfl rfl point)
  rcases read with rfl | ⟨rfl, refused, gone⟩
  · refine go rfl rfl ?_
    cases one with
    | absent => exact rejected
    | drop => exact .same fun role token stage same => plain role token stage (Option.some.inj same)
    | ready value => exact begins value rfl
    | raised error => exact rejected
  · cases two with
    | absent => exact go rfl rfl rejected
    | raised error => exact go rfl rfl rejected
    | ready value => exact absurd rfl (refused value)
    | drop =>
      have deletes := drops { kept with requests := kept.requests.put id dropping }
        (Table.get_put_self _ _ _)
      refine ⟨[a, .drop id], _, now, Replay.run_cons.mpr ⟨_, keepingStep_of loaded le
        (by rw [reading]; rfl) keeps, Replay.run_cons.mpr ⟨_, keepingStep_of deletes
          (Nat.le_refl now) rfl rfl, rfl⟩⟩, Nat.le_refl now, ?_, ?_⟩
      · refine alike.carry (carries gone) alike.issues (fun _ mem => mem) alike.saved
          (alike.timed.lose rfl loses) ?_
        intro other
        by_cases same : other = id
        · subst same
          have point : SamePoint swept.db (f kept.db) swept.issues (some .rejected)
              (some .rejected) := .same (by simp)
          exact Or.inr (by simpa [Server.advance, afterLoad] using point)
        · exact Or.inl (by simp [Server.advance, Table.get_put_ne _ _ same])
      · rw [List.filterMap_cons, shown]
        rfl

theorem sameRead_authCode (alike : Unnoticed now swept kept) (client : Client) (code : PyStr) :
    SameRead (swept.db.authCodes.get code = none)
      (inspectAuthorizationCode (getAuthCode swept.db code) client now)
      (inspectAuthorizationCode (getAuthCode kept.db code) client now) := by
  cases left : swept.db.authCodes.get code with
  | some row =>
    refine Or.inl ?_
    rw [getAuthCode, getAuthCode, left, alike.db.authCodes.subset code row left]
  | none =>
    cases right : kept.db.authCodes.get code with
    | none =>
      refine Or.inl ?_
      rw [getAuthCode, getAuthCode, left, right]
    | some row =>
      refine Or.inr ⟨by rw [getAuthCode, left]; rfl, ?_, rfl⟩
      have past := alike.db.authCodes.lost code row right left
      simp only [alike.timed.codes code row right, expired, decide_eq_true_eq] at past
      have late : row.data.expiresAt < now := by
        by_contra early
        exact absurd past (Nat.not_lt.mpr (Nat.div_le_div_right (Nat.le_of_not_lt early)))
      intro value
      rw [getAuthCode, right, Option.map_some, inspectAuthorizationCode]
      split
      · simp
      · simp
      · rw [if_pos late]
        simp

theorem sameRead_refresh (alike : Unnoticed now swept kept) (client : Client) (token : PyStr) :
    SameRead (swept.db.refreshTokens.get token = none)
      (inspectRefreshToken (getRefreshToken swept.db token) client now)
      (inspectRefreshToken (getRefreshToken kept.db token) client now) := by
  cases left : swept.db.refreshTokens.get token with
  | some row =>
    refine Or.inl ?_
    rw [getRefreshToken, getRefreshToken, left, alike.db.refreshTokens.subset token row left]
  | none =>
    cases right : kept.db.refreshTokens.get token with
    | none =>
      refine Or.inl ?_
      rw [getRefreshToken, getRefreshToken, left, right]
    | some row =>
      refine Or.inr ⟨by rw [getRefreshToken, left]; rfl, ?_, rfl⟩
      have past := alike.db.refreshTokens.lost token row right left
      rw [alike.timed.refresh token row right] at past
      intro value
      rw [getRefreshToken, right, Option.map_some, inspectRefreshToken]
      split
      · simp
      · simp
      · rw [if_pos past]
        simp

theorem sameRead_access (alike : Unnoticed now swept kept) (token : PyStr) :
    SameRead (swept.db.accessTokens.get token = none)
      (inspectAccessToken (getAccessToken swept.db token) now)
      (inspectAccessToken (getAccessToken kept.db token) now) := by
  cases left : swept.db.accessTokens.get token with
  | some row =>
    refine Or.inl ?_
    rw [getAccessToken, getAccessToken, left, alike.db.accessTokens.subset token row left]
  | none =>
    cases right : kept.db.accessTokens.get token with
    | none =>
      refine Or.inl ?_
      rw [getAccessToken, getAccessToken, left, right]
    | some row =>
      refine Or.inr ⟨by rw [getAccessToken, left]; rfl, ?_, rfl⟩
      have past := alike.db.accessTokens.lost token row right left
      rw [alike.timed.access token row right] at past
      intro value
      rw [getAccessToken, right, Option.map_some, inspectAccessToken, if_pos past]
      simp

theorem carries_dropCode {issues : List Issue} {code : PyStr} {swept kept : Db}
    (keeps : Keeps now swept kept) (absent : swept.authCodes.get code = none) :
    Carries now issues swept kept swept (deleteAuthCode kept code) where
  keeps := ⟨keeps.authCodes.eraseKept absent, keeps.accessTokens, keeps.refreshTokens,
    keeps.tokenPairs⟩
  gone := fun _ _ _ absent => absent
  pairs := fun _ unchanged => unchanged

/-- An access token that the first server has loaded has all its pair rows. -/
theorem pairsKept_of_loaded (alike : Unnoticed now swept kept) {token : PyStr}
    {value : AccessToken} {instant : Micros}
    (loaded : inspectAccessToken (getAccessToken swept.db token) instant = .ready value) :
    PairsKept swept.db kept.db value.token := by
  obtain ⟨row, stored, rfl⟩ := getAccessToken_eq_some.mp (inspectAccessToken_ready loaded)
  rw [alike.timed.keys token row (alike.db.accessTokens.subset token row stored)]
  intro refresh pair
  rcases alike.db.tokenPairs.mem_or_dropped pair with mem | absent
  · exact Or.inl mem
  · rw [stored] at absent
    cases absent

theorem find?_toList_eq_filter {pairs : List (PyStr × PyStr)} (nodup : (pairs.map Prod.fst).Nodup)
    (access : PyStr) : (pairs.find? (fun pair => pair.1 = access)).toList =
      pairs.filter (fun pair => pair.1 = access) := by
  cases found : pairs.find? (fun pair => pair.1 = access) with
  | none =>
    have none := List.find?_eq_none.mp found
    exact (List.filter_eq_nil_iff.mpr none).symm
  | some pair =>
    have mem := List.mem_of_find?_eq_some found
    have key : pair.1 = access := by simpa using List.find?_some found
    subst key
    exact (filter_fst_eq nodup mem).symm

theorem getPaired_access_eq {db : Db} (nodup : (db.tokenPairs.map Prod.fst).Nodup)
    (token : PyStr) : getPaired db .access token =
      ((db.tokenPairs.filter (fun pair => pair.1 = token)).map Prod.snd).filter
        (fun r => !r.isEmpty) := by
  rw [← find?_toList_eq_filter nodup, ← Option.toList_map]
  rfl

theorem Unnoticed.getPaired (alike : Unnoticed now swept kept) {role : Role} {token : PyStr}
    (pairs : role = .access → PairsKept swept.db kept.db token) :
    Thinned (LostCounterpart swept.db swept.issues role) (getPaired swept.db role token)
      (getPaired kept.db role token) := by
  have issuedPair : ∀ pair ∈ kept.db.tokenPairs, ∃ issue ∈ swept.issues, issue.pair = pair :=
    fun pair mem => List.mem_map.mp (alike.recorded pair mem)
  cases role with
  | access =>
    have unique := alike.timed.unique
    rw [getPaired_access_eq unique, getPaired_access_eq
      (unique.sublist (alike.db.tokenPairs.sublist.map Prod.fst))]
    have ofPair : ∀ pair : PyStr × PyStr, LostCounterpart swept.db swept.issues .access pair.2 →
        LostCounterpart swept.db swept.issues .access (Prod.snd pair) := fun _ lost => lost
    refine (Thinned.map Prod.snd ?_ ofPair).filter _
    refine Thinned.of_sublist (alike.db.tokenPairs.sublist.filter _)
      (List.Nodup.of_map _ (unique.sublist (List.filter_sublist.map _))) ?_
    intro pair mem missing
    obtain ⟨mem, key⟩ := List.mem_filter.mp mem
    have own : (token, pair.2) = pair := Prod.ext (decide_eq_true_eq.mp key).symm rfl
    obtain ⟨issue, issued, rfl⟩ := issuedPair pair mem
    refine ⟨⟨issue, issued, rfl⟩, ?_⟩
    rcases pairs rfl issue.refresh (own ▸ mem) with present | gone
    · exact False.elim (missing (List.mem_filter.mpr ⟨own ▸ present, key⟩))
    · exact gone
  | refresh =>
    have ofPair : ∀ pair : PyStr × PyStr, LostCounterpart swept.db swept.issues .refresh pair.1 →
        LostCounterpart swept.db swept.issues .refresh (Prod.fst pair) := fun _ lost => lost
    refine Thinned.map Prod.fst ((alike.db.tokenPairs.filter _).mono ?_) ofPair
    intro pair mem absent
    obtain ⟨issue, issued, rfl⟩ := issuedPair pair (List.mem_filter.mp mem).1
    exact ⟨⟨issue, issued, rfl⟩, not_live_access.mpr absent⟩

/-- The second server deletes the counterparts that the first one has lost, up to the next
one that both delete. -/
theorem catches_up {role : Role} {token : PyStr} {short long : List PyStr}
    (thinned : Thinned (LostCounterpart swept.db swept.issues role) short long)
    (alike : Unnoticed now swept kept)
    (mine : swept.requests.get id = some (.revoking role token (.unpaired short)))
    (theirs : kept.requests.get id = some (.revoking role token (.unpaired long))) :
    ∃ acts kept' rest, Replay.run keepingStep (kept, clock) acts = some (kept', clock) ∧
      Unnoticed now swept kept' ∧ acts.filterMap Action.visible = [] ∧
      kept'.requests.get id = some (.revoking role token (.unpaired (short.take 1 ++ rest))) ∧
      Thinned (LostCounterpart swept.db swept.issues role) (short.drop 1) rest ∧
      (short = [] → rest = []) := by
  induction thinned generalizing kept with
  | nil => exact ⟨[], kept, [], rfl, alike, rfl, theirs, .nil, fun _ => rfl⟩
  | @keep counterpart short long later _ =>
    exact ⟨[], kept, long, rfl, alike, rfl, theirs, later, fun none => by cases none⟩
  | @skip counterpart short long lost later ih =>
    have stepped : step kept (.revokeStep id) = some (kept.advance id
        (deleteToken kept.db role.other counterpart) (.revoking role token (.unpaired long))) :=
      step_revokeStep.mpr ⟨role, token, _, _, _, theirs, rfl, rfl⟩
    have loses := loses_deleteToken kept.db role.other counterpart
    have still : Unnoticed now swept (kept.advance id
        (deleteToken kept.db role.other counterpart) (.revoking role token (.unpaired long))) := by
      refine alike.carry (carries_deleteKept alike.db lost.2) alike.issues (fun _ mem => mem)
        alike.saved (alike.timed.lose rfl loses) fun other => ?_
      by_cases same : other = id
      · subst same
        refine Or.inr ?_
        rw [mine, Server.advance, Table.get_put_self]
        exact .revoking (.unpaired later)
      · exact Or.inl ⟨rfl, Table.get_put_ne _ _ same⟩
    obtain ⟨acts, kept', rest, ran, after, unseen, found, thinned⟩ :=
      ih still mine (Table.get_put_self _ _ _)
    exact ⟨.revokeStep id :: acts, kept', rest, Replay.run_cons.mpr
      ⟨_, keepingStep_of stepped (Nat.le_refl clock) rfl rfl, ran⟩, after, unseen, found, thinned⟩

/-- One section of a revocation on both sides. -/
theorem Unnoticed.revoke {role : Role} {token : PyStr} {stage stage' : Stage} {db db' : Db}
    (alike : Unnoticed now swept kept)
    (carries : Carries now swept.issues swept.db kept.db db db') (loses : Loses kept.db db')
    (stages : SameStage db db' swept.issues role token stage stage') :
    Unnoticed now (swept.advance id db (.revoking role token stage))
      (kept.advance id db' (.revoking role token stage')) :=
  alike.carry carries alike.issues (fun _ mem => mem) alike.saved (alike.timed.lose rfl loses)
    (put_requests rfl rfl (.revoking stages))

theorem matched_revokeStep (alike : Unnoticed now swept kept) (le : clock ≤ now)
    (stepped : step swept (.revokeStep id) = some swept') :
    Matched clock kept (.revokeStep id) now swept' := by
  obtain ⟨role, token, stage, db, next, mine, hsection, rfl⟩ := step_revokeStep.mp stepped
  obtain ⟨stage', theirs, stages⟩ := alike.get_revoking mine
  have follows : ∀ {kept : Server} {stage' next' : Stage} {db' : Db},
      Unnoticed now swept kept → kept.requests.get id = some (.revoking role token stage') →
      revokeSection kept.db role token stage' = some (db', next') →
      Carries now swept.issues swept.db kept.db db db' →
      SameStage db db' swept.issues role token next next' →
      Matched clock kept (.revokeStep id) now (swept.advance id db (.revoking role token next)) :=
    fun alike theirs same carries stages =>
      matched_of_step (step_revokeStep.mpr ⟨role, token, _, _, _, theirs, same, rfl⟩)
        le rfl rfl (alike.revoke carries (loses_revokeSection same) stages)
  cases stages with
  | loaded pairs =>
    cases hsection
    exact follows alike theirs rfl (Carries.refl alike.db) (.paired (alike.getPaired pairs))
  | paired thinned =>
    cases hsection
    have carries : Carries now swept.issues _ _ _ _ := carries_deleteToken alike.db role token
    exact follows alike theirs rfl carries
      (.deleted (thinned.mono fun _ _ lost => lost.carry carries.gone fun _ mem => mem))
  | deleted thinned =>
    cases hsection
    have carries : Carries now swept.issues _ _ _ _ :=
      carries_deleteTokenPairBy alike.db role token
    exact follows alike theirs rfl carries
      (.unpaired (thinned.mono fun _ _ lost => lost.carry carries.gone fun _ mem => mem))
  | @unpaired short long thinned =>
    obtain ⟨acts, kept', rest, ran, after, unseen, found, thinned, ended⟩ :=
      catches_up thinned alike mine theirs
    have last : Matched clock kept' (.revokeStep id) now
        (swept.advance id db (.revoking role token next)) := by
      cases short with
      | nil =>
        cases hsection
        rw [ended rfl] at found
        exact follows after found rfl (Carries.refl after.db) .done
      | cons counterpart short =>
        cases hsection
        have carries : Carries now swept.issues _ _ _ _ :=
          carries_deleteToken after.db role.other counterpart
        exact follows after found rfl carries
          (.unpaired (thinned.mono fun _ _ lost => lost.carry carries.gone fun _ mem => mem))
    obtain ⟨more, kept'', clock', ranMore, behind, final, seen⟩ := last
    refine ⟨acts ++ more, kept'', clock', Replay.run_append.mpr ⟨_, ran, ranMore⟩, behind,
      final, ?_⟩
    rw [List.filterMap_append, unseen, seen]
    rfl
  | done => cases hsection

theorem matched_saveCode {authCode : AuthorizationCode} (alike : Unnoticed now swept kept)
    (le : clock ≤ now) (stepped : step swept (.saveCode authCode) = some swept') :
    Matched clock kept (.saveCode authCode) now swept' := by
  obtain ⟨unsaved, rfl⟩ := step_saveCode.mp stepped
  have follows := step_saveCode.mpr ⟨alike.saved ▸ unsaved, rfl⟩
  refine matched_of_step follows le rfl rfl ?_
  exact alike.carry (carries_saveAuthCode alike.db authCode.code authCode) alike.issues
    (fun _ mem => mem) (congrArg (authCode.code :: ·) alike.saved)
    (step_timed kept _ _ alike.timed follows) fun _ => Or.inl ⟨rfl, rfl⟩

theorem matched_takeCode (alike : Unnoticed now swept kept) (le : clock ≤ now)
    (stepped : step swept (.takeCode id) = some swept') :
    Matched clock kept (.takeCode id) now swept' := by
  obtain ⟨client, authCode, found, rfl⟩ := step_takeCode.mp stepped
  have follows := step_takeCode.mpr ⟨client, authCode, alike.get found (by simp), rfl⟩
  refine matched_of_step follows le rfl rfl ?_
  exact alike.carry (carries_deleteAuthCode alike.db authCode.code) alike.issues
    (fun _ mem => mem) alike.saved (step_timed kept _ _ alike.timed follows)
    (put_requests rfl rfl (.same (by simp)))

theorem matched_issuePair {accessStr refreshStr : PyStr} (alike : Unnoticed now swept kept)
    (le : clock ≤ now)
    (stepped : step swept (.issuePair id now accessStr refreshStr) = some swept') :
    Matched clock kept (.issuePair id now accessStr refreshStr) now swept' := by
  obtain ⟨client, authCode, found, fresh, rfl⟩ := step_issuePair.mp stepped
  have follows := (@step_issuePair kept _ id now _ _).mpr
    ⟨client, authCode, alike.get found (by simp), alike.issued ▸ fresh, rfl⟩
  refine matched_of_step follows le rfl rfl ?_
  exact alike.carry (carries_issue alike.db alike.recorded fresh _ _)
    (congrArg (_ :: ·) alike.issues) (fun _ mem => List.mem_cons_of_mem _ mem) alike.saved
    (step_timed kept _ _ alike.timed follows) (put_requests rfl rfl (.same (by simp)))

theorem matched_rotate {scopes : List PyStr} {accessStr refreshStr : PyStr}
    (alike : Unnoticed now swept kept) (le : clock ≤ now)
    (stepped : step swept (.rotate id scopes now accessStr refreshStr) = some swept') :
    Matched clock kept (.rotate id scopes now accessStr refreshStr) now swept' := by
  obtain ⟨client, token, found, fresh, rfl⟩ := step_rotate.mp stepped
  have follows := (@step_rotate kept _ id scopes now _ _).mpr
    ⟨client, token, alike.get found (by simp), alike.issued ▸ fresh, rfl⟩
  have retired : Carries now swept.issues _ _ _ _ := carries_retire alike.db token.token
  have recorded : ∀ pair ∈ (retireRefreshToken kept.db token.token).tokenPairs,
      pair ∈ swept.issued := by
    intro pair mem
    rw [retire_tokenPairs] at mem
    exact alike.recorded pair (List.mem_filter.mp mem).1
  have issued := @carries_issue now _ { swept with db := retireRefreshToken swept.db token.token }
    retired.keeps recorded accessStr refreshStr fresh
  refine matched_of_step follows le rfl rfl ?_
  refine alike.carry (retired.trans (issued _ _)) ?_ (fun _ mem => List.mem_cons_of_mem _ mem)
    alike.saved (step_timed kept _ _ alike.timed follows) (put_requests rfl rfl (.same (by simp)))
  have grant : kept.grantOf token.token = swept.grantOf token.token := by
    rw [Server.grantOf, Server.grantOf, alike.issues]
  exact congrArg₂ (⟨id, ·, some token.token, accessStr, refreshStr⟩ :: ·) grant alike.issues

theorem matched_drop (alike : Unnoticed now swept kept) (le : clock ≤ now)
    (stepped : step swept (.drop id) = some swept') :
    Matched clock kept (.drop id) now swept' := by
  rcases step_drop.mp stepped with ⟨code, found, rfl⟩ | ⟨token, found, rfl⟩ | ⟨token, found, rfl⟩
  · have follows := step_drop.mpr (Or.inl ⟨code, alike.get found (by simp), rfl⟩)
    refine matched_of_step follows le rfl rfl ?_
    exact alike.carry (carries_deleteAuthCode alike.db code) alike.issues (fun _ mem => mem)
      alike.saved (step_timed kept _ _ alike.timed follows)
      (put_requests rfl rfl (.same (by simp)))
  · have follows := step_drop.mpr (Or.inr (Or.inl ⟨token, alike.get found (by simp), rfl⟩))
    refine matched_of_step follows le rfl rfl ?_
    exact alike.carry (carries_deleteToken alike.db .refresh token) alike.issues
      (fun _ mem => mem) alike.saved (step_timed kept _ _ alike.timed follows)
      (put_requests rfl rfl (.same (by simp)))
  · have follows := step_drop.mpr (Or.inr (Or.inr ⟨token, alike.get found (by simp), rfl⟩))
    refine matched_of_step follows le rfl rfl ?_
    exact alike.carry (carries_deleteToken alike.db .access token) alike.issues
      (fun _ mem => mem) alike.saved (step_timed kept _ _ alike.timed follows)
      (put_requests rfl rfl (.same (by simp)))

theorem Unnoticed.cleanup (alike : Unnoticed now swept kept)
    (quiet : expiresUnderRevocation swept now = false) :
    Unnoticed now { swept with db := (cleanupExpired swept.db now).1 } kept where
  db := keeps_cleanup alike.timed alike.db
  requests := by
    intro id
    refine (alike.requests id).carry (fun _ _ _ absent => not_live_cleanup absent)
      (fun _ mem => mem) fun token found unchanged => pairsKept_cleanup unchanged ?_
    cases stored : swept.db.accessTokens.get token with
    | none => rfl
    | some row =>
      by_contra past
      rw [expiresUnderRevocation_of found stored (by simpa using past)] at quiet
      cases quiet
  issues := alike.issues
  saved := alike.saved
  timed := alike.timed

theorem matched_step {clock' : Micros} (alike : Unnoticed clock' swept kept) (le : clock ≤ clock')
    (later : clock' ≤ now) (reading : a.reading.getD clock' = now)
    (inTime : readsPairingInTime (swept, clock') a = true)
    (stepped : step swept a = some swept') : Matched clock kept a now swept' := by
  have current := alike.later later
  have behind : clock ≤ now := Nat.le_trans le later
  cases a with
  | saveCode authCode => cases reading; exact matched_saveCode alike le stepped
  | loadCode id client code _ =>
    cases reading
    exact matched_load current behind (sameRead_authCode current client code) rfl rfl stepped
      (fun begun => begun) (by simp) (fun _ _ => .same (by simp)) (deleteAuthCode · code)
      (fun t found => step_drop.mpr (Or.inl ⟨code, found, rfl⟩)) (carries_dropCode current.db)
      (loses_of_shrinks (deleteAuthCode_shrinks kept.db code))
  | takeCode id => cases reading; exact matched_takeCode alike le stepped
  | issuePair id _ accessStr refreshStr =>
    cases reading
    exact matched_issuePair current behind stepped
  | loadRefresh id client token _ =>
    cases reading
    exact matched_load current behind (sameRead_refresh current client token) rfl rfl stepped
      (fun begun => begun) (by simp) (fun _ _ => .same (by simp)) (deleteRefreshToken · token)
      (fun t found => step_drop.mpr (Or.inr (Or.inl ⟨token, found, rfl⟩)))
      (fun absent => carries_deleteKept current.db (not_live_refresh.mpr absent))
      (loses_deleteToken kept.db .refresh token)
  | rotate id scopes _ accessStr refreshStr =>
    cases reading
    exact matched_rotate current behind stepped
  | loadAccess id token _ =>
    cases reading
    exact matched_load current behind (sameRead_access current token) rfl rfl stepped
      (fun begun => begun) (by simp) (fun _ _ => .same (by simp)) (deleteAccessToken · token)
      (fun t found => step_drop.mpr (Or.inr (Or.inr ⟨token, found, rfl⟩)))
      (fun absent => carries_deleteKept current.db (not_live_access.mpr absent))
      (loses_deleteToken kept.db .access token)
  | drop id => cases reading; exact matched_drop alike le stepped
  | revokeAccess id token _ =>
    cases reading
    refine matched_load current behind (sameRead_access current token) rfl rfl stepped
      (fun begun => begun) (by simp) ?_ (deleteAccessToken · token)
      (fun t found => step_drop.mpr (Or.inr (Or.inr ⟨token, found, rfl⟩)))
      (fun absent => carries_deleteKept current.db (not_live_access.mpr absent))
      (loses_deleteToken kept.db .access token)
    intro value loaded
    exact .revoking (.loaded fun _ => pairsKept_of_loaded current loaded)
  | revokeRefresh id client token _ =>
    cases reading
    exact matched_load current behind (sameRead_refresh current client token) rfl rfl stepped
      (fun begun => begun) (by simp) (fun _ _ => .revoking (.loaded (fun h => by cases h)))
      (deleteRefreshToken · token)
      (fun t found => step_drop.mpr (Or.inr (Or.inl ⟨token, found, rfl⟩)))
      (fun absent => carries_deleteKept current.db (not_live_refresh.mpr absent))
      (loses_deleteToken kept.db .refresh token)
  | revokeStep id => cases reading; exact matched_revokeStep alike le stepped
  | cleanup _ =>
    cases reading
    cases stepped
    exact ⟨[], kept, clock, rfl, behind, current.cleanup (by simpa [readsPairingInTime,
      Action.reading] using inTime), rfl⟩

end Matching

def Inspected.value {α : Type} : Inspected α → Option α
  | .ready value => some value
  | _ => none

/-- What a load lets the SDK go on with. -/
def accepted {α : Type} : Except PyError (Option α) → Option α
  | .ok value => value
  | .error _ => none

theorem accepted_loadAuthorizationCode (db : Db) (client : Client) (code : PyStr) (now : Micros) :
    accepted (loadAuthorizationCode db client code now).2 =
      Inspected.value (inspectAuthorizationCode (getAuthCode db code) client now) := by
  unfold loadAuthorizationCode
  cases inspectAuthorizationCode (getAuthCode db code) client now <;> rfl

theorem accepted_loadRefreshToken (db : Db) (client : Client) (token : PyStr) (now : Micros) :
    accepted (loadRefreshToken db client token now).2 =
      Inspected.value (inspectRefreshToken (getRefreshToken db token) client now) := by
  unfold loadRefreshToken
  cases inspectRefreshToken (getRefreshToken db token) client now <;> rfl

theorem loadAccessToken_value (db : Db) (token : PyStr) (now : Micros) :
    (loadAccessToken db token now).2 =
      Inspected.value (inspectAccessToken (getAccessToken db token) now) := by
  unfold loadAccessToken
  cases inspectAccessToken (getAccessToken db token) now <;> rfl

theorem SameRead.value_eq {α : Type} {lost : Prop} {one two : Inspected α}
    (read : SameRead lost one two) : Inspected.value one = Inspected.value two := by
  rcases read with rfl | ⟨rfl, refused, _⟩
  · rfl
  · cases two with
    | ready value => exact absurd rfl (refused value)
    | absent => rfl
    | drop => rfl
    | raised _ => rfl

theorem Unnoticed.finished {now : Micros} {swept kept : Server} (alike : Unnoticed now swept kept)
    {id : Nat} {request : Request} (finished : request.finished = true) :
    swept.requests.get id = some request ↔ kept.requests.get id = some request := by
  have point := alike.requests id
  generalize swept.requests.get id = one at point
  generalize kept.requests.get id = two at point
  cases point with
  | same _ => rfl
  | @revoking role token stage stage' stages =>
    constructor
    · rintro ⟨⟩
      cases stages with
      | done => rfl
      | _ => cases finished
    · rintro ⟨⟩
      cases stages with
      | done => rfl
      | _ => cases finished

/-- The two servers have answered alike, and they accept the same from now on. -/
structure AnswersAlike (clock : Micros) (swept kept : Server) : Prop where
  issues : kept.issues = swept.issues
  finished : ∀ id request, request.finished = true →
    (swept.requests.get id = some request ↔ kept.requests.get id = some request)
  codes : ∀ client code now, clock ≤ now →
    accepted (loadAuthorizationCode swept.db client code now).2 =
      accepted (loadAuthorizationCode kept.db client code now).2
  refresh : ∀ client token now, clock ≤ now →
    accepted (loadRefreshToken swept.db client token now).2 =
      accepted (loadRefreshToken kept.db client token now).2
  access : ∀ token now, clock ≤ now →
    (loadAccessToken swept.db token now).2 = (loadAccessToken kept.db token now).2

theorem Unnoticed.answersAlike {clock : Micros} {swept kept : Server}
    (alike : Unnoticed clock swept kept) : AnswersAlike clock swept kept where
  issues := alike.issues
  finished := fun _ _ finished => alike.finished finished
  codes := by
    intro client code now le
    rw [accepted_loadAuthorizationCode, accepted_loadAuthorizationCode]
    exact (sameRead_authCode (alike.later le) client code).value_eq
  refresh := by
    intro client token now le
    rw [accepted_loadRefreshToken, accepted_loadRefreshToken]
    exact (sameRead_refresh (alike.later le) client token).value_eq
  access := by
    intro token now le
    rw [loadAccessToken_value, loadAccessToken_value]
    exact (sameRead_access (alike.later le) token).value_eq

/-- Whatever a server does with its cleanups, it could have done without them: some run of the
server that never cleans up is asked the same in the same order and answers alike. -/
theorem cleanup_unnoticed {acts : List Action} {s : Server} {clock : Micros}
    (inTime : Replay.Obeys clockedStep (fun s a => readsPairingInTime s a = true) (start, 0) acts)
    (ran : Replay.run clockedStep (start, 0) acts = some (s, clock)) :
    ∃ acts' kept clock', Replay.run keepingStep (start, 0) acts' = some (kept, clock') ∧
      acts'.filterMap Action.visible = acts.filterMap Action.visible ∧
      AnswersAlike clock s kept := by
  have matched : ∀ (s k : Server × Micros) (a : Action) (s' : Server × Micros),
      (k.2 ≤ s.2 ∧ Unnoticed s.2 s.1 k.1) → readsPairingInTime s a = true →
      clockedStep s a = some s' → ∃ acts k', Replay.run keepingStep k acts = some k' ∧
        (k'.2 ≤ s'.2 ∧ Unnoticed s'.2 s'.1 k'.1) ∧
        acts.filterMap Action.visible = a.visible.toList := by
    rintro ⟨s, clock⟩ ⟨k, behind⟩ a ⟨s', now⟩ ⟨le, alike⟩ inTime stepped
    obtain ⟨stepped, later, reading⟩ := clockedStep_eq_some.mp stepped
    obtain ⟨acts, k', behind', ran, le', alike', seen⟩ :=
      matched_step alike le later reading inTime stepped
    exact ⟨acts, (k', behind'), ran, ⟨le', alike'⟩, seen⟩
  obtain ⟨acts', ⟨kept, clock'⟩, reached, ⟨_, alike⟩, seen⟩ :=
    Replay.simulates (t := (start, 0)) matched ⟨Nat.le_refl 0, start_unnoticed 0⟩ inTime ran
  exact ⟨acts', kept, clock', reached, seen, alike.answersAlike⟩

/-- Two hours after the log-in the access token is swept; the refresh token goes on. -/
def sweptSession : List Action :=
  [.saveCode demoCode, .loadCode 0 demoClient (py "code") 0, .takeCode 0,
   .issuePair 0 1000000 (py "a1") (py "r1"), .cleanup 7200000000,
   .loadAccess 1 (py "a1") 7200000000, .loadRefresh 2 demoClient (py "r1") 7200000000,
   .rotate 2 [] 7200000000 (py "a2") (py "r2")]

theorem cleanup_unnoticed_session : ∃ acts' kept clock',
    Replay.run keepingStep (start, 0) acts' = some (kept, clock') ∧
      kept.issued = [(py "a2", py "r2"), (py "a1", py "r1")] ∧
      kept.requests.get 1 = some .rejected := by
  obtain ⟨acts', kept, clock', ran, _, alike⟩ := @cleanup_unnoticed sweptSession _ _ (by decide) rfl
  refine ⟨acts', kept, clock', ran, ?_, (alike.finished 1 .rejected rfl).mp rfl⟩
  rw [Server.issued, alike.issues]
  rfl

end OAuthRequests
