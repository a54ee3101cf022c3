import Gubbi.OAuth.Requests
import Gubbi.Library.Ledger

/-!
# Redeeming an authorization code

A code is redeemed by a load, a delete and an issue. The delete ignores how
many rows it took, so it picks no winner among two requests that have both
loaded the code. In a run in which every such delete does find the row, the
delete is the point where the code changes hands, and one pair at most is
issued for it.
-/

namespace OAuthRequests

open Text OAuthStorage OAuthProvider Pairing

/-- The delete of a redeeming request finds the row of its code. -/
def codeStillStored (s : Server) : Action → Bool
  | .takeCode id =>
    match s.requests.get id with
    | some (.codeLoaded _ authCode) => (getAuthCode s.db authCode.code).isSome
    | _ => true
  | _ => true

/-- No pair was issued for the code itself. -/
def Unredeemed (s : Server) (code : PyStr) : Prop :=
  ∀ issue ∈ s.issues, issue.parent = none → issue.grant ≠ code

structure SingleUse (s : Server) : Prop where
  stored : ∀ code row, s.db.authCodes.get code = some row →
    row.data.code = code ∧ code ∈ s.saved ∧ Unredeemed s code
  loaded : ∀ id client authCode, s.requests.get id = some (.codeLoaded client authCode) →
    authCode.code ∈ s.saved
  taken : ∀ id client authCode, s.requests.get id = some (.codeTaken client authCode) →
    s.db.authCodes.get authCode.code = none ∧ authCode.code ∈ s.saved ∧
      Unredeemed s authCode.code
  takenOnce : ∀ id client authCode id' client' authCode',
    s.requests.get id = some (.codeTaken client authCode) →
    s.requests.get id' = some (.codeTaken client' authCode') →
    authCode.code = authCode'.code → id = id'
  redeemed : ∀ issue ∈ s.issues, issue.parent = none → issue.grant ∈ s.saved
  once : s.issues.Pairwise (fun issue issue' =>
    issue.parent = none → issue'.parent = none → issue.grant ≠ issue'.grant)

theorem start_singleUse : SingleUse start where
  stored := by simp [start, emptyDb]
  loaded := by simp [start]
  taken := by simp [start]
  takenOnce := by simp [start]
  redeemed := by simp [start]
  once := by simp [start]

/-- A request that holds no code, or has just loaded a saved one. -/
def HoldsNoCode (saved : List PyStr) : Request → Prop
  | .codeTaken _ _ => False
  | .codeLoaded _ authCode => authCode.code ∈ saved
  | _ => True

/-- Steps that save, take and redeem no code: requests other than the one that
moves stay, and a pair that is added comes from a rotation. -/
theorem SingleUse.frame {s t : Server} (inv : SingleUse s) (saved : t.saved = s.saved)
    (codes : ∀ code row, t.db.authCodes.get code = some row → s.db.authCodes.get code = some row)
    (requests : ∀ id request, t.requests.get id = some request →
      s.requests.get id = some request ∨ HoldsNoCode s.saved request)
    (issues : t.issues = s.issues ∨
      ∃ issue, issue.parent ≠ none ∧ t.issues = issue :: s.issues) : SingleUse t := by
  have roots : ∀ issue ∈ t.issues, issue.parent = none → issue ∈ s.issues := by
    intro issue hmem hroot
    rcases issues with h | ⟨added, hadded, h⟩
    · exact h ▸ hmem
    · rw [h, List.mem_cons] at hmem
      rcases hmem with rfl | hmem
      · exact False.elim (hadded hroot)
      · exact hmem
  have unredeemed : ∀ code, Unredeemed s code → Unredeemed t code :=
    fun code h issue hmem hroot => h issue (roots issue hmem hroot) hroot
  have taken : ∀ id client authCode, t.requests.get id = some (.codeTaken client authCode) →
      s.requests.get id = some (.codeTaken client authCode) := by
    intro id client authCode h
    rcases requests id _ h with hold | hnew
    · exact hold
    · exact False.elim hnew
  refine ⟨?_, ?_, ?_, ?_, ?_, ?_⟩
  · intro code row h
    obtain ⟨hkey, hsaved, hfree⟩ := inv.stored code row (codes code row h)
    exact ⟨hkey, saved ▸ hsaved, unredeemed code hfree⟩
  · intro id client authCode h
    rw [saved]
    rcases requests id _ h with hold | hnew
    · exact inv.loaded id client authCode hold
    · exact hnew
  · intro id client authCode h
    obtain ⟨hgone, hsaved, hfree⟩ := inv.taken id client authCode (taken id client authCode h)
    refine ⟨?_, saved ▸ hsaved, unredeemed _ hfree⟩
    cases hrow : t.db.authCodes.get authCode.code with
    | none => rfl
    | some row => rw [codes _ _ hrow] at hgone; cases hgone
  · intro id client authCode id' client' authCode' h h'
    exact inv.takenOnce _ _ _ _ _ _ (taken id client authCode h) (taken id' client' authCode' h')
  · intro issue hmem hroot
    exact saved ▸ inv.redeemed issue (roots issue hmem hroot) hroot
  · rcases issues with h | ⟨added, hadded, h⟩
    · exact h ▸ inv.once
    · rw [h, List.pairwise_cons]
      exact ⟨fun _ _ hroot => False.elim (hadded hroot), inv.once⟩

/-- A request that moves on to something without a code. -/
theorem SingleUse.move {s : Server} (inv : SingleUse s) (id : Nat) {db : Db} {request : Request}
    (codes : ∀ code row, db.authCodes.get code = some row → s.db.authCodes.get code = some row)
    (holds : HoldsNoCode s.saved request) : SingleUse (s.advance id db request) := by
  refine inv.frame rfl codes ?_ (Or.inl rfl)
  intro id' request' h
  rcases Table.get_put_eq_some h with ⟨_, rfl⟩ | ⟨_, hold⟩
  · exact Or.inr holds
  · exact Or.inl hold

theorem SingleUse.saveCode {s : Server} (inv : SingleUse s) {authCode : AuthorizationCode}
    (fresh : authCode.code ∉ s.saved) :
    SingleUse { s with
      db := saveAuthCode s.db authCode.code authCode
      saved := authCode.code :: s.saved } where
  stored := by
    intro code row h
    rcases Table.get_put_eq_some h with ⟨rfl, rfl⟩ | ⟨_, hold⟩
    · refine ⟨rfl, List.mem_cons_self, ?_⟩
      intro issue hmem hroot heq
      exact fresh (heq ▸ inv.redeemed issue hmem hroot)
    · obtain ⟨hkey, hsaved, hfree⟩ := inv.stored code row hold
      exact ⟨hkey, List.mem_cons_of_mem _ hsaved, hfree⟩
  loaded := fun id client ac h => List.mem_cons_of_mem _ (inv.loaded id client ac h)
  taken := by
    intro id client ac h
    obtain ⟨hgone, hsaved, hfree⟩ := inv.taken id client ac h
    refine ⟨?_, List.mem_cons_of_mem _ hsaved, hfree⟩
    have hne : ac.code ≠ authCode.code := fun heq => fresh (heq ▸ hsaved)
    simpa [saveAuthCode, Table.get_put_ne _ _ hne] using hgone
  takenOnce := inv.takenOnce
  redeemed := fun issue hmem hroot => List.mem_cons_of_mem _ (inv.redeemed issue hmem hroot)
  once := inv.once

/-- The winner's delete: nobody else has taken a code whose row is stored. -/
theorem SingleUse.takeCode {s : Server} (inv : SingleUse s) {id : Nat} {client : Client}
    {authCode : AuthorizationCode} {row : Stored AuthorizationCode}
    (stored : s.db.authCodes.get authCode.code = some row) :
    SingleUse (s.advance id (deleteAuthCode s.db authCode.code)
      (.codeTaken client authCode)) := by
  obtain ⟨_, hsaved, hfree⟩ := inv.stored _ row stored
  have others : ∀ id' client' authCode',
      s.requests.get id' = some (.codeTaken client' authCode') →
      authCode'.code ≠ authCode.code := by
    intro id' client' authCode' h heq
    have hgone := (inv.taken id' client' authCode' h).1
    rw [heq, stored] at hgone
    cases hgone
  refine ⟨?_, ?_, ?_, ?_, inv.redeemed, inv.once⟩
  · intro code row h
    exact inv.stored code row (Table.get_erase_eq_some h).2
  · intro id' client' authCode' h
    rcases Table.get_put_eq_some h with ⟨_, hnew⟩ | ⟨_, hold⟩
    · cases hnew
    · exact inv.loaded id' client' authCode' hold
  · intro id' client' authCode' h
    rcases Table.get_put_eq_some h with ⟨_, hnew⟩ | ⟨_, hold⟩
    · cases hnew
      exact ⟨Table.get_erase_self _ _, hsaved, hfree⟩
    · obtain ⟨hgone, hrest⟩ := inv.taken id' client' authCode' hold
      refine ⟨?_, hrest⟩
      simpa [Server.advance, deleteAuthCode, Table.get_erase, others _ _ _ hold] using hgone
  · intro one client₁ authCode₁ two client₂ authCode₂ h₁ h₂ heq
    rcases Table.get_put_eq_some h₁ with ⟨hid₁, hnew₁⟩ | ⟨_, hold₁⟩
    · rcases Table.get_put_eq_some h₂ with ⟨hid₂, _⟩ | ⟨_, hold₂⟩
      · exact hid₁.trans hid₂.symm
      · cases hnew₁
        exact False.elim (others _ _ _ hold₂ heq.symm)
    · rcases Table.get_put_eq_some h₂ with ⟨_, hnew₂⟩ | ⟨_, hold₂⟩
      · cases hnew₂
        exact False.elim (others _ _ _ hold₁ heq)
      · exact inv.takenOnce _ _ _ _ _ _ hold₁ hold₂ heq

theorem SingleUse.issuePair {s : Server} (inv : SingleUse s) {id : Nat} {client : Client}
    {authCode : AuthorizationCode}
    (holds : s.requests.get id = some (.codeTaken client authCode)) (db : Db)
    (codes : db.authCodes = s.db.authCodes) (accessStr refreshStr : PyStr) :
    SingleUse { s.advance id db (.granted accessStr refreshStr) with
      issues := ⟨id, authCode.code, none, accessStr, refreshStr⟩ :: s.issues } := by
  obtain ⟨hgone, hsaved, hfree⟩ := inv.taken id client authCode holds
  have keeps : ∀ code, code ≠ authCode.code → Unredeemed s code →
      ∀ issue ∈ (⟨id, authCode.code, none, accessStr, refreshStr⟩ : Issue) :: s.issues,
        issue.parent = none → issue.grant ≠ code := by
    intro code hne hcode issue hmem hroot
    rcases List.mem_cons.mp hmem with rfl | hmem
    · exact hne.symm
    · exact hcode issue hmem hroot
  refine ⟨?_, ?_, ?_, ?_, ?_, ?_⟩
  · intro code row h
    simp only [Server.advance, codes] at h
    obtain ⟨hkey, hcode, hunredeemed⟩ := inv.stored code row h
    refine ⟨hkey, hcode, keeps code ?_ hunredeemed⟩
    rintro rfl
    rw [hgone] at h
    cases h
  · intro id' client' authCode' h
    rcases Table.get_put_eq_some h with ⟨_, hnew⟩ | ⟨_, hold⟩
    · cases hnew
    · exact inv.loaded id' client' authCode' hold
  · intro id' client' authCode' h
    rcases Table.get_put_eq_some h with ⟨_, hnew⟩ | ⟨hid, hold⟩
    · cases hnew
    · obtain ⟨hgone', hsaved', hfree'⟩ := inv.taken id' client' authCode' hold
      refine ⟨?_, hsaved', keeps _ ?_ hfree'⟩
      · simpa [Server.advance, codes] using hgone'
      · exact fun heq => hid (inv.takenOnce _ _ _ _ _ _ hold holds heq)
  · intro one client₁ authCode₁ two client₂ authCode₂ h₁ h₂ heq
    rcases Table.get_put_eq_some h₁ with ⟨_, hnew₁⟩ | ⟨_, hold₁⟩
    · cases hnew₁
    · rcases Table.get_put_eq_some h₂ with ⟨_, hnew₂⟩ | ⟨_, hold₂⟩
      · cases hnew₂
      · exact inv.takenOnce _ _ _ _ _ _ hold₁ hold₂ heq
  · intro issue hmem hroot
    rcases List.mem_cons.mp hmem with rfl | hmem
    · exact hsaved
    · exact inv.redeemed issue hmem hroot
  · refine List.pairwise_cons.mpr ⟨?_, inv.once⟩
    intro issue hmem _ hroot
    exact (hfree issue hmem hroot).symm

theorem SingleUse.load {s t : Server} (inv : SingleUse s) {id : Nat} {α : Type}
    {dropping : Request} {ready : α → Request} {found : Inspected α}
    (begun : s.begin id (afterLoad dropping ready found) = some t)
    (hdropping : HoldsNoCode s.saved dropping)
    (hready : ∀ value, found = .ready value → HoldsNoCode s.saved (ready value)) :
    SingleUse t := by
  obtain ⟨_, rfl⟩ := begin_eq_some.mp begun
  have holds : HoldsNoCode s.saved (afterLoad dropping ready found) := by
    cases found with
    | absent => trivial
    | drop => exact hdropping
    | ready value => exact hready value rfl
    | raised e => trivial
  refine inv.frame rfl (fun _ _ h => h) ?_ (Or.inl rfl)
  intro id' request' h
  rcases Table.get_put_eq_some h with ⟨_, rfl⟩ | ⟨_, hold⟩
  · exact Or.inr holds
  · exact Or.inl hold

theorem revokeSection_authCodes {db db' : Db} {role : Role} {token : PyStr} {stage next : Stage}
    (h : revokeSection db role token stage = some (db', next)) :
    db'.authCodes = db.authCodes := by
  cases stage with
  | loaded => cases h; rfl
  | paired counterparts => cases h; cases role <;> rfl
  | deleted counterparts => cases h; cases role <;> rfl
  | unpaired counterparts =>
    cases counterparts with
    | nil => cases h; rfl
    | cons counterpart rest => cases h; cases role <;> rfl
  | done => cases h

theorem step_singleUse (s : Server) (a : Action) (t : Server) (inv : SingleUse s)
    (guard : codeStillStored s a = true) (stepped : step s a = some t) : SingleUse t := by
  cases a with
  | saveCode authCode =>
    obtain ⟨fresh, rfl⟩ := step_saveCode.mp stepped
    exact inv.saveCode fresh
  | loadCode id client code now =>
    refine inv.load stepped trivial ?_
    intro authCode ready
    obtain ⟨row, hrow, rfl⟩ := getAuthCode_eq_some.mp (inspectAuthorizationCode_ready ready)
    obtain ⟨hkey, hsaved, _⟩ := inv.stored code row hrow
    rw [← hkey] at hsaved
    exact hsaved
  | takeCode id =>
    obtain ⟨client, authCode, hget, rfl⟩ := step_takeCode.mp stepped
    simp only [codeStillStored, hget, Option.isSome_iff_exists, getAuthCode_eq_some] at guard
    obtain ⟨_, row, hrow, _⟩ := guard
    exact inv.takeCode hrow
  | issuePair id now accessStr refreshStr =>
    obtain ⟨client, authCode, hget, _, rfl⟩ := step_issuePair.mp stepped
    exact inv.issuePair hget (issueTokenPair s.db client.idOrEmpty authCode.scopes
      authCode.resource now accessStr refreshStr).1 rfl accessStr refreshStr
  | loadRefresh id client token now =>
    exact inv.load stepped trivial (fun _ _ => trivial)
  | rotate id scopes now accessStr refreshStr =>
    obtain ⟨client, token, _, _, rfl⟩ := step_rotate.mp stepped
    refine inv.frame rfl ?_ ?_ (Or.inr ⟨_, by simp, rfl⟩)
    · intro code row h
      rwa [Server.advance, exchangeRefreshToken, rotateRefreshToken, issued_authCodes,
        retire_authCodes] at h
    · intro id' request h
      rcases Table.get_put_eq_some h with ⟨_, rfl⟩ | ⟨_, hold⟩
      · exact Or.inr trivial
      · exact Or.inl hold
  | loadAccess id token now =>
    exact inv.load stepped trivial (fun _ _ => trivial)
  | drop id =>
    rcases step_drop.mp stepped with ⟨code, _, rfl⟩ | ⟨token, _, rfl⟩ | ⟨token, _, rfl⟩
    · exact inv.move id (fun _ _ h => (Table.get_erase_eq_some h).2) trivial
    · exact inv.move id (fun _ _ h => h) trivial
    · exact inv.move id (fun _ _ h => h) trivial
  | revokeAccess id token now =>
    exact inv.load stepped trivial (fun _ _ => trivial)
  | revokeRefresh id client token now =>
    exact inv.load stepped trivial (fun _ _ => trivial)
  | revokeStep id =>
    obtain ⟨role, token, stage, db, next, _, hsection, rfl⟩ := step_revokeStep.mp stepped
    refine inv.move id ?_ trivial
    intro code row h
    rwa [revokeSection_authCodes hsection] at h
  | cleanup now =>
    cases stepped
    exact inv.frame rfl (fun _ _ h => (cleanup_authCodes.mp h).1) (fun _ _ h => Or.inl h)
      (Or.inl rfl)

/-- How many pairs were issued for a code itself. -/
def Server.redemptions (s : Server) (code : PyStr) : Nat :=
  s.issues.countP (fun issue => issue.parent = none ∧ issue.grant = code)

theorem SingleUse.redemptions_le {s : Server} (inv : SingleUse s) (code : PyStr) :
    s.redemptions code ≤ 1 := by
  refine Ledger.countP_le_one (inv.once.imp ?_)
  intro issue issue' differ both
  simp only [decide_eq_true_eq] at both
  obtain ⟨⟨hroot, hgrant⟩, ⟨hroot', hgrant'⟩⟩ := both
  exact differ hroot hroot' (hgrant.trans hgrant'.symm)

/-- Authorization codes are single use, in every run in which each delete of a
redeeming request finds the row of the code. -/
theorem code_single_use {acts : List Action} {s : Server}
    (obeys : Replay.Obeys step (fun s a => codeStillStored s a = true) start acts)
    (ran : Replay.run step start acts = some s) (code : PyStr) : s.redemptions code ≤ 1 :=
  (Replay.run_invariant step_singleUse start_singleUse obeys ran).redemptions_le code

/-- Log in, then redeem the code with one request. -/
def redeemOnce : List Action :=
  [.saveCode demoCode, .loadCode 0 demoClient (py "code") 0, .takeCode 0,
   .issuePair 0 0 (py "a1") (py "r1")]

theorem code_single_use_once : ∃ s, Replay.run step start redeemOnce = some s ∧
    s.issued = [(py "a1", py "r1")] ∧ s.redemptions (py "code") ≤ 1 := by
  refine ⟨_, rfl, rfl, ?_⟩
  exact @code_single_use redeemOnce _ (by decide) rfl (py "code")

/-- Both requests load the code before either deletes it. -/
def redeemTwice : List Action :=
  [.saveCode demoCode, .loadCode 0 demoClient (py "code") 0, .loadCode 1 demoClient (py "code") 0,
   .takeCode 0, .takeCode 1, .issuePair 0 0 (py "a1") (py "r1"),
   .issuePair 1 0 (py "a2") (py "r2")]

theorem code_redeemed_twice :
    ¬ ∀ (acts : List Action) (s : Server), Replay.run step start acts = some s →
      ∀ code, s.redemptions code ≤ 1 := by
  intro h
  have two := h redeemTwice _ rfl (py "code")
  revert two
  decide

end OAuthRequests
