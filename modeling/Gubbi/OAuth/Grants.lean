import Gubbi.OAuth.Lineage

/-!
# What a lineage of tokens inherits

A history keeps, next to the server, every authorization code that was saved
and both token rows of every pair that was issued. A pair issued for a code
takes client, scopes and resource from the code; a rotation takes the client
and the scopes from the presented refresh token, which has no resource to pass
on.
-/

namespace OAuthGrants

open Text OAuthStorage OAuthProvider Pairing OAuthRequests

/-- A pair handed out, with the two token rows as the exchange has stored them. -/
structure Issued where
  issue : Issue
  access : AccessToken
  refresh : RefreshToken

/-- Codes and pairs are never forgotten; the newest comes first. -/
structure History where
  server : Server
  codes : List AuthorizationCode
  issued : List Issued

def empty : History := ⟨OAuthRequests.start, [], []⟩

/-- The token endpoint of the SDK refuses a scope that the presented refresh
token does not have. -/
def sdkAllows (s : Server) : Action → Bool
  | .rotate id scopes _ _ _ =>
    match s.requests.get id with
    | some (.refreshLoaded _ token) => scopes.all (fun scope => scope ∈ token.scopes)
    | _ => true
  | _ => true

def savedCode : Action → List AuthorizationCode
  | .saveCode authCode => [authCode]
  | _ => []

/-- The newest pair with its rows in the store. -/
def readBack (s : Server) (accessStr refreshStr : PyStr) : Option Issued :=
  match s.issues, getAccessToken s.db accessStr, getRefreshToken s.db refreshStr with
  | issue :: _, some access, some refresh => some ⟨issue, access, refresh⟩
  | _, _, _ => none

def handedOut (after : Server) : Action → Option Issued
  | .issuePair _ _ accessStr refreshStr => readBack after accessStr refreshStr
  | .rotate _ _ _ accessStr refreshStr => readBack after accessStr refreshStr
  | _ => none

def record (h : History) (a : Action) : Option History :=
  if sdkAllows h.server a then
    (step h.server a).map (fun after =>
      ⟨after, savedCode a ++ h.codes, (handedOut after a).toList ++ h.issued⟩)
  else none

/-- One pair descends from another by one or more refresh exchanges. -/
inductive Descends (h : History) : Issued → Issued → Prop
  | parent {new old : Issued} : old ∈ h.issued → new.issue.parent = some old.issue.refresh →
      Descends h new old
  | trans {new mid old : Issued} : Descends h new mid → Descends h mid old → Descends h new old

/-- Every access token has the client of its code, scopes within those of the
code and of every earlier token of its lineage, and the resource of the code. -/
def Preserved (h : History) : Prop :=
  ∀ one ∈ h.issued,
    (∃ code ∈ h.codes, code.code = one.issue.grant ∧ one.access.clientId = code.clientId ∧
      (∀ scope ∈ one.access.scopes, scope ∈ code.scopes) ∧
      one.access.resource = code.resource) ∧
    ∀ old ∈ h.issued, Descends h one old → ∀ scope ∈ one.access.scopes,
      scope ∈ old.access.scopes ∧ scope ∈ old.refresh.scopes

section Steps
variable {h k : History} {a : Action}

theorem record_eq_some : record h a = some k ↔
    sdkAllows h.server a = true ∧ ∃ after, step h.server a = some after ∧
      k = ⟨after, savedCode a ++ h.codes, (handedOut after a).toList ++ h.issued⟩ := by
  by_cases allowed : sdkAllows h.server a = true
  · rw [record, if_pos allowed, Option.map_eq_some_iff]
    simp only [allowed, true_and, eq_comm]
  · simp [record, allowed]

theorem record_server (recorded : record h a = some k) : step h.server a = some k.server := by
  obtain ⟨_, after, stepped, rfl⟩ := record_eq_some.mp recorded
  exact stepped

theorem record_grows (recorded : record h a = some k) :
    (∀ code ∈ h.codes, code ∈ k.codes) ∧ ∀ one ∈ h.issued, one ∈ k.issued := by
  obtain ⟨_, after, _, rfl⟩ := record_eq_some.mp recorded
  constructor
  · intro code hcode
    exact List.mem_append.mpr (Or.inr hcode)
  · intro one hone
    exact List.mem_append.mpr (Or.inr hone)

theorem readBack_issued (s : Server) (issue : Issue) (rest : List Issue) (db : Db)
    (access : AccessToken) (refresh : RefreshToken) (accessStr refreshStr : PyStr) :
    readBack { s with
      db := saveIssuedTokenPair db accessStr access refreshStr refresh
      issues := issue :: rest } accessStr refreshStr = some ⟨issue, access, refresh⟩ := by
  simp [readBack, getAccessToken, getRefreshToken, issued_accessTokens, issued_refreshTokens]

/-- The pair that a request issues for the code it has taken. -/
def rootPair (id : Nat) (client : Client) (code : AuthorizationCode) (now : Micros)
    (accessStr refreshStr : PyStr) : Issued where
  issue := ⟨id, code.code, none, accessStr, refreshStr⟩
  access := newAccessToken accessStr client.idOrEmpty code.scopes code.resource now
  refresh := newRefreshToken refreshStr client.idOrEmpty code.scopes now

/-- The pair that a request issues for the refresh token it has loaded. -/
def nextPair (id : Nat) (grant : PyStr) (client : Client) (token : RefreshToken)
    (scopes : List PyStr) (now : Micros) (accessStr refreshStr : PyStr) : Issued where
  issue := ⟨id, grant, some token.token, accessStr, refreshStr⟩
  access := newAccessToken accessStr client.idOrEmpty (effectiveScopes scopes token) none now
  refresh := newRefreshToken refreshStr client.idOrEmpty (effectiveScopes scopes token) now

theorem record_issuePair {id : Nat} {now : Micros} {accessStr refreshStr : PyStr}
    (recorded : record h (.issuePair id now accessStr refreshStr) = some k) :
    ∃ client code, h.server.requests.get id = some (.codeTaken client code) ∧
      Fresh h.server.issued accessStr refreshStr ∧ k.codes = h.codes ∧
      k.issued = rootPair id client code now accessStr refreshStr :: h.issued := by
  obtain ⟨_, after, stepped, rfl⟩ := record_eq_some.mp recorded
  obtain ⟨client, code, hget, fresh, rfl⟩ := step_issuePair.mp stepped
  refine ⟨client, code, hget, fresh, rfl, ?_⟩
  have row := readBack_issued (h.server.advance id h.server.db (.granted accessStr refreshStr))
    ⟨id, code.code, none, accessStr, refreshStr⟩ h.server.issues h.server.db
    (newAccessToken accessStr client.idOrEmpty code.scopes code.resource now)
    (newRefreshToken refreshStr client.idOrEmpty code.scopes now) accessStr refreshStr
  exact congrArg (fun found : Option Issued => found.toList ++ h.issued) row

theorem record_rotate {id : Nat} {scopes : List PyStr} {now : Micros}
    {accessStr refreshStr : PyStr}
    (recorded : record h (.rotate id scopes now accessStr refreshStr) = some k) :
    ∃ client token, h.server.requests.get id = some (.refreshLoaded client token) ∧
      Fresh h.server.issued accessStr refreshStr ∧ (∀ scope ∈ scopes, scope ∈ token.scopes) ∧
      k.codes = h.codes ∧
      k.issued = nextPair id (h.server.grantOf token.token) client token scopes now accessStr
        refreshStr :: h.issued := by
  obtain ⟨allowed, after, stepped, rfl⟩ := record_eq_some.mp recorded
  obtain ⟨client, token, hget, fresh, rfl⟩ := step_rotate.mp stepped
  have within : ∀ scope ∈ scopes, scope ∈ token.scopes := by
    simpa [sdkAllows, hget] using allowed
  refine ⟨client, token, hget, fresh, within, rfl, ?_⟩
  have row := readBack_issued (h.server.advance id h.server.db (.granted accessStr refreshStr))
    ⟨id, h.server.grantOf token.token, some token.token, accessStr, refreshStr⟩ h.server.issues
    (retireRefreshToken h.server.db token.token)
    (newAccessToken accessStr client.idOrEmpty (effectiveScopes scopes token) none now)
    (newRefreshToken refreshStr client.idOrEmpty (effectiveScopes scopes token) now)
    accessStr refreshStr
  exact congrArg (fun found : Option Issued => found.toList ++ h.issued) row

theorem effectiveScopes_within {scopes : List PyStr} {token : RefreshToken}
    (within : ∀ scope ∈ scopes, scope ∈ token.scopes) :
    ∀ scope ∈ effectiveScopes scopes token, scope ∈ token.scopes := by
  intro scope hscope
  cases scopes with
  | nil => exact hscope
  | cons first rest => exact within scope hscope

end Steps

/-- What a request holds was saved or issued, and belongs to its client. -/
def Holds (h : History) : Request → Prop
  | .codeLoaded client code => code ∈ h.codes ∧ code.clientId = client.idOrEmpty
  | .codeTaken client code => code ∈ h.codes ∧ code.clientId = client.idOrEmpty
  | .refreshLoaded client token =>
    (∃ one ∈ h.issued, one.refresh = token) ∧ token.clientId = client.idOrEmpty
  | _ => True

/-- Client and scopes of a pair are within those of a saved code of its grant. -/
def Rooted (h : History) (one : Issued) : Prop :=
  ∃ code ∈ h.codes, code.code = one.issue.grant ∧ one.access.clientId = code.clientId ∧
    ∀ scope ∈ one.access.scopes, scope ∈ code.scopes

/-- A pair issued for a refresh token is within the pair of that token. -/
def Linked (h : History) (one : Issued) : Prop :=
  ∀ token, one.issue.parent = some token → ∃ old ∈ h.issued, old.issue.refresh = token ∧
    old.issue.grant = one.issue.grant ∧ ∀ scope ∈ one.access.scopes, scope ∈ old.access.scopes

structure Traced (h : History) : Prop where
  issues : h.issued.map Issued.issue = h.server.issues
  strings : ∀ one ∈ h.issued, one.refresh.token = one.issue.refresh
  alike : ∀ one ∈ h.issued, one.refresh.clientId = one.access.clientId ∧
    one.refresh.scopes = one.access.scopes
  distinct : (h.issued.map (fun one => one.issue.refresh)).Nodup
  saved : h.codes.map AuthorizationCode.code = h.server.saved
  savedOnce : h.server.saved.Nodup
  codeRows : ∀ key row, h.server.db.authCodes.get key = some row → row.data ∈ h.codes
  accessRows : ∀ key row, h.server.db.accessTokens.get key = some row →
    ∃ one ∈ h.issued, one.issue.access = key ∧ one.access = row.data
  refreshRows : ∀ key row, h.server.db.refreshTokens.get key = some row →
    ∃ one ∈ h.issued, one.refresh = row.data
  held : ∀ id request, h.server.requests.get id = some request → Holds h request
  rooted : ∀ one ∈ h.issued, Rooted h one
  linked : ∀ one ∈ h.issued, Linked h one

theorem empty_traced : Traced empty where
  issues := rfl
  strings := by simp [empty]
  alike := by simp [empty]
  distinct := by simp [empty]
  saved := rfl
  savedOnce := by simp [empty, OAuthRequests.start]
  codeRows := by simp [empty, OAuthRequests.start, emptyDb]
  accessRows := by simp [empty, OAuthRequests.start, emptyDb]
  refreshRows := by simp [empty, OAuthRequests.start, emptyDb]
  held := by simp [empty, OAuthRequests.start]
  rooted := by simp [empty]
  linked := by simp [empty]

section Invariant
variable {h k : History}

theorem Holds.grow {request : Request} (holds : Holds h request)
    (codes : ∀ code ∈ h.codes, code ∈ k.codes) (issued : ∀ one ∈ h.issued, one ∈ k.issued) :
    Holds k request := by
  cases request with
  | codeLoaded client code => exact ⟨codes code holds.1, holds.2⟩
  | codeTaken client code => exact ⟨codes code holds.1, holds.2⟩
  | refreshLoaded client token =>
    obtain ⟨⟨one, hone, heq⟩, hclient⟩ := holds
    exact ⟨⟨one, issued one hone, heq⟩, hclient⟩
  | _ => trivial

theorem Rooted.grow {one : Issued} (rooted : Rooted h one)
    (codes : ∀ code ∈ h.codes, code ∈ k.codes) : Rooted k one := by
  obtain ⟨code, hcode, rest⟩ := rooted
  exact ⟨code, codes code hcode, rest⟩

theorem Linked.grow {one : Issued} (linked : Linked h one)
    (issued : ∀ old ∈ h.issued, old ∈ k.issued) : Linked k one := by
  intro token hparent
  obtain ⟨old, hold, rest⟩ := linked token hparent
  exact ⟨old, issued old hold, rest⟩

/-- Steps that save no code and issue no pair. -/
theorem Traced.frame (inv : Traced h) (codes : k.codes = h.codes) (issued : k.issued = h.issued)
    (issues : k.server.issues = h.server.issues) (saved : k.server.saved = h.server.saved)
    (codeRows : ∀ key row, k.server.db.authCodes.get key = some row →
      h.server.db.authCodes.get key = some row)
    (removes : Removes h.server.db k.server.db)
    (held : ∀ id request, k.server.requests.get id = some request →
      h.server.requests.get id = some request ∨ Holds h request) : Traced k where
  issues := by rw [issued, issues, inv.issues]
  strings := issued ▸ inv.strings
  alike := issued ▸ inv.alike
  distinct := issued ▸ inv.distinct
  saved := by rw [codes, saved, inv.saved]
  savedOnce := saved ▸ inv.savedOnce
  codeRows := fun key row hrow => codes ▸ inv.codeRows key row (codeRows key row hrow)
  accessRows := fun key row hrow =>
    issued ▸ inv.accessRows key row (removes.accessTokens key row hrow)
  refreshRows := fun key row hrow =>
    issued ▸ inv.refreshRows key row (removes.refreshTokens key row hrow)
  held := by
    intro id request hget
    have before : Holds h request := by
      rcases held id request hget with hold | hnew
      · exact inv.held id request hold
      · exact hnew
    exact before.grow (fun _ hcode => codes ▸ hcode) (fun _ hone => issued ▸ hone)
  rooted := by
    intro one hone
    exact (inv.rooted one (issued ▸ hone)).grow (fun _ hcode => codes ▸ hcode)
  linked := by
    intro one hone
    exact (inv.linked one (issued ▸ hone)).grow (fun _ hold => issued ▸ hold)

/-- A pair with fresh strings, within its code and within the pair it descends from. -/
theorem Traced.issue (inv : Traced h) {one : Issued} {id : Nat} {db : Db}
    (codes : k.codes = h.codes) (issued : k.issued = one :: h.issued)
    (server : k.server = { h.server.advance id
        (saveIssuedTokenPair db one.issue.access one.access one.issue.refresh one.refresh)
        (.granted one.issue.access one.issue.refresh) with
      issues := one.issue :: h.server.issues })
    (codeRows : db.authCodes = h.server.db.authCodes) (removes : Removes h.server.db db)
    (fresh : Fresh h.server.issued one.issue.access one.issue.refresh)
    (string : one.refresh.token = one.issue.refresh)
    (alike : one.refresh.clientId = one.access.clientId ∧ one.refresh.scopes = one.access.scopes)
    (rooted : Rooted h one) (linked : Linked h one) : Traced k := by
  have codesGrow : ∀ code ∈ h.codes, code ∈ k.codes := fun _ hcode => codes ▸ hcode
  have issuedGrow : ∀ old ∈ h.issued, old ∈ k.issued :=
    fun _ hold => issued ▸ List.mem_cons_of_mem one hold
  have unissued : one.issue.refresh ∉ h.issued.map (fun old => old.issue.refresh) := by
    have strings : h.issued.map (fun old => old.issue.refresh) =
        h.server.issued.map Prod.snd := by
      simp only [Server.issued, ← inv.issues, List.map_map, Function.comp_def, Issue.pair]
    exact strings ▸ fresh.2.1
  have each : ∀ (p : Issued → Prop), p one → (∀ old ∈ h.issued, p old) →
      ∀ old ∈ k.issued, p old := by
    intro p hone hrest old hold
    rw [issued, List.mem_cons] at hold
    rcases hold with rfl | hold
    · exact hone
    · exact hrest old hold
  refine ⟨?_, each _ string inv.strings, each _ alike inv.alike, ?_, ?_, ?_, ?_, ?_, ?_, ?_, ?_,
    ?_⟩
  · rw [issued, server, List.map_cons, inv.issues]
  · rw [issued, List.map_cons]
    exact List.nodup_cons.mpr ⟨unissued, inv.distinct⟩
  · rw [codes, inv.saved, server]
    rfl
  · rw [server]
    exact inv.savedOnce
  · intro key row hrow
    rw [server] at hrow
    have before : h.server.db.authCodes.get key = some row := codeRows ▸ hrow
    exact codesGrow _ (inv.codeRows key row before)
  · intro key row hrow
    rw [server] at hrow
    rcases Table.get_put_eq_some hrow with ⟨rfl, rfl⟩ | ⟨_, hold⟩
    · exact ⟨one, issued ▸ List.mem_cons_self, rfl, rfl⟩
    · obtain ⟨old, hmem, heq⟩ := inv.accessRows key row (removes.accessTokens key row hold)
      exact ⟨old, issuedGrow old hmem, heq⟩
  · intro key row hrow
    rw [server] at hrow
    rcases Table.get_put_eq_some hrow with ⟨_, rfl⟩ | ⟨_, hold⟩
    · exact ⟨one, issued ▸ List.mem_cons_self, rfl⟩
    · obtain ⟨old, hmem, heq⟩ := inv.refreshRows key row (removes.refreshTokens key row hold)
      exact ⟨old, issuedGrow old hmem, heq⟩
  · intro id' request hget
    rw [server] at hget
    rcases Table.get_put_eq_some hget with ⟨_, rfl⟩ | ⟨_, hold⟩
    · trivial
    · exact (inv.held id' request hold).grow codesGrow issuedGrow
  · exact each _ (rooted.grow codesGrow) (fun old hold => (inv.rooted old hold).grow codesGrow)
  · exact each _ (linked.grow issuedGrow) (fun old hold => (inv.linked old hold).grow issuedGrow)

theorem Traced.saveCode (inv : Traced h) {code : AuthorizationCode}
    (fresh : code.code ∉ h.server.saved) (codes : k.codes = code :: h.codes)
    (issued : k.issued = h.issued)
    (server : k.server = { h.server with
      db := saveAuthCode h.server.db code.code code
      saved := code.code :: h.server.saved }) : Traced k := by
  have grow : ∀ old ∈ h.codes, old ∈ k.codes :=
    fun _ hold => codes ▸ List.mem_cons_of_mem code hold
  refine ⟨?_, issued ▸ inv.strings, issued ▸ inv.alike, issued ▸ inv.distinct, ?_, ?_, ?_, ?_,
    ?_, ?_, ?_, ?_⟩
  · rw [issued, inv.issues, server]
  · rw [codes, server, List.map_cons, inv.saved]
  · rw [server]
    exact List.nodup_cons.mpr ⟨fresh, inv.savedOnce⟩
  · intro key row hrow
    rw [server] at hrow
    rcases Table.get_put_eq_some hrow with ⟨_, rfl⟩ | ⟨_, hold⟩
    · exact codes ▸ List.mem_cons_self
    · exact grow _ (inv.codeRows key row hold)
  · intro key row hrow
    rw [server] at hrow
    exact issued ▸ inv.accessRows key row hrow
  · intro key row hrow
    rw [server] at hrow
    exact issued ▸ inv.refreshRows key row hrow
  · intro id request hget
    rw [server] at hget
    exact (inv.held id request hget).grow grow (fun _ hone => issued ▸ hone)
  · intro one hone
    exact (inv.rooted one (issued ▸ hone)).grow grow
  · intro one hone
    exact (inv.linked one (issued ▸ hone)).grow (fun _ hold => issued ▸ hold)

theorem Traced.codes_unique (inv : Traced h) {one two : AuthorizationCode} (hone : one ∈ h.codes)
    (htwo : two ∈ h.codes) (same : one.code = two.code) : one = two := by
  have distinct : (h.codes.map AuthorizationCode.code).Nodup := inv.saved ▸ inv.savedOnce
  exact List.inj_on_of_nodup_map distinct hone htwo same

theorem Traced.issued_unique (inv : Traced h) {one two : Issued} (hone : one ∈ h.issued)
    (htwo : two ∈ h.issued) (same : one.issue.refresh = two.issue.refresh) : one = two :=
  List.inj_on_of_nodup_map inv.distinct hone htwo same

/-- The ledger finds the grant of a presented refresh token. -/
theorem Traced.grantOf_eq (inv : Traced h) {one : Issued} (hone : one ∈ h.issued) :
    h.server.grantOf one.issue.refresh = one.issue.grant := by
  have hmem : one.issue ∈ h.server.issues := inv.issues ▸ List.mem_map_of_mem hone
  cases hfind : h.server.issues.find? (fun other => other.refresh = one.issue.refresh) with
  | none =>
    have hnone := List.find?_eq_none.mp hfind one.issue hmem
    simp at hnone
  | some other =>
    have hkey : other.refresh = one.issue.refresh := by simpa using List.find?_some hfind
    have hother : other ∈ h.issued.map Issued.issue := inv.issues ▸ List.mem_of_find?_eq_some hfind
    obtain ⟨two, htwo, rfl⟩ := List.mem_map.mp hother
    have same : two = one := inv.issued_unique htwo hone hkey
    rw [Server.grantOf, hfind, same]
    rfl

theorem Traced.load (inv : Traced h) {after : Server} {id : Nat} {α : Type} {dropping : Request}
    {ready : α → Request} {found : Inspected α}
    (begun : h.server.begin id (afterLoad dropping ready found) = some after)
    (hdropping : Holds h dropping)
    (hready : ∀ value, found = .ready value → Holds h (ready value)) :
    Traced ⟨after, h.codes, h.issued⟩ := by
  obtain ⟨_, rfl⟩ := begin_eq_some.mp begun
  refine inv.frame rfl rfl rfl rfl (fun _ _ hrow => hrow) (Removes.refl _) ?_
  intro id' request hget
  rcases Table.get_put_eq_some hget with ⟨_, rfl⟩ | ⟨_, hold⟩
  · refine Or.inr ?_
    cases found with
    | absent => trivial
    | drop => exact hdropping
    | ready value => exact hready value rfl
    | raised e => trivial
  · exact Or.inl hold

/-- A request that moves on while rows are only removed. -/
theorem Traced.move (inv : Traced h) (id : Nat) {db : Db} {request : Request}
    (codeRows : ∀ key row, db.authCodes.get key = some row →
      h.server.db.authCodes.get key = some row)
    (removes : Removes h.server.db db) (holds : Holds h request) :
    Traced ⟨h.server.advance id db request, h.codes, h.issued⟩ := by
  refine inv.frame rfl rfl rfl rfl codeRows removes ?_
  intro id' request' hget
  rcases Table.get_put_eq_some hget with ⟨_, rfl⟩ | ⟨_, hold⟩
  · exact Or.inr holds
  · exact Or.inl hold

theorem Traced.issuePair (inv : Traced h) {id : Nat} {now : Micros} {accessStr refreshStr : PyStr}
    (recorded : record h (.issuePair id now accessStr refreshStr) = some k) : Traced k := by
  obtain ⟨client, code, hget, fresh, codes, issued⟩ := record_issuePair recorded
  obtain ⟨client', code', hget', _, server⟩ := step_issuePair.mp (record_server recorded)
  rw [hget] at hget'
  cases hget'
  obtain ⟨hcode, hclient⟩ := inv.held id _ hget
  refine inv.issue codes issued server rfl (Removes.refl _) fresh rfl ⟨rfl, rfl⟩ ?_ ?_
  · exact ⟨code, hcode, rfl, hclient.symm, fun _ hscope => hscope⟩
  · intro token hparent
    cases hparent

theorem Traced.rotate (inv : Traced h) {id : Nat} {scopes : List PyStr} {now : Micros}
    {accessStr refreshStr : PyStr}
    (recorded : record h (.rotate id scopes now accessStr refreshStr) = some k) : Traced k := by
  obtain ⟨client, token, hget, fresh, within, codes, issued⟩ := record_rotate recorded
  obtain ⟨client', token', hget', _, server⟩ := step_rotate.mp (record_server recorded)
  rw [hget] at hget'
  cases hget'
  obtain ⟨⟨old, hold, rfl⟩, hclient⟩ := inv.held id _ hget
  have hstring := inv.strings old hold
  have hgrant : h.server.grantOf old.refresh.token = old.issue.grant :=
    hstring ▸ inv.grantOf_eq hold
  have narrowed : ∀ scope ∈ effectiveScopes scopes old.refresh, scope ∈ old.access.scopes := by
    intro scope hscope
    exact (inv.alike old hold).2 ▸ effectiveScopes_within within scope hscope
  have removes := removes_of_shrinks (retireRefreshToken_shrinks h.server.db old.refresh.token)
  refine inv.issue codes issued server (retire_authCodes _ _) removes fresh rfl ⟨rfl, rfl⟩ ?_ ?_
  · obtain ⟨code, hcode, hkey, howner, hscopes⟩ := inv.rooted old hold
    refine ⟨code, hcode, hkey.trans hgrant.symm, ?_, ?_⟩
    · exact hclient.symm.trans ((inv.alike old hold).1.trans howner)
    · exact fun scope hscope => hscopes scope (narrowed scope hscope)
  · intro parent hparent
    cases hparent
    exact ⟨old, hold, hstring.symm, hgrant.symm, narrowed⟩

end Invariant

theorem record_traced (h : History) (a : Action) (k : History) (inv : Traced h)
    (recorded : record h a = some k) : Traced k := by
  cases a with
  | issuePair id now accessStr refreshStr => exact inv.issuePair recorded
  | rotate id scopes now accessStr refreshStr => exact inv.rotate recorded
  | saveCode code =>
    obtain ⟨_, after, stepped, rfl⟩ := record_eq_some.mp recorded
    obtain ⟨fresh, server⟩ := step_saveCode.mp stepped
    exact inv.saveCode fresh rfl rfl server
  | loadCode id client code now =>
    obtain ⟨_, after, stepped, rfl⟩ := record_eq_some.mp recorded
    refine inv.load stepped trivial ?_
    intro authCode ready
    obtain ⟨row, hrow, rfl⟩ := getAuthCode_eq_some.mp (inspectAuthorizationCode_ready ready)
    exact ⟨inv.codeRows code row hrow, inspectAuthorizationCode_client ready⟩
  | takeCode id =>
    obtain ⟨_, after, stepped, rfl⟩ := record_eq_some.mp recorded
    obtain ⟨client, code, hget, rfl⟩ := step_takeCode.mp stepped
    have loaded : code ∈ h.codes ∧ code.clientId = client.idOrEmpty := inv.held id _ hget
    exact inv.move id (fun _ _ hrow => (Table.get_erase_eq_some hrow).2)
      (removes_of_shrinks (deleteAuthCode_shrinks _ _)) loaded
  | loadRefresh id client token now =>
    obtain ⟨_, after, stepped, rfl⟩ := record_eq_some.mp recorded
    refine inv.load stepped trivial ?_
    intro refreshToken ready
    obtain ⟨row, hrow, rfl⟩ := getRefreshToken_eq_some.mp (inspectRefreshToken_ready ready)
    exact ⟨inv.refreshRows token row hrow, inspectRefreshToken_client ready⟩
  | loadAccess id token now =>
    obtain ⟨_, after, stepped, rfl⟩ := record_eq_some.mp recorded
    exact inv.load stepped trivial (fun _ _ => trivial)
  | drop id =>
    obtain ⟨_, after, stepped, rfl⟩ := record_eq_some.mp recorded
    rcases step_drop.mp stepped with ⟨code, _, rfl⟩ | ⟨token, _, rfl⟩ | ⟨token, _, rfl⟩
    · exact inv.move id (fun _ _ hrow => (Table.get_erase_eq_some hrow).2)
        (removes_of_shrinks (deleteAuthCode_shrinks _ _)) trivial
    · exact inv.move id (fun _ _ hrow => hrow) (removes_deleteToken _ .refresh token) trivial
    · exact inv.move id (fun _ _ hrow => hrow) (removes_deleteToken _ .access token) trivial
  | revokeAccess id token now =>
    obtain ⟨_, after, stepped, rfl⟩ := record_eq_some.mp recorded
    exact inv.load stepped trivial (fun _ _ => trivial)
  | revokeRefresh id client token now =>
    obtain ⟨_, after, stepped, rfl⟩ := record_eq_some.mp recorded
    exact inv.load stepped trivial (fun _ _ => trivial)
  | revokeStep id =>
    obtain ⟨_, after, stepped, rfl⟩ := record_eq_some.mp recorded
    obtain ⟨role, token, stage, db, next, _, hsection, rfl⟩ := step_revokeStep.mp stepped
    refine inv.move id ?_ (removes_revokeSection hsection) trivial
    intro key row hrow
    rwa [revokeSection_authCodes hsection] at hrow
  | cleanup now =>
    obtain ⟨_, after, stepped, rfl⟩ := record_eq_some.mp recorded
    cases stepped
    exact inv.frame rfl rfl rfl rfl (fun _ _ hrow => (cleanup_authCodes.mp hrow).1)
      (removes_of_shrinks (cleanupExpired_shrinks _ _)) (fun _ _ hget => Or.inl hget)

/-- Along a lineage the scopes only narrow. -/
theorem Traced.narrowed {h : History} (inv : Traced h) {one old : Issued}
    (descends : Descends h one old) (hone : one ∈ h.issued) :
    old ∈ h.issued ∧ ∀ scope ∈ one.access.scopes, scope ∈ old.access.scopes := by
  induction descends with
  | parent hold hparent =>
    obtain ⟨source, hsource, hkey, _, within⟩ := inv.linked _ hone _ hparent
    have same := inv.issued_unique hsource hold hkey
    exact ⟨hold, same ▸ within⟩
  | trans _ _ first second =>
    obtain ⟨hmid, withinMid⟩ := first hone
    obtain ⟨hold, withinOld⟩ := second hmid
    exact ⟨hold, fun scope hscope => withinOld scope (withinMid scope hscope)⟩

/-- In every run, client and scopes stay within the code and the earlier pairs. -/
theorem grant_scopes_never_widen {acts : List Action} {h : History}
    (ran : Replay.run record empty acts = some h) :
    ∀ one ∈ h.issued, Rooted h one ∧ ∀ old, Descends h one old →
      ∀ scope ∈ one.access.scopes, scope ∈ old.access.scopes ∧ scope ∈ old.refresh.scopes := by
  have inv := Replay.run_invariant' record_traced empty_traced ran
  intro one hone
  refine ⟨inv.rooted one hone, ?_⟩
  intro old descends scope hscope
  obtain ⟨hold, within⟩ := inv.narrowed descends hone
  have haccess := within scope hscope
  exact ⟨haccess, (inv.alike old hold).2 ▸ haccess⟩

/-- A refresh exchange belongs to a code without a resource. -/
def nothingToLose (h : History) : Action → Bool
  | .rotate id _ _ _ _ =>
    match h.server.requests.get id with
    | some (.refreshLoaded _ token) =>
      h.codes.all (fun code => code.code ≠ h.server.grantOf token.token || code.resource.isNone)
    | _ => true
  | _ => true

def ResourceKept (h : History) : Prop :=
  ∀ one ∈ h.issued, ∀ code ∈ h.codes, code.code = one.issue.grant →
    one.access.resource = code.resource

theorem nothingToLose_rotate {h : History} {id : Nat} {scopes : List PyStr} {now : Micros}
    {accessStr refreshStr : PyStr} {client : Client} {token : RefreshToken}
    (hget : h.server.requests.get id = some (.refreshLoaded client token)) :
    nothingToLose h (.rotate id scopes now accessStr refreshStr) = true ↔
      ∀ code ∈ h.codes, code.code = h.server.grantOf token.token → code.resource = none := by
  simp only [nothingToLose, hget, List.all_eq_true, Bool.or_eq_true, decide_eq_true_eq,
    Option.isNone_iff_eq_none, ne_eq, ← Decidable.imp_iff_not_or]

/-- A newly saved code is the code of no pair yet. -/
theorem Traced.unissued {h : History} (inv : Traced h) {code : AuthorizationCode}
    (fresh : code.code ∉ h.server.saved) {one : Issued} (hone : one ∈ h.issued) :
    code.code ≠ one.issue.grant := by
  intro same
  obtain ⟨root, hroot, hkey, _⟩ := inv.rooted one hone
  have hsaved : root.code ∈ h.server.saved := inv.saved ▸ List.mem_map_of_mem hroot
  exact fresh (same ▸ hkey ▸ hsaved)

/-- Saving a code, exchanging a code and exchanging a refresh token are the
steps that could break the agreement; only the last one does. -/
theorem record_resourceKept (h : History) (a : Action) (k : History)
    (inv : Traced h ∧ ResourceKept h) (guard : nothingToLose h a = true)
    (recorded : record h a = some k) : Traced k ∧ ResourceKept k := by
  obtain ⟨traced, kept⟩ := inv
  refine ⟨record_traced h a k traced recorded, ?_⟩
  cases a with
  | saveCode code =>
    obtain ⟨_, after, stepped, rfl⟩ := record_eq_some.mp recorded
    obtain ⟨fresh, _⟩ := step_saveCode.mp stepped
    intro one hone other hother same
    rcases List.mem_cons.mp hother with rfl | hother
    · exact False.elim (traced.unissued fresh hone same)
    · exact kept one hone other hother same
  | issuePair id now accessStr refreshStr =>
    obtain ⟨client, code, hget, _, codes, issued⟩ := record_issuePair recorded
    obtain ⟨hcode, _⟩ := traced.held id _ hget
    intro one hone other hother same
    rw [codes] at hother
    rw [issued, List.mem_cons] at hone
    rcases hone with rfl | hone
    · exact traced.codes_unique hcode hother same.symm ▸ rfl
    · exact kept one hone other hother same
  | rotate id scopes now accessStr refreshStr =>
    obtain ⟨client, token, hget, _, _, codes, issued⟩ := record_rotate recorded
    intro one hone other hother same
    rw [codes] at hother
    rw [issued, List.mem_cons] at hone
    rcases hone with rfl | hone
    · exact ((nothingToLose_rotate hget).mp guard other hother same).symm
    · exact kept one hone other hother same
  | _ =>
    obtain ⟨_, after, _, rfl⟩ := record_eq_some.mp recorded
    exact kept

theorem lost_of_refresh (h : History) (a : Action) (k : History) (_ : Traced h)
    (guard : ¬ nothingToLose h a = true) (recorded : record h a = some k) : ¬ ResourceKept k := by
  cases a with
  | rotate id scopes now accessStr refreshStr =>
    obtain ⟨client, token, hget, _, _, codes, issued⟩ := record_rotate recorded
    intro kept
    apply guard
    rw [nothingToLose_rotate hget]
    intro code hcode same
    exact (kept _ (issued ▸ List.mem_cons_self) code (codes ▸ hcode) same).symm
  | _ => exact absurd rfl guard

theorem lost_stays (h : History) (a : Action) (k : History) (lost : ¬ ResourceKept h)
    (recorded : record h a = some k) : ¬ ResourceKept k := by
  obtain ⟨codes, issued⟩ := record_grows recorded
  intro kept
  apply lost
  intro one hone code hcode same
  exact kept one (issued one hone) code (codes code hcode) same

theorem preserved_iff_resourceKept {h : History} (inv : Traced h) :
    Preserved h ↔ ResourceKept h := by
  constructor
  · intro preserved one hone code hcode same
    obtain ⟨⟨root, hroot, hkey, _, _, hresource⟩, _⟩ := preserved one hone
    exact inv.codes_unique hroot hcode (hkey.trans same.symm) ▸ hresource
  · intro kept one hone
    obtain ⟨root, hroot, hkey, hclient, hscopes⟩ := inv.rooted one hone
    refine ⟨⟨root, hroot, hkey, hclient, hscopes, kept one hone root hroot hkey⟩, ?_⟩
    intro old hold descends scope hscope
    have haccess := (inv.narrowed descends hone).2 scope hscope
    exact ⟨haccess, (inv.alike old hold).2 ▸ haccess⟩

/-- The attributes of a grant are preserved along its lineage in exactly the
runs that refresh no token of a code with a resource. -/
theorem grant_attributes_preserved {acts : List Action} {h : History}
    (ran : Replay.run record empty acts = some h) :
    Preserved h ↔ Replay.Obeys record (fun h a => nothingToLose h a = true) empty acts := by
  have inv := Replay.run_invariant' record_traced empty_traced ran
  rw [preserved_iff_resourceKept inv]
  constructor
  · intro kept
    exact Replay.obeys_of_unmarked record_traced lost_of_refresh lost_stays empty_traced ran
      (fun lost => lost kept)
  · intro obeys
    have start : Traced empty ∧ ResourceKept empty :=
      ⟨empty_traced, fun _ hone => by cases hone⟩
    exact (Replay.run_invariant record_resourceKept start obeys ran).2

theorem grant_attributes_preserved_once : ∃ h, Replay.run record empty rotateOnce = some h ∧
    h.issued.length = 2 ∧ Preserved h := by
  refine ⟨_, rfl, rfl, ?_⟩
  exact (@grant_attributes_preserved rotateOnce _ rfl).mpr (by decide)

/-- The client asks for a token for one audience, redeems the code and refreshes. -/
def refreshForAudience : List Action :=
  [.saveCode { demoCode with resource := some (py "https://journal.example/mcp") },
   .loadCode 0 demoClient (py "code") 0, .takeCode 0, .issuePair 0 0 (py "a1") (py "r1"),
   .loadRefresh 1 demoClient (py "r1") 0, .rotate 1 [] 0 (py "a2") (py "r2")]

theorem refresh_loses_resource :
    ¬ ∀ (acts : List Action) (h : History), Replay.run record empty acts = some h →
      Preserved h := by
  intro all
  have preserved := all refreshForAudience _ rfl
  obtain ⟨⟨code, hcode, _, _, _, hresource⟩, _⟩ := preserved _ List.mem_cons_self
  cases List.mem_singleton.mp hcode
  cases hresource

end OAuthGrants
