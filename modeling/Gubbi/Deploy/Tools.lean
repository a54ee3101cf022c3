import Gubbi.Deploy.Access

/-!
# Tools that a token sees and tools that it may call

The registry keeps the tools in two sets, from which `tools/list` is filtered; what a call needs
stands at each handler. The scopes are those of the context variable, which nothing but the
middleware sets.
-/

namespace ToolScopes

open Text AuthStrategies DeployShapes
open SelfHostAuth (checkScope checkScope_iff SCOPE_GRANTS Grants journalRead journalWrite)

def READ_TOOLS : List PyStr :=
  [py "journal_search", py "journal_list_topics", py "journal_list_conversations",
    py "journal_read_topic", py "journal_read_conversation", py "journal_briefing",
    py "journal_timeline"]

def WRITE_TOOLS : List PyStr :=
  [py "journal_append_entry", py "journal_update_entry", py "journal_create_topic",
    py "journal_save_conversation", py "journal_delete_entry"]

def ALL_TOOLS : List PyStr := READ_TOOLS ++ WRITE_TOOLS

/-- The permissions that a token's scopes expand to. -/
def granted (tokenScopes : List PyStr) : List PyStr :=
  tokenScopes.flatMap fun ts =>
    match SCOPE_GRANTS.find? (fun entry => entry.1 = ts) with
    | none => []
    | some entry => entry.2

def filterToolsByScope (toolNames tokenScopes : List PyStr) : List PyStr :=
  if (granted tokenScopes).isEmpty then []
  else if journalRead ∈ granted tokenScopes ∧ journalWrite ∈ granted tokenScopes then
    toolNames.filter (fun t => t ∈ ALL_TOOLS)
  else
    (if journalRead ∈ granted tokenScopes then toolNames.filter (fun t => t ∈ READ_TOOLS)
      else []) ++
      (if journalWrite ∈ granted tokenScopes then toolNames.filter (fun t => t ∈ WRITE_TOOLS)
      else [])

/-- A registered tool, with the scope of its `@require_scope`. -/
structure Tool where
  name : PyStr
  scope : PyStr
  deriving DecidableEq

/-- In the order of `register_tools`. -/
def registeredTools : List Tool :=
  [⟨py "journal_list_topics", journalRead⟩, ⟨py "journal_create_topic", journalWrite⟩,
    ⟨py "journal_append_entry", journalWrite⟩, ⟨py "journal_read_topic", journalRead⟩,
    ⟨py "journal_update_entry", journalWrite⟩, ⟨py "journal_delete_entry", journalWrite⟩,
    ⟨py "journal_search", journalRead⟩, ⟨py "journal_save_conversation", journalWrite⟩,
    ⟨py "journal_list_conversations", journalRead⟩, ⟨py "journal_read_conversation", journalRead⟩,
    ⟨py "journal_briefing", journalRead⟩, ⟨py "journal_timeline", journalRead⟩]

/-- `_scope_filtered_list_tools`, from the value of `current_token_scopes`. -/
def scopeFilteredListTools (allTools : List Tool) (currentTokenScopes : Option (List PyStr)) :
    List Tool :=
  let visible := filterToolsByScope (allTools.map Tool.name) (currentTokenScopes.getD [])
  allTools.filter (fun t => t.name ∈ visible)

structure CallToolResult where
  isError : Bool
  text : PyStr
  wwwAuthenticate : PyStr
  deriving DecidableEq

def insufficientScopeResponse (requiredScope : PyStr) : CallToolResult :=
  let description := py "Token scope does not include " ++ requiredScope
  ⟨true, py "insufficient_scope: " ++ description,
    py "Bearer error=\"insufficient_scope\", error_description=\"" ++ description ++ py "\""⟩

/-- `require_scope` around a handler: the answer of the wrapper, or the handler runs. -/
def requireScope {A : Type} (currentTokenScopes : Option (List PyStr)) (scope : PyStr)
    (fn : A) : Except CallToolResult A :=
  if checkScope (currentTokenScopes.getD []) scope then .ok fn
  else .error (insufficientScopeResponse scope)

section Permissions
variable {tokenScopes : List PyStr} {perm : PyStr}

theorem grants_of_find {ts : PyStr} :
    perm ∈ (match SCOPE_GRANTS.find? (fun entry => entry.1 = ts) with
    | none => []
    | some entry => entry.2) ↔ Grants ts perm := by
  have keys : (SCOPE_GRANTS.map Prod.fst).Nodup := by decide
  cases found : SCOPE_GRANTS.find? (fun entry => entry.1 = ts) with
  | none =>
    refine iff_of_false List.not_mem_nil ?_
    rintro ⟨entry, mem, same, -⟩
    exact List.find?_eq_none.mp found entry mem (decide_eq_true same)
  | some entry =>
    have key : entry.1 = ts := by simpa using List.find?_some found
    have mem := List.mem_of_find?_eq_some found
    constructor
    · exact fun held => ⟨entry, mem, key, held⟩
    · rintro ⟨other, mem', same, held⟩
      rwa [List.inj_on_of_nodup_map keys mem mem' (key.trans same.symm)]

theorem mem_granted : perm ∈ granted tokenScopes ↔ ∃ scope ∈ tokenScopes, Grants scope perm := by
  simp only [granted, List.mem_flatMap, grants_of_find]

theorem checkScope_granted (self : Grants perm perm) :
    checkScope tokenScopes perm = true ↔ perm ∈ granted tokenScopes := by
  rw [checkScope_iff, mem_granted, or_iff_right_iff_imp]
  exact fun direct => ⟨perm, direct, self⟩

theorem grants_iff (perms : perm = journalRead ∨ perm = journalWrite) {scope : PyStr} :
    Grants scope perm ↔ scope = py "journal" ∨ scope = perm := by
  unfold Grants
  rcases perms with rfl | rfl
  · constructor
    · rintro ⟨entry, mem, rfl, held⟩
      revert entry
      decide
    · rintro (rfl | rfl) <;> decide
  · constructor
    · rintro ⟨entry, mem, rfl, held⟩
      revert entry
      decide
    · rintro (rfl | rfl) <;> decide

theorem permitted_iff (perms : perm = journalRead ∨ perm = journalWrite) :
    perm ∈ granted tokenScopes ↔ py "journal" ∈ tokenScopes ∨ perm ∈ tokenScopes := by
  rw [mem_granted]
  constructor
  · rintro ⟨scope, mem, grants⟩
    rcases (grants_iff perms).mp grants with rfl | rfl
    · exact Or.inl mem
    · exact Or.inr mem
  · rintro (mem | mem)
    · exact ⟨_, mem, (grants_iff perms).mpr (Or.inl rfl)⟩
    · exact ⟨_, mem, (grants_iff perms).mpr (Or.inr rfl)⟩

theorem mem_filterToolsByScope {toolNames : List PyStr} {name : PyStr} :
    name ∈ filterToolsByScope toolNames tokenScopes ↔ name ∈ toolNames ∧
      (name ∈ READ_TOOLS ∧ journalRead ∈ granted tokenScopes ∨
        name ∈ WRITE_TOOLS ∧ journalWrite ∈ granted tokenScopes) := by
  unfold filterToolsByScope
  by_cases nothing : granted tokenScopes = []
  · simp [nothing]
  · rw [if_neg (by simpa using nothing)]
    by_cases reads : journalRead ∈ granted tokenScopes
    · by_cases writes : journalWrite ∈ granted tokenScopes
      · simp [reads, writes, ALL_TOOLS]
      · simp [reads, writes]
    · by_cases writes : journalWrite ∈ granted tokenScopes
      · simp [reads, writes]
      · simp [reads, writes]

end Permissions

/-- The registry and the decorators say the same of each tool. -/
theorem registered {tool : Tool} (mem : tool ∈ registeredTools) :
    tool.scope = journalRead ∧ tool.name ∈ READ_TOOLS ∧ tool.name ∉ WRITE_TOOLS ∨
      tool.scope = journalWrite ∧ tool.name ∈ WRITE_TOOLS ∧ tool.name ∉ READ_TOOLS := by
  revert tool
  decide

theorem visible_iff {tool : Tool} (mem : tool ∈ registeredTools) {tokenScopes : List PyStr} :
    tool.name ∈ filterToolsByScope (registeredTools.map Tool.name) tokenScopes ↔
      checkScope tokenScopes tool.scope = true := by
  have listed : tool.name ∈ registeredTools.map Tool.name := List.mem_map_of_mem mem
  rw [mem_filterToolsByScope, and_iff_right listed]
  rcases registered mem with ⟨scope, reads, notWrites⟩ | ⟨scope, writes, notReads⟩
  · rw [scope, checkScope_granted ((grants_iff (Or.inl rfl)).mpr (Or.inr rfl))]
    simp [reads, notWrites]
  · rw [scope, checkScope_granted ((grants_iff (Or.inr rfl)).mpr (Or.inr rfl))]
    simp [writes, notReads]

theorem requireScope_isOk {A : Type} {current : Option (List PyStr)} {scope : PyStr} {fn : A} :
    (requireScope current scope fn).isOk = checkScope (current.getD []) scope := by
  unfold requireScope
  cases checkScope (current.getD []) scope <;> rfl

theorem listTools_eq (current : Option (List PyStr)) :
    scopeFilteredListTools registeredTools current =
      registeredTools.filter (fun tool => checkScope (current.getD []) tool.scope) := by
  refine List.filter_congr fun tool mem => ?_
  rw [Bool.eq_iff_iff, decide_eq_true_iff]
  exact visible_iff mem

/-- `tools/list` shows the tools that may be called, in the order of their registration, and the
middleware lets in the tokens that may call them all. -/
theorem listTools_callable (currentTokenScopes : Option (List PyStr)) {A : Type}
    (handler : Tool → A) :
    scopeFilteredListTools registeredTools currentTokenScopes =
        registeredTools.filter (fun tool =>
          (requireScope currentTokenScopes tool.scope (handler tool)).isOk) ∧
      (scopeFilteredListTools registeredTools currentTokenScopes = registeredTools ↔
        hasScope (currentTokenScopes.getD []) REQUIRED_OAUTH_SCOPE = true) := by
  simp only [requireScope_isOk]
  refine ⟨listTools_eq currentTokenScopes, ?_⟩
  rw [listTools_eq, List.filter_eq_self, hasScope_required]
  have each (perm : PyStr) (perms : perm = journalRead ∨ perm = journalWrite) :
      checkScope (currentTokenScopes.getD []) perm = true ↔
        py "journal" ∈ currentTokenScopes.getD [] ∨ perm ∈ currentTokenScopes.getD [] := by
    rw [checkScope_granted ((grants_iff perms).mpr (Or.inr rfl)), permitted_iff perms]
  constructor
  · intro all
    have reads := (each _ (Or.inl rfl)).mp (all ⟨py "journal_search", journalRead⟩ (by decide))
    have writes := (each _ (Or.inr rfl)).mp
      (all ⟨py "journal_append_entry", journalWrite⟩ (by decide))
    rcases reads with whole | reads
    · exact Or.inl whole
    · exact writes.imp_right fun writes => ⟨reads, writes⟩
  · intro scopes tool mem
    rcases registered mem with ⟨scope, -⟩ | ⟨scope, -⟩
    · rw [scope]
      exact (each _ (Or.inl rfl)).mpr (scopes.imp_right And.left)
    · rw [scope]
      exact (each _ (Or.inr rfl)).mpr (scopes.imp_right And.right)

end ToolScopes
