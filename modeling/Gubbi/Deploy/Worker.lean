import Gubbi.Deploy.Lifespan
import Gubbi.Validation

/-!
# Startup and shutdown of the extraction worker

A startup that fails closes what it has opened before the exception goes on. The shutdown does
not suppress what a close raises, and the closes behind it are then not made.
-/

namespace WorkerLifecycle

open Text Transactions Connections Effects Resources
open DeployShapes (Exc)
open Validation (Lowering)

inductive Resource
  | pool
  | redisPool
  | redisClient
  deriving DecidableEq, Repr

structure Calls where
  getSettings : Except Exc Unit
  initializeLogger : Except Exc Unit
  /-- `_configure_worker_telemetry`; it logs most exceptions, but not those of its imports. -/
  configureWorkerTelemetry : Except Exc Unit
  healthThread : Except Exc Unit
  initPool : Except Exc Unit
  redisPool : Except Exc Unit
  redisClient : Except Exc Unit
  probes : Except Exc Unit
  contentCipher : Except Exc Unit
  anthropicProvider : Except Exc Unit
  fakeProvider : Except Exc Unit
  /-- `repr` of a text. -/
  repr : PyStr → PyStr
  registerScript : Except Exc Unit
  closeRedisClient : Except Exc Unit
  closeRedisPool : Except Exc Unit
  closePool : Except Exc Unit

structure LLMConfig where
  provider : PyStr
  llmBudgetEnabled : Bool

abbrev Startup (A : Type) := Session (Desk Resource) Exc A

section Hooks
variable (low : Lowering) (calls : Calls) (llm : LLMConfig)

/-- `_PROVIDER_FACTORIES`. -/
def providerFactories : List (PyStr × Except Exc Unit) :=
  [(py "anthropic", calls.anthropicProvider), (py "fake", calls.fakeProvider)]

def llmProvider : Except Exc Unit :=
  match (providerFactories calls).find? (fun entry => entry.1 = low.lower llm.provider) with
  | none => .error (.valueError (py "Unknown JOURNAL_LLM_PROVIDER=" ++
      calls.repr (low.lower llm.provider) ++ py "; expected one of ['anthropic', 'fake']"))
  | some entry => entry.2

/-- The body of the `try`. -/
def opens : Startup Unit := do
  await calls.healthThread
  acquire .pool calls.initPool
  acquire .redisPool calls.redisPool
  acquire .redisClient calls.redisClient
  await calls.probes
  await calls.contentCipher
  await (llmProvider low calls llm)
  onlyIf llm.llmBudgetEnabled (await calls.registerScript)

/-- `except BaseException`. -/
def closeAndRaise (exc : Exc) : Startup Unit := do
  release .redisClient
  release .redisPool
  release .pool
  fail exc

/-- What runs before the `try`. -/
def prepares : Startup Unit := do
  await calls.getSettings
  await calls.initializeLogger
  await calls.configureWorkerTelemetry

def startup : Startup Unit := do
  prepares calls
  rescue (opens low calls llm) closeAndRaise

def shutdown : Startup Unit := do
  closeHeld .redisClient calls.closeRedisClient
  closeHeld .redisPool calls.closeRedisPool
  closeHeld .pool calls.closePool

end Hooks

section Leaves
variable {low : Lowering} {calls : Calls} {llm : LLMConfig}

/-- The calls of the startup go through. -/
structure Returns (low : Lowering) (calls : Calls) (llm : LLMConfig) : Prop where
  getSettings : calls.getSettings = .ok ()
  initializeLogger : calls.initializeLogger = .ok ()
  configureWorkerTelemetry : calls.configureWorkerTelemetry = .ok ()
  healthThread : calls.healthThread = .ok ()
  initPool : calls.initPool = .ok ()
  redisPool : calls.redisPool = .ok ()
  redisClient : calls.redisClient = .ok ()
  probes : calls.probes = .ok ()
  contentCipher : calls.contentCipher = .ok ()
  provider : llmProvider low calls llm = .ok ()
  registerScript : llm.llmBudgetEnabled = true → calls.registerScript = .ok ()

/-- All calls of the startup, with no handler around them. -/
def allCalls (low : Lowering) (calls : Calls) (llm : LLMConfig) : Startup Unit := do
  prepares calls
  opens low calls llm

theorem prepares_snd (desk : Desk Resource) : (prepares calls desk).2 = desk := by
  unfold prepares
  cases settings : calls.getSettings with
  | error e => exact congrArg Prod.snd await_error_bind
  | ok _ =>
    rw [await_ok_bind]
    cases logger : calls.initializeLogger with
    | error e => exact congrArg Prod.snd await_error_bind
    | ok _ =>
      rw [await_ok_bind]
      rfl

theorem allCalls_ok {desk : Desk Resource} :
    (allCalls low calls llm desk).1 = .ok () ↔ Returns low calls llm := by
  simp only [allCalls, prepares, opens, then_fst_ok, onlyIf_fst, acquire_fst, await_fst]
  constructor
  · rintro ⟨⟨settings, logger, telemetry⟩, thread, pool, redisPool, client, probes, cipher,
      provider, script⟩
    exact ⟨settings, logger, telemetry, thread, pool, redisPool, client, probes, cipher, provider,
      script⟩
  · rintro ⟨settings, logger, telemetry, thread, pool, redisPool, client, probes, cipher,
      provider, script⟩
    exact ⟨⟨settings, logger, telemetry⟩, thread, pool, redisPool, client, probes, cipher,
      provider, script⟩

theorem opens_held (returns : Returns low calls llm) :
    opens low calls llm .empty = (.ok (), ⟨[.redisClient, .redisPool, .pool], []⟩) := by
  have script : onlyIf llm.llmBudgetEnabled (await calls.registerScript) =
      (pure () : Startup Unit) := by
    by_cases budget : llm.llmBudgetEnabled = true
    · rw [onlyIf_true budget, returns.registerScript budget]
      rfl
    · exact onlyIf_false budget
  rw [opens, returns.healthThread, returns.initPool, returns.redisPool, returns.redisClient,
    returns.probes, returns.contentCipher, returns.provider, script]
  rfl

theorem opens_within : Within SameLoose (opens low calls llm) := by
  unfold opens
  refine Within.bind (Within.await _) fun _ => Within.bind (SameLoose.acquire _ _) fun _ => ?_
  refine Within.bind (SameLoose.acquire _ _) fun _ => ?_
  refine Within.bind (SameLoose.acquire _ _) fun _ => Within.bind (Within.await _) fun _ => ?_
  refine Within.bind (Within.await _) fun _ => Within.bind (Within.await _) fun _ => ?_
  exact Within.onlyIf (Within.await _)

/-- All variables are looked at. -/
theorem releases_all (held : List Resource) :
    ((held.filter (· ≠ .redisClient)).filter (· ≠ .redisPool)).filter (· ≠ .pool) = [] := by
  rw [List.filter_filter, List.filter_filter, List.filter_eq_nil_iff]
  intro r _
  cases r <;> decide

theorem closeAndRaise_apply (exc : Exc) (desk : Desk Resource) :
    closeAndRaise exc desk = (.error exc, ⟨[], desk.loose⟩) := by
  rw [← releases_all desk.held]
  rfl

theorem shutdown_closes :
    (shutdown calls ⟨[.redisClient, .redisPool, .pool], []⟩).2.opened = [] ↔
      calls.closeRedisClient = .ok () ∧ calls.closeRedisPool = .ok () := by
  unfold shutdown
  cases client : calls.closeRedisClient with
  | error e =>
    rw [bind_error (closeHeld_error (by simp) rfl)]
    exact iff_of_false nofun nofun
  | ok _ =>
    rw [bind_of_ok (closeHeld_ok rfl)]
    cases redisPool : calls.closeRedisPool with
    | error e =>
      rw [bind_error (closeHeld_error (by decide) rfl)]
      exact iff_of_false nofun nofun
    | ok _ =>
      rw [bind_of_ok (closeHeld_ok rfl)]
      rw [closeHeld_snd]
      exact iff_of_true rfl ⟨rfl, rfl⟩

/-- The handler raises again what it has caught. -/
theorem startup_fst : (startup low calls llm .empty).1 = (allCalls low calls llm .empty).1 := by
  unfold startup allCalls
  cases ran : prepares calls .empty with
  | mk prepared desk =>
    cases prepared with
    | error e => rw [bind_error ran, bind_error ran]
    | ok _ =>
      rw [bind_of_ok ran, bind_of_ok ran]
      cases opened : opens low calls llm desk with
      | mk result after =>
        cases result with
        | error e => rw [rescue_error opened, closeAndRaise_apply]
        | ok _ => rw [rescue_of_ok opened]

/-- Nothing is open before the `try`, and the handler closes what is open in it. -/
theorem startup_raised {exc : Exc} (raised : (startup low calls llm .empty).1 = .error exc) :
    (startup low calls llm .empty).2.opened = [] := by
  have empty := @prepares_snd calls .empty
  unfold startup at raised ⊢
  cases ran : prepares calls .empty with
  | mk prepared desk =>
    rw [ran] at empty
    subst empty
    cases prepared with
    | error e =>
      rw [bind_error ran]
      rfl
    | ok _ =>
      rw [bind_of_ok ran] at raised ⊢
      have kept : SameLoose Desk.empty (opens low calls llm .empty).2 := opens_within Desk.empty
      cases opened : opens low calls llm .empty with
      | mk result after =>
        rw [opened] at kept
        cases result with
        | error e =>
          rw [rescue_error opened, closeAndRaise_apply]
          exact kept
        | ok _ =>
          rw [rescue_of_ok opened] at raised
          cases raised

theorem startup_held (returns : Returns low calls llm) :
    (startup low calls llm .empty).2 = ⟨[.redisClient, .redisPool, .pool], []⟩ := by
  unfold startup prepares
  rw [returns.getSettings, returns.initializeLogger, returns.configureWorkerTelemetry]
  exact congrArg Prod.snd (rescue_of_ok (opens_held returns))

/-- A startup goes through when all of its calls do, and otherwise leaves nothing open and raises
what has been raised; behind a startup, the shutdown closes everything unless one of its first two
closes raises. -/
theorem worker_closes (low : Lowering) (calls : Calls) (llm : LLMConfig) :
    ((startup low calls llm .empty).1 = .ok () ↔ Returns low calls llm) ∧
      (∀ exc, (startup low calls llm .empty).1 = .error exc →
        (allCalls low calls llm .empty).1 = .error exc ∧
          (startup low calls llm .empty).2.opened = []) ∧
      (Returns low calls llm →
        ((shutdown calls (startup low calls llm .empty).2).2.opened = [] ↔
          calls.closeRedisClient = .ok () ∧ calls.closeRedisPool = .ok ())) := by
  refine ⟨?_, fun exc raised => ⟨?_, startup_raised raised⟩, fun returns => ?_⟩
  · rw [startup_fst]
    exact allCalls_ok
  · rw [← startup_fst]
    exact raised
  · rw [startup_held returns]
    exact shutdown_closes

end Leaves

end WorkerLifecycle
