import Autolean.Benchmarks.AtMostOnce
import Autolean.Machine.Credits

/-! The benchmark harness: the readiness it requires of the providers, the private raw
outputs, and the whole run of one invocation against the store. -/
namespace Autolean.Benchmarks
open Contracts Machine Machine.Raising

/-! Provider readiness -/

inductive ProviderReadinessStatus where
  | ready
  | blocked
  deriving DecidableEq

def ProviderReadinessStatus.value : ProviderReadinessStatus → String
  | ready => "ready"
  | blocked => "blocked"

inductive Backend where
  | scriptedFake
  | authorizedExternal
  deriving DecidableEq

def Backend.value : Backend → String
  | scriptedFake => "scripted_fake"
  | authorizedExternal => "authorized_external"

/-- One exact model target. The capabilities it declares and those observed, its probe status
and its blockers are kept whole under `remaining`. -/
structure RoleProviderTargetReadiness where
  target : RoleModelTarget
  targetHash : Digest
  cellIds : List Identifier
  requiredCapabilities : List Capability
  status : ProviderReadinessStatus
  remaining : JsonObject

structure RoleBenchmarkBackendReadiness where
  backend : Backend
  status : ProviderReadinessStatus
  blockers : List String

/-- Preflight evidence that passed the validators of its model. -/
structure RoleBenchmarkReadinessReport where
  matrixId : Identifier
  matrixRevision : Revision
  matrixHash : Digest
  targets : List RoleProviderTargetReadiness
  backends : List RoleBenchmarkBackendReadiness

def RoleProviderTargetReadiness.json (r : RoleProviderTargetReadiness) : Json :=
  .dict ([("schema_version", .str "autolean.role-provider-target-readiness.v3"), ("target", r.target.json),
    ("target_hash", .str r.targetHash.value), ("cell_ids", .list (r.cellIds.map fun cellId => .str cellId.value)),
    ("required_capabilities", .list (r.requiredCapabilities.map fun capability => .str capability.value)),
    ("status", .str r.status.value)] ++ r.remaining)

def RoleBenchmarkBackendReadiness.json (r : RoleBenchmarkBackendReadiness) : Json :=
  .dict [("schema_version", .str "autolean.role-backend-readiness.v3"), ("backend", .str r.backend.value),
    ("status", .str r.status.value), ("blockers", .list (r.blockers.map .str))]

def RoleBenchmarkReadinessReport.json (r : RoleBenchmarkReadinessReport) : Json :=
  .dict [("schema_version", .str "autolean.role-benchmark-readiness.v3"), ("matrix_id", .str r.matrixId.value),
    ("matrix_revision", .str r.matrixRevision.value), ("matrix_hash", .str r.matrixHash.value),
    ("authority_granted", .bool false), ("targets", .list (r.targets.map RoleProviderTargetReadiness.json)),
    ("backends", .list (r.backends.map RoleBenchmarkBackendReadiness.json))]

/-- `_required_capabilities`. -/
def requiredCapabilities (matrix : RoleBenchmarkMatrix) (target : RoleModelTarget) : List Capability :=
  ((matrix.cells.filter fun cell => cell.model = target).flatMap (·.requiredCapabilities)).dedup.insertionSort
    fun a b => a.value ≤ b.value

/-- The readiness of one target covers the cells of the matrix that use it. -/
def TargetBound (matrix : RoleBenchmarkMatrix) (expected : RoleModelTarget) (readiness : RoleProviderTargetReadiness) : Prop :=
  readiness.target = expected ∧
    readiness.cellIds = ((matrix.cells.filter fun cell => cell.model = expected).map (·.cellId)).insertionSort
      (fun a b => a.value ≤ b.value) ∧
    readiness.requiredCapabilities = requiredCapabilities matrix expected

instance (matrix : RoleBenchmarkMatrix) (expected : RoleModelTarget) (readiness : RoleProviderTargetReadiness) :
    Decidable (TargetBound matrix expected readiness) := inferInstanceAs (Decidable (_ ∧ _))

namespace Runtime
variable (rt : Runtime)

/-- The target of the matrix under a hash; the last cell that has it decides. -/
def targetBinding (matrix : RoleBenchmarkMatrix) (readiness : RoleProviderTargetReadiness) : Outcome Unit :=
  match (matrix.cells.map (·.model)).reverse.find? fun target => rt.contentHash target.json = readiness.targetHash with
  | none => .error (.roleBenchmarkError "provider readiness target binding is incomplete")
  | some expected =>
    ensure (TargetBound matrix expected readiness) (.roleBenchmarkError "provider readiness target binding is incomplete")

/-- `require_scripted_fake_ready`, of the one executor descriptor there is. -/
def requireScriptedFakeReady (matrix : RoleBenchmarkMatrix) (report : RoleBenchmarkReadinessReport) :
    Outcome RoleBenchmarkPreflightBinding := do
  ensure (report.matrixId = matrix.matrixId ∧ report.matrixRevision = matrix.matrixRevision ∧
      report.matrixHash = rt.contentHash matrix.json)
    (.roleBenchmarkError "provider readiness report does not bind the benchmark matrix")
  ensure (report.targets.map (·.targetHash.value) =
      ((matrix.cells.map fun cell => (rt.contentHash cell.model.json).value).dedup.insertionSort fun a b => a ≤ b))
    (.roleBenchmarkError "provider readiness report does not cover every matrix target")
  report.targets.forM (rt.targetBinding matrix)
  ensure ((report.backends.filter fun item => item.backend = .scriptedFake).map (·.status) = [.ready] ∧
      ∀ item ∈ report.targets, item.status = .ready)
    (.roleBenchmarkError "scripted fake benchmark backend is not ready")
  ensure ((report.backends.filter fun item => item.backend = .authorizedExternal).map (·.status) = [.blocked])
    (.roleBenchmarkError "external benchmark execution is not fail-closed")
  pure ⟨rt.contentHash matrix.json, rt.contentHash report.json, rt.contentHash executorDescriptorJson, .scriptedFake⟩

/-! Private raw outputs -/

/-- `RoleBenchmarkRawOutputStore.put_output`. -/
def putOutput (output : Json) : Method Digest := do
  Prog.ofExcept (ensure (output.encodable = true) (.validationError "raw benchmark output"))
  let digest ← issue (.putBytes (rt.canonicalText output))
  Prog.ofExcept (ensure (digest = rt.contentHash output)
    (.roleBenchmarkStoreError "raw output artifact hash does not match output hash"))
  pure digest

def loadOutput (payload : String) : Outcome Json :=
  match rt.loads payload with
  | none => .error (.roleBenchmarkStoreError "raw output artifact is not valid JSON")
  | some output => .ok output

/-- `RoleBenchmarkRawOutputStore.verify_output`. -/
def verifyOutput (outputHash : Digest) : Method Unit := do
  let payload ← issue (.getBytes outputHash)
  let output ← Prog.ofExcept (rt.loadOutput payload)
  Prog.ofExcept (ensure (output.encodable = true) (.validationError "stored raw benchmark output"))
  Prog.ofExcept (ensure (rt.canonicalText output = payload ∧ rt.contentHash output = outputHash)
    (.roleBenchmarkStoreError "raw output artifact is not canonical"))

/-- The entry of one result; its payload is not empty. -/
def rawOutputEntry (result : RoleBenchmarkTrialResult) (payload : String) : Outcome RoleBenchmarkRawOutputEntry :=
  if h : 1 ≤ payload.toList.length then
    .ok ⟨result.cellId, result.caseId, result.repetition, result.outputHash, rt.contentHash result.executionReceipt.json,
      result.resultCommitmentHash, payload.toList.length, result.repetition_bounded, h⟩
  else .error (.validationError "RoleBenchmarkRawOutputEntryV1")

/-- The loop over the ordered results. -/
def rawOutputEntries : List RoleBenchmarkTrialResult → Method (List RoleBenchmarkRawOutputEntry)
  | [] => pure []
  | result :: rest => do
    rt.verifyOutput result.outputHash
    let payload ← issue (.getBytes result.outputHash)
    let entry ← Prog.ofExcept (rt.rawOutputEntry result payload)
    let entries ← rawOutputEntries rest
    pure (entry :: entries)

/-- The constructor of the private manifest with its validator. -/
def rawManifestOf (run : RoleBenchmarkRun) (ordered : List RoleBenchmarkTrialResult)
    (entries : List RoleBenchmarkRawOutputEntry) :
    Outcome RoleBenchmarkRawArtifactManifest :=
  if h : entries ≠ [] ∧ (entries.map (·.key)).Nodup ∧ (entries.map (·.key)).Pairwise TrialKey.le ∧
      (entries.map (·.resultCommitmentHash)).Nodup then
    .ok ⟨run.runId, rt.contentHash run.json, run.executionClass, rt.publicResultCommitmentHash run ordered, entries,
      h.1, h.2.1, h.2.2.1, h.2.2.2⟩
  else .error (.validationError "raw output coordinates must be non-empty and unique")

/-- `RoleBenchmarkRawOutputStore.build_manifest`. -/
def buildManifest (run : RoleBenchmarkRun) (results : List RoleBenchmarkTrialResult) :
    Method RoleBenchmarkRawArtifactManifest := do
  let _ ← Prog.ofExcept (rt.validatedReportMetrics run (canonicalOrder results))
  let entries ← rt.rawOutputEntries (canonicalOrder results)
  Prog.ofExcept (rt.rawManifestOf run (canonicalOrder results) entries)

/-! `RoleBenchmarkHarness.run` -/

/-- The manifest an invocation works on. -/
def manifestOf (matrix : RoleBenchmarkMatrix) (readiness : RoleBenchmarkReadinessReport) (runId : Identifier) :
    Outcome RoleBenchmarkRun := do
  let preflight ← rt.requireScriptedFakeReady matrix readiness
  rt.buildRunManifest matrix runId preflight

/-- `claim_trial` until the trial is not busy. An invocation waits as long as it likes; it may
be stopped after any number of tries. -/
def claimUntilFree (run : RoleBenchmarkRun) (cellId caseId : String) (repetition : Int) (ownerId : String) (ttlMs : Int) :
    Nat → Method Claimed
  | 0 => Prog.ofExcept (.error .interrupted)
  | patience + 1 =>
    tryCatch (claimTrial run cellId caseId repetition ownerId ttlMs) fun
      | .roleBenchmarkTrialBusy _ => claimUntilFree run cellId caseId repetition ownerId ttlMs patience
      | e => Prog.ofExcept (.error e)

/-- The outcome keeps within the frozen budget. -/
def WithinBudget (budget : RoleBudget) (outcome : RoleExecutionOutcome) : Prop :=
  outcome.inputTokens ≤ budget.maxInputTokens ∧ outcome.outputTokens ≤ budget.maxOutputTokens ∧
    outcome.elapsedMs ≤ budget.timeoutMs ∧ outcome.costMicrousd ≤ budget.maxCostMicrousd

instance (budget : RoleBudget) (outcome : RoleExecutionOutcome) : Decidable (WithinBudget budget outcome) :=
  inferInstanceAs (Decidable (_ ∧ _))

def workItemOf (case : RoleBenchmarkCase) (cell : RoleBenchmarkCell) (trial : RoleBenchmarkTrialBinding) :
    RoleBenchmarkWorkItem where
  caseId := case.caseId
  role := case.role
  systemPrompt := (rt.renderPrompt case cell).1
  prompt := (rt.renderPrompt case cell).2
  tools := cell.tools
  retrievalScope := cell.retrievalScope
  maxInputTokens := cell.budget.maxInputTokens
  maxOutputTokens := cell.budget.maxOutputTokens
  timeoutMs := cell.budget.timeoutMs
  trialSeed := trial.trialSeed
  workItemHash := trial.workItemHash

/-- The terminal result of an outcome, under its own commitment. -/
def resultOf (run : RoleBenchmarkRun) (cell : RoleBenchmarkCell) (case : RoleBenchmarkCase) (binding : RoleBenchmarkCaseBinding)
    (trial : RoleBenchmarkTrialBinding) (outcome : RoleExecutionOutcome) (outputHash : Digest) : RoleBenchmarkTrialResult :=
  let passed := decide (rt.canonicalText outcome.output = rt.canonicalText case.expectedOutput)
  let draft : RoleBenchmarkTrialResult :=
    { runId := run.runId
      cellId := cell.cellId
      caseId := case.caseId
      role := case.role
      repetition := trial.repetition
      trialSeed := trial.trialSeed
      workItemHash := trial.workItemHash
      evaluatorHash := binding.evaluatorHash
      outputHash := outputHash
      passed := passed
      scoreMicros := if passed then oneMillion else 0
      elapsedMs := outcome.elapsedMs
      inputTokens := outcome.inputTokens
      outputTokens := outcome.outputTokens
      costMicrousd := outcome.costMicrousd
      executionReceipt := ⟨run.executionClass, run.executorDescriptorHash, rt.contentHash cell.model.json,
        run.providerReadinessHash, trial.workItemHash, outputHash⟩
      resultCommitmentHash := outputHash
      repetition_bounded := trial.repetition_bounded
      score_exact := rfl
      receipt_binds := ⟨rfl, rfl⟩ }
  { draft with resultCommitmentHash := rt.contentHash draft.commitmentPayload }

/-- Execute a reserved trial and record its result. -/
def executeTrial (run : RoleBenchmarkRun) (cell : RoleBenchmarkCell) (case : RoleBenchmarkCase)
    (binding : RoleBenchmarkCaseBinding) (trial : RoleBenchmarkTrialBinding) (reservation : RoleBenchmarkTrialReservation) :
    Method Unit := do
  let started ← markTrialExecutionStarted reservation
  let outcome ← issue (.execute reservation.coordinates (rt.workItemOf case cell trial))
  Prog.ofExcept (ensure (WithinBudget cell.budget outcome)
    (.roleBenchmarkError "executor outcome exceeds the frozen benchmark budget"))
  let outputHash ← rt.putOutput outcome.output
  rt.recordClaimedTrial started (rt.resultOf run cell case binding trial outcome outputHash)

/-- A terminal result is reused once its output is verified; a reserved trial is executed. -/
def settleTrial (run : RoleBenchmarkRun) (cell : RoleBenchmarkCell) (case : RoleBenchmarkCase)
    (binding : RoleBenchmarkCaseBinding) (trial : RoleBenchmarkTrialBinding) : Claimed → Method Unit
  | .terminal result => rt.verifyOutput result.outputHash
  | .reserved reservation => rt.executeTrial run cell case binding trial reservation

/-- One repetition of one case. -/
def runTrial (run : RoleBenchmarkRun) (ownerId : String) (patience : Nat) (cell : RoleBenchmarkCell) (case : RoleBenchmarkCase)
    (binding : RoleBenchmarkCaseBinding) (trial : RoleBenchmarkTrialBinding) : Method Unit := do
  let claim ← claimUntilFree run cell.cellId.value case.caseId.value trial.repetition ownerId
    (max (cell.budget.timeoutMs + 30000) 60000) patience
  rt.settleTrial run cell case binding trial claim

/-- The trials of one selected case. -/
def runCase (matrix : RoleBenchmarkMatrix) (run : RoleBenchmarkRun) (ownerId : String) (patience : Nat) (cell : RoleBenchmarkCell)
    (binding : RoleBenchmarkCaseBinding) : Method Unit :=
  match matrix.cases.find? fun case => case.caseId = binding.caseId with
  | none => Prog.ofExcept (.error (.roleBenchmarkError binding.caseId.value))
  | some case => binding.trials.forM (rt.runTrial run ownerId patience cell case binding)

/-- The cases of one run cell. -/
def runCell (matrix : RoleBenchmarkMatrix) (run : RoleBenchmarkRun) (ownerId : String) (patience : Nat)
    (snapshot : RoleBenchmarkRunCell) : Method Unit :=
  match matrix.cells.find? fun cell => cell.cellId = snapshot.cellId with
  | none => Prog.ofExcept (.error (.roleBenchmarkError snapshot.cellId.value))
  | some cell => snapshot.selectedCases.forM (rt.runCase matrix run ownerId patience cell)

/-- What follows the trials: bind the private manifest and report. -/
def finish (manifest : RoleBenchmarkRun) : Method RoleBenchmarkReport := do
  let results ← rt.loadResults manifest.runId.value
  let _ ← Prog.ofExcept (rt.validatedReportMetrics manifest results)
  let rawManifest ← rt.buildManifest manifest results
  rt.bindRawArtifactManifest manifest.runId.value (rt.contentHash rawManifest.json).value
  let report ← rt.report manifest.runId.value
  Prog.ofExcept (rt.validateReportPrivateManifest report rawManifest)
  pure report

end Runtime

/-- The arguments of one call of `run`, the owner identifier it draws and how often it polls. -/
structure Invocation where
  matrix : RoleBenchmarkMatrix
  readiness : RoleBenchmarkReadinessReport
  runId : Identifier
  ownerId : String
  patience : Nat

def Invocation.program (rt : Runtime) (v : Invocation) : Method RoleBenchmarkReport := do
  let manifest ← Prog.ofExcept (rt.manifestOf v.matrix v.readiness v.runId)
  rt.createRun manifest
  manifest.cells.forM (rt.runCell v.matrix manifest v.ownerId v.patience)
  rt.finish manifest

end Autolean.Benchmarks
