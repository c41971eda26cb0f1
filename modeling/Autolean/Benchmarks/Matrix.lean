import Autolean.Benchmarks.Report

/-! The frozen matrix of cases and cells, and the run manifest built from it: case
selection, trial seeds and work items depend on the matrix alone. -/
namespace Autolean.Benchmarks
open Contracts Machine

inductive Capability where
  | textGeneration
  | usageAccounting
  | reasoningEffort
  | toolCalling
  | streaming
  | localExecution
  | customEndpoint
  deriving DecidableEq

def Capability.value : Capability → String
  | textGeneration => "text_generation"
  | usageAccounting => "usage_accounting"
  | reasoningEffort => "reasoning_effort"
  | toolCalling => "tool_calling"
  | streaming => "streaming"
  | localExecution => "local_execution"
  | customEndpoint => "custom_endpoint"

structure RoleArtifactRef where
  artifactId : Identifier
  revision : Revision
  contentHash : Digest
  deriving DecidableEq

/-- A prompt recipe; the system prompt and the instruction are bounded texts. -/
structure RolePromptSpec where
  promptId : Identifier
  revision : Revision
  systemPrompt : String
  instruction : String
  systemPrompt_bounded : systemPrompt ≠ "" ∧ systemPrompt.toList.length ≤ 32768
  instruction_bounded : instruction ≠ "" ∧ instruction.toList.length ≤ 65536
  deriving DecidableEq

structure RoleBudget where
  repetitions : Nat
  maxInputTokens : Nat
  maxOutputTokens : Nat
  timeoutMs : Nat
  maxCostMicrousd : Nat
  repetitions_bounded : 1 ≤ repetitions ∧ repetitions ≤ 100
  tokens_bounded : (1 ≤ maxInputTokens ∧ maxInputTokens ≤ 10000000) ∧ 1 ≤ maxOutputTokens ∧ maxOutputTokens ≤ 10000000
  timeout_bounded : 1 ≤ timeoutMs ∧ timeoutMs ≤ 86400000
  deriving DecidableEq

/-- A case with its evaluator-owned oracle. -/
structure RoleBenchmarkCase where
  caseId : Identifier
  role : BenchmarkRole
  caseRevision : Revision
  inputPayload : Json
  expectedOutput : Json
  scorer : EvaluatorKind
  tags : List String
  payloads_encodable : inputPayload.encodable = true ∧ expectedOutput.encodable = true
  tags_unique : tags.Nodup
  tags_shaped : ∀ tag ∈ tags, tag ≠ "" ∧ tag.toList.length ≤ 64 ∧
    tag.toList.head?.all (fun c => !isSpace c) = true ∧ tag.toList.getLast?.all (fun c => !isSpace c) = true
  deriving DecidableEq

structure RoleBenchmarkCell where
  cellId : Identifier
  role : BenchmarkRole
  model : RoleModelTarget
  prompt : RolePromptSpec
  tools : List RoleArtifactRef
  retrievalScope : List RoleArtifactRef
  requiredCapabilities : List Capability
  budget : RoleBudget
  codeRevisionHash : Digest
  environmentHash : Digest
  caseIds : List String
  sampleSize : Nat
  cases_selected : caseIds ≠ [] ∧ caseIds.Nodup
  sample_bounded : 1 ≤ sampleSize ∧ sampleSize ≤ caseIds.length
  artifacts_unique : (tools.map (·.artifactId)).Nodup ∧ (retrievalScope.map (·.artifactId)).Nodup
  capabilities_sorted : requiredCapabilities.Pairwise fun a b => a.value < b.value
  capabilities_minimal : .textGeneration ∈ requiredCapabilities ∧ .usageAccounting ∈ requiredCapabilities
  tools_callable : tools ≠ [] → .toolCalling ∈ requiredCapabilities
  deriving DecidableEq

structure RoleBenchmarkMatrix where
  matrixId : Identifier
  matrixRevision : Revision
  samplingSeed : String
  cases : List RoleBenchmarkCase
  cells : List RoleBenchmarkCell
  seed_bounded : samplingSeed ≠ "" ∧ samplingSeed.toList.length ≤ 256
  cases_unique : cases ≠ [] ∧ (cases.map (·.caseId)).Nodup
  cells_unique : cells ≠ [] ∧ (cells.map (·.cellId)).Nodup
  links : ∀ cell ∈ cells, ∀ caseId ∈ cell.caseIds, ∃ case ∈ cases, case.caseId.value = caseId ∧ case.role = cell.role
  deriving DecidableEq

/-- The executor's typed identity: every field is a literal. -/
def executorDescriptorJson : Json :=
  .dict [("schema_version", .str "autolean.role-executor-descriptor.v1"),
    ("execution_class", .str RoleExecutionClass.scriptedFake.value),
    ("executor_id", .str "autolean.scripted-fake.v1"), ("raw_output_commitment_scheme", .str scriptedFakeCommitmentScheme),
    ("authority_receipt_hash", .null)]

structure RoleBenchmarkPreflightBinding where
  matrixHash : Digest
  providerReadinessHash : Digest
  executorDescriptorHash : Digest
  executionClass : RoleExecutionClass
  deriving DecidableEq

/-- The executor-facing view of a trial. It holds no oracle. -/
structure RoleBenchmarkWorkItem where
  caseId : Identifier
  role : BenchmarkRole
  systemPrompt : String
  prompt : String
  tools : List RoleArtifactRef
  retrievalScope : List RoleArtifactRef
  maxInputTokens : Nat
  maxOutputTokens : Nat
  timeoutMs : Nat
  trialSeed : Digest
  workItemHash : Digest

/-- Raw executor output; its figures are non-negative and its output is a JSON value. -/
structure RoleExecutionOutcome where
  output : Json
  elapsedMs : Nat
  inputTokens : Nat
  outputTokens : Nat
  costMicrousd : Nat
  output_encodable : output.encodable = true

/-! `model_dump(mode="json")` -/

def RoleArtifactRef.json (r : RoleArtifactRef) : Json :=
  .dict [("schema_version", .str "autolean.role-artifact-ref.v1"), ("artifact_id", .str r.artifactId.value),
    ("revision", .str r.revision.value), ("content_hash", .str r.contentHash.value)]

def RolePromptSpec.json (p : RolePromptSpec) : Json :=
  .dict [("schema_version", .str "autolean.role-prompt.v1"), ("prompt_id", .str p.promptId.value),
    ("revision", .str p.revision.value), ("system_prompt", .str p.systemPrompt), ("instruction", .str p.instruction),
    ("renderer_version", .str "canonical-json-v1")]

def RoleBudget.json (b : RoleBudget) : Json :=
  .dict [("schema_version", .str "autolean.role-budget.v1"), ("repetitions", .int b.repetitions),
    ("max_input_tokens", .int b.maxInputTokens), ("max_output_tokens", .int b.maxOutputTokens),
    ("timeout_ms", .int b.timeoutMs), ("max_cost_microusd", .int b.maxCostMicrousd)]

def RoleBenchmarkCase.json (c : RoleBenchmarkCase) : Json :=
  .dict [("schema_version", .str "autolean.role-benchmark-case.v1"), ("case_id", .str c.caseId.value),
    ("role", .str c.role.value), ("case_revision", .str c.caseRevision.value), ("input_payload", c.inputPayload),
    ("expected_output", c.expectedOutput), ("scorer", .str c.scorer.value), ("tags", .list (c.tags.map .str))]

def RoleBenchmarkCell.json (c : RoleBenchmarkCell) : Json :=
  .dict [("schema_version", .str "autolean.role-benchmark-cell.v3"), ("cell_id", .str c.cellId.value),
    ("role", .str c.role.value), ("model", c.model.json), ("prompt", c.prompt.json),
    ("tools", .list (c.tools.map RoleArtifactRef.json)),
    ("retrieval_scope", .list (c.retrievalScope.map RoleArtifactRef.json)),
    ("required_capabilities", .list (c.requiredCapabilities.map fun capability => .str capability.value)),
    ("budget", c.budget.json), ("code_revision_hash", .str c.codeRevisionHash.value),
    ("environment_hash", .str c.environmentHash.value), ("case_ids", .list (c.caseIds.map .str)),
    ("sample_size", .int c.sampleSize)]

def RoleBenchmarkMatrix.json (m : RoleBenchmarkMatrix) : Json :=
  .dict [("schema_version", .str "autolean.role-benchmark-matrix.v3"), ("matrix_id", .str m.matrixId.value),
    ("matrix_revision", .str m.matrixRevision.value), ("sampling_seed", .str m.samplingSeed),
    ("cases", .list (m.cases.map RoleBenchmarkCase.json)), ("cells", .list (m.cells.map RoleBenchmarkCell.json))]

/-! The run manifest of a matrix -/

/-- The constructor of a trial binding with its field check. -/
def trialBindingOf (repetition : Int) (trialSeed workItemHash : Digest) : Outcome RoleBenchmarkTrialBinding :=
  if h : 1 ≤ repetition ∧ repetition ≤ 100 then .ok ⟨repetition, trialSeed, workItemHash, h⟩
  else .error (.validationError "RoleBenchmarkTrialBindingV1")

/-- The constructor of a case binding with its validator. -/
def caseBindingOf (case : RoleBenchmarkCase) (caseContractHash workItemHash evaluatorHash : Digest)
    (trials : List RoleBenchmarkTrialBinding) : Outcome RoleBenchmarkCaseBinding :=
  if h : trials ≠ [] ∧ trials.map (·.repetition) = (List.range trials.length).map fun index => (index : Int) + 1 then
    .ok ⟨case.caseId, case.caseRevision, caseContractHash, workItemHash, case.scorer, evaluatorHash, trials, h.1, h.2⟩
  else .error (.validationError "case trial bindings must be consecutive and start at one")

namespace Runtime
variable (rt : Runtime)

/-- `stable_case_selection`: the order of the digests of the case identifiers picks the sample. -/
def stableCaseSelection (matrix : RoleBenchmarkMatrix) (cell : RoleBenchmarkCell) : List String :=
  let key := fun caseId => (rt.sha256Text ("autolean.role-benchmark-sampling.v1" ++ "\x00" ++ matrix.samplingSeed ++
    "\x00" ++ cell.role.value ++ "\x00" ++ caseId)).value
  ((cell.caseIds.insertionSort fun a b => key a ≤ key b).take cell.sampleSize).insertionSort fun a b => a ≤ b

/-- `_refs_hash`. -/
def refsHash (values : List RoleArtifactRef) (domain : String) : Digest :=
  rt.contentHash (.dict [("schema_version", .str domain), ("artifacts", .list (values.map RoleArtifactRef.json))])

/-- `_render_prompt`. -/
def renderPrompt (case : RoleBenchmarkCase) (cell : RoleBenchmarkCell) : String × String :=
  (cell.prompt.systemPrompt, rstrip cell.prompt.instruction ++ "\n\nINPUT_JSON\n" ++
    rt.canonicalText (.dict [("schema_version", .str "autolean.role-work-input.v1"), ("role", .str case.role.value),
      ("case_id", .str case.caseId.value), ("case_revision", .str case.caseRevision.value), ("input", case.inputPayload)]))

/-- `derive_trial_seed`; its bounds are met by every coordinate of the manifest. -/
def deriveTrialSeed (matrix : RoleBenchmarkMatrix) (cell : RoleBenchmarkCell) (caseId : String) (repetition : Nat) :
    Outcome Digest := do
  ensure (caseId ∈ cell.caseIds) (.roleBenchmarkError "trial seed case is not eligible for the cell")
  ensure (1 ≤ repetition ∧ repetition ≤ cell.budget.repetitions)
    (.roleBenchmarkError "trial seed repetition is outside the frozen budget")
  pure (rt.sha256Text ("autolean.role-benchmark-trial-seed.v1" ++ "\x00" ++ matrix.samplingSeed ++ "\x00" ++
    cell.role.value ++ "\x00" ++ caseId ++ "\x00" ++ toString repetition))

/-- `_trial_work_item_hash`. -/
def trialWorkItemHash (baseWorkItemHash : Digest) (repetition : Nat) (trialSeed : Digest) : Digest :=
  rt.contentHash (.dict [("schema_version", .str "autolean.role-trial-work-item.v3"),
    ("base_work_item_hash", .str baseWorkItemHash.value), ("repetition", .int repetition),
    ("trial_seed", .str trialSeed.value)])

/-- The digest of what every repetition of a case shares. -/
def workItemHash (case : RoleBenchmarkCase) (cell : RoleBenchmarkCell) : Digest :=
  rt.contentHash (.dict [("schema_version", .str "autolean.role-work-item.v3"), ("case_id", .str case.caseId.value),
    ("role", .str case.role.value), ("cell_contract_hash", .str (rt.contentHash cell.json).value),
    ("system_prompt", .str (rt.renderPrompt case cell).1), ("prompt", .str (rt.renderPrompt case cell).2),
    ("tools_hash", .str (rt.refsHash cell.tools "autolean.role-tools.v1").value),
    ("retrieval_scope_hash", .str (rt.refsHash cell.retrievalScope "autolean.role-retrieval.v1").value),
    ("required_capabilities", .list ((cell.requiredCapabilities.map (·.value)).map .str)), ("budget", cell.budget.json),
    ("code_revision_hash", .str cell.codeRevisionHash.value), ("environment_hash", .str cell.environmentHash.value)])

def evaluatorHash (case : RoleBenchmarkCase) : Digest :=
  rt.contentHash (.dict [("schema_version", .str "autolean.role-evaluator.v1"), ("scorer", .str case.scorer.value),
    ("expected_output", case.expectedOutput)])

def capabilitiesHash (cell : RoleBenchmarkCell) : Digest :=
  rt.contentHash (.dict [("schema_version", .str "autolean.role-capabilities.v1"),
    ("required", .list ((cell.requiredCapabilities.map (·.value)).map .str))])

def buildTrial (matrix : RoleBenchmarkMatrix) (case : RoleBenchmarkCase) (cell : RoleBenchmarkCell) (repetition : Nat) :
    Outcome RoleBenchmarkTrialBinding := do
  let trialSeed ← rt.deriveTrialSeed matrix cell case.caseId.value repetition
  trialBindingOf repetition trialSeed (rt.trialWorkItemHash (rt.workItemHash case cell) repetition trialSeed)

/-- The loop over `range(1, repetitions + 1)`. -/
def buildCase (matrix : RoleBenchmarkMatrix) (cell : RoleBenchmarkCell) (caseId : String) : Outcome RoleBenchmarkCaseBinding :=
  match matrix.cases.find? fun case => case.caseId.value = caseId with
  | none => .error (.roleBenchmarkError caseId)
  | some case => do
    let trials ← (List.range cell.budget.repetitions).mapM fun index => rt.buildTrial matrix case cell (index + 1)
    caseBindingOf case (rt.contentHash case.json) (rt.workItemHash case cell) (rt.evaluatorHash case) trials

/-- A run cell under construction, with its own binding hash. -/
def runCellOf (cell : RoleBenchmarkCell) (bindings : List RoleBenchmarkCaseBinding) : Outcome RoleBenchmarkRunCell :=
  if h : bindings ≠ [] ∧ SortedUnique (bindings.map (·.caseId)) ∧
      ∀ case ∈ bindings, (case.trials.length : Int) = cell.budget.repetitions then
    let draft : RoleBenchmarkRunCell :=
      { runCellBindingHash := rt.contentHash cell.json
        cellId := cell.cellId
        role := cell.role
        cellContractHash := rt.contentHash cell.json
        model := cell.model
        promptHash := rt.contentHash cell.prompt.json
        toolsHash := rt.refsHash cell.tools "autolean.role-tools.v1"
        retrievalScopeHash := rt.refsHash cell.retrievalScope "autolean.role-retrieval.v1"
        capabilitiesHash := rt.capabilitiesHash cell
        budgetHash := rt.contentHash cell.budget.json
        codeRevisionHash := cell.codeRevisionHash
        environmentHash := cell.environmentHash
        repetitions := cell.budget.repetitions
        selectedCases := bindings
        repetitions_bounded := by have := cell.budget.repetitions_bounded; omega
        selected_nonempty := h.1
        selected_sorted := h.2.1
        schedules := h.2.2 }
    .ok { draft with runCellBindingHash := rt.contentHash draft.bindingPayload }
  else .error (.validationError "run-cell selected cases must be non-empty, unique, and sorted")

def buildCell (matrix : RoleBenchmarkMatrix) (cell : RoleBenchmarkCell) : Outcome RoleBenchmarkRunCell := do
  let bindings ← (rt.stableCaseSelection matrix cell).mapM (rt.buildCase matrix cell)
  rt.runCellOf cell bindings

/-- The constructor of the run with its validator. -/
def runOf (matrix : RoleBenchmarkMatrix) (runId : Identifier) (preflight : RoleBenchmarkPreflightBinding)
    (cells : List RoleBenchmarkRunCell) : Outcome RoleBenchmarkRun :=
  if h : cells ≠ [] ∧ SortedUnique (cells.map (·.cellId)) ∧ ∀ cell ∈ cells, cell.model.providerId.value = "fake" then
    .ok { runId := runId
          matrixId := matrix.matrixId
          matrixRevision := matrix.matrixRevision
          matrixHash := rt.contentHash matrix.json
          samplingSeedHash := rt.sha256Text matrix.samplingSeed
          providerReadinessHash := preflight.providerReadinessHash
          executionClass := .scriptedFake
          executorDescriptorHash := rt.contentHash executorDescriptorJson
          cells := cells
          cells_nonempty := h.1
          cells_sorted := h.2.1
          fake_targets := h.2.2 }
  else .error (.validationError "run cells must be non-empty, unique, and sorted")

/-- `build_run_manifest`. -/
def buildRunManifest (matrix : RoleBenchmarkMatrix) (runId : Identifier) (preflight : RoleBenchmarkPreflightBinding) :
    Outcome RoleBenchmarkRun := do
  ensure (preflight.matrixHash = rt.contentHash matrix.json ∧
      preflight.executorDescriptorHash = rt.contentHash executorDescriptorJson ∧ preflight.executionClass = .scriptedFake)
    (.roleBenchmarkError "benchmark preflight does not bind the matrix and executor")
  ensure (∀ cell ∈ matrix.cells, cell.model.providerId.value = "fake")
    (.roleBenchmarkError "V3 role benchmark execution admits only scripted fake targets")
  let cells ← (matrix.cells.insertionSort fun a b => a.cellId.value ≤ b.cellId.value).mapM (rt.buildCell matrix)
  rt.runOf matrix runId preflight cells

end Runtime
end Autolean.Benchmarks
