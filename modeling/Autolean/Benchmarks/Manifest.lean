import Autolean.Contracts.Values

/-! The answer-free values of a role benchmark: the run manifest with its cells, cases and
trials, and the terminal result of a trial. Each value states its own JSON, and the JSON
determines it. -/
namespace Autolean.Benchmarks
open Contracts

inductive BenchmarkError where
  /-- pydantic's `ValidationError`. -/
  | validationError (message : String)
  | roleBenchmarkError (message : String)
  | roleBenchmarkStoreError (message : String)
  | roleBenchmarkTrialBusy (message : String)
  | roleBenchmarkTrialIndeterminate (message : String)
  | artifactNotFound
  | artifactCorruption
  /-- `sqlite3.IntegrityError`. -/
  | integrityError
  | overflowError
  /-- Whatever the executor raises. -/
  | executorError
  /-- The invocation stopped while it waited for a busy trial. -/
  | interrupted
  deriving DecidableEq

abbrev Outcome (α : Type) := Except BenchmarkError α

/-- SHA-256 over a text, canonical JSON, and the two computations in floating point. -/
structure Runtime where
  /-- `hashlib.sha256(text.encode()).hexdigest()`. -/
  sha256Text : String → Digest
  /-- `canonical_json_bytes(value).decode("ascii")`. -/
  canonicalText : Json → String
  /-- `json.loads`. -/
  loads : String → Option Json
  /-- `_wilson_interval_ppm` of a positive number of trials. -/
  wilsonIntervalPpm : Nat → Nat → Int × Int
  /-- `round(a / b)`. -/
  roundedQuotient : Int → Nat → Int

/-- `_content_hash`. -/
def Runtime.contentHash (rt : Runtime) (value : Json) : Digest := rt.sha256Text (rt.canonicalText value)

/-- A lower-case letter or digit, then at most 127 of these and of `_`, `.`, `:`, `/` and `-`. -/
def IsIdentifier (s : String) : Prop :=
  Text.Headed (fun c => ('a' ≤ c && c ≤ 'z') || c.isDigit)
    (fun c => ('a' ≤ c && c ≤ 'z') || c.isDigit || c = '_' || c = '.' || c = ':' || c = '/' || c = '-') 128 s.toList

instance (s : String) : Decidable (IsIdentifier s) := inferInstanceAs (Decidable (Text.Headed ..))

structure Identifier where
  value : String
  shaped : IsIdentifier value
  deriving DecidableEq

/-- A revision text, at most 128 characters long. -/
@[ext]
structure Revision where
  value : String
  nonempty : value ≠ ""
  bounded : value.toList.length ≤ 128

instance : DecidableEq Revision := fun _ _ => decidable_of_iff _ Revision.ext_iff.symm

inductive BenchmarkRole where
  | prover
  | statementFormalizer
  | fidelityReviewer
  | cheatingSupervisor
  | taskAllocator
  deriving DecidableEq

def BenchmarkRole.value : BenchmarkRole → String
  | prover => "prover"
  | statementFormalizer => "statement_formalizer"
  | fidelityReviewer => "fidelity_reviewer"
  | cheatingSupervisor => "cheating_supervisor"
  | taskAllocator => "task_allocator"

/-- The execution provenance of the third version has one member. -/
inductive RoleExecutionClass where
  | scriptedFake
  deriving DecidableEq

def RoleExecutionClass.value : RoleExecutionClass → String
  | scriptedFake => "scripted_fake"

/-- The only evaluator the literal type of a case admits. -/
inductive EvaluatorKind where
  | exactJson
  deriving DecidableEq

def EvaluatorKind.value : EvaluatorKind → String
  | exactJson => "exact_json_v1"

def scriptedFakeCommitmentScheme : String := "sha256-canonical-json-scripted-fake-v1"

def oneMillion : Int := 1000000

/-! The run manifest -/

structure RoleModelTarget where
  providerId : Identifier
  modelId : Identifier
  modelRevision : Revision
  providerConfigurationHash : Digest
  generationParametersHash : Digest
  deriving DecidableEq

structure RoleBenchmarkTrialBinding where
  repetition : Int
  trialSeed : Digest
  workItemHash : Digest
  repetition_bounded : 1 ≤ repetition ∧ repetition ≤ 100
  deriving DecidableEq

/-- The repetitions of a case are consecutive and start at one. -/
structure RoleBenchmarkCaseBinding where
  caseId : Identifier
  caseRevision : Revision
  caseContractHash : Digest
  workItemHash : Digest
  evaluatorKind : EvaluatorKind
  evaluatorHash : Digest
  trials : List RoleBenchmarkTrialBinding
  trials_nonempty : trials ≠ []
  trials_consecutive : trials.map (·.repetition) = (List.range trials.length).map fun index => (index : Int) + 1
  deriving DecidableEq

/-- `ids == tuple(sorted(set(ids)))`. -/
def SortedUnique (ids : List Identifier) : Prop := ids.Pairwise fun a b => a.value < b.value

instance (ids : List Identifier) : Decidable (SortedUnique ids) := inferInstanceAs (Decidable (List.Pairwise _ _))

/-- The snapshot of one selected cell. Its binding hash is checked by `Runtime.CellBound`. -/
structure RoleBenchmarkRunCell where
  runCellBindingHash : Digest
  cellId : Identifier
  role : BenchmarkRole
  cellContractHash : Digest
  model : RoleModelTarget
  promptHash : Digest
  toolsHash : Digest
  retrievalScopeHash : Digest
  capabilitiesHash : Digest
  budgetHash : Digest
  codeRevisionHash : Digest
  environmentHash : Digest
  repetitions : Int
  selectedCases : List RoleBenchmarkCaseBinding
  repetitions_bounded : 1 ≤ repetitions ∧ repetitions ≤ 100
  selected_nonempty : selectedCases ≠ []
  selected_sorted : SortedUnique (selectedCases.map (·.caseId))
  schedules : ∀ case ∈ selectedCases, (case.trials.length : Int) = repetitions
  deriving DecidableEq

/-- The run manifest. The execution class, the commitment scheme and the denied authority
are literals of its version. -/
structure RoleBenchmarkRun where
  runId : Identifier
  matrixId : Identifier
  matrixRevision : Revision
  matrixHash : Digest
  samplingSeedHash : Digest
  providerReadinessHash : Digest
  executionClass : RoleExecutionClass
  executorDescriptorHash : Digest
  cells : List RoleBenchmarkRunCell
  cells_nonempty : cells ≠ []
  cells_sorted : SortedUnique (cells.map (·.cellId))
  fake_targets : ∀ cell ∈ cells, cell.model.providerId.value = "fake"
  deriving DecidableEq

/-! Terminal results -/

structure RoleBenchmarkExecutionReceipt where
  executionClass : RoleExecutionClass
  executorDescriptorHash : Digest
  providerTargetHash : Digest
  providerReadinessHash : Digest
  workItemHash : Digest
  outputHash : Digest
  deriving DecidableEq

/-- The terminal result of one trial. Its commitment is checked by `Runtime.ResultValid`. -/
structure RoleBenchmarkTrialResult where
  runId : Identifier
  cellId : Identifier
  caseId : Identifier
  role : BenchmarkRole
  repetition : Int
  trialSeed : Digest
  workItemHash : Digest
  evaluatorHash : Digest
  outputHash : Digest
  passed : Bool
  scoreMicros : Int
  elapsedMs : Nat
  inputTokens : Nat
  outputTokens : Nat
  costMicrousd : Nat
  executionReceipt : RoleBenchmarkExecutionReceipt
  resultCommitmentHash : Digest
  repetition_bounded : 1 ≤ repetition ∧ repetition ≤ 100
  score_exact : scoreMicros = if passed then oneMillion else 0
  receipt_binds : executionReceipt.workItemHash = workItemHash ∧ executionReceipt.outputHash = outputHash
  deriving DecidableEq

/-! `model_dump(mode="json")` -/

def RoleModelTarget.json (m : RoleModelTarget) : Json :=
  .dict [("schema_version", .str "autolean.role-model-target.v1"), ("provider_id", .str m.providerId.value),
    ("model_id", .str m.modelId.value), ("model_revision", .str m.modelRevision.value),
    ("provider_configuration_hash", .str m.providerConfigurationHash.value),
    ("generation_parameters_hash", .str m.generationParametersHash.value)]

def RoleBenchmarkTrialBinding.json (t : RoleBenchmarkTrialBinding) : Json :=
  .dict [("schema_version", .str "autolean.role-trial-binding.v3"), ("repetition", .int t.repetition),
    ("trial_seed", .str t.trialSeed.value), ("work_item_hash", .str t.workItemHash.value)]

def RoleBenchmarkCaseBinding.json (c : RoleBenchmarkCaseBinding) : Json :=
  .dict [("schema_version", .str "autolean.role-case-binding.v3"), ("case_id", .str c.caseId.value),
    ("case_revision", .str c.caseRevision.value), ("case_contract_hash", .str c.caseContractHash.value),
    ("work_item_hash", .str c.workItemHash.value), ("evaluator_kind", .str c.evaluatorKind.value),
    ("evaluator_hash", .str c.evaluatorHash.value), ("trials", .list (c.trials.map RoleBenchmarkTrialBinding.json))]

/-- The fields of a run cell after its binding hash. -/
def RoleBenchmarkRunCell.fields (c : RoleBenchmarkRunCell) : JsonObject :=
  [("cell_id", .str c.cellId.value), ("role", .str c.role.value), ("cell_contract_hash", .str c.cellContractHash.value),
    ("model", c.model.json), ("prompt_hash", .str c.promptHash.value), ("tools_hash", .str c.toolsHash.value),
    ("retrieval_scope_hash", .str c.retrievalScopeHash.value), ("capabilities_hash", .str c.capabilitiesHash.value),
    ("budget_hash", .str c.budgetHash.value), ("code_revision_hash", .str c.codeRevisionHash.value),
    ("environment_hash", .str c.environmentHash.value), ("repetitions", .int c.repetitions),
    ("selected_cases", .list (c.selectedCases.map RoleBenchmarkCaseBinding.json))]

def RoleBenchmarkRunCell.json (c : RoleBenchmarkRunCell) : Json :=
  .dict (("schema_version", .str "autolean.role-run-cell.v3") :: ("run_cell_binding_hash", .str c.runCellBindingHash.value) ::
    c.fields)

/-- What `_run_cell_binding_hash` digests: every field but the hash itself. -/
def RoleBenchmarkRunCell.bindingPayload (c : RoleBenchmarkRunCell) : Json :=
  .dict [("schema_version", .str "autolean.role-run-cell-binding.v3"),
    ("run_cell", .dict (("schema_version", .str "autolean.role-run-cell.v3") :: c.fields))]

def RoleBenchmarkRun.json (r : RoleBenchmarkRun) : Json :=
  .dict [("schema_version", .str "autolean.role-benchmark-run.v3"), ("run_id", .str r.runId.value),
    ("matrix_id", .str r.matrixId.value), ("matrix_revision", .str r.matrixRevision.value),
    ("matrix_hash", .str r.matrixHash.value), ("sampling_seed_hash", .str r.samplingSeedHash.value),
    ("provider_readiness_hash", .str r.providerReadinessHash.value), ("execution_class", .str r.executionClass.value),
    ("executor_descriptor_hash", .str r.executorDescriptorHash.value),
    ("raw_output_commitment_scheme", .str scriptedFakeCommitmentScheme), ("authority_granted", .bool false),
    ("cells", .list (r.cells.map RoleBenchmarkRunCell.json))]

def RoleBenchmarkExecutionReceipt.json (r : RoleBenchmarkExecutionReceipt) : Json :=
  .dict [("schema_version", .str "autolean.role-execution-receipt.v1"), ("execution_class", .str r.executionClass.value),
    ("executor_descriptor_hash", .str r.executorDescriptorHash.value),
    ("provider_target_hash", .str r.providerTargetHash.value),
    ("provider_readiness_hash", .str r.providerReadinessHash.value), ("work_item_hash", .str r.workItemHash.value),
    ("output_hash", .str r.outputHash.value), ("authority_receipt_hash", .null)]

/-- The fields of a trial result before its commitment. -/
def RoleBenchmarkTrialResult.fields (r : RoleBenchmarkTrialResult) : JsonObject :=
  [("schema_version", .str "autolean.role-trial-result.v3"), ("run_id", .str r.runId.value),
    ("cell_id", .str r.cellId.value), ("case_id", .str r.caseId.value), ("role", .str r.role.value),
    ("repetition", .int r.repetition), ("trial_seed", .str r.trialSeed.value),
    ("work_item_hash", .str r.workItemHash.value), ("evaluator_hash", .str r.evaluatorHash.value),
    ("output_hash", .str r.outputHash.value), ("passed", .bool r.passed), ("score_micros", .int r.scoreMicros),
    ("elapsed_ms", .int r.elapsedMs), ("input_tokens", .int r.inputTokens), ("output_tokens", .int r.outputTokens),
    ("cost_microusd", .int r.costMicrousd), ("execution_receipt", r.executionReceipt.json)]

def RoleBenchmarkTrialResult.json (r : RoleBenchmarkTrialResult) : Json :=
  .dict (r.fields ++ [("result_commitment_hash", .str r.resultCommitmentHash.value)])

/-- What `_trial_result_commitment_hash` digests. -/
def RoleBenchmarkTrialResult.commitmentPayload (r : RoleBenchmarkTrialResult) : Json :=
  .dict [("schema_version", .str "autolean.role-trial-result-commitment.v3"), ("trial_result", .dict r.fields)]

/-! The JSON determines the value -/

private theorem digest_value_injective : Function.Injective Digest.value := by
  intro a b h
  cases a; cases b
  simpa using h

private theorem identifier_value_injective : Function.Injective Identifier.value := by
  intro a b h
  cases a; cases b
  simpa using h

private theorem revision_value_injective : Function.Injective Revision.value := by
  intro a b h
  cases a; cases b
  simpa using h

private theorem role_value_injective : Function.Injective BenchmarkRole.value := by
  intro a b h
  cases a <;> cases b <;> simp_all [BenchmarkRole.value]

private theorem executionClass_value_injective : Function.Injective RoleExecutionClass.value := by
  intro a b _
  cases a; cases b
  rfl

private theorem evaluatorKind_value_injective : Function.Injective EvaluatorKind.value := by
  intro a b _
  cases a; cases b
  rfl

theorem RoleModelTarget.json_injective : Function.Injective RoleModelTarget.json := by
  intro a b h
  cases a; cases b
  simpa [RoleModelTarget.json, identifier_value_injective.eq_iff, revision_value_injective.eq_iff,
    digest_value_injective.eq_iff] using h

theorem RoleBenchmarkTrialBinding.json_injective : Function.Injective RoleBenchmarkTrialBinding.json := by
  intro a b h
  cases a; cases b
  simpa [RoleBenchmarkTrialBinding.json, digest_value_injective.eq_iff] using h

theorem RoleBenchmarkCaseBinding.json_injective : Function.Injective RoleBenchmarkCaseBinding.json := by
  intro a b h
  cases a; cases b
  simpa [RoleBenchmarkCaseBinding.json, identifier_value_injective.eq_iff, revision_value_injective.eq_iff,
    digest_value_injective.eq_iff, evaluatorKind_value_injective.eq_iff,
    (List.map_injective_iff.mpr RoleBenchmarkTrialBinding.json_injective).eq_iff] using h

theorem RoleBenchmarkRunCell.json_injective : Function.Injective RoleBenchmarkRunCell.json := by
  intro a b h
  cases a; cases b
  simpa [RoleBenchmarkRunCell.json, RoleBenchmarkRunCell.fields, identifier_value_injective.eq_iff,
    role_value_injective.eq_iff, digest_value_injective.eq_iff, RoleModelTarget.json_injective.eq_iff,
    (List.map_injective_iff.mpr RoleBenchmarkCaseBinding.json_injective).eq_iff] using h

/-- No two run manifests have one JSON. -/
theorem RoleBenchmarkRun.json_injective : Function.Injective RoleBenchmarkRun.json := by
  intro a b h
  cases a; cases b
  simpa [RoleBenchmarkRun.json, identifier_value_injective.eq_iff, revision_value_injective.eq_iff,
    digest_value_injective.eq_iff, executionClass_value_injective.eq_iff,
    (List.map_injective_iff.mpr RoleBenchmarkRunCell.json_injective).eq_iff] using h

theorem RoleBenchmarkExecutionReceipt.json_injective : Function.Injective RoleBenchmarkExecutionReceipt.json := by
  intro a b h
  cases a; cases b
  simpa [RoleBenchmarkExecutionReceipt.json, digest_value_injective.eq_iff,
    executionClass_value_injective.eq_iff] using h

/-- No two trial results have one JSON: every figure of a result is written out. -/
theorem RoleBenchmarkTrialResult.json_injective : Function.Injective RoleBenchmarkTrialResult.json := by
  intro a b h
  cases a; cases b
  simpa [RoleBenchmarkTrialResult.json, RoleBenchmarkTrialResult.fields, identifier_value_injective.eq_iff,
    role_value_injective.eq_iff, digest_value_injective.eq_iff,
    RoleBenchmarkExecutionReceipt.json_injective.eq_iff] using h

end Autolean.Benchmarks
