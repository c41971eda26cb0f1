import Autolean.Benchmarks.Manifest
import Autolean.Machine.Raising

/-! Benchmark reports and the private manifest beside them. The commitment of a report
determines its run and its results, and these determine its metrics. -/
namespace Autolean.Benchmarks
open Contracts Machine Machine.Raising

/-- The cell, the case and the repetition of a trial within its run. -/
abbrev TrialKey := String × String × Int

/-- The order of Python tuples. -/
def TrialKey.le (a b : TrialKey) : Prop :=
  a.1 < b.1 ∨ a.1 = b.1 ∧ (a.2.1 < b.2.1 ∨ a.2.1 = b.2.1 ∧ a.2.2 ≤ b.2.2)

instance (a b : TrialKey) : Decidable (TrialKey.le a b) := inferInstanceAs (Decidable (_ ∨ _))

def RoleBenchmarkTrialResult.key (r : RoleBenchmarkTrialResult) : TrialKey := (r.cellId.value, r.caseId.value, r.repetition)

/-- `sorted(results, key=...)`. -/
def canonicalOrder (results : List RoleBenchmarkTrialResult) : List RoleBenchmarkTrialResult :=
  results.insertionSort fun a b => a.key.le b.key

/-- Aggregate for exactly one cell. -/
structure RoleBenchmarkCellMetrics where
  cellId : Identifier
  role : BenchmarkRole
  providerId : Identifier
  modelId : Identifier
  modelRevision : Revision
  cases : Nat
  repetitions : Int
  trials : Nat
  passed : Nat
  passRatePpm : Int
  passRateWilson95LowPpm : Int
  passRateWilson95HighPpm : Int
  meanScoreMicros : Int
  unstableCases : Nat
  instabilityRatePpm : Int
  elapsedMs : Nat
  inputTokens : Nat
  outputTokens : Nat
  costMicrousd : Nat
  deriving DecidableEq

/-- The field constraints of the metrics model. -/
def RoleBenchmarkCellMetrics.Valid (m : RoleBenchmarkCellMetrics) : Prop :=
  1 ≤ m.cases ∧ 1 ≤ m.repetitions ∧ 1 ≤ m.trials ∧
    ∀ rate ∈ [m.passRatePpm, m.passRateWilson95LowPpm, m.passRateWilson95HighPpm, m.meanScoreMicros, m.instabilityRatePpm],
      0 ≤ rate ∧ rate ≤ oneMillion

instance (m : RoleBenchmarkCellMetrics) : Decidable m.Valid := inferInstanceAs (Decidable (_ ∧ _))

structure RoleBenchmarkReport where
  executionClass : RoleExecutionClass
  evaluatorKinds : List EvaluatorKind
  rawArtifactManifestHash : Digest
  publicResultCommitmentHash : Digest
  run : RoleBenchmarkRun
  metrics : List RoleBenchmarkCellMetrics
  results : List RoleBenchmarkTrialResult
  deriving DecidableEq

/-- One private raw output referenced by a public trial hash. -/
@[ext]
structure RoleBenchmarkRawOutputEntry where
  cellId : Identifier
  caseId : Identifier
  repetition : Int
  outputHash : Digest
  executionReceiptHash : Digest
  resultCommitmentHash : Digest
  sizeBytes : Nat
  repetition_bounded : 1 ≤ repetition ∧ repetition ≤ 100
  size_positive : 1 ≤ sizeBytes

instance : DecidableEq RoleBenchmarkRawOutputEntry := fun _ _ => decidable_of_iff _ RoleBenchmarkRawOutputEntry.ext_iff.symm

def RoleBenchmarkRawOutputEntry.key (e : RoleBenchmarkRawOutputEntry) : TrialKey :=
  (e.cellId.value, e.caseId.value, e.repetition)

/-- The private index kept apart from the report: its coordinates are distinct and in
canonical order, and its commitments are distinct. -/
structure RoleBenchmarkRawArtifactManifest where
  runId : Identifier
  runManifestHash : Digest
  executionClass : RoleExecutionClass
  publicResultCommitmentHash : Digest
  outputs : List RoleBenchmarkRawOutputEntry
  outputs_nonempty : outputs ≠ []
  keys_unique : (outputs.map (·.key)).Nodup
  keys_sorted : (outputs.map (·.key)).Pairwise TrialKey.le
  commitments_unique : (outputs.map (·.resultCommitmentHash)).Nodup
  deriving DecidableEq

def RoleBenchmarkRawOutputEntry.json (e : RoleBenchmarkRawOutputEntry) : Json :=
  .dict [("schema_version", .str "autolean.role-raw-output-entry.v3"), ("cell_id", .str e.cellId.value),
    ("case_id", .str e.caseId.value), ("repetition", .int e.repetition), ("output_hash", .str e.outputHash.value),
    ("execution_receipt_hash", .str e.executionReceiptHash.value),
    ("result_commitment_hash", .str e.resultCommitmentHash.value), ("size_bytes", .int e.sizeBytes)]

def RoleBenchmarkRawArtifactManifest.json (m : RoleBenchmarkRawArtifactManifest) : Json :=
  .dict [("schema_version", .str "autolean.role-raw-artifact-manifest.v3"), ("run_id", .str m.runId.value),
    ("run_manifest_hash", .str m.runManifestHash.value), ("execution_class", .str m.executionClass.value),
    ("commitment_scheme", .str scriptedFakeCommitmentScheme), ("storage_class", .str "operator-local-private"),
    ("public_result_commitment_hash", .str m.publicResultCommitmentHash.value),
    ("outputs", .list (m.outputs.map RoleBenchmarkRawOutputEntry.json))]

/-! Validation -/

/-- Every trial of the frozen run under its coordinates, which are distinct. -/
def RoleBenchmarkRun.expected (run : RoleBenchmarkRun) :
    List (TrialKey × RoleBenchmarkRunCell × RoleBenchmarkCaseBinding × RoleBenchmarkTrialBinding) :=
  run.cells.flatMap fun cell => cell.selectedCases.flatMap fun case => case.trials.map fun trial =>
    ((cell.cellId.value, case.caseId.value, trial.repetition), cell, case, trial)

/-- `tuple(sorted({case.evaluator_kind ...}))`. -/
def expectedEvaluators (run : RoleBenchmarkRun) : List EvaluatorKind :=
  (run.cells.flatMap fun cell => cell.selectedCases.map (·.evaluatorKind)).dedup.insertionSort fun a b => a.value ≤ b.value

/-- The output hash, the receipt hash and the commitment of one trial. -/
abbrev EvidenceEntry := Digest × Digest × Digest

/-- A dict built from pairs keeps the last value of a key; two dicts are equal when they
answer every key alike. -/
def SameDict {κ ν : Type} [DecidableEq κ] [DecidableEq ν] (a b : List (κ × ν)) : Prop :=
  ∀ key ∈ (a ++ b).map Prod.fst, a.reverse.lookup key = b.reverse.lookup key

instance {κ ν : Type} [DecidableEq κ] [DecidableEq ν] (a b : List (κ × ν)) : Decidable (SameDict a b) :=
  inferInstanceAs (Decidable (∀ key ∈ _, _))

namespace Runtime
variable (rt : Runtime)

/-- The validator of a run cell, beyond its fields. -/
def CellBound (cell : RoleBenchmarkRunCell) : Prop := cell.runCellBindingHash = rt.contentHash cell.bindingPayload

/-- `RoleBenchmarkRunV1.model_validate`. -/
def RunValid (run : RoleBenchmarkRun) : Prop := ∀ cell ∈ run.cells, rt.CellBound cell

/-- `RoleBenchmarkTrialResultV1.model_validate`. -/
def ResultValid (result : RoleBenchmarkTrialResult) : Prop :=
  result.resultCommitmentHash = rt.contentHash result.commitmentPayload

/-- The result matches its frozen binding in the run. -/
def Binds (run : RoleBenchmarkRun) (cell : RoleBenchmarkRunCell) (case : RoleBenchmarkCaseBinding)
    (trial : RoleBenchmarkTrialBinding) (result : RoleBenchmarkTrialResult) : Prop :=
  result.runId = run.runId ∧ result.role = cell.role ∧ result.trialSeed = trial.trialSeed ∧
    result.workItemHash = trial.workItemHash ∧ result.evaluatorHash = case.evaluatorHash ∧
    result.executionReceipt.executionClass = run.executionClass ∧
    result.executionReceipt.executorDescriptorHash = run.executorDescriptorHash ∧
    result.executionReceipt.providerTargetHash = rt.contentHash cell.model.json ∧
    result.executionReceipt.providerReadinessHash = run.providerReadinessHash

instance (cell : RoleBenchmarkRunCell) : Decidable (rt.CellBound cell) := inferInstanceAs (Decidable (_ = _))
instance (run : RoleBenchmarkRun) : Decidable (rt.RunValid run) := inferInstanceAs (Decidable (∀ cell ∈ _, _))
instance (result : RoleBenchmarkTrialResult) : Decidable (rt.ResultValid result) := inferInstanceAs (Decidable (_ = _))
instance (run : RoleBenchmarkRun) (cell : RoleBenchmarkRunCell) (case : RoleBenchmarkCaseBinding)
    (trial : RoleBenchmarkTrialBinding) (result : RoleBenchmarkTrialResult) :
    Decidable (rt.Binds run cell case trial result) := inferInstanceAs (Decidable (_ ∧ _))

/-- What the aggregate commitment digests. -/
def publicResultPayload (run : RoleBenchmarkRun) (results : List RoleBenchmarkTrialResult) : Json :=
  .dict [("schema_version", .str "autolean.role-public-result-commitment.v3"),
    ("run_manifest_hash", .str (rt.contentHash run.json).value),
    ("results", .list ((canonicalOrder results).map RoleBenchmarkTrialResult.json))]

/-- `_public_result_commitment_hash`. -/
def publicResultCommitmentHash (run : RoleBenchmarkRun) (results : List RoleBenchmarkTrialResult) : Digest :=
  rt.contentHash (rt.publicResultPayload run results)

/-- The expected binding of one result, or the error its absence or a mismatch raises. -/
def checkFrozenBinding (run : RoleBenchmarkRun) (result : RoleBenchmarkTrialResult) : Outcome Unit :=
  match run.expected.lookup result.key with
  | none => .error (.roleBenchmarkError "report contains an unexpected trial result")
  | some (cell, case, trial) =>
    ensure (rt.Binds run cell case trial result)
      (.roleBenchmarkError "trial result does not match its frozen run binding")

/-- The loop over the results; `observed` holds the coordinates already met. -/
def checkResults (run : RoleBenchmarkRun) : List TrialKey → List RoleBenchmarkTrialResult → Outcome Unit
  | _, [] => .ok ()
  | observed, result :: rest => do
    ensure (result.key ∉ observed) (.roleBenchmarkError "report contains duplicate trial results")
    rt.checkFrozenBinding run result
    checkResults run (result.key :: observed) rest

/-- The outcomes of one case differ between repetitions. -/
def unstable (cellResults : List RoleBenchmarkTrialResult) (case : RoleBenchmarkCaseBinding) : Bool :=
  1 < ((cellResults.filter fun item => item.caseId = case.caseId).map (·.passed)).dedup.length

/-- The aggregate of the results of one cell. -/
def aggregate (cell : RoleBenchmarkRunCell) (cellResults : List RoleBenchmarkTrialResult) : RoleBenchmarkCellMetrics :=
  let passed := cellResults.countP (·.passed)
  let trials := cellResults.length
  let unstableCases := cell.selectedCases.countP (unstable cellResults)
  let cases := cell.selectedCases.length
  { cellId := cell.cellId
    role := cell.role
    providerId := cell.model.providerId
    modelId := cell.model.modelId
    modelRevision := cell.model.modelRevision
    cases := cases
    repetitions := cell.repetitions
    trials := trials
    passed := passed
    passRatePpm := rt.roundedQuotient (passed * oneMillion) trials
    passRateWilson95LowPpm := (rt.wilsonIntervalPpm passed trials).1
    passRateWilson95HighPpm := (rt.wilsonIntervalPpm passed trials).2
    meanScoreMicros := rt.roundedQuotient (cellResults.map (·.scoreMicros)).sum trials
    unstableCases := unstableCases
    instabilityRatePpm := rt.roundedQuotient (unstableCases * oneMillion) cases
    elapsedMs := (cellResults.map (·.elapsedMs)).sum
    inputTokens := (cellResults.map (·.inputTokens)).sum
    outputTokens := (cellResults.map (·.outputTokens)).sum
    costMicrousd := (cellResults.map (·.costMicrousd)).sum }

def cellMetrics (ordered : List RoleBenchmarkTrialResult) (cell : RoleBenchmarkRunCell) : Outcome RoleBenchmarkCellMetrics := do
  let cellResults := ordered.filter fun item => item.cellId = cell.cellId
  ensure (1 ≤ cellResults.length) (.roleBenchmarkError "Wilson interval requires at least one trial")
  ensure (rt.aggregate cell cellResults).Valid (.validationError "RoleBenchmarkCellMetricsV1")
  pure (rt.aggregate cell cellResults)

/-- `_validated_report_metrics`. -/
def validatedReportMetrics (run : RoleBenchmarkRun) (results : List RoleBenchmarkTrialResult) :
    Outcome (List RoleBenchmarkCellMetrics) := do
  ensure (rt.RunValid run ∧ ∀ result ∈ results, rt.ResultValid result)
    (.roleBenchmarkError "report run or trial results are not complete canonical V3 values")
  rt.checkResults run [] (canonicalOrder results)
  ensure (∀ entry ∈ run.expected, entry.1 ∈ (canonicalOrder results).map (·.key))
    (.roleBenchmarkError "report is missing terminal trial results")
  run.cells.mapM (rt.cellMetrics (canonicalOrder results))

/-- `RoleBenchmarkReportV1.model_validate`: the nested models, then `validate_report_integrity`. -/
def validateReport (report : RoleBenchmarkReport) : Outcome Unit := do
  ensure (rt.RunValid report.run) (.validationError "run-cell binding hash does not match its complete V3 payload")
  ensure (∀ metrics ∈ report.metrics, metrics.Valid) (.validationError "RoleBenchmarkCellMetricsV1")
  ensure (∀ result ∈ report.results, rt.ResultValid result)
    (.validationError "trial result commitment does not match its complete V3 payload")
  ensure (report.executionClass = report.run.executionClass ∧ report.evaluatorKinds = expectedEvaluators report.run)
    (.validationError "benchmark report execution or evaluator identity is inconsistent")
  ensure (report.results = canonicalOrder report.results)
    (.validationError "benchmark report trial results are not in canonical order")
  ensure (report.publicResultCommitmentHash = rt.publicResultCommitmentHash report.run report.results)
    (.validationError "benchmark report public result commitment does not match run and results")
  let expectedMetrics ← rt.validatedReportMetrics report.run report.results
  ensure (report.metrics = expectedMetrics)
    (.validationError "benchmark report metrics do not match its run and trial results")

/-- `build_report`. -/
def buildReport (run : RoleBenchmarkRun) (results : List RoleBenchmarkTrialResult) (rawArtifactManifestHash : Digest) :
    Outcome RoleBenchmarkReport := do
  let metrics ← rt.validatedReportMetrics run (canonicalOrder results)
  let report : RoleBenchmarkReport :=
    { executionClass := run.executionClass
      evaluatorKinds := expectedEvaluators run
      rawArtifactManifestHash := rawArtifactManifestHash
      publicResultCommitmentHash := rt.publicResultCommitmentHash run (canonicalOrder results)
      run := run
      metrics := metrics
      results := canonicalOrder results }
  rt.validateReport report
  pure report

/-- The evidence a result leaves, under its coordinates. -/
def expectedEntry (result : RoleBenchmarkTrialResult) : TrialKey × EvidenceEntry :=
  (result.key, result.outputHash, rt.contentHash result.executionReceipt.json, result.resultCommitmentHash)

def observedEntry (entry : RoleBenchmarkRawOutputEntry) : TrialKey × EvidenceEntry :=
  (entry.key, entry.outputHash, entry.executionReceiptHash, entry.resultCommitmentHash)

/-- `validate_report_private_manifest`. -/
def validateReportPrivateManifest (report : RoleBenchmarkReport) (manifest : RoleBenchmarkRawArtifactManifest) : Outcome Unit :=
  ensure (manifest.runId = report.run.runId ∧ manifest.runManifestHash = rt.contentHash report.run.json ∧
      manifest.executionClass = report.executionClass ∧
      manifest.publicResultCommitmentHash = report.publicResultCommitmentHash ∧
      report.publicResultCommitmentHash = rt.publicResultCommitmentHash report.run report.results ∧
      rt.contentHash manifest.json = report.rawArtifactManifestHash ∧
      SameDict (manifest.outputs.map observedEntry) (report.results.map rt.expectedEntry))
    (.roleBenchmarkError "private raw artifact manifest does not bind the complete public V3 results")

end Runtime

/-! What a validated report satisfies -/

variable {rt : Runtime}

/-- What the model accepts. -/
structure Accepted (rt : Runtime) (report : RoleBenchmarkReport) : Prop where
  runValid : rt.RunValid report.run
  executionClass : report.executionClass = report.run.executionClass
  evaluatorKinds : report.evaluatorKinds = expectedEvaluators report.run
  ordered : report.results = canonicalOrder report.results
  committed : report.publicResultCommitmentHash = rt.publicResultCommitmentHash report.run report.results
  metrics : rt.validatedReportMetrics report.run report.results = .ok report.metrics

theorem accepted_of_validateReport {report : RoleBenchmarkReport} (h : rt.validateReport report = .ok ()) :
    Accepted rt report := by
  obtain ⟨hrun, h⟩ := ensure_bind_eq_ok.mp h
  obtain ⟨-, h⟩ := ensure_bind_eq_ok.mp h
  obtain ⟨-, h⟩ := ensure_bind_eq_ok.mp h
  obtain ⟨⟨hclass, hkinds⟩, h⟩ := ensure_bind_eq_ok.mp h
  obtain ⟨hordered, h⟩ := ensure_bind_eq_ok.mp h
  obtain ⟨hcommitted, h⟩ := ensure_bind_eq_ok.mp h
  obtain ⟨expectedMetrics, hmetrics, h⟩ := bind_eq_ok.mp h
  exact ⟨hrun, hclass, hkinds, hordered, hcommitted, ensure_eq_ok.mp h ▸ hmetrics⟩

/-- The run and the results determine the whole report but for its private manifest. -/
theorem Accepted.determined {r s : RoleBenchmarkReport} (hr : Accepted rt r) (hs : Accepted rt s) (hrun : r.run = s.run)
    (hresults : r.results = s.results) : r.metrics = s.metrics ∧ r.evaluatorKinds = s.evaluatorKinds := by
  constructor
  · have hm := hr.metrics
    rw [hrun, hresults, hs.metrics] at hm
    exact (Except.ok.inj hm).symm
  · rw [hr.evaluatorKinds, hs.evaluatorKinds, hrun]

/-- The two payloads whose digests make up the commitment of a report. -/
def committedPayloads (rt : Runtime) (report : RoleBenchmarkReport) : Set Json :=
  {rt.publicResultPayload report.run report.results, report.run.json}

/-- Where digests of what two reports commit to collide only on equal payloads, one
commitment belongs to one run and one list of results. -/
theorem commitment_determines {r s : RoleBenchmarkReport} (hr : Accepted rt r) (hs : Accepted rt s)
    (hinj : Set.InjOn rt.contentHash (committedPayloads rt r ∪ committedPayloads rt s))
    (h : r.publicResultCommitmentHash = s.publicResultCommitmentHash) : r.run = s.run ∧ r.results = s.results := by
  rw [hr.committed, hs.committed] at h
  have hpayload := hinj (Or.inl (Or.inl rfl)) (Or.inr (Or.inl rfl)) h
  simp only [Runtime.publicResultPayload, Text.JsonTree.dict.injEq, List.cons.injEq, Prod.mk.injEq, Text.JsonTree.str.injEq,
    Text.JsonTree.list.injEq, true_and, and_true, ← hr.ordered, ← hs.ordered] at hpayload
  obtain ⟨hrun, hresults⟩ := hpayload
  constructor
  · apply RoleBenchmarkRun.json_injective
    apply hinj (Or.inl (Or.inr rfl)) (Or.inr (Or.inr rfl))
    generalize rt.contentHash r.run.json = a at hrun
    generalize rt.contentHash s.run.json = b at hrun
    cases a; cases b
    simpa using hrun
  · exact List.map_injective_iff.mpr RoleBenchmarkTrialResult.json_injective hresults

/-- The commitment of an accepted report determines its run, results, metrics and
evaluators, and a private manifest validates at most one accepted report. -/
theorem report_bound_by_commitment {r s : RoleBenchmarkReport} (hr : rt.validateReport r = .ok ())
    (hs : rt.validateReport s = .ok ())
    (hinj : Set.InjOn rt.contentHash (committedPayloads rt r ∪ committedPayloads rt s)) :
    (r.publicResultCommitmentHash = s.publicResultCommitmentHash →
      r.run = s.run ∧ r.results = s.results ∧ r.metrics = s.metrics ∧ r.evaluatorKinds = s.evaluatorKinds) ∧
    ∀ manifest, rt.validateReportPrivateManifest r manifest = .ok () →
      rt.validateReportPrivateManifest s manifest = .ok () → r = s := by
  have ar := accepted_of_validateReport hr
  have as := accepted_of_validateReport hs
  constructor
  · intro h
    obtain ⟨hrun, hresults⟩ := commitment_determines ar as hinj h
    exact ⟨hrun, hresults, ar.determined as hrun hresults⟩
  · intro manifest hmr hms
    obtain ⟨-, -, -, hcr, -, hhr, -⟩ := ensure_eq_ok.mp hmr
    obtain ⟨-, -, -, hcs, -, hhs, -⟩ := ensure_eq_ok.mp hms
    have hcommitment := hcr.symm.trans hcs
    obtain ⟨hrun, hresults⟩ := commitment_determines ar as hinj hcommitment
    obtain ⟨hmetrics, hkinds⟩ := ar.determined as hrun hresults
    have hclass : r.executionClass = s.executionClass := by rw [ar.executionClass, hrun]
    have hraw : r.rawArtifactManifestHash = s.rawArtifactManifestHash := hhr.symm.trans hhs
    cases r; cases s
    simp_all

/-! A run of one cell, one case and one trial -/

section Sample

private theorem sample_identifier : IsIdentifier "fake" := by decide

def sampleIdentifier : Identifier := ⟨_, sample_identifier⟩

def sampleRevision : Revision := ⟨"r1", by decide, by decide⟩

def sampleHash : Digest := .repeated 0

/-- Payloads are told apart by whether they are an aggregate commitment. -/
def sampleText : Json → String
  | .dict (("schema_version", .str "autolean.role-public-result-commitment.v3") :: _) => "commitment"
  | _ => ""

def sampleRuntime : Runtime where
  sha256Text text := if text = "" then sampleHash else .repeated 1
  canonicalText := sampleText
  loads text := if text = "null" then some .null else none
  wilsonIntervalPpm _ _ := (206543, 1000000)
  roundedQuotient a n := a / n

def sampleModel : RoleModelTarget :=
  ⟨sampleIdentifier, sampleIdentifier, sampleRevision, sampleHash, sampleHash⟩

def sampleTrial : RoleBenchmarkTrialBinding := ⟨1, sampleHash, sampleHash, by decide⟩

def sampleCase : RoleBenchmarkCaseBinding :=
  ⟨sampleIdentifier, sampleRevision, sampleHash, sampleHash, .exactJson, sampleHash, [sampleTrial], by decide, by decide⟩

def sampleCell : RoleBenchmarkRunCell :=
  ⟨sampleHash, sampleIdentifier, .prover, sampleHash, sampleModel, sampleHash, sampleHash, sampleHash, sampleHash, sampleHash,
    sampleHash, sampleHash, 1, [sampleCase], by decide, by decide, by decide, by decide⟩

def sampleRun : RoleBenchmarkRun :=
  ⟨sampleIdentifier, sampleIdentifier, sampleRevision, sampleHash, sampleHash, sampleHash, .scriptedFake, sampleHash,
    [sampleCell], by decide, by decide, by decide⟩

def sampleReceipt : RoleBenchmarkExecutionReceipt := ⟨.scriptedFake, sampleHash, sampleHash, sampleHash, sampleHash, sampleHash⟩

def sampleResult : RoleBenchmarkTrialResult :=
  ⟨sampleIdentifier, sampleIdentifier, sampleIdentifier, .prover, 1, sampleHash, sampleHash, sampleHash, sampleHash, true,
    1000000, 0, 1, 1, 0, sampleReceipt, sampleHash, by decide, by decide, by decide⟩

def sampleReport : RoleBenchmarkReport :=
  ⟨.scriptedFake, [.exactJson], sampleHash, sampleRuntime.publicResultCommitmentHash sampleRun [sampleResult], sampleRun,
    [sampleRuntime.aggregate sampleCell [sampleResult]], [sampleResult]⟩

theorem sampleReport_valid : sampleRuntime.validateReport sampleReport = .ok () := by
  rfl

/-- The same report before its private manifest was bound to it. -/
def sampleReportUnbound : RoleBenchmarkReport :=
    { sampleReport with rawArtifactManifestHash := sampleReport.publicResultCommitmentHash }

theorem sampleReportUnbound_valid : sampleRuntime.validateReport sampleReportUnbound = .ok () := by
  rfl

theorem report_bound_by_commitment_sample :
    sampleReport.publicResultCommitmentHash = sampleReportUnbound.publicResultCommitmentHash ∧
      sampleReport.run = sampleReportUnbound.run ∧ sampleReport.results = sampleReportUnbound.results ∧
        sampleReport.metrics = sampleReportUnbound.metrics ∧
          sampleReport.evaluatorKinds = sampleReportUnbound.evaluatorKinds := by
  refine ⟨rfl, (report_bound_by_commitment sampleReport_valid sampleReportUnbound_valid ?_).1 rfl⟩
  change Set.InjOn _ (committedPayloads sampleRuntime sampleReport ∪ committedPayloads sampleRuntime sampleReport)
  rw [Set.union_self]
  rintro a (rfl | rfl) b (rfl | rfl) h
  · rfl
  · exact absurd h (by decide)
  · exact absurd h (by decide)
  · rfl

end Sample

end Autolean.Benchmarks
