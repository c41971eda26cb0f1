import Autolean.Builder.TranslationTask

/-! The fidelity harness: it collects candidates, mutations and an expert verdict, builds the
report from them and has the evaluation checked before it returns it. -/
namespace Autolean.Builder.Fidelity
open Contracts Machine Text

/-! Verdicts -/

structure ObligationReviewVerdict where
  obligationId : PyText
  decision : Decision
  rationale : PyText
  texts_present : ¬ obligationId.Blank ∧ ¬ rationale.Blank

def ObligationReviewVerdict.payload (v : ObligationReviewVerdict) : Json :=
  .dict (JsonDict.of [("obligation_id", .str v.obligationId), ("decision", .text v.decision.value),
    ("rationale", .str v.rationale)])

structure CandidateReviewVerdict where
  candidateId : PyText
  candidateHash : Digest
  decision : Decision
  reverseRenderEquivalent : Bool
  obligationVerdicts : List ObligationReviewVerdict
  rationale : PyText
  texts_present : ¬ candidateId.Blank ∧ ¬ rationale.Blank

def CandidateReviewVerdict.payload (v : CandidateReviewVerdict) : Json :=
  .dict (JsonDict.of [("candidate_id", .str v.candidateId),
    ("candidate_hash", KindedDigest.dump ⟨.freezeEvidence, v.candidateHash⟩),
    ("decision", .text v.decision.value), ("reverse_render_equivalent", .bool v.reverseRenderEquivalent),
    ("obligation_verdicts", .list (v.obligationVerdicts.map ObligationReviewVerdict.payload)), ("rationale", .str v.rationale)])

structure MutationReviewVerdict where
  probeId : StableIdentifier
  detected : Bool
  rationale : PyText
  rationale_present : ¬ rationale.Blank

def MutationReviewVerdict.payload (v : MutationReviewVerdict) : Json :=
  .dict (JsonDict.of [("probe_id", .text v.probeId.value), ("detected", .bool v.detected), ("rationale", .str v.rationale)])

structure SemanticReviewVerdict where
  reviewId : PyText
  reviewerId : PyText
  independent : Bool
  decision : Decision
  sourceToNormalizedEquivalent : Bool
  sourceToNormalizedEvidence : PyText
  candidateVerdicts : List CandidateReviewVerdict
  mutationVerdicts : List MutationReviewVerdict
  positiveExampleValid : Bool
  positiveExampleEvidence : PyText
  negativeExampleValid : Bool
  negativeExampleEvidence : PyText
  nonVacuous : Bool
  nonVacuityEvidence : PyText
  rationale : PyText
  texts_present : ∀ text ∈ [reviewId, reviewerId, sourceToNormalizedEvidence, positiveExampleEvidence, negativeExampleEvidence,
    nonVacuityEvidence, rationale], ¬ text.Blank

def SemanticReviewVerdict.payload (v : SemanticReviewVerdict) : Json :=
  .dict (JsonDict.of [("review_id", .str v.reviewId), ("reviewer_id", .str v.reviewerId), ("independent", .bool v.independent),
    ("decision", .text v.decision.value), ("source_to_normalized_equivalent", .bool v.sourceToNormalizedEquivalent),
    ("source_to_normalized_evidence", .str v.sourceToNormalizedEvidence),
    ("candidate_verdicts", .list (v.candidateVerdicts.map CandidateReviewVerdict.payload)),
    ("mutation_verdicts", .list (v.mutationVerdicts.map MutationReviewVerdict.payload)),
    ("positive_example_valid", .bool v.positiveExampleValid), ("positive_example_evidence", .str v.positiveExampleEvidence),
    ("negative_example_valid", .bool v.negativeExampleValid), ("negative_example_evidence", .str v.negativeExampleEvidence),
    ("non_vacuous", .bool v.nonVacuous), ("non_vacuity_evidence", .str v.nonVacuityEvidence), ("rationale", .str v.rationale)])

/-! The other roles -/

/-- The statement that mutations start from. -/
structure SelectedStatementBaseline where
  contractId : StableIdentifier
  revision : Int
  leanStatementSource : String
  statementSourceHash : Digest

/-- `from_task` with its `__post_init__`. -/
def SelectedStatementBaseline.fromTask (runtime : Runtime) (task : TranslationTask) : Outcome SelectedStatementBaseline := do
  require (1 ≤ task.revision ∧ ¬ Blank task.selectedLeanStatement) "selected statement mutation baseline is invalid"
  require (task.selectedStatementHash = runtime.sha256Text task.selectedLeanStatement)
    "selected statement mutation baseline differs from its hash"
  pure ⟨task.contractId, task.revision, task.selectedLeanStatement, task.selectedStatementHash⟩

structure MutationSuiteAgent where
  actorId : PyText
  generate : TranslationTask → SelectedStatementBaseline → List MutationProbe

structure SemanticReviewPacket where
  task : TranslationTask
  candidates : List CandidateFormalization
  mutationProbes : List MutationProbe

structure SemanticReviewAgent where
  reviewerId : PyText
  review : SemanticReviewPacket → SemanticReviewVerdict

/-! Structural checks -/

/-- A check that passed; its authority is automatic. -/
structure AutomaticCheckResult where
  checkName : String
  evidence : PyText
  deriving DecidableEq

def AutomaticCheckResult.payload (c : AutomaticCheckResult) : Json :=
  .dict (JsonDict.of [("check_name", .text c.checkName), ("authority", .text "automatic"), ("passed", .bool true),
    ("evidence", .str c.evidence)])

/-- `_candidate_structure_checks`. -/
def candidateStructureChecks (runtime : Runtime) (task : TranslationTask) (generation : CandidateGenerationTask)
    (candidates : List CandidateFormalization) : Outcome (List AutomaticCheckResult) := do
  require (2 ≤ candidates.length) "at least two translation candidates are required"
  require (candidates.map (·.candidateId)).Nodup "candidate identifiers must be unique"
  require (candidates.map (·.actorId)).Nodup "candidate actor identities must be distinct"
  require (2 ≤ (candidates.map (·.independenceGroup)).toFinset.card) "candidates require two independence groups"
  candidates.forM fun c => do
    require (c.contractId = task.contractId ∧ c.revision = task.revision ∧ c.draftContractHash = task.draftContractHash ∧
        c.sourceHash = task.sourceHash ∧ c.normalizedStatementSha256 = task.normalizedStatementSha256 ∧
        c.generationTaskHash = generation.contentHash runtime)
      "candidate is not bound to the translation task"
    require (c.coveredObligationIds.Nodup ∧ c.coveredObligationIds.toFinset = (task.obligations.map (·.obligationId)).toFinset)
      "candidate semantic obligation coverage is incomplete"
  pure [
    ⟨"candidate_contract_bindings",
      .of ("all candidate hashes and revision bindings match the translation task; generation_task_hash=" ++
        (generation.contentHash runtime).value ++ "; statement identity is checked by the canonical elaborated-type gate")⟩,
    ⟨"candidate_independence", .of "candidate actors and independence groups are distinct"⟩,
    ⟨"obligation_coverage", .of "every candidate declares every required semantic obligation"⟩]

def requiredMutations : List MutationKind :=
  [.dropAssumption, .swapQuantifiers, .weakenRelation, .removeSideCondition, .dropNonempty, .dropFinite, .dropNoetherian,
    .reverseParameters, .vacuity]

/-- `_mutation_structure_checks`. -/
def mutationStructureChecks (task : TranslationTask) (mutationAgentId : PyText) (probes : List MutationProbe) :
    Outcome (List AutomaticCheckResult) := do
  require (¬ mutationAgentId.Blank) "mutation agent identity must not be empty"
  require (probes.map (·.kind)).Nodup "mutation suite contains duplicate mutation kinds"
  require (probes.map (·.probeId)).Nodup "mutation suite contains duplicate probe identifiers"
  let missing := requiredMutations.filter fun kind => kind ∉ probes.map (·.kind)
  require (missing = []) ("mutation suite is incomplete: " ++
    ", ".intercalate ((missing.map MutationKind.value).insertionSort (· ≤ ·)))
  require (task.selectedLeanStatement ∉ probes.map (·.mutatedStatementSource.value))
    "mutation suite contains an unchanged statement"
  require (probes.map (·.mutatedStatementSource.value)).Nodup "mutation suite reuses one statement for multiple probes"
  pure [⟨"mutation_suite_shape", PyText.of "agent=" ++ mutationAgentId ++
    PyText.of ("; all required mutation kinds are unique and change the contract-selected statement bytes; " ++
      "baseline_statement_hash=" ++ task.selectedStatementHash.value)⟩]

/-- `_canonical_type_automatic_check`. -/
def canonicalTypeAutomaticCheck (gate : CanonicalTypeGate) (evidence : gate.Evidence) : AutomaticCheckResult :=
  ⟨"canonical_elaborated_type_identity", gate.automaticEvidence evidence⟩

/-- `_assert_review_structure`. -/
def assertReviewStructure (runtime : Runtime) (packet : SemanticReviewPacket)
    (review : SemanticReviewVerdict) : Outcome Unit := do
  require (review.independent = true) "semantic review must be independently authored"
  require (review.candidateVerdicts.map (·.candidateId)).Nodup "candidate review verdict identifiers must be unique"
  require ((review.candidateVerdicts.map (·.candidateId)).toFinset = (packet.candidates.map (·.candidateId)).toFinset)
    "semantic review must cover every candidate exactly once"
  review.candidateVerdicts.forM fun verdict => do
    require (∀ c ∈ packet.candidates, c.candidateId = verdict.candidateId → verdict.candidateHash = c.evidenceHash runtime)
      "candidate review verdict hash does not match evidence"
    require (verdict.obligationVerdicts.map (·.obligationId)).Nodup "obligation review verdict identifiers must be unique"
    require ((verdict.obligationVerdicts.map (·.obligationId)).toFinset = (packet.task.obligations.map (·.obligationId)).toFinset)
      "expert review must cover every semantic obligation"
  require (review.mutationVerdicts.map (·.probeId)).Nodup "mutation review verdict identifiers must be unique"
  require ((review.mutationVerdicts.map (·.probeId)).toFinset = (packet.mutationProbes.map (·.probeId)).toFinset)
    "expert review must cover every mutation probe"

/-- `_assert_declared_actor_separation`. -/
def assertDeclaredActorSeparation (candidates : List CandidateFormalization) (mutationAgentId : PyText)
    (review : SemanticReviewVerdict)
    (additionalSignoffs : List ReviewerSignoff) : Outcome Unit := do
  require (mutationAgentId ∉ candidates.map (·.actorId)) "mutation agent identity must differ from every translation agent"
  let executionActorIds := mutationAgentId :: candidates.map (·.actorId)
  require (review.reviewerId ∉ executionActorIds) "semantic reviewer identity must differ from translation and mutation agents"
  require (additionalSignoffs.map (·.signoffId)).Nodup "additional signoff identifiers must be unique"
  let independentSignoffs := additionalSignoffs.filter (·.independent)
  require (∀ signoff ∈ independentSignoffs, PyText.of signoff.reviewerId ∉ executionActorIds)
    "independent signoff identity must differ from execution agents"
  require (review.reviewerId :: independentSignoffs.map fun signoff => PyText.of signoff.reviewerId).Nodup
    "independent review roles require distinct reviewer identities"

/-! The evidence of an evaluation -/

structure Evidence (gate : CanonicalTypeGate) where
  task : TranslationTask
  generationTask : CandidateGenerationTask
  candidates : List CandidateFormalization
  canonicalTypeGate : gate.Evidence
  mutationAgentId : PyText
  mutationProbes : List MutationProbe
  review : SemanticReviewVerdict
  automaticChecks : List AutomaticCheckResult
  additionalSignoffs : List ReviewerSignoff

section Harness
variable (runtime : Runtime) {gate : CanonicalTypeGate}

/-- `_evaluation_payload`. -/
def Evidence.payload (e : Evidence gate) : JsonFields :=
  JsonDict.of [("schema_version", .text "autolean.builder-fidelity-evidence.v1"), ("task", e.task.payload),
    ("generation_task", .dict e.generationTask.payload),
    ("generation_task_hash", KindedDigest.dump ⟨.prompt, e.generationTask.contentHash runtime⟩),
    ("candidates", .list (e.candidates.map fun c => .dict c.payload)), ("mutation_agent_id", .str e.mutationAgentId),
    ("mutation_probes", .list (e.mutationProbes.map MutationProbe.json)), ("review", e.review.payload),
    ("automatic_checks", .list (e.automaticChecks.map AutomaticCheckResult.payload)),
    ("additional_signoffs", .list (e.additionalSignoffs.map (ReviewerSignoff.json runtime)))]

/-- `_evaluation_hash`. -/
def Evidence.hash (e : Evidence gate) : Digest := (runtime.digestPayload .freezeEvidence (e.payload runtime)).digest

/-- `FidelityEvaluation`. -/
structure Evaluation (gate : CanonicalTypeGate) extends Evidence gate where
  evidenceHash : Digest
  report : FidelityReport

/-- `f"{marker}; {text}"`. -/
def marked (hash : Digest) (text : PyText) : PyText :=
    PyText.of ("harness_evidence_sha256=" ++ hash.value) ++ PyText.of "; " ++ text

/-- `_check_key`; only these kinds have one. -/
def checkKey : FidelityCheckKind → String
  | .sourcePreservation => "source"
  | .reverseRender => "reverse"
  | .independentTranslation => "independent"
  | .positiveExample => "positive"
  | .negativeExample => "negative"
  | .nonVacuity => "non-vacuity"
  | .establishedEquivalence | .apiReview => ""

def checkId (hash : Digest) (kind : FidelityCheckKind) : StableIdentifier :=
  runtime.stableIdentifier "builder-fidelity-check" (hash.value ++ ":" ++ checkKey kind)

def candidatesAccepted (review : SemanticReviewVerdict) : Bool := review.candidateVerdicts.all fun v => v.decision = .accept

def obligationsAccepted (review : SemanticReviewVerdict) : Bool :=
  review.candidateVerdicts.all fun v => v.obligationVerdicts.all fun o => o.decision = .accept

/-! The report -/

variable (w : WhiteSpace)

/-- A text field. -/
def textField (text : PyText) : Outcome String :=
  match w.fieldText text with
  | some value => .ok value
  | none => .error (.validationError "Input should be a valid string")

/-- A text field with `min_length=1`. -/
def nonemptyField (text : PyText) : Outcome String := do
  let value ← textField w text
  ensure (value ≠ "") (.validationError "String should have at least 1 character")
  pure value

/-- One `FidelityCheckV1` of the report. -/
def fidelityCheck (hash : Digest) (review : SemanticReviewVerdict) (kind : FidelityCheckKind) (passed : Bool)
    (evidence : PyText) :
    Outcome FidelityCheck := do
  let evidence ← nonemptyField w (marked hash evidence)
  let reviewerId ← textField w review.reviewerId
  pure ⟨checkId runtime hash kind, kind, passed, evidence, reviewerId, review.independent⟩

/-- One `MutationResultV1` of the report. -/
def mutationResult (hash : Digest) (review : SemanticReviewVerdict) (probe : MutationProbe) : Outcome MutationResult :=
  match review.mutationVerdicts.find? fun v => v.probeId = probe.probeId with
  | none => .error .keyError
  | some verdict => do
    let evidence ← nonemptyField w (marked hash verdict.rationale)
    let executedBy ← nonemptyField w review.reviewerId
    pure ⟨probe, verdict.detected, evidence, executedBy⟩

/-- `_build_report`; `now` is what the clock says. -/
def buildReport (contract : StatementContract) (e : Evidence gate) (hash : Digest) (now : Datetime) : Outcome FidelityReport := do
  let reverseRenderAccepted := e.review.candidateVerdicts.all (·.reverseRenderEquivalent)
  let checks ← [
    (.sourcePreservation, e.review.sourceToNormalizedEquivalent && obligationsAccepted e.review,
      e.review.sourceToNormalizedEvidence),
    (.reverseRender, reverseRenderAccepted && candidatesAccepted e.review, .of "expert reviewed every reverse rendering"),
    (.independentTranslation, candidatesAccepted e.review && decide (2 ≤ e.candidates.length),
      .of "expert compared candidates from separately declared registrations"),
    (.positiveExample, e.review.positiveExampleValid, e.review.positiveExampleEvidence),
    (.negativeExample, e.review.negativeExampleValid, e.review.negativeExampleEvidence),
    (.nonVacuity, e.review.nonVacuous, e.review.nonVacuityEvidence)].mapM
      fun c : FidelityCheckKind × Bool × PyText => fidelityCheck runtime w hash e.review c.1 c.2.1 c.2.2
  let mutationResults ← e.mutationProbes.mapM (mutationResult w hash e.review)
  let signoffId ← runtime.identifierOf "builder-semantic-signoff" (PyText.of (hash.value ++ ":") ++ e.review.reviewId)
  let reviewerId ← nonemptyField w e.review.reviewerId
  let rationale ← nonemptyField w (marked hash e.review.rationale)
  let signoff : ReviewerSignoff := {
    signoffId
    reviewerId
    role := .semanticReviewer
    decision := e.review.decision
    independent := e.review.independent
    rationale
    reviewedAt := now.astimezoneUtc }
  pure {
    reportId := runtime.stableIdentifier "builder-fidelity-report" hash.value
    evidenceHash := hash
    riskLevel := contract.policy.fidelityRisk
    checks
    mutationResults
    signoffs := signoff :: e.additionalSignoffs
    generatedAt := now.astimezoneUtc }

/-! The checker -/

/-- A gate error becomes one of the harness. -/
def asHarnessError {α : Type} : Outcome α → Outcome α
  | .error (.canonicalTypeGateError message) => .error (.fidelityHarnessError message)
  | outcome => outcome

/-- The first half of `assert_binds`: the evidence reproduces from the contract. -/
def Evidence.assertReproduces (e : Evidence gate) (contract : StatementContract) : Outcome Unit := do
  require (e.task.contractId = contract.contractId ∧ e.task.revision = contract.revision)
    "fidelity evaluation targets another contract revision"
  require (e.task.draftContractHash = runtime.semanticHash contract.toContractSemantics)
    "draft contract changed after fidelity evaluation"
  let expectedTask ← TranslationTask.fromContract runtime contract e.task.obligations (some e.task.sourceSpans)
  require (e.task = expectedTask) "translation task does not reproduce from the draft contract"
  let expectedGenerationTask ← CandidateGenerationTask.fromContract contract expectedTask
  require (e.generationTask = expectedGenerationTask) "candidate-generation task does not reproduce from the draft contract"
  let (binding, reference, requests) ← canonicalTypeGateInputs runtime contract e.task e.generationTask e.candidates
  asHarnessError (gate.assertBinds e.canonicalTypeGate binding reference requests)
  let candidateChecks ← candidateStructureChecks runtime e.task e.generationTask e.candidates
  let mutationChecks ← mutationStructureChecks e.task e.mutationAgentId e.mutationProbes
  require (e.automaticChecks = candidateChecks ++ [canonicalTypeAutomaticCheck gate e.canonicalTypeGate] ++ mutationChecks)
    "automatic check results do not match the evidence"
  assertReviewStructure runtime ⟨e.task, e.candidates, e.mutationProbes⟩ e.review
  assertDeclaredActorSeparation e.candidates e.mutationAgentId e.review e.additionalSignoffs

/-- What the checker expects of each check. -/
def expectedChecks (e : Evidence gate) : List (FidelityCheckKind × Bool × PyText) := [
  (.sourcePreservation, e.review.sourceToNormalizedEquivalent && obligationsAccepted e.review,
    e.review.sourceToNormalizedEvidence),
  (.reverseRender, e.review.candidateVerdicts.all (·.reverseRenderEquivalent) && candidatesAccepted e.review,
    .of "expert reviewed every reverse rendering"),
  (.independentTranslation, candidatesAccepted e.review && decide (2 ≤ e.candidates.length),
    .of "expert compared candidates from separately declared registrations"),
  (.positiveExample, e.review.positiveExampleValid, e.review.positiveExampleEvidence),
  (.negativeExample, e.review.negativeExampleValid, e.review.negativeExampleEvidence),
  (.nonVacuity, e.review.nonVacuous, e.review.nonVacuityEvidence)]

/-- One check of the report against what is expected. -/
def assertCheck (expected : Digest) (review : SemanticReviewVerdict) (report : FidelityReport)
    (c : FidelityCheckKind × Bool × PyText) : Outcome Unit :=
  match report.checks.find? fun check => check.kind = c.1 with
  | none => .error .keyError
  | some check => require (check.checkId = checkId runtime expected c.1 ∧ check.passed = c.2.1 ∧
      PyText.of check.evidence = marked expected c.2.2 ∧ PyText.of check.reviewerId = review.reviewerId ∧
      check.independent = review.independent)
    ("fidelity report check differs from expert evidence: " ++ c.1.value)

/-- One mutation result of the report against its verdict. -/
def assertMutationResult (expected : Digest) (review : SemanticReviewVerdict) (result : MutationResult) : Outcome Unit :=
  match review.mutationVerdicts.find? fun v => v.probeId = result.probe.probeId with
  | none => .error .keyError
  | some verdict => require (result.detected = verdict.detected ∧ PyText.of result.evidence = marked expected verdict.rationale ∧
      PyText.of result.executedBy = review.reviewerId)
    "mutation results do not match the expert verdict"

/-- The second half of `assert_binds`: the report says what the evidence says. -/
def Evaluation.assertReport (e : Evaluation gate) (contract : StatementContract) : Outcome Unit := do
  let expected := e.toEvidence.hash runtime
  require (e.evidenceHash = expected) "fidelity evaluation evidence hash is inconsistent"
  require (e.report.reportId = runtime.stableIdentifier "builder-fidelity-report" expected.value)
    "fidelity report is not bound to harness evidence"
  require (e.report.riskLevel = contract.policy.fidelityRisk) "fidelity report risk differs from the contract policy"
  require ((e.report.checks.map (·.kind)).Nodup ∧
    (e.report.checks.map (·.kind)).toFinset = ((expectedChecks e.toEvidence).map (·.1)).toFinset)
    "fidelity report check set differs from the harness"
  (expectedChecks e.toEvidence).forM (assertCheck runtime expected e.review e.report)
  require (e.report.mutationResults.map (·.probe) = e.mutationProbes) "fidelity report mutation probes differ from the harness"
  e.report.mutationResults.forM (assertMutationResult expected e.review)
  require (e.report.signoffs.length = 1 + e.additionalSignoffs.length) "fidelity report signoff set differs from the harness"
  let expectedSignoffId ← runtime.identifierOf "builder-semantic-signoff" (PyText.of (expected.value ++ ":") ++ e.review.reviewId)
  require ((∀ signoff ∈ e.report.signoffs.head?,
        signoff.signoffId = expectedSignoffId ∧ PyText.of signoff.reviewerId = e.review.reviewerId ∧
        signoff.role = .semanticReviewer ∧ signoff.decision = e.review.decision ∧
        signoff.independent = e.review.independent ∧ PyText.of signoff.rationale = marked expected e.review.rationale) ∧
      e.report.signoffs.tail = e.additionalSignoffs)
    "fidelity report signoffs differ from expert evidence"

/-- `FidelityEvaluation.assert_binds`. -/
def Evaluation.assertBinds (e : Evaluation gate) (contract : StatementContract) : Outcome Unit := do
  e.toEvidence.assertReproduces runtime contract
  e.assertReport runtime contract

/-! The run -/

/-- What the harness is called with, its agents included. -/
structure HarnessCall where
  contract : StatementContract
  obligations : List SemanticObligation
  sourceClaims : Option (List SourceClaimSpan)
  translators : List TranslationAgent
  mutationAgent : MutationSuiteAgent
  reviewer : SemanticReviewAgent
  additionalSignoffs : List ReviewerSignoff
  now : Datetime

/-- `run` up to the construction of the report. -/
def HarnessCall.collect (gate : CanonicalTypeGate) (call : HarnessCall) : Outcome (Evidence gate) := do
  registerTranslationAgents call.translators
  validatedRoleIdentity call.mutationAgent.actorId "mutation agent" "actor_id"
  validatedRoleIdentity call.reviewer.reviewerId "semantic reviewer" "reviewer_id"
  let task ← TranslationTask.fromContract runtime call.contract call.obligations call.sourceClaims
  let generationTask ← CandidateGenerationTask.fromContract call.contract task
  let candidates := call.translators.map (bindCandidateProposal runtime task generationTask)
  require (2 ≤ call.translators.length ∧
    candidates.length = call.translators.length) "at least two translation agents are required"
  require (candidates.map (fun c => (c.actorId, c.independenceGroup)) = call.translators.map fun t =>
    (t.actorId, t.independenceGroup))
    "candidate misrepresents its generating agent"
  let candidateChecks ← candidateStructureChecks runtime task generationTask candidates
  let (binding, reference, requests) ← canonicalTypeGateInputs runtime call.contract task generationTask candidates
  let canonicalTypeGate ← asHarnessError (gate.run binding reference requests)
  let baseline ← SelectedStatementBaseline.fromTask runtime task
  let mutationProbes := call.mutationAgent.generate task baseline
  let mutationChecks ← mutationStructureChecks task call.mutationAgent.actorId mutationProbes
  let packet : SemanticReviewPacket := ⟨task, candidates, mutationProbes⟩
  let review := call.reviewer.review packet
  require (review.reviewerId = call.reviewer.reviewerId) "semantic verdict misrepresents its reviewer"
  require (review.independent = true) "semantic review must be independently authored"
  assertReviewStructure runtime packet review
  assertDeclaredActorSeparation candidates call.mutationAgent.actorId review call.additionalSignoffs
  pure {
    task, generationTask, candidates, canonicalTypeGate, mutationAgentId := call.mutationAgent.actorId, mutationProbes, review,
    automaticChecks := candidateChecks ++ [canonicalTypeAutomaticCheck gate canonicalTypeGate] ++ mutationChecks,
    additionalSignoffs := call.additionalSignoffs }

/-- `run` from the construction of the report up to the check of the evaluation. -/
def HarnessCall.evaluate (call : HarnessCall) (e : Evidence gate) : Outcome (Evaluation gate) := do
  let hash := e.hash runtime
  let report ← buildReport runtime w call.contract e hash call.now
  pure ⟨e, hash, report⟩

/-- `StatementFidelityHarness.run`. -/
def HarnessCall.run (gate : CanonicalTypeGate) (call : HarnessCall) : Outcome (Evaluation gate) := do
  let evidence ← call.collect runtime gate
  let evaluation ← call.evaluate runtime w evidence
  evaluation.assertBinds runtime call.contract
  pure evaluation

end Harness
end Autolean.Builder.Fidelity
