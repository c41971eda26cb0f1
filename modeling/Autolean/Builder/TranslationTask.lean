import Autolean.Builder.Contract

/-! The translation of a draft contract: the task that the reviewing roles see, the part of it
that a translator sees, and the candidates that are bound to it. -/
namespace Autolean.Builder.Fidelity
open Contracts Machine Text

/-- `if not condition: raise FidelityHarnessError(message)`. -/
def require (condition : Prop) [Decidable condition] (message : String) : Outcome Unit :=
  ensure condition (.fidelityHarnessError (.of message))

inductive SemanticObligationKind where
  | quantifierOrder
  | assumption
  | conclusion
  | sideCondition
  | definition
  | edgeCase
  | nonVacuity
  deriving DecidableEq

def SemanticObligationKind.value : SemanticObligationKind → String
  | quantifierOrder => "quantifier_order"
  | assumption => "assumption"
  | conclusion => "conclusion"
  | sideCondition => "side_condition"
  | definition => "definition"
  | edgeCase => "edge_case"
  | nonVacuity => "non_vacuity"

/-! Source claims -/

structure SourceClaimSpan where
  spanId : StableIdentifier
  locator : String
  contentHash : Digest
  permittedExcerpt : String
  deriving DecidableEq

namespace SourceClaimSpan

/-- `__post_init__`. -/
def postInit (runtime : Runtime) (span : SourceClaimSpan) : Outcome Unit := do
  require (¬ Blank span.locator ∧ ¬ Blank span.permittedExcerpt)
    "statement translation requires a located, permitted source excerpt"
  require (span.contentHash = runtime.sha256Text span.permittedExcerpt)
    "statement translation excerpt differs from its public span hash"

def payload (span : SourceClaimSpan) : Json :=
  .dict (JsonDict.of [("span_id", .text span.spanId.value), ("locator", .text span.locator),
    ("content_hash", KindedDigest.dump ⟨.sourceSpan, span.contentHash⟩), ("permitted_excerpt", .text span.permittedExcerpt)])

end SourceClaimSpan

/-- The claim of a public span. -/
def publicClaim (runtime : Runtime) (span : SourceSpan) : Outcome SourceClaimSpan := do
  let claim : SourceClaimSpan := ⟨span.spanId, span.locator.value, span.contentHash, span.permittedExcerpt.getD ""⟩
  claim.postInit runtime
  pure claim

/-- `_assert_source_claims_bind_contract`. -/
def assertSourceClaimsBindContract (contract : StatementContract) (claims : List SourceClaimSpan) : Outcome Unit := do
  require ((claims.map (·.spanId)).Nodup ∧ claims ≠ [] ∧
      (claims.map (·.spanId)).toFinset = (contract.source.spans.map (·.spanId)).toFinset)
    "private source claims differ from the public contract span set"
  require (∀ claim ∈ claims, ∀ span ∈ contract.source.spans, span.spanId = claim.spanId →
      claim.locator = span.locator.value ∧ claim.contentHash = span.contentHash ∧
        ∀ excerpt ∈ span.permittedExcerpt, claim.permittedExcerpt = excerpt)
    "private source claim differs from its public contract span binding"

/-! Obligations -/

/-- A trace from the source to the normalized statement and the Lean source; its authority is
always the expert's. -/
@[ext]
structure SemanticObligation where
  obligationId : PyText
  kind : SemanticObligationKind
  description : PyText
  sourceSpanIds : List StableIdentifier
  normalizedFragment : PyText
  leanFragment : PyText
  identified : ¬ obligationId.Blank
  described : ¬ description.Blank
  cites : sourceSpanIds ≠ []
  cites_distinct : sourceSpanIds.Nodup
  targeted : ¬ normalizedFragment.Blank ∧ ¬ leanFragment.Blank

instance decidableEqSemanticObligation : DecidableEq SemanticObligation :=
  fun _ _ => decidable_of_iff' _ SemanticObligation.ext_iff

def SemanticObligation.payload (o : SemanticObligation) : Json :=
  .dict (JsonDict.of [("obligation_id", .str o.obligationId), ("kind", .text o.kind.value), ("description", .str o.description),
    ("source_span_ids", textsJson (o.sourceSpanIds.map (·.value))), ("normalized_fragment", .str o.normalizedFragment),
    ("lean_fragment", .str o.leanFragment), ("authority", .text "expert")])

structure TranslationTask where
  contractId : StableIdentifier
  revision : Int
  draftContractHash : Digest
  sourceHash : Digest
  sourceSpans : List SourceClaimSpan
  informalStatement : String
  normalizedStatement : String
  normalizedStatementSha256 : Digest
  selectedLeanStatement : String
  selectedStatementHash : Digest
  obligations : List SemanticObligation
  deriving DecidableEq

/-- The obligation kinds that a contract calls for. -/
def requiredKinds (contract : StatementContract) : List SemanticObligationKind :=
  [.quantifierOrder, .conclusion, .nonVacuity] ++ (if contract.mathematics.assumptions ≠ [] then [.assumption] else []) ++
    (if contract.mathematics.definitions ≠ [] then [.definition] else []) ++
    (if contract.mathematics.edgeCases ≠ [] then [.edgeCase] else [])

namespace TranslationTask

def validateObligations (task : TranslationTask) (contract : StatementContract) : Outcome Unit := do
  require (task.obligations ≠ []) "at least one semantic obligation is required"
  require (task.obligations.map (·.obligationId)).Nodup "semantic obligation identifiers must be unique"
  task.obligations.forM fun obligation => do
    require (∀ spanId ∈ obligation.sourceSpanIds, spanId ∈ task.sourceSpans.map (·.spanId))
      "semantic obligation cites an unknown source span"
    ensure (obligation.normalizedFragment <:+: PyText.of task.normalizedStatement)
      (.fidelityHarnessError (PyText.of "normalized obligation fragment is absent: " ++ obligation.obligationId))
    ensure (obligation.leanFragment <:+: PyText.of task.selectedLeanStatement)
      (.fidelityHarnessError (PyText.of "Lean obligation fragment is absent: " ++ obligation.obligationId))
  let missing := (requiredKinds contract).filter fun kind => kind ∉ task.obligations.map (·.kind)
  require (missing = []) ("missing semantic obligation kinds: " ++
    ", ".intercalate ((missing.map SemanticObligationKind.value).insertionSort (· ≤ ·)))

def fromContract (runtime : Runtime) (contract : StatementContract) (obligations : List SemanticObligation)
    (sourceClaims : Option (List SourceClaimSpan)) : Outcome TranslationTask := do
  let spans ← match sourceClaims with
    | none => contract.source.spans.mapM (publicClaim runtime)
    | some claims => pure claims
  assertSourceClaimsBindContract contract spans
  let task : TranslationTask := {
    contractId := contract.contractId
    revision := contract.revision
    draftContractHash := runtime.semanticHash contract.toContractSemantics
    sourceHash := contract.source.contentHash
    sourceSpans := spans
    informalStatement := contract.mathematics.informalStatement.value
    normalizedStatement := contract.mathematics.normalizedStatement.value
    normalizedStatementSha256 := runtime.sha256Text contract.mathematics.normalizedStatement.value
    selectedLeanStatement := contract.formal.leanStatementSource.value
    selectedStatementHash := contract.formal.statementSourceHash
    obligations }
  task.validateObligations contract
  pure task

def payload (task : TranslationTask) : Json :=
  .dict (JsonDict.of [("contract_id", .text task.contractId.value), ("revision", .int task.revision),
    ("draft_contract_hash", KindedDigest.dump ⟨.contract, task.draftContractHash⟩),
    ("source_hash", KindedDigest.dump ⟨.sourceBytes, task.sourceHash⟩),
    ("source_spans", .list (task.sourceSpans.map SourceClaimSpan.payload)), ("informal_statement", .text task.informalStatement),
    ("normalized_statement", .text task.normalizedStatement),
    ("normalized_statement_sha256", .text task.normalizedStatementSha256.value),
    ("selected_lean_statement", .text task.selectedLeanStatement),
    ("selected_statement_hash", KindedDigest.dump ⟨.statementSource, task.selectedStatementHash⟩),
    ("obligations", .list (task.obligations.map SemanticObligation.payload))])

end TranslationTask

/-! The part a translator sees -/

/-- An obligation without its Lean fragment. -/
structure CandidateGenerationObligation where
  obligationId : PyText
  kind : SemanticObligationKind
  sourceSpanIds : List StableIdentifier
  normalizedFragment : PyText
  deriving DecidableEq

namespace CandidateGenerationObligation

def fromSemanticObligation (o : SemanticObligation) : CandidateGenerationObligation :=
  ⟨o.obligationId, o.kind, o.sourceSpanIds, o.normalizedFragment⟩

def payload (o : CandidateGenerationObligation) : Json :=
  .dict (JsonDict.of [("obligation_id", .str o.obligationId), ("kind", .text o.kind.value),
    ("source_span_ids", textsJson (o.sourceSpanIds.map (·.value))), ("normalized_fragment", .str o.normalizedFragment)])

end CandidateGenerationObligation

structure CandidateGenerationEnvelope where
  taskKind : TaskKind
  declarationName : String
  namespaceName : String
  leanVersion : String
  mathlibRevision : String
  importsAllowlist : List String
  axiomsAllowlist : List String
  deriving DecidableEq

namespace CandidateGenerationEnvelope

/-- `from_contract` with its `__post_init__`. -/
def fromContract (contract : StatementContract) : Outcome CandidateGenerationEnvelope := do
  let envelope : CandidateGenerationEnvelope := {
    taskKind := contract.taskKind
    declarationName := contract.formal.declarationName.value
    namespaceName := contract.formal.namespaceName.value
    leanVersion := contract.formal.environment.leanVersion.value
    mathlibRevision := contract.formal.environment.mathlibRevision.value
    importsAllowlist := contract.formal.importsAllowlist
    axiomsAllowlist := contract.formal.axiomsAllowlist }
  [("declaration_name", envelope.declarationName), ("namespace", envelope.namespaceName), ("lean_version", envelope.leanVersion),
    ("mathlib_revision", envelope.mathlibRevision)].forM fun field =>
      require (Trimmed (.of field.2)) ("candidate-generation " ++ field.1 ++ " must be trimmed text")
  pure envelope

def payload (e : CandidateGenerationEnvelope) : Json :=
  .dict (JsonDict.of [("task_kind", .text e.taskKind.value), ("declaration_name", .text e.declarationName),
    ("namespace", .text e.namespaceName), ("lean_version", .text e.leanVersion), ("mathlib_revision", .text e.mathlibRevision),
    ("imports_allowlist", textsJson e.importsAllowlist), ("axioms_allowlist", textsJson e.axiomsAllowlist),
    ("rendering_profile", .text "autolean.full-declaration-canonical-type.v1")])

end CandidateGenerationEnvelope

structure CandidateGenerationTask where
  sourceSpans : List SourceClaimSpan
  mathematics : MathematicalSpecification
  formalization : CandidateGenerationEnvelope
  obligations : List CandidateGenerationObligation
  deriving DecidableEq

namespace CandidateGenerationTask

/-- `__post_init__`. -/
def postInit (task : CandidateGenerationTask) : Outcome Unit := do
  require (task.sourceSpans ≠ []) "candidate generation requires at least one source span"
  require (task.obligations ≠ []) "candidate generation requires semantic obligations"
  require (task.obligations.map (·.obligationId)).Nodup "candidate-generation obligation identifiers must be unique"
  require (∀ o ∈ task.obligations, ∀ spanId ∈ o.sourceSpanIds, spanId ∈ task.sourceSpans.map (·.spanId))
    "candidate-generation obligation cites an unknown source span"
  require (∀ o ∈ task.obligations, o.normalizedFragment <:+: PyText.of task.mathematics.normalizedStatement.value)
    "candidate-generation obligation is absent from the normalized statement"

def fromContract (contract : StatementContract) (task : TranslationTask) : Outcome CandidateGenerationTask := do
  let formalization ← CandidateGenerationEnvelope.fromContract contract
  let generation : CandidateGenerationTask :=
    ⟨task.sourceSpans, contract.mathematics, formalization,
      task.obligations.map CandidateGenerationObligation.fromSemanticObligation⟩
  generation.postInit
  pure generation

def payload (task : CandidateGenerationTask) : JsonFields :=
  JsonDict.of [("source_spans", .list (task.sourceSpans.map SourceClaimSpan.payload)), ("mathematics", task.mathematics.json),
    ("formalization", task.formalization.payload),
      ("obligations", .list (task.obligations.map CandidateGenerationObligation.payload))]

def contentHash (runtime : Runtime) (task : CandidateGenerationTask) : Digest :=
    (runtime.digestPayload .prompt task.payload).digest

end CandidateGenerationTask

/-! Candidates -/

structure CandidateProposal where
  candidateId : PyText
  leanStatementSource : PyText
  reverseRendering : PyText
  coveredObligationIds : List PyText
  texts_present : ¬ candidateId.Blank ∧ ¬ leanStatementSource.Blank ∧ ¬ reverseRendering.Blank
  covers : coveredObligationIds ≠ []

structure CandidateFormalization where
  candidateId : PyText
  actorId : PyText
  independenceGroup : PyText
  contractId : StableIdentifier
  revision : Int
  draftContractHash : Digest
  sourceHash : Digest
  normalizedStatementSha256 : Digest
  generationTaskHash : Digest
  leanStatementSource : PyText
  reverseRendering : PyText
  coveredObligationIds : List PyText

namespace CandidateFormalization

def payload (c : CandidateFormalization) : JsonFields :=
  JsonDict.of [("candidate_id", .str c.candidateId), ("actor_id", .str c.actorId),
    ("independence_group", .str c.independenceGroup),
    ("contract_id", .text c.contractId.value), ("revision", .int c.revision),
    ("draft_contract_hash", KindedDigest.dump ⟨.contract, c.draftContractHash⟩),
    ("source_hash", KindedDigest.dump ⟨.sourceBytes, c.sourceHash⟩),
    ("normalized_statement_sha256", .text c.normalizedStatementSha256.value),
    ("generation_task_hash", KindedDigest.dump ⟨.prompt, c.generationTaskHash⟩),
      ("lean_statement_source", .str c.leanStatementSource),
    ("reverse_rendering", .str c.reverseRendering), ("covered_obligation_ids", .list (c.coveredObligationIds.map .str))]

def statementHash (runtime : Runtime) (c : CandidateFormalization) : Outcome Digest := runtime.sha256Encoded c.leanStatementSource

def evidenceHash (runtime : Runtime) (c : CandidateFormalization) : Digest :=
    (runtime.digestPayload .freezeEvidence c.payload).digest

end CandidateFormalization

structure TranslationAgent where
  actorId : PyText
  independenceGroup : PyText
  translate : CandidateGenerationTask → CandidateProposal

/-- `_validated_role_identity`. -/
def validatedRoleIdentity (value : PyText) (role field : String) : Outcome Unit :=
  require (Trimmed value) (role ++ " " ++ field ++ " must be trimmed text")

/-- `_register_translation_agents`. -/
def registerTranslationAgents (agents : List TranslationAgent) : Outcome Unit := do
  require (2 ≤ agents.length) "at least two translation agents are required"
  agents.forM fun agent => do
    validatedRoleIdentity agent.actorId "translation agent" "actor_id"
    validatedRoleIdentity agent.independenceGroup "translation agent" "independence_group"
  require (agents.map (·.actorId)).Nodup "translation agents must have distinct actor identities"
  require (2 ≤ (agents.map (·.independenceGroup)).toFinset.card) "translation agents require two independence groups"

/-- `_bind_candidate_proposal`; the checks of the candidate hold for registered agents. -/
def bindCandidateProposal (runtime : Runtime) (task : TranslationTask) (generation : CandidateGenerationTask)
    (agent : TranslationAgent) : CandidateFormalization :=
  let proposal := agent.translate generation
  { candidateId := proposal.candidateId
    actorId := agent.actorId
    independenceGroup := agent.independenceGroup
    contractId := task.contractId
    revision := task.revision
    draftContractHash := task.draftContractHash
    sourceHash := task.sourceHash
    normalizedStatementSha256 := task.normalizedStatementSha256
    generationTaskHash := generation.contentHash runtime
    leanStatementSource := proposal.leanStatementSource
    reverseRendering := proposal.reverseRendering
    coveredObligationIds := proposal.coveredObligationIds }

/-! The canonical type gate -/

structure CanonicalTypeGateBinding where
  contractId : String
  revision : Int
  draftContractHash : Digest
  sourceHash : Digest
  generationTaskHash : Digest
  selectedStatementHash : Digest
  environmentHash : Digest
  declaration : String
  leanVersion : String
  mathlibRevision : String
  lakeManifestSha256 : Option String
  workerImageDigest : String
  expectedElaboratedType : String
  expectedElaboratedTypeHash : Digest

structure CanonicalTypeQueryRequest where
  subjectId : PyText
  statementSource : PyText
  statementSourceHash : Digest
  declaration : String
  namespaceName : String
  importsAllowlist : List String

/-- `__post_init__`. -/
def CanonicalTypeQueryRequest.postInit (runtime : Runtime) (r : CanonicalTypeQueryRequest) : Outcome Unit := do
  [("subject_id", r.subjectId), ("statement_source", r.statementSource), ("declaration", PyText.of r.declaration),
    ("namespace", PyText.of r.namespaceName)].forM fun field =>
      ensure (Trimmed field.2) (.canonicalTypeGateError (.of ("canonical query " ++ field.1 ++ " must be trimmed text")))
  let statementHash ← runtime.sha256Encoded r.statementSource
  ensure (r.statementSourceHash = statementHash)
    (.canonicalTypeGateError (.of "canonical query statement source differs from its bound hash"))

/-- The gate with its query: `run_canonical_type_gate`, `CanonicalTypeGateEvidence.assert_binds` and
`automatic_evidence`. -/
structure CanonicalTypeGate where
  Evidence : Type
  run : CanonicalTypeGateBinding → CanonicalTypeQueryRequest → List CanonicalTypeQueryRequest → Outcome Evidence
  assertBinds : Evidence → CanonicalTypeGateBinding → CanonicalTypeQueryRequest → List CanonicalTypeQueryRequest → Outcome Unit
  automaticEvidence : Evidence → PyText
  /-- The last statement of `run` is this check. -/
  run_binds : ∀ binding reference candidates evidence, run binding reference candidates = .ok evidence →
    assertBinds evidence binding reference candidates = .ok ()

/-- `_canonical_type_gate_inputs`. -/
def canonicalTypeGateInputs (runtime : Runtime) (contract : StatementContract) (task : TranslationTask)
    (generation : CandidateGenerationTask)
    (candidates : List CandidateFormalization) :
    Outcome (CanonicalTypeGateBinding × CanonicalTypeQueryRequest × List CanonicalTypeQueryRequest) :=
  match contract.formal.elaborated with
  | none => .error (.fidelityHarnessError (.of "canonical type gate requires a contract-bound elaborated type"))
  | some (elaboratedType, elaboratedTypeHash) => do
    let environment := contract.formal.environment
    let declaration := contract.formal.namespaceName.value ++ "." ++ contract.formal.declarationName.value
    let request (subjectId source : PyText) (hash : Digest) : Outcome CanonicalTypeQueryRequest := do
      let r : CanonicalTypeQueryRequest :=
        ⟨subjectId, source, hash, declaration, contract.formal.namespaceName.value, contract.formal.importsAllowlist⟩
      r.postInit runtime
      pure r
    let reference ← request (.of "contract-selected-reference") (.of task.selectedLeanStatement) task.selectedStatementHash
    let requests ← candidates.mapM fun c => do request c.candidateId c.leanStatementSource (← c.statementHash runtime)
    pure ({
      contractId := task.contractId.value
      revision := task.revision
      draftContractHash := task.draftContractHash
      sourceHash := task.sourceHash
      generationTaskHash := generation.contentHash runtime
      selectedStatementHash := task.selectedStatementHash
      environmentHash := environment.environmentHash
      declaration
      leanVersion := environment.leanVersion.value
      mathlibRevision := environment.mathlibRevision.value
      lakeManifestSha256 := environment.lakeManifestHash.map (·.value)
      workerImageDigest := environment.verifierExecutionPolicy.workerImageDigest.value
      expectedElaboratedType := elaboratedType
      expectedElaboratedTypeHash := elaboratedTypeHash }, reference, requests)

end Autolean.Builder.Fidelity
