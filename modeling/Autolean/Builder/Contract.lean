import Autolean.Contracts.Authorization
import Autolean.Machine.Raising
import Autolean.Text.Fields
import Autolean.Text.JsonPrinter

/-! The statement contract as the Builder reviews it, and the fidelity report attached to it. -/
namespace Autolean.Builder
open Contracts Machine Text

/-- What the Builder can raise. -/
inductive BuilderError where
  | fidelityHarnessError (message : PyText)
  | canonicalTypeGateError (message : PyText)
  | validationError (message : String)
  | unicodeEncodeError
  | keyError
  deriving DecidableEq

abbrev Outcome := Except BuilderError

/-- `value.strip() and value == value.strip()`. -/
def Trimmed (value : PyText) : Prop := ¬ value.Blank ∧ value.strip = value

instance (value : PyText) : Decidable (Trimmed value) := inferInstanceAs (Decidable (_ ∧ _))

/-- `fragment in text`. -/
def Occurs (fragment text : String) : Prop := fragment.toList <:+: text.toList

instance (fragment text : String) : Decidable (Occurs fragment text) := inferInstanceAs (Decidable (_ <:+: _))

/-! The fidelity report -/

inductive Decision where
  | accept
  | reject
  | requestChanges
  deriving DecidableEq

def Decision.value : Decision → String
  | accept => "accept"
  | reject => "reject"
  | requestChanges => "request_changes"

inductive FidelityRisk where
  | l0Reuse
  | l1Simple
  | l2ReusableApi
  | l3Research
  deriving DecidableEq

inductive FidelityCheckKind where
  | sourcePreservation
  | reverseRender
  | independentTranslation
  | positiveExample
  | negativeExample
  | nonVacuity
  | establishedEquivalence
  | apiReview
  deriving DecidableEq

def FidelityCheckKind.value : FidelityCheckKind → String
  | sourcePreservation => "source_preservation"
  | reverseRender => "reverse_render"
  | independentTranslation => "independent_translation"
  | positiveExample => "positive_example"
  | negativeExample => "negative_example"
  | nonVacuity => "non_vacuity"
  | establishedEquivalence => "established_equivalence"
  | apiReview => "api_review"

structure FidelityCheck where
  checkId : StableIdentifier
  kind : FidelityCheckKind
  passed : Bool
  evidence : String
  reviewerId : String
  independent : Bool

inductive MutationKind where
  | dropAssumption
  | swapQuantifiers
  | weakenRelation
  | removeSideCondition
  | dropNonempty
  | dropFinite
  | dropNoetherian
  | reverseParameters
  | changeEqualityNotion
  | totalizationTrap
  | typeclassCoercion
  | vacuity
  deriving DecidableEq

def MutationKind.value : MutationKind → String
  | dropAssumption => "drop_assumption"
  | swapQuantifiers => "swap_quantifiers"
  | weakenRelation => "weaken_relation"
  | removeSideCondition => "remove_side_condition"
  | dropNonempty => "drop_nonempty"
  | dropFinite => "drop_finite"
  | dropNoetherian => "drop_noetherian"
  | reverseParameters => "reverse_parameters"
  | changeEqualityNotion => "change_equality_notion"
  | totalizationTrap => "totalization_trap"
  | typeclassCoercion => "typeclass_coercion"
  | vacuity => "vacuity"

structure MutationProbe where
  probeId : StableIdentifier
  kind : MutationKind
  targetPath : Text
  expectedFailure : Text
  mutatedStatementSource : Text
  deriving DecidableEq

structure MutationResult where
  probe : MutationProbe
  detected : Bool
  evidence : String
  executedBy : String

inductive ReviewerRole where
  | semanticReviewer
  | domainExpert
  | libraryReviewer
  | independentVerifier
  | integrator
  deriving DecidableEq

def ReviewerRole.value : ReviewerRole → String
  | semanticReviewer => "semantic_reviewer"
  | domainExpert => "domain_expert"
  | libraryReviewer => "library_reviewer"
  | independentVerifier => "independent_verifier"
  | integrator => "integrator"

structure ReviewerSignoff where
  signoffId : StableIdentifier
  reviewerId : String
  role : ReviewerRole
  decision : Decision
  independent : Bool
  rationale : String
  reviewedAt : Datetime
  deriving DecidableEq

structure FidelityReport where
  reportId : StableIdentifier
  evidenceHash : Digest
  riskLevel : FidelityRisk
  checks : List FidelityCheck
  mutationResults : List MutationResult
  signoffs : List ReviewerSignoff
  generatedAt : Datetime

/-! The statement contract -/

inductive TaskKind where
  | knownTheorem
  | libraryGap
  | proofReconstruction
  | openConjecture
  deriving DecidableEq

def TaskKind.value : TaskKind → String
  | knownTheorem => "known_theorem"
  | libraryGap => "library_gap"
  | proofReconstruction => "proof_reconstruction"
  | openConjecture => "open_conjecture"

inductive ReleaseTier where
  | calibration
  | sandbox
  | downstream
  | upstreamCandidate
  | conjectureQuarantine
  deriving DecidableEq

inductive StatementStatus where
  | draft
  | underReview
  | frozen
  | superseded
  deriving DecidableEq

structure SourceSpan where
  spanId : StableIdentifier
  locator : Text
  contentHash : Digest
  permittedExcerpt : Option String

structure SourceRecord where
  sourceId : StableIdentifier
  contentHash : Digest
  spans : List SourceSpan
  remaining : JsonObject
  spans_distinct : (spans.map (·.spanId)).Nodup

inductive AmbiguitySeverity where
  | informational
  | blocking
  deriving DecidableEq

def AmbiguitySeverity.value : AmbiguitySeverity → String
  | informational => "informational"
  | blocking => "blocking"

/-- The resolution and its author are present together or not at all. -/
structure Ambiguity where
  ambiguityId : StableIdentifier
  description : Text
  severity : AmbiguitySeverity
  resolution : Option (String × String)
  deriving DecidableEq

structure MathematicalSpecification where
  informalStatement : Text
  normalizedStatement : Text
  assumptions : List String
  quantifierOrder : List String
  notationContext : List String
  definitions : List String
  equalityNotions : List String
  edgeCases : List String
  ambiguities : List Ambiguity
  deriving DecidableEq

/-- The elaborated type and its hash are present together or not at all. -/
structure FormalSpecification extends Contracts.FormalSpecification where
  declarationName : Text
  namespaceName : Text
  leanStatementSource : Text
  statementSourceHash : Digest
  elaborated : Option (String × Digest)
  importsAllowlist : List String

structure AlignmentTarget where
  sourceSpanId : StableIdentifier
  remaining : JsonObject

structure OpenProblemPolicy where
  enabled : Bool
  requiredIndependentVerifiers : Nat
  requiredDomainExpertReviews : Nat
  verifiers_pos : 1 ≤ requiredIndependentVerifiers
  reviews_pos : 1 ≤ requiredDomainExpertReviews

structure TaskPolicy where
  releaseTier : ReleaseTier
  fidelityRisk : FidelityRisk
  openProblem : OpenProblemPolicy
  remaining : JsonObject

/-- What the semantic hash of a contract covers: everything but its status and freeze record. -/
structure ContractSemantics where
  contractId : StableIdentifier
  revision : Int
  taskKind : TaskKind
  source : SourceRecord
  rights : RightsRecord
  mathematics : MathematicalSpecification
  formal : FormalSpecification
  alignments : List AlignmentTarget
  policy : TaskPolicy
  fidelity : Option FidelityReport
  remaining : JsonObject
  revision_pos : 1 ≤ revision
  rights_source : rights.sourceId = source.sourceId
  alignments_known : ∀ a ∈ alignments, a.sourceSpanId ∈ source.spans.map (·.spanId)
  conjecture_quarantined : taskKind = .openConjecture → policy.openProblem.enabled = true ∧
    policy.releaseTier = .conjectureQuarantine ∧ policy.fidelityRisk = .l3Research

structure FreezeRecord where
  contractHash : Digest
  sourceHash : Digest
  sourcePreparation : Option (StableIdentifier × Digest)
  statementSourceHash : Digest
  elaboratedTypeHash : Option Digest
  frozenBy : String
  frozenAt : Datetime

structure StatementContract extends ContractSemantics where
  status : StatementStatus
  freeze : Option FreezeRecord
  frozen_recorded : freeze.isSome = true ↔ status = .frozen

/-! Digests with their kind -/

/-- `HashKindV1`. -/
inductive HashKind where
  | sourceBytes | sourceSpan | sourcePreparation | statementSource | elaboratedType | environment | graphSnapshot | contract
  | proofSource | trustedStatement | workspaceManifest | proofBoundary | bundle | freezeEvidence | verificationReport
  | verificationEvidence | dependencyManifest | verificationCommand | modelExecutionApproval | modelExecutionAuthorization
  | attestationPayload | event | config | prompt | tool
  deriving DecidableEq

def HashKind.value : HashKind → String
  | sourceBytes => "source_bytes"
  | sourceSpan => "source_span"
  | sourcePreparation => "source_preparation"
  | statementSource => "statement_source"
  | elaboratedType => "elaborated_type"
  | environment => "environment"
  | graphSnapshot => "graph_snapshot"
  | contract => "contract"
  | proofSource => "proof_source"
  | trustedStatement => "trusted_statement"
  | workspaceManifest => "workspace_manifest"
  | proofBoundary => "proof_boundary"
  | bundle => "bundle"
  | freezeEvidence => "freeze_evidence"
  | verificationReport => "verification_report"
  | verificationEvidence => "verification_evidence"
  | dependencyManifest => "dependency_manifest"
  | verificationCommand => "verification_command"
  | modelExecutionApproval => "model_execution_approval"
  | modelExecutionAuthorization => "model_execution_authorization"
  | attestationPayload => "attestation_payload"
  | event => "event"
  | config => "config"
  | prompt => "prompt"
  | tool => "tool"

/-- `DigestV1`, with the kind the validators compare. -/
structure KindedDigest where
  kind : HashKind
  digest : Digest
  deriving DecidableEq

/-- `digest.value`. -/
def KindedDigest.value (d : KindedDigest) : String := d.digest.value

/-! JSON -/

/-- JSON before it is encoded; nothing the Builder hashes holds a float. -/
abbrev Json := JsonValue Empty
abbrev JsonFields := JsonDict Empty

/-- `json.dumps(value, ensure_ascii=True, sort_keys=True, separators=(",", ":"))`. -/
def dumps (value : JsonFields) : String := String.ofList (JsonTree.dumps Empty.elim (.dict value))

/-- `model_dump(mode="json")` of a digest. -/
def KindedDigest.dump (d : KindedDigest) : Json := .dict (JsonDict.of
  [("schema_version", .text "1.0"), ("kind", .text d.kind.value), ("algorithm", .text "sha256"), ("value", .text d.value)])

/-! The digests and identifiers the Builder computes -/

/-- SHA-256 and the functions of the standard library that use it. -/
structure Runtime where
  /-- `hashlib.sha256(text.encode("utf-8")).hexdigest()`. -/
  sha256Text : String → Digest
  /-- `stable_identifier`, of a key that has a UTF-8 encoding. -/
  stableIdentifier : String → String → StableIdentifier
  /-- `StatementContractV1.semantic_hash`. -/
  semanticHash : ContractSemantics → Digest
  /-- A point in time as JSON models render it. -/
  isoformat : Datetime → String
  /-- `\w` of `re`, which word boundaries are about. -/
  isWordChar : Char → Bool

namespace Runtime
variable (runtime : Runtime)

def digestText (kind : HashKind) (payload : String) : KindedDigest := ⟨kind, runtime.sha256Text payload⟩

/-- `digest_model` of a payload. -/
def digestPayload (kind : HashKind) (payload : JsonFields) : KindedDigest := runtime.digestText kind (dumps payload)

/-- `hashlib.sha256(text.encode("utf-8")).hexdigest()` of a text that an agent wrote. -/
def sha256Encoded (text : PyText) : Outcome Digest :=
  match asString text with
  | some text => .ok (runtime.sha256Text text)
  | none => .error .unicodeEncodeError

/-- `stable_identifier` of a key that an agent wrote. -/
def identifierOf (space : String) (key : PyText) : Outcome StableIdentifier :=
  match asString key with
  | some text => .ok (runtime.stableIdentifier space text)
  | none => .error .unicodeEncodeError

end Runtime

/-! The JSON of contract values -/

/-- The namespace embedded in the value of an identifier. -/
def namespaceOf (identifier : StableIdentifier) : String :=
  let embedded := identifier.value.toList.drop 16
  String.ofList (embedded.take (embedded.length - 37))

/-- `model_dump(mode="json")` of an identifier. -/
def identifierJson (identifier : StableIdentifier) : Json :=
  .dict (JsonDict.of [("schema_version", .text "1.0"), ("namespace", .text (namespaceOf identifier)),
    ("value", .text identifier.value)])

def textsJson (texts : List String) : Json := .list (texts.map .text)

def optionalTextJson : Option String → Json
  | none => .null
  | some text => .text text

def Ambiguity.json (a : Ambiguity) : Json :=
  .dict (JsonDict.of [("ambiguity_id", identifierJson a.ambiguityId), ("description", .text a.description.value),
    ("severity", .text a.severity.value), ("resolution", optionalTextJson (a.resolution.map (·.1))),
    ("resolved_by", optionalTextJson (a.resolution.map (·.2)))])

/-- `model_dump(mode="json")` of a mathematical specification. -/
def MathematicalSpecification.json (m : MathematicalSpecification) : Json :=
  .dict (JsonDict.of [("informal_statement", .text m.informalStatement.value),
    ("normalized_statement", .text m.normalizedStatement.value),
    ("assumptions", textsJson m.assumptions), ("quantifier_order", textsJson m.quantifierOrder),
    ("notation_context", textsJson m.notationContext), ("definitions", textsJson m.definitions),
    ("equality_notions", textsJson m.equalityNotions), ("edge_cases", textsJson m.edgeCases),
    ("ambiguities", .list (m.ambiguities.map Ambiguity.json))])

def MutationProbe.json (p : MutationProbe) : Json :=
  .dict (JsonDict.of [("probe_id", identifierJson p.probeId), ("kind", .text p.kind.value),
    ("target_path", .text p.targetPath.value),
    ("expected_failure", .text p.expectedFailure.value), ("mutated_statement_source", .text p.mutatedStatementSource.value)])

def ReviewerSignoff.json (runtime : Runtime) (s : ReviewerSignoff) : Json :=
  .dict (JsonDict.of [("signoff_id", identifierJson s.signoffId), ("reviewer_id", .text s.reviewerId),
    ("role", .text s.role.value),
    ("decision", .text s.decision.value), ("independent", .bool s.independent), ("rationale", .text s.rationale),
    ("reviewed_at", .text (runtime.isoformat s.reviewedAt))])

end Autolean.Builder
