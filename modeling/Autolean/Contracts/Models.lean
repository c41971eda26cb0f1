import Autolean.Contracts.Values

/-! The contract models that cross the control plane: the Builder handoff, the Prover's
submissions and the verifier's report. Each keeps the fields the control plane reads;
what it only hashes is kept whole under `remaining`. -/
namespace Autolean.Contracts

inductive AttestationPurpose where
  | builderFreeze
  | verification
  | modelExecution
  deriving DecidableEq

def AttestationPurpose.value : AttestationPurpose → String
  | builderFreeze => "builder_freeze"
  | verification => "verification"
  | modelExecution => "model_execution"

/-- Public metadata of one signed authority decision. -/
structure Attestation where
  purpose : AttestationPurpose
  keyId : String
  issuedAt : Datetime
  expiresAt : Datetime
  nonce : String
  evidenceIdentity : Text
  payloadHash : Digest
  signature : Digest
  keyId_safe : IsKeyId keyId
  nonce_safe : IsAttestationNonce nonce
  expires_after_issue : issuedAt.instant < expiresAt.instant

inductive AxiomProfile where
  | strict
  | mathlib
  | explicitAllowlist
  deriving DecidableEq

def AxiomProfile.value : AxiomProfile → String
  | strict => "strict"
  | mathlib => "mathlib"
  | explicitAllowlist => "explicit_allowlist"

/-! The Builder handoff -/

/-- The two frozen wrapper profiles. Every other field of a policy is a literal of its version. -/
inductive PolicyVersion where
  | v1
  | v2
  deriving DecidableEq

structure OciVerifierExecutionPolicy where
  version : PolicyVersion
  workerImageDigest : ImageDigest

def OciVerifierExecutionPolicy.wrapperProtocol (p : OciVerifierExecutionPolicy) : String :=
  match p.version with
  | .v1 => "autolean.oci-lean-wrapper.v1"
  | .v2 => "autolean.oci-lean-wrapper.v2"

structure LeanEnvironment where
  leanVersion : Text
  mathlibRevision : Text
  verifierExecutionPolicy : OciVerifierExecutionPolicy
  lakeManifestHash : Option Digest
  environmentHash : Digest

/-- The entries of the allowlist carry no length check. -/
structure FormalSpecification where
  environment : LeanEnvironment
  axiomsAllowlist : List String

/-- What the semantic hash of a contract covers: everything but its status and freeze record. -/
structure ContractSemantics where
  contractId : StableIdentifier
  revision : Int
  formal : FormalSpecification
  axiomProfile : AxiomProfile
  fidelityEvidenceHash : Option Digest
  remaining : JsonObject
  revision_pos : 1 ≤ revision

/-- The preparation ID and its hash are present together or not at all. -/
structure FreezeRecord where
  sourcePreparation : Option (StableIdentifier × Digest)
  remaining : JsonObject

structure StatementContract extends ContractSemantics where
  freeze : Option FreezeRecord

structure GraphNode where
  nodeId : StableIdentifier
  kind : Text
  label : Text

structure GraphEdge where
  source : StableIdentifier
  target : StableIdentifier

structure Graph where
  nodes : List GraphNode
  edges : List GraphEdge
  nodes_distinct : (nodes.map (·.nodeId)).Nodup
  edges_known : ∀ e ∈ edges, e.source ∈ nodes.map (·.nodeId) ∧ e.target ∈ nodes.map (·.nodeId)

structure GraphBundle where
  mathematical : Graph
  formal : Graph
  execution : Graph

structure ProofBoundary where
  boundaryHash : Digest
  trustedStatementSource : Text
  trustedStatementHash : Digest
  solverManifestHash : Digest
  expectedDeclaration : Text
  expectedElaboratedTypeHash : Digest

structure FidelityEvidenceArtifactRef where
  digest : Digest
  size : Nat
  size_pos : 0 < size

/-- What the handoff hash of a bundle covers: everything but its attached attestation. -/
structure Handoff where
  bundleId : StableIdentifier
  contract : StatementContract
  graphs : GraphBundle
  proofBoundary : ProofBoundary
  fidelityEvidence : Option FidelityEvidenceArtifactRef
  remaining : JsonObject
  fidelity_bound : fidelityEvidence.map (·.digest) = contract.fidelityEvidenceHash

structure FormalizationTaskBundle extends Handoff where
  builderAttestation : Option Attestation
  attestation_purpose : ∀ a, builderAttestation = some a → a.purpose = .builderFreeze

/-! Prover submissions -/

inductive ActorKind where
  | human
  | model
  | tool
  | service
  deriving DecidableEq

structure ProvenanceTrace where
  actorKind : ActorKind
  provider : Option String
  modelName : Option String

structure AttemptMetrics where
  inputTokens : Nat
  outputTokens : Nat
  cachedInputTokens : Nat
  costUsd : PyFloat
  elapsedMs : Nat

structure ProofSubmission where
  proofId : StableIdentifier
  contractId : StableIdentifier
  revision : Int
  contractHash : Digest
  proofBoundaryHash : Digest
  proofSource : Text
  environmentHash : Digest
  dependencyManifest : List String
  provenance : List ProvenanceTrace
  metrics : AttemptMetrics
  remaining : JsonObject

inductive GapKind where
  | missingDefinition
  | missingLemma
  | badStatement
  | ambiguousSource
  | apiMismatch
  | versionDrift
  | resourceExhausted
  deriving DecidableEq

def GapKind.value : GapKind → String
  | missingDefinition => "missing_definition"
  | missingLemma => "missing_lemma"
  | badStatement => "bad_statement"
  | ambiguousSource => "ambiguous_source"
  | apiMismatch => "api_mismatch"
  | versionDrift => "version_drift"
  | resourceExhausted => "resource_exhausted"

structure GapReport where
  reportId : StableIdentifier
  contractId : StableIdentifier
  revision : Int
  contractHash : Digest
  kind : GapKind
  remaining : JsonObject

structure ContractChangeRequest where
  requestId : StableIdentifier
  contractId : StableIdentifier
  oldRevision : Int
  oldContractHash : Digest
  remaining : JsonObject

/-! Verifier reports -/

structure VerificationEvidence where
  evidenceId : StableIdentifier
  environmentHash : Digest
  workerImageDigest : ImageDigest
  wrapperProtocol : Text
  leanVersion : Text
  mathlibRevision : Text
  lakeManifestHash : Option Digest
  dependencyManifestHash : Digest
  commandPolicyHash : Digest
  commandHash : Digest
  evidenceArtifactDigest : Digest
  capturedAt : Datetime

/-- What the hash of a report covers: everything but the attached attestation. -/
structure VerificationObservation where
  reportId : StableIdentifier
  proofId : StableIdentifier
  contractHash : Digest
  proofBoundaryHash : Digest
  verifierId : Text
  independent : Bool
  kernelPassed : Bool
  buildPassed : Bool
  dependencyCheckPassed : Bool
  cleanEnvironment : Bool
  environmentHash : Digest
  axiomProfile : AxiomProfile
  observedAxioms : List String
  details : Text
  verifiedAt : Datetime
  evidence : Option VerificationEvidence

structure VerificationReport extends VerificationObservation where
  verifierAttestation : Option Attestation
  attestation_purpose : ∀ a, verifierAttestation = some a → a.purpose = .verification

structure VerificationArtifactEnvironment where
  environmentHash : Digest
  leanVersion : Text
  mathlibRevision : Text
  lakeManifestHash : Option Digest

/-- The lease and verifier identity of one authoritative run. -/
structure OciExecutionAuthority where
  workerId : String
  fencingToken : Nat
  expiresAt : Datetime

/-- The sanitized OCI facts. Version 2 of the artifact adds the execution authority. -/
structure OciVerificationArtifact where
  workerImageDigest : ImageDigest
  wrapperProtocol : Text
  commandPolicyHash : Digest
  commandHash : Digest
  candidateSha256 : Digest
  trustedStatementSha256 : Digest
  bundleManifestSha256 : Digest
  executionAuthority : Option OciExecutionAuthority

structure VerificationEvidenceArtifact where
  evidenceId : StableIdentifier
  bundleId : StableIdentifier
  bundleHash : Digest
  contractId : StableIdentifier
  revision : Int
  contractHash : Digest
  proofId : StableIdentifier
  proofBoundaryHash : Digest
  proofSubmissionArtifactDigest : Digest
  dependencyManifestHash : Digest
  verificationReportId : StableIdentifier
  verificationObservationHash : Digest
  environment : VerificationArtifactEnvironment
  oci : OciVerificationArtifact
  remaining : JsonObject

/-! The verifier signing gateway -/

/-- The lease a signature is requested through, as JSON shows its expiry. -/
structure VerificationSigningLeaseBinding where
  bundleId : StableIdentifier
  workerId : String
  fencingToken : Nat
  expiresAt : Datetime
  workerId_safe : IsSafeId workerId
  token_pos : 0 < fencingToken

/-- The public facts the verifier authority attests. -/
structure VerificationSigningContext where
  bundleId : StableIdentifier
  bundleHash : Digest
  proofId : StableIdentifier
  proofSubmissionArtifactDigest : Digest
  contractId : StableIdentifier
  revision : Int
  contractHash : Digest
  proofBoundaryHash : Digest
  environmentHash : Digest
  dependencyManifestHash : Digest
  reportId : StableIdentifier
  verificationReportHash : Digest
  verifierId : String
  evidenceIdentity : StableIdentifier
  verificationEvidenceHash : Digest
  evidenceArtifactDigest : Digest
  revision_pos : 1 ≤ revision
  verifierId_safe : IsSafeId verifierId

/-! Stored artifacts and signed payloads -/

/-- Why bytes are not the canonical JSON of an object. -/
inductive JsonDefect where
  | notStrict
  | notObject
  | notCanonical

/-- The content of a blob: the canonical JSON of one of the models or of another object, or
bytes that are neither. -/
inductive Artifact where
  | bundle (b : FormalizationTaskBundle)
  | proofSubmission (s : ProofSubmission)
  | gapReport (g : GapReport)
  | contractChangeRequest (c : ContractChangeRequest)
  | verificationReport (r : VerificationReport)
  | verificationEvidence (e : VerificationEvidenceArtifact)
  | json (fields : JsonObject)
  | other (content : List UInt8) (defect : JsonDefect)

/-- The payloads an authority signs, with every text as it stands in their JSON. -/
inductive AttestationPayload where
  | builderFreeze (bundleId bundleHash contractId : String) (revision : Int)
      (contractHash proofBoundaryHash environmentHash freezeEvidenceHash : String)
  | verification (bundleId bundleHash proofId proofSubmissionArtifactDigest contractId : String) (revision : Int)
      (contractHash proofBoundaryHash environmentHash verificationReportHash verifierId : String)
      (verificationEvidenceHash : Option String)
  | verificationGateway (bundleId workerId : String) (fencingToken : Nat) (expiresAt : String)
      (context : VerificationSigningContext)

end Autolean.Contracts
