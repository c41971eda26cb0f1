import Autolean.ControlPlane.Service

/-! `verify_submission`: the chain of checks between a verifier's report and the terminal
verdict on a proof. -/
namespace Autolean.ControlPlane
open Contracts Machine Raising

structure VerificationOutcome where
  accepted : Bool
  reasons : List String
  event : StoredEvent

def invalid {α : Type} (message : String) : Raises α := .error (.invalidTransition message)

/-- The first check of a list that fails, as its transition error. -/
def firstFailure : List (Bool × String) → Raises Unit
  | [] => .ok ()
  | (passed, message) :: rest => if passed then firstFailure rest else invalid message

/-- A key that, when present, must hold one fixed text. -/
def fixedText (payload : JsonObject) (key expected message : String) : Raises Unit :=
  match payload.get key with
  | none => .ok ()
  | some value => ensure (value = .str expected) (.invalidTransition message)

def verificationOutcomeFromEvent (event : StoredEvent) : Raises VerificationOutcome :=
  match event.payload.get "accepted" with
  | some (.bool accepted) => do
    let reasons ← requiredTexts event.payload "reasons"
    fixedText event.payload "promotion_state" "not_a_promotion"
      "local verification event claims promotion authority"
    fixedText event.payload "execution_authority_class" "test-only-local"
      "local verification event claims a production authority"
    pure ⟨accepted, reasons, event⟩
  | _ => invalid "corrupt verification event acceptance flag"

def submittedProof (proofId : String) (events : List StoredEvent) : Raises StoredEvent :=
  match events.find? fun e => e.eventType = "proof.submitted" with
  | none => .error (.taskNotFound ("proof '" ++ proofId ++ "' has not been submitted"))
  | some event => .ok event

/-- `_proof_event`. -/
def proofEvent (proofId : String) : Call StoredEvent := do
  let events ← issue (.readStream "proof" proofId)
  raising (submittedProof proofId events)

def validateVerificationBinding (binding : TaskBinding) (report : VerificationReport) (proof : JsonObject) :
    Raises Unit := do
  let contractHash ← requiredText proof "contract_hash"
  ensure (contractHash = report.contractHash.value)
    (.invalidTransition "verification report does not bind the submitted proof contract")
  let boundaryHash ← requiredText proof "proof_boundary_hash"
  ensure (boundaryHash = report.proofBoundaryHash.value)
    (.invalidTransition "verification report does not bind the submitted proof boundary")
  ensure (report.contractHash.value = binding.contractHash)
    (.invalidTransition "verification report does not bind the frozen bundle")
  ensure (report.proofBoundaryHash.value = binding.proofBoundaryHash)
    (.invalidTransition "verification report does not bind the frozen proof boundary")
  ensure (report.environmentHash.value = binding.environmentHash)
    (.invalidTransition "verification ran in a different environment")
  ensure (report.axiomProfile.value = binding.axiomProfile)
    (.invalidTransition "verification used a different axiom profile")

/-- `set(report.observed_axioms) - binding.axioms_allowlist`, sorted. -/
def unapprovedAxioms (binding : TaskBinding) (report : VerificationObservation) : List String :=
  frozenset (report.observedAxioms.filter fun a => a ∉ binding.axiomsAllowlist)

/-- Why a report is rejected; an empty list accepts it. -/
def verificationFailures (binding : TaskBinding) (report : VerificationObservation) : List String :=
  (if report.independent then [] else ["verification report is not independent"]) ++
  (if report.kernelPassed then [] else ["Lean kernel verification failed"]) ++
  (if report.buildPassed then [] else ["clean build failed"]) ++
  (if report.dependencyCheckPassed then [] else ["dependency boundary check failed"]) ++
  (if report.cleanEnvironment then [] else ["verification did not use a clean environment"]) ++
  (if "sorryAx" ∈ report.observedAxioms then ["sorryAx is prohibited"] else []) ++
  (if unapprovedAxioms binding report = [] then []
    else ["unapproved axioms: " ++ ", ".intercalate (unapprovedAxioms binding report)]) ++
  (if binding.axiomProfile = AxiomProfile.strict.value ∧ report.observedAxioms ≠ [] then
    ["strict axiom profile permits no observed axioms"] else [])

/-! The attestation and the evidence it names -/

def validateVerificationEvidence (binding : TaskBinding) (report : VerificationReport) (evidence : VerificationEvidence)
    (dependencyHash : String) : Raises Unit :=
  firstFailure [
    (evidence.environmentHash.value = binding.environmentHash, "verification evidence has a different environment hash"),
    (evidence.environmentHash = report.environmentHash, "verification evidence does not bind the reported environment"),
    (evidence.leanVersion.value = binding.leanVersion, "verification evidence has a different Lean version"),
    (evidence.mathlibRevision.value = binding.mathlibRevision, "verification evidence has a different mathlib revision"),
    (evidence.lakeManifestHash.map (·.value) = binding.lakeManifestHash,
      "verification evidence has a different Lake manifest"),
    (evidence.dependencyManifestHash.value = dependencyHash,
      "verification evidence has a different dependency manifest"),
    (evidence.workerImageDigest.value = binding.workerImageDigest, "verification evidence has a different worker image"),
    (evidence.wrapperProtocol.value = binding.wrapperProtocol, "verification evidence has a different wrapper protocol"),
    (evidence.commandPolicyHash.value = binding.commandPolicyHash,
      "verification evidence has a different command policy")]

def stableIdentifier (value : String) : Raises StableIdentifier :=
  if h : IsStableIdentifier value then .ok ⟨value, h⟩
  else invalid "stored task binding has an invalid stable identifier"

def sha256Digest (value : String) : Raises Digest :=
  if h : IsSha256 value then .ok ⟨value, h⟩ else .error (.valueError "value is not a SHA-256 digest")

/-- The context a gateway attestation must cover, rebuilt from what the control plane stores. -/
def gatewayContext (svc : Service) (binding : TaskBinding) (report : VerificationReport) (evidence : VerificationEvidence)
    (proofArtifactDigest : String) : Raises VerificationSigningContext := do
  let bundleId ← stableIdentifier binding.bundleId
  let bundleHash ← sha256Digest binding.bundleHash
  let contractId ← stableIdentifier binding.contractId
  let proofDigest ← sha256Digest proofArtifactDigest
  if hr : 1 ≤ binding.revision then
    if hv : IsSafeId report.verifierId.value then
      .ok {
        bundleId := bundleId, bundleHash := bundleHash, proofId := report.proofId
        proofSubmissionArtifactDigest := proofDigest, contractId := contractId, revision := binding.revision
        contractHash := report.contractHash, proofBoundaryHash := report.proofBoundaryHash
        environmentHash := report.environmentHash, dependencyManifestHash := evidence.dependencyManifestHash
        reportId := report.reportId, verificationReportHash := svc.hashing.reportHash report.toVerificationObservation
        verifierId := report.verifierId.value, evidenceIdentity := evidence.evidenceId
        verificationEvidenceHash := svc.hashing.evidenceHash evidence
        evidenceArtifactDigest := evidence.evidenceArtifactDigest, revision_pos := hr, verifierId_safe := hv }
    else .error (.valueError "verification signing verifier_id is not a safe identifier")
  else .error (.valueError "revision must be greater than or equal to 1")

/-- The lease a gateway attestation must be bound to. -/
def gatewayLease (bundleId : StableIdentifier) (lease : Lease) : Raises VerificationSigningLeaseBinding :=
  if h : IsSafeId lease.holderId then .ok ⟨bundleId, lease.holderId, lease.fencingToken, lease.expiresAt, h, lease.token_pos⟩
  else .error (.valueError "verification signing worker_id is not a safe identifier")

/-- `verification_gateway_attestation_payload`. -/
def gatewayAttestationPayload (svc : Service) (lease : VerificationSigningLeaseBinding)
    (context : VerificationSigningContext) : AttestationPayload :=
  .verificationGateway lease.bundleId.value lease.workerId lease.fencingToken (svc.jsonText lease.expiresAt) context

/-- Whether the verifier accepts the attestation; only its refusal is handled. -/
def attested (attestation : Attestation) (payload : AttestationPayload) : Call Bool :=
  tryCatch (do verifyAttestation attestation .verification payload; pure true) fun
    | .attestationError _ => pure false
    | e => throw e

/-- The signature covers the lease-bound payload, or the direct one where that is allowed. -/
def verifySignature (svc : Service) (binding : TaskBinding) (report : VerificationReport) (attestation : Attestation)
    (context : VerificationSigningContext) (gateway : VerificationSigningLeaseBinding) (lease : Lease) : Call Bool := do
  if ← attested attestation (gatewayAttestationPayload svc gateway context) then
    raising (ensure (attestation.expiresAt.instant ≤ lease.expiresAt.instant)
      (.invalidTransition "verifier gateway attestation outlives its fenced lease"))
    pure true
  else do
    raising (ensure (svc.allowTestOnlyDirectVerifierAttestations = true)
      (.invalidTransition "lease-bound verifier gateway attestation was rejected"))
    tryCatch (verifyAttestation attestation .verification (verificationAttestationPayload svc.hashing binding.bundleId
        binding.bundleHash context.proofSubmissionArtifactDigest binding.contractId binding.revision report))
      (Service.rejectAttestation "verification attestation was rejected")
    pure false

/-- The verifier evidence a blob holds. -/
def evidenceContent : Artifact → Raises VerificationEvidenceArtifact
  | .verificationEvidence artifact => .ok artifact
  | .json fields =>
    if fields.get "schema_version" = some (.str "autolean.verification-evidence-artifact.v1") ∨
        fields.get "schema_version" = some (.str "autolean.verification-evidence-artifact.v2") then
      invalid "verifier evidence artifact has an invalid schema"
    else invalid "verifier evidence artifact has an unsupported schema"
  | _ => invalid "verifier evidence artifact has an unsupported schema"

/-- `_read_verification_evidence_artifact`: the blob is read once for its content and once
more for its canonical bytes. -/
def readVerificationEvidenceArtifact (digest : String) : Call VerificationEvidenceArtifact := do
  let content ← Service.readCanonicalJsonArtifact digest "verifier evidence"
  let artifact ← raising (evidenceContent content)
  let _ ← tryCatch (getArtifact digest)
    (Service.rejectArtifact "verifier evidence artifact is unavailable or corrupt")
  pure artifact

/-- The execution authority of a version 2 artifact names the lease. -/
def validateExecutionAuthority (requireAuthoritative : Bool) (lease : Lease) : Option OciExecutionAuthority → Raises Unit
  | none => ensure (requireAuthoritative = false)
      (.invalidTransition "gateway-attested verification requires lease-bound V2 execution evidence")
  | some authority => ensure (authority.workerId = lease.holderId ∧ authority.fencingToken = lease.fencingToken ∧
      authority.expiresAt.instant = lease.expiresAt.instant)
      (.invalidTransition "verifier evidence artifact has a different execution lease")

/-- The report without its evidence and its attestation. -/
def unsignedObservation (report : VerificationObservation) : VerificationObservation := { report with evidence := none }

def validateEvidenceFields (svc : Service) (binding : TaskBinding) (report : VerificationReport)
    (evidence : VerificationEvidence) (proofDigest dependencyHash : String) (artifact : VerificationEvidenceArtifact) :
    Raises Unit :=
  firstFailure [
    (artifact.evidenceId = evidence.evidenceId, "verifier evidence artifact has a different evidence identity"),
    (artifact.bundleId.value = binding.bundleId, "verifier evidence artifact has a different bundle ID"),
    (artifact.bundleHash.value = binding.bundleHash, "verifier evidence artifact has a different bundle hash"),
    (artifact.contractId.value = binding.contractId, "verifier evidence artifact has a different contract ID"),
    (artifact.revision = binding.revision, "verifier evidence artifact has a different contract revision"),
    (artifact.contractHash.value = binding.contractHash, "verifier evidence artifact has a different contract hash"),
    (artifact.proofId = report.proofId, "verifier evidence artifact has a different proof ID"),
    (artifact.proofBoundaryHash = report.proofBoundaryHash, "verifier evidence artifact has a different proof boundary"),
    (artifact.proofSubmissionArtifactDigest.value = proofDigest,
      "verifier evidence artifact has a different submitted proof artifact"),
    (artifact.dependencyManifestHash.value = dependencyHash,
      "verifier evidence artifact has a different dependency manifest"),
    (artifact.verificationReportId = report.reportId,
      "verifier evidence artifact has a different verification report"),
    (artifact.environment.environmentHash = evidence.environmentHash,
      "verifier evidence artifact has a different environment hash"),
    (artifact.environment.leanVersion = evidence.leanVersion,
      "verifier evidence artifact has a different Lean version"),
    (artifact.environment.mathlibRevision = evidence.mathlibRevision,
      "verifier evidence artifact has a different mathlib revision"),
    (artifact.environment.lakeManifestHash = evidence.lakeManifestHash,
      "verifier evidence artifact has a different Lake manifest"),
    (artifact.oci.workerImageDigest = evidence.workerImageDigest,
      "verifier evidence artifact has a different worker image"),
    (artifact.oci.wrapperProtocol = evidence.wrapperProtocol,
      "verifier evidence artifact has a different wrapper protocol"),
    (artifact.oci.commandPolicyHash = evidence.commandPolicyHash,
      "verifier evidence artifact has a different command policy"),
    (artifact.oci.commandHash = evidence.commandHash,
      "verifier evidence artifact has a different invocation command hash"),
    (artifact.verificationObservationHash =
        svc.hashing.reportHash (unsignedObservation report.toVerificationObservation),
      "verifier evidence artifact does not bind the unsigned verification observation"),
    (artifact.oci.workerImageDigest.value = binding.workerImageDigest,
      "verifier evidence artifact has an unapproved worker image"),
    (artifact.oci.wrapperProtocol.value = binding.wrapperProtocol,
      "verifier evidence artifact has an unapproved wrapper protocol"),
    (artifact.oci.commandPolicyHash.value = binding.commandPolicyHash,
      "verifier evidence artifact has an unapproved command policy")]

/-- The bytes the verifier compiled, as the stored bundle and proof determine them. -/
def candidateText (boundary : ProofBoundary) (submission : ProofSubmission) : String :=
  boundary.trustedStatementSource.value ++ " := " ++ rstrip submission.proofSource.value ++ "\n\n#print axioms " ++
    boundary.expectedDeclaration.value ++ "\n"

/-- The stored bundle and proof are the ones the binding and the report name. -/
def validateStoredModels (svc : Service) (binding : TaskBinding) (report : VerificationReport)
    (artifact : VerificationEvidenceArtifact) : Artifact → Artifact → Raises Unit
  | .bundle bundle, .proofSubmission submission =>
    firstFailure [
      (bundle.bundleId.value = binding.bundleId ∧ (svc.hashing.handoffHash bundle.toHandoff).value = binding.bundleHash ∧
        (svc.hashing.semanticHash bundle.contract.toContractSemantics).value = binding.contractHash ∧
        bundle.proofBoundary.boundaryHash.value = binding.proofBoundaryHash,
        "stored frozen bundle does not match its registered binding"),
      (submission.proofId = report.proofId ∧ submission.contractId.value = binding.contractId ∧
        submission.revision = binding.revision ∧ submission.contractHash.value = binding.contractHash ∧
        submission.proofBoundaryHash.value = binding.proofBoundaryHash ∧
        submission.environmentHash.value = binding.environmentHash,
        "stored submitted proof does not match its registered binding"),
      (artifact.oci.candidateSha256 = svc.hashing.sha256Text (candidateText bundle.proofBoundary submission),
        "verifier evidence artifact does not bind the submitted proof bytes"),
      (artifact.oci.trustedStatementSha256 = bundle.proofBoundary.trustedStatementHash,
        "verifier evidence artifact does not bind frozen statement bytes"),
      (artifact.oci.bundleManifestSha256 = bundle.proofBoundary.solverManifestHash,
        "verifier evidence artifact does not bind frozen workspace manifest")]
  | _, _ => invalid "stored frozen bundle or submitted proof is malformed"

def validateVerificationEvidenceArtifact (svc : Service) (binding : TaskBinding) (report : VerificationReport)
    (evidence : VerificationEvidence) (proofDigest dependencyHash : String) (lease : Lease) (requireAuthoritative : Bool)
    (artifact : VerificationEvidenceArtifact) : Call Unit := do
  raising (validateExecutionAuthority requireAuthoritative lease artifact.oci.executionAuthority)
  raising (validateEvidenceFields svc binding report evidence proofDigest dependencyHash artifact)
  let bundle ← Service.readCanonicalJsonArtifact binding.bundleArtifact.digest.value "frozen bundle"
  let submission ← Service.readCanonicalJsonArtifact proofDigest "submitted proof"
  raising (validateStoredModels svc binding report artifact bundle submission)

/-- The attestation and the evidence a report must carry. -/
def requireAttestation (report : VerificationReport) : Raises (Attestation × VerificationEvidence) :=
  match report.verifierAttestation, report.evidence with
  | none, _ => invalid "an independent verifier attestation is required"
  | some _, none => invalid "verifier-owned environment evidence is required"
  | some attestation, some evidence => .ok (attestation, evidence)

/-- The digest of the submitted proof and of its declared dependencies. -/
def proofDigests (proof : JsonObject) : Raises (String × String) := do
  let artifact ← requiredObject proof "proof_artifact"
  let digest ← requiredText artifact "digest"
  let dependencyHash ← requiredText proof "dependency_manifest_hash"
  pure (digest, dependencyHash)

/-- `_verify_verification_attestation`. -/
def verifyVerificationAttestation (svc : Service) (binding : TaskBinding) (report : VerificationReport)
    (proof : JsonObject) (lease : Lease) : Call Attestation := do
  let (attestation, evidence) ← raising (requireAttestation report)
  let (proofDigest, dependencyHash) ← raising (proofDigests proof)
  raising (validateVerificationEvidence binding report evidence dependencyHash)
  raising (ensure (attestation.evidenceIdentity.value = evidence.evidenceId.value)
    (.invalidTransition "verifier attestation does not bind its evidence identity"))
  let context ← raising (gatewayContext svc binding report evidence proofDigest)
  let gateway ← raising (gatewayLease context.bundleId lease)
  let gatewayAttested ← verifySignature svc binding report attestation context gateway lease
  let artifact ← readVerificationEvidenceArtifact evidence.evidenceArtifactDigest.value
  validateVerificationEvidenceArtifact svc binding report evidence proofDigest dependencyHash lease gatewayAttested artifact
  pure attestation

/-! The command -/

def verificationPayload (svc : Service) (bundleId : String) (lease : Lease) (report : VerificationReport)
    (reasons : List String) (attestation : Attestation) (artifact : ArtifactRef) : JsonObject :=
  [("bundle_id", .str bundleId), ("report_id", .str report.reportId.value), ("proof_id", .str report.proofId.value),
    ("contract_hash", .str report.contractHash.value), ("proof_boundary_hash", .str report.proofBoundaryHash.value),
    ("accepted", .bool (reasons = [])), ("reasons", .list (reasons.map .str)),
    ("promotion_state", .str "not_a_promotion"), ("execution_authority_class", .str "test-only-local"),
    ("verifier_attestation", .dict (attestationSummary svc.isoformat attestation)),
    ("verification_artifact", .dict (artifactPayload artifact "verification_report")),
    ("fencing_token", .int lease.fencingToken)]

def verdictType (reasons : List String) : String :=
  if reasons = [] then "verification.accepted" else "verification.rejected"

/-- A used nonce or a second verdict is reported as a rejected transition. -/
def verdictError {α : Type} : ControlPlaneError → Call α
  | .attestationReplay _ | .concurrencyError .. => throw (.invalidTransition
      "verification attestation was replayed or proof already has a terminal verification verdict")
  | e => throw e

namespace Service

/-- `verify_submission` past its replay check. -/
def verifyNew (svc : Service) (bundleId : String) (lease : Lease) (report : VerificationReport)
    (idempotency : Idempotency) : Call VerificationOutcome := do
  let binding ← getBinding bundleId
  assertLease bundleId lease
  let proof ← proofEvent report.proofId.value
  raising (validateVerificationBinding binding report proof.payload)
  let attestation ← verifyVerificationAttestation svc binding report proof.payload lease
  let reasons := verificationFailures binding report.toVerificationObservation
  let artifact ← putModel (.verificationReport report)
  let payload ← raising (jsonObject (verificationPayload svc bundleId lease report reasons attestation artifact))
  let events ← tryCatch
    (issue (.write (fencedWrite "verification" report.proofId.value bundleId lease (verdictType reasons) payload
      idempotency (some (attestationNonce attestation)))))
    verdictError
  let event ← raising (firstEvent events)
  pure ⟨reasons = [], reasons, event⟩

/-- Record a verifier result; it is accepted only if every frozen-boundary check passes. -/
def verifySubmission (svc : Service) (bundleId : String) (lease : Lease) (report : VerificationReport)
    (idempotencyKey : String) : Call VerificationOutcome := do
  let idempotency ← raising
    (svc.idempotency "verify_submission" idempotencyKey (.verifySubmission bundleId lease.identity report))
  match ← replayedEvent idempotency with
  | some replayed => raising (verificationOutcomeFromEvent replayed)
  | none => svc.verifyNew bundleId lease report idempotency

end Service
end Autolean.ControlPlane
