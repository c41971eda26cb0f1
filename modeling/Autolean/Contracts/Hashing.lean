import Autolean.Contracts.Models

/-! The digests of the contract models. SHA-256 over canonical JSON is a parameter of
the development: each function is the digest of one kind of value. -/
namespace Autolean.Contracts

structure Hashing where
  /-- `FormalizationTaskBundleV1.handoff_hash`. -/
  handoffHash : Handoff → Digest
  /-- `StatementContractV1.semantic_hash`. -/
  semanticHash : ContractSemantics → Digest
  freezeEvidenceHash : StatementContract → Digest
  commandPolicyHash : PolicyVersion → Digest
  proofDependencyManifestHash : StableIdentifier → List String → Digest
  /-- `VerificationReportV1.report_hash`. -/
  reportHash : VerificationObservation → Digest
  /-- `VerificationEvidenceV1.evidence_hash`. -/
  evidenceHash : VerificationEvidence → Digest
  attestationPayloadHash : AttestationPurpose → AttestationPayload → Digest
  /-- The digest and the length of the bytes of an artifact. -/
  artifactDigest : Artifact → Digest
  artifactSize : Artifact → Nat
  /-- `hashlib.sha256(text.encode("utf-8")).hexdigest()`. -/
  sha256Text : String → Digest

/-- `builder_attestation_payload`. -/
def builderAttestationPayload (h : Hashing) (bundle : Handoff) : AttestationPayload :=
  .builderFreeze bundle.bundleId.value (h.handoffHash bundle).value bundle.contract.contractId.value
    bundle.contract.revision (h.semanticHash bundle.contract.toContractSemantics).value
    bundle.proofBoundary.boundaryHash.value bundle.contract.formal.environment.environmentHash.value
    (h.freezeEvidenceHash bundle.contract).value

/-- `verification_attestation_payload`. -/
def verificationAttestationPayload (h : Hashing) (bundleId bundleHash : String) (proofSubmissionArtifactDigest : Digest)
    (contractId : String) (revision : Int) (report : VerificationReport) : AttestationPayload :=
  .verification bundleId bundleHash report.proofId.value proofSubmissionArtifactDigest.value contractId revision
    report.contractHash.value report.proofBoundaryHash.value report.environmentHash.value
    (h.reportHash report.toVerificationObservation).value report.verifierId.value
    (report.evidence.map fun e => (h.evidenceHash e).value)

end Autolean.Contracts
