import Autolean.ControlPlane.Commands

/-! Why each event of the log is there. A command may write only what its checks allow
against the log and the blobs of the moment, so every event of a reachable log is the
record of a command that the events before it justify. -/
namespace Autolean.ControlPlane
open Contracts Machine Raising

/-- The log holds a registration of the bundle that reads back as the binding. -/
def Registered (log : List StoredEvent) (bundleId : String) (binding : TaskBinding) : Prop :=
  ∃ e ∈ log, e.entityType = "task" ∧ e.entityId = bundleId ∧ e.eventType = "task.registered" ∧
    bindingFromPayload e.payload = .ok binding

/-- The log holds the submission of the proof. -/
def Submitted (log : List StoredEvent) (proofId : String) (e : StoredEvent) : Prop :=
  e ∈ log ∧ e.entityType = "proof" ∧ e.entityId = proofId ∧ e.eventType = "proof.submitted"

namespace Service
variable (svc : Service)

/-- The review a registration rests on: none for a bundle without a fidelity artifact, or
that of the stored one. -/
def Reviewed (blobs : String → Option Artifact) (bundle : Handoff) : Option CanonicalTypeAssurance → Prop
  | none => bundle.fidelityEvidence = none ∧ svc.allowTestOnlyUnreviewedBundles = true
  | some assurance => ∃ r fields, bundle.fidelityEvidence = some r ∧ blobs r.digest.value = some (.json fields) ∧
      svc.reviewFidelityArtifact bundle fields = .ok assurance

/-- The verifier accepted the attestation over the payload the control plane rebuilt: the
lease-bound one, or the direct one where that is allowed. -/
def Attested (binding : TaskBinding) (report : VerificationReport) (proof : JsonObject) (lease : Lease)
    (attestation : Attestation) : Prop :=
  ∃ now evidence digest dependencyHash context gateway, report.evidence = some evidence ∧
    proofDigests proof = .ok (digest, dependencyHash) ∧ gatewayContext svc binding report evidence digest = .ok context ∧
    gatewayLease context.bundleId lease = .ok gateway ∧
    (svc.verifies now attestation .verification (gatewayAttestationPayload svc gateway context) = true ∨
      svc.allowTestOnlyDirectVerifierAttestations = true ∧
      svc.verifies now attestation .verification (verificationAttestationPayload svc.hashing binding.bundleId
        binding.bundleHash context.proofSubmissionArtifactDigest binding.contractId binding.revision report) = true)

/-- The binding a registration stores. -/
def binding (bundle : FormalizationTaskBundle) (assurance : Option CanonicalTypeAssurance) : TaskBinding :=
  bindingFromBundle svc.hashing bundle.toHandoff assurance (svc.reference (.bundle bundle))

/-! The write of each command -/

def registrationCall (bundle : FormalizationTaskBundle) (assurance : Option CanonicalTypeAssurance)
    (attestation : Attestation) (idempotency : Idempotency) : AppendCall :=
  .registration (svc.revisionBinding bundle.toHandoff)
    ⟨"task.registered", registrationPayload (svc.binding bundle assurance) (attestationSummary svc.isoformat attestation), []⟩
    idempotency (attestationNonce attestation)

def claimCall (bundleId workerId : String) (lease : Lease) (idempotency : Idempotency) (expected : Nat) : AppendCall :=
  .append ⟨"task", bundleId, [⟨"task.claimed", svc.claimPayload workerId lease, []⟩], some idempotency, none⟩ expected

def submitCall (bundleId : String) (lease : Lease) (submission : ProofSubmission) (idempotency : Idempotency) :
    AppendCall :=
  fencedWrite "proof" submission.proofId.value bundleId lease "proof.submitted"
    (svc.proofPayload bundleId lease submission (svc.reference (.proofSubmission submission))) idempotency none

def gapCall (bundleId : String) (lease : Lease) (report : GapReport) (idempotency : Idempotency) : AppendCall :=
  fencedWrite "gap" report.reportId.value bundleId lease "gap.reported"
    (gapPayload bundleId lease report (svc.reference (.gapReport report))) idempotency none

def changeCall (bundleId : String) (lease : Lease) (request : ContractChangeRequest) (idempotency : Idempotency) :
    AppendCall :=
  fencedWrite "contract_change_request" request.requestId.value bundleId lease "contract_change.requested"
    (changePayload bundleId lease request (svc.reference (.contractChangeRequest request))) idempotency none

def verdictCall (bundleId : String) (lease : Lease) (report : VerificationReport) (reasons : List String)
    (attestation : Attestation) (idempotency : Idempotency) : AppendCall :=
  fencedWrite "verification" report.proofId.value bundleId lease (verdictType reasons)
    (verificationPayload svc bundleId lease report reasons attestation (svc.reference (.verificationReport report)))
    idempotency (some (attestationNonce attestation))

/-- What each command may write, against the log and the blobs of the moment. -/
inductive Commits (log : List StoredEvent) (blobs : String → Option Artifact) : Command → AppendCall → Prop
  | registered {bundle : FormalizationTaskBundle} {key : String} {idempotency : Idempotency} {attestation : Attestation}
      {assurance : Option CanonicalTypeAssurance} {now : Instant}
      (keyed : svc.idempotency "register_bundle" key (svc.registerRequest bundle) = .ok idempotency)
      (signed : bundle.builderAttestation = some attestation)
      (accepted : svc.verifies now attestation .builderFreeze
        (builderAttestationPayload svc.hashing bundle.toHandoff) = true)
      (reviewed : svc.Reviewed blobs bundle.toHandoff assurance) :
      Commits log blobs (.registerBundle bundle key) (svc.registrationCall bundle assurance attestation idempotency)
  | claimed {bundleId workerId : String} {ttlSeconds : PyFloat} {key : String} {idempotency : Idempotency}
      {lease : Lease} {expected : Nat} {binding : TaskBinding}
      (keyed : svc.idempotency "claim" key (.claim bundleId workerId ttlSeconds) = .ok idempotency)
      (registered : Registered log bundleId binding) (job : lease.jobId = bundleId) (holder : lease.holderId = workerId) :
      Commits log blobs (.claim bundleId workerId ttlSeconds key) (svc.claimCall bundleId workerId lease idempotency expected)
  | submitted {bundleId : String} {lease : Lease} {submission : ProofSubmission} {key : String}
      {idempotency : Idempotency} {binding : TaskBinding}
      (keyed : svc.idempotency "submit_proof" key (.submitProof bundleId lease.identity submission) = .ok idempotency)
      (registered : Registered log bundleId binding) (bound : validateProofBinding binding submission = .ok ())
      (complete : ¬ svc.hasPlaceholder none submission.proofSource.value.toList = true) :
      Commits log blobs (.submitProof bundleId lease submission key) (svc.submitCall bundleId lease submission idempotency)
  | gap {bundleId : String} {lease : Lease} {report : GapReport} {key : String} {idempotency : Idempotency}
      {binding : TaskBinding}
      (keyed : svc.idempotency "report_gap" key (.reportGap bundleId lease.identity report) = .ok idempotency)
      (registered : Registered log bundleId binding)
      (bound : validateReportBinding binding report.contractId report.revision report.contractHash = .ok ()) :
      Commits log blobs (.reportGap bundleId lease report key) (svc.gapCall bundleId lease report idempotency)
  | change {bundleId : String} {lease : Lease} {request : ContractChangeRequest} {key : String}
      {idempotency : Idempotency} {binding : TaskBinding}
      (keyed : svc.idempotency "request_contract_change" key (.requestContractChange bundleId lease.identity request) =
        .ok idempotency)
      (registered : Registered log bundleId binding)
      (bound : validateReportBinding binding request.contractId request.oldRevision request.oldContractHash = .ok ()) :
      Commits log blobs (.requestContractChange bundleId lease request key)
        (svc.changeCall bundleId lease request idempotency)
  | verdict {bundleId : String} {lease : Lease} {report : VerificationReport} {key : String}
      {idempotency : Idempotency} {binding : TaskBinding} {proof : StoredEvent} {attestation : Attestation}
      (keyed : svc.idempotency "verify_submission" key (.verifySubmission bundleId lease.identity report) =
        .ok idempotency)
      (registered : Registered log bundleId binding) (submitted : Submitted log report.proofId.value proof)
      (bound : validateVerificationBinding binding report proof.payload = .ok ())
      (signed : report.verifierAttestation = some attestation)
      (attested : svc.Attested binding report proof.payload lease attestation) :
      Commits log blobs (.verifySubmission bundleId lease report key)
        (svc.verdictCall bundleId lease report (verificationFailures binding report.toVerificationObservation) attestation
          idempotency)

end Service

/-- The scope a command's key lives in. -/
def Command.scope : Command → Option String
  | registerBundle .. => some "register_bundle"
  | claim .. => some "claim"
  | submitProof .. => some "submit_proof"
  | reportGap .. => some "report_gap"
  | requestContractChange .. => some "request_contract_change"
  | verifySubmission .. => some "verify_submission"
  | _ => none

/-- The kind of stream a command writes to. -/
def Command.entityType : Command → Option String
  | registerBundle .. | claim .. => some "task"
  | submitProof .. => some "proof"
  | reportGap .. => some "gap"
  | requestContractChange .. => some "contract_change_request"
  | verifySubmission .. => some "verification"
  | _ => none

/-- The caller's key and the request the key stands for. -/
def Command.request (svc : Service) : Command → Option (String × SemanticRequest)
  | registerBundle bundle key => some (key, svc.registerRequest bundle)
  | claim bundleId workerId ttlSeconds key => some (key, .claim bundleId workerId ttlSeconds)
  | submitProof bundleId lease submission key => some (key, .submitProof bundleId lease.identity submission)
  | reportGap bundleId lease report key => some (key, .reportGap bundleId lease.identity report)
  | requestContractChange bundleId lease request key => some (key, .requestContractChange bundleId lease.identity request)
  | verifySubmission bundleId lease report key => some (key, .verifySubmission bundleId lease.identity report)
  | _ => none

/-- The record the command's own key and request name. -/
def Command.KeyedBy (svc : Service) (command : Command) (v : Idempotency) : Prop :=
  ∃ scope key request, command.scope = some scope ∧ command.request svc = some (key, request) ∧
    svc.idempotency scope key request = .ok v

theorem Command.KeyedBy.unique {svc : Service} {command : Command} {v v' : Idempotency} (h : command.KeyedBy svc v)
    (h' : command.KeyedBy svc v') : v = v' := by
  obtain ⟨scope, key, request, hs, hr, hv⟩ := h
  obtain ⟨scope', key', request', hs', hr', hv'⟩ := h'
  rw [hs, Option.some.injEq] at hs'
  rw [hr, Option.some.injEq, Prod.mk.injEq] at hr'
  obtain ⟨rfl, rfl⟩ := hr'
  subst hs'
  rw [hv, Except.ok.injEq] at hv'
  exact hv'

theorem Service.idempotency_ok {svc : Service} {scope key : String} {request : SemanticRequest} {v : Idempotency}
    (h : svc.idempotency scope key request = .ok v) :
    v.scope = scope ∧ v.key = key ∧ v.requestHash = (svc.requestHash request).value := by
  unfold Service.idempotency at h
  obtain ⟨-, h⟩ := ensure_bind_eq_ok.mp h
  unfold Idempotency.make at h
  split at h
  · split at h
    · cases h
      exact ⟨rfl, rfl, rfl⟩
    · cases h
  · cases h

/-! Justifications survive a longer log -/

theorem Registered.mono {log log' : List StoredEvent} {bundleId : String} {binding : TaskBinding}
    (h : Registered log bundleId binding) (hl : log ⊆ log') : Registered log' bundleId binding := by
  obtain ⟨e, he, hr⟩ := h
  exact ⟨e, hl he, hr⟩

theorem Submitted.mono {log log' : List StoredEvent} {proofId : String} {e : StoredEvent}
    (h : Submitted log proofId e) (hl : log ⊆ log') : Submitted log' proofId e := ⟨hl h.1, h.2⟩

/-- Every blob stays where it is. -/
def BlobsKept (blobs blobs' : String → Option Artifact) : Prop := ∀ d a, blobs d = some a → blobs' d = some a

namespace Service
variable {svc : Service} {blobs blobs' : String → Option Artifact}

theorem Reviewed.mono {bundle : Handoff} {assurance : Option CanonicalTypeAssurance}
    (h : svc.Reviewed blobs bundle assurance) (hb : BlobsKept blobs blobs') : svc.Reviewed blobs' bundle assurance := by
  cases assurance with
  | none => exact h
  | some assurance =>
    obtain ⟨r, fields, hr, hf, hv⟩ := h
    exact ⟨r, fields, hr, hb _ _ hf, hv⟩

theorem Commits.mono {log log' : List StoredEvent} {command : Command} {call : AppendCall}
    (h : svc.Commits log blobs command call) (hl : log ⊆ log') (hb : BlobsKept blobs blobs') :
    svc.Commits log' blobs' command call := by
  cases h with
  | registered keyed signed accepted reviewed => exact .registered keyed signed accepted (reviewed.mono hb)
  | claimed keyed registered job holder => exact .claimed keyed (registered.mono hl) job holder
  | submitted keyed registered bound complete => exact .submitted keyed (registered.mono hl) bound complete
  | gap keyed registered bound => exact .gap keyed (registered.mono hl) bound
  | change keyed registered bound => exact .change keyed (registered.mono hl) bound
  | verdict keyed registered submitted bound signed attested =>
    exact .verdict keyed (registered.mono hl) (submitted.mono hl) bound signed attested

/-- A command writes one event under its own key. -/
theorem Commits.batch {log : List StoredEvent} {command : Command} {call : AppendCall}
    (h : svc.Commits log blobs command call) :
    (∃ new, call.batch.events = [new] ∧ new.metadata = []) ∧ ∃ v, call.batch.idempotency = some v := by
  cases h with
  | registered | claimed | submitted | gap | change | verdict => exact ⟨⟨_, rfl, rfl⟩, _, rfl⟩

theorem Commits.entityType {log : List StoredEvent} {command : Command} {call : AppendCall}
    (h : svc.Commits log blobs command call) : command.entityType = some call.batch.entityType := by
  cases h <;> rfl

/-- The key of a command's write is its own. -/
theorem Commits.key {log : List StoredEvent} {command : Command} {call : AppendCall}
    (h : svc.Commits log blobs command call) {v : Idempotency} (hv : call.batch.idempotency = some v) :
    command.scope = some v.scope ∧ ∃ request, command.request svc = some (v.key, request) ∧
      v.requestHash = (svc.requestHash request).value := by
  cases h with
  | registered keyed | claimed keyed | submitted keyed | gap keyed | change keyed | verdict keyed =>
    cases hv
    obtain ⟨hs, hk, hh⟩ := idempotency_ok keyed
    exact ⟨by rw [hs]; rfl, _, by rw [hk]; rfl, hh⟩

end Service
end Autolean.ControlPlane
