import Autolean.ControlPlane.Commands

/-! The parts of the commands that only read. They write no event and no lease row, whatever
their operations are answered. -/
namespace Autolean.ControlPlane
open Contracts Machine Raising

/-- The operation leaves the database as it is: it writes neither an event nor a lease row. -/
def ReadsOnly : ServiceOp → Prop
  | .store (.write _) | .store (.claimLease ..) | .store (.renewLease ..) | .store (.releaseRow _) => False
  | _ => True

variable {α : Type} {svc : Service} {ok : ServiceOp → Prop}

theorem storeBlob_database (svc : Service) (w : World) (content : Artifact) :
    (svc.storeBlob w content).database = w.database := by
  unfold Service.storeBlob
  split <;> rfl

theorem ReadsOnly.database {op : ServiceOp} (h : ReadsOnly op) (svc : Service) (input : ServiceInput) (w : World) :
    (svc.exec op input w).2.database = w.database := by
  cases op with
  | store op =>
    cases op with
    | write _ | claimLease _ _ _ | renewLease _ _ | releaseRow _ => exact h.elim
    | lookupIdempotency _ | currentSequence _ _ | readStream _ _ | readAll | assertCurrent _ | currentLease _ => rfl
  | putArtifact content => exact storeBlob_database svc w content
  | verify _ _ _ | getArtifact _ | verifyArtifact _ => rfl

/-! Handlers that re-raise -/

theorem rejectAttestation_throws (message : String) (e : ControlPlaneError) :
    ∃ e', (Service.rejectAttestation message e : Call α) = throw e' := by
  unfold Service.rejectAttestation
  split
  · exact ⟨_, rfl⟩
  · exact ⟨_, rfl⟩

theorem rejectArtifact_throws (message : String) (e : ControlPlaneError) :
    ∃ e', (Service.rejectArtifact message e : Call α) = throw e' := by
  unfold Service.rejectArtifact
  split
  · exact ⟨_, rfl⟩
  · exact ⟨_, rfl⟩
  · exact ⟨_, rfl⟩

theorem registrationError_throws (e : ControlPlaneError) : ∃ e', (Service.registrationError e : Call α) = throw e' := by
  unfold Service.registrationError
  split <;> exact ⟨_, rfl⟩

theorem verdictError_throws (e : ControlPlaneError) : ∃ e', (verdictError e : Call α) = throw e' := by
  unfold verdictError
  split <;> exact ⟨_, rfl⟩

/-- A guarded part issues what it issues unguarded when its handler only raises. -/
theorem guarded_issues {p : Call α} {f : ControlPlaneError → Call α} (hp : p.Issues ok) (hf : ∀ e, ∃ e', f e = throw e') :
    (tryCatch p f).Issues ok := by
  refine .handle hp fun e => ?_
  obtain ⟨e', he⟩ := hf e
  rw [he]
  exact .throw e'

/-! The parts -/

theorem currentSequence_reads (entityType entityId : String) :
    (issue (.currentSequence entityType entityId)).Issues ReadsOnly := .perform trivial

theorem getBinding_reads (bundleId : String) : (getBinding bundleId).Issues ReadsOnly :=
  .bind (.perform trivial) fun _ => .ofExcept _

theorem assertLease_reads (bundleId : String) (lease : Lease) : (assertLease bundleId lease).Issues ReadsOnly :=
  .bind (.ofExcept _) fun _ => .perform trivial

theorem replayedEvent_reads (v : Idempotency) : (replayedEvent v).Issues ReadsOnly :=
  .bind (.perform trivial) fun _ => .ofExcept _

theorem proofEvent_reads (proofId : String) : (proofEvent proofId).Issues ReadsOnly :=
  .bind (.perform trivial) fun _ => .ofExcept _

theorem putModel_reads (content : Artifact) : (putModel content).Issues ReadsOnly := .perform trivial

theorem readCanonicalJsonArtifact_reads (digest label : String) :
    (Service.readCanonicalJsonArtifact digest label).Issues ReadsOnly :=
  .bind (guarded_issues (.perform trivial) (rejectArtifact_throws _)) fun _ => .ofExcept _

theorem verifyBuilderAttestation_reads (bundle : FormalizationTaskBundle) :
    (svc.verifyBuilderAttestation bundle).Issues ReadsOnly := by
  unfold Service.verifyBuilderAttestation
  split
  · exact .throw _
  · exact .bind (guarded_issues (.perform trivial) (rejectAttestation_throws _)) fun _ => .pure _

theorem verifyBuilderFidelityArtifact_reads (bundle : Handoff) :
    (svc.verifyBuilderFidelityArtifact bundle).Issues ReadsOnly := by
  unfold Service.verifyBuilderFidelityArtifact
  split
  · exact .bind (.ofExcept _) fun _ => .pure _
  · exact .bind (guarded_issues (.perform trivial) (rejectArtifact_throws _)) fun _ =>
      .bind (readCanonicalJsonArtifact_reads _ _) fun _ => .bind (.ofExcept _) fun _ => .bind (.ofExcept _) fun _ => .pure _

theorem attested_reads (attestation : Attestation) (payload : AttestationPayload) :
    (attested attestation payload).Issues ReadsOnly := by
  refine .handle (.bind (.perform trivial) fun _ => .pure _) fun e => ?_
  split
  · exact .pure _
  · exact .throw _

theorem verifySignature_reads (binding : TaskBinding) (report : VerificationReport) (attestation : Attestation)
    (context : VerificationSigningContext) (gateway : VerificationSigningLeaseBinding) (lease : Lease) :
    (verifySignature svc binding report attestation context gateway lease).Issues ReadsOnly := by
  refine .bind (attested_reads _ _) fun accepted => ?_
  split
  · exact .bind (.ofExcept _) fun _ => .pure _
  · exact .bind (.ofExcept _) fun _ =>
      .bind (guarded_issues (.perform trivial) (rejectAttestation_throws _)) fun _ => .pure _

theorem readVerificationEvidenceArtifact_reads (digest : String) :
    (readVerificationEvidenceArtifact digest).Issues ReadsOnly :=
  .bind (readCanonicalJsonArtifact_reads _ _) fun _ => .bind (.ofExcept _) fun _ =>
    .bind (guarded_issues (.perform trivial) (rejectArtifact_throws _)) fun _ => .pure _

theorem validateVerificationEvidenceArtifact_reads (binding : TaskBinding) (report : VerificationReport)
    (evidence : VerificationEvidence) (proofDigest dependencyHash : String) (lease : Lease) (authoritative : Bool)
    (artifact : VerificationEvidenceArtifact) :
    (validateVerificationEvidenceArtifact svc binding report evidence proofDigest dependencyHash lease authoritative
      artifact).Issues ReadsOnly :=
  .bind (.ofExcept _) fun _ => .bind (.ofExcept _) fun _ => .bind (readCanonicalJsonArtifact_reads _ _) fun _ =>
    .bind (readCanonicalJsonArtifact_reads _ _) fun _ => .ofExcept _

theorem verifyVerificationAttestation_reads (binding : TaskBinding) (report : VerificationReport) (proof : JsonObject)
    (lease : Lease) : (verifyVerificationAttestation svc binding report proof lease).Issues ReadsOnly :=
  .bind (.ofExcept _) fun _ => .bind (.ofExcept _) fun _ => .bind (.ofExcept _) fun _ => .bind (.ofExcept _) fun _ =>
    .bind (.ofExcept _) fun _ => .bind (.ofExcept _) fun _ => .bind (verifySignature_reads _ _ _ _ _ _) fun _ =>
    .bind (readVerificationEvidenceArtifact_reads _) fun _ =>
    .bind (validateVerificationEvidenceArtifact_reads _ _ _ _ _ _ _ _) fun _ => .pure _

end Autolean.ControlPlane
