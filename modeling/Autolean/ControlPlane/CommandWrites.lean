import Autolean.ControlPlane.CommandReads
import Autolean.ControlPlane.Justification

/-! The streams a command writes to, whatever its operations are answered. -/
namespace Autolean.ControlPlane
open Contracts Machine Raising

variable {α : Type} {svc : Service} {ok : AppendCall → Prop}

/-- An operation that writes does so by one of these calls. -/
def Writes (ok : AppendCall → Prop) (op : ServiceOp) : Prop := ∀ call, op = .store (.write call) → ok call

theorem ReadsOnly.writes {op : ServiceOp} (h : ReadsOnly op) : Writes ok op := by
  rintro call rfl
  exact h.elim

theorem writes_of_reads {p : Call α} (h : p.Issues ReadsOnly) : p.Issues (Writes ok) := h.imp fun _ => ReadsOnly.writes

theorem issue_write {call : AppendCall} (h : ok call) : (issue (.write call)).Issues (Writes ok) := by
  refine .perform fun call' heq => ?_
  simp only [ServiceOp.store.injEq, StoreOp.write.injEq] at heq
  exact heq ▸ h

/-- A lease transaction writes no event. -/
theorem issue_lease {op : StoreOp} (h : ∀ call, op ≠ .write call) : (issue op).Issues (Writes ok) := by
  refine .perform fun call heq => absurd ?_ (h call)
  simpa using heq

/-! The commands -/

/-- The call writes to streams of one kind, under a key of one scope. -/
structure WritesUnder (entityType scope : String) (call : AppendCall) : Prop where
  entityType : call.batch.entityType = entityType
  keyed : ∃ v, call.batch.idempotency = some v ∧ v.scope = scope

/-- A command that answers a recorded key with the recorded event writes what it writes under
a key that is not. -/
theorem replayOr_writes {scope key : String} {request : SemanticRequest} {answer : StoredEvent → Call α}
    {p : Idempotency → Call α} (hanswer : ∀ e, (answer e).Issues (Writes ok))
    (hp : ∀ v, v.scope = scope → (p v).Issues (Writes ok)) :
    (do
      let v ← raising (svc.idempotency scope key request)
      match ← replayedEvent v with
      | some replayed => answer replayed
      | none => p v).Issues (Writes ok) := by
  refine .ofExcept_bind fun v hv => .bind (writes_of_reads (replayedEvent_reads v)) fun found => ?_
  cases found with
  | some replayed => exact hanswer replayed
  | none => exact hp v (Service.idempotency_ok hv).1

theorem registerBundle_writes (bundle : FormalizationTaskBundle) (key : String) :
    (svc.registerBundle bundle key).Issues (Writes (WritesUnder "task" "register_bundle")) := by
  refine .bind (.ofExcept _) fun _ => replayOr_writes (fun _ => .ofExcept _) fun v hv => ?_
  exact .bind (writes_of_reads (verifyBuilderAttestation_reads bundle)) fun _ =>
    .bind (writes_of_reads (verifyBuilderFidelityArtifact_reads _)) fun _ => .bind (writes_of_reads (putModel_reads _)) fun _ =>
    .bind (.ofExcept _) fun _ =>
      .bind (guarded_issues (issue_write ⟨rfl, v, rfl, hv⟩) registrationError_throws) fun _ => .ofExcept _

theorem claim_writes (bundleId workerId : String) (ttlSeconds : PyFloat) (key : String) :
    (svc.claim bundleId workerId ttlSeconds key).Issues (Writes (WritesUnder "task" "claim")) :=
  replayOr_writes (fun _ => .ofExcept _) fun v hv =>
    .bind (writes_of_reads (getBinding_reads _)) fun _ => .bind (.ofExcept _) fun _ => .bind (issue_lease (by simp)) fun _ =>
    .bind (.ofExcept _) fun _ => .bind (writes_of_reads (currentSequence_reads _ _)) fun _ =>
    .bind (issue_write ⟨rfl, v, rfl, hv⟩) fun _ => .bind (.ofExcept _) fun _ => .pure _

theorem submitProof_writes (bundleId : String) (lease : Lease) (submission : ProofSubmission) (key : String) :
    (svc.submitProof bundleId lease submission key).Issues (Writes (WritesUnder "proof" "submit_proof")) :=
  replayOr_writes (fun _ => .pure _) fun v hv =>
    .bind (writes_of_reads (getBinding_reads _)) fun _ => .bind (writes_of_reads (assertLease_reads _ _)) fun _ =>
    .bind (.ofExcept _) fun _ => .bind (.ofExcept _) fun _ => .bind (writes_of_reads (putModel_reads _)) fun _ =>
    .bind (.ofExcept _) fun _ => .bind (issue_write ⟨rfl, v, rfl, hv⟩) fun _ => .ofExcept _

theorem reportGap_writes (bundleId : String) (lease : Lease) (report : GapReport) (key : String) :
    (svc.reportGap bundleId lease report key).Issues (Writes (WritesUnder "gap" "report_gap")) :=
  replayOr_writes (fun _ => .pure _) fun v hv =>
    .bind (writes_of_reads (getBinding_reads _)) fun _ => .bind (writes_of_reads (assertLease_reads _ _)) fun _ =>
    .bind (.ofExcept _) fun _ => .bind (writes_of_reads (putModel_reads _)) fun _ => .bind (.ofExcept _) fun _ =>
    .bind (issue_write ⟨rfl, v, rfl, hv⟩) fun _ => .ofExcept _

theorem requestContractChange_writes (bundleId : String) (lease : Lease) (request : ContractChangeRequest) (key : String) :
    (svc.requestContractChange bundleId lease request key).Issues
      (Writes (WritesUnder "contract_change_request" "request_contract_change")) :=
  replayOr_writes (fun _ => .pure _) fun v hv =>
    .bind (writes_of_reads (getBinding_reads _)) fun _ => .bind (writes_of_reads (assertLease_reads _ _)) fun _ =>
    .bind (.ofExcept _) fun _ => .bind (writes_of_reads (putModel_reads _)) fun _ => .bind (.ofExcept _) fun _ =>
    .bind (issue_write ⟨rfl, v, rfl, hv⟩) fun _ => .ofExcept _

theorem verifySubmission_writes (bundleId : String) (lease : Lease) (report : VerificationReport) (key : String) :
    (svc.verifySubmission bundleId lease report key).Issues (Writes (WritesUnder "verification" "verify_submission")) := by
  refine replayOr_writes ?_ ?_
  · intro replayed
    exact .ofExcept _
  · intro v hv
    refine .bind (writes_of_reads (getBinding_reads _)) fun _ => .bind (writes_of_reads (assertLease_reads _ _)) fun _ =>
      .bind (writes_of_reads (proofEvent_reads _)) fun proof => .bind (.ofExcept _) fun _ => ?_
    refine .bind (writes_of_reads (verifyVerificationAttestation_reads _ _ _ _)) fun _ =>
      .bind (writes_of_reads (putModel_reads _)) fun _ => .bind (.ofExcept _) fun _ => .bind ?_ fun _ =>
      .bind (.ofExcept _) fun _ => .pure _
    exact guarded_issues (issue_write ⟨rfl, v, rfl, hv⟩) verdictError_throws

/-- Every write of a command goes to its kind of stream, under a key of its scope. -/
theorem Command.program_writes (command : Command) :
    (command.program svc).Issues (Writes fun call => ∃ entityType scope, command.entityType = some entityType ∧
      command.scope = some scope ∧ WritesUnder entityType scope call) := by
  have moved {α : Type} {p : Call α} {entityType scope : String} (h : p.Issues (Writes (WritesUnder entityType scope)))
      (hkind : command.entityType = some entityType) (hscope : command.scope = some scope) :
      p.Issues (Writes fun call => ∃ entityType scope, command.entityType = some entityType ∧
        command.scope = some scope ∧ WritesUnder entityType scope call) :=
    h.imp fun op hop call heq => ⟨entityType, scope, hkind, hscope, hop call heq⟩
  cases command with
  | registerBundle bundle key => exact .bind (moved (registerBundle_writes bundle key) rfl rfl) fun _ => .pure _
  | claim bundleId workerId ttlSeconds key => exact .bind (moved (claim_writes ..) rfl rfl) fun _ => .pure _
  | submitProof bundleId lease submission key => exact .bind (moved (submitProof_writes ..) rfl rfl) fun _ => .pure _
  | reportGap bundleId lease report key => exact .bind (moved (reportGap_writes ..) rfl rfl) fun _ => .pure _
  | requestContractChange bundleId lease request key =>
    exact .bind (moved (requestContractChange_writes ..) rfl rfl) fun _ => .pure _
  | verifySubmission bundleId lease report key => exact .bind (moved (verifySubmission_writes ..) rfl rfl) fun _ => .pure _
  | getBinding bundleId => exact .bind (writes_of_reads (getBinding_reads _)) fun _ => .pure _
  | claimLease jobId holderId ttlSeconds => exact .bind (issue_lease (by simp)) fun _ => .pure _
  | renewLease lease ttlSeconds => exact .bind (issue_lease (by simp)) fun _ => .pure _
  | releaseLease lease =>
    exact .bind (.bind (writes_of_reads (.perform trivial)) fun _ => issue_lease (by simp)) fun _ => .pure _
  | putArtifact content => exact .bind (writes_of_reads (putModel_reads _)) fun _ => .pure _

end Autolean.ControlPlane
