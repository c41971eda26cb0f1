import Autolean.ControlPlane.Verification
import Autolean.ControlPlane.RevisionProjection
import Autolean.Machine.RelyGuarantee
import Autolean.Machine.History

/-! The clients of the control plane: any number of commands running against one
database, with the lease transactions and blob writes workers make beside them. -/
namespace Autolean.ControlPlane
open Contracts Machine Raising

/-- A call some client makes. -/
inductive Command where
  | registerBundle (bundle : FormalizationTaskBundle) (idempotencyKey : String)
  | claim (bundleId workerId : String) (ttlSeconds : PyFloat) (idempotencyKey : String)
  | submitProof (bundleId : String) (lease : Lease) (submission : ProofSubmission) (idempotencyKey : String)
  | reportGap (bundleId : String) (lease : Lease) (report : GapReport) (idempotencyKey : String)
  | requestContractChange (bundleId : String) (lease : Lease) (request : ContractChangeRequest) (idempotencyKey : String)
  | verifySubmission (bundleId : String) (lease : Lease) (report : VerificationReport) (idempotencyKey : String)
  | getBinding (bundleId : String)
  | claimLease (jobId holderId : String) (ttlSeconds : ℚ)
  | renewLease (lease : Lease) (ttlSeconds : ℚ)
  | releaseLease (lease : Lease)
  | putArtifact (content : Artifact)

inductive Reply where
  | binding (b : TaskBinding)
  | receipt (r : Service.ClaimReceipt)
  | event (e : StoredEvent)
  | outcome (o : VerificationOutcome)
  | lease (l : Lease)
  | artifact (r : ArtifactRef)
  | released

/-- `LeaseStore.release`: a currency check and a delete, each a transaction. -/
def releaseLease (lease : Lease) : Call Unit := do
  issue (.assertCurrent lease)
  issue (.releaseRow lease)

def Command.program (svc : Service) : Command → Call Reply
  | registerBundle bundle key => do let b ← svc.registerBundle bundle key; pure (.binding b)
  | claim bundleId workerId ttlSeconds key => do let r ← svc.claim bundleId workerId ttlSeconds key; pure (.receipt r)
  | submitProof bundleId lease submission key => do
    let e ← svc.submitProof bundleId lease submission key
    pure (.event e)
  | reportGap bundleId lease report key => do let e ← svc.reportGap bundleId lease report key; pure (.event e)
  | requestContractChange bundleId lease request key => do
    let e ← svc.requestContractChange bundleId lease request key
    pure (.event e)
  | verifySubmission bundleId lease report key => do
    let o ← svc.verifySubmission bundleId lease report key
    pure (.outcome o)
  | getBinding bundleId => do let b ← ControlPlane.getBinding bundleId; pure (.binding b)
  | claimLease jobId holderId ttlSeconds => do let l ← issue (.claimLease jobId holderId ttlSeconds); pure (.lease l)
  | renewLease lease ttlSeconds => do let l ← issue (.renewLease lease ttlSeconds); pure (.lease l)
  | releaseLease lease => do let _ ← ControlPlane.releaseLease lease; pure .released
  | putArtifact content => do let r ← putModel content; pure (.artifact r)

/-- The clients' programs and the world they share. -/
abbrev CommandPool (θ : Type) := Pool serviceInterface ControlPlaneError World θ Reply

/-- An empty store and the commands about to run. -/
def CommandPool.start {θ : Type} (svc : Service) (commands : θ → Command) : CommandPool θ :=
  ⟨⟨.empty, fun _ => none⟩, fun i => (commands i).program svc⟩

/-- One client takes its next step. -/
def CommandPool.step {θ : Type} [DecidableEq θ] (svc : Service) : CommandPool θ → θ × ServiceInput → CommandPool θ :=
  Pool.step svc.exec

end Autolean.ControlPlane
