import Autolean.ControlPlane.DashboardCounters
import Autolean.ControlPlane.Leverage

/-! The phase feedback of the dashboard projection: one item for each registered bundle, replayed
from the events about it. -/
namespace Autolean.ControlPlane.Projection
open Contracts Machine Raising

structure BuilderFidelity where
  state : String
  contractId : String
  revision : Nat
  contractHash : String
  bundleHash : String
  registrationEventSequence : Nat
  registrationEventId : String
  registeredAt : Instant
  evidenceDigest : Option String

structure Milestone where
  phase : String
  state : String
  sourceEventSequence : Nat
  sourceEventId : String
  occurredAt : Instant
  evidenceDigest : Option String
  proofId : Option String
  reviewAssumptionId : Option String

structure ReviewAssumption where
  id : String
  kind : String
  state : String
  sourceEventSequence : Nat
  sourceEventId : String
  openedAt : Instant
  evidenceDigest : Option String

/-- The replay accumulator of a bundle. -/
structure PhaseFeedbackState where
  taskId : String
  registrationEvent : StoredEvent
  builderFidelity : BuilderFidelity
  relevantEvents : List StoredEvent
  submittedProofIds : List String
  acceptedProofIds : List String
  rejectedProofIds : List String
  unresolvedReviewIds : Finset String
  unresolvedReviews : List ReviewAssumption
  milestones : List Milestone

/-- `_artifact_digest`. -/
def artifactDigest (payload : JsonObject) (key : String) : Option String :=
  (payload.obj key).bind fun artifact => artifact.text "digest"

def attestationKeys : List String := ["purpose", "key_id", "payload_hash", "evidence_identity", "expires_at"]

/-- `_phase_feedback_registration`. -/
def phaseFeedbackRegistration (e : StoredEvent) (taskId : Option String) : Option PhaseFeedbackState := do
  let taskId ← taskId
  let contractId ← e.payload.text "contract_id"
  let revision ← optionalInt e.payload "revision"
  let contractHash ← e.payload.text "contract_hash"
  let bundleHash ← e.payload.text "bundle_hash"
  let builderAttestation ← e.payload.obj "builder_attestation"
  if 1 ≤ revision ∧ ∀ key ∈ attestationKeys, (builderAttestation.text key).isSome then
    let evidenceDigest := artifactDigest e.payload "fidelity_evidence_artifact"
    some ⟨taskId, e, ⟨if evidenceDigest.isSome then "frozen_attested_with_evidence"
      else "frozen_attested_without_public_evidence", contractId, revision, contractHash, bundleHash, e.globalPosition,
      e.eventId, e.recordedAt, evidenceDigest⟩, [], [], [], [], ∅, [], []⟩
  else none

/-- `_feedback_milestone`. -/
def feedbackMilestone (phase state : String) (e : StoredEvent)
    (evidenceDigest proofId reviewAssumptionId : Option String) :
    Milestone :=
  ⟨phase, state, e.globalPosition, e.eventId, e.recordedAt, evidenceDigest, proofId, reviewAssumptionId⟩

/-- `_unresolved_review_assumption`. -/
def unresolvedReviewAssumption (e : StoredEvent) : ReviewAssumption :=
  let isGap := e.eventType = "gap.reported"
  ⟨(e.payload.text (if isGap then "report_id" else "request_id")).getD e.eventId,
    if isGap then "gap" else "contract_change",
    "unresolved", e.globalPosition, e.eventId, e.recordedAt,
    artifactDigest e.payload (if isGap then "gap_artifact" else "request_artifact")⟩

/-- The proof a submission names. -/
def proofIdOf (e : StoredEvent) : String := (e.payload.text "proof_id").getD e.entityId

def IsVerification (e : StoredEvent) : Prop := "verification.".toList.isPrefixOf e.eventType.toList

instance IsVerification.decidable (e : StoredEvent) : Decidable (IsVerification e) :=
  inferInstanceAs (Decidable (_ = true))

def IsReview (e : StoredEvent) : Prop := e.eventType = "gap.reported" ∨ e.eventType = "contract_change.requested"

instance IsReview.decidable (e : StoredEvent) : Decidable (IsReview e) := inferInstanceAs (Decidable (_ ∨ _))

namespace PhaseFeedbackState

/-- The event and its milestone are taken up. -/
def mark (s : PhaseFeedbackState) (e : StoredEvent) (milestone : Milestone) : PhaseFeedbackState :=
  { s with relevantEvents := s.relevantEvents ++ [e], milestones := s.milestones ++ [milestone] }

def submitted (s : PhaseFeedbackState) (e : StoredEvent) : Raises PhaseFeedbackState := do
  let proofId := proofIdOf e
  ensure (proofId ∉ s.submittedProofIds) (.projectionError "duplicate proof submission in phase feedback projection")
  let marked := s.mark e (feedbackMilestone "prover_candidate" "pending" e (artifactDigest e.payload "proof_artifact")
    (some proofId) none)
  pure { marked with submittedProofIds := s.submittedProofIds ++ [proofId] }

def verified (s : PhaseFeedbackState) (e : StoredEvent) : Raises PhaseFeedbackState :=
  match e.payload.text "proof_id" with
  | none => .error (.projectionError "phase feedback verification has no matching proof submission")
  | some proofId => do
    ensure (proofId ∈ s.submittedProofIds)
      (.projectionError "phase feedback verification has no matching proof submission")
    ensure (proofId ∉ s.acceptedProofIds ∧ proofId ∉ s.rejectedProofIds)
      (.projectionError "duplicate terminal verification in phase feedback projection")
    let accepted ← verificationAccepted e
    let marked := s.mark e (feedbackMilestone "prover_verification" (if accepted then "accepted" else "rejected") e
      (artifactDigest e.payload "verification_artifact") (some proofId) none)
    pure (if accepted then { marked with acceptedProofIds := s.acceptedProofIds ++ [proofId] }
      else { marked with rejectedProofIds := s.rejectedProofIds ++ [proofId] })

def reviewed (s : PhaseFeedbackState) (e : StoredEvent) : Raises PhaseFeedbackState := do
  let review := unresolvedReviewAssumption e
  ensure (review.id ∉ s.unresolvedReviewIds)
    (.projectionError "duplicate human-review assumption in phase feedback projection")
  let marked := s.mark e (feedbackMilestone "human_review" "unresolved" e review.evidenceDigest none (some review.id))
  pure { marked with
    unresolvedReviewIds := insert review.id s.unresolvedReviewIds
    unresolvedReviews := s.unresolvedReviews ++ [review] }

/-- One event about the bundle. -/
def observe (s : PhaseFeedbackState) (e : StoredEvent) : Raises PhaseFeedbackState := do
  ensure (¬ e.globalPosition < s.registrationEvent.globalPosition)
    (.projectionError "phase feedback event precedes its registered bundle")
  if e.eventType = "task.registered" then
    pure (s.mark e (feedbackMilestone "builder_fidelity" "recorded" e s.builderFidelity.evidenceDigest none none))
  else if e.eventType = "proof.submitted" then s.submitted e
  else if IsVerification e then s.verified e
  else if IsReview e then s.reviewed e
  else pure s

end PhaseFeedbackState

/-- One event of the first loop of `_phase_feedback`. -/
def registerState (states : List PhaseFeedbackState) (e : StoredEvent) : Raises (List PhaseFeedbackState) :=
  if e.eventType = "task.registered" then
    match phaseFeedbackRegistration e (eventTaskId e) with
    | none => pure states
    | some state => do
      ensure (state.taskId ∉ states.map (·.taskId))
        (.projectionError "duplicate registered bundle in phase feedback projection")
      pure (states ++ [state])
  else pure states

/-- One event of the second loop. -/
def observeState (states : List PhaseFeedbackState) (e : StoredEvent) : Raises (List PhaseFeedbackState) :=
  match (eventTaskId e).bind fun taskId => states.find? (·.taskId = taskId) with
  | none => pure states
  | some state => do
    let observed ← state.observe e
    pure (states.map fun other => if other.taskId = state.taskId then observed else other)

/-- `_prover_verification_state`. -/
def proverVerificationState (submitted pending accepted rejected : List String) : String :=
  if submitted = [] then "not_submitted"
  else if 1 < ([pending, accepted, rejected].filter (· ≠ [])).length then "mixed_candidates"
  else if pending ≠ [] then "candidate_pending_verification"
  else if accepted ≠ [] then "verified_candidate_available"
  else "all_candidates_rejected"

structure ProverVerification where
  state : String
  submittedProofIds : List String
  pendingProofIds : List String
  acceptedProofIds : List String
  rejectedProofIds : List String

structure Replay where
  firstRelevantEventSequence : Nat
  lastRelevantEventSequence : Nat
  lastRelevantEventId : String
  lastRelevantEventRecordedAt : Instant
  relevantEventCount : Nat
  relevantEventSequences : List Nat
  replayHeadEventSequence : Nat
  replayHeadEventId : String
  replayHeadRecordedAt : Instant
  eventsObservedAfterLastRelevant : Nat
  lastRelevantEventIsReplayHead : Bool

structure PhaseFeedback where
  taskId : String
  builderFidelity : BuilderFidelity
  proverVerification : ProverVerification
  unresolvedHumanReviewAssumptions : List ReviewAssumption
  leverage : Leverage
  milestones : List Milestone
  replay : Replay

/-- The proofs without a verdict. -/
def PhaseFeedbackState.pending (s : PhaseFeedbackState) : List String :=
  s.submittedProofIds.filter fun proofId => proofId ∉ s.acceptedProofIds ∧ proofId ∉ s.rejectedProofIds

def proverVerification (s : PhaseFeedbackState) : ProverVerification :=
  ⟨proverVerificationState s.submittedProofIds s.pending s.acceptedProofIds s.rejectedProofIds, s.submittedProofIds,
    s.pending,
    s.acceptedProofIds, s.rejectedProofIds⟩

def replayOf (events relevant : List StoredEvent) (first last head : StoredEvent) : Replay :=
  ⟨first.globalPosition, last.globalPosition, last.eventId, last.recordedAt, relevant.length, relevant.map
    (·.globalPosition),
    head.globalPosition, head.eventId, head.recordedAt,
    events.countP fun e => last.globalPosition < e.globalPosition, last.globalPosition = head.globalPosition⟩

/-- The item of a bundle. -/
def feedbackItem (order : SetOrder) (events : List StoredEvent) (nodes : List NodeIdentity) (s : PhaseFeedbackState) :
    Raises PhaseFeedback :=
  match s.relevantEvents.head?, s.relevantEvents.getLast?, events.getLast? with
  | some first, some last, some head =>
    .ok ⟨s.taskId, s.builderFidelity, proverVerification s, s.unresolvedReviews,
      mathematicalDependencyLeverage order nodes s.taskId, s.milestones,
        replayOf events s.relevantEvents first last head⟩
  | _, _, _ => .error (.projectionError "registered phase feedback has no replay source events")

/-- The accumulators at the end of the second loop. -/
def feedbackStates (events : List StoredEvent) : Raises (List PhaseFeedbackState) := do
  let states ← events.foldlM registerState []
  events.foldlM observeState states

/-- `_phase_feedback`. -/
def phaseFeedback (order : SetOrder) (events : List StoredEvent) (nodes : List NodeIdentity) : Raises
    (List PhaseFeedback) := do
  let states ← feedbackStates events
  (states.insertionSort fun a b => a.taskId ≤ b.taskId).mapM (feedbackItem order events nodes)

/-- The nodes, the counters and the phase feedback of `snapshot`. -/
def dashboard (order : SetOrder) (events : List StoredEvent) : Raises (Snapshot × List PhaseFeedback) := do
  let s ← snapshot events
  let feedback ← phaseFeedback order (inOrder events) (s.nodes.map (·.toNodeIdentity))
  pure (s, feedback)

end Autolean.ControlPlane.Projection
