import Autolean.ControlPlane.DashboardExport
import Autolean.ControlPlane.RegistrationRuns
import Mathlib.Data.Finset.Sort
import Mathlib.Data.Prod.Lex

/-! What the Dashboard's reader requires of a snapshot document: the bounds of the fields, and
what its models check of one another. -/
namespace Autolean.Dashboard
open ControlPlane.Projection Machine
open Contracts (Json PyFloat)

/-- A text field with `min_length=1` and a `max_length`. -/
def Fits (max : Nat) (text : String) : Prop := 1 ≤ text.length ∧ text.length ≤ max

instance Fits.decidable (max : Nat) (text : String) : Decidable (Fits max text) := inferInstanceAs (Decidable (_ ∧ _))

/-- `Field(ge=0.0)`. -/
def NonNegative : PyFloat → Prop
  | .finite q => 0 ≤ q
  | .inf => True
  | _ => False

instance NonNegative.decidable : (x : PyFloat) → Decidable (NonNegative x)
  | .finite q => inferInstanceAs (Decidable (0 ≤ q))
  | .inf => inferInstanceAs (Decidable True)
  | .negInf | .nan => inferInstanceAs (Decidable False)

/-- `StrictNonNegativeInt`. -/
def NonNegativeInt : Json → Prop
  | .int n => 0 ≤ n
  | _ => False

instance NonNegativeInt.decidable : (x : Json) → Decidable (NonNegativeInt x)
  | .int n => inferInstanceAs (Decidable (0 ≤ n))
  | .null | .bool _ | .float _ | .str _ | .list _ | .dict _ => inferInstanceAs (Decidable False)

abbrev Validation := Except String Unit

/-- `GraphNode`; a time is read by `datetime`. -/
def readGraphNode (isDatetime : String → Bool) (node : PublicNode) : Validation :=
  ensure (Fits 768 node.id ∧ Fits 256 node.sourceNodeId ∧ Fits 256 node.taskId ∧ Fits 512 node.label ∧
    node.graph ∈ ["mathematical", "formal", "execution"] ∧ Fits 64 node.status ∧ 1 ≤ node.revision ∧ Fits 64 node.kind ∧
    ∀ text ∈ node.updatedAt, isDatetime text) "nodes"

/-- `RunSummary`. -/
def readRunSummary (run : RunView) : Validation :=
  ensure (Fits 256 run.id ∧ Fits 256 run.taskId ∧ Fits 128 run.provider ∧ Fits 256 run.model ∧ Fits 64 run.status ∧
    NonNegative run.costUsd ∧ Fits 64 run.verification) "runs"

/-- `ArtifactSummary`. -/
def readArtifactSummary (artifact : ArtifactView) : Validation :=
  ensure (Fits 256 artifact.digest ∧ Fits 128 artifact.mediaType ∧ NonNegativeInt artifact.size ∧ Fits 64 artifact.kind)
    "artifacts"

/-- `EventView`. -/
def readEventView (event : PublicEvent) : Validation :=
  ensure (1 ≤ event.sequence ∧ Fits 128 event.eventType ∧ Fits 256 event.entityId ∧ (∀ id ∈ event.taskId, Fits 256 id) ∧
    Fits 512 event.summary) "events"

/-- `BuilderFidelityFeedback`. -/
def readBuilderFidelity (f : BuilderFidelity) : Validation :=
  ensure (f.state ∈ ["frozen_attested_with_evidence", "frozen_attested_without_public_evidence"] ∧
    Fits 256 f.contractId ∧ 1 ≤ f.revision ∧ Fits 256 f.contractHash ∧ Fits 256 f.bundleHash ∧
    1 ≤ f.registrationEventSequence ∧ Fits 256 f.registrationEventId ∧ ∀ d ∈ f.evidenceDigest, Fits 256 d)
    "builder_fidelity"

/-- `validate_evidence_partition`. -/
def validateEvidencePartition (v : ProverVerification) : Validation := do
  ensure (∀ items ∈ [v.submittedProofIds, v.pendingProofIds, v.acceptedProofIds, v.rejectedProofIds],
    items.Nodup ∧ "" ∉ items) "proof evidence IDs must be non-empty and unique"
  let pending := v.pendingProofIds.toFinset
  let accepted := v.acceptedProofIds.toFinset
  let rejected := v.rejectedProofIds.toFinset
  ensure (pending ∩ accepted = ∅ ∧ pending ∩ rejected = ∅ ∧ accepted ∩ rejected = ∅)
    "proof evidence states must be disjoint"
  ensure (pending ∪ accepted ∪ rejected = v.submittedProofIds.toFinset)
    "proof evidence states must partition submitted proofs"
  let populated := ([pending, accepted, rejected].filter (· ≠ ∅)).length
  let expected :=
    if v.submittedProofIds = [] then "not_submitted"
    else if 1 < populated then "mixed_candidates"
    else if pending ≠ ∅ then "candidate_pending_verification"
    else if accepted ≠ ∅ then "verified_candidate_available"
    else "all_candidates_rejected"
  ensure (v.state = expected) "prover verification state conflicts with candidate evidence"

/-- `UnresolvedHumanReviewAssumption`. -/
def readReviewAssumption (r : ReviewAssumption) : Validation :=
  ensure (Fits 256 r.id ∧ r.kind ∈ ["gap", "contract_change"] ∧ r.state = "unresolved" ∧ 1 ≤ r.sourceEventSequence ∧
    Fits 256 r.sourceEventId ∧ ∀ d ∈ r.evidenceDigest, Fits 256 d) "unresolved_human_review_assumptions"

/-- `MathematicalDependencyLeverage`. -/
def readLeverageRow (row : LeverageRow) : Validation :=
  ensure (Fits 768 row.nodeId ∧ Fits 256 row.sourceNodeId ∧ Fits 512 row.label) "mathematical_dependency_leverage"

def allowedStates (phase : String) : List String :=
  if phase = "builder_fidelity" then ["recorded"]
  else if phase = "prover_candidate" then ["pending"]
  else if phase = "prover_verification" then ["accepted", "rejected"]
  else ["unresolved"]

/-- `validate_phase_reference`. -/
def validatePhaseReference (m : Milestone) : Validation := do
  ensure (m.state ∈ allowedStates m.phase) "milestone state conflicts with its phase"
  if m.phase ∈ ["prover_candidate", "prover_verification"] then
    ensure (m.proofId ≠ none ∧ m.reviewAssumptionId = none) "prover milestones require only a proof reference"
  else if m.phase = "human_review" then
    ensure (m.reviewAssumptionId ≠ none ∧ m.proofId = none) "human-review milestones require only a review reference"
  else
    ensure (m.proofId = none ∧ m.reviewAssumptionId = none)
      "builder milestones cannot carry proof or review references"

/-- `FeedbackMilestone`. -/
def readMilestone (m : Milestone) : Validation := do
  ensure (m.phase ∈ ["builder_fidelity", "prover_candidate", "prover_verification", "human_review"] ∧
    m.state ∈ ["recorded", "pending", "accepted", "rejected", "unresolved"] ∧ 1 ≤ m.sourceEventSequence ∧
    Fits 256 m.sourceEventId ∧ (∀ d ∈ m.evidenceDigest, Fits 256 d) ∧ (∀ i ∈ m.proofId, Fits 256 i) ∧
    ∀ i ∈ m.reviewAssumptionId, Fits 256 i) "milestones"
  validatePhaseReference m

/-- `validate_replay_linkage`. -/
def validateReplayLinkage (r : Replay) : Validation := do
  let sequences := r.relevantEventSequences
  ensure (sequences.toFinset.sort (· ≤ ·) = sequences) "relevant event sequences must be strictly increasing"
  ensure (r.relevantEventCount = sequences.length) "relevant event count does not match its sequence linkage"
  ensure (sequences.head? = some r.firstRelevantEventSequence ∧ sequences.getLast? = some r.lastRelevantEventSequence)
    "relevant event bounds do not match their sequence linkage"
  ensure (r.lastRelevantEventSequence ≤ r.replayHeadEventSequence) "replay head cannot precede a relevant event"
  let atHead := r.replayHeadEventSequence = r.lastRelevantEventSequence
  ensure (r.lastRelevantEventIsReplayHead = atHead) "replay-head status conflicts with event linkage"
  ensure (r.eventsObservedAfterLastRelevant = 0 ↔ atHead) "events-after count conflicts with replay-head status"
  ensure (atHead → r.lastRelevantEventId = r.replayHeadEventId ∧
    r.lastRelevantEventRecordedAt = r.replayHeadRecordedAt)
    "replay-head evidence conflicts with the last relevant event"

/-- `FeedbackReplayLinkage`. -/
def readReplay (r : Replay) : Validation := do
  ensure (1 ≤ r.firstRelevantEventSequence ∧ 1 ≤ r.lastRelevantEventSequence ∧ Fits 256 r.lastRelevantEventId ∧
    1 ≤ r.relevantEventCount ∧ (∀ n ∈ r.relevantEventSequences, 1 ≤ n) ∧ r.relevantEventSequences ≠ [] ∧
    1 ≤ r.replayHeadEventSequence ∧ Fits 256 r.replayHeadEventId) "replay"
  validateReplayLinkage r

/-- The proofs of the candidate milestones, each with its position. -/
def candidatesOf (milestones : List Milestone) : List (String × Nat) :=
  milestones.filterMap fun m =>
    if m.phase = "prover_candidate" then m.proofId.map fun proofId => (proofId, m.sourceEventSequence) else none

/-- One milestone of the loop over the verdicts. -/
def takeTerminal (candidates : List (String × Nat)) (terminals : List (String × Milestone)) (m : Milestone) :
    Except String (List (String × Milestone)) :=
  match m.proofId with
  | none => .ok terminals
  | some proofId =>
    if m.phase ≠ "prover_verification" then .ok terminals
    else match lastWrite terminals proofId with
      | some previous => .error (if previous.state ≠ m.state
        then "proof evidence has conflicting accepted and rejected terminals"
        else "proof evidence has a duplicate terminal verification")
      | none => match lastWrite candidates proofId with
        | none => .error "terminal verification has no candidate submission"
        | some position => do
          ensure (position < m.sourceEventSequence) "terminal verification precedes its candidate submission"
          pure (terminals ++ [(proofId, m)])

/-- The proofs whose verdict is in the state. -/
def terminalsIn (state : String) (terminals : List (String × Milestone)) : Finset String :=
  ((terminals.filter fun t => t.2.state = state).map (·.1)).toFinset

/-- The reviews by their identifiers, as the items and as the milestones tell of them. -/
def reviewEvidence (reviews : List ReviewAssumption) : List (String × Nat × String) :=
  reviews.map fun r => (r.id, r.sourceEventSequence, r.sourceEventId)

def milestoneReviewEvidence (milestones : List Milestone) : List (String × Nat × String) :=
  milestones.filterMap fun m => if m.phase = "human_review" then
    m.reviewAssumptionId.map fun id => (id, m.sourceEventSequence, m.sourceEventId) else none

/-- The keys that `leverage_order` and `direct_order` are sorted by. -/
def leverageKey (row : LeverageRow) : ℤ ×ₗ ℤ ×ₗ String :=
  toLex (-(row.transitiveDependents.getD 0 : ℤ), toLex (-(row.directDependents : ℤ), row.nodeId))

def directKey (row : LeverageRow) : ℤ ×ₗ String := toLex (-(row.directDependents : ℤ), row.nodeId)

/-- The part of `validate_milestone_linkage` on the leverage. -/
def validateLeverage (leverage : Leverage) : Validation := do
  let rows := leverage.rows
  ensure ((rows.map (·.nodeId)).Nodup) "mathematical dependency leverage node IDs must be unique"
  ensure (rows.length = leverage.nodeCount) "mathematical dependency leverage must include every task node"
  if leverage.mode = "exact_transitive" then
    ensure (leverage.nodeCount ≤ 512) "exact transitive leverage exceeds its node limit"
    ensure (∀ row ∈ rows, row.transitiveDependents ≠ none) "exact transitive leverage requires every transitive count"
    ensure ((rows.map leverageKey).insertionSort (· ≤ ·) = rows.map leverageKey)
      "mathematical dependency leverage must be ranked by structural reach"
  else
    ensure (512 < leverage.nodeCount) "direct-only leverage requires a graph over the node limit"
    ensure (∀ row ∈ rows, row.transitiveDependents = none) "direct-only leverage must omit transitive counts"
    ensure ((rows.map directKey).insertionSort (· ≤ ·) = rows.map directKey)
      "direct-only leverage must be ranked by direct dependents"

/-- `validate_milestone_linkage`. -/
def validateMilestoneLinkage (f : PhaseFeedback) : Validation := do
  let sequences := f.milestones.map (·.sourceEventSequence)
  ensure (sequences.insertionSort (· ≤ ·) = sequences) "feedback milestones must follow replay order"
  ensure (sequences = f.replay.relevantEventSequences) "feedback milestones must exactly match relevant replay events"
  match f.milestones.head? with
  | none => .error "phase feedback must begin at Builder fidelity registration"
  | some builder =>
    ensure (builder.phase = "builder_fidelity") "phase feedback must begin at Builder fidelity registration"
    ensure (builder.sourceEventSequence = f.builderFidelity.registrationEventSequence ∧
      builder.sourceEventId = f.builderFidelity.registrationEventId)
      "Builder milestone conflicts with its registration evidence"
    let candidates := candidatesOf f.milestones
    ensure (candidates.map (·.1) = f.proverVerification.submittedProofIds)
      "submitted proof evidence conflicts with candidate milestones"
    let terminals ← f.milestones.foldlM (takeTerminal candidates) []
    ensure (terminalsIn "accepted" terminals = f.proverVerification.acceptedProofIds.toFinset ∧
      terminalsIn "rejected" terminals = f.proverVerification.rejectedProofIds.toFinset)
      "terminal proof evidence conflicts with verification milestones"
    let evidence := reviewEvidence f.unresolvedHumanReviewAssumptions
    ensure ((evidence.map (·.1)).Nodup) "human-review assumption IDs must be unique"
    let told := milestoneReviewEvidence f.milestones
    ensure (∀ id ∈ (evidence ++ told).map Prod.fst, lastWrite evidence id = lastWrite told id)
      "human-review assumptions conflict with their milestones"
    validateLeverage f.leverage

/-- `PhaseFeedback`. -/
def readPhaseFeedback (f : PhaseFeedback) : Validation := do
  ensure (Fits 256 f.taskId) "task_id"
  readBuilderFidelity f.builderFidelity
  validateEvidencePartition f.proverVerification
  f.unresolvedHumanReviewAssumptions.forM readReviewAssumption
  ensure (f.leverage.mode ∈ ["exact_transitive", "direct_only_over_limit"]) "dependency_leverage_mode"
  f.leverage.rows.forM readLeverageRow
  f.milestones.forM readMilestone
  readReplay f.replay
  validateMilestoneLinkage f

/-- `DashboardSnapshot.model_validate`. -/
def readSnapshot (isDatetime : String → Bool) (d : Document) : Validation := do
  d.nodes.forM (readGraphNode isDatetime)
  d.runs.forM readRunSummary
  d.artifacts.forM readArtifactSummary
  d.events.forM readEventView
  d.phaseFeedback.forM readPhaseFeedback

end Autolean.Dashboard
