import Autolean.Contracts.Values
import Autolean.Machine.Raising
import Autolean.Graphs.Declared

/-! Pilot graphs of the Builder: their validation, the closure of a target under its
dependencies and the blockers that keep a target from admission. -/
namespace Autolean.Builder.Pilot
open Contracts Machine Machine.Raising Graphs Relation

inductive PilotAdmissionMode where
  | conditionalCandidate
  | overlapBlockedReference
  deriving DecidableEq

inductive PilotSourceStatus where
  | verified
  | verifiedLocalCopy
  | pendingAcquisition
  | rightsRestricted
  deriving DecidableEq

inductive PilotReviewState where
  | pending
  | accepted
  | rejected
  deriving DecidableEq

inductive PilotNodeKind where
  | textbookDefinition
  | dependencyLemma
  | targetClaim
  | mathlibMapping
  deriving DecidableEq

inductive PilotBlockerKind where
  | upstreamOverlap
  | sourceProvenance
  | rights
  | mathlibCensus
  | humanReview
  deriving DecidableEq

inductive PilotBlockerState where
  | active
  | resolved
  deriving DecidableEq

inductive CalibrationRole where
  | sourceAnalyst
  | normalizer
  | mathlibMapper
  | challengeAuthor
  | semanticReviewer
  deriving DecidableEq

def CalibrationRole.value : CalibrationRole → String
  | sourceAnalyst => "source_analyst"
  | normalizer => "normalizer"
  | mathlibMapper => "mathlib_mapper"
  | challengeAuthor => "challenge_author"
  | semanticReviewer => "semantic_reviewer"

/-- `^[a-z][a-z0-9-]{2,n}$`. -/
def IsPilotId (n : Nat) (s : String) : Prop :=
  3 ≤ s.toList.length ∧ s.toList.length ≤ n + 1 ∧ s.toList.head?.any (fun c => 'a' ≤ c && c ≤ 'z') = true ∧
    s.toList.all (fun c => ('a' ≤ c && c ≤ 'z') || c.isDigit || c = '-') = true

instance (n : Nat) (s : String) : Decidable (IsPilotId n s) := inferInstanceAs (Decidable (_ ∧ _ ∧ _ ∧ _))

/-- What the graph reads of the textbook it is bound to. -/
structure TextbookReferenceBinding where
  anchorIds : List String
  priorDependencyReviewState : PilotReviewState
  anchors_unique : anchorIds ≠ [] ∧ anchorIds.Nodup

def isVerifiedSourceStatus (status : PilotSourceStatus) : Bool := status = .verified || status = .verifiedLocalCopy

/-- A source is bound to a textbook exactly when it is verified. -/
structure PilotSourceAdmission where
  status : PilotSourceStatus
  reference : Option TextbookReferenceBinding
  status_bound : isVerifiedSourceStatus status = reference.isSome

structure CalibrationRequirement where
  role : CalibrationRole
  reviewState : PilotReviewState

structure PilotNode where
  nodeId : String
  kind : PilotNodeKind
  sourceAnchorIds : List String
  dependsOn : List String
  reviewState : PilotReviewState
  nodeId_shaped : IsPilotId 63 nodeId

structure FeedbackGate where
  gateId : String
  targetNodeId : String
  reviewState : PilotReviewState
  gateId_shaped : IsPilotId 63 gateId

structure PilotAdmissionBlocker where
  blockerId : String
  kind : PilotBlockerKind
  state : PilotBlockerState
  blockerId_shaped : IsPilotId 95 blockerId

/-- The fields of a graph, before its own validator. -/
structure PilotGraphFields where
  admissionMode : PilotAdmissionMode
  source : PilotSourceAdmission
  censusReviewState : PilotReviewState
  calibrationRequirements : List CalibrationRequirement
  nodes : List PilotNode
  feedbackGates : List FeedbackGate
  blockers : List PilotAdmissionBlocker
  lengths : 3 ≤ calibrationRequirements.length ∧ 3 ≤ nodes.length ∧ 1 ≤ feedbackGates.length

/-- A `ValueError` or a `PilotHarnessError` with its message. -/
abbrev PilotOutcome (α : Type) := Except String α

/-- The state when the queue of `_assert_acyclic` is empty. -/
def removedNodes (nodes : List PilotNode) : Removal String :=
  Removal.run id (fun nodeId => dependentsOf PilotNode.nodeId PilotNode.dependsOn nodes nodeId) nodes.length
    ⟨fun nodeId => dependencyCount PilotNode.nodeId PilotNode.dependsOn nodes nodeId,
      (nodes.map (·.nodeId)).filter fun nodeId => dependencyCount PilotNode.nodeId PilotNode.dependsOn nodes nodeId = 0, []⟩

/-- `_assert_acyclic`. -/
def assertAcyclic (nodes : List PilotNode) : PilotOutcome Unit :=
  ensure ((removedNodes nodes).ordered.length = nodes.length) "pilot dependency graph must be acyclic"

namespace PilotGraphFields
variable (g : PilotGraphFields)

/-- The anchors of the bound textbook. -/
def anchorIds : List String := (g.source.reference.map (·.anchorIds)).getD []

/-- One turn of the loop over the nodes. -/
def validateNode (node : PilotNode) : PilotOutcome Unit := do
  ensure node.dependsOn.Nodup "pilot node dependencies must be unique"
  ensure (node.nodeId ∉ node.dependsOn) "pilot node cannot depend on itself"
  ensure (∀ dependency ∈ node.dependsOn, dependency ∈ g.nodes.map (·.nodeId)) "pilot node dependency is absent from the graph"
  if isVerifiedSourceStatus g.source.status then
    ensure (node.sourceAnchorIds ≠ [] ∧ ∀ anchorId ∈ node.sourceAnchorIds, anchorId ∈ g.anchorIds)
      "verified pilot node must cite known textbook anchors"
  else ensure (node.sourceAnchorIds = []) "unverified pilot node cannot claim source anchors"

/-- The nodes without dependencies. -/
def roots : List PilotNode := g.nodes.filter fun node => node.dependsOn = []

/-- `validate_graph`. -/
def validateGraph : PilotOutcome Unit := do
  ensure (g.nodes.map (·.nodeId)).Nodup "pilot node identifiers must be unique"
  ensure (g.calibrationRequirements.map (·.role)).Nodup "pilot calibration roles must be unique"
  ensure (∀ role ∈ [CalibrationRole.normalizer, .challengeAuthor, .semanticReviewer],
    role ∈ g.calibrationRequirements.map (·.role))
    "pilot graph lacks an independent calibration role"
  ensure (g.blockers.map (·.blockerId)).Nodup "pilot admission blocker identifiers must be unique"
  g.nodes.forM g.validateNode
  ensure (g.roots.map (·.kind) = [.textbookDefinition]) "pilot graph must start from exactly one textbook definition"
  assertAcyclic g.nodes
  ensure (g.feedbackGates.map (·.gateId)).Nodup "feedback gate identifiers must be unique"
  ensure (∀ gate ∈ g.feedbackGates, gate.targetNodeId ∈ g.nodes.map (·.nodeId)) "feedback gate targets an absent pilot node"
  ensure (g.admissionMode = .overlapBlockedReference →
      ∃ blocker ∈ g.blockers, blocker.kind = .upstreamOverlap ∧ blocker.state = .active)
    "overlap-blocked reference graph needs an active overlap blocker"

end PilotGraphFields

/-- A graph its validator accepted. -/
structure PilotGraph extends PilotGraphFields where
  valid : toPilotGraphFields.validateGraph = .ok ()

namespace PilotGraph
variable (g : PilotGraph)

/-- The state when nothing is pending in `target_closure`. -/
def visitFrom (targetNodeId : String) : Visit String :=
  Visit.run (dependenciesOf PilotNode.nodeId PilotNode.dependsOn g.nodes) (fun _ => false)
    (1 + (g.nodes.map (·.dependsOn.length)).sum) ⟨[], [targetNodeId]⟩

/-- `target_closure`. -/
def targetClosure (targetNodeId : String) : PilotOutcome (List PilotNode) := do
  ensure (targetNodeId ∈ g.nodes.map (·.nodeId)) ("pilot target node is absent: " ++ targetNodeId)
  pure (g.nodes.filter fun node => node.nodeId ∈ (g.visitFrom targetNodeId).seen)

/-- The blockers that do not depend on the selected nodes. -/
def sharedBlockerIds : List String :=
  ((g.blockers.filter fun blocker => blocker.state = .active).map (·.blockerId)) ++
  (if isVerifiedSourceStatus g.source.status = false then ["source-provenance-pending"]
    else match g.source.reference with
      | some reference => if reference.priorDependencyReviewState = .accepted then [] else ["textbook-entry-dependencies-pending"]
      | none => []) ++
  (if g.censusReviewState = .accepted then [] else ["current-mathlib-census-pending"]) ++
  (g.calibrationRequirements.filter fun requirement => requirement.reviewState ≠ .accepted).map fun requirement =>
    "review-" ++ requirement.role.value ++ "-pending"

/-- The blockers of the selected nodes and of the gates that target them. -/
def selectedBlockerIds (selectedNodes : List PilotNode) : List String :=
  ((selectedNodes.filter fun node => node.reviewState ≠ .accepted).map fun node => "node-" ++ node.nodeId ++ "-review-pending") ++
  ((g.feedbackGates.filter fun gate => gate.targetNodeId ∈ selectedNodes.map (·.nodeId) ∧ gate.reviewState ≠ .accepted).map
    fun gate => "feedback-" ++ gate.gateId ++ "-pending")

/-- `admission_blocker_ids`; without a target the whole graph is selected. -/
def admissionBlockerIds (targetNodeId : Option String) : PilotOutcome (Finset String) := do
  let selectedNodes ← match targetNodeId with
    | none => pure g.nodes
    | some targetNodeId => g.targetClosure targetNodeId
  pure (g.sharedBlockerIds ++ g.selectedBlockerIds selectedNodes ++
    if g.admissionMode = .overlapBlockedReference then ["reference-only-overlap-blocked"] else []).toFinset

/-- The first node declares the second as a dependency. -/
def DependsOn (a b : String) : Prop := Depends PilotNode.nodeId PilotNode.dependsOn g.nodes a b

/-! What the validator promises -/

theorem nodes_unique : (g.nodes.map (·.nodeId)).Nodup := (ensure_bind_eq_ok.mp g.valid).1

theorem node_valid {node : PilotNode} (h : node ∈ g.nodes) : g.validateNode node = .ok () := by
  obtain ⟨-, hvalid⟩ := ensure_bind_eq_ok.mp g.valid
  obtain ⟨-, hvalid⟩ := ensure_bind_eq_ok.mp hvalid
  obtain ⟨-, hvalid⟩ := ensure_bind_eq_ok.mp hvalid
  obtain ⟨-, hvalid⟩ := ensure_bind_eq_ok.mp hvalid
  exact forM_eq_ok.mp (seq_eq_ok.mp hvalid).1 node h

theorem dependencies_known : DependenciesKnown PilotNode.nodeId PilotNode.dependsOn g.nodes := by
  intro node hnode
  obtain ⟨-, hvalid⟩ := ensure_bind_eq_ok.mp (g.node_valid hnode)
  obtain ⟨-, hvalid⟩ := ensure_bind_eq_ok.mp hvalid
  exact (ensure_bind_eq_ok.mp hvalid).1

/-- An accepted graph has no cycle of dependencies. -/
theorem acyclic : Acyclic fun a b => g.DependsOn b a := by
  have hend := declared_removed_spec id (fun nodeId => dependentsOf PilotNode.nodeId PilotNode.dependsOn g.nodes nodeId)
    (fun _ => .refl _)
    g.nodes_unique g.dependencies_known (fun _ => .refl _) (.refl _)
  apply hend.2.2.2.2.2.mp
  obtain ⟨-, hvalid⟩ := ensure_bind_eq_ok.mp g.valid
  obtain ⟨-, hvalid⟩ := ensure_bind_eq_ok.mp hvalid
  obtain ⟨-, hvalid⟩ := ensure_bind_eq_ok.mp hvalid
  obtain ⟨-, hvalid⟩ := ensure_bind_eq_ok.mp hvalid
  obtain ⟨-, hvalid⟩ := seq_eq_ok.mp hvalid
  obtain ⟨-, hvalid⟩ := ensure_bind_eq_ok.mp hvalid
  exact ensure_eq_ok.mp (seq_eq_ok.mp hvalid).1

/-! The closure of a target -/

variable {g}

theorem mem_dependencies {a b : String} :
    b ∈ dependenciesOf PilotNode.nodeId PilotNode.dependsOn g.nodes a ↔ g.DependsOn a b :=
  mem_dependenciesOf g.nodes_unique

/-- The search has ended, and it marked what the target depends on. -/
theorem visitFrom_spec {targetNodeId : String} (htarget : targetNodeId ∈ g.nodes.map (·.nodeId)) :
    (g.visitFrom targetNodeId).pending = [] ∧
      ∀ nodeId, nodeId ∈ (g.visitFrom targetNodeId).seen ↔ ReflTransGen g.DependsOn targetNodeId nodeId := by
  have hknown : ∀ a ∈ (g.nodes.map (·.nodeId)).toFinset, ∀ b ∈ dependenciesOf PilotNode.nodeId PilotNode.dependsOn g.nodes a,
      b ∈ (g.nodes.map (·.nodeId)).toFinset := by
    intro a _ b hb
    obtain ⟨node, hnode, -, hdependency⟩ := mem_dependencies.mp hb
    exact List.mem_toFinset.mpr (g.dependencies_known node hnode b hdependency)
  have hstart : Visiting (g.nodes.map (·.nodeId)).toFinset (dependenciesOf PilotNode.nodeId PilotNode.dependsOn g.nodes)
      (fun _ => false) [targetNodeId] ⟨[], [targetNodeId]⟩ := Visiting.initial (by simpa using htarget)
  have hlength : ∀ node ∈ g.nodes, (dependenciesOf PilotNode.nodeId PilotNode.dependsOn g.nodes node.nodeId).length =
      node.dependsOn.length := by
    intro node hnode
    rw [dependenciesOf, (nodeAt_eq_some g.nodes_unique).mpr ⟨hnode, rfl⟩]
    rfl
  have hpotential : Visit.potential (g.nodes.map (·.nodeId)).toFinset
      (dependenciesOf PilotNode.nodeId PilotNode.dependsOn g.nodes) ⟨[], [targetNodeId]⟩ =
        1 + (g.nodes.map (·.dependsOn.length)).sum := by
    simp only [Visit.potential, List.toFinset_nil, Finset.sdiff_empty, List.length_singleton]
    rw [List.sum_toFinset _ g.nodes_unique, List.map_map]
    congr 2
    exact List.map_congr_left hlength
  have hpending := hstart.exhausted hknown hpotential.le
  refine ⟨hpending, fun nodeId => ?_⟩
  refine ((hstart.run hknown _).mem_seen_iff hpending (by simp)).trans ?_
  simp only [List.mem_singleton, exists_eq_left, true_and, mem_dependencies]

theorem targetClosure_eq {targetNodeId : String} {closure : List PilotNode} :
    g.targetClosure targetNodeId = .ok closure ↔ targetNodeId ∈ g.nodes.map (·.nodeId) ∧
      closure = g.nodes.filter fun node => node.nodeId ∈ (g.visitFrom targetNodeId).seen := by
  unfold targetClosure
  rw [ensure_bind_eq_ok]
  simp only [pure, Except.pure, Except.ok.injEq, eq_comm]

theorem mem_targetClosure {targetNodeId : String} {closure : List PilotNode} (h : g.targetClosure targetNodeId = .ok closure)
    {node : PilotNode} : node ∈ closure ↔ node ∈ g.nodes ∧ ReflTransGen g.DependsOn targetNodeId node.nodeId := by
  obtain ⟨htarget, rfl⟩ := targetClosure_eq.mp h
  rw [List.mem_filter, decide_eq_true_eq, (visitFrom_spec htarget).2]

/-- What a target depends on has a smaller closure. -/
theorem targetClosure_subset {t t' : String} {closure closure' : List PilotNode} (h : g.targetClosure t = .ok closure)
    (h' : g.targetClosure t' = .ok closure') (hreach : ReflTransGen g.DependsOn t t') : closure' ⊆ closure := by
  intro node hnode
  obtain ⟨hmem, hnode⟩ := (mem_targetClosure h').mp hnode
  exact (mem_targetClosure h).mpr ⟨hmem, hreach.trans hnode⟩

/-! Blockers -/

/-- What keeps the selected nodes from admission, under the identifier it is reported by. -/
inductive Blocks (g : PilotGraph) (selectedNodes : List PilotNode) : String → Prop where
  | blocker {blocker : PilotAdmissionBlocker} (h : blocker ∈ g.blockers) (active : blocker.state = .active) :
    Blocks g selectedNodes blocker.blockerId
  | source (unverified : isVerifiedSourceStatus g.source.status = false) :
    Blocks g selectedNodes "source-provenance-pending"
  | textbook {reference : TextbookReferenceBinding} (h : g.source.reference = some reference)
      (pending : reference.priorDependencyReviewState ≠ .accepted) :
    Blocks g selectedNodes "textbook-entry-dependencies-pending"
  | census (pending : g.censusReviewState ≠ .accepted) : Blocks g selectedNodes "current-mathlib-census-pending"
  | calibration {requirement : CalibrationRequirement} (h : requirement ∈ g.calibrationRequirements)
      (pending : requirement.reviewState ≠ .accepted) :
    Blocks g selectedNodes ("review-" ++ requirement.role.value ++ "-pending")
  | node {node : PilotNode} (h : node ∈ selectedNodes) (pending : node.reviewState ≠ .accepted) :
    Blocks g selectedNodes ("node-" ++ node.nodeId ++ "-review-pending")
  | gate {gate : FeedbackGate} (h : gate ∈ g.feedbackGates) (target : gate.targetNodeId ∈ selectedNodes.map (·.nodeId))
      (pending : gate.reviewState ≠ .accepted) :
    Blocks g selectedNodes ("feedback-" ++ gate.gateId ++ "-pending")
  | overlap (reference : g.admissionMode = .overlapBlockedReference) :
    Blocks g selectedNodes "reference-only-overlap-blocked"

/-- A larger selection is blocked by what blocks a smaller one. -/
theorem Blocks.mono {some' all : List PilotNode} {blockerId : String} (h : some' ⊆ all)
    (hblocks : g.Blocks some' blockerId) : g.Blocks all blockerId := by
  cases hblocks with
  | blocker hblocker active => exact .blocker hblocker active
  | source unverified => exact .source unverified
  | textbook hreference pending => exact .textbook hreference pending
  | census pending => exact .census pending
  | calibration hrequirement pending => exact .calibration hrequirement pending
  | node hnode pending => exact .node (h hnode) pending
  | gate hgate target pending => exact .gate hgate (List.map_subset _ h target) pending
  | overlap reference => exact .overlap reference

theorem mem_sharedBlockerIds {selectedNodes : List PilotNode} {blockerId : String} (h : blockerId ∈ g.sharedBlockerIds) :
    g.Blocks selectedNodes blockerId := by
  unfold sharedBlockerIds at h
  simp only [List.mem_append, List.mem_map, List.mem_filter, decide_eq_true_eq] at h
  rcases h with ((⟨blocker, ⟨hblocker, active⟩, rfl⟩ | hsource) | hcensus) | ⟨requirement, ⟨hrequirement, pending⟩, rfl⟩
  · exact .blocker hblocker active
  · split_ifs at hsource with hunverified
    · rw [List.mem_singleton.mp hsource]
      exact .source hunverified
    · cases hreference : g.source.reference with
      | none =>
        rw [hreference] at hsource
        cases hsource
      | some reference =>
        simp only [hreference] at hsource
        split_ifs at hsource with haccepted
        · cases hsource
        · rw [List.mem_singleton.mp hsource]
          exact .textbook hreference haccepted
  · split_ifs at hcensus with haccepted
    · cases hcensus
    · rw [List.mem_singleton.mp hcensus]
      exact .census haccepted
  · exact .calibration hrequirement pending

theorem mem_selectedBlockerIds {selectedNodes : List PilotNode} {blockerId : String}
    (h : blockerId ∈ g.selectedBlockerIds selectedNodes) : g.Blocks selectedNodes blockerId := by
  unfold selectedBlockerIds at h
  simp only [List.mem_append, List.mem_map, List.mem_filter, decide_eq_true_eq] at h
  rcases h with ⟨node, ⟨hnode, pending⟩, rfl⟩ | ⟨gate, ⟨hgate, htarget, pending⟩, rfl⟩
  · exact .node hnode pending
  · exact .gate hgate (List.mem_map.mpr htarget) pending

/-- The blockers of a selection. -/
def blockersOf (g : PilotGraph) (selectedNodes : List PilotNode) : Finset String :=
  (g.sharedBlockerIds ++ g.selectedBlockerIds selectedNodes ++
    if g.admissionMode = .overlapBlockedReference then ["reference-only-overlap-blocked"] else []).toFinset

/-- The blockers of a selection are what keeps it from admission. -/
theorem mem_blockersOf {selectedNodes : List PilotNode} {blockerId : String} :
    blockerId ∈ g.blockersOf selectedNodes ↔ g.Blocks selectedNodes blockerId := by
  unfold blockersOf
  rw [List.mem_toFinset, List.mem_append, List.mem_append]
  constructor
  · rintro ((hshared | hselected) | hoverlap)
    · exact mem_sharedBlockerIds hshared
    · exact mem_selectedBlockerIds hselected
    · split_ifs at hoverlap with hreference
      · rw [List.mem_singleton.mp hoverlap]
        exact .overlap hreference
      · cases hoverlap
  · intro h
    cases h with
    | blocker hblocker active =>
      refine .inl (.inl ?_)
      simp only [sharedBlockerIds, List.mem_append, List.mem_map, List.mem_filter, decide_eq_true_eq]
      exact .inl (.inl (.inl ⟨_, ⟨hblocker, active⟩, rfl⟩))
    | source unverified =>
      refine .inl (.inl ?_)
      simp [sharedBlockerIds, unverified]
    | @textbook reference hreference pending =>
      have hverified : isVerifiedSourceStatus g.source.status = true := by
        rw [g.source.status_bound, hreference]
        rfl
      refine .inl (.inl ?_)
      simp [sharedBlockerIds, hverified, hreference, pending]
    | census pending =>
      refine .inl (.inl ?_)
      simp [sharedBlockerIds, pending]
    | calibration hrequirement pending =>
      refine .inl (.inl ?_)
      simp only [sharedBlockerIds, List.mem_append, List.mem_map, List.mem_filter, decide_eq_true_eq]
      exact .inr ⟨_, ⟨hrequirement, pending⟩, rfl⟩
    | node hnode pending =>
      refine .inl (.inr ?_)
      simp only [selectedBlockerIds, List.mem_append, List.mem_map, List.mem_filter, decide_eq_true_eq]
      exact .inl ⟨_, ⟨hnode, pending⟩, rfl⟩
    | gate hgate target pending =>
      refine .inl (.inr ?_)
      simp only [selectedBlockerIds, List.mem_append, List.mem_map, List.mem_filter, decide_eq_true_eq]
      exact .inr ⟨_, ⟨hgate, List.mem_map.mp target, pending⟩, rfl⟩
    | overlap reference =>
      refine .inr ?_
      rw [if_pos reference]
      exact List.mem_cons_self

theorem blockersOf_mono {some' all : List PilotNode} (h : some' ⊆ all) : g.blockersOf some' ⊆ g.blockersOf all :=
  fun _ hblocker => mem_blockersOf.mpr ((mem_blockersOf.mp hblocker).mono h)

theorem admissionBlockerIds_none : g.admissionBlockerIds none = .ok (g.blockersOf g.nodes) := rfl

theorem admissionBlockerIds_some {t : String} {closure : List PilotNode} (h : g.targetClosure t = .ok closure) :
    g.admissionBlockerIds (some t) = .ok (g.blockersOf closure) := by
  unfold admissionBlockerIds
  simp only [h, ok_bind]
  rfl

end PilotGraph

/-- The closure of a target lists what it reaches along dependencies, once each and in
declared order; its blockers are what keeps that closure from admission, they contain those
of each node it depends on, and they are among the blockers of the graph. -/
theorem pilot_admission_monotone (g : PilotGraph) : ∀ t ∈ g.nodes.map (·.nodeId),
    ∃ closure blockers all, g.targetClosure t = .ok closure ∧ g.admissionBlockerIds (some t) = .ok blockers ∧
      g.admissionBlockerIds none = .ok all ∧ closure.Sublist g.nodes ∧ (closure.map (·.nodeId)).Nodup ∧
      (∀ node, node ∈ closure ↔ node ∈ g.nodes ∧ ReflTransGen g.DependsOn t node.nodeId) ∧
      (∀ blockerId, blockerId ∈ blockers ↔ g.Blocks closure blockerId) ∧ blockers ⊆ all ∧
      ∀ node ∈ closure, ∃ below, g.admissionBlockerIds (some node.nodeId) = .ok below ∧ below ⊆ blockers := by
  intro t ht
  obtain ⟨closure, hclosure⟩ : ∃ closure, g.targetClosure t = .ok closure := ⟨_, PilotGraph.targetClosure_eq.mpr ⟨ht, rfl⟩⟩
  have hsublist : closure.Sublist g.nodes := by
    obtain ⟨-, rfl⟩ := PilotGraph.targetClosure_eq.mp hclosure
    exact List.filter_sublist
  refine ⟨closure, _, _, hclosure, PilotGraph.admissionBlockerIds_some hclosure, PilotGraph.admissionBlockerIds_none, hsublist,
    g.nodes_unique.sublist (hsublist.map _), fun node => PilotGraph.mem_targetClosure hclosure,
    fun _ => PilotGraph.mem_blockersOf, PilotGraph.blockersOf_mono hsublist.subset, fun node hnode => ?_⟩
  obtain ⟨hmem, hreach⟩ := (PilotGraph.mem_targetClosure hclosure).mp hnode
  obtain ⟨below, hbelow⟩ : ∃ below, g.targetClosure node.nodeId = .ok below :=
    ⟨_, PilotGraph.targetClosure_eq.mpr ⟨List.mem_map_of_mem hmem, rfl⟩⟩
  exact ⟨_, PilotGraph.admissionBlockerIds_some hbelow,
    PilotGraph.blockersOf_mono (PilotGraph.targetClosure_subset hclosure hbelow hreach)⟩

/-! A definition, a lemma and a target in one chain -/

section Sample

private theorem sample_id : IsPilotId 63 "definition" ∧ IsPilotId 63 "lemma" ∧ IsPilotId 63 "target" := by decide

def sampleDefinition : PilotNode := ⟨"definition", .textbookDefinition, [], [], .pending, sample_id.1⟩

def sampleNodes : List PilotNode :=
  [sampleDefinition,
    ⟨"lemma", .dependencyLemma, [], ["definition"], .accepted, sample_id.2.1⟩,
    ⟨"target", .targetClaim, [], ["lemma"], .accepted, sample_id.2.2⟩]

def sampleFields : PilotGraphFields where
  admissionMode := .conditionalCandidate
  source := ⟨.pendingAcquisition, none, rfl⟩
  censusReviewState := .accepted
  calibrationRequirements := [⟨.normalizer, .accepted⟩, ⟨.challengeAuthor, .accepted⟩, ⟨.semanticReviewer, .pending⟩]
  nodes := sampleNodes
  feedbackGates := [⟨"target", "target", .pending, sample_id.2.2⟩]
  blockers := []
  lengths := by decide

theorem sampleFields_valid : sampleFields.validateGraph = .ok () := by rfl

def sampleGraph : PilotGraph := ⟨sampleFields, sampleFields_valid⟩

/-- The pending definition blocks the lemma: what blocks the one is among what blocks the other. -/
theorem pilot_admission_monotone_sample : ∃ closure blockers below all, sampleGraph.targetClosure "lemma" = .ok closure ∧
    closure.map (·.nodeId) = ["definition", "lemma"] ∧ sampleGraph.admissionBlockerIds (some "lemma") = .ok blockers ∧
      sampleGraph.admissionBlockerIds (some "definition") = .ok below ∧ sampleGraph.admissionBlockerIds none = .ok all ∧
      "node-definition-review-pending" ∈ below ∧ below ⊆ blockers ∧ blockers ⊆ all := by
  obtain ⟨closure, blockers, all, hclosure, hblockers, hall, -, -, hmem, -, hsubset, hdependencies⟩ :=
    pilot_admission_monotone sampleGraph "lemma" (by decide)
  have hclosed : closure = sampleNodes.take 2 := by
    obtain ⟨-, rfl⟩ := PilotGraph.targetClosure_eq.mp hclosure
    rfl
  have hdefinition : sampleDefinition ∈ closure := by
    rw [hclosed]
    exact List.mem_cons_self
  obtain ⟨below, hbelow, hincluded⟩ := hdependencies _ hdefinition
  obtain ⟨closure', below', -, -, hbelow', -, -, -, hmem', hblocks', -⟩ :=
    pilot_admission_monotone sampleGraph "definition" (by decide)
  have hsame : below' = below := Except.ok.inj (hbelow'.symm.trans hbelow)
  have hpending : "node-definition-review-pending" ∈ below := by
    rw [← hsame]
    exact (hblocks' _).mpr (.node ((hmem' sampleDefinition).mpr ⟨List.mem_cons_self, .refl⟩) (by decide))
  exact ⟨closure, blockers, below, all, hclosure, by rw [hclosed]; rfl, hblockers, hbelow, hall, hpending, hincluded, hsubset⟩

end Sample

end Autolean.Builder.Pilot
