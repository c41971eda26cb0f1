import Autolean.ControlPlane.CommandWrites
import Autolean.ControlPlane.Registration
import Autolean.Benchmarks.ProjectDag

/-! The project fixture over the control plane: its operations as programs over the event
log, and the replay of the execution states they rest on. -/
namespace Autolean.Benchmarks
open Contracts Machine Raising ControlPlane Graphs Relation

inductive ProjectExecutionStatus where
  | blocked
  | ready
  | running
  | submitted
  | verified
  | invalidated
  deriving DecidableEq

structure ProjectNodeExecutionState where
  nodeId : String
  sourceFile : String
  formalDependencies : List String
  executionStatus : ProjectExecutionStatus

structure ProjectStatusProjection where
  fixtureName : String
  runId : String
  nodes : List ProjectNodeExecutionState
  relevantEventCount : Nat

def projectEventEntityType : String := "project_fixture"
def projectRegisteredEvent : String := "project.integration.registered"
def projectReplannedEvent : String := "project.api_change.replanned"
def closureKey : String := "formal_reverse_closure_node_ids"

/-- A fixture that passed its construction. The metadata of the bundles' formal nodes is
checked there too; it is no part of the bundles' model. -/
structure ProjectFixture where
  dag : ProjectDag
  runId : String
  bundles : String → Option FormalizationTaskBundle
  runId_shaped : IsNodeId runId
  bundles_exact : ∀ nodeId, (bundles nodeId).isSome = true ↔ nodeId ∈ identifiers dag.nodes
  bundleIds_unique : ∀ a b bundle bundle', bundles a = some bundle → bundles b = some bundle' →
    bundle.bundleId = bundle'.bundleId → a = b
  bundles_local : ∀ nodeId bundle, bundles nodeId = some bundle →
    bundle.graphs.mathematical.nodes = [] ∧ bundle.graphs.execution.nodes = [] ∧
      bundle.graphs.formal.nodes.length = 1 ∧ bundle.graphs.formal.edges = []

/-- A `ProjectDagError` is a `ValueError`. -/
def ofDag {α : Type} : DagOutcome α → Raises α
  | .ok a => .ok a
  | .error message => .error (.valueError message)

/-- The values of a list that holds texts only. -/
def textValues : List Json → Option (List String)
  | [] => some []
  | .str s :: rest => (s :: ·) <$> textValues rest
  | _ :: _ => none

namespace ProjectFixture

def projectEventEntityId (f : ProjectFixture) : String := f.dag.name ++ ":" ++ f.runId

def IsProjectEvent (f : ProjectFixture) (e : StoredEvent) : Prop :=
  e.entityType = projectEventEntityType ∧ e.entityId = f.projectEventEntityId

instance IsProjectEvent.decidable (f : ProjectFixture) (e : StoredEvent) : Decidable (f.IsProjectEvent e) :=
  inferInstanceAs (Decidable (_ ∧ _))

/-- `self.bundles[node_id]`. -/
def bundleOf (f : ProjectFixture) (nodeId : String) : Raises FormalizationTaskBundle :=
  match f.bundles nodeId with
  | some bundle => .ok bundle
  | none => .error (.runtimeError nodeId)

/-- `_require_node`. -/
def requireNode (f : ProjectFixture) (nodeId : String) : Raises Unit :=
  ensure (nodeId ∈ identifiers f.dag.nodes) (.valueError "unknown project DAG node")

/-- `_bundle_to_node().get(bundle_id)`. -/
def bundleToNode (f : ProjectFixture) (bundleId : String) : Option String :=
  (identifiers f.dag.nodes).find? fun nodeId => (f.bundles nodeId).map (·.bundleId.value) = some bundleId

def nodeForTaskEvent (f : ProjectFixture) (e : StoredEvent) : Option String :=
  if e.entityType = "task" then f.bundleToNode e.entityId
  else match e.payload.get "bundle_id" with
    | some (.str bundleId) => f.bundleToNode bundleId
    | _ => none

/-- `_required_project_node_ids`. -/
def requiredProjectNodeIds (f : ProjectFixture) (payload : JsonObject) (key : String) : Raises (List String) := do
  let invalid : ControlPlaneError := .valueError "project replan event has an invalid formal closure"
  match payload.list key with
  | none | some [] => .error invalid
  | some raw => match textValues raw with
    | none => .error invalid
    | some identifiers => do
      ensure (identifiers.Nodup ∧ ∀ nodeId ∈ identifiers, nodeId ∈ Benchmarks.identifiers f.dag.nodes)
        (.valueError "project replan event references an unknown formal node")
      pure identifiers

/-- The states of the nodes of the fixture. -/
abbrev States := String → ProjectExecutionStatus

/-- The state a task event puts its node in. -/
def taskState (eventType : String) : Option ProjectExecutionStatus :=
  if eventType = "task.claimed" then some .running
  else if eventType = "proof.submitted" then some .submitted
  else if eventType = "verification.accepted" then some .verified
  else if eventType = "verification.rejected" then some .blocked
  else none

/-- One event of the loop of `_execution_states`. -/
def replay (f : ProjectFixture) (states : States) (e : StoredEvent) : Raises States :=
  if e.eventType = projectReplannedEvent ∧ f.IsProjectEvent e then do
    let affected ← f.requiredProjectNodeIds e.payload closureKey
    pure fun nodeId => if nodeId ∈ affected then .invalidated else states nodeId
  else match f.nodeForTaskEvent e, taskState e.eventType with
    | some nodeId, some state => pure (Function.update states nodeId state)
    | _, _ => pure states

/-- `_execution_states`, from the events it reads. -/
def executionStates (f : ProjectFixture) (events : List StoredEvent) : Raises States :=
  events.foldlM f.replay fun _ => .blocked

def completedIn (f : ProjectFixture) (states : States) : Finset String :=
  (identifiers f.dag.nodes).toFinset.filter fun nodeId => states nodeId = .verified

/-! The operations -/

def projectEvents (f : ProjectFixture) : Call (List StoredEvent) := do
  let events ← ControlPlane.issue .readAll
  pure (events.filter fun e => f.IsProjectEvent e)

def assertRegistered (f : ProjectFixture) : Call Unit := do
  let events ← f.projectEvents
  raising (ensure (∃ e ∈ events, e.eventType = projectRegisteredEvent)
    (.valueError "register_all must record the fixture manifest first"))

def completedNodesFromEvents (f : ProjectFixture) : Call (Finset String) := do
  let events ← ControlPlane.issue .readAll
  let states ← raising (f.executionStates events)
  pure (f.completedIn states)

def formalFrontier (f : ProjectFixture) : Call (List ProjectNode) := do
  f.assertRegistered
  let completed ← f.completedNodesFromEvents
  raising (ofDag (f.dag.readyFrontier completed))

def completedNodes (f : ProjectFixture) : Call (Finset String) := do
  f.assertRegistered
  f.completedNodesFromEvents

/-- The event answers a task of the fixture or belongs to its own stream. -/
def Relevant (f : ProjectFixture) (e : StoredEvent) : Prop :=
  f.IsProjectEvent e ∨ (e.entityType = "task" ∧ (f.bundleToNode e.entityId).isSome = true) ∨
    ∃ bundleId ∈ (e.payload.get "bundle_id").bind fun value => match value with | .str s => some s | _ => none,
      (f.bundleToNode bundleId).isSome = true

instance Relevant.decidable (f : ProjectFixture) (e : StoredEvent) : Decidable (f.Relevant e) :=
  inferInstanceAs (Decidable (_ ∨ _ ∨ _))

def statusProjection (f : ProjectFixture) : Call ProjectStatusProjection := do
  f.assertRegistered
  let events ← ControlPlane.issue .readAll
  let states ← raising (f.executionStates events)
  let frontier ← raising (ofDag (f.dag.readyFrontier (f.completedIn states)))
  let nodes := f.dag.nodes.map fun node => (⟨node.nodeId, node.sourceFile, node.dependsOn,
    if states node.nodeId = .blocked ∧ node.nodeId ∈ identifiers frontier then .ready else states node.nodeId⟩ :
      ProjectNodeExecutionState)
  let relevant ← ControlPlane.issue .readAll
  pure ⟨f.dag.name, f.runId, nodes, (relevant.filter fun e => f.Relevant e).length⟩

/-- `request_hash` of a payload. -/
abbrev PayloadHash := JsonObject → Digest

def manifestPayload (f : ProjectFixture) : JsonObject :=
  [("schema_version", .str "autolean.project-integration.v1"), ("fixture_name", .str f.dag.name), ("run_id", .str f.runId),
    ("formal_graph_nodes", .list (f.dag.nodes.map fun node => .dict
      [("node_id", .str node.nodeId), ("source_file", .str node.sourceFile),
        ("formal_dependencies", .list (node.dependsOn.map .str)),
        ("bundle_id", orNull ((f.bundles node.nodeId).map fun bundle => .str bundle.bundleId.value))])),
    ("mathematical_graph", .str "not_modeled_by_project_fixture"),
    ("execution_graph", .str "derived_only_from_append_only_events"), ("lean_compilation_executed", .bool false)]

/-- `self.plane.events.append` to the stream of the fixture. -/
def appendProjectEvent (f : ProjectFixture) (expectedSequence : Int) (eventType : String) (payload : JsonObject)
    (idempotency : Idempotency) : Call StoredEvent := do
  let events ← ControlPlane.issue (.write (.append
    ⟨projectEventEntityType, f.projectEventEntityId, [⟨eventType, payload, []⟩], some idempotency, none⟩ expectedSequence))
  raising (firstEvent events)

def recordProjectManifest (f : ProjectFixture) (hash : PayloadHash) : Call StoredEvent := do
  let idempotency ← raising (Idempotency.make "project_fixture_registration" (f.runId ++ ":manifest") (hash f.manifestPayload))
  f.appendProjectEvent 0 projectRegisteredEvent f.manifestPayload idempotency

def registerBundles (f : ProjectFixture) (svc : Service) : List String → Call (List TaskBinding)
  | [] => pure []
  | nodeId :: rest => do
    let bundle ← raising (f.bundleOf nodeId)
    let binding ← svc.registerBundle bundle (f.runId ++ ":register:" ++ nodeId)
    let bindings ← f.registerBundles svc rest
    pure (binding :: bindings)

def registerAll (f : ProjectFixture) (svc : Service) (hash : PayloadHash) : Call (List TaskBinding) := do
  let order ← raising (ofDag (topologicalOrder f.dag.nodes))
  let bindings ← f.registerBundles svc order
  let _ ← f.recordProjectManifest hash
  pure bindings

def claimFrontier (f : ProjectFixture) (svc : Service) (nodeId workerId : String) (ttlSeconds : PyFloat) :
    Call Service.ClaimReceipt := do
  raising (f.requireNode nodeId)
  let frontier ← f.formalFrontier
  raising (ensure (nodeId ∈ identifiers frontier)
    (.valueError "node is outside the current formal dependency frontier and cannot be claimed"))
  let bundle ← raising (f.bundleOf nodeId)
  svc.claim bundle.bundleId.value workerId ttlSeconds (f.runId ++ ":claim:" ++ nodeId ++ ":" ++ workerId)

def submitProof (f : ProjectFixture) (svc : Service) (nodeId : String) (lease : Lease) (submission : ProofSubmission) :
    Call StoredEvent := do
  raising (f.requireNode nodeId)
  let bundle ← raising (f.bundleOf nodeId)
  svc.submitProof bundle.bundleId.value lease submission
    (f.runId ++ ":submit:" ++ nodeId ++ ":" ++ submission.proofId.value)

def verifySubmission (f : ProjectFixture) (svc : Service) (nodeId : String) (lease : Lease) (report : VerificationReport) :
    Call VerificationOutcome := do
  raising (f.requireNode nodeId)
  let bundle ← raising (f.bundleOf nodeId)
  svc.verifySubmission bundle.bundleId.value lease report
    (f.runId ++ ":verify:" ++ nodeId ++ ":" ++ report.reportId.value)

def replanPayload (f : ProjectFixture) (changedNodeIds : Finset String) (affected : List ProjectNode) : JsonObject :=
  [("schema_version", .str "autolean.project-api-replan.v1"), ("fixture_name", .str f.dag.name), ("run_id", .str f.runId),
    ("formal_changed_node_ids", .list ((ProjectDag.sortedIds changedNodeIds).map .str)),
    (closureKey, .list (affected.map fun node => .str node.nodeId)),
    ("execution_effect", .str "invalidate_and_replan"), ("lean_compilation_executed", .bool false)]

def replanForApiChange (f : ProjectFixture) (hash : PayloadHash) (changedNodeIds : Finset String) (changeId : String) :
    Call StoredEvent := do
  f.assertRegistered
  raising (ensure (IsNodeId changeId) (.valueError "project API change ID is invalid"))
  let affected ← raising (ofDag (f.dag.affectedBy changedNodeIds))
  let payload := f.replanPayload changedNodeIds affected
  let expected ← ControlPlane.issue (.currentSequence projectEventEntityType f.projectEventEntityId)
  let idempotency ← raising
    (Idempotency.make "project_api_change" (f.runId ++ ":api-change:" ++ changeId) (hash payload))
  f.appendProjectEvent expected projectReplannedEvent payload idempotency

end ProjectFixture

/-- What a client of the fixture does: one of its operations, or a call of the plane itself. -/
inductive FixtureOperation where
  | registerAll
  | formalFrontier
  | completedNodes
  | claimFrontier (nodeId workerId : String) (ttlSeconds : PyFloat)
  | submitProof (nodeId : String) (lease : Lease) (submission : ProofSubmission)
  | verifySubmission (nodeId : String) (lease : Lease) (report : VerificationReport)
  | replanForApiChange (changedNodeIds : Finset String) (changeId : String)
  | statusProjection
  | plane (command : Command)

/-- The operation, whatever it returns. -/
def FixtureOperation.program (f : ProjectFixture) (svc : Service) (hash : ProjectFixture.PayloadHash) :
    FixtureOperation → Call Unit
  | registerAll => do let _ ← f.registerAll svc hash; pure ()
  | formalFrontier => do let _ ← f.formalFrontier; pure ()
  | completedNodes => do let _ ← f.completedNodes; pure ()
  | claimFrontier nodeId workerId ttlSeconds => do let _ ← f.claimFrontier svc nodeId workerId ttlSeconds; pure ()
  | submitProof nodeId lease submission => do let _ ← f.submitProof svc nodeId lease submission; pure ()
  | verifySubmission nodeId lease report => do let _ ← f.verifySubmission svc nodeId lease report; pure ()
  | replanForApiChange changedNodeIds changeId => do let _ ← f.replanForApiChange hash changedNodeIds changeId; pure ()
  | statusProjection => do let _ ← f.statusProjection; pure ()
  | plane command => do let _ ← command.program svc; pure ()

/-- The world after one operation, accepted or not. -/
def fixtureStep (f : ProjectFixture) (svc : Service) (hash : ProjectFixture.PayloadHash) (w : World)
    (l : FixtureOperation × (Nat → ServiceInput)) : World :=
  ((l.1.program f svc hash).execute svc.exec l.2 w).2.2

def emptyWorld : World := ⟨.empty, fun _ => none⟩

/-! Replays -/

section Replay
variable {f : ProjectFixture}

/-- The replay of the log accepts the event. -/
def Readable (f : ProjectFixture) (entityType entityId eventType : String) (payload : JsonObject) : Prop :=
  eventType = projectReplannedEvent → entityType = projectEventEntityType → entityId = f.projectEventEntityId →
    ∃ affected, f.requiredProjectNodeIds payload closureKey = .ok affected

/-- The replay of the log accepts every event. -/
def ReadableLog (f : ProjectFixture) (events : List StoredEvent) : Prop :=
  ∀ e ∈ events, Readable f e.entityType e.entityId e.eventType e.payload

theorem replay_returns {e : StoredEvent} (h : Readable f e.entityType e.entityId e.eventType e.payload)
    (states : ProjectFixture.States) : ∃ states', f.replay states e = .ok states' := by
  unfold ProjectFixture.replay
  split_ifs with hreplan
  · obtain ⟨affected, haffected⟩ := h hreplan.1 hreplan.2.1 hreplan.2.2
    rw [haffected]
    exact ⟨_, rfl⟩
  · split
    · exact ⟨_, rfl⟩
    · exact ⟨_, rfl⟩

theorem foldlM_replay_returns {events : List StoredEvent} (h : ReadableLog f events) (states : ProjectFixture.States) :
    ∃ states', events.foldlM f.replay states = .ok states' := by
  induction events generalizing states with
  | nil => exact ⟨states, rfl⟩
  | cons e rest ih =>
    obtain ⟨next, hnext⟩ := replay_returns (h e List.mem_cons_self) states
    rw [List.foldlM_cons, hnext]
    exact ih (fun e' he' => h e' (List.mem_cons_of_mem _ he')) next

/-- An event that the replay refuses makes every replay of a log that holds it raise. -/
theorem readableLog_of_replay {events : List StoredEvent} {states states' : ProjectFixture.States}
    (h : events.foldlM f.replay states = .ok states') : ReadableLog f events := by
  induction events generalizing states with
  | nil => simp [ReadableLog]
  | cons e rest ih =>
    rw [List.foldlM_cons] at h
    obtain ⟨next, hnext, hrest⟩ := bind_eq_ok.mp h
    refine List.forall_mem_cons.mpr ⟨fun hreplan htype hid => ?_, ih hrest⟩
    unfold ProjectFixture.replay at hnext
    rw [if_pos ⟨hreplan, htype, hid⟩] at hnext
    obtain ⟨affected, haffected, -⟩ := bind_eq_ok.mp hnext
    exact ⟨affected, haffected⟩

theorem executionStates_returns_iff {events : List StoredEvent} :
    (∃ states, f.executionStates events = .ok states) ↔ ReadableLog f events :=
  ⟨fun ⟨_, h⟩ => readableLog_of_replay h, fun h => foldlM_replay_returns h _⟩

end Replay

/-! Writers -/

section Writers
variable {f : ProjectFixture} {svc : Service}

/-- The events a call writes can be replayed. -/
def ReadableCall (f : ProjectFixture) (call : AppendCall) : Prop :=
  ∀ new ∈ call.batch.events, Readable f call.batch.entityType call.batch.entityId new.eventType new.payload

theorem textValues_map (values : List String) : textValues (values.map .str) = some values := by
  induction values with
  | nil => rfl
  | cons value rest ih =>
    rw [List.map_cons, textValues, ih]
    rfl

theorem command_readable (command : Command) : (command.program svc).Issues (Writes (ReadableCall f)) := by
  refine Prog.Issues.imp (fun op hop call heq new _ _ htype => ?_) command.program_writes
  obtain ⟨entityType, _, hentity, -, hunder⟩ := hop call heq
  rw [← hunder.entityType, htype] at hentity
  cases command with
  | _ => simp [Command.entityType, projectEventEntityType] at hentity

theorem assertRegistered_reads : f.assertRegistered.Issues ReadsOnly :=
  .bind (.bind (.perform trivial) fun _ => .pure _) fun _ => .ofExcept _

theorem completedNodesFromEvents_reads : f.completedNodesFromEvents.Issues ReadsOnly :=
  .bind (.perform trivial) fun _ => .bind (.ofExcept _) fun _ => .pure _

theorem formalFrontier_reads : f.formalFrontier.Issues ReadsOnly :=
  .bind assertRegistered_reads fun _ => .bind completedNodesFromEvents_reads fun _ => .ofExcept _

theorem statusProjection_reads : f.statusProjection.Issues ReadsOnly :=
  .bind assertRegistered_reads fun _ => .bind (.perform trivial) fun _ => .bind (.ofExcept _) fun _ =>
    .bind (.ofExcept _) fun _ => .bind (.perform trivial) fun _ => .pure _

theorem appendProjectEvent_readable {expectedSequence : Int} {eventType : String} {payload : JsonObject} {v : Idempotency}
    (h : Readable f projectEventEntityType f.projectEventEntityId eventType payload) :
    (f.appendProjectEvent expectedSequence eventType payload v).Issues (Writes (ReadableCall f)) := by
  refine .bind (issue_write fun new hnew => ?_) fun _ => .ofExcept _
  rw [List.mem_singleton.mp hnew]
  exact h

/-- A replan that changes some node writes a closure the replay accepts. -/
theorem replanPayload_readable {changedNodeIds : Finset String} {affected : List ProjectNode}
    (haffected : f.dag.affectedBy changedNodeIds = .ok affected) (hchanged : changedNodeIds.Nonempty) :
    ∃ nodeIds, f.requiredProjectNodeIds (f.replanPayload changedNodeIds affected) closureKey = .ok nodeIds := by
  have hknown : ∀ nodeId ∈ changedNodeIds, nodeId ∈ identifiers f.dag.nodes := by
    unfold ProjectDag.affectedBy at haffected
    exact (ensure_bind_eq_ok.mp haffected).1
  obtain ⟨result, hresult, hsublist, hmem⟩ := f.dag.affectedBy_spec hknown
  rw [haffected, Except.ok.injEq] at hresult
  subst hresult
  have hclosure : (f.replanPayload changedNodeIds affected).list closureKey = some ((identifiers affected).map .str) := by
    rw [identifiers, List.map_map]
    rfl
  have horder := f.dag.order_perm
  have hvalid : (identifiers affected).Nodup ∧ ∀ nodeId ∈ identifiers affected, nodeId ∈ identifiers f.dag.nodes := by
    refine ⟨hsublist.nodup (horder.nodup_iff.mpr f.dag.nodes_unique), fun nodeId hnode => ?_⟩
    exact horder.mem_iff.mp (hsublist.subset hnode)
  obtain ⟨changed, hin⟩ := hchanged
  obtain ⟨node, hnode, rfl⟩ := List.mem_map.mp (hknown changed hin)
  have hclosed : node.nodeId ∈ identifiers affected := List.mem_map_of_mem ((hmem node).mpr ⟨hnode, _, hin, .refl⟩)
  obtain ⟨first, rest, hsplit⟩ := List.exists_cons_of_ne_nil (List.ne_nil_of_mem hclosed)
  refine ⟨identifiers affected, ?_⟩
  have htexts := textValues_map (identifiers affected)
  unfold ProjectFixture.requiredProjectNodeIds
  rw [hclosure]
  rw [hsplit, List.map_cons] at htexts ⊢
  rw [hsplit] at hvalid
  dsimp only
  rw [htexts]
  exact ensure_bind_eq_ok.mpr ⟨hvalid, rfl⟩

theorem replanForApiChange_readable {hash : ProjectFixture.PayloadHash} {changedNodeIds : Finset String}
    (hchanged : changedNodeIds.Nonempty) (changeId : String) :
    (f.replanForApiChange hash changedNodeIds changeId).Issues (Writes (ReadableCall f)) := by
  refine .bind (writes_of_reads assertRegistered_reads) fun _ => .bind (.ofExcept _) fun _ =>
    .ofExcept_bind fun affected haffected => .bind (writes_of_reads (.perform trivial)) fun _ =>
    .bind (.ofExcept _) fun _ => appendProjectEvent_readable fun _ _ _ => ?_
  apply replanPayload_readable _ hchanged
  cases hresult : f.dag.affectedBy changedNodeIds with
  | ok a =>
    rw [hresult] at haffected
    cases haffected
    rfl
  | error message =>
    rw [hresult] at haffected
    cases haffected

theorem registerAll_readable (hash : ProjectFixture.PayloadHash) : (f.registerAll svc hash).Issues (Writes (ReadableCall f)) := by
  have hbundles : ∀ nodeIds, (f.registerBundles svc nodeIds).Issues (Writes (ReadableCall f)) := by
    intro nodeIds
    induction nodeIds with
    | nil => exact .pure _
    | cons nodeId rest ih =>
      refine .bind (.ofExcept _) fun bundle => .bind ?_ fun _ => .bind ih fun _ => .pure _
      refine Prog.Issues.imp (fun op hop call heq new _ _ htype => ?_) (registerBundle_writes bundle _)
      have hentity : call.batch.entityType = "task" := (hop call heq).entityType
      rw [htype] at hentity
      exact absurd hentity (by decide)
  refine .bind (.ofExcept _) fun order => .bind (hbundles order) fun _ => .bind ?_ fun _ => .pure _
  exact .bind (.ofExcept _) fun _ => appendProjectEvent_readable fun heq => absurd heq (by decide)

/-- The writes of every operation can be replayed, but for those of a replan that changes nothing. -/
theorem program_readable {hash : ProjectFixture.PayloadHash} {operation : FixtureOperation}
    (h : ∀ changeId, operation ≠ .replanForApiChange ∅ changeId) :
    (operation.program f svc hash).Issues (Writes (ReadableCall f)) := by
  have plane {α : Type} {p : Call α} {entityType scope : String} (hne : entityType ≠ projectEventEntityType)
      (hp : p.Issues (Writes (WritesUnder entityType scope))) : p.Issues (Writes (ReadableCall f)) := by
    refine Prog.Issues.imp (fun op hop call heq new _ _ htype => absurd ?_ hne) hp
    rw [← htype]
    exact (hop call heq).entityType.symm
  cases operation with
  | registerAll => exact .bind (registerAll_readable hash) fun _ => .pure _
  | formalFrontier => exact .bind (writes_of_reads formalFrontier_reads) fun _ => .pure _
  | completedNodes =>
    exact .bind (.bind (writes_of_reads assertRegistered_reads) fun _ => writes_of_reads completedNodesFromEvents_reads)
      fun _ => .pure _
  | claimFrontier nodeId workerId ttlSeconds =>
    refine .bind (.bind (.ofExcept _) fun _ => .bind (writes_of_reads formalFrontier_reads) fun _ => .bind (.ofExcept _) fun _ =>
      .bind (.ofExcept _) fun _ => ?_) fun _ => .pure _
    exact plane (by decide) (claim_writes ..)
  | submitProof nodeId lease submission =>
    refine .bind (.bind (.ofExcept _) fun _ => .bind (.ofExcept _) fun _ => ?_) fun _ => .pure _
    exact plane (by decide) (submitProof_writes ..)
  | verifySubmission nodeId lease report =>
    refine .bind (.bind (.ofExcept _) fun _ => .bind (.ofExcept _) fun _ => ?_) fun _ => .pure _
    exact plane (by decide) (verifySubmission_writes ..)
  | replanForApiChange changedNodeIds changeId =>
    refine .bind (replanForApiChange_readable ?_ changeId) fun _ => .pure _
    rw [Finset.nonempty_iff_ne_empty]
    rintro rfl
    exact h changeId rfl
  | statusProjection => exact .bind (writes_of_reads statusProjection_reads) fun _ => .pure _
  | plane command => exact .bind (command_readable command) fun _ => .pure _

end Writers

/-! Runs of the fixture -/

section Runs
variable {f : ProjectFixture} {svc : Service} {hash : ProjectFixture.PayloadHash} {w : World}

theorem write_readable {db db' : Database} {r : Readings} {call : AppendCall} {events : List StoredEvent}
    (h : ReadableLog f db.events) (hcall : ReadableCall f call) (hwrite : call.transaction db r = .ok (events, db')) :
    ReadableLog f db'.events := by
  cases AppendCall.transaction_outcome hwrite with
  | replayed => exact h
  | linked => exact h
  | written =>
    rw [AppendCall.written_events]
    intro e he
    rcases List.mem_append.mp he with he | he
    · exact h e he
    · obtain ⟨htype, hid, -, -, -, new, hnew, hevent, hpayload, -⟩ := mem_stampEvents he
      rw [htype, hid, hevent, hpayload]
      exact hcall new hnew

theorem exec_readable {op : ServiceOp} (h : ReadableLog f w.database.events) (hop : Writes (ReadableCall f) op)
    (input : ServiceInput) : ReadableLog f (svc.exec op input w).2.database.events := by
  cases op with
  | store op =>
    cases op with
    | write call =>
      simp only [Service.exec, StoreOp.exec, ControlPlane.commit]
      split
      · next heq => exact write_readable h (hop call rfl) heq
      · exact h
    | claimLease | renewLease | releaseRow =>
      simp only [Service.exec, StoreOp.exec, (onLeases_frame _ _).1]
      exact h
    | _ => exact h
  | putArtifact content => exact (congrArg (fun db => ReadableLog f db.events) (storeBlob_database svc w content)).mpr h
  | _ => exact h

theorem execute_readable {α : Type} {p : Call α} (hp : p.Issues (Writes (ReadableCall f))) (inputs : Nat → ServiceInput)
    (h : ReadableLog f w.database.events) : ReadableLog f (p.execute svc.exec inputs w).2.2.database.events := by
  induction p generalizing inputs w with
  | done r => exact h
  | call op k ih => exact ih _ (hp.2 _) _ (exec_readable h hp.1 _)

/-- The manifest of the fixture is recorded. -/
def Registered (f : ProjectFixture) (w : World) : Prop :=
  ∃ e ∈ w.database.events, f.IsProjectEvent e ∧ e.eventType = projectRegisteredEvent

theorem execute_issue (op : StoreOp) (inputs : Nat → ServiceInput) :
    (ControlPlane.issue op).execute svc.exec inputs w = ((op.exec (inputs 0).readings w.database).1, fun n => inputs (n + 1),
      { w with database := (op.exec (inputs 0).readings w.database).2 }) := rfl

/-- The check reads the log once and leaves the world as it is. -/
theorem assertRegistered_execute (svc : Service) (inputs : Nat → ServiceInput) :
    ∃ r, f.assertRegistered.execute svc.exec inputs w =
    (r, fun n => inputs (n + 1), w) ∧ (r = .ok () ↔ Registered f w) := by
  have hevents : f.projectEvents.execute svc.exec inputs w =
      (.ok (w.database.events.filter fun e => f.IsProjectEvent e), fun n => inputs (n + 1), w) := rfl
  refine ⟨_, Prog.execute_bind_ok hevents, ?_⟩
  rw [ensure_eq_ok]
  simp only [List.mem_filter, decide_eq_true_eq, Registered, and_assoc]

/-- A replan that changes nothing, of a registered fixture and under a well-formed change ID. -/
def ReplansNothing (f : ProjectFixture) (w : World) (l : FixtureOperation × (Nat → ServiceInput)) : Prop :=
  ∃ changeId, l.1 = .replanForApiChange ∅ changeId ∧ IsNodeId changeId ∧ Registered f w

/-- Any other operation, accepted or not, leaves a log that can be replayed. -/
theorem fixtureStep_readable {l : FixtureOperation × (Nat → ServiceInput)} (h : ReadableLog f w.database.events)
    (hl : ¬ ReplansNothing f w l) : ReadableLog f (fixtureStep f svc hash w l).database.events := by
  obtain ⟨operation, inputs⟩ := l
  by_cases hempty : ∃ changeId, operation = .replanForApiChange ∅ changeId
  · obtain ⟨changeId, rfl⟩ := hempty
    obtain ⟨r, hassert, hr⟩ := assertRegistered_execute (f := f) (w := w) svc inputs
    by_cases hregistered : Registered f w
    · have hid : ¬ IsNodeId changeId := fun hid => hl ⟨changeId, rfl, hid, hregistered⟩
      apply execute_readable _ inputs h
      refine .bind (.bind (writes_of_reads assertRegistered_reads) fun _ => .ofExcept_bind fun _ hcheck => ?_) fun _ => .pure _
      exact absurd (ensure_eq_ok.mp hcheck) hid
    · cases r with
      | ok u => exact absurd (hr.mp rfl) hregistered
      | error e =>
        have hreplan : (f.replanForApiChange hash ∅ changeId).execute svc.exec inputs w =
            (.error e, fun n => inputs (n + 1), w) := Prog.execute_bind_error hassert
        have hrun : (FixtureOperation.program f svc hash (.replanForApiChange ∅ changeId)).execute svc.exec inputs w =
            (.error e, fun n => inputs (n + 1), w) := Prog.execute_bind_error hreplan
        rw [fixtureStep, hrun]
        exact h
  · exact execute_readable (program_readable fun changeId heq => hempty ⟨changeId, heq⟩) inputs h

/-- Each replay of the log returns: the execution states, and once the manifest is recorded
the operations that rest on them alone. -/
structure Replayable (f : ProjectFixture) (svc : Service) (w : World) : Prop where
  states : ∃ states, f.executionStates w.database.events = .ok states
  operations : Registered f w → ∀ inputs, (∃ p, (f.statusProjection.execute svc.exec inputs w).1 = .ok p) ∧
    (∃ frontier, (f.formalFrontier.execute svc.exec inputs w).1 = .ok frontier) ∧
      ∃ completed, (f.completedNodes.execute svc.exec inputs w).1 = .ok completed

theorem Replayable.ofLog (h : ReadableLog f w.database.events) : Replayable f svc w := by
  obtain ⟨states, hstates⟩ := executionStates_returns_iff.mpr h
  refine ⟨⟨states, hstates⟩, fun hregistered inputs => ?_⟩
  obtain ⟨r, hassert, hr⟩ := assertRegistered_execute (f := f) (w := w) svc inputs
  rw [hr.mpr hregistered] at hassert
  have hcompleted : ∀ nodeId ∈ f.completedIn states, nodeId ∈ identifiers f.dag.nodes := by
    intro nodeId hnode
    exact List.mem_toFinset.mp (Finset.mem_filter.mp hnode).1
  obtain ⟨frontier, hfrontier, -⟩ := f.dag.readyFrontier_spec hcompleted
  have hread (inputs : Nat → ServiceInput) : (ControlPlane.issue .readAll).execute svc.exec inputs w =
      (.ok w.database.events, fun n => inputs (n + 1), w) := execute_issue .readAll inputs
  have hraise {α : Type} {x : Raises α} {a : α} (hx : x = .ok a) (inputs : Nat → ServiceInput) :
      (raising x).execute svc.exec inputs w = (.ok a, inputs, w) := Prog.execute_ofExcept_eq_ok.mpr ⟨hx, rfl, rfl⟩
  have hready : ofDag (f.dag.readyFrontier (f.completedIn states)) = .ok frontier := by rw [hfrontier]; rfl
  have hcompletedNodes (inputs : Nat → ServiceInput) : f.completedNodesFromEvents.execute svc.exec inputs w =
      (.ok (f.completedIn states), fun n => inputs (n + 1), w) := by
    rw [ProjectFixture.completedNodesFromEvents, Prog.execute_bind_ok (hread inputs), Prog.execute_bind_ok (hraise hstates _)]
    rfl
  have hstatus : ∃ p, (f.statusProjection.execute svc.exec inputs w).1 = .ok p := by
    rw [ProjectFixture.statusProjection, Prog.execute_bind_ok hassert, Prog.execute_bind_ok (hread _),
      Prog.execute_bind_ok (hraise hstates _), Prog.execute_bind_ok (hraise hready _), Prog.execute_bind_ok (hread _)]
    exact ⟨_, rfl⟩
  have hformal : (f.formalFrontier.execute svc.exec inputs w).1 = .ok frontier := by
    rw [ProjectFixture.formalFrontier, Prog.execute_bind_ok hassert, Prog.execute_bind_ok (hcompletedNodes _), hraise hready]
  have hnodes : (f.completedNodes.execute svc.exec inputs w).1 = .ok (f.completedIn states) := by
    rw [ProjectFixture.completedNodes, Prog.execute_bind_ok hassert, hcompletedNodes]
  exact ⟨hstatus, ⟨frontier, hformal⟩, ⟨_, hnodes⟩⟩

/-- In every run in which no replan changes nothing, every replay of the log returns in every
state that is reached. -/
theorem fixture_replays (f : ProjectFixture) (svc : Service) (hash : ProjectFixture.PayloadHash)
    (labels : List (FixtureOperation × (Nat → ServiceInput)))
    (h : StepsMeet (fixtureStep f svc hash) (fun w l => ¬ ReplansNothing f w l) emptyWorld labels) :
    Replayable f svc (run (fixtureStep f svc hash) emptyWorld labels) := by
  apply Replayable.ofLog
  refine run_invariant (fun w => ReadableLog f w.database.events) ?_ (by simp [ReadableLog, emptyWorld, Database.empty]) h
  exact fun w l hw hl => fixtureStep_readable hw hl

end Runs

/-! One node -/

def sampleNode : ProjectNode := ⟨"a", "A.lean", [], by decide, by decide, by decide, List.nodup_nil⟩

theorem sampleNodes_unique : (identifiers [sampleNode]).Nodup := by decide

theorem sampleNodes_sortable : (removedNodes [sampleNode]).ordered.length = [sampleNode].length := by decide +kernel

def sampleDag : ProjectDag where
  name := "demo"
  nodes := [sampleNode]
  named := by decide
  nodes_unique := sampleNodes_unique
  dependencies_known := by simp [sampleNode]
  sortable := sampleNodes_sortable

def localGraph : Graph := ⟨[⟨sampleId, ⟨"declaration", by decide⟩, ⟨"a", by decide⟩⟩], [], by decide, by simp⟩

def localBundle : FormalizationTaskBundle :=
  { sampleBundle [] with graphs := ⟨sampleGraph, localGraph, sampleGraph⟩ }

def sampleFixture : ProjectFixture where
  dag := sampleDag
  runId := "run"
  bundles nodeId := if nodeId = "a" then some localBundle else none
  runId_shaped := by decide
  bundles_exact nodeId := by
    simp only [Option.isSome_ite, sampleDag, sampleNode, identifiers, List.map_cons, List.map_nil, List.mem_singleton]
  bundleIds_unique a b bundle bundle' ha hb _ := by
    have hnode {nodeId : String} {bundle : FormalizationTaskBundle}
        (h : (if nodeId = "a" then some localBundle else none) = some bundle) : nodeId = "a" := by
      by_contra hne
      rw [if_neg hne] at h
      cases h
    rw [hnode ha, hnode hb]
  bundles_local nodeId bundle h := by
    split at h
    · cases h
      exact ⟨rfl, rfl, rfl, rfl⟩
    · cases h

/-- Each step draws identifiers of its own. -/
def sampleInputs (start n : Nat) : ServiceInput := ⟨.sample 0 (Char.ofNat (start + n)), true⟩

def samplePayloadHash : ProjectFixture.PayloadHash := fun _ => sampleDigest

/-- The bundle is registered, and a change of the node invalidates it. -/
def replannedRun : List (FixtureOperation × (Nat → ServiceInput)) :=
  [(.registerAll, sampleInputs 65), (.replanForApiChange {"a"} "change", sampleInputs 97)]

theorem fixture_replays_sample :
    Replayable sampleFixture sampleService
      (run (fixtureStep sampleFixture sampleService samplePayloadHash) emptyWorld replannedRun) := by
  apply fixture_replays
  have hchanged : ∀ w, ∀ l ∈ replannedRun, ¬ ReplansNothing sampleFixture w l := by
    rintro w l hl ⟨changeId, heq, -⟩
    simp only [replannedRun, List.mem_cons, List.not_mem_nil, or_false] at hl
    rcases hl with rfl | rfl
    · cases heq
    · simp at heq
  exact ⟨hchanged _ _ (by simp [replannedRun]), hchanged _ _ (by simp [replannedRun]), trivial⟩

/-- The same replan with no changed node is accepted as well. -/
def emptyReplan : FixtureOperation := .replanForApiChange ∅ "change"

theorem empty_replan_unreadable :
    let w := fixtureStep sampleFixture sampleService samplePayloadHash emptyWorld (.registerAll, sampleInputs 65)
    ((emptyReplan.program sampleFixture sampleService samplePayloadHash).execute sampleService.exec (sampleInputs 97) w).1.isOk ∧
      ¬ Replayable sampleFixture sampleService
        (fixtureStep sampleFixture sampleService samplePayloadHash w (emptyReplan, sampleInputs 97)) := by
  intro w
  have hraises : (sampleFixture.executionStates (fixtureStep sampleFixture sampleService samplePayloadHash w
      (emptyReplan, sampleInputs 97)).database.events).isOk = false := by decide +kernel
  refine ⟨by decide +kernel, fun h => ?_⟩
  obtain ⟨states, hstates⟩ := h.states
  rw [hstates] at hraises
  cases hraises

end Autolean.Benchmarks
