import Autolean.ControlPlane.Records

/-! The read-only dashboard projection: the nodes and the counters it replays from a log. -/
namespace Autolean.ControlPlane.Projection
open Contracts Machine Raising

/-- `_optional_list`. -/
def optionalList (payload : JsonObject) (key : String) : List Json := (payload.list key).getD []

/-- `_optional_int`. -/
def optionalInt (payload : JsonObject) (key : String) : Option Nat :=
  (payload.int key).bind fun n => if 0 ≤ n then some n.toNat else none

/-- `_event_task_id`. -/
def eventTaskId (e : StoredEvent) : Option String :=
  match e.payload.text "bundle_id" with
  | some bundleId => some bundleId
  | none => if e.entityType = "task" ∧ e.entityId ≠ "" then some e.entityId else none

/-- What a snapshot shows of a node, but for its status. -/
structure NodeIdentity where
  bundleId : String
  dependencies : List String
  graph : String
  id : String
  kind : String
  label : String
  revision : Nat
  sourceNodeId : String
  taskId : String
  updatedAt : Option String

structure PublicNode extends NodeIdentity where
  status : String

def publicId (bundleId graph identifier : String) : String :=
  "dashboard-node|" ++ bundleId ++ "|" ++ graph ++ "|" ++ identifier

/-- The nonempty texts of a list. -/
def texts : List Json → List String
  | [] => []
  | .str s :: rest => if s = "" then texts rest else s :: texts rest
  | _ :: rest => texts rest

/-- `_public_identity_node`. -/
def publicIdentityNode (raw : JsonObject) (eventBundleId : Option String) : Option PublicNode := do
  let sourceNodeId ← raw.text "id"
  let graph ← raw.text "graph"
  let bundleId ← eventBundleId <|> raw.text "bundle_id"
  let label ← raw.text "label"
  let status ← raw.text "status"
  let revision ← optionalInt raw "revision"
  let kind ← raw.text "kind"
  if graph ∈ ["mathematical", "formal", "execution"] ∧ 1 ≤ revision then
    some ⟨⟨bundleId, (texts (optionalList raw "dependencies")).map (publicId bundleId graph), graph,
      publicId bundleId graph sourceNodeId, kind, label, revision, sourceNodeId, bundleId, raw.text "updated_at"⟩, status⟩
  else none

/-- The node an entry of `graph_nodes` stands for. -/
def entryNode (eventBundleId : Option String) : Json → Option PublicNode
  | .dict raw => publicIdentityNode raw eventBundleId
  | _ => none

def registeredNodes (e : StoredEvent) : List PublicNode :=
  (optionalList e.payload "graph_nodes").filterMap (entryNode (eventTaskId e))

/-- `nodes[node["id"]] = node`. -/
def putNode (nodes : List PublicNode) (node : PublicNode) : List PublicNode :=
  if node.id ∈ nodes.map (·.id) then nodes.map fun old => if old.id = node.id then node else old
  else nodes ++ [node]

/-- `_set_task_status`. -/
def setTaskStatus (nodes : List PublicNode) (bundleId status : String) : List PublicNode :=
  nodes.map fun node => if node.bundleId = bundleId then { node with status := status } else node

/-- `_verification_accepted`. -/
def verificationAccepted (e : StoredEvent) : Raises Bool := do
  ensure ((e.payload.get "promotion_state").getD (.str "not_a_promotion") = .str "not_a_promotion")
    (.projectionError "local verification event claims promotion authority")
  ensure ((e.payload.get "execution_authority_class").getD (.str "test-only-local") = .str "test-only-local")
    (.projectionError "local verification event claims a production authority")
  match e.payload.get "accepted" with
  | some (.bool accepted) =>
    ensure (e.eventType = if accepted then "verification.accepted" else "verification.rejected")
      (.projectionError "verification event type conflicts with its acceptance flag")
    pure accepted
  | _ => .error (.projectionError "verification acceptance flag must be a boolean")

/-- The nodes and the bundles that are active and blocked. -/
structure Snapshot where
  nodes : List PublicNode
  activeBundles : Finset String
  blockedBundles : Finset String

namespace Snapshot

def empty : Snapshot := ⟨[], ∅, ∅⟩

def claimed (s : Snapshot) (bundleId : String) : Snapshot :=
  ⟨setTaskStatus s.nodes bundleId "running", insert bundleId s.activeBundles, s.blockedBundles⟩

/-- A gap or a requested contract change. -/
def blocked (s : Snapshot) (bundleId : String) : Snapshot :=
  ⟨setTaskStatus s.nodes bundleId "blocked", s.activeBundles.erase bundleId, insert bundleId s.blockedBundles⟩

def verified (s : Snapshot) (bundleId : String) (accepted : Bool) : Snapshot :=
  ⟨setTaskStatus s.nodes bundleId (if accepted then "verified" else "blocked"), s.activeBundles.erase bundleId,
    if accepted then s.blockedBundles else insert bundleId s.blockedBundles⟩

/-- One event of the loop of `snapshot`. -/
def step (s : Snapshot) (e : StoredEvent) : Raises Snapshot :=
  if e.eventType = "task.registered" then pure { s with nodes := (registeredNodes e).foldl putNode s.nodes }
  else if e.eventType = "task.claimed" then pure ((eventTaskId e).elim s s.claimed)
  else if e.eventType = "proof.submitted" then pure s
  else if e.eventType = "gap.reported" ∨ e.eventType = "contract_change.requested" then
    pure ((eventTaskId e).elim s s.blocked)
  else if "verification.".toList.isPrefixOf e.eventType.toList then do
    let accepted ← verificationAccepted e
    pure ((eventTaskId e).elim s fun bundleId => s.verified bundleId accepted)
  else pure s

end Snapshot

/-- The events in the order of their positions. -/
def inOrder (events : List StoredEvent) : List StoredEvent :=
  events.insertionSort fun a b => a.globalPosition ≤ b.globalPosition

/-- The loop of `snapshot`. -/
def snapshot (events : List StoredEvent) : Raises Snapshot := (inOrder events).foldlM Snapshot.step .empty

/-! The nodes of a replayed log -/

variable {s s' : Snapshot} {e : StoredEvent}

/-- The nodes an event adds. -/
def declaredBy (e : StoredEvent) : List PublicNode := if e.eventType = "task.registered" then registeredNodes e else []

/-- The event is no verification event that the projection refuses. -/
def Replayable (e : StoredEvent) : Prop :=
  "verification.".toList.isPrefixOf e.eventType.toList → ∃ accepted, verificationAccepted e = .ok accepted

theorem setTaskStatus_identities (nodes : List PublicNode) (bundleId status : String) :
    (setTaskStatus nodes bundleId status).map (·.toNodeIdentity) = nodes.map (·.toNodeIdentity) := by
  unfold setTaskStatus
  rw [List.map_map]
  apply List.map_congr_left
  intro node _
  dsimp only [Function.comp]
  split <;> rfl

theorem foldl_putNode {nodes added : List PublicNode} (h : ((nodes ++ added).map (·.id)).Nodup) :
    added.foldl putNode nodes = nodes ++ added := by
  induction added generalizing nodes with
  | nil => simp
  | cons node rest ih =>
    have hfresh : node.id ∉ nodes.map (·.id) := by
      intro hmem
      rw [List.map_append] at h
      exact List.disjoint_of_nodup_append h hmem (by simp)
    rw [List.foldl_cons, putNode, if_neg hfresh, ih (by simpa using h)]
    simp

theorem Snapshot.step_returns (h : Replayable e) : ∃ s', s.step e = .ok s' := by
  unfold Snapshot.step
  split_ifs with _ _ _ _ hverdict
  · exact ⟨_, rfl⟩
  · exact ⟨_, rfl⟩
  · exact ⟨_, rfl⟩
  · exact ⟨_, rfl⟩
  · obtain ⟨accepted, haccepted⟩ := h hverdict
    rw [haccepted]
    exact ⟨_, rfl⟩
  · exact ⟨_, rfl⟩

/-- A step adds the nodes of its event and changes nothing but the status of the others. -/
theorem Snapshot.step_identities (h : s.step e = .ok s') (hfresh : ((s.nodes ++ declaredBy e).map (·.id)).Nodup) :
    s'.nodes.map (·.toNodeIdentity) = (s.nodes ++ declaredBy e).map (·.toNodeIdentity) := by
  have hkept (nodes : List PublicNode) (hn : ¬ e.eventType = "task.registered") : nodes ++ declaredBy e = nodes := by
    rw [declaredBy, if_neg hn, List.append_nil]
  unfold Snapshot.step at h
  split_ifs at h with hregistered
  · cases h
    rw [declaredBy, if_pos hregistered] at hfresh ⊢
    rw [foldl_putNode hfresh]
  all_goals rw [hkept _ hregistered]
  · cases h
    cases eventTaskId e with
    | none => rfl
    | some bundleId => exact setTaskStatus_identities ..
  · cases h
    rfl
  · cases h
    cases eventTaskId e with
    | none => rfl
    | some bundleId => exact setTaskStatus_identities ..
  · obtain ⟨accepted, -, h⟩ := bind_eq_ok.mp h
    cases h
    cases eventTaskId e with
    | none => rfl
    | some bundleId => exact setTaskStatus_identities ..
  · cases h
    rfl

/-- A replay of events that declare distinct nodes returns, and shows exactly these nodes. -/
theorem foldlM_step_identities {events : List StoredEvent} (hreplay : ∀ e ∈ events, Replayable e)
    (hfresh : ((s.nodes ++ events.flatMap declaredBy).map (·.id)).Nodup) :
    ∃ s', events.foldlM Snapshot.step s = .ok s' ∧
      s'.nodes.map (·.toNodeIdentity) = (s.nodes ++ events.flatMap declaredBy).map (·.toNodeIdentity) := by
  induction events generalizing s with
  | nil => exact ⟨s, rfl, by simp⟩
  | cons e rest ih =>
    obtain ⟨s', hstep⟩ := Snapshot.step_returns (s := s) (hreplay e List.mem_cons_self)
    rw [List.flatMap_cons, ← List.append_assoc] at hfresh ⊢
    have hids := Snapshot.step_identities hstep (by
      rw [List.map_append] at hfresh
      exact hfresh.of_append_left)
    have hnext : (s'.nodes ++ rest.flatMap declaredBy).map (·.id) =
        ((s.nodes ++ declaredBy e) ++ rest.flatMap declaredBy).map (·.id) := by
      have hmap := congrArg (List.map NodeIdentity.id) hids
      rw [List.map_map, List.map_map] at hmap
      rw [List.map_append, List.map_append]
      exact congrArg (· ++ _) hmap
    obtain ⟨last, hlast, hnodes⟩ := ih (fun e he => hreplay e (List.mem_cons_of_mem _ he)) (hnext ▸ hfresh)
    refine ⟨last, ?_, ?_⟩
    · rw [List.foldlM_cons, hstep]
      exact hlast
    · rw [hnodes, List.map_append, hids, ← List.map_append]

/-! The nodes of a bundle -/

def publicNodesOf (bundle : Handoff) (graphName : String) (graph : Graph) : List PublicNode :=
  graph.nodes.map fun node =>
    ⟨⟨bundle.bundleId.value, (graphDependencies graph node).map (publicId bundle.bundleId.value graphName), graphName,
      publicId bundle.bundleId.value graphName node.nodeId.value, node.kind.value, node.label.value,
      bundle.contract.revision.toNat, node.nodeId.value, bundle.bundleId.value, none⟩, "frozen"⟩

def publicNodes (bundle : Handoff) : List PublicNode :=
  publicNodesOf bundle "mathematical" bundle.graphs.mathematical ++ publicNodesOf bundle "formal" bundle.graphs.formal ++
    publicNodesOf bundle "execution" bundle.graphs.execution

theorem texts_map {values : List String} (h : "" ∉ values) : texts (values.map .str) = values := by
  induction values with
  | nil => rfl
  | cons value rest ih =>
    rw [List.mem_cons, not_or] at h
    rw [List.map_cons, texts, if_neg (Ne.symm h.1), ih h.2]

theorem graphDependencies_nonempty (graph : Graph) (node : GraphNode) : "" ∉ graphDependencies graph node := by
  intro h
  rw [graphDependencies, (List.perm_insertionSort _ _).mem_iff, List.mem_map] at h
  obtain ⟨edge, -, hedge⟩ := h
  exact ne_empty_of_not_blank edge.source.not_blank hedge

/-- The entries written for a graph are read back as its nodes. -/
theorem filterMap_graphNodesOf (bundle : Handoff) (graph : Graph) {graphName : String}
    (hname : graphName ∈ ["mathematical", "formal", "execution"]) :
    ((graphNodesOf bundle graphName graph).map .dict).filterMap (entryNode (some bundle.bundleId.value)) =
      publicNodesOf bundle graphName graph := by
  have hgraph : graphName ≠ "" := by
    rintro rfl
    simp at hname
  unfold graphNodesOf publicNodesOf
  rw [List.map_map, List.filterMap_map]
  conv_rhs => rw [← List.filterMap_eq_map]
  apply List.filterMap_congr
  intro node _
  have hrevision : 0 ≤ bundle.contract.revision ∧ 1 ≤ bundle.contract.revision.toNat := by
    have hpos := bundle.contract.revision_pos
    omega
  have hid : node.nodeId.value ≠ "" := ne_empty_of_not_blank node.nodeId.not_blank
  have hdependencies : "" ∉ graphDependencies graph node := graphDependencies_nonempty graph node
  simp [Function.comp, entryNode, publicIdentityNode, JsonObject.text, JsonObject.int, JsonObject.list, JsonObject.get,
    List.lookup, optionalInt, optionalList, texts_map hdependencies, hid, hgraph, hrevision, node.label.nonempty,
    node.kind.nonempty]
  simpa [or_iff_not_imp_left] using hname

/-- The registration of a bundle declares the nodes of its three graphs. -/
theorem registeredNodes_registration (svc : Service) (bundle : FormalizationTaskBundle)
    (assurance : Option CanonicalTypeAssurance) (attestation : JsonObject)
    (hp : e.payload = registrationPayload (svc.binding bundle assurance) attestation) :
    eventTaskId e = some bundle.bundleId.value ∧ registeredNodes e = publicNodes bundle.toHandoff := by
  have htask : eventTaskId e = some bundle.bundleId.value := by
    have htext : e.payload.text "bundle_id" = some bundle.bundleId.value := by
      rw [hp]
      exact if_neg (ne_empty_of_not_blank bundle.bundleId.not_blank)
    rw [eventTaskId, htext]
  refine ⟨htask, ?_⟩
  have hlist : optionalList e.payload "graph_nodes" = (graphNodes bundle.toHandoff).map .dict := by
    rw [hp]
    rfl
  rw [registeredNodes, hlist, htask, graphNodes, List.map_append, List.map_append, List.filterMap_append,
    List.filterMap_append]
  rw [filterMap_graphNodesOf _ _ (by decide), filterMap_graphNodesOf _ _ (by decide), filterMap_graphNodesOf _ _ (by decide)]
  rfl

/-! Public identifiers -/

/-- The separator of public identifiers is in no durable identity. -/
theorem identifier_no_bar (i : StableIdentifier) : '|' ∉ i.value.toList := by
  obtain ⟨hstart, -, -, hnamespace, hcolon, hdigits⟩ := i.shaped
  intro hmem
  rw [← List.take_append_drop 16 i.value.toList, List.mem_append, hstart] at hmem
  rcases hmem with hmem | hmem
  · exact absurd hmem (by decide)
  rw [← List.take_append_drop ((i.value.toList.drop 16).length - 37) (i.value.toList.drop 16), List.mem_append] at hmem
  rcases hmem with hmem | hmem
  · exact absurd (List.all_eq_true.mp hnamespace _ hmem) (by decide)
  rw [List.head?_eq_some_iff] at hcolon
  obtain ⟨rest, hrest⟩ := hcolon
  rw [← List.drop_drop, List.drop_one, hrest, List.tail_cons] at hdigits
  rw [hrest, List.mem_cons] at hmem
  rcases hmem with hmem | hmem
  · exact absurd hmem (by decide)
  · exact absurd (List.all_eq_true.mp hdigits _ hmem) (by decide)

theorem identifier_injective : Function.Injective StableIdentifier.value := by
  rintro ⟨_, _⟩ ⟨_, _⟩ rfl
  rfl

theorem append_bar_inj {a b c d : List Char} (ha : '|' ∉ a) (hc : '|' ∉ c) (h : a ++ '|' :: b = c ++ '|' :: d) :
    a = c ∧ b = d := by
  induction a generalizing c with
  | nil =>
    cases c with
    | nil => simpa using h
    | cons y c =>
      rw [List.nil_append, List.cons_append, List.cons.injEq] at h
      exact absurd (h.1 ▸ List.mem_cons_self) hc
  | cons x a ih =>
    cases c with
    | nil =>
      rw [List.nil_append, List.cons_append, List.cons.injEq] at h
      exact absurd (h.1 ▸ List.mem_cons_self) ha
    | cons y c =>
      rw [List.mem_cons, not_or] at ha hc
      rw [List.cons_append, List.cons_append, List.cons.injEq] at h
      obtain ⟨rfl, rfl⟩ := ih ha.2 hc.2 h.2
      exact ⟨by rw [h.1], rfl⟩

theorem publicId_toList (b g i : String) : (publicId b g i).toList =
    "dashboard-node|".toList ++ (b.toList ++ '|' :: (g.toList ++ '|' :: i.toList)) := by
  have hbar : "|".toList = ['|'] := by decide
  delta publicId
  rw [String.toList_append, String.toList_append, String.toList_append, String.toList_append, String.toList_append, hbar,
    List.append_assoc, List.append_assoc, List.append_assoc, List.append_assoc]
  rfl

/-- A public identifier determines the bundle, the graph and the node. -/
theorem publicId_inj {a b : StableIdentifier} {g g' i i' : String} (hg : '|' ∉ g.toList) (hg' : '|' ∉ g'.toList)
    (h : publicId a.value g i = publicId b.value g' i') : a = b ∧ g = g' ∧ i = i' := by
  have hlist := congrArg String.toList h
  rw [publicId_toList, publicId_toList, List.append_cancel_left_eq] at hlist
  obtain ⟨hbundle, hlist⟩ := append_bar_inj (identifier_no_bar a) (identifier_no_bar b) hlist
  obtain ⟨hgraph, hidentifier⟩ := append_bar_inj hg hg' hlist
  exact ⟨identifier_injective (String.toList_inj.mp hbundle), String.toList_inj.mp hgraph,
    String.toList_inj.mp hidentifier⟩

def graphNames : List String := ["mathematical", "formal", "execution"]

theorem graphNames_no_bar {g : String} (h : g ∈ graphNames) : '|' ∉ g.toList := by
  revert g
  decide

theorem mem_publicNodes {bundle : Handoff} {node : PublicNode} (h : node ∈ publicNodes bundle) :
    node.bundleId = bundle.bundleId.value ∧ node.graph ∈ graphNames ∧
      node.id = publicId bundle.bundleId.value node.graph node.sourceNodeId := by
  simp only [publicNodes, publicNodesOf, List.mem_append, List.mem_map] at h
  rcases h with (⟨_, -, rfl⟩ | ⟨_, -, rfl⟩) | ⟨_, -, rfl⟩
  · exact ⟨rfl, by simp [graphNames], rfl⟩
  · exact ⟨rfl, by simp [graphNames], rfl⟩
  · exact ⟨rfl, by simp [graphNames], rfl⟩

theorem publicNodesOf_nodup (bundle : Handoff) {g : String} (hg : g ∈ graphNames) (graph : Graph) :
    ((publicNodesOf bundle g graph).map (·.id)).Nodup := by
  have hinj : Function.Injective fun i : StableIdentifier => publicId bundle.bundleId.value g i.value := by
    intro i j h
    exact identifier_injective (publicId_inj (graphNames_no_bar hg) (graphNames_no_bar hg) h).2.2
  have hmap := graph.nodes_distinct.map hinj
  rw [List.map_map] at hmap
  rw [publicNodesOf, List.map_map]
  exact hmap

theorem publicNodes_nodup (bundle : Handoff) : ((publicNodes bundle).map (·.id)).Nodup := by
  have hapart {g g' : String} (hg : g ∈ graphNames) (hg' : g' ∈ graphNames) (hne : g ≠ g') (graph graph' : Graph) :
      List.Disjoint ((publicNodesOf bundle g graph).map (·.id)) ((publicNodesOf bundle g' graph').map (·.id)) := by
    rw [publicNodesOf, publicNodesOf, List.map_map, List.map_map]
    intro id hmem hmem'
    obtain ⟨node, -, rfl⟩ := List.mem_map.mp hmem
    obtain ⟨node', -, hid⟩ := List.mem_map.mp hmem'
    exact hne (publicId_inj (graphNames_no_bar hg') (graphNames_no_bar hg) hid).2.1.symm
  rw [publicNodes, List.map_append, List.map_append]
  refine (List.Nodup.append ?_ ?_ ?_).append ?_ ?_
  · exact publicNodesOf_nodup bundle (by decide) _
  · exact publicNodesOf_nodup bundle (by decide) _
  · exact hapart (by decide) (by decide) (by decide) _ _
  · exact publicNodesOf_nodup bundle (by decide) _
  · rw [List.disjoint_append_left]
    exact ⟨hapart (by decide) (by decide) (by decide) _ _, hapart (by decide) (by decide) (by decide) _ _⟩

/-! Lawful logs -/

section Log
variable {θ : Type} {svc : Service} {commands : θ → Command} {w : World} {events : List StoredEvent}

theorem lawful_replayable (h : Lawful svc commands w) (he : e ∈ w.database.events) : Replayable e := by
  intro hverdict
  have hkind := h.kind he
  have hvt : e.entityType = "verification" := by
    simp only [eventKinds, List.mem_cons, List.not_mem_nil, or_false, Prod.mk.injEq] at hkind
    rcases hkind with h | h | h | h | h | h | h
    all_goals first | exact h.1 | (rw [h.2] at hverdict; exact absurd hverdict (by decide))
  obtain ⟨before, after, hsplit⟩ := List.append_of_mem he
  obtain ⟨_, bundleId, lease, report, _, binding, _, attestation, -, -, -, -, -, -, -, htype, hpayload, -⟩ :=
    h.verdict hsplit hvt
  generalize verificationFailures binding report.toVerificationObservation = reasons at htype hpayload
  refine ⟨decide (reasons = []), ?_⟩
  rw [verificationAccepted, hpayload, htype]
  by_cases hreasons : reasons = []
  · subst hreasons
    rfl
  · simp [verificationPayload, JsonObject.get, List.lookup, verdictType, hreasons, ensure]

theorem lawful_declared (h : Lawful svc commands w) (he : e ∈ w.database.events)
    (het : e.eventType = "task.registered") :
    ∃ bundle assurance, RegisteredAs svc commands w.database.events bundle assurance e ∧
      declaredBy e = publicNodes bundle.toHandoff := by
  have ht : e.entityType = "task" := by
    have hkind := h.kind he
    rw [het] at hkind
    simpa [eventKinds] using hkind
  obtain ⟨bundle, assurance, hregistered, -, -⟩ := h.registration (List.Subset.refl _) he ht het
  obtain ⟨attestation, -, hpayload⟩ := hregistered.payload
  refine ⟨bundle, assurance, hregistered, ?_⟩
  rw [declaredBy, if_pos het]
  exact (registeredNodes_registration svc bundle assurance _ hpayload).2

theorem mem_declaredBy {node : PublicNode} (h : node ∈ declaredBy e) : e.eventType = "task.registered" := by
  unfold declaredBy at h
  split at h
  · assumption
  · cases h

/-- The registrations of a lawful log declare distinct nodes. -/
theorem lawful_declared_nodup (h : Lawful svc commands w) (hevents : events.Perm w.database.events) :
    ((events.flatMap declaredBy).map (·.id)).Nodup := by
  have hmem {e : StoredEvent} (he : e ∈ events) : e ∈ w.database.events := hevents.mem_iff.mp he
  have hnodup : events.Nodup := by
    apply List.Nodup.of_map (·.eventId)
    exact (hevents.map _).nodup_iff.mpr h.coherent.ids
  rw [List.map_flatMap, List.nodup_flatMap]
  constructor
  · intro e he
    by_cases het : e.eventType = "task.registered"
    · obtain ⟨bundle, _, -, hdeclared⟩ := lawful_declared h (hmem he) het
      rw [hdeclared]
      exact publicNodes_nodup _
    · rw [declaredBy, if_neg het]
      exact List.nodup_nil
  · refine hnodup.imp_of_mem fun {e e'} he he' hne => ?_
    intro id hid hid'
    obtain ⟨node, hnode, rfl⟩ := List.mem_map.mp hid
    obtain ⟨node', hnode', hids⟩ := List.mem_map.mp hid'
    have het := mem_declaredBy hnode
    have het' := mem_declaredBy hnode'
    obtain ⟨bundle, _, hregistered, hdeclared⟩ := lawful_declared h (hmem he) het
    obtain ⟨bundle', _, hregistered', hdeclared'⟩ := lawful_declared h (hmem he') het'
    rw [hdeclared] at hnode
    rw [hdeclared'] at hnode'
    obtain ⟨-, hgraph, hnodeId⟩ := mem_publicNodes hnode
    obtain ⟨-, hgraph', hnodeId'⟩ := mem_publicNodes hnode'
    rw [hnodeId, hnodeId'] at hids
    have hbundle := (publicId_inj (graphNames_no_bar hgraph') (graphNames_no_bar hgraph) hids).1
    refine hne (h.registration_unique (hmem he) (hmem he') hregistered.entityType hregistered'.entityType het het' ?_)
    rw [hregistered.entityId, hregistered'.entityId, hbundle]

/-- The snapshot of a lawful log returns, and it shows the nodes its registrations declare. -/
theorem lawful_snapshot (h : Lawful svc commands w) (hevents : events.Perm w.database.events) :
    ∃ s, snapshot events = .ok s ∧
      s.nodes.map (·.toNodeIdentity) = ((inOrder events).flatMap declaredBy).map (·.toNodeIdentity) := by
  have horder : (inOrder events).Perm w.database.events := (List.perm_insertionSort _ _).trans hevents
  obtain ⟨s, hs, hnodes⟩ := foldlM_step_identities (s := Snapshot.empty)
    (fun e he => lawful_replayable h (horder.mem_iff.mp he)) (lawful_declared_nodup h horder)
  exact ⟨s, hs, hnodes⟩

end Log

end Autolean.ControlPlane.Projection
