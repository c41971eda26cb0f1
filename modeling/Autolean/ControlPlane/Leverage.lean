import Autolean.ControlPlane.Projection
import Autolean.ControlPlane.Claims
import Autolean.Graphs.Reachability

/-! The structural leverage the projection reports for the mathematical nodes of a task,
against reachability in the graph of the registered bundle. -/
namespace Autolean.ControlPlane.Projection
open Contracts Machine Raising Graphs Relation

def exactTransitiveLeverageNodeLimit : Nat := 512

/-- The order in which a set of texts is iterated. -/
structure SetOrder where
  list : Finset String → List String
  nodup : ∀ s, (list s).Nodup
  mem_list : ∀ s a, a ∈ list s ↔ a ∈ s

structure LeverageRow where
  nodeId : String
  sourceNodeId : String
  label : String
  directDependents : Nat
  transitiveDependents : Option Nat

structure Leverage where
  nodeCount : Nat
  mode : String
  rows : List LeverageRow

/-- `by_task[task_id]`. -/
def byTask (nodes : List NodeIdentity) (taskId : String) : List NodeIdentity :=
  nodes.filter fun node => node.graph = "mathematical" ∧ node.bundleId = taskId

/-- `dependents[node_id]`. -/
def dependents (taskNodes : List NodeIdentity) (nodeId : String) : Finset String :=
  ((taskNodes.filter fun node => nodeId ∈ node.dependencies).map (·.id)).toFinset

/-- The search of `_transitive_dependents`, at its end. -/
def dependentsSearch (order : SetOrder) (taskNodes : List NodeIdentity) (nodeId : String) : Visit String :=
  Visit.run (fun candidate => order.list (dependents taskNodes candidate)) (· = nodeId)
    ((dependents taskNodes nodeId).card + ∑ known ∈ (taskNodes.map (·.id)).toFinset, (dependents taskNodes known).card)
    ⟨[], (order.list (dependents taskNodes nodeId)).reverse⟩

/-- `_transitive_dependents`. -/
def transitiveDependents (order : SetOrder) (taskNodes : List NodeIdentity) (nodeId : String) : Nat :=
  (dependentsSearch order taskNodes nodeId).seen.length

def exactTransitive (taskNodes : List NodeIdentity) : Bool := taskNodes.length ≤ exactTransitiveLeverageNodeLimit

def leverageRow (order : SetOrder) (taskNodes : List NodeIdentity) (node : NodeIdentity) : LeverageRow :=
  ⟨node.id, if node.sourceNodeId = "" then node.id else node.sourceNodeId, if node.label = "" then node.id else node.label,
    (dependents taskNodes node.id).card,
    if exactTransitive taskNodes then some (transitiveDependents order taskNodes node.id) else none⟩

/-- The order of the sort keys: more transitive dependents first, then more direct ones, then
the identifiers. Without transitive counts the first key is the same for all rows. -/
def RanksBefore (a b : LeverageRow) : Prop :=
  b.transitiveDependents.getD 0 < a.transitiveDependents.getD 0 ∨
    a.transitiveDependents.getD 0 = b.transitiveDependents.getD 0 ∧
      (b.directDependents < a.directDependents ∨ a.directDependents = b.directDependents ∧ a.nodeId ≤ b.nodeId)

instance RanksBefore.decidable : DecidableRel RanksBefore := fun _ _ => inferInstanceAs (Decidable (_ ∨ _ ∧ (_ ∨ _ ∧ _)))

/-- `_mathematical_dependency_leverage`, at one task. -/
def mathematicalDependencyLeverage (order : SetOrder) (nodes : List NodeIdentity) (taskId : String) : Leverage :=
  let taskNodes := byTask nodes taskId
  ⟨taskNodes.length, if exactTransitive taskNodes then "exact_transitive" else "direct_only_over_limit",
    (taskNodes.map (leverageRow order taskNodes)).insertionSort RanksBefore⟩

/-- The leverage of a task over the nodes that the loop of `snapshot` leaves. `_phase_feedback` shows it
unless it raises before, over reviews that share an identifier. -/
def reportedLeverage (order : SetOrder) (events : List StoredEvent) (taskId : String) : Raises Leverage := do
  let s ← snapshot events
  pure (mathematicalDependencyLeverage order (s.nodes.map (·.toNodeIdentity)) taskId)

/-! The rank is a total order of the rows -/

instance RanksBefore.total : Std.Total RanksBefore where
  total a b := by
    unfold RanksBefore
    have hid := le_total a.nodeId b.nodeId
    rcases lt_trichotomy (a.transitiveDependents.getD 0) (b.transitiveDependents.getD 0) with h | h | h
    · exact .inr (.inl h)
    · rcases lt_trichotomy a.directDependents b.directDependents with h' | h' | h'
      · exact .inr (.inr ⟨h.symm, .inl h'⟩)
      · exact hid.imp (fun hid => .inr ⟨h, .inr ⟨h', hid⟩⟩) fun hid => .inr ⟨h.symm, .inr ⟨h'.symm, hid⟩⟩
      · exact .inl (.inr ⟨h, .inl h'⟩)
    · exact .inl (.inl h)

instance RanksBefore.isTrans : IsTrans LeverageRow RanksBefore where
  trans a b c hab hbc := by
    unfold RanksBefore at *
    rcases hab with hab | ⟨hab, hab' | ⟨hab', hid⟩⟩ <;> rcases hbc with hbc | ⟨hbc, hbc' | ⟨hbc', hid'⟩⟩
    · exact .inl (hbc.trans hab)
    · exact .inl (hbc ▸ hab)
    · exact .inl (hbc ▸ hab)
    · exact .inl (hab ▸ hbc)
    · exact .inr ⟨hab.trans hbc, .inl (hbc'.trans hab')⟩
    · exact .inr ⟨hab.trans hbc, .inl (hbc' ▸ hab')⟩
    · exact .inl (hab ▸ hbc)
    · exact .inr ⟨hab.trans hbc, .inl (hab' ▸ hbc')⟩
    · exact .inr ⟨hab.trans hbc, .inr ⟨hab'.trans hbc', hid.trans hid'⟩⟩

/-! The search -/

section Search
variable {order : SetOrder} {taskNodes : List NodeIdentity} {nodeId : String}

theorem mem_dependents {a b : String} : b ∈ dependents taskNodes a ↔ ∃ node ∈ taskNodes, node.id = b ∧ a ∈ node.dependencies := by
  simp only [dependents, List.mem_toFinset, List.mem_map, List.mem_filter, decide_eq_true_eq]
  constructor
  · rintro ⟨node, ⟨hnode, hdependency⟩, rfl⟩
    exact ⟨node, hnode, rfl, hdependency⟩
  · rintro ⟨node, hnode, rfl, hdependency⟩
    exact ⟨node, ⟨hnode, hdependency⟩, rfl⟩

theorem SetOrder.length_list (s : Finset String) : (order.list s).length = s.card := by
  rw [← List.toFinset_card_of_nodup (order.nodup s)]
  congr 1
  ext a
  rw [List.mem_toFinset, order.mem_list]

/-- The search has ended, and it marked the other nodes that depend on the node. -/
theorem dependentsSearch_spec (order : SetOrder) (taskNodes : List NodeIdentity) (nodeId : String) :
    (dependentsSearch order taskNodes nodeId).pending = [] ∧
    (dependentsSearch order taskNodes nodeId).seen.Nodup ∧
    ∀ a, a ∈ (dependentsSearch order taskNodes nodeId).seen ↔
      a ≠ nodeId ∧ ReflTransGen (fun c d => d ∈ dependents taskNodes c) nodeId a := by
  have hdependents (a b : String) (hb : b ∈ order.list (dependents taskNodes a)) : b ∈ (taskNodes.map (·.id)).toFinset := by
    obtain ⟨node, hnode, rfl, -⟩ := mem_dependents.mp ((order.mem_list _ _).mp hb)
    exact List.mem_toFinset.mpr (List.mem_map_of_mem hnode)
  have hstart : Visiting (taskNodes.map (·.id)).toFinset (fun candidate => order.list (dependents taskNodes candidate))
      (· = nodeId) (order.list (dependents taskNodes nodeId)) ⟨[], (order.list (dependents taskNodes nodeId)).reverse⟩ :=
    Visiting.initial (hdependents nodeId)
  have hknown := fun a (_ : a ∈ (taskNodes.map (·.id)).toFinset) => hdependents a
  have hpending : (dependentsSearch order taskNodes nodeId).pending = [] := by
    apply hstart.exhausted hknown
    simp only [Visit.potential, List.toFinset_nil, Finset.sdiff_empty, List.length_reverse, SetOrder.length_list]
    exact le_rfl
  have hend := hstart.run hknown
    ((dependents taskNodes nodeId).card + ∑ known ∈ (taskNodes.map (·.id)).toFinset, (dependents taskNodes known).card)
  refine ⟨hpending, hend.nodup, fun a => ?_⟩
  have hexcluded : ∀ a, decide (a = nodeId) = true → ∀ b ∈ order.list (dependents taskNodes a),
      b ∈ order.list (dependents taskNodes nodeId) := by
    intro a ha b hb
    rwa [of_decide_eq_true ha] at hb
  refine (hend.mem_seen_iff hpending hexcluded).trans ?_
  simp only [order.mem_list, decide_eq_false_iff_not]
  refine and_congr_right fun ha => ?_
  constructor
  · rintro ⟨b, hb, hreach⟩
    exact hreach.head hb
  · intro hreach
    rcases hreach.cases_head with heq | ⟨b, hb, hreach⟩
    · exact absurd heq.symm ha
    · exact ⟨b, hb, hreach⟩

end Search

/-! The mathematical graph of a bundle -/

/-- Some edge of the graph leads from the first node to the second. -/
def Points (graph : Graph) (a b : StableIdentifier) : Prop := ∃ edge ∈ graph.edges, edge.source = a ∧ edge.target = b

/-- The rows report the structure of the mathematical graph of the bundle. -/
structure ReportsGraph (bundle : Handoff) (rows : List LeverageRow) : Prop where
  one_each : (rows.map (·.sourceNodeId)).Perm (bundle.graphs.mathematical.nodes.map (·.nodeId.value))
  counted : ∀ row ∈ rows, ∃ node ∈ bundle.graphs.mathematical.nodes,
    row.nodeId = publicId bundle.bundleId.value "mathematical" node.nodeId.value ∧ row.sourceNodeId = node.nodeId.value ∧
      row.label = node.label.value ∧ row.directDependents = {b | Points bundle.graphs.mathematical node.nodeId b}.ncard ∧
        row.transitiveDependents = some
          {b | b ≠ node.nodeId ∧ ReflTransGen (Points bundle.graphs.mathematical) node.nodeId b}.ncard
  ranked : rows.Pairwise RanksBefore

section Bundle
variable {bundle : Handoff} {order : SetOrder}

/-- The public identifier of a mathematical node. -/
def mathematicalId (bundle : Handoff) (i : StableIdentifier) : String := publicId bundle.bundleId.value "mathematical" i.value

theorem mathematicalId_injective : Function.Injective (mathematicalId bundle) := by
  intro i j h
  exact identifier_injective (publicId_inj (graphNames_no_bar (by decide)) (graphNames_no_bar (by decide)) h).2.2

/-- The mathematical nodes of the bundle, as the projection shows them. -/
def mathematicalNodes (bundle : Handoff) : List NodeIdentity :=
  (publicNodesOf bundle "mathematical" bundle.graphs.mathematical).map (·.toNodeIdentity)

theorem mem_dependents_mathematical {a : StableIdentifier} {x : String} :
    x ∈ dependents (mathematicalNodes bundle) (mathematicalId bundle a) ↔
      ∃ b, Points bundle.graphs.mathematical a b ∧ mathematicalId bundle b = x := by
  rw [mem_dependents]
  constructor
  · rintro ⟨_, hnode, rfl, hdependency⟩
    simp only [mathematicalNodes, publicNodesOf, List.map_map, List.mem_map, Function.comp] at hnode
    obtain ⟨node, -, rfl⟩ := hnode
    obtain ⟨source, hsource, hid⟩ := List.mem_map.mp hdependency
    rw [graphDependencies, (List.perm_insertionSort _ _).mem_iff, List.mem_map] at hsource
    obtain ⟨edge, hedge, rfl⟩ := hsource
    rw [List.mem_filter, decide_eq_true_eq] at hedge
    exact ⟨node.nodeId, ⟨edge, hedge.1, mathematicalId_injective hid, hedge.2⟩, rfl⟩
  · rintro ⟨b, ⟨edge, hedge, rfl, rfl⟩, rfl⟩
    obtain ⟨node, hnode, htarget⟩ := List.mem_map.mp (bundle.graphs.mathematical.edges_known edge hedge).2
    refine ⟨_, List.mem_map_of_mem (List.mem_map_of_mem hnode), congrArg (mathematicalId bundle) htarget, ?_⟩
    apply List.mem_map_of_mem
    rw [graphDependencies, (List.perm_insertionSort _ _).mem_iff, List.mem_map]
    exact ⟨edge, List.mem_filter.mpr ⟨hedge, decide_eq_true htarget.symm⟩, rfl⟩

theorem reaches_mathematical {a : StableIdentifier} {x : String} :
    ReflTransGen (fun c d => d ∈ dependents (mathematicalNodes bundle) c) (mathematicalId bundle a) x ↔
      ∃ b, ReflTransGen (Points bundle.graphs.mathematical) a b ∧ mathematicalId bundle b = x := by
  constructor
  · intro h
    induction h with
    | refl => exact ⟨a, .refl, rfl⟩
    | tail _ hd ih =>
      obtain ⟨b, hb, rfl⟩ := ih
      obtain ⟨c, hc, rfl⟩ := mem_dependents_mathematical.mp hd
      exact ⟨c, hb.tail hc, rfl⟩
  · rintro ⟨b, hb, rfl⟩
    induction hb with
    | refl => exact .refl
    | tail _ hc ih => exact ih.tail (mem_dependents_mathematical.mpr ⟨_, hc, rfl⟩)

theorem ncard_of_image {s : Set StableIdentifier} {t : Finset String}
    (h : ∀ x, x ∈ t ↔ ∃ b, b ∈ s ∧ mathematicalId bundle b = x) : t.card = s.ncard := by
  have himage : (t : Set String) = mathematicalId bundle '' s := by
    ext x
    exact h x
  rw [← Set.ncard_coe_finset, himage, Set.ncard_image_of_injective _ mathematicalId_injective]

theorem transitiveDependents_mathematical (a : StableIdentifier) :
    transitiveDependents order (mathematicalNodes bundle) (mathematicalId bundle a) =
      {b | b ≠ a ∧ ReflTransGen (Points bundle.graphs.mathematical) a b}.ncard := by
  obtain ⟨-, hnodup, hseen⟩ := dependentsSearch_spec order (mathematicalNodes bundle) (mathematicalId bundle a)
  rw [transitiveDependents, ← List.toFinset_card_of_nodup hnodup]
  apply ncard_of_image
  intro x
  rw [List.mem_toFinset, hseen, reaches_mathematical]
  constructor
  · rintro ⟨hne, b, hb, rfl⟩
    exact ⟨b, ⟨fun heq => hne (by rw [heq]), hb⟩, rfl⟩
  · rintro ⟨b, ⟨hne, hb⟩, rfl⟩
    exact ⟨fun heq => hne (mathematicalId_injective heq), b, hb, rfl⟩

/-- What is reported for the nodes of a bundle of at most 512 mathematical nodes. -/
theorem reportsGraph (hsize : bundle.graphs.mathematical.nodes.length ≤ exactTransitiveLeverageNodeLimit) :
    ReportsGraph bundle
      (((mathematicalNodes bundle).map (leverageRow order (mathematicalNodes bundle))).insertionSort RanksBefore) := by
  have hperm := List.perm_insertionSort RanksBefore
    ((mathematicalNodes bundle).map (leverageRow order (mathematicalNodes bundle)))
  have hexact : exactTransitive (mathematicalNodes bundle) = true := by
    simpa [exactTransitive, mathematicalNodes, publicNodesOf] using hsize
  constructor
  · refine (hperm.map _).trans (.of_eq ?_)
    simp only [mathematicalNodes, publicNodesOf, List.map_map]
    apply List.map_congr_left
    intro node _
    exact if_neg (ne_empty_of_not_blank node.nodeId.not_blank)
  · intro row hrow
    obtain ⟨_, hshown, rfl⟩ := List.mem_map.mp (hperm.mem_iff.mp hrow)
    obtain ⟨_, hpublic, rfl⟩ := List.mem_map.mp hshown
    obtain ⟨node, hnode, rfl⟩ := List.mem_map.mp hpublic
    refine ⟨node, hnode, rfl, if_neg (ne_empty_of_not_blank node.nodeId.not_blank), if_neg node.label.nonempty, ?_, ?_⟩
    · exact ncard_of_image fun x => mem_dependents_mathematical
    · rw [leverageRow, if_pos hexact]
      exact congrArg some (transitiveDependents_mathematical node.nodeId)
  · exact List.pairwise_insertionSort _ _

end Bundle

/-! The reports of a log -/

section Log
variable {θ : Type} {svc : Service} {commands : θ → Command} {w : World} {events : List StoredEvent} {e : StoredEvent}
  {bundle : FormalizationTaskBundle} {assurance : Option CanonicalTypeAssurance}

theorem byTask_append (nodes more : List NodeIdentity) (taskId : String) :
    byTask (nodes ++ more) taskId = byTask nodes taskId ++ byTask more taskId := List.filter_append ..

theorem byTask_publicNodes (bundle : Handoff) :
    byTask ((publicNodes bundle).map (·.toNodeIdentity)) bundle.bundleId.value = mathematicalNodes bundle := by
  have hgraph (g : String) (graph : Graph) : byTask ((publicNodesOf bundle g graph).map (·.toNodeIdentity))
      bundle.bundleId.value = if g = "mathematical" then (publicNodesOf bundle g graph).map (·.toNodeIdentity) else [] := by
    split
    · apply List.filter_eq_self.mpr
      simp_all [publicNodesOf]
    · apply List.filter_eq_nil_iff.mpr
      simp_all [publicNodesOf]
  rw [publicNodes, List.map_append, List.map_append, byTask_append, byTask_append, hgraph, hgraph, hgraph, if_pos rfl,
    if_neg (by decide), if_neg (by decide), List.append_nil, List.append_nil]
  rfl

/-- Of the nodes a log declares, those of a task are the ones its registration declares. -/
theorem byTask_declared (h : Lawful svc commands w) (hevents : events.Perm w.database.events)
    (hregistered : RegisteredAs svc commands w.database.events bundle assurance e) :
    byTask ((events.flatMap declaredBy).map (·.toNodeIdentity)) bundle.bundleId.value =
      mathematicalNodes bundle.toHandoff := by
  have hmem {e : StoredEvent} (he : e ∈ events) : e ∈ w.database.events := hevents.mem_iff.mp he
  have hother {others : List StoredEvent} (hothers : ∀ e' ∈ others, e' ∈ events ∧ e' ≠ e) :
      byTask ((others.flatMap declaredBy).map (·.toNodeIdentity)) bundle.bundleId.value = [] := by
    apply List.filter_eq_nil_iff.mpr
    intro node hnode
    obtain ⟨node, hdeclaredNode, rfl⟩ := List.mem_map.mp hnode
    obtain ⟨e', he', hnode⟩ := List.mem_flatMap.mp hdeclaredNode
    have het := mem_declaredBy hnode
    obtain ⟨hin, hne⟩ := hothers e' he'
    obtain ⟨bundle', _, hregistered', hdeclared⟩ := lawful_declared h (hmem hin) het
    rw [hdeclared] at hnode
    rw [decide_eq_true_eq]
    rintro ⟨-, htask⟩
    refine hne (h.registration_unique (hmem hin) hregistered.mem hregistered'.entityType hregistered.entityType het
      hregistered.eventType ?_)
    rw [hregistered'.entityId, hregistered.entityId, ← htask]
    exact (mem_publicNodes hnode).1.symm
  have hnodup : events.Nodup := by
    apply List.Nodup.of_map (·.eventId)
    exact (hevents.map _).nodup_iff.mpr h.coherent.ids
  obtain ⟨before, after, rfl⟩ := List.append_of_mem (hevents.mem_iff.mpr hregistered.mem)
  have hfresh : e ∉ before ∧ e ∉ after := by
    have hmiddle := List.nodup_middle.mp hnodup
    rw [List.nodup_cons, List.mem_append, not_or] at hmiddle
    exact hmiddle.1
  have hdeclared : declaredBy e = publicNodes bundle.toHandoff := by
    obtain ⟨attestation, -, hpayload⟩ := hregistered.payload
    rw [declaredBy, if_pos hregistered.eventType]
    exact (registeredNodes_registration svc bundle assurance _ hpayload).2
  rw [List.flatMap_append, List.flatMap_cons, List.map_append, List.map_append, byTask_append, byTask_append,
    hother fun e' he' => ⟨List.mem_append_left _ he', fun heq => hfresh.1 (heq ▸ he')⟩,
    hother fun e' he' => ⟨List.mem_append_right _ (List.mem_cons_of_mem _ he'), fun heq => hfresh.2 (heq ▸ he')⟩, hdeclared,
    byTask_publicNodes, List.nil_append, List.append_nil]

/-- For each registered bundle of at most 512 mathematical nodes the projection returns rows
that report the structure of its mathematical graph. -/
def LeverageExact (svc : Service) (commands : θ → Command) (w : World) : Prop :=
  ∀ order events e bundle assurance, events.Perm w.database.events →
    RegisteredAs svc commands w.database.events bundle assurance e →
    bundle.graphs.mathematical.nodes.length ≤ exactTransitiveLeverageNodeLimit →
    ∃ leverage, reportedLeverage order events bundle.bundleId.value = .ok leverage ∧
      leverage.nodeCount = bundle.graphs.mathematical.nodes.length ∧ leverage.mode = "exact_transitive" ∧
      ReportsGraph bundle.toHandoff leverage.rows

theorem leverage_exact [DecidableEq θ] (svc : Service) (commands : θ → Command) (labels : List (θ × ServiceInput)) :
    LeverageExact svc commands (run (CommandPool.step svc) (CommandPool.start svc commands) labels).state := by
  have hw := (run_sound_any svc commands labels).inv
  intro order events e bundle assurance hevents hregistered hsize
  obtain ⟨s, hs, hnodes⟩ := lawful_snapshot hw hevents
  have htask : byTask (s.nodes.map (·.toNodeIdentity)) bundle.bundleId.value = mathematicalNodes bundle.toHandoff := by
    rw [hnodes]
    exact byTask_declared hw ((List.perm_insertionSort _ _).trans hevents) hregistered
  have hlength : (mathematicalNodes bundle.toHandoff).length = bundle.graphs.mathematical.nodes.length := by
    simp [mathematicalNodes, publicNodesOf]
  refine ⟨_, by rw [reportedLeverage, hs]; rfl, ?_, ?_, ?_⟩
  · simp only [mathematicalDependencyLeverage, htask, hlength]
  · simp only [mathematicalDependencyLeverage, htask]
    exact if_pos (by simpa [exactTransitive, hlength] using hsize)
  · simp only [mathematicalDependencyLeverage, htask]
    exact reportsGraph hsize

end Log

/-! A registered bundle of three nodes in a row -/

theorem ascending_trans : IsTrans String (· ≤ ·) := inferInstance

theorem ascending_antisymm : @Std.Antisymm String (· ≤ ·) := inferInstance

def SetOrder.ascending : SetOrder where
  list s := @Finset.sort String s (· ≤ ·) _ ascending_trans ascending_antisymm _
  nodup s := s.sort_nodup _
  mem_list s _ := s.mem_sort _

def chainNode (identifier label : String) (h : IsStableIdentifier identifier) (hlabel : label ≠ "") : GraphNode :=
  ⟨⟨identifier, h⟩, ⟨"lemma", by decide⟩, ⟨label, hlabel⟩⟩

def chainFirst : GraphNode :=
    chainNode "urn:autolean:v1:node:00000000-0000-0000-0000-000000000001" "first" (by decide +kernel) (by decide)

def chainSecond : GraphNode :=
    chainNode "urn:autolean:v1:node:00000000-0000-0000-0000-000000000002" "second" (by decide +kernel) (by decide)

def chainThird : GraphNode :=
    chainNode "urn:autolean:v1:node:00000000-0000-0000-0000-000000000003" "third" (by decide +kernel) (by decide)

/-- The second node depends on the first, and the third on the second. -/
def chainGraph : Graph where
  nodes := [chainFirst, chainSecond, chainThird]
  edges := [⟨chainFirst.nodeId, chainSecond.nodeId⟩, ⟨chainSecond.nodeId, chainThird.nodeId⟩]
  nodes_distinct := by decide +kernel
  edges_known := by decide +kernel

def chainBundle : FormalizationTaskBundle where
  toHandoff := { sampleHandoff [] with graphs := ⟨chainGraph, sampleGraph, sampleGraph⟩ }
  builderAttestation := (sampleBundle []).builderAttestation
  attestation_purpose := (sampleBundle []).attestation_purpose

def chainLog : List StoredEvent :=
  (run (CommandPool.step sampleService) (CommandPool.start sampleService fun _ : Unit => .registerBundle chainBundle "register")
    (List.replicate 4 (stepOf () 0 'a'))).state.database.events

theorem chain_registered : ∃ e ∈ chainLog, e.eventType = "task.registered" := by decide +kernel

theorem leverage_exact_chain : ∃ leverage, reportedLeverage .ascending chainLog chainBundle.bundleId.value = .ok leverage ∧
    leverage.nodeCount = 3 ∧ leverage.mode = "exact_transitive" ∧ ReportsGraph chainBundle.toHandoff leverage.rows := by
  have hw := (run_sound_any sampleService (fun _ : Unit => Command.registerBundle chainBundle "register")
    (List.replicate 4 (stepOf () 0 'a'))).inv
  obtain ⟨e, he, het⟩ := chain_registered
  obtain ⟨bundle, assurance, hregistered, -⟩ := lawful_declared hw he het
  obtain ⟨-, _, hpresented⟩ := hregistered.presented
  cases hpresented
  exact leverage_exact sampleService _ _ .ascending chainLog e chainBundle assurance (.refl _) hregistered (by decide)

end Autolean.ControlPlane.Projection
