import Autolean.Contracts.Values
import Autolean.Machine.Raising
import Autolean.Graphs.Declared

/-! The dependency graph of a project fixture: its construction, its topological order, the
nodes a change affects and the nodes that are ready. -/
namespace Autolean.Benchmarks
open Contracts Machine Machine.Raising Graphs Relation

/-- A `ProjectDagError` with its message. -/
abbrev DagOutcome (α : Type) := Except String α

/-- `^[a-z0-9][a-z0-9_.-]*$`. -/
def IsNodeId (s : String) : Prop :=
  s.toList.head?.any (fun c => ('a' ≤ c && c ≤ 'z') || c.isDigit) = true ∧
    s.toList.all (fun c => ('a' ≤ c && c ≤ 'z') || c.isDigit || c = '_' || c = '.' || c = '-') = true

/-- `^[A-Za-z0-9_.-]+\.lean$`. -/
def IsFilePath (s : String) : Prop :=
  5 < s.toList.length ∧ s.toList.drop (s.toList.length - 5) = ".lean".toList ∧
    s.toList.all (fun c => c.isAlphanum || c = '_' || c = '.' || c = '-') = true

instance (s : String) : Decidable (IsNodeId s) := inferInstanceAs (Decidable (_ ∧ _))
instance (s : String) : Decidable (IsFilePath s) := inferInstanceAs (Decidable (_ ∧ _ ∧ _))

structure ProjectNode where
  nodeId : String
  sourceFile : String
  dependsOn : List String
  nodeId_shaped : IsNodeId nodeId
  sourceFile_shaped : IsFilePath sourceFile
  not_self : nodeId ∉ dependsOn
  dependsOn_unique : dependsOn.Nodup

def identifiers (nodes : List ProjectNode) : List String := nodes.map (·.nodeId)

/-- `sorted` of texts. -/
def sortedTexts (values : List String) : List String := values.insertionSort (· ≤ ·)

/-- `by_id[node_id]`. -/
def byId (nodes : List ProjectNode) (nodeId : String) : Option ProjectNode := nodeAt ProjectNode.nodeId nodes nodeId

/-- `reverse[node_id]`: the nodes that declare the dependency, in the order of the nested loops. -/
def reverse (nodes : List ProjectNode) (nodeId : String) : List String :=
  dependentsOf ProjectNode.nodeId ProjectNode.dependsOn nodes nodeId

/-- `len(node.depends_on)`. -/
def indegree (nodes : List ProjectNode) (nodeId : String) : Nat :=
  dependencyCount ProjectNode.nodeId ProjectNode.dependsOn nodes nodeId

/-- The state when the queue of `topological_order` is empty. -/
def removedNodes (nodes : List ProjectNode) : Removal String :=
  Removal.run id (fun nodeId => sortedTexts (reverse nodes nodeId)) nodes.length
    ⟨fun nodeId => indegree nodes nodeId, sortedTexts ((identifiers nodes).filter fun nodeId => indegree nodes nodeId = 0), []⟩

def topologicalOrder (nodes : List ProjectNode) : DagOutcome (List String) := do
  ensure ((removedNodes nodes).ordered.length = nodes.length) "project DAG must be acyclic"
  pure (removedNodes nodes).ordered

/-- A fixture that passed its construction. -/
structure ProjectDag where
  name : String
  nodes : List ProjectNode
  named : ¬ Blank name
  nodes_unique : (identifiers nodes).Nodup
  dependencies_known : ∀ node ∈ nodes, ∀ dependency ∈ node.dependsOn, dependency ∈ identifiers nodes
  sortable : (removedNodes nodes).ordered.length = nodes.length

/-- The constructor with its `__post_init__`. -/
def projectDag (name : String) (nodes : List ProjectNode) : DagOutcome ProjectDag :=
  if hname : Blank name then .error "project DAG name must not be empty"
  else if hunique : ¬ (identifiers nodes).Nodup then .error "project DAG node IDs must be unique"
  else if hknown : ¬ ∀ node ∈ nodes, ∀ dependency ∈ node.dependsOn, dependency ∈ identifiers nodes then
    .error "project DAG references an unknown dependency"
  else if hsortable : (removedNodes nodes).ordered.length = nodes.length then
    .ok ⟨name, nodes, hname, not_not.mp hunique, not_not.mp hknown, hsortable⟩
  else .error "project DAG must be acyclic"

namespace ProjectDag

/-- `ready_frontier`. -/
def readyFrontier (dag : ProjectDag) (completed : Finset String) : DagOutcome (List ProjectNode) := do
  ensure (∀ nodeId ∈ completed, nodeId ∈ identifiers dag.nodes) "completed set contains unknown project DAG nodes"
  let order ← topologicalOrder dag.nodes
  pure ((order.filterMap (byId dag.nodes)).filter fun node =>
    node.nodeId ∉ completed ∧ ∀ dependency ∈ node.dependsOn, dependency ∈ completed)

/-- `sorted(changed)`. -/
def sortedIds (changed : Finset String) : List String := changed.sort (· ≤ ·)

/-- The state when the queue of `affected_by` is empty. -/
def spreadFrom (dag : ProjectDag) (changed : Finset String) : Spread String :=
  Spread.run (fun nodeId => sortedTexts (reverse dag.nodes nodeId).dedup) (identifiers dag.nodes).length
    ⟨sortedIds changed, sortedIds changed⟩

/-- `affected_by`. -/
def affectedBy (dag : ProjectDag) (changed : Finset String) : DagOutcome (List ProjectNode) := do
  ensure (∀ nodeId ∈ changed, nodeId ∈ identifiers dag.nodes) "changed set contains unknown project DAG nodes"
  let order ← topologicalOrder dag.nodes
  pure ((order.filter fun nodeId => nodeId ∈ (dag.spreadFrom changed).marked).filterMap (byId dag.nodes))

end ProjectDag

/-- The first node declares the second as a dependency. -/
def DependsOn (nodes : List ProjectNode) (a b : String) : Prop := Depends ProjectNode.nodeId ProjectNode.dependsOn nodes a b

variable {nodes : List ProjectNode}

theorem byId_eq_some (hunique : (identifiers nodes).Nodup) {node : ProjectNode} {nodeId : String} :
    byId nodes nodeId = some node ↔ node ∈ nodes ∧ node.nodeId = nodeId :=
  nodeAt_eq_some hunique

theorem sortedTexts_perm (values : List String) : (sortedTexts values).Perm values := List.perm_insertionSort _ _

/-! The topological order -/

theorem removedNodes_spec (hunique : (identifiers nodes).Nodup)
    (hknown : ∀ node ∈ nodes, ∀ dependency ∈ node.dependsOn, dependency ∈ identifiers nodes) :
    let s := removedNodes nodes
    s.queue = [] ∧ s.ordered.Nodup ∧ s.ordered ⊆ identifiers nodes ∧
      TopologicallyOrdered (fun a b => DependsOn nodes b a) s.ordered ∧
      (s.ordered.length = nodes.length ↔ Acyclic fun a b => DependsOn nodes b a) := by
  obtain ⟨hqueue, hnodup, hsubset, hsorted, -, hall⟩ := declared_removed_spec id
    (fun nodeId => sortedTexts (reverse nodes nodeId)) (fun _ => .refl _) hunique hknown
    (fun _ => sortedTexts_perm _) (sortedTexts_perm _)
  exact ⟨hqueue, hnodup, hsubset, hsorted, hall⟩

/-- A fixture is constructed exactly when its name is not blank, its node identifiers are
unique and its dependencies are declared and form no cycle. -/
theorem projectDag_returns {name : String} : (∃ dag, projectDag name nodes = .ok dag) ↔
    ¬ Blank name ∧ (identifiers nodes).Nodup ∧
      (∀ node ∈ nodes, ∀ dependency ∈ node.dependsOn, dependency ∈ identifiers nodes) ∧
      Acyclic fun a b => DependsOn nodes b a := by
  unfold projectDag
  by_cases hname : Blank name
  · simp [hname]
  rw [dif_neg hname]
  by_cases hunique : (identifiers nodes).Nodup
  swap
  · simp [hunique]
  rw [dif_neg (not_not.mpr hunique)]
  by_cases hknown : ∀ node ∈ nodes, ∀ dependency ∈ node.dependsOn, dependency ∈ identifiers nodes
  swap
  · rw [dif_pos hknown]
    simp only [reduceCtorEq, exists_false, false_iff]
    rintro ⟨-, -, h, -⟩
    exact hknown h
  rw [dif_neg (not_not.mpr hknown)]
  have hall := (removedNodes_spec hunique hknown).2.2.2.2
  by_cases hsortable : (removedNodes nodes).ordered.length = nodes.length
  · rw [dif_pos hsortable]
    exact ⟨fun _ => ⟨hname, hunique, hknown, hall.mp hsortable⟩, fun _ => ⟨_, rfl⟩⟩
  · rw [dif_neg hsortable]
    simp only [reduceCtorEq, exists_false, false_iff]
    rintro ⟨-, -, -, h⟩
    exact hsortable (hall.mpr h)

namespace ProjectDag
variable (dag : ProjectDag)

/-- The order a fixture schedules its nodes in. -/
def order : List String := (removedNodes dag.nodes).ordered

theorem topologicalOrder_eq : topologicalOrder dag.nodes = .ok dag.order := by
  unfold topologicalOrder
  rw [ensure_of _ dag.sortable, ok_bind]
  rfl

theorem order_perm : dag.order.Perm (identifiers dag.nodes) := by
  obtain ⟨-, hnodup, hsubset, -, -⟩ := removedNodes_spec dag.nodes_unique dag.dependencies_known
  apply List.Subperm.perm_of_length_le (hnodup.subperm hsubset)
  rw [identifiers, List.length_map]
  exact dag.sortable.ge

theorem order_sorted : TopologicallyOrdered (fun a b => DependsOn dag.nodes b a) dag.order :=
  (removedNodes_spec dag.nodes_unique dag.dependencies_known).2.2.2.1

/-- The nodes of the identifiers that meet a condition, in topological order. -/
theorem ordered_nodes (p : String → Bool) :
    let result := (dag.order.filter p).filterMap (byId dag.nodes)
    identifiers result = dag.order.filter p ∧ ∀ node, node ∈ result ↔ node ∈ dag.nodes ∧ p node.nodeId = true := by
  have hmem : ∀ nodeId ∈ dag.order.filter p, ∃ node ∈ dag.nodes, byId dag.nodes nodeId = some node ∧ node.nodeId = nodeId := by
    intro nodeId h
    obtain ⟨node, hnode, rfl⟩ := List.mem_map.mp (dag.order_perm.mem_iff.mp (List.mem_of_mem_filter h))
    exact ⟨node, hnode, (byId_eq_some dag.nodes_unique).mpr ⟨hnode, rfl⟩, rfl⟩
  have hmap : ∀ ids : List String, (∀ nodeId ∈ ids, ∃ node ∈ dag.nodes, byId dag.nodes nodeId = some node ∧
    node.nodeId = nodeId) →
      identifiers (ids.filterMap (byId dag.nodes)) = ids := by
    intro ids
    induction ids with
    | nil => exact fun _ => rfl
    | cons nodeId rest ih =>
      intro h
      obtain ⟨node, -, hfound, hid⟩ := h nodeId List.mem_cons_self
      rw [List.filterMap_cons_some hfound]
      unfold identifiers at ih ⊢
      rw [List.map_cons, hid, ih fun other ho => h other (List.mem_cons_of_mem _ ho)]
  refine ⟨hmap _ hmem, fun node => ?_⟩
  rw [List.mem_filterMap]
  simp only [byId_eq_some dag.nodes_unique, List.mem_filter]
  constructor
  · rintro ⟨_, ⟨-, hp⟩, hnode, rfl⟩
    exact ⟨hnode, hp⟩
  · rintro ⟨hnode, hp⟩
    exact ⟨node.nodeId, ⟨dag.order_perm.mem_iff.mpr (List.mem_map_of_mem hnode), hp⟩, hnode, rfl⟩

/-! The nodes a change affects -/

theorem mem_reverse {a b : String} {nodes : List ProjectNode} :
    b ∈ sortedTexts (reverse nodes a).dedup ↔ DependsOn nodes b a := by
  rw [(sortedTexts_perm _).mem_iff, List.mem_dedup]
  exact mem_dependentsOf

/-- The search for affected nodes has ended, and it marked what depends on the change. -/
theorem spreadFrom_spec {changed : Finset String} (hchanged : ∀ nodeId ∈ changed, nodeId ∈ identifiers dag.nodes) :
    (dag.spreadFrom changed).queue = [] ∧ ∀ nodeId, nodeId ∈ (dag.spreadFrom changed).marked ↔
      ∃ c ∈ changed, ReflTransGen (DependsOn dag.nodes) nodeId c := by
  have hknown : ∀ a ∈ (identifiers dag.nodes).toFinset, ∀ b ∈ sortedTexts (reverse dag.nodes a).dedup,
      b ∈ (identifiers dag.nodes).toFinset := by
    intro a _ b hb
    obtain ⟨node, hnode, rfl, -⟩ := mem_reverse.mp hb
    exact List.mem_toFinset.mpr (List.mem_map_of_mem hnode)
  have hstart : Spreading (identifiers dag.nodes).toFinset (fun nodeId => sortedTexts (reverse dag.nodes nodeId).dedup)
      (sortedIds changed) [] ⟨sortedIds changed, sortedIds changed⟩ := Spreading.initial (changed.sort_nodup (· ≤ ·))
    (fun a ha => List.mem_toFinset.mpr (hchanged a ((Finset.mem_sort _).mp ha))) (.refl _)
  have hqueue := hstart.exhausted hknown le_rfl (List.toFinset_card_le (identifiers dag.nodes))
  refine ⟨hqueue, fun nodeId => ?_⟩
  refine ((hstart.run hknown _).mem_marked_iff hqueue).trans ?_
  simp only [sortedIds, Finset.mem_sort, mem_reverse]
  constructor
  · rintro ⟨c, hc, hreach⟩
    exact ⟨c, hc, reflTransGen_swap.mp hreach⟩
  · rintro ⟨c, hc, hreach⟩
    exact ⟨c, hc, reflTransGen_swap.mpr hreach⟩

theorem affectedBy_eq {changed : Finset String} (hchanged : ∀ nodeId ∈ changed, nodeId ∈ identifiers dag.nodes) :
    dag.affectedBy changed =
      .ok ((dag.order.filter fun nodeId => nodeId ∈ (dag.spreadFrom changed).marked).filterMap (byId dag.nodes)) := by
  unfold affectedBy
  rw [ensure_of _ hchanged, ok_bind, topologicalOrder_eq, ok_bind]
  rfl

theorem affectedBy_spec {changed : Finset String} (hchanged : ∀ nodeId ∈ changed, nodeId ∈ identifiers dag.nodes) :
    ∃ result, dag.affectedBy changed = .ok result ∧ (identifiers result).Sublist dag.order ∧
      ∀ node, node ∈ result ↔ node ∈ dag.nodes ∧ ∃ c ∈ changed, ReflTransGen (DependsOn dag.nodes) node.nodeId c := by
  obtain ⟨hids, hmem⟩ := dag.ordered_nodes fun nodeId => nodeId ∈ (dag.spreadFrom changed).marked
  refine ⟨_, dag.affectedBy_eq hchanged, ?_, fun node => ?_⟩
  · rw [hids]
    exact List.filter_sublist
  · rw [hmem, decide_eq_true_eq, (dag.spreadFrom_spec hchanged).2]

/-! The nodes that are ready -/

/-- Some open node has only completed dependencies: the first open one in topological order. -/
theorem exists_ready {completed : Finset String} (hopen : ∃ node ∈ dag.nodes, node.nodeId ∉ completed) :
    ∃ node ∈ dag.nodes, node.nodeId ∉ completed ∧ ∀ dependency ∈ node.dependsOn, dependency ∈ completed := by
  obtain ⟨node, hnode, hnot⟩ := hopen
  have hmem : node.nodeId ∈ dag.order := dag.order_perm.mem_iff.mpr (List.mem_map_of_mem hnode)
  obtain ⟨first, hfirst⟩ := Option.isSome_iff_exists.mp
    (List.find?_isSome.mpr ⟨node.nodeId, hmem, decide_eq_true hnot⟩ : (dag.order.find? fun nodeId => nodeId ∉ completed).isSome)
  obtain ⟨hfirstOpen, front, back, horder, hfront⟩ := List.find?_eq_some_iff_append.mp hfirst
  have hfirstMem : first ∈ dag.order := by simp [horder]
  obtain ⟨found, hfound, rfl⟩ := List.mem_map.mp (dag.order_perm.mem_iff.mp hfirstMem)
  refine ⟨found, hfound, of_decide_eq_true hfirstOpen, fun dependency hdependency => ?_⟩
  have hbefore := dag.order_sorted front found.nodeId back horder dependency ⟨found, hfound, rfl, hdependency⟩
  simpa using hfront dependency hbefore

theorem readyFrontier_eq {completed : Finset String} (hcompleted : ∀ nodeId ∈ completed, nodeId ∈ identifiers dag.nodes) :
    dag.readyFrontier completed = .ok ((dag.order.filterMap (byId dag.nodes)).filter fun node =>
      node.nodeId ∉ completed ∧ ∀ dependency ∈ node.dependsOn, dependency ∈ completed) := by
  unfold readyFrontier
  rw [ensure_of _ hcompleted, ok_bind, topologicalOrder_eq, ok_bind]
  rfl

theorem readyFrontier_spec {completed : Finset String} (hcompleted : ∀ nodeId ∈ completed, nodeId ∈ identifiers dag.nodes) :
    ∃ result, dag.readyFrontier completed = .ok result ∧ (identifiers result).Sublist dag.order ∧
      ∀ node, node ∈ result ↔ node ∈ dag.nodes ∧ node.nodeId ∉ completed ∧
        ∀ dependency ∈ node.dependsOn, dependency ∈ completed := by
  obtain ⟨hids, hmem⟩ := dag.ordered_nodes fun _ => true
  rw [List.filter_true] at hids hmem
  refine ⟨_, dag.readyFrontier_eq hcompleted, ?_, fun node => ?_⟩
  · conv_rhs => rw [← hids]
    exact List.filter_sublist.map _
  · rw [List.mem_filter, hmem, decide_eq_true_eq]
    simp

end ProjectDag

/-- The four operations meet their specifications: construction refuses exactly blank names,
repeated identifiers, unknown dependencies and cycles; the order lists every node once,
dependencies first; a change affects exactly what depends on it; and the ready nodes are the
open ones whose dependencies are all completed, of which there is one while a node is open. -/
theorem project_dag_correct :
    (∀ name nodes, (∃ dag, projectDag name nodes = .ok dag) ↔
      ¬ Blank name ∧ (identifiers nodes).Nodup ∧
        (∀ node ∈ nodes, ∀ dependency ∈ node.dependsOn, dependency ∈ identifiers nodes) ∧
        Acyclic fun a b => DependsOn nodes b a) ∧
    ∀ dag : ProjectDag, ∃ order, topologicalOrder dag.nodes = .ok order ∧ order.Perm (identifiers dag.nodes) ∧
      TopologicallyOrdered (fun a b => DependsOn dag.nodes b a) order ∧
      (∀ changed : Finset String, (∀ nodeId ∈ changed, nodeId ∈ identifiers dag.nodes) →
        ∃ result, dag.affectedBy changed = .ok result ∧ (identifiers result).Sublist order ∧
          ∀ node, node ∈ result ↔ node ∈ dag.nodes ∧ ∃ c ∈ changed, ReflTransGen (DependsOn dag.nodes) node.nodeId c) ∧
      ∀ completed : Finset String, (∀ nodeId ∈ completed, nodeId ∈ identifiers dag.nodes) →
        ∃ result, dag.readyFrontier completed = .ok result ∧ (identifiers result).Sublist order ∧
          (∀ node, node ∈ result ↔ node ∈ dag.nodes ∧ node.nodeId ∉ completed ∧
            ∀ dependency ∈ node.dependsOn, dependency ∈ completed) ∧
          ((∃ node ∈ dag.nodes, node.nodeId ∉ completed) → result ≠ []) := by
  refine ⟨fun name nodes => projectDag_returns, fun dag => ⟨dag.order, dag.topologicalOrder_eq, dag.order_perm,
    dag.order_sorted, fun changed hchanged => dag.affectedBy_spec hchanged, fun completed hcompleted => ?_⟩⟩
  obtain ⟨result, hresult, hsublist, hmem⟩ := dag.readyFrontier_spec hcompleted
  refine ⟨result, hresult, hsublist, hmem, fun hopen hnone => ?_⟩
  obtain ⟨node, hready⟩ := dag.exists_ready hopen
  have hin := (hmem node).mpr hready
  rw [hnone] at hin
  cases hin

/-! A chain of three nodes -/

def chainTop : ProjectNode := ⟨"top", "Top.lean", ["middle"], by decide, by decide, by decide, by decide⟩
def chainMiddle : ProjectNode := ⟨"middle", "Middle.lean", ["base"], by decide, by decide, by decide, by decide⟩
def chainBase : ProjectNode := ⟨"base", "Base.lean", [], by decide, by decide, by decide, List.nodup_nil⟩

def chainNodes : List ProjectNode := [chainTop, chainMiddle, chainBase]

def chainDag : ProjectDag where
  name := "chain"
  nodes := chainNodes
  named := by decide
  nodes_unique := by decide
  dependencies_known := by decide
  sortable := by decide +kernel

theorem chain_dependsOn : DependsOn chainNodes "top" "middle" := ⟨chainTop, List.mem_cons_self, rfl, List.mem_cons_self⟩

/-- A change in the middle affects the top, and once the base is completed the middle alone is ready. -/
theorem project_dag_correct_chain : ∃ affected ready, chainDag.affectedBy {"middle"} = .ok affected ∧
    chainTop ∈ affected ∧ chainDag.readyFrontier {"base"} = .ok ready ∧ ∀ node, node ∈ ready ↔ node = chainMiddle := by
  obtain ⟨order, -, -, -, haffected, hready⟩ := project_dag_correct.2 chainDag
  obtain ⟨affected, hresult, -, hmem⟩ := haffected {"middle"} (by decide)
  obtain ⟨ready, hfrontier, -, hopen, -⟩ := hready {"base"} (by decide)
  refine ⟨affected, ready, hresult, (hmem chainTop).mpr ⟨List.mem_cons_self, "middle", by decide, .single chain_dependsOn⟩,
    hfrontier, fun node => ?_⟩
  rw [hopen]
  constructor
  · rintro ⟨hnode, hnot, hdependencies⟩
    simp only [chainDag, chainNodes, List.mem_cons, List.not_mem_nil, or_false] at hnode
    rcases hnode with rfl | rfl | rfl
    · exact absurd (hdependencies "middle" (by decide)) (by decide)
    · rfl
    · exact absurd hnot (by decide)
  · rintro rfl
    exact ⟨by simp [chainDag, chainNodes], by decide, by decide⟩

/-- Two nodes of one identifier have no dependency at all, but they are refused. -/
theorem repeated_node_refused :
    ∃ nodes, (∀ node ∈ nodes, ∀ dependency ∈ node.dependsOn, dependency ∈ identifiers nodes) ∧
      (Acyclic fun a b => DependsOn nodes b a) ∧ ∀ name, ¬ ∃ dag, projectDag name nodes = .ok dag := by
  let first : ProjectNode := ⟨"a", "A.lean", [], by decide, by decide, by decide, by decide⟩
  let second : ProjectNode := ⟨"a", "B.lean", [], by decide, by decide, by decide, by decide⟩
  refine ⟨[first, second], by simp [first, second], ?_, ?_⟩
  · intro a h
    obtain ⟨b, -, node, hnode, -, hdependency⟩ := TransGen.tail'_iff.mp h
    simp only [List.mem_cons, List.not_mem_nil, or_false] at hnode
    rcases hnode with rfl | rfl <;> cases hdependency
  · intro name
    rw [projectDag_returns]
    rintro ⟨-, hunique, -⟩
    exact absurd hunique (by decide)

end Autolean.Benchmarks
