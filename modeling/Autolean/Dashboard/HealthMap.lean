import Autolean.Dashboard.Grid
import Autolean.Machine.Tallies

/-! The operational minimap: for each lane its cells and its event pressure, and the totals
over the lanes. An event counts once in every lane that shows a node it matches. -/
namespace Autolean.Dashboard
open Machine.Tallies

structure EventView where
  sequence : Int
  eventType : String
  entityId : String
  taskId : Option String
  deriving DecidableEq

/-- The state of a cell; a cell without events has none. -/
inductive DagEventState where
  | attempt
  | gap
  | contractChange
  | verification
  | other
  deriving DecidableEq

def eventStateForType (eventType : String) : DagEventState :=
  if eventType = "gap.reported" then .gap
  else if eventType = "contract_change.requested" then .contractChange
  else if eventType = "proof.submitted" then .attempt
  else if "verification.".toList.isPrefixOf eventType.toList then .verification
  else .other

def eventMatchesNode (event : EventView) (node : GraphNode) : Bool :=
  event.taskId = some node.taskId ∨ event.entityId = node.id ∨ event.entityId = node.sourceNodeId

/-- The matching events by sequence, the latest first. -/
def relevantEventsForNodes (events : List EventView) (nodes : List GraphNode) : List EventView :=
  let bySequence := (events.filter fun event => nodes.any (eventMatchesNode event)).foldl (putBy (·.sequence)) []
  bySequence.insertionSort fun left right => right.sequence ≤ left.sequence

def countEvents (events : List EventView) (eventType : String) : Nat := events.countP fun event => event.eventType = eventType

def dominantEventState (events : List EventView) : Option DagEventState :=
  if events.any fun event => event.eventType = "gap.reported" then some .gap
  else if events.any fun event => event.eventType = "contract_change.requested" then some .contractChange
  else if events.any fun event => event.eventType = "proof.submitted" then some .attempt
  else if events.any fun event => "verification.".toList.isPrefixOf event.eventType.toList then some .verification
  else events.head?.map fun event => eventStateForType event.eventType

structure DagHealthCell where
  attempts : Nat
  dependencies : Nat
  dependents : Nat
  eventState : Option DagEventState
  gaps : Nat
  graph : GraphKind
  healthLabel : String
  id : String
  kind : String
  label : String
  revision : Nat
  taskId : String
  tone : HealthTone
  deriving DecidableEq

structure DagHealthColumn where
  attempts : Nat
  cells : List DagHealthCell
  externalDependencies : Nat
  gaps : Nat
  graph : GraphKind
  label : String
  nodeCount : Nat
  omitted : Int
  shortLabel : String
  tone : HealthTone
  deriving DecidableEq

inductive GraphScope where
  | all
  | only (graph : GraphKind)
  deriving DecidableEq

structure DagHealthMap where
  columns : List DagHealthColumn
  scope : GraphScope
  totalAttempts : Nat
  totalEdges : Nat
  totalGaps : Nat
  totalNodes : Nat
  unresolvedDependencies : Nat
  deriving DecidableEq

/-- A `RangeError` with its message. -/
structure RangeError where
  message : String
  deriving DecidableEq

def visibleGraphs : GraphScope → List GraphKind
  | .all => graphOrder
  | .only graph => [graph]

def visibleNodes (nodes : List GraphNode) (scope : GraphScope) : List GraphNode :=
  nodes.filter fun node => node.graph ∈ visibleGraphs scope

/-- The edges between visible nodes, the dependencies on other nodes, and the dependents of each node. -/
structure EdgeCounts where
  totalEdges : Nat
  unresolvedDependencies : Nat
  dependents : String → Nat

/-- One dependency of a visible node. -/
def EdgeCounts.add (visible : List GraphNode) (counts : EdgeCounts) (dependency : String) : EdgeCounts :=
  if dependency ∈ visible.map (·.id) then
    { counts with
      totalEdges := counts.totalEdges + 1
      dependents := Function.update counts.dependents dependency (counts.dependents dependency + 1) }
  else { counts with unresolvedDependencies := counts.unresolvedDependencies + 1 }

def edgeCounts (visible : List GraphNode) : EdgeCounts :=
  visible.foldl (fun counts node => node.dependencies.foldl (EdgeCounts.add visible) counts) ⟨0, 0, fun _ => 0⟩

def healthCell (rt : Runtime) (events : List EventView) (dependents : String → Nat) (graph : GraphKind) (node : GraphNode) :
    DagHealthCell :=
  let nodeEvents := relevantEventsForNodes events [node]
  let health := healthForStatus rt node.status
  { attempts := countEvents nodeEvents "proof.submitted"
    dependencies := node.dependencies.length
    dependents := dependents node.id
    eventState := dominantEventState nodeEvents
    gaps := countEvents nodeEvents "gap.reported"
    graph
    healthLabel := health.label
    id := node.id
    kind := node.kind
    label := node.label
    revision := node.revision
    taskId := node.taskId
    tone := health.tone }

def graphNodes (visible : List GraphNode) (graph : GraphKind) : List GraphNode := visible.filter fun node => node.graph = graph

def healthColumn (rt : Runtime) (visible : List GraphNode) (events : List EventView) (dependents : String → Nat) (cellLimit : ℚ)
    (graph : GraphKind) : DagHealthColumn :=
  let nodes := graphNodes visible graph
  let graphEvents := relevantEventsForNodes events nodes
  { attempts := countEvents graphEvents "proof.submitted"
    cells := ((topologicalOrder rt nodes).take cellLimit.num.toNat).map (healthCell rt events dependents graph)
    externalDependencies := (nodes.map fun node => node.dependencies.countP fun dependency => dependency ∉ visible.map (·.id)).sum
    gaps := countEvents graphEvents "gap.reported"
    graph
    label := (graphPresentation graph).1
    nodeCount := nodes.length
    omitted := max 0 (nodes.length - cellLimit.num)
    shortLabel := (graphPresentation graph).2
    tone := strongestTone rt nodes }

/-- What the guard lets through: a positive integer. -/
def IsCellLimit (cellLimit : ℚ) : Prop := cellLimit.isInt = true ∧ 1 ≤ cellLimit

instance instDecidableIsCellLimit (cellLimit : ℚ) : Decidable (IsCellLimit cellLimit) := inferInstanceAs (Decidable (_ ∧ _))

def buildDagHealthMap (rt : Runtime) (nodes : List GraphNode) (events : List EventView) (scope : GraphScope) (cellLimit : ℚ) :
    Except RangeError DagHealthMap :=
  if IsCellLimit cellLimit then
    let visible := visibleNodes nodes scope
    let counts := edgeCounts visible
    let columns := (visibleGraphs scope).map (healthColumn rt visible events counts.dependents cellLimit)
    .ok {
      columns
      scope
      totalAttempts := (columns.map (·.attempts)).sum
      totalEdges := counts.totalEdges
      totalGaps := (columns.map (·.gaps)).sum
      totalNodes := visible.length
      unresolvedDependencies := counts.unresolvedDependencies }
  else .error ⟨"cellLimit must be a positive integer"⟩

/-! Dependency entries -/

variable {rt : Runtime} {nodes visible : List GraphNode} {events : List EventView}

theorem EdgeCounts.add_sum (counts : EdgeCounts) (dependency : String) :
    (counts.add visible dependency).totalEdges + (counts.add visible dependency).unresolvedDependencies =
      counts.totalEdges + counts.unresolvedDependencies + 1 := by
  unfold EdgeCounts.add
  split
  · exact Nat.add_right_comm ..
  · rfl

theorem EdgeCounts.foldl_add_sum (dependencies : List String) (counts : EdgeCounts) :
    (dependencies.foldl (EdgeCounts.add visible) counts).totalEdges +
        (dependencies.foldl (EdgeCounts.add visible) counts).unresolvedDependencies =
      counts.totalEdges + counts.unresolvedDependencies + dependencies.length := by
  induction dependencies generalizing counts with
  | nil => rfl
  | cons dependency rest ih =>
    rw [List.foldl_cons, ih, EdgeCounts.add_sum, List.length_cons]
    omega

/-- Every dependency entry of a visible node is an edge or unresolved. -/
theorem edgeCounts_sum (visible : List GraphNode) :
    (edgeCounts visible).totalEdges + (edgeCounts visible).unresolvedDependencies =
      (visible.map fun node => node.dependencies.length).sum := by
  have hfold : ∀ (l : List GraphNode) (counts : EdgeCounts),
      (l.foldl (fun counts node => node.dependencies.foldl (EdgeCounts.add visible) counts) counts).totalEdges +
          (l.foldl (fun counts node => node.dependencies.foldl (EdgeCounts.add visible) counts) counts).unresolvedDependencies =
        counts.totalEdges + counts.unresolvedDependencies + (l.map fun node => node.dependencies.length).sum := by
    intro l
    induction l with
    | nil => intro counts; rfl
    | cons node rest ih =>
      intro counts
      rw [List.foldl_cons, ih, EdgeCounts.foldl_add_sum, List.map_cons, List.sum_cons]
      omega
  rw [edgeCounts, hfold]
  exact Nat.zero_add _

/-! Cells -/

/-- The shown cells and the omitted ones are the nodes of the lane. -/
theorem healthColumn_cells (hunique : (visible.map (·.id)).Nodup) (dependents : String → Nat) {cellLimit : ℚ}
    (hlimit : 1 ≤ cellLimit) (graph : GraphKind) :
    let column := healthColumn rt visible events dependents cellLimit graph
    (column.cells.length : Int) + column.omitted = column.nodeCount := by
  have hnodes : ((graphNodes visible graph).map (·.id)).Nodup := hunique.sublist (List.filter_sublist.map _)
  have hnum : 0 ≤ cellLimit.num := Rat.num_nonneg.mpr (zero_le_one.trans hlimit)
  simp only [healthColumn, List.length_map, List.length_take, (topologicalOrder_perm hnodes).length_eq]
  omega

/-! Event counts -/

/-- The events of the type that match one of the nodes. -/
def relevantCount (events : List EventView) (nodes : List GraphNode) (eventType : String) : Nat :=
  events.countP fun event => event.eventType = eventType ∧ ∃ node ∈ nodes, eventMatchesNode event node = true

/-- With distinct sequences the table of events loses none of them. -/
theorem countEvents_relevant (hdistinct : (events.map (·.sequence)).Nodup) (nodes : List GraphNode) (eventType : String) :
    countEvents (relevantEventsForNodes events nodes) eventType = relevantCount events nodes eventType := by
  have hkept : ((events.filter fun event => nodes.any (eventMatchesNode event)).map (·.sequence)).Nodup :=
    hdistinct.sublist (List.filter_sublist.map _)
  unfold countEvents relevantEventsForNodes relevantCount
  rw [(List.perm_insertionSort _ _).countP_eq, foldl_putBy (by simpa using hkept), List.nil_append, List.countP_filter]
  apply List.countP_congr
  intro event _
  simp

/-- No event of the type matches visible nodes of two lanes. -/
def OneLane (nodes : List GraphNode) (events : List EventView) (scope : GraphScope) (eventType : String) : Prop :=
  ∀ event ∈ events, event.eventType = eventType → ∀ a ∈ visibleNodes nodes scope, ∀ b ∈ visibleNodes nodes scope,
    eventMatchesNode event a = true → eventMatchesNode event b = true → a.graph = b.graph

theorem visibleGraphs_nodup (scope : GraphScope) : (visibleGraphs scope).Nodup := by
  cases scope with
  | all => decide
  | only graph => exact List.nodup_singleton graph

/-- The lanes' counts sum up to the number of relevant events exactly when each of these events
has its nodes in one lane. -/
theorem sum_relevantCount_iff (scope : GraphScope) (eventType : String) :
    ((visibleGraphs scope).map fun graph => relevantCount events (graphNodes (visibleNodes nodes scope) graph) eventType).sum =
        relevantCount events (visibleNodes nodes scope) eventType ↔ OneLane nodes events scope eventType := by
  let r (graph : GraphKind) (event : EventView) : Bool := event.eventType = eventType ∧
    ∃ node ∈ graphNodes (visibleNodes nodes scope) graph, eventMatchesNode event node = true
  have hr {graph : GraphKind} {event : EventView} : r graph event = true ↔ event.eventType = eventType ∧
      ∃ node ∈ visibleNodes nodes scope, node.graph = graph ∧ eventMatchesNode event node = true := by
    simp [r, graphNodes, and_assoc]
  have hgraph {node : GraphNode} (hnode : node ∈ visibleNodes nodes scope) : node.graph ∈ visibleGraphs scope :=
    of_decide_eq_true (List.mem_filter.mp hnode).2
  have hwhole : relevantCount events (visibleNodes nodes scope) eventType =
      events.countP fun event => (visibleGraphs scope).any fun graph => r graph event := by
    apply List.countP_congr
    intro event _
    simp only [decide_eq_true_eq, List.any_eq_true, hr]
    constructor
    · rintro ⟨htype, node, hnode, hmatch⟩
      exact ⟨node.graph, hgraph hnode, htype, node, hnode, rfl, hmatch⟩
    · rintro ⟨_, -, htype, node, hnode, -, hmatch⟩
      exact ⟨htype, node, hnode, hmatch⟩
  rw [hwhole]
  refine (sum_countP_eq_iff (r := r) (visibleGraphs_nodup scope)).trans ⟨fun h => ?_, fun h => ?_⟩
  · intro event hevent htype a ha b hb hmatcha hmatchb
    exact h event hevent _ (hgraph ha) _ (hgraph hb) (hr.mpr ⟨htype, a, ha, rfl, hmatcha⟩) (hr.mpr ⟨htype, b, hb, rfl, hmatchb⟩)
  · intro event hevent c _ d _ hc hd
    obtain ⟨htype, a, ha, rfl, hmatcha⟩ := hr.mp hc
    obtain ⟨-, b, hb, rfl, hmatchb⟩ := hr.mp hd
    exact h event hevent htype a ha b hb hmatcha hmatchb

/-! The totals -/

theorem columns_sum (rt : Runtime) (visible : List GraphNode) (hdistinct : (events.map (·.sequence)).Nodup)
    (dependents : String → Nat) (cellLimit : ℚ)
    (graphs : List GraphKind) :
    let columns := graphs.map (healthColumn rt visible events dependents cellLimit)
    (columns.map (·.attempts)).sum =
        (graphs.map fun graph => relevantCount events (graphNodes visible graph) "proof.submitted").sum ∧
      (columns.map (·.gaps)).sum = (graphs.map fun graph =>
        relevantCount events (graphNodes visible graph) "gap.reported").sum := by
  simp only [List.map_map, Function.comp_def, healthColumn, countEvents_relevant hdistinct, and_self]

/-- Nodes with distinct ids. -/
structure NodeTable where
  nodes : List GraphNode
  unique : (nodes.map (·.id)).Nodup

/-- Events with distinct sequences. -/
structure EventTable where
  events : List EventView
  distinct : (events.map (·.sequence)).Nodup

/-- The totals count every relevant event and every dependency entry once, and every column
accounts for its nodes. -/
structure Accounts (nodes : List GraphNode) (events : List EventView) (scope : GraphScope) (map : DagHealthMap) : Prop where
  attempts : map.totalAttempts = relevantCount events (visibleNodes nodes scope) "proof.submitted"
  gaps : map.totalGaps = relevantCount events (visibleNodes nodes scope) "gap.reported"
  edges : map.totalEdges + map.unresolvedDependencies =
    ((visibleNodes nodes scope).map fun node => node.dependencies.length).sum
  cells : ∀ column ∈ map.columns, (column.cells.length : Int) + column.omitted = column.nodeCount

/-- The map that is built accounts for everything exactly when each attempt and each gap has
its visible nodes in one lane. -/
theorem accounts_iff (hunique : (nodes.map (·.id)).Nodup) (hdistinct : (events.map (·.sequence)).Nodup) {scope : GraphScope}
    {cellLimit : ℚ} {map : DagHealthMap} (h : buildDagHealthMap rt nodes events scope cellLimit = .ok map) :
    Accounts nodes events scope map ↔
      OneLane nodes events scope "proof.submitted" ∧ OneLane nodes events scope "gap.reported" := by
  unfold buildDagHealthMap at h
  split at h
  · next hlimit =>
    cases h
    have hvisible : ((visibleNodes nodes scope).map (·.id)).Nodup := hunique.sublist (List.filter_sublist.map _)
    obtain ⟨hattempts, hgaps⟩ := columns_sum rt (visibleNodes nodes scope) hdistinct
      (edgeCounts (visibleNodes nodes scope)).dependents cellLimit (visibleGraphs scope)
    rw [← sum_relevantCount_iff, ← sum_relevantCount_iff, ← hattempts, ← hgaps]
    constructor
    · exact fun haccounts => ⟨haccounts.attempts, haccounts.gaps⟩
    · rintro ⟨htotal, htotal'⟩
      constructor
      · exact htotal
      · exact htotal'
      · exact edgeCounts_sum _
      · intro column hcolumn
        obtain ⟨graph, -, rfl⟩ := List.mem_map.mp hcolumn
        exact healthColumn_cells hvisible _ hlimit.2 graph
  · cases h

theorem buildDagHealthMap_returns_iff {scope : GraphScope} {cellLimit : ℚ} :
    (∃ map, buildDagHealthMap rt nodes events scope cellLimit = .ok map) ↔ IsCellLimit cellLimit := by
  unfold buildDagHealthMap
  split
  · next hlimit => exact iff_of_true ⟨_, rfl⟩ hlimit
  · next hlimit =>
    refine iff_of_false ?_ hlimit
    rintro ⟨_, h⟩
    cases h

/-- The map is built for every positive integer limit, and its totals are those of the
visible nodes exactly when no attempt and no gap matches visible nodes of two lanes. -/
theorem buildDagHealthMap_accounts (rt : Runtime) (nodes : NodeTable) (events : EventTable) (scope : GraphScope) (cellLimit : ℚ) :
    ((∃ map, buildDagHealthMap rt nodes.nodes events.events scope cellLimit = .ok map) ↔ IsCellLimit cellLimit) ∧
      ((∀ map, buildDagHealthMap rt nodes.nodes events.events scope cellLimit = .ok map →
          Accounts nodes.nodes events.events scope map) ↔
        (IsCellLimit cellLimit → OneLane nodes.nodes events.events scope "proof.submitted" ∧
          OneLane nodes.nodes events.events scope "gap.reported")) := by
  refine ⟨buildDagHealthMap_returns_iff, fun h hlimit => ?_, fun h map hmap => ?_⟩
  · obtain ⟨map, hmap⟩ := buildDagHealthMap_returns_iff.mpr hlimit
    exact (accounts_iff nodes.unique events.distinct hmap).mp (h map hmap)
  · exact (accounts_iff nodes.unique events.distinct hmap).mpr (h (buildDagHealthMap_returns_iff.mp ⟨map, hmap⟩))

/-- A runtime for ASCII text. -/
def asciiRuntime : Runtime where
  normalized text := text.trimAscii.toString.toLower
  localeCompare a b := if a < b then -1 else if a = b then 0 else 1

def twoLaneNodes : List GraphNode :=
  [⟨"b:m:lemma", "lemma", "b", "lemma", .mathematical, "frozen", 0, "lemma", []⟩,
    ⟨"b:f:target", "target", "b", "target", .formal, "frozen", 0, "theorem", []⟩]

def submittedOnce : List EventView := [⟨2, "proof.submitted", "proof-1", some "b"⟩]

/-- One submission for a task with a node in two lanes counts as two attempts. -/
theorem attempt_counted_twice :
    (twoLaneNodes.map (·.id)).Nodup ∧ (submittedOnce.map (·.sequence)).Nodup ∧
      (buildDagHealthMap asciiRuntime twoLaneNodes submittedOnce .all 48).map (·.totalAttempts) = .ok 2 ∧
      relevantCount submittedOnce (visibleNodes twoLaneNodes .all) "proof.submitted" = 1 ∧
      ¬ ∀ map, buildDagHealthMap asciiRuntime twoLaneNodes submittedOnce .all 48 = .ok map →
        Accounts twoLaneNodes submittedOnce .all map := by
  have hunique : (twoLaneNodes.map (·.id)).Nodup := by decide +kernel
  have hdistinct : (submittedOnce.map (·.sequence)).Nodup := by decide +kernel
  have htotal : (buildDagHealthMap asciiRuntime twoLaneNodes submittedOnce .all 48).map (·.totalAttempts) = .ok 2 := by
    decide +kernel
  have hcount : relevantCount submittedOnce (visibleNodes twoLaneNodes .all) "proof.submitted" = 1 := by decide +kernel
  refine ⟨hunique, hdistinct, htotal, hcount, fun h => ?_⟩
  cases hmap : buildDagHealthMap asciiRuntime twoLaneNodes submittedOnce .all 48 with
  | error failure =>
    rw [hmap] at htotal
    cases htotal
  | ok map =>
    rw [hmap] at htotal
    have hattempts := (h map hmap).attempts
    rw [hcount] at hattempts
    cases htotal.symm.trans (congrArg Except.ok hattempts)

end Autolean.Dashboard
