import Autolean.Graphs.Canonical

/-! The nodes that the dashboard shows, their health, and the order in which a lane lays them out. -/
namespace Autolean.Dashboard
open Graphs

inductive GraphKind where
  | mathematical
  | formal
  | execution
  deriving DecidableEq

inductive HealthTone where
  | nominal
  | active
  | attention
  | critical
  | unknown
  deriving DecidableEq

inductive EdgeType where
  | solid
  | dashed
  deriving DecidableEq

structure HealthSignal where
  color : String
  edgeColor : String
  edgeType : EdgeType
  label : String
  pulse : Bool
  tone : HealthTone
  deriving DecidableEq

structure GraphNode where
  id : String
  sourceNodeId : String
  taskId : String
  label : String
  graph : GraphKind
  status : String
  revision : Nat
  kind : String
  dependencies : List String
  deriving DecidableEq

/-- What the language's runtime does with text: `trim().toLowerCase()` and `localeCompare`. -/
structure Runtime where
  normalized : String → String
  localeCompare : String → String → Int

def graphOrder : List GraphKind := [.mathematical, .formal, .execution]

/-- `graphPresentation`, the label and the short one. -/
def graphPresentation : GraphKind → String × String
  | .mathematical => ("Builder · Mathematical", "Builder")
  | .formal => ("Contract boundary · Formal", "Contract")
  | .execution => ("Prover · Execution", "Execution")

def tonePriority : HealthTone → Nat
  | .nominal => 0
  | .attention => 1
  | .active => 2
  | .unknown => 3
  | .critical => 4

def healthForStatus (rt : Runtime) (status : String) : HealthSignal :=
  let normalized := rt.normalized status
  if normalized ∈ ["blocked", "critical", "failed", "rejected", "expired", "stale"] then
    ⟨"#dc6156", "#e37a70", .dashed, "Critical", true, .critical⟩
  else if normalized ∈ ["running", "claimed", "active"] then
    ⟨"#46b8c8", "#67c9d5", .solid, "Active", true, .active⟩
  else if normalized ∈ ["attention", "queued", "candidate", "review", "pending"] then
    ⟨"#d7ae54", "#cbb36f", .dashed, "Attention", false, .attention⟩
  else if normalized ∈ ["nominal", "frozen", "verified", "accepted", "succeeded", "ready"] then
    ⟨"#4eb489", "#65b997", .solid, "Nominal", false, .nominal⟩
  else ⟨"#859096", "#6f7b80", .solid, "Unknown", false, .unknown⟩

def strongestTone (rt : Runtime) : List GraphNode → HealthTone
  | [] => .unknown
  | first :: rest => rest.foldl (fun strongest node =>
      let tone := (healthForStatus rt node.status).tone
      if tonePriority strongest < tonePriority tone then tone else strongest) (healthForStatus rt first.status).tone

/-! The order of a lane -/

/-- The dependencies of a node on nodes of the lane. -/
def knownDependencies (nodes : List GraphNode) (node : GraphNode) : List String :=
  node.dependencies.filter fun dependency => dependency ∈ nodes.map (·.id)

/-- `sort((left, right) => left.localeCompare(right))`. -/
def sortedIds (rt : Runtime) (ids : List String) : List String := ids.insertionSort fun a b => rt.localeCompare a b ≤ 0

/-- The ids that the loop over the queue emits. -/
def emittedIds (rt : Runtime) (nodes : List GraphNode) : List String :=
  let incoming := dependencyCount (·.id) (knownDependencies nodes) nodes
  let outgoing := dependentsOf (·.id) (knownDependencies nodes) nodes
  let queue := sortedIds rt ((nodes.map (·.id)).filter fun id => incoming id = 0)
  (Removal.run (sortedIds rt) outgoing nodes.length ⟨fun id => incoming id, queue, []⟩).ordered

def topologicalOrder (rt : Runtime) (nodes : List GraphNode) : List GraphNode :=
  let emitted := emittedIds rt nodes
  emitted.filterMap (nodeAt (·.id) nodes) ++
    (nodes.filter fun node => node.id ∉ emitted).insertionSort fun a b => rt.localeCompare a.id b.id ≤ 0

variable {rt : Runtime} {nodes : List GraphNode}

theorem sortedIds_perm (ids : List String) : (sortedIds rt ids).Perm ids := List.perm_insertionSort _ _

theorem knownDependencies_known : DependenciesKnown (·.id) (knownDependencies nodes) nodes := by
  intro node _ dependency hdependency
  exact of_decide_eq_true (List.mem_filter.mp hdependency).2

/-- What the loop over the queue emits. -/
theorem emittedIds_spec (rt : Runtime) (hunique : (nodes.map (·.id)).Nodup) :
    (emittedIds rt nodes).Nodup ∧ emittedIds rt nodes ⊆ nodes.map (·.id) ∧
      TopologicallyOrdered (fun a b => Depends (·.id) (knownDependencies nodes) nodes b a) (emittedIds rt nodes) ∧
      ∀ id ∈ nodes.map (·.id), id ∈ emittedIds rt nodes ↔
        ¬ BehindCycle (fun a b => Depends (·.id) (knownDependencies nodes) nodes b a) id := by
  obtain ⟨-, hnodup, hsubset, hsorted, hmem, -⟩ :=
    declared_removed_spec (sortedIds rt) (dependentsOf (·.id) (knownDependencies nodes) nodes) sortedIds_perm hunique
      knownDependencies_known (fun _ => .refl _) (sortedIds_perm _)
  exact ⟨hnodup, hsubset, hsorted, hmem⟩

/-- No node is lost and none is shown twice. -/
theorem topologicalOrder_perm (hunique : (nodes.map (·.id)).Nodup) : (topologicalOrder rt nodes).Perm nodes := by
  obtain ⟨hnodup, hsubset, -, -⟩ := emittedIds_spec rt hunique
  have hnodes : nodes.Nodup := .of_map _ hunique
  have hemitted : ∀ node, node ∈ (emittedIds rt nodes).filterMap (nodeAt (·.id) nodes) ↔
      node ∈ nodes ∧ node.id ∈ emittedIds rt nodes := by
    intro node
    simp only [List.mem_filterMap, nodeAt_eq_some hunique]
    constructor
    · rintro ⟨_, hid, hnode, rfl⟩
      exact ⟨hnode, hid⟩
    · exact fun h => ⟨node.id, h.2, h.1, rfl⟩
  have hfirst : ((emittedIds rt nodes).filterMap (nodeAt (·.id) nodes)).Nodup := by
    apply hnodup.filterMap
    intro a b node ha hb
    rw [← ((nodeAt_eq_some hunique).mp ha).2, ← ((nodeAt_eq_some hunique).mp hb).2]
  have hrest : (topologicalOrder rt nodes).Perm ((emittedIds rt nodes).filterMap (nodeAt (·.id) nodes) ++
      nodes.filter fun node => node.id ∉ emittedIds rt nodes) := (List.perm_insertionSort _ _).append_left _
  refine hrest.trans ((List.perm_ext_iff_of_nodup ?_ hnodes).mpr fun node => ?_)
  · refine List.nodup_append.mpr ⟨hfirst, hnodes.filter _, ?_⟩
    rintro node hnode _ hother rfl
    exact of_decide_eq_true (List.mem_filter.mp hother).2 ((hemitted node).mp hnode).2
  · rw [List.mem_append, hemitted, List.mem_filter, decide_eq_true_eq, ← and_or_left]
    exact and_iff_left (em _)

/-! The order against the graph -/

/-- The second id stands for a node that declares the first as a dependency. -/
def Precedes (nodes : List GraphNode) (a b : String) : Prop := Depends (·.id) (knownDependencies nodes) nodes b a

/-- The queue, the open counts and the emitted ids after some rounds of the loop. -/
def queueLoop (rt : Runtime) (nodes : List GraphNode) (rounds : Nat) : Removal String :=
  let incoming := dependencyCount (·.id) (knownDependencies nodes) nodes
  let outgoing := dependentsOf (·.id) (knownDependencies nodes) nodes
  let queue := sortedIds rt ((nodes.map (·.id)).filter fun id => incoming id = 0)
  Removal.run (sortedIds rt) outgoing rounds ⟨fun id => incoming id, queue, []⟩

/-- The loop ends: after as many rounds as there are nodes the queue is empty and stays so. -/
theorem queueLoop_ends (rt : Runtime) (hunique : (nodes.map (·.id)).Nodup) {rounds : Nat}
    (hrounds : nodes.length ≤ rounds) :
    (queueLoop rt nodes rounds).queue = [] ∧ (queueLoop rt nodes rounds).ordered = emittedIds rt nodes := by
  obtain ⟨hqueue, -⟩ :=
    declared_removed_spec (sortedIds rt) (dependentsOf (·.id) (knownDependencies nodes) nodes) sortedIds_perm hunique
      knownDependencies_known (fun _ => .refl _) (sortedIds_perm _)
  have hsame : queueLoop rt nodes rounds = queueLoop rt nodes nodes.length := Removal.run_done hqueue hrounds
  rw [hsame]
  exact ⟨hqueue, rfl⟩

theorem topologicalOrder_ids (rt : Runtime) (hunique : (nodes.map (·.id)).Nodup) :
    ∃ rest, (topologicalOrder rt nodes).map (·.id) = emittedIds rt nodes ++ rest := by
  obtain ⟨-, hsubset, -, -⟩ := emittedIds_spec rt hunique
  have hemitted : ∀ ids ⊆ nodes.map (·.id), (ids.filterMap (nodeAt (·.id) nodes)).map (·.id) = ids := by
    intro ids hids
    induction ids with
    | nil => rfl
    | cons id ids ih =>
      rw [List.cons_subset] at hids
      obtain ⟨node, hnode, hid⟩ := List.mem_map.mp hids.1
      rw [List.filterMap_cons, (nodeAt_eq_some hunique).mpr ⟨hnode, hid⟩]
      exact congrArg₂ List.cons hid (ih hids.2)
  rw [topologicalOrder, List.map_append, hemitted _ hsubset]
  exact ⟨_, rfl⟩

/-- A node that is not behind a cycle stands after its known dependencies. -/
theorem topologicalOrder_sorted (hunique : (nodes.map (·.id)).Nodup) {front back : List GraphNode} {node : GraphNode}
    (hsplit : topologicalOrder rt nodes = front ++ node :: back) (hfree : ¬ BehindCycle (Precedes nodes) node.id)
    {dependency : String} (hdependency : dependency ∈ node.dependencies) (hknown : dependency ∈ nodes.map (·.id)) :
    dependency ∈ front.map (·.id) := by
  have hperm : (topologicalOrder rt nodes).Perm nodes := topologicalOrder_perm hunique
  obtain ⟨-, -, hsorted, hmem⟩ := emittedIds_spec rt hunique
  have hnode : node ∈ nodes := hperm.subset (hsplit ▸ List.mem_append_right _ List.mem_cons_self)
  have hemitted : node.id ∈ emittedIds rt nodes := (hmem _ (List.mem_map_of_mem hnode)).mpr hfree
  obtain ⟨rest, hrest⟩ := topologicalOrder_ids rt hunique
  have hnodup : (emittedIds rt nodes ++ rest).Nodup := hrest ▸ (hperm.map _).nodup_iff.mpr hunique
  have hnot : node.id ∉ rest := List.disjoint_of_nodup_append hnodup hemitted
  rw [hsplit, List.map_append, List.map_cons] at hrest
  have hedge : Precedes nodes dependency node.id :=
    ⟨node, hnode, rfl, List.mem_filter.mpr ⟨hdependency, decide_eq_true hknown⟩⟩
  rcases List.append_eq_append_iff.mp hrest with ⟨middle, hfront, hcons⟩ | ⟨middle, -, hback⟩
  · cases middle with
    | nil => exact absurd ((List.nil_append rest).symm.trans hcons.symm ▸ List.mem_cons_self) hnot
    | cons head middle =>
      obtain ⟨rfl, -⟩ := List.cons.inj hcons
      exact hsorted _ _ _ hfront dependency hedge
  · exact absurd (hback ▸ List.mem_append_right _ List.mem_cons_self) hnot

/-! The order against the order of the input -/

/-- The comparison is a total order on the ids of the nodes. -/
def ComparesIds (rt : Runtime) (nodes : List GraphNode) : Prop :=
  OrdersMembers (fun a b => rt.localeCompare a b ≤ 0) (nodes.map (·.id))

variable {nodes' : List GraphNode}

theorem sortedIds_canonical (hcompare : ComparesIds rt nodes) : Canonical (sortedIds rt) (nodes.map (·.id)) :=
  fun _ _ hperm hsubset => (hcompare.subset hsubset).insertionSort_eq hperm

theorem knownDependencies_perm (hperm : nodes.Perm nodes') : knownDependencies nodes = knownDependencies nodes' := by
  funext node
  apply List.filter_congr
  intro dependency _
  exact decide_eq_decide.mpr (hperm.map (·.id)).mem_iff

theorem emittedIds_eq (hunique : (nodes.map (·.id)).Nodup) (hcompare : ComparesIds rt nodes)
    (hperm : nodes.Perm nodes') : emittedIds rt nodes = emittedIds rt nodes' := by
  have hcanonical := sortedIds_canonical hcompare
  have hqueue : ∀ p : String → Bool,
      sortedIds rt ((nodes.map (·.id)).filter p) = sortedIds rt ((nodes'.map (·.id)).filter p) :=
    fun p => hcanonical _ _ ((hperm.map _).filter p) (List.filter_subset_self _)
  have hclosed : ∀ id ∈ nodes.map (·.id), dependentsOf (·.id) (knownDependencies nodes) nodes id ⊆ nodes.map (·.id) :=
    fun _ _ _ hdependent => (mem_dependentsOf.mp hdependent).known
  unfold emittedIds
  simp only [← knownDependencies_perm hperm, ← dependencyCount_perm hperm hunique, ← hqueue, ← hperm.length_eq]
  congr 1
  apply Removal.run_perm sortedIds_perm hcanonical (fun id _ => dependentsOf_perm hperm id) hclosed
  exact fun id hid => (List.mem_filter.mp ((sortedIds_perm _).subset hid)).1

/-- The lane's order is a property of the set of its nodes. -/
theorem topologicalOrder_eq (hunique : (nodes.map (·.id)).Nodup) (hcompare : ComparesIds rt nodes)
    (hperm : nodes.Perm nodes') : topologicalOrder rt nodes = topologicalOrder rt nodes' := by
  unfold topologicalOrder
  rw [emittedIds_eq hunique hcompare hperm, nodeAt_perm hperm hunique]
  refine congrArg (_ ++ ·) ?_
  exact ((hcompare.of_map hunique).subset (List.filter_subset_self _)).insertionSort_eq (hperm.filter _)

theorem topologicalOrder_spec (rt : Runtime) (hunique : (nodes.map (·.id)).Nodup) :
    (topologicalOrder rt nodes).Perm nodes ∧
      (∀ rounds, nodes.length ≤ rounds → (queueLoop rt nodes rounds).queue = [] ∧
        (queueLoop rt nodes rounds).ordered = emittedIds rt nodes) ∧
      (∀ front node back, topologicalOrder rt nodes = front ++ node :: back → ¬ BehindCycle (Precedes nodes) node.id →
        ∀ dependency ∈ node.dependencies, dependency ∈ nodes.map (·.id) → dependency ∈ front.map (·.id)) ∧
      (ComparesIds rt nodes → ∀ nodes', nodes.Perm nodes' →
        topologicalOrder rt nodes' = topologicalOrder rt nodes) := by
  refine ⟨topologicalOrder_perm hunique, fun rounds => queueLoop_ends rt hunique, ?_, ?_⟩
  · intro front node back hsplit hfree dependency
    exact topologicalOrder_sorted hunique hsplit hfree
  · intro hcompare nodes' hperm
    exact (topologicalOrder_eq hunique hcompare hperm).symm

/-! A lane with a repeated dependency, an unknown one and a cycle -/

def codeUnitRuntime : Runtime := ⟨id, fun a b => if a < b then -1 else if a = b then 0 else 1⟩

def laneNode (id : String) (dependencies : List String) : GraphNode :=
  ⟨id, id, id, id, .formal, "ready", 1, "task", dependencies⟩

def sampleLane : List GraphNode :=
  [laneNode "c" ["a", "a", "x"], laneNode "d" ["e"], laneNode "a" [], laneNode "e" ["d"]]

theorem codeUnitRuntime_compares (nodes : List GraphNode) : ComparesIds codeUnitRuntime nodes := by
  have hle : ∀ a b, codeUnitRuntime.localeCompare a b ≤ 0 ↔ a ≤ b := by
    intro a b
    simp only [codeUnitRuntime]
    split_ifs with hlt heq
    · simp [hlt.le]
    · simp [heq]
    · simp [lt_of_le_of_ne (not_lt.mp hlt) (Ne.symm heq)]
  constructor
  · simp only [hle]
    exact fun a _ b _ => le_antisymm
  · simp only [hle]
    exact fun a _ b _ c _ => le_trans
  · simp only [hle]
    exact fun a _ b _ => le_total a b

theorem sampleLane_order :
    (topologicalOrder codeUnitRuntime sampleLane).Perm sampleLane ∧
      topologicalOrder codeUnitRuntime sampleLane.reverse = topologicalOrder codeUnitRuntime sampleLane := by
  have hunique : (sampleLane.map (·.id)).Nodup := by decide
  obtain ⟨hperm, -, -, hsame⟩ := topologicalOrder_spec codeUnitRuntime hunique
  exact ⟨hperm, hsame (codeUnitRuntime_compares _) _ (List.reverse_perm _).symm⟩

end Autolean.Dashboard
