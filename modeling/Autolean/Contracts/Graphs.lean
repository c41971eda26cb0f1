import Autolean.Contracts.Values
import Autolean.Machine.Raising
import Autolean.Graphs.Removal

/-! Validation of the task graphs: identifiers are unique, edges join declared nodes, and
the edges that must not form a cycle do not. -/
namespace Autolean.Contracts
open Machine Machine.Raising Graphs Relation

inductive MathematicalEdgeKind where
  | uses | defines | specializes | equivalentTo | motivates
  deriving DecidableEq

/-- What `_validate_graph` reads of an edge. -/
structure EdgeEnds where
  edgeId : StableIdentifier
  source : StableIdentifier
  target : StableIdentifier

structure MathematicalEdge extends EdgeEnds where
  kind : MathematicalEdgeKind

/-- A `ValueError` with its message. -/
abbrev GraphCheck (α : Type) := Except String α

/-- The adjacency lists and the indegrees, as the loop over the edges fills them. -/
structure Degrees where
  adjacency : StableIdentifier → List StableIdentifier
  indegree : StableIdentifier → Int

def Degrees.none : Degrees := ⟨fun _ => [], fun _ => 0⟩

def Degrees.add (d : Degrees) (edge : EdgeEnds) : Degrees where
  adjacency := Function.update d.adjacency edge.source (d.adjacency edge.source ++ [edge.target])
  indegree := Function.update d.indegree edge.target (d.indegree edge.target + 1)

/-- One turn of the loop over the edges. -/
def addEdge (known : List StableIdentifier) (d : Degrees) (edge : EdgeEnds) : GraphCheck Degrees := do
  ensure (edge.source ∈ known ∧ edge.target ∈ known) "every graph edge endpoint must reference a graph node"
  ensure (edge.source ≠ edge.target) "self-referential graph edges are not allowed"
  pure (d.add edge)

/-- `_validate_graph`. The queue is empty after one step for each node (`validateGraph_exhausted`). -/
def validateGraph (nodeIds : List StableIdentifier) (edges : List EdgeEnds) (allowCycles : Bool) : GraphCheck Unit := do
  ensure nodeIds.Nodup "graph node identifiers must be unique"
  ensure (edges.map (·.edgeId)).Nodup "graph edge identifiers must be unique"
  let d ← edges.foldlM (addEdge nodeIds) .none
  if allowCycles then pure ()
  else
    let queue := nodeIds.filter fun nodeId => d.indegree nodeId = 0
    let final := Removal.run id d.adjacency nodeIds.length ⟨d.indegree, queue, []⟩
    ensure (final.ordered.length = nodeIds.length) "dependency graph must be acyclic"

/-- `edge.kind not in {EQUIVALENT_TO, MOTIVATES}`. -/
def MathematicalEdge.isPrerequisite (edge : MathematicalEdge) : Bool :=
  edge.kind != .equivalentTo && edge.kind != .motivates

/-- `MathematicalGraphV1.validate_structure`; of the nodes it reads the identifiers. -/
def validateStructure (nodeIds : List StableIdentifier) (edges : List MathematicalEdge) : GraphCheck Unit := do
  validateGraph nodeIds (edges.map (·.toEdgeEnds)) true
  validateGraph nodeIds ((edges.filter (·.isPrerequisite)).map (·.toEdgeEnds)) false

/-- The ends of the edges. -/
def joins (edges : List EdgeEnds) : List (StableIdentifier × StableIdentifier) := edges.map fun edge => (edge.source, edge.target)

/-- The specification of the check. -/
structure WellFormedGraph (nodeIds : List StableIdentifier) (edges : List EdgeEnds) : Prop where
  nodes_distinct : nodeIds.Nodup
  edges_distinct : (edges.map (·.edgeId)).Nodup
  endpoints_declared : ∀ edge ∈ edges, edge.source ∈ nodeIds ∧ edge.target ∈ nodeIds
  no_self_loop : ∀ edge ∈ edges, edge.source ≠ edge.target

/-! The loop over the edges -/

theorem addEdge_eq_ok {known : List StableIdentifier} {d d' : Degrees} {edge : EdgeEnds} :
    addEdge known d edge = .ok d' ↔ (edge.source ∈ known ∧ edge.target ∈ known) ∧ edge.source ≠ edge.target ∧
      d' = d.add edge := by
  unfold addEdge
  rw [ensure_bind_eq_ok, ensure_bind_eq_ok]
  simp only [pure, Except.pure, Except.ok.injEq, eq_comm]

theorem addEdges_eq_ok {known : List StableIdentifier} {d d' : Degrees} {edges : List EdgeEnds} :
    edges.foldlM (addEdge known) d = .ok d' ↔
      (∀ edge ∈ edges, edge.source ∈ known ∧ edge.target ∈ known) ∧ (∀ edge ∈ edges, edge.source ≠ edge.target) ∧
        d' = edges.foldl Degrees.add d := by
  induction edges generalizing d with
  | nil => simp [pure, Except.pure, eq_comm]
  | cons edge rest ih =>
    simp only [List.foldlM_cons, bind_eq_ok, addEdge_eq_ok, ih, List.forall_mem_cons, List.foldl_cons]
    constructor
    · rintro ⟨_, ⟨hknown, hloop, rfl⟩, hknowns, hloops, rfl⟩
      exact ⟨⟨hknown, hknowns⟩, ⟨hloop, hloops⟩, rfl⟩
    · rintro ⟨⟨hknown, hknowns⟩, ⟨hloop, hloops⟩, rfl⟩
      exact ⟨_, ⟨hknown, hloop, rfl⟩, hknowns, hloops, rfl⟩

theorem Degrees.foldl_adjacency (edges : List EdgeEnds) (d : Degrees) (a : StableIdentifier) :
    (edges.foldl Degrees.add d).adjacency a = d.adjacency a ++ targetsOf (joins edges) a := by
  induction edges generalizing d with
  | nil => simp [joins, targetsOf]
  | cons edge rest ih =>
    rw [List.foldl_cons, ih]
    by_cases h : edge.source = a
    · subst h
      simp [Degrees.add, joins, targetsOf]
    · simp [Degrees.add, joins, targetsOf, h, Function.update_of_ne (Ne.symm h)]

theorem Degrees.foldl_indegree (edges : List EdgeEnds) (d : Degrees) (a : StableIdentifier) :
    (edges.foldl Degrees.add d).indegree a = d.indegree a + indegreeOf (joins edges) a := by
  induction edges generalizing d with
  | nil => simp [joins, indegreeOf]
  | cons edge rest ih =>
    rw [List.foldl_cons, ih]
    by_cases h : edge.target = a
    · subst h
      simp [Degrees.add, joins, indegreeOf]
      omega
    · simp [Degrees.add, joins, indegreeOf, h, Function.update_of_ne (Ne.symm h)]

theorem addEdges_adjacency (edges : List EdgeEnds) :
    (edges.foldl Degrees.add .none).adjacency = targetsOf (joins edges) := by
  funext a
  exact Degrees.foldl_adjacency edges .none a

theorem addEdges_indegree (edges : List EdgeEnds) :
    (edges.foldl Degrees.add .none).indegree = fun a => (indegreeOf (joins edges) a : Int) := by
  funext a
  rw [Degrees.foldl_indegree]
  simp [Degrees.none]

/-! The specification is met -/

section
variable {nodeIds : List StableIdentifier} {edges : List EdgeEnds}

/-- An edge leads from one node to the other. -/
def Leads (edges : List EdgeEnds) (a b : StableIdentifier) : Prop := ∃ edge ∈ edges, edge.source = a ∧ edge.target = b

theorem mem_joins {a b : StableIdentifier} : (a, b) ∈ joins edges ↔ Leads edges a b := by
  simp [joins, Leads]

theorem WellFormedGraph.known (h : WellFormedGraph nodeIds edges) :
    ∀ edge ∈ joins edges, edge.1 ∈ nodeIds ∧ edge.2 ∈ nodeIds := by
  rintro ⟨a, b⟩ hedge
  obtain ⟨edge, he, rfl, rfl⟩ := mem_joins.mp hedge
  exact h.endpoints_declared edge he

/-- What the loop over the queue leaves behind. -/
def finalRemoval (nodeIds : List StableIdentifier) (edges : List EdgeEnds) : Removal StableIdentifier :=
  Removal.run id (targetsOf (joins edges)) nodeIds.length
    ⟨fun a => indegreeOf (joins edges) a, nodeIds.filter fun a => indegreeOf (joins edges) a = 0, []⟩

/-- The loop over the queue has ended. -/
theorem validateGraph_exhausted (h : WellFormedGraph nodeIds edges) : (finalRemoval nodeIds edges).queue = [] := by
  have hend := removed_spec id (targetsOf (joins edges)) (fun _ => .refl _) h.known
    (fun _ _ => .refl _) h.nodes_distinct (.refl _)
  exact hend.1

theorem finalRemoval_length (h : WellFormedGraph nodeIds edges) :
    (finalRemoval nodeIds edges).ordered.length = nodeIds.length ↔ Acyclic (Leads edges) := by
  have hend := removed_spec id (targetsOf (joins edges)) (fun _ => .refl _) h.known
    (fun _ _ => .refl _) h.nodes_distinct (.refl _)
  have hleads : (fun a b => (a, b) ∈ joins edges) = Leads edges := by
    funext a b
    exact propext mem_joins
  rw [← hleads]
  exact hend.2.2.2.2.2

theorem validateGraph_eq_ok {allowCycles : Bool} : validateGraph nodeIds edges allowCycles = .ok () ↔
    WellFormedGraph nodeIds edges ∧ (allowCycles = false → Acyclic (Leads edges)) := by
  have hlast : ∀ d, d = edges.foldl Degrees.add .none →
      Removal.run id d.adjacency nodeIds.length ⟨d.indegree, nodeIds.filter fun a => d.indegree a = 0, []⟩ =
        finalRemoval nodeIds edges := by
    rintro _ rfl
    simp only [addEdges_adjacency, addEdges_indegree, Nat.cast_eq_zero, finalRemoval]
  unfold validateGraph
  rw [ensure_bind_eq_ok, ensure_bind_eq_ok, bind_eq_ok]
  simp only [addEdges_eq_ok]
  constructor
  · rintro ⟨hnodes, hedges, d, ⟨hknown, hself, hd⟩, hcycles⟩
    have h : WellFormedGraph nodeIds edges := ⟨hnodes, hedges, hknown, hself⟩
    refine ⟨h, ?_⟩
    rintro rfl
    rw [if_neg (by decide), ensure_eq_ok, hlast d hd] at hcycles
    exact (finalRemoval_length h).mp hcycles
  · rintro ⟨h, hacyclic⟩
    refine ⟨h.nodes_distinct, h.edges_distinct, _, ⟨h.endpoints_declared, h.no_self_loop, rfl⟩, ?_⟩
    cases allowCycles with
    | true => rfl
    | false =>
      rw [if_neg (by decide), ensure_eq_ok, hlast _ rfl]
      exact (finalRemoval_length h).mpr (hacyclic rfl)

/-- Fewer edges are well formed where all are. -/
theorem WellFormedGraph.sublist {some' : List EdgeEnds} (h : WellFormedGraph nodeIds edges) (hsome : some'.Sublist edges) :
    WellFormedGraph nodeIds some' where
  nodes_distinct := h.nodes_distinct
  edges_distinct := h.edges_distinct.sublist (hsome.map _)
  endpoints_declared edge he := h.endpoints_declared edge (hsome.subset he)
  no_self_loop edge he := h.no_self_loop edge (hsome.subset he)

end

/-- A graph passes exactly when its identifiers are unique and its edges join two different
declared nodes, without a cycle where cycles are forbidden; in a mathematical graph that is
among the edges that neither state an equivalence nor a motivation. -/
theorem graph_validation_exact :
    (∀ nodeIds edges allowCycles, validateGraph nodeIds edges allowCycles = .ok () ↔
      WellFormedGraph nodeIds edges ∧ (allowCycles = false → Acyclic (Leads edges))) ∧
    ∀ nodeIds edges, validateStructure nodeIds edges = .ok () ↔
      WellFormedGraph nodeIds (edges.map (·.toEdgeEnds)) ∧
        Acyclic fun a b => ∃ edge ∈ edges, (edge.kind ≠ .equivalentTo ∧ edge.kind ≠ .motivates) ∧
          edge.source = a ∧ edge.target = b := by
  refine ⟨fun _ _ _ => validateGraph_eq_ok, fun nodeIds edges => ?_⟩
  have hleads : Leads ((edges.filter (·.isPrerequisite)).map (·.toEdgeEnds)) = fun a b =>
      ∃ edge ∈ edges, (edge.kind ≠ .equivalentTo ∧ edge.kind ≠ .motivates) ∧ edge.source = a ∧ edge.target = b := by
    funext a b
    apply propext
    simp only [Leads, List.mem_map, List.mem_filter, MathematicalEdge.isPrerequisite, Bool.and_eq_true, bne_iff_ne]
    constructor
    · rintro ⟨_, ⟨edge, ⟨he, hkind⟩, rfl⟩, hends⟩
      exact ⟨edge, he, hkind, hends⟩
    · rintro ⟨edge, he, hkind, hends⟩
      exact ⟨_, ⟨edge, ⟨he, hkind⟩, rfl⟩, hends⟩
  unfold validateStructure
  rw [seq_eq_ok, validateGraph_eq_ok, validateGraph_eq_ok, hleads]
  constructor
  · rintro ⟨⟨hwhole, -⟩, -, hacyclic⟩
    exact ⟨hwhole, hacyclic rfl⟩
  · rintro ⟨hwhole, hacyclic⟩
    exact ⟨⟨hwhole, fun h => by cases h⟩, hwhole.sublist (List.filter_sublist.map _), fun _ => hacyclic⟩

end Autolean.Contracts
