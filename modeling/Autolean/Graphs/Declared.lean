import Autolean.Graphs.Removal
import Autolean.Graphs.Reachability

/-! Graphs given by a list of nodes, each with its key and the keys it depends on. -/
namespace Autolean.Graphs
open Relation

variable {N κ : Type} [DecidableEq κ] (key : N → κ) (dependencies : N → List κ)

/-- The node with the key. -/
def nodeAt (nodes : List N) (k : κ) : Option N := nodes.find? fun node => key node = k

/-- Each dependency with the key of the node that declares it. -/
def dependencyEdges (nodes : List N) : List (κ × κ) :=
  nodes.flatMap fun node => (dependencies node).map fun dependency => (dependency, key node)

/-- The keys of the nodes that declare the dependency, as often as they declare it. -/
def dependentsOf (nodes : List N) (k : κ) : List κ := targetsOf (dependencyEdges key dependencies nodes) k

/-- The number of declared dependencies. -/
def dependencyCount (nodes : List N) (k : κ) : Nat := ((nodeAt key nodes k).map fun node => (dependencies node).length).getD 0

/-- The dependencies of the node with the key. -/
def dependenciesOf (nodes : List N) (k : κ) : List κ := ((nodeAt key nodes k).map dependencies).getD []

/-- The first key declares the second as a dependency. -/
def Depends (nodes : List N) (a b : κ) : Prop := ∃ node ∈ nodes, key node = a ∧ b ∈ dependencies node

variable {key dependencies} {nodes : List N}

theorem nodeAt_eq_some (hunique : (nodes.map key).Nodup) {node : N} {k : κ} :
    nodeAt key nodes k = some node ↔ node ∈ nodes ∧ key node = k := by
  unfold nodeAt
  constructor
  · intro h
    exact ⟨List.mem_of_find?_eq_some h, by simpa using List.find?_some h⟩
  · rintro ⟨hnode, rfl⟩
    induction nodes with
    | nil => cases hnode
    | cons first rest ih =>
      rw [List.map_cons, List.nodup_cons] at hunique
      rcases List.mem_cons.mp hnode with rfl | hnode
      · simp
      · have hne : key first ≠ key node := by
          intro heq
          exact hunique.1 (heq ▸ List.mem_map_of_mem hnode)
        rw [List.find?_cons_of_neg (by simpa using hne)]
        exact ih hunique.2 hnode

omit [DecidableEq κ] in
theorem mem_dependencyEdges {a b : κ} : (a, b) ∈ dependencyEdges key dependencies nodes ↔ Depends key dependencies nodes b a := by
  unfold dependencyEdges Depends
  simp only [List.mem_flatMap, List.mem_map, Prod.mk.injEq]
  constructor
  · rintro ⟨node, hnode, _, hdependency, rfl, rfl⟩
    exact ⟨node, hnode, rfl, hdependency⟩
  · rintro ⟨node, hnode, rfl, hdependency⟩
    exact ⟨node, hnode, a, hdependency, rfl, rfl⟩

theorem mem_dependentsOf {a b : κ} : b ∈ dependentsOf key dependencies nodes a ↔ Depends key dependencies nodes b a := by
  rw [dependentsOf, mem_targetsOf, mem_dependencyEdges]

theorem mem_dependenciesOf (hunique : (nodes.map key).Nodup) {a b : κ} :
    b ∈ dependenciesOf key dependencies nodes a ↔ Depends key dependencies nodes a b := by
  unfold dependenciesOf Depends
  cases hnode : nodeAt key nodes a with
  | none =>
    simp only [Option.map_none, Option.getD_none, List.not_mem_nil, false_iff]
    rintro ⟨node, hmem, hkey, -⟩
    rw [(nodeAt_eq_some hunique).mpr ⟨hmem, hkey⟩] at hnode
    cases hnode
  | some node =>
    obtain ⟨hmem, hkey⟩ := (nodeAt_eq_some hunique).mp hnode
    simp only [Option.map_some, Option.getD_some]
    constructor
    · exact fun hb => ⟨node, hmem, hkey, hb⟩
    · rintro ⟨other, hother, hkey', hb⟩
      rw [(nodeAt_eq_some hunique).mpr ⟨hother, hkey'⟩] at hnode
      cases hnode
      exact hb

theorem indegreeOf_cons (first : N) (rest : List N) (k : κ) :
    indegreeOf (dependencyEdges key dependencies (first :: rest)) k =
      (if key first = k then (dependencies first).length else 0) + indegreeOf (dependencyEdges key dependencies rest) k := by
  unfold indegreeOf dependencyEdges
  rw [List.flatMap_cons, List.countP_append, List.countP_map]
  congr 1
  split
  · next heq =>
    subst heq
    exact List.countP_eq_length.mpr (by simp)
  · next hne => exact List.countP_eq_zero.mpr (by simp [hne])

theorem indegreeOf_unknown {k : κ} (h : k ∉ nodes.map key) : indegreeOf (dependencyEdges key dependencies nodes) k = 0 := by
  refine List.countP_eq_zero.mpr ?_
  rintro ⟨a, b⟩ hedge hb
  obtain ⟨node, hnode, rfl, -⟩ := mem_dependencyEdges.mp hedge
  exact h (of_decide_eq_true hb ▸ List.mem_map_of_mem hnode)

/-- The number of dependencies of a node is the number of edges into it. -/
theorem dependencyCount_eq (hunique : (nodes.map key).Nodup) (k : κ) :
    dependencyCount key dependencies nodes k = indegreeOf (dependencyEdges key dependencies nodes) k := by
  induction nodes with
  | nil => rfl
  | cons first rest ih =>
    rw [List.map_cons, List.nodup_cons] at hunique
    rw [indegreeOf_cons]
    by_cases heq : key first = k
    · subst heq
      rw [indegreeOf_unknown hunique.1]
      simp [dependencyCount, nodeAt]
    · rw [if_neg heq, Nat.zero_add, ← ih hunique.2]
      unfold dependencyCount nodeAt
      rw [List.find?_cons_of_neg (by simpa using heq)]

/-- Every dependency is the key of a node. -/
def DependenciesKnown (key : N → κ) (dependencies : N → List κ) (nodes : List N) : Prop :=
  ∀ node ∈ nodes, ∀ dependency ∈ dependencies node, dependency ∈ nodes.map key

omit [DecidableEq κ] in
theorem Depends.known {a b : κ} (h : Depends key dependencies nodes a b) : a ∈ nodes.map key := by
  obtain ⟨node, hnode, rfl, -⟩ := h
  exact List.mem_map_of_mem hnode

/-- The removal of the nodes without open dependencies, one after the other. -/
theorem declared_removed_spec (arrange : List κ → List κ) (successors : κ → List κ) {ready : List κ}
    (harrange : ∀ l, (arrange l).Perm l) (hunique : (nodes.map key).Nodup)
    (hknown : DependenciesKnown key dependencies nodes)
    (hsuccessors : ∀ k, (successors k).Perm (dependentsOf key dependencies nodes k))
    (hready : ready.Perm ((nodes.map key).filter fun k => dependencyCount key dependencies nodes k = 0)) :
    let s := Removal.run arrange successors nodes.length ⟨fun k => dependencyCount key dependencies nodes k, ready, []⟩
    s.queue = [] ∧ s.ordered.Nodup ∧ s.ordered ⊆ nodes.map key ∧
      TopologicallyOrdered (fun a b => Depends key dependencies nodes b a) s.ordered ∧
      (∀ a ∈ nodes.map key, a ∈ s.ordered ↔ ¬ BehindCycle (fun a b => Depends key dependencies nodes b a) a) ∧
      (s.ordered.length = nodes.length ↔ Acyclic fun a b => Depends key dependencies nodes b a) := by
  have hedges : ∀ edge ∈ dependencyEdges key dependencies nodes, edge.1 ∈ nodes.map key ∧ edge.2 ∈ nodes.map key := by
    rintro ⟨a, b⟩ hedge
    obtain ⟨node, hnode, rfl, ha⟩ := mem_dependencyEdges.mp hedge
    exact ⟨hknown node hnode a ha, List.mem_map_of_mem hnode⟩
  simp only [dependencyCount_eq hunique] at hready ⊢
  have hrel : (fun a b => (a, b) ∈ dependencyEdges key dependencies nodes) =
      fun a b => Depends key dependencies nodes b a := by
    funext a b
    exact propext mem_dependencyEdges
  have hend := removed_spec arrange successors harrange hedges (fun k _ => hsuccessors k) hunique hready
  rw [hrel, List.length_map] at hend
  exact hend

end Autolean.Graphs
