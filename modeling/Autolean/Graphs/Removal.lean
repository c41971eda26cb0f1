import Mathlib

/-! Removal of the nodes of a finite multigraph that have no open incoming edge, one after
the other. The removed nodes are in topological order, and the nodes that stay are those on
or behind a directed cycle. -/
namespace Autolean.Graphs
open Relation

/-- A list in which every predecessor of a member stands before it. -/
def TopologicallyOrdered {α : Type} (r : α → α → Prop) (l : List α) : Prop :=
  ∀ front a back, l = front ++ a :: back → ∀ b, r b a → b ∈ front

/-- No node reaches itself. -/
def Acyclic {α : Type} (r : α → α → Prop) : Prop := ∀ a, ¬ TransGen r a a

/-- The node lies on a cycle or can be reached from one. -/
def BehindCycle {α : Type} (r : α → α → Prop) (a : α) : Prop := ∃ c, TransGen r c c ∧ ReflTransGen r c a

section Order
variable {α : Type} {r : α → α → Prop} {l : List α}

theorem TopologicallyOrdered.nil : TopologicallyOrdered r [] := by
  intro front a back h
  simp at h

theorem TopologicallyOrdered.concat {a : α} (h : TopologicallyOrdered r l) (ha : ∀ b, r b a → b ∈ l) :
    TopologicallyOrdered r (l ++ [a]) := by
  intro front c back heq b hb
  rcases List.eq_nil_or_concat back with rfl | ⟨back, d, rfl⟩
  · obtain ⟨rfl, hc⟩ := List.append_inj' heq rfl
    cases List.singleton_inj.mp hc
    exact ha b hb
  · rw [List.concat_eq_append, ← List.cons_append, ← List.append_assoc] at heq
    obtain ⟨rfl, -⟩ := List.append_inj' heq rfl
    exact h front c back rfl b hb

variable [DecidableEq α]

theorem TopologicallyOrdered.before {a b : α} (h : TopologicallyOrdered r l) (ha : a ∈ l) (hr : r b a) :
    b ∈ l ∧ l.idxOf b < l.idxOf a := by
  obtain ⟨front, back, rfl, hfront⟩ := List.eq_append_cons_of_mem ha
  have hb := h front a back rfl b hr
  refine ⟨List.mem_append_left _ hb, ?_⟩
  rw [List.idxOf_append_of_mem hb, List.idxOf_append_of_notMem hfront, List.idxOf_cons_self]
  exact (List.idxOf_lt_length_of_mem hb).trans_le (Nat.le_add_right _ _)

theorem TopologicallyOrdered.before_trans {a b : α} (h : TopologicallyOrdered r l) (ha : a ∈ l) (hr : TransGen r b a) :
    b ∈ l ∧ l.idxOf b < l.idxOf a := by
  induction hr with
  | single hr => exact h.before ha hr
  | tail _ hr ih =>
    obtain ⟨hmem, hlt⟩ := h.before ha hr
    obtain ⟨hb, hlt'⟩ := ih hmem
    exact ⟨hb, hlt'.trans hlt⟩

/-- No member of a topologically ordered list is on or behind a cycle. -/
theorem TopologicallyOrdered.not_behindCycle {a : α} (h : TopologicallyOrdered r l) (ha : a ∈ l) : ¬ BehindCycle r a := by
  rintro ⟨c, hcycle, hreach⟩
  have hc : c ∈ l := by
    rcases reflTransGen_iff_eq_or_transGen.mp hreach with rfl | htrans
    · exact ha
    · exact (h.before_trans ha htrans).1
  exact absurd (h.before_trans hc hcycle).2 (lt_irrefl _)

omit [DecidableEq α] in
/-- A finite set that holds a node with each of its unlisted predecessors holds a cycle behind it. -/
theorem behindCycle_of_predecessors (open' : Finset α) (hopen : ∀ a ∈ open', ∃ b ∈ open', r b a) {a : α} (ha : a ∈ open') :
    BehindCycle r a := by
  by_contra hno
  let Ancestor := { b : α // b ∈ open' ∧ ReflTransGen r b a }
  have hfinite : Finite Ancestor :=
    Finite.of_injective (fun b : Ancestor => (⟨b.1, b.2.1⟩ : open')) fun b c h => Subtype.ext (congrArg (fun x => x.1) h)
  have hirrefl : Std.Irrefl fun b c : Ancestor => TransGen r b.1 c.1 :=
    ⟨fun b hb => hno ⟨b.1, hb, b.2.2⟩⟩
  have htrans : IsTrans Ancestor fun b c => TransGen r b.1 c.1 := ⟨fun _ _ _ => TransGen.trans⟩
  have hwf := Finite.wellFounded_of_trans_of_irrefl fun b c : Ancestor => TransGen r b.1 c.1
  obtain ⟨m, -, hmin⟩ := hwf.has_min Set.univ ⟨(⟨a, ha, .refl⟩ : Ancestor), trivial⟩
  obtain ⟨b, hb, hr⟩ := hopen m.1 m.2.1
  exact hmin ⟨b, hb, .head hr m.2.2⟩ trivial (.single hr)

end Order

/-- The open incoming edges of each node, the queue, and the removed nodes in order. -/
structure Removal (α : Type) where
  indegree : α → Int
  queue : List α
  ordered : List α

namespace Removal
variable {α : Type} [DecidableEq α]

/-- One edge of a removed node is deleted; its target is queued when that was its last one. -/
def relax (arrange : List α → List α) (s : Removal α) (target : α) : Removal α :=
  let degree := s.indegree target - 1
  { s with
    indegree := Function.update s.indegree target degree
    queue := if degree = 0 then arrange (s.queue ++ [target]) else s.queue }

/-- The first node of the queue is removed with its outgoing edges. -/
def step (arrange : List α → List α) (successors : α → List α) (s : Removal α) : Removal α :=
  match s.queue with
  | [] => s
  | node :: queue => (successors node).foldl (relax arrange) { s with queue := queue, ordered := s.ordered ++ [node] }

end Removal

/-! The invariant -/

section Invariant
variable {α : Type} [DecidableEq α] {nodes : Finset α} {successors : α → List α} {arrange : List α → List α}

/-- An edge between nodes. -/
def EdgeOf (nodes : Finset α) (successors : α → List α) (a b : α) : Prop := a ∈ nodes ∧ b ∈ successors a

/-- The number of parallel edges into a node from the nodes that are not removed. -/
def openEdges (nodes : Finset α) (successors : α → List α) (ordered : List α) (a : α) : Nat :=
  ∑ b ∈ nodes \ ordered.toFinset, (successors b).count a

/-- The state while the edges to `rest` are still to be deleted. -/
structure Removing (nodes : Finset α) (successors : α → List α) (rest : List α) (s : Removal α) : Prop where
  nodup : (s.ordered ++ s.queue).Nodup
  known : ∀ a ∈ s.ordered ++ s.queue, a ∈ nodes
  degree : ∀ a ∈ nodes, s.indegree a = openEdges nodes successors s.ordered a + rest.count a
  free : ∀ a ∈ nodes, a ∈ s.ordered ++ s.queue ↔ s.indegree a = 0
  sorted : TopologicallyOrdered (EdgeOf nodes successors) s.ordered

theorem openEdges_eq_zero {ordered : List α} {a : α} :
    openEdges nodes successors ordered a = 0 ↔ ∀ b, EdgeOf nodes successors b a → b ∈ ordered := by
  unfold openEdges EdgeOf
  simp only [Finset.sum_eq_zero_iff, Finset.mem_sdiff, List.mem_toFinset, List.count_eq_zero]
  constructor
  · intro h b hb
    by_contra hnot
    exact h b ⟨hb.1, hnot⟩ hb.2
  · intro h b hb hmem
    exact hb.2 (h b ⟨hb.1, hmem⟩)

theorem openEdges_concat (successors : α → List α) {ordered : List α} {node : α} (hnode : node ∈ nodes)
    (hnew : node ∉ ordered) (a : α) :
    openEdges nodes successors (ordered ++ [node]) a + (successors node).count a =
      openEdges nodes successors ordered a := by
  have hsplit : nodes \ (ordered ++ [node]).toFinset = (nodes \ ordered.toFinset).erase node := by
    ext b
    simp only [Finset.mem_sdiff, List.mem_toFinset, List.mem_append, List.mem_singleton, Finset.mem_erase]
    tauto
  unfold openEdges
  rw [hsplit, Finset.sum_erase_add]
  simp [hnode, hnew]

theorem Removing.relax {s : Removal α} {target : α} {rest : List α} (harrange : ∀ l, (arrange l).Perm l)
    (h : Removing nodes successors (target :: rest) s) (ht : target ∈ nodes) :
    Removing nodes successors rest (s.relax arrange target) := by
  have hdegree := h.degree target ht
  rw [List.count_cons_self] at hdegree
  have hnot : target ∉ s.ordered ++ s.queue := by
    intro hmem
    have := (h.free target ht).mp hmem
    omega
  have hperm : (s.ordered ++ (s.relax arrange target).queue).Perm
      (if s.indegree target - 1 = 0 then target :: (s.ordered ++ s.queue) else s.ordered ++ s.queue) := by
    simp only [Removal.relax]
    split
    · refine ((harrange _).append_left _).trans ?_
      rw [← List.append_assoc]
      exact List.perm_append_singleton _ _
    · rfl
  have hcount : ∀ a ∈ nodes, (s.relax arrange target).indegree a = openEdges nodes successors s.ordered a + rest.count a := by
    intro a ha
    by_cases heq : a = target
    · subst heq
      simp only [Removal.relax, Function.update_self]
      omega
    · simp only [Removal.relax, Function.update_of_ne heq, h.degree a ha, List.count_cons_of_ne (Ne.symm heq)]
  have hmem : ∀ a, a ∈ s.ordered ++ (s.relax arrange target).queue ↔
      a ∈ s.ordered ++ s.queue ∨ s.indegree target - 1 = 0 ∧ a = target := by
    intro a
    rw [hperm.mem_iff]
    split <;> simp_all [or_comm]
  constructor
  · refine hperm.nodup_iff.mpr ?_
    split
    · exact List.nodup_cons.mpr ⟨hnot, h.nodup⟩
    · exact h.nodup
  · intro a ha
    rcases (hmem a).mp ha with ha | ⟨-, rfl⟩
    · exact h.known a ha
    · exact ht
  · exact hcount
  · intro a ha
    refine (hmem a).trans ?_
    by_cases heq : a = target
    · subst heq
      simp only [hnot, false_or, and_true, Removal.relax, Function.update_self]
    · simp only [heq, and_false, or_false, h.free a ha, Removal.relax, Function.update_of_ne heq]
  · exact h.sorted

theorem Removing.foldl {s : Removal α} {targets : List α} (harrange : ∀ l, (arrange l).Perm l)
    (h : Removing nodes successors targets s) (ht : ∀ a ∈ targets, a ∈ nodes) :
    Removing nodes successors [] (targets.foldl (Removal.relax arrange) s) := by
  induction targets generalizing s with
  | nil => exact h
  | cons target rest ih =>
    exact ih (h.relax harrange (ht target List.mem_cons_self)) fun a ha => ht a (List.mem_cons_of_mem _ ha)

theorem Removing.step {s : Removal α} (harrange : ∀ l, (arrange l).Perm l)
    (hsucc : ∀ a b, EdgeOf nodes successors a b → b ∈ nodes)
    (h : Removing nodes successors [] s) : Removing nodes successors [] (s.step arrange successors) := by
  unfold Removal.step
  split
  · exact h
  · next node queue hqueue =>
    have hnode : node ∈ nodes := h.known node (by simp [hqueue])
    have hshift : s.ordered ++ s.queue = (s.ordered ++ [node]) ++ queue := by simp [hqueue]
    have hnew : node ∉ s.ordered := by
      intro hmem
      have hnodup := h.nodup
      rw [hqueue] at hnodup
      exact (List.disjoint_of_nodup_append hnodup) hmem List.mem_cons_self
    have hzero := (h.free node hnode).mp (by simp [hqueue])
    apply Removing.foldl harrange _ fun a ha => hsucc node a ⟨hnode, ha⟩
    constructor
    · exact hshift ▸ h.nodup
    · exact hshift ▸ h.known
    · intro a ha
      have hsplit := openEdges_concat successors hnode hnew a
      have hdegree := h.degree a ha
      simp only [List.count_nil] at hdegree
      dsimp only
      omega
    · intro a ha
      rw [← hshift]
      exact h.free a ha
    · apply h.sorted.concat
      apply openEdges_eq_zero.mp
      have hdegree := h.degree node hnode
      simp only [List.count_nil] at hdegree
      omega

/-! Whole runs -/

/-- The loop over the queue. -/
def Removal.run (arrange : List α → List α) (successors : α → List α) (fuel : Nat) (s : Removal α) : Removal α :=
  (Removal.step arrange successors)^[fuel] s

variable {s : Removal α}

theorem Removal.foldl_ordered (targets : List α) (s : Removal α) :
    (targets.foldl (Removal.relax arrange) s).ordered = s.ordered := by
  induction targets generalizing s with
  | nil => rfl
  | cons target rest ih => exact ih _

theorem Removal.step_length (h : s.queue ≠ []) :
    (s.step arrange successors).ordered.length = s.ordered.length + 1 := by
  unfold Removal.step
  split
  · next hqueue => exact absurd hqueue h
  · rw [Removal.foldl_ordered, List.length_append, List.length_singleton]

theorem Removal.step_done (h : s.queue = []) : s.step arrange successors = s := by
  unfold Removal.step
  rw [h]

theorem Removing.initial {indegree : α → Int} {ready : List α} (hready : ready.Nodup)
    (hdegree : ∀ a ∈ nodes, indegree a = ((∑ b ∈ nodes, (successors b).count a : Nat) : Int))
    (hzero : ∀ a, a ∈ ready ↔ a ∈ nodes ∧ indegree a = 0) : Removing nodes successors [] ⟨indegree, ready, []⟩ where
  nodup := hready
  known a ha := ((hzero a).mp ha).1
  degree a ha := by simp [hdegree a ha, openEdges]
  free a ha := (hzero a).trans ⟨And.right, fun h => ⟨ha, h⟩⟩
  sorted := .nil

theorem Removing.run (harrange : ∀ l, (arrange l).Perm l) (hsucc : ∀ a b, EdgeOf nodes successors a b → b ∈ nodes)
    (h : Removing nodes successors [] s) (fuel : Nat) : Removing nodes successors [] (s.run arrange successors fuel) := by
  unfold Removal.run
  induction fuel with
  | zero => exact h
  | succ fuel ih =>
    rw [Function.iterate_succ_apply']
    exact ih.step harrange hsucc

theorem Removing.length_le (h : Removing nodes successors [] s) : s.ordered.length + s.queue.length ≤ nodes.card := by
  rw [← List.length_append, ← List.toFinset_card_of_nodup h.nodup]
  apply Finset.card_le_card
  intro a ha
  exact h.known a (List.mem_toFinset.mp ha)

/-- The loop ends: as many steps as there are nodes leave nothing in the queue. -/
theorem Removing.exhausted (harrange : ∀ l, (arrange l).Perm l) (hsucc : ∀ a b, EdgeOf nodes successors a b → b ∈ nodes)
    (h : Removing nodes successors [] s) {fuel : Nat} (hfuel : nodes.card ≤ fuel) :
    (s.run arrange successors fuel).queue = [] := by
  have hprogress : ∀ n, (s.run arrange successors n).queue = [] ∨ n ≤ (s.run arrange successors n).ordered.length := by
    intro n
    induction n with
    | zero => exact .inr (Nat.zero_le _)
    | succ n ih =>
      unfold Removal.run at ih ⊢
      rw [Function.iterate_succ_apply']
      by_cases hqueue : ((Removal.step arrange successors)^[n] s).queue = []
      · rw [Removal.step_done hqueue]
        exact .inl hqueue
      · rw [Removal.step_length hqueue]
        exact .inr (Nat.succ_le_succ (ih.resolve_left hqueue))
  rcases hprogress fuel with hqueue | hlength
  · exact hqueue
  · have hle := (h.run harrange hsucc fuel).length_le
    apply List.eq_nil_of_length_eq_zero
    omega

/-- At the end of the loop the removed nodes are those that no cycle reaches. -/
theorem Removing.mem_ordered_iff (h : Removing nodes successors [] s) (hqueue : s.queue = []) {a : α} (ha : a ∈ nodes) :
    a ∈ s.ordered ↔ ¬ BehindCycle (EdgeOf nodes successors) a := by
  constructor
  · exact fun hmem => h.sorted.not_behindCycle hmem
  · intro hno
    by_contra hnot
    refine hno (behindCycle_of_predecessors (nodes \ s.ordered.toFinset) ?_ (by simp [ha, hnot]))
    intro c hc
    rw [Finset.mem_sdiff, List.mem_toFinset] at hc
    have hfree := h.free c hc.1
    rw [hqueue, List.append_nil] at hfree
    have hopen : openEdges nodes successors s.ordered c ≠ 0 := by
      intro hzero
      have hdegree := h.degree c hc.1
      rw [hzero, List.count_nil] at hdegree
      exact hc.2 (hfree.mpr hdegree)
    rw [Ne, openEdges_eq_zero] at hopen
    push Not at hopen
    obtain ⟨b, hedge, hb⟩ := hopen
    exact ⟨b, by simp [hedge.1, hb], hedge⟩

/-- Every node is removed exactly when there is no cycle. -/
theorem Removing.length_eq_iff (h : Removing nodes successors [] s) (hqueue : s.queue = [])
    (hsucc : ∀ a b, EdgeOf nodes successors a b → b ∈ nodes) :
    s.ordered.length = nodes.card ↔ Acyclic (EdgeOf nodes successors) := by
  have hnodup := h.nodup
  have hknown := h.known
  rw [hqueue, List.append_nil] at hnodup hknown
  have hsubset : s.ordered.toFinset ⊆ nodes := fun a ha => hknown a (List.mem_toFinset.mp ha)
  rw [← List.toFinset_card_of_nodup hnodup]
  constructor
  · intro hcard a hcycle
    have ha : a ∈ nodes := by
      obtain ⟨b, -, hedge⟩ := TransGen.tail'_iff.mp hcycle
      exact hsucc b a hedge
    have heq := Finset.eq_of_subset_of_card_le hsubset hcard.ge
    have hmem : a ∈ s.ordered := List.mem_toFinset.mp (heq ▸ ha)
    exact (h.mem_ordered_iff hqueue ha).mp hmem ⟨a, hcycle, .refl⟩
  · intro hacyclic
    congr 1
    apply Finset.Subset.antisymm hsubset
    intro a ha
    refine List.mem_toFinset.mpr ((h.mem_ordered_iff hqueue ha).mpr ?_)
    rintro ⟨c, hcycle, -⟩
    exact hacyclic c hcycle

end Invariant

/-! Edge lists -/

section Edges
variable {α : Type} [DecidableEq α] {nodes ready : List α} {edges : List (α × α)} {successors : α → List α}
  {arrange : List α → List α}

/-- The targets of the edges out of a node, parallel edges included. -/
def targetsOf (edges : List (α × α)) (a : α) : List α := (edges.filter fun edge => edge.1 = a).map Prod.snd

/-- The number of edges into a node, parallel edges included. -/
def indegreeOf (edges : List (α × α)) (a : α) : Nat := edges.countP fun edge => edge.2 = a

theorem mem_targetsOf {a b : α} : b ∈ targetsOf edges a ↔ (a, b) ∈ edges := by
  simp [targetsOf]

theorem sum_count_targetsOf (known : Finset α) (hknown : ∀ edge ∈ edges, edge.1 ∈ known) (a : α) :
    ∑ b ∈ known, (targetsOf edges b).count a = indegreeOf edges a := by
  induction edges with
  | nil => simp [targetsOf, indegreeOf]
  | cons edge rest ih =>
    have hrest := ih fun e he => hknown e (List.mem_cons_of_mem _ he)
    have hone : ∀ b, (targetsOf (edge :: rest) b).count a =
        (targetsOf rest b).count a + if b = edge.1 then if edge.2 = a then 1 else 0 else 0 := by
      intro b
      unfold targetsOf
      rw [List.filter_cons]
      by_cases hb : b = edge.1
      · subst hb
        simp [List.count_cons]
      · simp [hb, Ne.symm hb]
    simp only [hone, Finset.sum_add_distrib, hrest, Finset.sum_ite_eq', hknown edge List.mem_cons_self, if_true]
    simp [indegreeOf, List.countP_cons]

theorem edgeOf_iff (hknown : ∀ edge ∈ edges, edge.1 ∈ nodes ∧ edge.2 ∈ nodes)
    (hsuccessors : ∀ a ∈ nodes, (successors a).Perm (targetsOf edges a)) {a b : α} :
    EdgeOf nodes.toFinset successors a b ↔ (a, b) ∈ edges := by
  unfold EdgeOf
  rw [List.mem_toFinset]
  constructor
  · rintro ⟨ha, hb⟩
    exact mem_targetsOf.mp ((hsuccessors a ha).mem_iff.mp hb)
  · intro h
    have ha := (hknown _ h).1
    exact ⟨ha, (hsuccessors a ha).mem_iff.mpr (mem_targetsOf.mpr h)⟩

/-- The state before the loop: every node with its indegree, those without incoming edges queued. -/
theorem Removing.ofEdges (hknown : ∀ edge ∈ edges, edge.1 ∈ nodes ∧ edge.2 ∈ nodes)
    (hsuccessors : ∀ a ∈ nodes, (successors a).Perm (targetsOf edges a)) (hnodup : nodes.Nodup)
    (hready : ready.Perm (nodes.filter fun a => indegreeOf edges a = 0)) :
    Removing nodes.toFinset successors [] ⟨fun a => indegreeOf edges a, ready, []⟩ := by
  apply Removing.initial
  · exact hready.nodup_iff.mpr (hnodup.filter _)
  · intro a _
    rw [← sum_count_targetsOf nodes.toFinset fun edge he => List.mem_toFinset.mpr (hknown edge he).1]
    have hcount : ∀ b ∈ nodes.toFinset, (targetsOf edges b).count a = (successors b).count a :=
      fun b hb => ((hsuccessors b (List.mem_toFinset.mp hb)).count_eq a).symm
    rw [Finset.sum_congr rfl hcount]
  · intro a
    simp [hready.mem_iff]

/-- What the loop leaves behind for an edge list: the removed nodes are in topological order,
and they are all nodes exactly when the edges form no cycle. -/
theorem removed_spec (arrange : List α → List α) (successors : α → List α)
    (harrange : ∀ l, (arrange l).Perm l) (hknown : ∀ edge ∈ edges, edge.1 ∈ nodes ∧ edge.2 ∈ nodes)
    (hsuccessors : ∀ a ∈ nodes, (successors a).Perm (targetsOf edges a)) (hnodup : nodes.Nodup)
    (hready : ready.Perm (nodes.filter fun a => indegreeOf edges a = 0)) :
    let s := Removal.run arrange successors nodes.length ⟨fun a => indegreeOf edges a, ready, []⟩
    s.queue = [] ∧ s.ordered.Nodup ∧ s.ordered ⊆ nodes ∧ TopologicallyOrdered (fun a b => (a, b) ∈ edges) s.ordered ∧
      (∀ a ∈ nodes, a ∈ s.ordered ↔ ¬ BehindCycle (fun a b => (a, b) ∈ edges) a) ∧
      (s.ordered.length = nodes.length ↔ Acyclic fun a b => (a, b) ∈ edges) := by
  intro s
  have hedge : EdgeOf nodes.toFinset successors = fun a b => (a, b) ∈ edges := by
    funext a b
    exact propext (edgeOf_iff hknown hsuccessors)
  have htargets : ∀ a b, EdgeOf nodes.toFinset successors a b → b ∈ nodes.toFinset := by
    intro a b h
    rw [hedge] at h
    exact List.mem_toFinset.mpr (hknown _ h).2
  have hstart := Removing.ofEdges hknown hsuccessors hnodup hready
  have hcard : nodes.toFinset.card = nodes.length := List.toFinset_card_of_nodup hnodup
  have hend := hstart.run harrange htargets nodes.length
  have hqueue := hstart.exhausted harrange htargets hcard.le
  have hmem : ∀ a ∈ nodes, a ∈ s.ordered ↔ ¬ BehindCycle (fun a b => (a, b) ∈ edges) a := by
    intro a ha
    rw [← hedge]
    exact hend.mem_ordered_iff hqueue (List.mem_toFinset.mpr ha)
  refine ⟨hqueue, (List.nodup_append.mp hend.nodup).1, ?_, ?_, hmem, ?_⟩
  · intro a ha
    exact List.mem_toFinset.mp (hend.known a (List.mem_append_left _ ha))
  · rw [← hedge]
    exact hend.sorted
  · rw [← hedge, ← hcard]
    exact hend.length_eq_iff hqueue htargets

end Edges
end Autolean.Graphs
