import Autolean.Graphs.Declared
import Mathlib.Data.List.Sort

/-! A removal that keeps its queue sorted does not depend on the order in which the nodes and
their dependencies are written down. -/
namespace Autolean.Graphs

/-! Sorting -/

/-- A total order on the members of a list; nothing is said about other elements. -/
structure OrdersMembers {α : Type} (r : α → α → Prop) (l : List α) : Prop where
  antisymm : ∀ a ∈ l, ∀ b ∈ l, r a b → r b a → a = b
  trans : ∀ a ∈ l, ∀ b ∈ l, ∀ c ∈ l, r a b → r b c → r a c
  total : ∀ a ∈ l, ∀ b ∈ l, r a b ∨ r b a

section Sorting
variable {α : Type} {r : α → α → Prop} {l l' : List α}

theorem OrdersMembers.subset (h : OrdersMembers r l) (hsubset : l' ⊆ l) : OrdersMembers r l' where
  antisymm a ha b hb := h.antisymm a (hsubset ha) b (hsubset hb)
  trans a ha b hb c hc := h.trans a (hsubset ha) b (hsubset hb) c (hsubset hc)
  total a ha b hb := h.total a (hsubset ha) b (hsubset hb)

theorem OrdersMembers.of_map {β : Type} {key : β → α} {nodes : List β} (h : OrdersMembers r (nodes.map key))
    (hkeys : (nodes.map key).Nodup) : OrdersMembers (fun x y => r (key x) (key y)) nodes where
  antisymm _ hx _ hy hxy hyx := List.inj_on_of_nodup_map hkeys hx hy
    (h.antisymm _ (List.mem_map_of_mem hx) _ (List.mem_map_of_mem hy) hxy hyx)
  trans _ hx _ hy _ hz := h.trans _ (List.mem_map_of_mem hx) _ (List.mem_map_of_mem hy) _ (List.mem_map_of_mem hz)
  total _ hx _ hy := h.total _ (List.mem_map_of_mem hx) _ (List.mem_map_of_mem hy)

variable [DecidableRel r]

theorem OrdersMembers.sorted (h : OrdersMembers r l) : (l.insertionSort r).Pairwise r := by
  let s : {a // a ∈ l} → {a // a ∈ l} → Prop := fun a b => r a b
  have htotal : Std.Total s := ⟨fun a b => h.total a a.2 b b.2⟩
  have htrans : IsTrans _ s := ⟨fun a b c => h.trans a a.2 b b.2 c c.2⟩
  have hmap : (l.attach.insertionSort s).map Subtype.val = l.insertionSort r := by
    rw [List.map_insertionSort s r Subtype.val l.attach fun _ _ _ _ => Iff.rfl, List.attach_map_subtype_val]
  rw [← hmap]
  exact (List.pairwise_insertionSort s l.attach).map Subtype.val fun _ _ hs => hs

/-- Sorting forgets the order. -/
theorem OrdersMembers.insertionSort_eq (h : OrdersMembers r l) (hperm : l.Perm l') :
    l.insertionSort r = l'.insertionSort r := by
  have hl := List.perm_insertionSort r l
  have hl' := List.perm_insertionSort r l'
  have h' := h.subset hperm.symm.subset
  apply (hl.trans (hperm.trans hl'.symm)).eq_of_pairwise _ h.sorted h'.sorted
  intro a b ha hb
  exact h.antisymm a (hl.subset ha) b (hperm.symm.subset (hl'.subset hb))

end Sorting

/-! The removal -/

section Removal
variable {α : Type} [DecidableEq α] {arrange : List α → List α} {known : List α}

/-- The arrangement of known nodes does not depend on their order. -/
def Canonical (arrange : List α → List α) (known : List α) : Prop :=
  ∀ l l', l.Perm l' → l ⊆ known → arrange l = arrange l'

variable (harrange : ∀ l, (arrange l).Perm l) (hcanonical : Canonical arrange known)

include harrange in
theorem Removal.relax_known {s : Removal α} {target : α} (hqueue : s.queue ⊆ known) (ht : target ∈ known) :
    (s.relax arrange target).queue ⊆ known := by
  simp only [Removal.relax]
  split
  · intro a ha
    rcases List.mem_append.mp ((harrange _).subset ha) with ha | ha
    · exact hqueue ha
    · exact List.mem_singleton.mp ha ▸ ht
  · exact hqueue

include harrange in
theorem Removal.foldl_known {s : Removal α} {targets : List α} (hqueue : s.queue ⊆ known) (ht : targets ⊆ known) :
    (targets.foldl (Removal.relax arrange) s).queue ⊆ known := by
  induction targets generalizing s with
  | nil => exact hqueue
  | cons target rest ih =>
    rw [List.cons_subset] at ht
    exact ih (Removal.relax_known harrange hqueue ht.1) ht.2

include harrange hcanonical in
theorem Removal.relax_comm {s : Removal α} {a b : α} (hqueue : s.queue ⊆ known) (ha : a ∈ known) (hb : b ∈ known) :
    (s.relax arrange a).relax arrange b = (s.relax arrange b).relax arrange a := by
  by_cases heq : a = b
  · rw [heq]
  · have hswap : arrange (arrange (s.queue ++ [a]) ++ [b]) = arrange (arrange (s.queue ++ [b]) ++ [a]) := by
      apply hcanonical
      · refine ((harrange _).append_right _).trans (.trans ?_ ((harrange _).append_right _).symm)
        rw [List.append_assoc, List.append_assoc]
        exact (List.Perm.swap b a []).append_left _
      · intro c hc
        rcases List.mem_append.mp hc with hc | hc
        · rcases List.mem_append.mp ((harrange _).subset hc) with hc | hc
          · exact hqueue hc
          · exact List.mem_singleton.mp hc ▸ ha
        · exact List.mem_singleton.mp hc ▸ hb
    simp only [Removal.relax, Function.update_of_ne heq, Function.update_of_ne (Ne.symm heq),
      Function.update_comm heq]
    by_cases hzero : s.indegree a - 1 = 0 <;> by_cases hother : s.indegree b - 1 = 0 <;>
      simp only [hzero, hother, if_true, if_false, hswap]

include harrange hcanonical in
theorem Removal.foldl_perm {targets targets' : List α} (hperm : targets.Perm targets') {s : Removal α}
    (hqueue : s.queue ⊆ known) (ht : targets ⊆ known) :
    targets.foldl (Removal.relax arrange) s = targets'.foldl (Removal.relax arrange) s := by
  induction hperm generalizing s with
  | nil => rfl
  | cons a _ ih =>
    rw [List.cons_subset] at ht
    exact ih (Removal.relax_known harrange hqueue ht.1) ht.2
  | swap a b rest =>
    rw [List.cons_subset, List.cons_subset] at ht
    rw [List.foldl_cons, List.foldl_cons, List.foldl_cons, List.foldl_cons,
      Removal.relax_comm harrange hcanonical hqueue ht.1 ht.2.1]
  | trans h _ ih₁ ih₂ => exact (ih₁ hqueue ht).trans (ih₂ hqueue fun _ ha => ht (h.symm.subset ha))

variable {successors successors' : α → List α} (hsuccessors : ∀ a ∈ known, (successors a).Perm (successors' a))
  (hclosed : ∀ a ∈ known, successors a ⊆ known)

include harrange hcanonical hsuccessors hclosed in
theorem Removal.step_perm {s : Removal α} (hqueue : s.queue ⊆ known) :
    s.step arrange successors = s.step arrange successors' := by
  unfold Removal.step
  split
  · rfl
  · next node queue hnext =>
    rw [hnext, List.cons_subset] at hqueue
    exact Removal.foldl_perm harrange hcanonical (hsuccessors node hqueue.1) hqueue.2 (hclosed node hqueue.1)

include harrange hclosed in
theorem Removal.step_known {s : Removal α} (hqueue : s.queue ⊆ known) : (s.step arrange successors).queue ⊆ known := by
  unfold Removal.step
  split
  · exact hqueue
  · next node queue hnext =>
    rw [hnext, List.cons_subset] at hqueue
    exact Removal.foldl_known harrange hqueue.2 (hclosed node hqueue.1)

include harrange hcanonical hsuccessors hclosed in
/-- The run sees the successors of a node as a multiset. -/
theorem Removal.run_perm (rounds : Nat) {s : Removal α} (hqueue : s.queue ⊆ known) :
    s.run arrange successors rounds = s.run arrange successors' rounds := by
  unfold Removal.run
  induction rounds generalizing s with
  | zero => rfl
  | succ rounds ih =>
    rw [Function.iterate_succ_apply, Function.iterate_succ_apply,
      ← Removal.step_perm harrange hcanonical hsuccessors hclosed hqueue]
    exact ih (Removal.step_known harrange hclosed hqueue)

/-- Nothing happens once the queue is empty. -/
theorem Removal.run_done {s : Removal α} {rounds more : Nat} (hdone : (s.run arrange successors rounds).queue = [])
    (hmore : rounds ≤ more) : s.run arrange successors more = s.run arrange successors rounds := by
  induction more, hmore using Nat.le_induction with
  | base => rfl
  | succ more _ ih =>
    have hstep : s.run arrange successors (more + 1) = (s.run arrange successors more).step arrange successors :=
      Function.iterate_succ_apply' _ _ _
    rw [hstep, ih, Removal.step, hdone]

end Removal

/-! Declared graphs -/

section Declared
variable {N κ : Type} [DecidableEq κ] {key : N → κ} {dependencies : N → List κ} {nodes nodes' : List N}

omit [DecidableEq κ] in
theorem dependencyEdges_perm (hperm : nodes.Perm nodes') :
    (dependencyEdges key dependencies nodes).Perm (dependencyEdges key dependencies nodes') :=
  hperm.flatMap_right _

theorem dependentsOf_perm (hperm : nodes.Perm nodes') (k : κ) :
    (dependentsOf key dependencies nodes k).Perm (dependentsOf key dependencies nodes' k) :=
  ((dependencyEdges_perm hperm).filter _).map _

theorem nodeAt_perm (hperm : nodes.Perm nodes') (hunique : (nodes.map key).Nodup) :
    nodeAt key nodes = nodeAt key nodes' := by
  funext k
  apply Option.ext
  intro node
  rw [nodeAt_eq_some hunique, nodeAt_eq_some ((hperm.map key).nodup_iff.mp hunique), hperm.mem_iff]

theorem dependencyCount_perm (hperm : nodes.Perm nodes') (hunique : (nodes.map key).Nodup) :
    dependencyCount key dependencies nodes = dependencyCount key dependencies nodes' := by
  unfold dependencyCount
  rw [nodeAt_perm hperm hunique]

end Declared
end Autolean.Graphs
