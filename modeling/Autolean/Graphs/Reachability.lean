import Mathlib

/-! Two searches of a finite graph: one marks a node when it is taken from the pending ones,
the other when it is put there. Both end, and both mark exactly what the start reaches. -/
namespace Autolean.Graphs
open Relation

section Closed
variable {α : Type} {r : α → α → Prop}

/-- A set that is closed under edges holds whatever its members reach. -/
theorem mem_of_reach (closed : α → Prop) (hclosed : ∀ a b, closed a → r a b → closed b) {a b : α} (ha : closed a)
    (hreach : ReflTransGen r a b) : closed b := by
  induction hreach with
  | refl => exact ha
  | tail _ hr ih => exact hclosed _ _ ih hr

end Closed

variable {α : Type} [DecidableEq α] {nodes : Finset α} {successors : α → List α}

/-! Marking on taking -/

/-- The marked nodes and the pending ones, the next one first. -/
structure Visit (α : Type) where
  seen : List α
  pending : List α

/-- The next pending node is skipped when it is marked or excluded; otherwise it is marked
and its successors are pending before the others. -/
def Visit.step (successors : α → List α) (excluded : α → Bool) (s : Visit α) : Visit α :=
  match s.pending with
  | [] => s
  | node :: rest =>
    if node ∈ s.seen ∨ excluded node = true then { s with pending := rest }
    else ⟨node :: s.seen, (successors node).reverse ++ rest⟩

def Visit.run (successors : α → List α) (excluded : α → Bool) (fuel : Nat) (s : Visit α) : Visit α :=
  (Visit.step successors excluded)^[fuel] s

/-- The most steps the search still takes. -/
def Visit.potential (nodes : Finset α) (successors : α → List α) (s : Visit α) : Nat :=
  s.pending.length + ∑ a ∈ nodes \ s.seen.toFinset, (successors a).length

/-- What every step of the search keeps: marked and pending nodes are reached from the
start, and a successor of a marked node is marked, pending or excluded. -/
structure Visiting (nodes : Finset α) (successors : α → List α) (excluded : α → Bool) (start : List α) (s : Visit α) : Prop where
  nodup : s.seen.Nodup
  allowed : ∀ a ∈ s.seen, excluded a = false
  known : ∀ a ∈ s.seen ++ s.pending, a ∈ nodes
  reached : ∀ a ∈ s.seen ++ s.pending, ∃ b ∈ start, ReflTransGen (fun c d => d ∈ successors c) b a
  started : ∀ a ∈ start, a ∈ s.seen ∨ a ∈ s.pending ∨ excluded a = true
  followed : ∀ a ∈ s.seen, ∀ b ∈ successors a, b ∈ s.seen ∨ b ∈ s.pending ∨ excluded b = true

variable {excluded : α → Bool} {start : List α} {s : Visit α}

omit [DecidableEq α] in
theorem Visiting.initial (hstart : ∀ a ∈ start, a ∈ nodes) : Visiting nodes successors excluded start ⟨[], start.reverse⟩ where
  nodup := List.nodup_nil
  allowed := by simp
  known a ha := hstart a (by simpa using ha)
  reached a ha := ⟨a, by simpa using ha, .refl⟩
  started a ha := by simp [ha]
  followed := by simp

theorem Visiting.step (hknown : ∀ a ∈ nodes, ∀ b ∈ successors a, b ∈ nodes) (h : Visiting nodes successors excluded start s) :
    Visiting nodes successors excluded start (s.step successors excluded) := by
  unfold Visit.step
  split
  · exact h
  · next node rest hpending =>
    have hnode : node ∈ s.seen ++ s.pending := by simp [hpending]
    split
    · next hskip =>
      have hkeep : ∀ b, b ∈ s.seen ∨ b ∈ s.pending ∨ excluded b = true → b ∈ s.seen ∨ b ∈ rest ∨ excluded b = true := by
        intro b hb
        rw [hpending, List.mem_cons] at hb
        rcases hb with hb | (rfl | hb) | hb
        · exact .inl hb
        · exact hskip.imp_right .inr
        · exact .inr (.inl hb)
        · exact .inr (.inr hb)
      have hfewer : ∀ a ∈ s.seen ++ rest, a ∈ s.seen ++ s.pending := by
        intro a ha
        rw [hpending]
        simp only [List.mem_append, List.mem_cons] at ha ⊢
        tauto
      exact ⟨h.nodup, h.allowed, fun a ha => h.known a (hfewer a ha), fun a ha => h.reached a (hfewer a ha),
        fun a ha => hkeep a (h.started a ha), fun a ha b hb => hkeep b (h.followed a ha b hb)⟩
    · next hnew =>
      rw [not_or, Bool.not_eq_true] at hnew
      have hcases : ∀ a ∈ (node :: s.seen) ++ ((successors node).reverse ++ rest), a ∈ s.seen ++ s.pending ∨
        a ∈ successors node := by
        intro a ha
        rw [hpending]
        simp only [List.cons_append, List.mem_cons, List.mem_append, List.mem_reverse] at ha ⊢
        tauto
      have hkeep : ∀ b, b ∈ s.seen ∨ b ∈ s.pending ∨ excluded b = true →
          b ∈ node :: s.seen ∨ b ∈ (successors node).reverse ++ rest ∨ excluded b = true := by
        intro b hb
        rw [hpending] at hb
        simp only [List.mem_cons, List.mem_append, List.mem_reverse] at hb ⊢
        tauto
      constructor
      · exact List.nodup_cons.mpr ⟨hnew.1, h.nodup⟩
      · exact List.forall_mem_cons.mpr ⟨hnew.2, h.allowed⟩
      · intro a ha
        rcases hcases a ha with ha | ha
        · exact h.known a ha
        · exact hknown node (h.known node hnode) a ha
      · intro a ha
        rcases hcases a ha with ha | ha
        · exact h.reached a ha
        · obtain ⟨b, hb, hreach⟩ := h.reached node hnode
          exact ⟨b, hb, hreach.tail ha⟩
      · exact fun a ha => hkeep a (h.started a ha)
      · intro a ha b hb
        rcases List.mem_cons.mp ha with rfl | ha
        · exact .inr (.inl (List.mem_append_left _ (List.mem_reverse.mpr hb)))
        · exact hkeep b (h.followed a ha b hb)

theorem Visiting.run (hknown : ∀ a ∈ nodes, ∀ b ∈ successors a, b ∈ nodes) (h : Visiting nodes successors excluded start s)
    (fuel : Nat) : Visiting nodes successors excluded start (s.run successors excluded fuel) := by
  unfold Visit.run
  induction fuel with
  | zero => exact h
  | succ fuel ih =>
    rw [Function.iterate_succ_apply']
    exact ih.step hknown

theorem Visit.step_done (h : s.pending = []) : s.step successors excluded = s := by
  unfold Visit.step
  rw [h]

theorem Visiting.step_potential (h : Visiting nodes successors excluded start s) (hpending : s.pending ≠ []) :
    (s.step successors excluded).potential nodes successors + 1 ≤ s.potential nodes successors := by
  unfold Visit.step
  split
  · next hnone => exact absurd hnone hpending
  · next node rest hnext =>
    split
    · simp only [Visit.potential, hnext, List.length_cons]
      omega
    · next hnew =>
      rw [not_or] at hnew
      have hmem : node ∈ nodes \ s.seen.toFinset := by
        simp [hnew.1, h.known node (by simp [hnext])]
      have hsplit : nodes \ (node :: s.seen).toFinset = (nodes \ s.seen.toFinset).erase node := by
        ext a
        simp only [List.toFinset_cons, Finset.mem_sdiff, Finset.mem_insert, List.mem_toFinset, Finset.mem_erase]
        tauto
      have hsum := Finset.sum_erase_add _ (fun a => (successors a).length) hmem
      simp only [Visit.potential, hnext, hsplit, List.length_append, List.length_reverse, List.length_cons]
      omega

/-- The search ends within the steps its potential allows. -/
theorem Visiting.exhausted (hknown : ∀ a ∈ nodes, ∀ b ∈ successors a, b ∈ nodes)
    (h : Visiting nodes successors excluded start s) {fuel : Nat} (hfuel : s.potential nodes successors ≤ fuel) :
    (s.run successors excluded fuel).pending = [] := by
  have hprogress : ∀ n, (s.run successors excluded n).pending = [] ∨
      (s.run successors excluded n).potential nodes successors + n ≤ s.potential nodes successors := by
    intro n
    induction n with
    | zero => exact .inr le_rfl
    | succ n ih =>
      by_cases hpending : (s.run successors excluded n).pending = []
      · refine .inl ?_
        unfold Visit.run at hpending ⊢
        rw [Function.iterate_succ_apply', Visit.step_done hpending, hpending]
      · have hstep := (h.run hknown n).step_potential hpending
        have hle := ih.resolve_left hpending
        refine .inr ?_
        unfold Visit.run at hstep hle ⊢
        rw [Function.iterate_succ_apply']
        omega
  rcases hprogress fuel with hdone | hle
  · exact hdone
  · apply List.eq_nil_of_length_eq_zero
    have hpending : (s.run successors excluded fuel).pending.length ≤
        (s.run successors excluded fuel).potential nodes successors :=
      Nat.le_add_right _ _
    omega

omit [DecidableEq α] in
/-- The marked nodes are what the start reaches, but for the excluded ones; these must not
lead further than the start does. -/
theorem Visiting.mem_seen_iff (h : Visiting nodes successors excluded start s) (hpending : s.pending = [])
    (hexcluded : ∀ a, excluded a = true → ∀ b ∈ successors a, b ∈ start) {a : α} :
    a ∈ s.seen ↔ excluded a = false ∧ ∃ b ∈ start, ReflTransGen (fun c d => d ∈ successors c) b a := by
  have hstarted : ∀ b ∈ start, b ∈ s.seen ∨ excluded b = true := by
    intro b hb
    simpa [hpending] using h.started b hb
  constructor
  · intro ha
    exact ⟨h.allowed a ha, h.reached a (List.mem_append_left _ ha)⟩
  · rintro ⟨hallowed, b, hb, hreach⟩
    have hclosed : ∀ c d, c ∈ s.seen ∨ excluded c = true → d ∈ successors c → d ∈ s.seen ∨ excluded d = true := by
      rintro c d (hc | hc) hd
      · simpa [hpending] using h.followed c hc d hd
      · exact hstarted d (hexcluded c hc d hd)
    rcases mem_of_reach (fun c => c ∈ s.seen ∨ excluded c = true) hclosed (hstarted b hb) hreach with ha | ha
    · exact ha
    · rw [hallowed] at ha
      cases ha

/-! Marking on putting -/

/-- The marked nodes and the queue of those whose successors are still to be looked at. -/
structure Spread (α : Type) where
  marked : List α
  queue : List α

def Spread.mark (s : Spread α) (node : α) : Spread α :=
  if node ∈ s.marked then s else ⟨s.marked ++ [node], s.queue ++ [node]⟩

/-- The unmarked successors of the first node of the queue are marked and queued. -/
def Spread.step (successors : α → List α) (s : Spread α) : Spread α :=
  match s.queue with
  | [] => s
  | node :: queue => (successors node).foldl Spread.mark { s with queue := queue }

def Spread.run (successors : α → List α) (fuel : Nat) (s : Spread α) : Spread α := (Spread.step successors)^[fuel] s

/-- The state while the successors `due` of a node that left the queue are still to be marked. -/
structure Spreading (nodes : Finset α) (successors : α → List α) (start due : List α) (s : Spread α) : Prop where
  nodup : s.marked.Nodup
  known : ∀ a ∈ s.marked, a ∈ nodes
  queued : ∀ a ∈ s.queue, a ∈ s.marked
  reached : ∀ a ∈ s.marked, ∃ b ∈ start, ReflTransGen (fun c d => d ∈ successors c) b a
  started : ∀ a ∈ start, a ∈ s.marked
  followed : ∀ a ∈ s.marked, a ∈ s.queue ∨ ∀ b ∈ successors a, b ∈ s.marked ∨ b ∈ due

variable {t : Spread α}

omit [DecidableEq α] in
theorem Spreading.initial (hnodup : start.Nodup) (hstart : ∀ a ∈ start, a ∈ nodes) {queue : List α} (hqueue : queue.Perm start) :
    Spreading nodes successors start [] ⟨start, queue⟩ where
  nodup := hnodup
  known := hstart
  queued _ ha := hqueue.mem_iff.mp ha
  reached a ha := ⟨a, ha, .refl⟩
  started _ ha := ha
  followed _ ha := .inl (hqueue.mem_iff.mpr ha)

theorem Spreading.mark {node : α} {due : List α} (h : Spreading nodes successors start (node :: due) t) (hnode : node ∈ nodes)
    (hreach : ∃ b ∈ start, ReflTransGen (fun c d => d ∈ successors c) b node) :
    Spreading nodes successors start due (t.mark node) ∧
      (t.mark node).queue.length + t.marked.length = t.queue.length + (t.mark node).marked.length := by
  unfold Spread.mark
  split
  · next hmarked =>
    refine ⟨⟨h.nodup, h.known, h.queued, h.reached, h.started, ?_⟩, rfl⟩
    intro a ha
    refine (h.followed a ha).imp_right fun hdue b hb => ?_
    rcases hdue b hb with hb | hb
    · exact .inl hb
    · rcases List.mem_cons.mp hb with rfl | hb
      · exact .inl hmarked
      · exact .inr hb
  · next hnew =>
    constructor
    · constructor
      · exact (List.perm_append_singleton _ _).nodup_iff.mpr (List.nodup_cons.mpr ⟨hnew, h.nodup⟩)
      · intro a ha
        rcases List.mem_append.mp ha with ha | ha
        · exact h.known a ha
        · exact List.mem_singleton.mp ha ▸ hnode
      · intro a ha
        rcases List.mem_append.mp ha with ha | ha
        · exact List.mem_append_left _ (h.queued a ha)
        · exact List.mem_append_right _ ha
      · intro a ha
        rcases List.mem_append.mp ha with ha | ha
        · exact h.reached a ha
        · exact List.mem_singleton.mp ha ▸ hreach
      · exact fun a ha => List.mem_append_left _ (h.started a ha)
      · intro a ha
        rcases List.mem_append.mp ha with ha | ha
        · refine (h.followed a ha).imp (List.mem_append_left _) fun hdue b hb => ?_
          rcases hdue b hb with hb | hb
          · exact .inl (List.mem_append_left _ hb)
          · rcases List.mem_cons.mp hb with rfl | hb
            · exact .inl (List.mem_append_right _ List.mem_cons_self)
            · exact .inr hb
        · exact .inl (List.mem_append_right _ ha)
    · simp only [List.length_append, List.length_singleton]
      omega

theorem Spreading.foldl {due : List α} (h : Spreading nodes successors start due t) (hdue : ∀ a ∈ due, a ∈ nodes)
    (hreach : ∀ a ∈ due, ∃ b ∈ start, ReflTransGen (fun c d => d ∈ successors c) b a) :
    Spreading nodes successors start [] (due.foldl Spread.mark t) ∧
      (due.foldl Spread.mark t).queue.length + t.marked.length = t.queue.length + (due.foldl Spread.mark t).marked.length := by
  induction due generalizing t with
  | nil => exact ⟨h, rfl⟩
  | cons node due ih =>
    obtain ⟨hmark, hlength⟩ := h.mark (hdue node List.mem_cons_self) (hreach node List.mem_cons_self)
    obtain ⟨hrest, hrestLength⟩ := ih hmark (fun a ha => hdue a (List.mem_cons_of_mem _ ha))
      fun a ha => hreach a (List.mem_cons_of_mem _ ha)
    refine ⟨hrest, ?_⟩
    rw [List.foldl_cons]
    omega

theorem Spread.step_done (h : t.queue = []) : t.step successors = t := by
  unfold Spread.step
  rw [h]

/-- One step keeps the invariant; as many nodes as it marks are queued, and one leaves the queue. -/
theorem Spreading.step (hknown : ∀ a ∈ nodes, ∀ b ∈ successors a, b ∈ nodes) (h : Spreading nodes successors start [] t) :
    Spreading nodes successors start [] (t.step successors) ∧ (t.queue ≠ [] →
      (t.step successors).queue.length + t.marked.length + 1 = t.queue.length + (t.step successors).marked.length) := by
  unfold Spread.step
  split
  · next hqueue => exact ⟨h, fun hne => absurd hqueue hne⟩
  · next node queue hqueue =>
    have hnode : node ∈ t.marked := h.queued node (by simp [hqueue])
    obtain ⟨b, hb, hreach⟩ := h.reached node hnode
    have hstart : Spreading nodes successors start (successors node) { t with queue := queue } := by
      refine ⟨h.nodup, h.known, fun a ha => h.queued a (by simp [hqueue, ha]), h.reached, h.started, ?_⟩
      intro a ha
      have hfollowed := h.followed a ha
      rw [hqueue, List.mem_cons] at hfollowed
      rcases hfollowed with (rfl | ha') | hfollowed
      · exact .inr fun b hb => .inr hb
      · exact .inl ha'
      · refine .inr fun b hb => ?_
        rcases hfollowed b hb with hb | hb
        · exact .inl hb
        · cases hb
    obtain ⟨hend, hlength⟩ := hstart.foldl (fun a ha => hknown node (h.known node hnode) a ha)
      fun a ha => ⟨b, hb, hreach.tail ha⟩
    refine ⟨hend, fun _ => ?_⟩
    simp only [hqueue, List.length_cons] at hlength ⊢
    omega

theorem Spreading.run (hknown : ∀ a ∈ nodes, ∀ b ∈ successors a, b ∈ nodes) (h : Spreading nodes successors start [] t)
    (fuel : Nat) : Spreading nodes successors start [] (t.run successors fuel) := by
  unfold Spread.run
  induction fuel with
  | zero => exact h
  | succ fuel ih =>
    rw [Function.iterate_succ_apply']
    exact (ih.step hknown).1

theorem Spreading.length_le (h : Spreading nodes successors start [] t) : t.marked.length ≤ nodes.card := by
  rw [← List.toFinset_card_of_nodup h.nodup]
  apply Finset.card_le_card
  intro a ha
  exact h.known a (List.mem_toFinset.mp ha)

/-- The search ends: one step for each node empties the queue it starts with. -/
theorem Spreading.exhausted (hknown : ∀ a ∈ nodes, ∀ b ∈ successors a, b ∈ nodes) (h : Spreading nodes successors start [] t)
    (hqueue : t.queue.length ≤ t.marked.length) {fuel : Nat} (hfuel : nodes.card ≤ fuel) :
      (t.run successors fuel).queue = [] := by
  have hprogress : ∀ n, (t.run successors n).queue = [] ∨
      (t.run successors n).queue.length + n ≤ (t.run successors n).marked.length := by
    intro n
    induction n with
    | zero => exact .inr hqueue
    | succ n ih =>
      by_cases hdone : (t.run successors n).queue = []
      · refine .inl ?_
        unfold Spread.run at hdone ⊢
        rw [Function.iterate_succ_apply', Spread.step_done hdone, hdone]
      · have hstep := ((h.run hknown n).step hknown).2 hdone
        have hle := ih.resolve_left hdone
        refine .inr ?_
        unfold Spread.run at hstep hle ⊢
        rw [Function.iterate_succ_apply']
        omega
  rcases hprogress fuel with hdone | hle
  · exact hdone
  · have hmarked := (h.run hknown fuel).length_le
    apply List.eq_nil_of_length_eq_zero
    omega

omit [DecidableEq α] in
/-- The marked nodes are those the start reaches. -/
theorem Spreading.mem_marked_iff (h : Spreading nodes successors start [] t) (hqueue : t.queue = []) {a : α} :
    a ∈ t.marked ↔ ∃ b ∈ start, ReflTransGen (fun c d => d ∈ successors c) b a := by
  constructor
  · exact h.reached a
  · rintro ⟨b, hb, hreach⟩
    apply mem_of_reach (fun c => c ∈ t.marked) _ (h.started b hb) hreach
    intro c d hc hd
    have hfollowed := h.followed c hc
    rw [hqueue] at hfollowed
    rcases hfollowed with hc | hfollowed
    · cases hc
    · rcases hfollowed d hd with hd | hd
      · exact hd
      · cases hd

end Autolean.Graphs
