import Mathlib

/-! Tables that keep the order in which their keys came, and tallies taken class by class:
their sum is the tally of the whole exactly when no item falls into two classes. -/
namespace Autolean.Machine.Tallies

/-! Tables -/

section Puts
variable {α κ : Type} [DecidableEq κ] {key : α → κ}

/-- An element replaces the one with its key, or comes last. -/
def putBy (key : α → κ) (l : List α) (x : α) : List α :=
  if key x ∈ l.map key then l.map fun y => if key y = key x then x else y else l ++ [x]

theorem foldl_putBy {l added : List α} (h : ((l ++ added).map key).Nodup) : added.foldl (putBy key) l = l ++ added := by
  induction added generalizing l with
  | nil => simp
  | cons x rest ih =>
    have hfresh : key x ∉ l.map key := by
      intro hmem
      rw [List.map_append] at h
      exact List.disjoint_of_nodup_append h hmem (by simp)
    rw [List.foldl_cons, putBy, if_neg hfresh, ih (by simpa using h)]
    simp

end Puts

/-! Tallies -/

section Classes
variable {α β : Type} {r : β → α → Bool} {classes : List β} {items : List α}

/-- Counting class by class is counting the classes of each item. -/
theorem sum_countP_comm (r : β → α → Bool) (classes : List β) (items : List α) :
    (classes.map fun c => items.countP (r c)).sum = (items.map fun x => classes.countP fun c => r c x).sum := by
  induction classes with
  | nil => simp
  | cons c rest ih =>
    have hsplit : ∀ l : List α, (l.map fun x => (c :: rest).countP fun d => r d x).sum =
        l.countP (r c) + (l.map fun x => rest.countP fun d => r d x).sum := by
      intro l
      induction l with
      | nil => rfl
      | cons x l ihl =>
        rw [List.map_cons, List.sum_cons, ihl, List.countP_cons, List.countP_cons, List.map_cons, List.sum_cons]
        omega
    rw [List.map_cons, List.sum_cons, ih, hsplit]

/-- A sum of tallies is the number of the positive ones exactly when none exceeds one. -/
theorem sum_eq_countP_pos (n : α → Nat) (items : List α) :
    items.countP (fun x => 0 < n x) ≤ (items.map n).sum ∧
      ((items.map n).sum = items.countP (fun x => 0 < n x) ↔ ∀ x ∈ items, n x ≤ 1) := by
  induction items with
  | nil => simp
  | cons x rest ih =>
    obtain ⟨hle, hiff⟩ := ih
    have hone : (if decide (0 < n x) = true then 1 else 0) = min (n x) 1 := by
      simp only [decide_eq_true_eq]
      split <;> omega
    rw [List.map_cons, List.sum_cons, List.countP_cons, hone, List.forall_mem_cons, ← hiff]
    constructor <;> omega

theorem countP_le_one_iff {p : β → Bool} (h : classes.Nodup) :
    classes.countP p ≤ 1 ↔ ∀ c ∈ classes, ∀ d ∈ classes, p c = true → p d = true → c = d := by
  classical
  have hcard : classes.countP p = (classes.filter p).toFinset.card := by
    rw [List.toFinset_card_of_nodup (h.filter p), List.countP_eq_length_filter]
  rw [hcard, Finset.card_le_one]
  simp only [List.mem_toFinset, List.mem_filter]
  constructor
  · exact fun hall c hc d hd hpc hpd => hall c ⟨hc, hpc⟩ d ⟨hd, hpd⟩
  · exact fun hall c hc d hd => hall c hc.1 d hd.1 hc.2 hd.2

/-- The tallies of the classes sum up to the number of items in some class exactly when no
item is in two classes. -/
theorem sum_countP_eq_iff (h : classes.Nodup) :
    (classes.map fun c => items.countP (r c)).sum = items.countP (fun x => classes.any fun c => r c x) ↔
      ∀ x ∈ items, ∀ c ∈ classes, ∀ d ∈ classes, r c x = true → r d x = true → c = d := by
  have hany : (fun x => classes.any fun c => r c x) = fun x => decide (0 < classes.countP fun c => r c x) := by
    funext x
    rw [Bool.eq_iff_iff, List.any_eq_true, decide_eq_true_eq, List.countP_pos_iff]
  rw [sum_countP_comm, hany, (sum_eq_countP_pos _ items).2]
  apply forall₂_congr
  intro x _
  exact countP_le_one_iff h

end Classes
end Autolean.Machine.Tallies
