import Mathlib.Data.List.Sort
import Mathlib.Data.List.Nodup

/-! Lists whose elements are told apart by a key: their order says nothing. -/
namespace Autolean.Machine.Keyed
variable {α κ ω : Type}

/-- Sorting by the key forgets the order. -/
theorem insertionSort_perm [LinearOrder κ] (key : α → κ) {a b : List α} (h : a.Perm b) (hkeys : (a.map key).Nodup) :
    (a.insertionSort fun x y => key x ≤ key y) = b.insertionSort fun x y => key x ≤ key y := by
  have ha := List.perm_insertionSort (fun x y => key x ≤ key y) a
  have hb := List.perm_insertionSort (fun x y => key x ≤ key y) b
  refine (ha.trans (h.trans hb.symm)).eq_of_pairwise (fun x y hx hy hxy hyx => ?_)
    (List.pairwise_insertionSort _ _) (List.pairwise_insertionSort _ _)
  have hx' := ha.mem_iff.mp hx
  have hy' := h.mem_iff.mpr (hb.mem_iff.mp hy)
  exact List.inj_on_of_nodup_map hkeys hx' hy' (le_antisymm hxy hyx)

/-- What is in the order of its keys has been sorted. -/
theorem eq_insertionSort [LinearOrder κ] (key : α → κ) {a b : List α} (h : a.Perm b) (hkeys : (a.map key).Nodup)
    (hsorted : a.Pairwise fun x y => key x ≤ key y) : a = b.insertionSort fun x y => key x ≤ key y := by
  rw [← insertionSort_perm key h hkeys]
  exact hsorted.insertionSort_eq.symm

variable [DecidableEq κ]

/-- The element with a key is found wherever it stands. -/
theorem find?_eq_some {key : α → κ} {l : List α} (hkeys : (l.map key).Nodup) {k : κ} {x : α} :
    (l.find? fun y => key y = k) = some x ↔ x ∈ l ∧ key x = k := by
  constructor
  · intro h
    exact ⟨List.mem_of_find?_eq_some h, of_decide_eq_true (List.find?_some (p := fun y => decide (key y = k)) h)⟩
  · rintro ⟨hx, hk⟩
    cases hfound : l.find? fun y => key y = k with
    | none => exact absurd hk (by simpa using List.find?_eq_none.mp hfound x hx)
    | some y =>
      have hy : key y = k := of_decide_eq_true (List.find?_some (p := fun y => decide (key y = k)) hfound)
      exact congrArg some (List.inj_on_of_nodup_map hkeys (List.mem_of_find?_eq_some hfound) hx (hy.trans hk.symm))

theorem find?_perm (key : α → κ) {a b : List α} (h : a.Perm b) (hkeys : (a.map key).Nodup) (k : κ) :
    (a.find? fun x => key x = k) = b.find? fun x => key x = k := by
  apply Option.ext
  intro x
  have hb : (b.map key).Nodup := (h.map key).nodup_iff.mp hkeys
  rw [find?_eq_some hkeys, find?_eq_some hb, h.mem_iff]

/-- Only one element passes. -/
theorem filter_eq_singleton [DecidableEq α] {l : List α} {p : α → Bool} {x : α} (hl : l.Nodup) (hx : x ∈ l)
    (hp : ∀ y ∈ l, p y = true ↔ y = x) : l.filter p = [x] := by
  have hcongr : l.filter p = l.filter (· == x) := by
    apply List.filter_congr
    intro y hy
    rw [Bool.eq_iff_iff, hp y hy, beq_iff_eq]
  rw [hcongr, List.filter_beq, List.count_eq_one_of_mem hl hx]
  rfl

variable [BEq κ] [LawfulBEq κ]

theorem lookup_cons (f : κ × ω) (d : List (κ × ω))
    (k : κ) : List.lookup k (f :: d) = if k = f.1 then some f.2 else d.lookup k := by
  by_cases h : k = f.1
  · rw [if_pos h, List.lookup_cons, beq_iff_eq.mpr h]
  · rw [if_neg h, List.lookup_cons, beq_eq_false_iff_ne.mpr h]

theorem lookup_perm {d e : List (κ × ω)} (h : d.Perm e) (hd : (d.map Prod.fst).Nodup) (k : κ) : d.lookup k = e.lookup k := by
  induction h with
  | nil => rfl
  | cons f _ ih => rw [lookup_cons, lookup_cons, ih (List.nodup_cons.mp hd).2]
  | swap f g d =>
    have hne : g.1 ≠ f.1 := fun e => (List.nodup_cons.mp hd).1 (List.mem_cons.mpr (.inl e))
    simp only [lookup_cons]
    split_ifs with hg hf
    · exact absurd (hg.symm.trans hf) hne
    all_goals rfl
  | trans h _ ih₁ ih₂ => rw [ih₁ hd, ih₂ ((h.map Prod.fst).nodup_iff.mp hd)]

theorem lookup_of_mem {d : List (κ × ω)} {k : κ} (h : k ∈ d.map Prod.fst) : ∃ v, d.lookup k = some v := by
  induction d with
  | nil => cases h
  | cons f d ih =>
    rw [lookup_cons]
    split_ifs with hhead
    · exact ⟨f.2, rfl⟩
    · exact ih ((List.mem_cons.mp h).resolve_left hhead)

theorem lookup_eq_some {d : List (κ × ω)} (hd : (d.map Prod.fst).Nodup) {k : κ} {v : ω} : d.lookup k = some v ↔ (k, v) ∈ d := by
  induction d with
  | nil => simp
  | cons f d ih =>
    obtain ⟨hnot, hnodup⟩ := List.nodup_cons.mp hd
    rw [lookup_cons, List.mem_cons]
    split_ifs with hhead
    · subst hhead
      constructor
      · rintro ⟨⟩
        exact .inl rfl
      · rintro (heq | hmem)
        · rw [← heq]
        · exact absurd (List.mem_map_of_mem hmem) hnot
    · rw [ih hnodup]
      refine ⟨.inr, fun h => h.resolve_left ?_⟩
      rintro rfl
      exact hhead rfl

theorem lookup_map {ψ : Type} (f : ω → ψ) (d : List (κ × ω)) (k : κ) :
    (d.map fun p => (p.1, f p.2)).lookup k = (d.lookup k).map f := by
  induction d with
  | nil => rfl
  | cons p d ih =>
    rw [List.map_cons, lookup_cons, lookup_cons, ih]
    split_ifs <;> rfl

theorem lookup_filter (kept : κ → Bool) (d : List (κ × ω)) (k : κ) :
    (d.filter fun p => kept p.1).lookup k = if kept k then d.lookup k else none := by
  induction d with
  | nil => simp
  | cons p d ih =>
    rw [List.filter_cons, lookup_cons]
    by_cases hp : kept p.1 = true
    · rw [if_pos hp, lookup_cons, ih]
      split_ifs with hk hkept <;> simp_all
    · rw [if_neg hp, ih]
      split_ifs with hk hkept <;> simp_all

/-- The list is made of what is found under its keys. -/
theorem map_lookup {d : List (κ × ω)} (hd : (d.map Prod.fst).Nodup) (default : ω) :
    (d.map Prod.fst).map (fun k => (k, (d.lookup k).getD default)) = d := by
  induction d with
  | nil => rfl
  | cons f d ih =>
    obtain ⟨hnot, hnodup⟩ := List.nodup_cons.mp hd
    have hrest : ∀ k ∈ d.map Prod.fst, (k, (List.lookup k (f :: d)).getD default) = (k, (d.lookup k).getD default) := by
      intro k hk
      rw [lookup_cons, if_neg]
      rintro rfl
      exact hnot hk
    have hhead : (f.1, (List.lookup f.1 (f :: d)).getD default) = f := by
      rw [lookup_cons, if_pos rfl]
      rfl
    exact congrArg₂ List.cons hhead ((List.map_congr_left hrest).trans (ih hnodup))

end Autolean.Machine.Keyed
