import Mathlib.Data.List.Sort
import Mathlib.Data.List.Nodup
import Mathlib.Data.List.Perm.Basic
import Mathlib.Data.List.Forall2
import Autolean.Machine.Keyed

/-! One element is kept for each key, the kept ones are ranked, and they are taken in that order
while they fit. What is taken depends on the keys alone. -/
namespace Autolean.Machine.Selection
variable {α β κ : Type}

/-! One element for each key -/

section Store
variable [DecidableEq κ]

/-- `d.setdefault(key, value)`. -/
def setDefault (d : List (κ × α)) (k : κ) (v : α) : List (κ × α) := if k ∈ d.map Prod.fst then d else d ++ [(k, v)]

theorem nodup_setDefault {d : List (κ × α)} (h : (d.map Prod.fst).Nodup) (k : κ) (v : α) :
    ((setDefault d k v).map Prod.fst).Nodup := by
  rw [setDefault]
  split_ifs with hk
  · exact h
  · rw [List.map_append]
    exact h.append (List.nodup_singleton k) (List.disjoint_singleton.mpr hk)

theorem mem_setDefault {d : List (κ × α)} {k : κ} {v : α} {f : κ × α} (h : f ∈ setDefault d k v) :
    f ∈ d ∨ f = (k, v) := by
  rw [setDefault] at h
  split_ifs at h
  · exact .inl h
  · exact (List.mem_append.mp h).imp_right List.mem_singleton.mp

theorem mem_keys_setDefault (d : List (κ × α)) (k : κ) (v : α) {k' : κ} :
    k' ∈ (setDefault d k v).map Prod.fst ↔ k' ∈ d.map Prod.fst ∨ k' = k := by
  rw [setDefault]
  split_ifs with hk
  · exact ⟨.inl, fun h => h.elim id fun e => e ▸ hk⟩
  · rw [List.map_append, List.mem_append, List.map_singleton, List.mem_singleton]

/-- Of the elements with one key, the first is kept. -/
def firstOf (key : α → κ) (l : List α) : List (κ × α) := l.foldl (fun d v => setDefault d (key v) v) []

/-- What each step keeps, the whole pass keeps. -/
theorem firstOf_induct (key : α → κ) (l : List α) {P : List (κ × α) → Prop} (start : P [])
    (step : ∀ d, ∀ v ∈ l, P d → P (setDefault d (key v) v)) : P (firstOf key l) :=
  List.foldlRecOn l _ start fun d h v hv => step d v hv h

theorem nodup_firstOf (key : α → κ) (l : List α) : ((firstOf key l).map Prod.fst).Nodup := by
  apply firstOf_induct key l (P := fun d => (d.map Prod.fst).Nodup)
  · exact List.nodup_nil
  · intro d v _ h
    exact nodup_setDefault h (key v) v

theorem mem_firstOf (key : α → κ) (l : List α) : ∀ f ∈ firstOf key l, f.2 ∈ l ∧ f.1 = key f.2 := by
  apply firstOf_induct key l (P := fun d => ∀ f ∈ d, f.2 ∈ l ∧ f.1 = key f.2)
  · simp
  · intro d v hv h f hf
    obtain hf | rfl := mem_setDefault hf
    · exact h f hf
    · exact ⟨hv, rfl⟩

theorem mem_keys_firstOf (key : α → κ) (l : List α) {k : κ} : k ∈ (firstOf key l).map Prod.fst ↔ k ∈ l.map key := by
  have hrun : ∀ d : List (κ × α), k ∈ (l.foldl (fun d v => setDefault d (key v) v) d).map Prod.fst ↔
      k ∈ d.map Prod.fst ∨ k ∈ l.map key := by
    induction l with
    | nil => simp
    | cons v l ih =>
      intro d
      rw [List.foldl_cons, ih, mem_keys_setDefault, or_assoc, List.map_cons, List.mem_cons]
  rw [firstOf, hrun []]
  exact or_iff_right (List.not_mem_nil)

end Store

/-! Ranking -/

/-- The ranks in order are the same when the same ranks occur. -/
theorem ranks_eq [LinearOrder κ] (rank : α → κ) (rank' : β → κ) {a : List α} {b : List β} (ha : (a.map rank).Nodup)
    (hb : (b.map rank').Nodup) (h : ∀ k, k ∈ a.map rank ↔ k ∈ b.map rank') :
    (a.insertionSort fun x y => rank x ≤ rank y).map rank =
      (b.insertionSort fun x y => rank' x ≤ rank' y).map rank' := by
  have hperm : (a.map rank).Perm (b.map rank') := (List.perm_ext_iff_of_nodup ha hb).mpr h
  have hsame := Keyed.insertionSort_perm id hperm (by rwa [List.map_id])
  rw [List.map_insertionSort _ (· ≤ ·) rank a fun _ _ _ _ => Iff.rfl,
    List.map_insertionSort _ (· ≤ ·) rank' b fun _ _ _ _ => Iff.rfl]
  exact hsame

/-- Elements of one rank stand in the same places. -/
theorem forall₂_of_ranks {rank : α → κ} {rank' : β → κ} {a : List α} {b : List β} (h : a.map rank = b.map rank')
    {R : α → β → Prop} (hR : ∀ x ∈ a, ∀ y ∈ b, rank x = rank' y → R x y) : List.Forall₂ R a b := by
  induction a generalizing b with
  | nil =>
    rw [List.map_nil, eq_comm, List.map_eq_nil_iff] at h
    rw [h]
    exact .nil
  | cons x a ih =>
    cases b with
    | nil => cases h
    | cons y b =>
      obtain ⟨hhead, htail⟩ := List.cons_eq_cons.mp h
      exact .cons (hR x List.mem_cons_self y List.mem_cons_self hhead)
        (ih htail fun x' hx y' hy => hR x' (List.mem_cons_of_mem _ hx) y' (List.mem_cons_of_mem _ hy))

/-! Taking what fits -/

section Taking
variable (full fits : List α → Bool)

/-- Elements are taken one by one where they fit with those taken before, until there are enough. -/
def takeFitting (taken : List α) : List α → List α
  | [] => taken
  | c :: rest =>
    if full taken then taken
    else if fits (taken ++ [c]) then takeFitting (taken ++ [c]) rest
    else takeFitting taken rest

variable {full fits}

theorem takeFitting_full {taken : List α} (h : full taken = true) (l : List α) :
    takeFitting full fits taken l = taken := by
  cases l with
  | nil => rfl
  | cons c l => rw [takeFitting, if_pos h]

/-- What holds at the start and is kept by taking one that fits holds at the end. -/
theorem takeFitting_induct {P : List α → Prop}
    (step : ∀ taken c, full taken = false → fits (taken ++ [c]) = true → P taken → P (taken ++ [c])) {taken : List α}
    (start : P taken) (l : List α) : P (takeFitting full fits taken l) := by
  induction l generalizing taken with
  | nil => exact start
  | cons c l ih =>
    rw [takeFitting]
    split_ifs with hfull hfits
    · exact start
    · exact ih (step taken c (Bool.eq_false_of_not_eq_true hfull) hfits start)
    · exact ih start

variable (full) in
/-- What fitted at the start fits at the end. -/
theorem takeFitting_fits {taken : List α} (h : fits taken = true) (l : List α) :
    fits (takeFitting full fits taken l) = true :=
  takeFitting_induct (P := fun taken => fits taken = true) (fun _ _ _ hfits _ => hfits) h l

variable (full fits) in
/-- The choice goes on from what has been taken, in the order of what is offered. -/
theorem takeFitting_extends (taken l : List α) :
    ∃ more, takeFitting full fits taken l = taken ++ more ∧ more.Sublist l := by
  induction l generalizing taken with
  | nil => exact ⟨[], (List.append_nil taken).symm, .refl _⟩
  | cons c l ih =>
    rw [takeFitting]
    split_ifs
    · exact ⟨[], (List.append_nil taken).symm, List.nil_sublist _⟩
    · obtain ⟨more, he, hsub⟩ := ih (taken ++ [c])
      refine ⟨c :: more, ?_, hsub.cons_cons c⟩
      rw [he, List.append_assoc, List.singleton_append]
    · obtain ⟨more, he, hsub⟩ := ih taken
      exact ⟨more, he, hsub.cons c⟩

theorem takeFitting_append (taken front back : List α) :
    takeFitting full fits taken (front ++ back) = takeFitting full fits (takeFitting full fits taken front) back := by
  induction front generalizing taken with
  | nil => rfl
  | cons c front ih =>
    rw [List.cons_append, takeFitting, takeFitting]
    split_ifs with hfull
    · exact (takeFitting_full hfull back).symm
    · exact ih _
    · exact ih _

/-- An element that was passed over stood at a turn where there were enough, or it did not fit. -/
theorem takeFitting_skipped {front back : List α} {c : α} (h : c ∉ takeFitting full fits [] (front ++ c :: back)) :
    ∃ before after, takeFitting full fits [] (front ++ c :: back) = before ++ after ∧
      before.Sublist front ∧ after.Sublist back ∧ (full before = true ∨ fits (before ++ [c]) = false) := by
  obtain ⟨before, hbefore, hfront⟩ := takeFitting_extends full fits [] front
  rw [List.nil_append] at hbefore
  rw [takeFitting_append, hbefore] at h ⊢
  rw [takeFitting] at h ⊢
  split_ifs at h ⊢ with hfull hfits
  · exact ⟨before, [], (List.append_nil before).symm, hfront, List.nil_sublist back, .inl hfull⟩
  · obtain ⟨more, hmore, -⟩ := takeFitting_extends full fits (before ++ [c]) back
    rw [hmore] at h
    exact absurd (List.mem_append_left more (List.mem_append_right before (List.mem_singleton.mpr rfl))) h
  · obtain ⟨after, hafter, hback⟩ := takeFitting_extends full fits before back
    exact ⟨before, after, hafter, hfront, hback, .inr (Bool.eq_false_of_not_eq_true hfits)⟩

/-- Choices that cannot tell two offers apart take the same places of them. -/
theorem takeFitting_forall₂ {full' fits' : List β → Bool} {R : α → β → Prop}
    (hfull : ∀ a b, List.Forall₂ R a b → full a = full' b) (hfits : ∀ a b, List.Forall₂ R a b → fits a = fits' b)
    {taken : List α} {taken' : List β} (htaken : List.Forall₂ R taken taken') {l : List α} {l' : List β}
    (h : List.Forall₂ R l l') :
    List.Forall₂ R (takeFitting full fits taken l) (takeFitting full' fits' taken' l') := by
  induction h generalizing taken taken' with
  | nil => exact htaken
  | @cons c c' l l' hc _ ih =>
    have hmore : List.Forall₂ R (taken ++ [c]) (taken' ++ [c']) := List.rel_append htaken (.cons hc .nil)
    rw [takeFitting, takeFitting, hfull taken taken' htaken, hfits _ _ hmore]
    split_ifs
    · exact htaken
    · exact ih hmore
    · exact ih htaken

end Taking

end Autolean.Machine.Selection
