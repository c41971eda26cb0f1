import Mathlib.Data.List.Basic
import Mathlib.Data.List.Perm.Basic

/-! What was written last under each key of a history. -/
namespace Autolean.Machine
variable {κ ε : Type} [DecidableEq κ]

def lastWrite : List (κ × ε) → κ → Option ε
  | [], _ => none
  | p :: rest, k => (lastWrite rest k).or (if p.1 = k then some p.2 else none)

@[simp] theorem lastWrite_nil (k : κ) : lastWrite ([] : List (κ × ε)) k = none := rfl

theorem lastWrite_append (past more : List (κ × ε)) (k : κ) :
    lastWrite (past ++ more) k = (lastWrite more k).or (lastWrite past k) := by
  induction past with
  | nil => exact (Option.or_none).symm
  | cons p past ih => rw [List.cons_append, lastWrite, lastWrite, ih, Option.or_assoc]

@[simp] theorem lastWrite_snoc (past : List (κ × ε)) (k : κ) (e : ε) (k' : κ) :
    lastWrite (past ++ [(k, e)]) k' = if k = k' then some e else lastWrite past k' := by
  rw [lastWrite_append, lastWrite, lastWrite_nil, Option.none_or]
  split_ifs <;> simp

theorem lastWrite_eq_none {past : List (κ × ε)} {k : κ} : lastWrite past k = none ↔ k ∉ past.map Prod.fst := by
  induction past with
  | nil => simp
  | cons p past ih =>
    rw [lastWrite, Option.or_eq_none_iff, ih, List.map_cons, List.mem_cons, not_or, and_comm]
    apply and_congr_left'
    rw [ite_eq_right_iff]
    exact ⟨fun h he => absurd (h he.symm) (Option.some_ne_none _), fun h he => absurd he.symm h⟩

theorem lastWrite_split {past : List (κ × ε)} {k : κ} {e : ε} (h : lastWrite past k = some e) :
    ∃ before after, past = before ++ (k, e) :: after ∧ k ∉ after.map Prod.fst := by
  induction past with
  | nil => cases h
  | cons p past ih =>
    rw [lastWrite, Option.or_eq_some_iff] at h
    rcases h with h | ⟨hnone, h⟩
    · obtain ⟨before, after, rfl, hafter⟩ := ih h
      exact ⟨p :: before, after, rfl, hafter⟩
    · split_ifs at h with hk
      cases h
      rw [← hk] at hnone ⊢
      exact ⟨[], past, rfl, lastWrite_eq_none.mp hnone⟩

theorem mem_of_lastWrite {past : List (κ × ε)} {k : κ} {e : ε} (h : lastWrite past k = some e) : (k, e) ∈ past := by
  obtain ⟨before, after, rfl, -⟩ := lastWrite_split h
  exact List.mem_append_right before List.mem_cons_self

/-- Every key that was once given `e` holds it, exactly when each other write after one of `e`
is followed by one of `e` again. -/
theorem lastWrite_of_mem_iff (past : List (κ × ε)) (e : ε) :
    (∀ k, (k, e) ∈ past → lastWrite past k = some e) ↔
      ∀ before k e' after, past = before ++ (k, e') :: after → e' ≠ e → (k, e) ∈ before → (k, e) ∈ after := by
  constructor
  · rintro h before k e' after rfl hne hbefore
    have hlast := h k (List.mem_append_left _ hbefore)
    rw [lastWrite_append, lastWrite, if_pos rfl] at hlast
    cases hafter : lastWrite after k with
    | none =>
      rw [hafter] at hlast
      exact absurd (Option.some_inj.mp hlast) hne
    | some e'' =>
      rw [hafter] at hlast
      cases Option.some_inj.mp hlast
      exact mem_of_lastWrite hafter
  · intro h k hmem
    have hkey : k ∈ past.map Prod.fst := List.mem_map_of_mem hmem
    cases hlast : lastWrite past k with
    | none => exact absurd hkey (lastWrite_eq_none.mp hlast)
    | some e' =>
      by_contra hne
      obtain ⟨before, after, rfl, hafter⟩ := lastWrite_split hlast
      have hne' : e' ≠ e := fun he => hne (congrArg some he)
      have hnot : (k, e) ∉ after := fun he => hafter (List.mem_map_of_mem he)
      rcases List.mem_append.mp hmem with hbefore | htail
      · exact hnot (h before k e' after rfl hne' hbefore)
      · rcases List.mem_cons.mp htail with heq | he
        · exact hne' (Prod.mk.inj heq).2.symm
        · exact hnot he

end Autolean.Machine
