import Mathlib.Data.List.Basic
import Mathlib.Data.List.Induction

/-! Logs in which some entries open an account and later entries close it. Each opening
entry is matched with the first entry that closes it. -/
namespace Autolean.Machine

section
variable {α : Type*} (opens : α → Bool) (closes : α → α → Bool)

/-- Every opening entry with the first later entry that closes it. -/
def matched : List α → List (α × Option α)
  | [] => []
  | x :: log => if opens x then (x, log.find? (closes x)) :: matched log else matched log

/-- An open account that `y` closes is closed by it. -/
def closeWith (y : α) (e : α × Option α) : α × Option α := (e.1, e.2.or (if closes e.1 y then some y else none))

/-- No opening entry is closed twice. -/
def ClosedOnce (log : List α) : Prop :=
  ∀ before x after, log = before ++ x :: after → opens x = true → (after.filter (closes x)).length ≤ 1

end

section
variable {α : Type*} {opens : α → Bool} {closes : α → α → Bool} {log : List α} {y : α}

@[simp] theorem closeWith_fst (e : α × Option α) : (closeWith closes y e).1 = e.1 := rfl

theorem closeWith_of_not_closes {e : α × Option α} (h : closes e.1 y = false) : closeWith closes y e = e := by
  unfold closeWith
  rw [h]
  simp

theorem closeWith_of_closed {e : α × Option α} (h : e.2 ≠ none) : closeWith closes y e = e := by
  obtain ⟨x, c⟩ := e
  cases c with
  | none => exact absurd rfl h
  | some z => rfl

theorem closeWith_of_open {e : α × Option α} (h : e.2 = none) (hc : closes e.1 y = true) :
    closeWith closes y e = (e.1, some y) := by
  unfold closeWith
  rw [h, hc]
  simp

theorem matched_concat (log : List α) (y : α) :
    matched opens closes (log ++ [y]) =
      (matched opens closes log).map (closeWith closes y) ++ if opens y then [(y, none)] else [] := by
  induction log with
  | nil => by_cases h : opens y <;> simp [matched, h]
  | cons x log ih =>
    by_cases h : opens x
    · simp only [List.cons_append, matched, h, if_true, List.map_cons, ih]
      congr 1
      simp only [closeWith, List.find?_append, List.find?_singleton]
    · simp only [List.cons_append, matched, h, ih]
      simp

theorem mem_matched {e : α × Option α} :
    e ∈ matched opens closes log ↔
      ∃ before after, log = before ++ e.1 :: after ∧ opens e.1 = true ∧ e.2 = after.find? (closes e.1) := by
  induction log with
  | nil => simp [matched]
  | cons x log ih =>
    constructor
    · intro h
      by_cases hx : opens x
      · simp only [matched, hx, if_true, List.mem_cons] at h
        rcases h with rfl | h
        · exact ⟨[], log, rfl, hx, rfl⟩
        · obtain ⟨before, after, rfl, ho, hf⟩ := ih.mp h
          exact ⟨x :: before, after, rfl, ho, hf⟩
      · simp only [matched, hx] at h
        obtain ⟨before, after, rfl, ho, hf⟩ := ih.mp (by simpa using h)
        exact ⟨x :: before, after, rfl, ho, hf⟩
    · rintro ⟨before, after, hl, ho, hf⟩
      cases before with
      | nil =>
        obtain ⟨rfl, rfl⟩ := List.cons.inj hl
        simp only [matched, ho, if_true, List.mem_cons]
        exact .inl (Prod.ext rfl hf)
      | cons b before =>
        obtain ⟨rfl, rfl⟩ := List.cons.inj hl
        have hm := ih.mpr ⟨before, after, rfl, ho, hf⟩
        by_cases hx : opens x
        · simp only [matched, hx, if_true]
          exact List.mem_cons_of_mem _ hm
        · simpa [matched, hx] using hm

/-- An entry that closes only open accounts leaves every account closed at most once. -/
theorem ClosedOnce.concat (h : ClosedOnce opens closes log)
    (hy : ∀ e ∈ matched opens closes log, closes e.1 y = true → e.2 = none) : ClosedOnce opens closes (log ++ [y]) := by
  intro before x after hl ho
  rcases List.eq_nil_or_concat after with rfl | ⟨rest, last, rfl⟩
  · simp
  · rw [List.concat_eq_append, ← List.cons_append, ← List.append_assoc] at hl
    obtain ⟨rfl, hlast⟩ := List.append_inj' hl rfl
    obtain rfl : y = last := by simpa using hlast
    rw [List.concat_eq_append, List.filter_append, List.length_append]
    by_cases hc : closes x y = true
    · have hnone : rest.find? (closes x) = none :=
        hy (x, rest.find? (closes x)) (mem_matched.mpr ⟨before, rest, rfl, ho, rfl⟩) hc
      have hempty : rest.filter (closes x) = [] := by
        apply List.filter_eq_nil_iff.mpr
        intro z hz
        simpa using List.find?_eq_none.mp hnone z hz
      simp [hempty, hc]
    · simpa [hc] using h before x rest rfl ho

end
end Autolean.Machine
