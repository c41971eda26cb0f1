import Mathlib.Data.List.Induction

/-! Append-only logs whose entries are each justified by the entries before them. -/
namespace Autolean.Machine

variable {α : Type*} {P Q : List α → α → Prop} {log : List α}

/-- Every entry of the log satisfies `P` with respect to what precedes it. -/
def History (P : List α → α → Prop) (log : List α) : Prop :=
  ∀ before x after, log = before ++ x :: after → P before x

theorem history_nil : History P ([] : List α) := by
  intro before x after h
  simp at h

/-- A log grows by an entry that its present content justifies. -/
theorem history_concat (x : α) : History P (log ++ [x]) ↔ History P log ∧ P log x := by
  constructor
  · intro h
    exact ⟨fun before y after hl => h before y (after ++ [x]) (by simp [hl]), h log x [] rfl⟩
  · rintro ⟨h, hx⟩ before y after hl
    rcases List.eq_nil_or_concat after with rfl | ⟨front, last, rfl⟩
    · obtain ⟨rfl, hy⟩ := List.append_inj' hl rfl
      simp only [List.cons.injEq, and_true] at hy
      exact hy ▸ hx
    · rw [List.concat_eq_append, ← List.cons_append, ← List.append_assoc] at hl
      exact h before y front (List.append_inj' hl rfl).1

theorem History.imp (h : History P log) (hpq : ∀ before x, P before x → Q before x) : History Q log :=
  fun before x after hl => hpq before x (h before x after hl)

theorem History.of_mem (h : History P log) {x : α} (hx : x ∈ log) :
    ∃ before after, log = before ++ x :: after ∧ P before x := by
  obtain ⟨before, after, hl⟩ := List.append_of_mem hx
  exact ⟨before, after, hl, h before x after hl⟩

end Autolean.Machine
