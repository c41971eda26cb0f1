import Mathlib.Data.List.Basic
import Mathlib.Order.Defs.Unbundled

/-! Deterministic labelled machines. A run folds a step function over a list of
labels; a condition on steps is checked at the state each label is taken in. -/
namespace Autolean.Machine

variable {σ ι : Type*}

/-- The state reached from `s` by taking the labels in order. -/
def run (step : σ → ι → σ) (s : σ) (labels : List ι) : σ := labels.foldl step s

/-- Every label of the run is taken in a state where `ok` holds of it. -/
def StepsMeet (step : σ → ι → σ) (ok : σ → ι → Prop) : σ → List ι → Prop
  | _, [] => True
  | s, l :: labels => ok s l ∧ StepsMeet step ok (step s l) labels

instance StepsMeet.decidable (step : σ → ι → σ) (ok : σ → ι → Prop) [∀ s l, Decidable (ok s l)] :
    (s : σ) → (labels : List ι) → Decidable (StepsMeet step ok s labels)
  | _, [] => .isTrue trivial
  | s, l :: labels =>
    have := StepsMeet.decidable step ok (step s l) labels
    inferInstanceAs (Decidable (ok s l ∧ StepsMeet step ok (step s l) labels))

section
variable {step : σ → ι → σ} {ok : σ → ι → Prop}

@[simp] theorem run_nil (s : σ) : run step s [] = s := rfl

@[simp] theorem run_cons (s : σ) (l : ι) (labels : List ι) :
    run step s (l :: labels) = run step (step s l) labels := rfl

theorem run_append (s : σ) (xs ys : List ι) :
    run step s (xs ++ ys) = run step (run step s xs) ys := List.foldl_append

theorem stepsMeet_append (s : σ) (xs ys : List ι) :
    StepsMeet step ok s (xs ++ ys) ↔ StepsMeet step ok s xs ∧ StepsMeet step ok (run step s xs) ys := by
  induction xs generalizing s with
  | nil => simp [StepsMeet]
  | cons x xs ih => simp only [List.cons_append, StepsMeet, run_cons, ih, and_assoc]

theorem StepsMeet.mono {ok' : σ → ι → Prop} (h : ∀ s l, ok s l → ok' s l) {s : σ} {labels : List ι}
    (hs : StepsMeet step ok s labels) : StepsMeet step ok' s labels := by
  induction labels generalizing s with
  | nil => trivial
  | cons l labels ih => exact ⟨h s l hs.1, ih hs.2⟩

theorem StepsMeet.and {ok' : σ → ι → Prop} {s : σ} {labels : List ι} (h : StepsMeet step ok s labels)
    (h' : StepsMeet step ok' s labels) : StepsMeet step (fun s l => ok s l ∧ ok' s l) s labels := by
  induction labels generalizing s with
  | nil => trivial
  | cons l labels ih => exact ⟨⟨h.1, h'.1⟩, ih h.2 h'.2⟩

theorem stepsMeet_of_forall (h : ∀ s l, ok s l) (s : σ) (labels : List ι) : StepsMeet step ok s labels := by
  induction labels generalizing s with
  | nil => trivial
  | cons l labels ih => exact ⟨h s l, ih (step s l)⟩

/-- An invariant that each admissible step keeps holds at the end of every
admissible run. -/
theorem run_invariant (Inv : σ → Prop) (h : ∀ s l, Inv s → ok s l → Inv (step s l))
    {s : σ} {labels : List ι} (h0 : Inv s) (hs : StepsMeet step ok s labels) : Inv (run step s labels) := by
  induction labels generalizing s with
  | nil => exact h0
  | cons l labels ih => exact ih (h s l h0 hs.1) hs.2

/-- What every admissible step from an invariant state does, every step of an admissible run does. -/
theorem StepsMeet.of_invariant {good : σ → ι → Prop} (Inv : σ → Prop)
    (h : ∀ {s l}, Inv s → ok s l → Inv (step s l) ∧ good s l) {s : σ} {labels : List ι} (h0 : Inv s)
    (hs : StepsMeet step ok s labels) : StepsMeet step good s labels := by
  induction labels generalizing s with
  | nil => trivial
  | cons l labels ih =>
    obtain ⟨hi, hg⟩ := h h0 hs.1
    exact ⟨hg, ih hi hs.2⟩

/-- A preorder that each step from an invariant state moves along, and the invariant
with it, hold from the start of every run to its end. -/
theorem run_keeps (Inv : σ → Prop) (R : σ → σ → Prop) (refl : ∀ s, R s s)
    (trans : ∀ {a b c}, R a b → R b c → R a c) (h : ∀ {s}, Inv s → ∀ l, Inv (step s l) ∧ R s (step s l))
    {s : σ} (h0 : Inv s) (labels : List ι) : Inv (run step s labels) ∧ R s (run step s labels) := by
  induction labels generalizing s with
  | nil => exact ⟨h0, refl s⟩
  | cons l labels ih =>
    obtain ⟨hi, hr⟩ := h h0 l
    obtain ⟨hi', hr'⟩ := ih hi
    exact ⟨hi', trans hr hr'⟩

end
end Autolean.Machine
