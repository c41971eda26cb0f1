import Mathlib.Data.List.Forall2
import Mathlib.Data.Option.Basic

/-! Transducers that emit one symbol for each symbol they read and that see the symbol behind
it: their output for joined inputs, symbol by symbol, and for what they have emitted before. -/
namespace Autolean.Machine

structure Transducer (σ α β : Type) where
  /-- The state after a symbol, with the symbol that is seen behind it. -/
  next : σ → α → Option α → σ
  emit : σ → α → Option α → β

namespace Transducer
variable {σ α β : Type} (t : Transducer σ α β) (after : Option α)

/-- The state behind the input, where `after` is the symbol that follows it. -/
def final : σ → List α → σ
  | s, [] => s
  | s, a :: l => final (t.next s a (l.head?.or after)) l

def output : σ → List α → List β
  | _, [] => []
  | s, a :: l => t.emit s a (l.head?.or after) :: output (t.next s a (l.head?.or after)) l

variable {t} {after} {s : σ}

theorem final_append (front back : List α) :
    t.final after s (front ++ back) = t.final after (t.final (back.head?.or after) s front) back := by
  induction front generalizing s with
  | nil => rfl
  | cons a front ih =>
    rw [List.cons_append, final, ih, final, List.head?_append, Option.or_assoc]

theorem output_append (front back : List α) :
    t.output after s (front ++ back) =
      t.output (back.head?.or after) s front ++ t.output after (t.final (back.head?.or after) s front) back := by
  induction front generalizing s with
  | nil => rfl
  | cons a front ih =>
    rw [List.cons_append, output, ih, output, final, List.head?_append, Option.or_assoc, List.cons_append]

theorem forall₂_output {r : α → β → Prop} (h : ∀ s a n, r a (t.emit s a n)) (l : List α) :
    List.Forall₂ r l (t.output after s l) := by
  induction l generalizing s with
  | nil => exact .nil
  | cons a l ih => exact .cons (h s a _) ih

/-- The symbol behind the input changes nothing when it changes nothing at the last symbol. -/
theorem after_irrelevant {after' : Option α} {l : List α}
    (h : ∀ front a, l = front ++ [a] →
      t.next (t.final (some a) s front) a after = t.next (t.final (some a) s front) a after' ∧
      t.emit (t.final (some a) s front) a after = t.emit (t.final (some a) s front) a after') :
    t.final after s l = t.final after' s l ∧ t.output after s l = t.output after' s l := by
  rcases List.eq_nil_or_concat l with rfl | ⟨front, a, rfl⟩
  · exact ⟨rfl, rfl⟩
  · obtain ⟨hnext, hemit⟩ := h front a (List.concat_eq_append ..)
    rw [List.concat_eq_append, final_append, final_append, output_append, output_append]
    exact ⟨hnext, congrArg (_ ++ [·]) hemit⟩

end Transducer

/-- A state that is kept by whatever any state emits, and that emits it unchanged. -/
def Transducer.Settles {σ α : Type} (t : Transducer σ α α) (s₀ : σ) : Prop :=
  ∀ s a n n', Option.Rel (fun c c' => ∃ s' k, c' = t.emit s' c k) n n' →
    t.next s₀ (t.emit s a n) n' = s₀ ∧ t.emit s₀ (t.emit s a n) n' = t.emit s a n

/-- The output is a fixed point. -/
theorem Transducer.Settles.output_fixed {σ α : Type} {t : Transducer σ α α} {s₀ : σ} (h : t.Settles s₀) (s : σ)
    (l : List α) :
    t.output none s₀ (t.output none s l) = t.output none s l ∧ t.final none s₀ (t.output none s l) = s₀ := by
  induction l generalizing s with
  | nil => exact ⟨rfl, rfl⟩
  | cons a l ih =>
    obtain ⟨houtput, hfinal⟩ := ih (t.next s a (l.head?.or none))
    have hseen : Option.Rel (fun c c' => ∃ s' k, c' = t.emit s' c k) (l.head?.or none)
        ((t.output none (t.next s a (l.head?.or none)) l).head?.or none) := by
      cases l with
      | nil => exact .none
      | cons b l => exact .some ⟨_, _, rfl⟩
    obtain ⟨hnext, hemit⟩ := h s a _ _ hseen
    simp only [output, final, hnext, hemit, houtput, hfinal, and_self]

end Autolean.Machine
