import Autolean.Text.CodePoints
import Mathlib.Data.List.DropRight

/-! Removing the characters of a class from both ends of a text. -/
namespace Autolean.Text
variable {α : Type} {p : α → Bool} {l : List α}

/-- `text.strip(characters)`. -/
def trim (p : α → Bool) (l : List α) : List α := (l.dropWhile p).rdropWhile p

/-- Neither end of the text is in the class. -/
def Trimmed (p : α → Bool) (l : List α) : Prop := (∀ c ∈ l.head?, p c = false) ∧ ∀ c ∈ l.getLast?, p c = false

instance (p : α → Bool) (l : List α) : Decidable (Trimmed p l) := inferInstanceAs (Decidable (_ ∧ _))

theorem Trimmed.trim_eq (h : Trimmed p l) : trim p l = l := by
  have hfirst : l.dropWhile p = l := by
    cases l with
    | nil => rfl
    | cons c rest => simp [h.1 c rfl]
  rw [trim, hfirst, List.rdropWhile_eq_self_iff]
  intro hne
  rw [h.2 _ (List.getLast?_eq_some_getLast hne)]
  exact Bool.false_ne_true

theorem trimmed_trim (p : α → Bool) (l : List α) : Trimmed p (trim p l) := by
  refine ⟨fun c hc => ?_, fun c hc => ?_⟩
  · obtain ⟨rest, hrest⟩ : trim p l <+: l.dropWhile p := List.rdropWhile_prefix p _
    have hfirst : (l.dropWhile p).head? = some c := by
      rw [← hrest, List.head?_append, hc, Option.some_or]
    have hnot := List.head?_dropWhile_not p l
    rw [hfirst] at hnot
    exact hnot
  · have hne : trim p l ≠ [] := by
      rintro he
      rw [he] at hc
      cases hc
    have hlast := List.rdropWhile_last_not p (l.dropWhile p) hne
    rw [List.getLast?_eq_some_getLast hne] at hc
    cases hc
    exact Bool.eq_false_iff.mpr hlast

theorem trim_eq_self : trim p l = l ↔ Trimmed p l := by
  constructor
  · intro h
    rw [← h]
    exact trimmed_trim p l
  · exact Trimmed.trim_eq

theorem trim_sublist (p : α → Bool) (l : List α) : (trim p l).Sublist l :=
  (List.rdropWhile_prefix p _).sublist.trans (List.dropWhile_sublist p)

/-- What was removed is in the class. -/
theorem exists_trim (p : α → Bool) (l : List α) :
    ∃ before after, l = before ++ (trim p l ++ after) ∧ (∀ c ∈ before, p c = true) ∧ ∀ c ∈ after, p c = true := by
  refine ⟨l.takeWhile p, ((l.dropWhile p).reverse.takeWhile p).reverse, ?_, ?_, ?_⟩
  · have hreverse := congrArg List.reverse (List.takeWhile_append_dropWhile (p := p) (l := (l.dropWhile p).reverse))
    rw [List.reverse_append, List.reverse_reverse] at hreverse
    rw [trim, List.rdropWhile, hreverse, List.takeWhile_append_dropWhile]
  · exact fun c hc => List.mem_takeWhile_imp hc
  · intro c hc
    exact List.mem_takeWhile_imp (List.mem_reverse.mp hc)

theorem trim_cons {c : α} (hc : p c = true) : trim p (c :: l) = trim p l := by
  rw [trim, List.dropWhile_cons_of_pos hc, trim]

/-- `str.isspace` of one character. -/
def CodePoint.isSpace (c : CodePoint) : Bool :=
  (0x09 ≤ c.val && c.val ≤ 0x0d) || (0x1c ≤ c.val && c.val ≤ 0x20) || c.val = 0x85 || c.val = 0xa0 ||
    c.val = 0x1680 || (0x2000 ≤ c.val && c.val ≤ 0x200a) || c.val = 0x2028 || c.val = 0x2029 ||
    c.val = 0x202f || c.val = 0x205f || c.val = 0x3000

/-- `text.strip()`. -/
def PyText.strip (s : PyText) : PyText := trim CodePoint.isSpace s

end Autolean.Text
