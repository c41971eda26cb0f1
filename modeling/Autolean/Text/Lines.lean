import Mathlib.Data.List.Basic

/-! The lines of a text that was joined from pieces. -/
namespace Autolean.Text

/-- `text.split("\n")`. -/
def linesOf (text : String) : List (List Char) := text.toList.splitOn '\n'

def OneLine (s : String) : Prop := '\n' ∉ s.toList

instance (s : String) : Decidable (OneLine s) := inferInstanceAs (Decidable (¬ _))

theorem not_mem_of_mem_splitOn {α : Type} [DecidableEq α] {separator : α} {text part : List α}
    (h : part ∈ text.splitOn separator) : separator ∉ part := by
  induction text generalizing part with
  | nil =>
    rw [List.splitOn_nil, List.mem_singleton] at h
    rw [h]
    exact List.not_mem_nil
  | cons c text ih =>
    rw [List.splitOn_cons_eq_if_modifyHead] at h
    split_ifs at h with hc
    · rcases List.mem_cons.mp h with rfl | h
      · exact List.not_mem_nil
      · exact ih h
    · obtain ⟨first, others, hparts⟩ := List.exists_cons_of_ne_nil (List.splitOn_ne_nil separator text)
      rw [hparts] at h ih
      rcases List.mem_cons.mp h with rfl | h
      · refine List.not_mem_cons_of_ne_of_not_mem ?_ (ih List.mem_cons_self)
        exact fun e => hc (beq_iff_eq.mpr e.symm)
      · exact ih (List.mem_cons_of_mem _ h)

theorem sublist_intercalate {α : Type} {separator part : List α} {parts : List (List α)} (h : part ∈ parts) :
    part.Sublist (separator.intercalate parts) := by
  induction parts with
  | nil => cases h
  | cons first rest ih =>
    cases rest with
    | nil =>
      rw [List.mem_singleton.mp h, List.intercalate_singleton]
    | cons second rest =>
      rw [List.intercalate_cons_cons]
      rcases List.mem_cons.mp h with rfl | h
      · rw [List.append_assoc]
        exact List.sublist_append_left ..
      · exact (ih h).trans (List.sublist_append_right ..)

theorem mem_of_mem_intercalate {α : Type} {separator : List α} {parts : List (List α)} {c : α}
    (h : c ∈ separator.intercalate parts) : c ∈ separator ∨ ∃ part ∈ parts, c ∈ part := by
  induction parts with
  | nil => cases h
  | cons first rest ih =>
    cases rest with
    | nil =>
      rw [List.intercalate_singleton] at h
      exact .inr ⟨first, List.mem_cons_self, h⟩
    | cons second rest =>
      rw [List.intercalate_cons_cons, List.append_assoc, List.mem_append, List.mem_append] at h
      rcases h with h | h | h
      · exact .inr ⟨first, List.mem_cons_self, h⟩
      · exact .inl h
      · exact (ih h).imp_right fun ⟨part, hpart, hc⟩ => ⟨part, List.mem_cons_of_mem first hpart, hc⟩

theorem sublist_of_mem_splitOn {α : Type} [DecidableEq α] {separator : α} {text part : List α}
    (h : part ∈ text.splitOn separator) : part.Sublist text := by
  have hpart : part.Sublist ([separator].intercalate (text.splitOn separator)) := sublist_intercalate h
  rwa [List.intercalate_splitOn] at hpart

theorem linesOf_intercalate_cons {line : String} (h : OneLine line) {rest : List String} (hrest : rest ≠ []) :
    linesOf ("\n".intercalate (line :: rest)) = line.toList :: linesOf ("\n".intercalate rest) := by
  rw [linesOf, String.intercalate_cons_of_ne_nil hrest, String.toList_append, String.toList_append, List.append_assoc]
  exact List.splitOn_append_cons_self_of_not_mem h _

/-- Pieces that are one line each are the first lines of what they are joined to. -/
theorem linesOf_intercalate {lines rest : List String} (h : ∀ line ∈ lines, OneLine line) (hrest : rest ≠ []) :
    linesOf ("\n".intercalate (lines ++ rest)) = lines.map String.toList ++ linesOf ("\n".intercalate rest) := by
  induction lines with
  | nil => rfl
  | cons line lines ih =>
    obtain ⟨hline, hlines⟩ := List.forall_mem_cons.mp h
    rw [List.cons_append, linesOf_intercalate_cons hline (by simp [hrest]), ih hlines, List.map_cons, List.cons_append]

/-- A text is known by its lines. -/
theorem linesOf_injective : Function.Injective linesOf := by
  intro s t h
  apply String.toList_injective
  have hjoined := congrArg (List.intercalate ['\n']) h
  simpa only [linesOf, List.intercalate_splitOn] using hjoined

end Autolean.Text
