import Mathlib.Data.List.DropRight

/-! Reading text with universal newlines: carriage returns, alone or before a line feed,
become line feeds. Trimming a text at the end commutes with it. -/
namespace Autolean.Text

@[simp] def universalNewlines : List Char → List Char
  | '\r' :: '\n' :: rest => '\n' :: universalNewlines rest
  | '\r' :: rest => '\n' :: universalNewlines rest
  | c :: rest => c :: universalNewlines rest
  | [] => []

theorem cr_not_mem_universalNewlines (text : List Char) : '\r' ∉ universalNewlines text := by
  induction text using universalNewlines.induct with
  | case1 rest ih => simpa [universalNewlines] using ih
  | case2 rest hne ih => simpa [universalNewlines, hne] using ih
  | case3 c rest hne hcr ih => simpa [universalNewlines, hne, hcr] using ⟨fun h => hcr h.symm, ih⟩
  | case4 => simp [universalNewlines]

theorem universalNewlines_length_le (text : List Char) : (universalNewlines text).length ≤ text.length := by
  induction text using universalNewlines.induct with
  | case1 rest ih =>
    simp only [universalNewlines, List.length_cons]
    omega
  | case2 rest hne ih => simpa [universalNewlines, hne] using ih
  | case3 c rest hne hcr ih => simpa [universalNewlines, hne, hcr] using ih
  | case4 => simp [universalNewlines]

/-- Only a text without carriage returns is read as it was written. -/
theorem universalNewlines_eq_self {text : List Char} : universalNewlines text = text ↔ '\r' ∉ text := by
  constructor
  · intro h
    rw [← h]
    exact cr_not_mem_universalNewlines text
  · intro h
    induction text with
    | nil => rfl
    | cons c rest ih =>
      obtain ⟨hc, hrest⟩ := not_or.mp (mt List.mem_cons.mpr h)
      rw [universalNewlines, ih hrest]
      · rintro _ rfl
        exact fun _ => hc rfl
      · exact fun hcr => hc hcr.symm

/-- Two texts read side by side are read as written only if each is. -/
theorem universalNewlines_append_eq {a b between : List Char} :
    universalNewlines a ++ (between ++ universalNewlines b) = a ++ (between ++ b) ↔ '\r' ∉ a ∧ '\r' ∉ b := by
  constructor
  · intro h
    have hlengths := congrArg List.length h
    simp only [List.length_append] at hlengths
    have ha := universalNewlines_length_le a
    have hb := universalNewlines_length_le b
    obtain ⟨hfirst, hsecond⟩ := List.append_inj h (by omega)
    exact ⟨universalNewlines_eq_self.mp hfirst, universalNewlines_eq_self.mp (List.append_cancel_left hsecond)⟩
  · rintro ⟨ha, hb⟩
    rw [universalNewlines_eq_self.mpr ha, universalNewlines_eq_self.mpr hb]

theorem rdropWhile_cons (p : Char → Bool) (c : Char) (rest : List Char) :
    (c :: rest).rdropWhile p =
      if rest.rdropWhile p = [] then (if p c then [] else [c]) else c :: rest.rdropWhile p := by
  simp only [List.rdropWhile, List.reverse_cons, List.dropWhile_append, List.isEmpty_iff, List.reverse_eq_nil_iff]
  split
  · cases h : p c <;> simp [List.dropWhile, h]
  · simp

theorem universalNewlines_eq_nil {text : List Char} : universalNewlines text = [] ↔ text = [] := by
  cases text using universalNewlines.fun_cases <;> simp_all [universalNewlines]

/-- Where line ends are trimmed, a text may be trimmed before or after it is read. -/
theorem rdropWhile_universalNewlines (p : Char → Bool) (hcr : p '\r' = true) (hlf : p '\n' = true)
    (text : List Char) : (universalNewlines text).rdropWhile p = universalNewlines (text.rdropWhile p) := by
  induction text using universalNewlines.induct with
  | case1 rest ih =>
    simp only [universalNewlines, rdropWhile_cons, ih, universalNewlines_eq_nil, hlf, if_true]
    split <;> simp [universalNewlines]
  | case2 rest hne ih =>
    rw [universalNewlines.eq_2 rest hne, rdropWhile_cons, rdropWhile_cons, ih, hlf, hcr]
    by_cases hnil : rest.rdropWhile p = []
    · simp [hnil, universalNewlines]
    · rw [if_neg hnil, if_neg (mt universalNewlines_eq_nil.mp hnil), universalNewlines.eq_2]
      intro rest' hr
      obtain ⟨dropped, hdropped⟩ := List.rdropWhile_prefix (p := p) rest
      exact hne _ (by rw [← hdropped, hr]; rfl)
  | case3 c rest hne hc ih =>
    rw [universalNewlines.eq_3 c rest hne hc, rdropWhile_cons, rdropWhile_cons, ih]
    by_cases hnil : rest.rdropWhile p = []
    · cases hp : p c <;> simp [hnil, universalNewlines]
    · rw [if_neg hnil, if_neg (mt universalNewlines_eq_nil.mp hnil), universalNewlines.eq_3]
      · exact fun _ h _ => hc h
      · exact hc
  | case4 => simp [universalNewlines]

end Autolean.Text
