import Autolean.Text.Trimming

/-! Texts as the fields of a contract model hold them: strings, so that no lone surrogate is among
their characters, without the white space that stood at their ends. -/
namespace Autolean.Text

/-- `not text.strip()`. -/
def PyText.Blank (s : PyText) : Prop := s.all CodePoint.isSpace = true

instance (s : PyText) : Decidable s.Blank := inferInstanceAs (Decidable (_ = true))

theorem CodePoint.isScalar_of_isSpace {c : CodePoint} (h : c.isSpace = true) : c.IsScalar := by
  simp only [CodePoint.isSpace, Bool.or_eq_true, Bool.and_eq_true, decide_eq_true_eq] at h
  exact .inl (by omega)

theorem PyText.not_blank_append {front : PyText} (h : ¬ front.Blank) (back : PyText) : ¬ PyText.Blank (front ++ back) := by
  intro hblank
  apply h
  rw [PyText.Blank, List.all_append, Bool.and_eq_true] at hblank
  exact hblank.1

theorem PyText.not_blank_of_mem {s : PyText} {c : CodePoint} (hc : c ∈ s) (hspace : c.isSpace = false) : ¬ s.Blank := by
  intro hblank
  rw [List.all_eq_true.mp hblank c hc] at hspace
  cases hspace

theorem PyText.isScalar_append {s t : PyText} : PyText.IsScalar (s ++ t) ↔ s.IsScalar ∧ t.IsScalar :=
  List.forall_mem_append

theorem PyText.all_isScalar {s : PyText} : s.all (fun c => decide c.IsScalar) = true ↔ s.IsScalar := by
  rw [List.all_eq_true]
  exact forall₂_congr fun c _ => decide_eq_true_iff

/-- The string of a text; one with a lone surrogate has none. -/
def asString (s : PyText) : Option String :=
  if s.all (fun c => decide c.IsScalar) then some (String.ofList (s.map fun c => Char.ofNat c.val)) else none

theorem asString_of (text : String) : asString (PyText.of text) = some text := by
  have hback : (PyText.of text).map (fun c => Char.ofNat c.val) = text.toList := by
    rw [PyText.of, PyText.ofChars, List.map_map]
    refine (List.map_congr_left fun c _ => ?_).trans (List.map_id text.toList)
    exact ofNat_ofChar c
  rw [asString, if_pos (PyText.all_isScalar.mpr (PyText.isScalar_of text)), hback, String.ofList_toList]

theorem asString_eq_some {s : PyText} {text : String} : asString s = some text ↔ s = PyText.of text := by
  constructor
  · intro h
    unfold asString at h
    split_ifs at h with hscalar
    cases h
    rw [PyText.of, String.toList_ofList, PyText.ofChars, List.map_map]
    refine (List.map_id s).symm.trans (List.map_congr_left fun c hc => ?_)
    exact (ofChar_ofNat (PyText.all_isScalar.mp hscalar c hc)).symm
  · rintro rfl
    exact asString_of text

theorem exists_asString {s : PyText} (h : s.IsScalar) : ∃ text, asString s = some text ∧ s = PyText.of text :=
  ⟨_, if_pos (PyText.all_isScalar.mpr h), asString_eq_some.mp (if_pos (PyText.all_isScalar.mpr h))⟩

/-! White space -/

/-- What `str_strip_whitespace` takes off the ends of a text. -/
def isWhite (c : CodePoint) : Bool := c.isSpace && !(0x1c ≤ c.val && c.val ≤ 0x1f)

/-- A class of characters that are taken off the ends of texts, all of them white space. -/
structure WhiteSpace where
  white : CodePoint → Bool
  white_isSpace : ∀ c, white c = true → c.isSpace = true

theorem isWhite_isSpace (c : CodePoint) (h : isWhite c = true) : c.isSpace = true := (Bool.and_eq_true_iff.mp h).1

/-- The white space of contract models. -/
def modelSpace : WhiteSpace := ⟨isWhite, isWhite_isSpace⟩

theorem mem_trim_of_not {α : Type} {p : α → Bool} {l : List α} {c : α} (hc : c ∈ l) (h : p c = false) : c ∈ trim p l := by
  obtain ⟨before, after, hsplit, hbefore, hafter⟩ := exists_trim p l
  rw [hsplit, List.mem_append, List.mem_append] at hc
  obtain hc | hc | hc := hc
  · rw [hbefore c hc] at h
    cases h
  · exact hc
  · rw [hafter c hc] at h
    cases h

namespace WhiteSpace
variable (w : WhiteSpace) {s : PyText}

def strip (s : PyText) : PyText := trim w.white s

/-- A text field: the string that is left without the white space at its ends. -/
def fieldText (s : PyText) : Option String := asString (w.strip s)

theorem not_white {c : CodePoint} (h : c.isSpace = false) : w.white c = false := by
  apply Bool.eq_false_iff.mpr
  intro hw
  rw [w.white_isSpace c hw] at h
  cases h

/-- No surrogate is white space, so stripping leaves all there are. -/
theorem strip_isScalar : (w.strip s).IsScalar ↔ s.IsScalar := by
  constructor
  · intro h c hc
    cases hspace : c.isSpace with
    | true => exact CodePoint.isScalar_of_isSpace hspace
    | false => exact h c (mem_trim_of_not hc (w.not_white hspace))
  · intro h c hc
    exact h c ((trim_sublist w.white s).mem hc)

theorem exists_fieldText (h : s.IsScalar) : ∃ text, w.fieldText s = some text ∧ w.strip s = PyText.of text :=
  exists_asString (w.strip_isScalar.mpr h)

theorem strip_ne_nil (h : ¬ s.Blank) : w.strip s ≠ [] := by
  intro hnil
  apply h
  rw [PyText.Blank, List.all_eq_true]
  intro c hc
  apply Bool.not_eq_false _ |>.mp
  intro hspace
  have hkept : c ∈ w.strip s := mem_trim_of_not hc (w.not_white hspace)
  rw [hnil] at hkept
  cases hkept

/-- The text does not end in white space. -/
def Keeps (s : PyText) : Prop := ∀ c ∈ s.getLast?, w.white c = false

instance (s : PyText) : Decidable (w.Keeps s) := inferInstanceAs (Decidable (∀ c ∈ s.getLast?, w.white c = false))

/-- A text without space at its ends is kept. -/
theorem strip_of_trimmed (h : s.strip = s) : w.strip s = s := by
  have hspace : Trimmed CodePoint.isSpace s := trim_eq_self.mp h
  exact trim_eq_self.mpr ⟨fun c hc => w.not_white (hspace.1 c hc), fun c hc => w.not_white (hspace.2 c hc)⟩

end WhiteSpace
end Autolean.Text
