import Mathlib.Order.Fin.Basic
import Mathlib.Data.List.Lex
import Mathlib.Data.String.Basic

/-! Python texts: sequences of Unicode code points, surrogates among them, in the order
of their code points. -/
namespace Autolean.Text

abbrev CodePoint := Fin 0x110000

instance CodePoint.instNeZero : @NeZero Nat Zero.ofOfNat0 0x110000 := ⟨by decide⟩

instance CodePoint.instLawfulBEq : @LawfulBEq (List CodePoint) List.instBEq := List.instLawfulBEq

instance CodePoint.lawfulBEq : @LawfulBEq CodePoint instBEqOfDecidableEq := inferInstance

/-- A Python `str`. -/
abbrev PyText := List CodePoint

def CodePoint.ofChar (c : Char) : CodePoint :=
  ⟨c.toNat, by
    have h := c.valid
    simp only [UInt32.isValidChar, Nat.isValidChar] at h
    change c.val.toNat < _
    omega⟩

@[simp] theorem CodePoint.ofChar_val (c : Char) : (CodePoint.ofChar c).val = c.toNat := rfl

/-- A code point that is no surrogate, so that it stands for a character. -/
def CodePoint.IsScalar (c : CodePoint) : Prop := c.val < 0xd800 ∨ 0xdfff < c.val

instance (c : CodePoint) : Decidable c.IsScalar := inferInstanceAs (Decidable (_ ∨ _))

def PyText.IsScalar (s : PyText) : Prop := ∀ c ∈ s, CodePoint.IsScalar c

def PyText.ofChars (cs : List Char) : PyText := cs.map CodePoint.ofChar

/-- A text the source writes out. -/
def PyText.of (s : String) : PyText := PyText.ofChars s.toList

theorem CodePoint.ofChar_injective : Function.Injective CodePoint.ofChar := by
  intro a b h
  have hvalue : a.val.toNat = b.val.toNat := congrArg (fun c : CodePoint => c.val) h
  exact Char.ext (UInt32.toNat_inj.mp hvalue)

theorem PyText.ofChars_injective : Function.Injective PyText.ofChars :=
  List.map_injective_iff.mpr CodePoint.ofChar_injective

theorem PyText.of_injective : Function.Injective PyText.of :=
  fun _ _ h => String.toList_inj.mp (PyText.ofChars_injective h)

@[simp] theorem PyText.of_inj {s t : String} : PyText.of s = PyText.of t ↔ s = t := PyText.of_injective.eq_iff

theorem CodePoint.isScalar_ofChar (c : Char) : (CodePoint.ofChar c).IsScalar := by
  have h := c.valid
  simp only [UInt32.isValidChar, Nat.isValidChar] at h
  change c.val.toNat < _ ∨ _ < c.val.toNat
  omega

theorem PyText.isScalar_of (s : String) : PyText.IsScalar (PyText.of s) := by
  intro c hc
  obtain ⟨a, -, rfl⟩ := List.mem_map.mp hc
  exact CodePoint.isScalar_ofChar a

theorem ofNat_ofChar (c : Char) : Char.ofNat (CodePoint.ofChar c).val = c := Char.ofNat_toNat c

theorem ofChar_ofNat {c : CodePoint} (h : c.IsScalar) : CodePoint.ofChar (Char.ofNat c.val) = c := by
  have hvalid : c.val.isValidChar := by
    have := c.isLt
    simp only [CodePoint.IsScalar, Nat.isValidChar] at h ⊢
    omega
  apply Fin.ext
  change (Char.ofNat c.val).toNat = c.val
  rw [Char.ofNat, dif_pos hvalid]
  rfl

/-! Classes of characters -/

def between (first last : Char) (c : CodePoint) : Bool := CodePoint.ofChar first ≤ c && c ≤ CodePoint.ofChar last

def oneOf (characters : String) (c : CodePoint) : Bool := PyText.of characters |>.contains c

theorem between_isScalar {first last : Char} (h : last.toNat < 0xd800) {c : CodePoint} (hc : between first last c = true) :
    c.IsScalar := by
  simp only [between, Bool.and_eq_true, decide_eq_true_eq] at hc
  have hle : c.val ≤ last.toNat := hc.2
  exact .inl (by omega)

theorem oneOf_isScalar {characters : String} {c : CodePoint} (h : oneOf characters c = true) : c.IsScalar :=
  PyText.isScalar_of characters c (List.contains_iff_mem.mp h)

def isDigit (c : CodePoint) : Bool := between '0' '9' c

def isLowerOrDigit (c : CodePoint) : Bool := between 'a' 'z' c || isDigit c

def isHexadecimal (c : CodePoint) : Bool := isDigit c || between 'a' 'f' c

/-- `[0-9a-f]{n}`. -/
def IsHex (n : Nat) (s : PyText) : Prop := s.length = n ∧ s.all isHexadecimal

instance (n : Nat) (s : PyText) : Decidable (IsHex n s) := inferInstanceAs (Decidable (_ ∧ _))

/-- A text of at most `n` characters, the first in one class and all in another. -/
def Headed {α : Type} (first rest : α → Bool) (n : Nat) (s : List α) : Prop :=
  s.length ≤ n ∧ s.head?.any first = true ∧ s.all rest = true

instance Headed.decidable {α : Type} (first rest : α → Bool) (n : Nat) (s : List α) : Decidable (Headed first rest n s) :=
  inferInstanceAs (Decidable (_ ∧ _ ∧ _))

theorem isDigit_isScalar {c : CodePoint} (h : isDigit c = true) : c.IsScalar := between_isScalar (by decide) h

theorem isLowerOrDigit_isScalar {c : CodePoint} (h : isLowerOrDigit c = true) : c.IsScalar := by
  rcases Bool.or_eq_true_iff.mp h with h | h
  · exact between_isScalar (by decide) h
  · exact isDigit_isScalar h

theorem Headed.isScalar {first rest : CodePoint → Bool} {n : Nat} {s : PyText} (h : Headed first rest n s)
    (hrest : ∀ c, rest c = true → c.IsScalar) : s.IsScalar :=
  fun c hc => hrest c (List.all_eq_true.mp h.2.2 c hc)

theorem IsHex.isScalar {n : Nat} {s : PyText} (h : IsHex n s) : s.IsScalar := by
  intro c hc
  rcases Bool.or_eq_true_iff.mp (List.all_eq_true.mp h.2 c hc) with hc | hc
  · exact isDigit_isScalar hc
  · exact between_isScalar (by decide) hc

/-- One character, `n` times. -/
def repeated (n : Nat) (c : Char) : PyText := List.replicate n (.ofChar c)

theorem isHex_repeated (n : Nat) {c : Char} (h : isHexadecimal (.ofChar c) = true) : IsHex n (repeated n c) := by
  refine ⟨List.length_replicate, List.all_eq_true.mpr fun d hd => ?_⟩
  rw [List.eq_of_mem_replicate hd, h]

end Autolean.Text
