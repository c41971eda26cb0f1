import Mathlib.Data.List.Basic

/-! Regular expressions as sets of matches: where an expression can end when it starts at a
position of a text. Whether one occurs at all does not depend on which match is preferred. -/
namespace Autolean.Text
variable {α : Type}

inductive Pattern (α : Type) where
  | empty
  | one (p : α → Bool)
  /-- A position between a word character and none. -/
  | boundary (word : α → Bool)
  | seq (a b : Pattern α)
  | alt (a b : Pattern α)
  | many (a : Pattern α)

namespace Pattern

/-- What repeated steps reach. -/
def reach (step : Nat → List Nat) : Nat → Nat → List Nat
  | 0, i => [i]
  | fuel + 1, i => i :: ((step i).filter (i < ·)).flatMap (reach step fuel)

def ends (text : List α) : Pattern α → Nat → List Nat
  | empty, i => [i]
  | one p, i => if text[i]?.any p then [i + 1] else []
  | boundary word, i =>
    if (0 < i && text[i - 1]?.any word) != text[i]?.any word then [i] else []
  | seq a b, i => (ends text a i).flatMap (ends text b)
  | alt a b, i => ends text a i ++ ends text b i
  | many a, i => reach (ends text a) text.length i

/-- `pattern.search(text) is not None`. -/
def Occurs (p : Pattern α) (text : List α) : Prop := ∃ i ∈ List.range (text.length + 1), p.ends text i ≠ []

instance (p : Pattern α) (text : List α) : Decidable (p.Occurs text) :=
  inferInstanceAs (Decidable (∃ i ∈ List.range (text.length + 1), p.ends text i ≠ []))

def all : List (Pattern α) → Pattern α
  | [] => empty
  | p :: ps => seq p (all ps)

def times : Nat → Pattern α → Pattern α
  | 0, _ => empty
  | n + 1, p => seq p (times n p)

def atLeast (n : Nat) (p : Pattern α) : Pattern α := seq (times n p) (many p)

def optional (p : Pattern α) : Pattern α := alt empty p

end Pattern
end Autolean.Text
