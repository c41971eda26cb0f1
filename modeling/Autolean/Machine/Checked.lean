import Autolean.Machine.Raising

/-! Values that exist only once their check has passed. -/
namespace Autolean.Machine
variable {α ε : Type}

/-- A value together with its passed check. -/
structure Checked (check : α → Except ε Unit) where
  value : α
  passed : check value = .ok ()

namespace Checked
variable {check : α → Except ε Unit}

theorem ext_value {a b : Checked check} (h : a.value = b.value) : a = b := by
  cases a
  cases b
  cases h
  rfl

/-- The constructor: the value is checked and kept, or the check's error is raised. -/
def make (check : α → Except ε Unit) (value : α) : Except ε (Checked check) :=
  match h : check value with
  | .ok () => .ok ⟨value, h⟩
  | .error e => .error e

theorem make_of {value : α} (h : check value = .ok ()) : make check value = .ok ⟨value, h⟩ := by
  unfold make
  split
  · rfl
  · rename_i he
    rw [h] at he
    cases he

end Checked
end Autolean.Machine
