import Mathlib.Init

/-! Computations that raise: a checked condition, and what a computation that returned
did on the way. -/
namespace Autolean.Machine
variable {ε α β : Type}

/-- `if not condition: raise error`. -/
def ensure (condition : Prop) [Decidable condition] (e : ε) : Except ε Unit :=
  if condition then .ok () else .error e

namespace Raising

@[simp] theorem ok_bind (a : α) (f : α → Except ε β) : ((.ok a : Except ε α) >>= f) = f a := rfl
@[simp] theorem error_bind (e : ε) (f : α → Except ε β) : ((.error e : Except ε α) >>= f) = .error e := rfl

/-- A computation that returned ran each of its parts to a value. -/
theorem bind_eq_ok {x : Except ε α} {f : α → Except ε β} {b : β} :
    (x >>= f) = .ok b ↔ ∃ a, x = .ok a ∧ f a = .ok b := by
  cases x with
  | ok a =>
    constructor
    · exact fun h => ⟨a, rfl, h⟩
    · rintro ⟨_, ⟨rfl⟩, h⟩
      exact h
  | error e =>
    constructor
    · intro h; cases h
    · rintro ⟨_, ha, -⟩; cases ha

@[simp] theorem ensure_eq_ok {c : Prop} [Decidable c] {e : ε} {u : Unit} : ensure c e = .ok u ↔ c := by
  unfold ensure
  split <;> simp_all

theorem ensure_of {c : Prop} [Decidable c] (e : ε) (h : c) : ensure c e = .ok () := ensure_eq_ok.mpr h

@[simp] theorem ensure_true [Decidable True] (e : ε) : ensure True e = .ok () := ensure_of e trivial

/-- A computation past a check returns exactly when the check passes and the rest returns. -/
theorem ensure_bind_eq_ok {c : Prop} [Decidable c] {e : ε} {f : Unit → Except ε β} {b : β} :
    (ensure c e >>= f) = .ok b ↔ c ∧ f () = .ok b := by
  rw [bind_eq_ok]
  constructor
  · rintro ⟨_, hc, h⟩
    exact ⟨ensure_eq_ok.mp hc, h⟩
  · rintro ⟨hc, h⟩
    exact ⟨(), ensure_eq_ok.mpr hc, h⟩

@[simp] theorem ensure_eq_error {c : Prop} [Decidable c] {e e' : ε} : ensure c e = .error e' ↔ ¬ c ∧ e = e' := by
  unfold ensure
  split <;> simp_all

@[simp] theorem pure_eq_ok (a b : α) : (pure a : Except ε α) = .ok b ↔ a = b := by
  constructor
  · intro h; cases h; rfl
  · rintro rfl; rfl

theorem bind_congr_ok {x y : Except ε α} {f g : α → Except ε β} (hxy : x = y)
    (h : ∀ a, y = .ok a → f a = g a) : (x >>= f) = (y >>= g) := by
  subst hxy
  cases x with
  | ok a => exact h a rfl
  | error e => rfl

/-- A loop that returned returned on every element. -/
theorem forM_eq_ok {l : List α} {f : α → Except ε Unit} : l.forM f = .ok () ↔ ∀ x ∈ l, f x = .ok () := by
  induction l with
  | nil => simp [pure, Except.pure]
  | cons x rest ih =>
    simp only [List.forall_mem_cons, ← ih]
    constructor
    · intro h
      obtain ⟨_, hx, hrest⟩ := bind_eq_ok.mp h
      exact ⟨hx, hrest⟩
    · rintro ⟨hx, hrest⟩
      exact bind_eq_ok.mpr ⟨(), hx, hrest⟩

theorem seq_eq_ok {x : Except ε Unit} {f : Unit → Except ε β} {b : β} :
    (x >>= f) = .ok b ↔ x = .ok () ∧ f () = .ok b := by
  rw [bind_eq_ok]
  exact ⟨fun ⟨_, hx, h⟩ => ⟨hx, h⟩, fun ⟨hx, h⟩ => ⟨(), hx, h⟩⟩

/-- A loop over a list whose elements are each turned into a known value. -/
theorem mapM_of {l : List α} {f : α → Except ε β} {g : α → β} (h : ∀ x ∈ l, f x = .ok (g x)) :
    l.mapM f = .ok (l.map g) := by
  induction l with
  | nil => rfl
  | cons x rest ih =>
    obtain ⟨hx, hrest⟩ := List.forall_mem_cons.mp h
    rw [List.mapM_cons, hx, ok_bind, ih hrest, ok_bind]
    rfl

/-- What a loop over a list returned came from its elements, one by one. -/
theorem mapM_ok {l : List α} {f : α → Except ε β} {ys : List β} (h : l.mapM f = .ok ys) :
    (∀ x ∈ l, ∃ y ∈ ys, f x = .ok y) ∧ ∀ y ∈ ys, ∃ x ∈ l, f x = .ok y := by
  induction l generalizing ys with
  | nil =>
    cases h
    exact ⟨by simp, by simp⟩
  | cons x rest ih =>
    rw [List.mapM_cons] at h
    obtain ⟨y, hy, h⟩ := bind_eq_ok.mp h
    obtain ⟨zs, hzs, h⟩ := bind_eq_ok.mp h
    cases h
    obtain ⟨hleft, hright⟩ := ih hzs
    constructor
    · intro a ha
      rcases List.mem_cons.mp ha with rfl | ha
      · exact ⟨y, List.mem_cons_self, hy⟩
      · obtain ⟨b, hb, hab⟩ := hleft a ha
        exact ⟨b, List.mem_cons_of_mem _ hb, hab⟩
    · intro b hb
      rcases List.mem_cons.mp hb with rfl | hb
      · exact ⟨x, List.mem_cons_self, hy⟩
      · obtain ⟨a, ha, hab⟩ := hright b hb
        exact ⟨a, List.mem_cons_of_mem _ ha, hab⟩

/-- A loop keeps what each element keeps. -/
theorem mapM_map_eq {κ : Type} {l : List α} {f : α → Except ε β} {ys : List β} {key : β → κ} {source : α → κ}
    (h : l.mapM f = .ok ys) (hf : ∀ x ∈ l, ∀ y, f x = .ok y → key y = source x) : ys.map key = l.map source := by
  induction l generalizing ys with
  | nil =>
    cases h
    rfl
  | cons x rest ih =>
    obtain ⟨hx, hrest⟩ := List.forall_mem_cons.mp hf
    rw [List.mapM_cons] at h
    obtain ⟨y, hy, h⟩ := bind_eq_ok.mp h
    obtain ⟨zs, hzs, h⟩ := bind_eq_ok.mp h
    cases h
    rw [List.map_cons, List.map_cons, hx y hy, ih hzs hrest]

theorem mapM_returns {l : List α} {f : α → Except ε β} (h : ∀ x ∈ l, ∃ y, f x = .ok y) : ∃ ys, l.mapM f = .ok ys := by
  induction l with
  | nil => exact ⟨[], rfl⟩
  | cons x rest ih =>
    obtain ⟨⟨y, hy⟩, hrest⟩ := List.forall_mem_cons.mp h
    obtain ⟨ys, hys⟩ := ih hrest
    exact ⟨y :: ys, by rw [List.mapM_cons, hy, ok_bind, hys]; rfl⟩

end Raising
end Autolean.Machine
