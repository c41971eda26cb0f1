import Autolean.Machine.Interleaving

/-! One program after another against one state. A program may be killed before any of its
operations and is then started anew; what it left stays. -/
namespace Autolean.Machine

variable {I : Interface} {ε α β Input σ : Type}

/-- Every operation of the program moves the state along `R`, and `post` holds of its result. -/
def Prog.Moves (exec : Semantics I ε Input σ) (R : σ → σ → Prop) (post : Except ε α → σ → Prop) : Prog I ε α → σ → Prop
  | .done r, s => post r s
  | .call op k, s => ∀ i, R s (exec op i s).2 ∧ (k (exec op i s).1).Moves exec R post (exec op i s).2

namespace Prog.Moves
variable {exec : Semantics I ε Input σ} {R : σ → σ → Prop} {post mid : Except ε α → σ → Prop} {s : σ}

theorem mono {p : Prog I ε α} (h : p.Moves exec R mid s)
    (himp : ∀ r s, mid r s → post r s) : p.Moves exec R post s := by
  induction p generalizing s with
  | done r => exact himp r s h
  | call op k ih =>
    intro i
    obtain ⟨hmove, hrest⟩ := h i
    exact ⟨hmove, ih _ hrest⟩

theorem bind {post : Except ε β → σ → Prop} {p : Prog I ε α} {f : α → Prog I ε β} (h : p.Moves exec R mid s)
    (hok : ∀ a s, mid (.ok a) s → (f a).Moves exec R post s) (herror : ∀ e s, mid (.error e) s → post (.error e) s) :
    (p >>= f).Moves exec R post s := by
  induction p generalizing s with
  | done r =>
    cases r with
    | ok a => exact hok a s h
    | error e => exact herror e s h
  | call op k ih =>
    intro i
    obtain ⟨hmove, hrest⟩ := h i
    exact ⟨hmove, ih _ hrest⟩

theorem ofExcept_bind {post : Except ε β → σ → Prop} {x : Except ε α} {f : α → Prog I ε β}
    (hok : ∀ a, x = .ok a → (f a).Moves exec R post s) (herror : ∀ e, x = .error e → post (.error e) s) :
    (Prog.ofExcept x >>= f).Moves exec R post s := by
  cases x with
  | ok a => exact hok a rfl
  | error e => exact herror e rfl

end Prog.Moves

/-! Restarts -/

/-- The state, and what is left of the running program. -/
structure Session (I : Interface) (ε σ α : Type) where
  state : σ
  program : Prog I ε α

namespace Session
variable {exec : Semantics I ε Input σ} {start : Prog I ε α} {R : σ → σ → Prop} {post : Except ε α → σ → Prop}

/-- The program takes its next operation, or is killed and started anew. -/
def step (exec : Semantics I ε Input σ) (start : Prog I ε α) (c : Session I ε σ α) : Option Input → Session I ε σ α
  | none => ⟨c.state, start⟩
  | some i =>
    match c.program with
    | .done _ => c
    | .call op k => ⟨(exec op i c.state).2, k (exec op i c.state).1⟩

/-- The state is moved along by every step, and the running program goes on to. -/
theorem step_moves (refl : ∀ s, R s s) (hstart : ∀ s, start.Moves exec R post s) {c : Session I ε σ α}
    (h : c.program.Moves exec R post c.state) (label : Option Input) :
    R c.state (c.step exec start label).state ∧
      (c.step exec start label).program.Moves exec R post (c.step exec start label).state := by
  cases label with
  | none => exact ⟨refl _, hstart _⟩
  | some i =>
    unfold step
    cases hp : c.program with
    | done r =>
      simp only
      exact ⟨refl _, h⟩
    | call op k =>
      rw [hp] at h
      exact h i

/-- Over every run the state is moved along, whatever was killed on the way, and a program that
has returned leaves what it promised. -/
theorem run_moves (refl : ∀ s, R s s) (trans : ∀ {a b c}, R a b → R b c → R a c)
    (hstart : ∀ s, start.Moves exec R post s) {c : Session I ε σ α} (h : c.program.Moves exec R post c.state)
    (labels : List (Option Input)) :
    R c.state (run (step exec start) c labels).state ∧
      (run (step exec start) c labels).program.Moves exec R post (run (step exec start) c labels).state := by
  obtain ⟨hprogram, hmoved⟩ := @run_keeps _ _ (step exec start) (fun c => c.program.Moves exec R post c.state)
    (fun c d => R c.state d.state) (fun c => refl c.state) trans
    (fun h label => (step_moves refl hstart h label).symm) _ h labels
  exact ⟨hmoved, hprogram⟩

end Session

end Autolean.Machine
