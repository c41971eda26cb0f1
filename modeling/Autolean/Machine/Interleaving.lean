import Autolean.Machine.Runs
import Mathlib.Logic.Function.Basic

/-! Programs over a shared resource, and their interleavings. A program issues
atomic operations one at a time and continues from each reply; a pool runs any
number of programs against one state, and a schedule picks who goes next. -/
namespace Autolean.Machine

/-- The atomic operations of a resource, with the value each returns. -/
structure Interface where
  Op : Type
  Res : Op → Type

/-- A client of the resource. An operation that fails is visible to the
continuation, so a program can re-raise or handle it. -/
inductive Prog (I : Interface) (ε α : Type) where
  | done (r : Except ε α)
  | call (op : I.Op) (k : Except ε (I.Res op) → Prog I ε α)

variable {I : Interface} {ε α β Input σ : Type}

namespace Prog

def bind : Prog I ε α → (α → Prog I ε β) → Prog I ε β
  | .done (.ok a), f => f a
  | .done (.error e), _ => .done (.error e)
  | .call op k, f => .call op fun r => (k r).bind f

/-- `try ... except`: a raised error is passed to the handler. -/
def handle : Prog I ε α → (ε → Prog I ε α) → Prog I ε α
  | .done (.ok a), _ => .done (.ok a)
  | .done (.error e), h => h e
  | .call op k, h => .call op fun r => (k r).handle h

instance : Monad (Prog I ε) where
  pure a := .done (.ok a)
  bind := Prog.bind

instance : MonadExceptOf ε (Prog I ε) where
  throw e := .done (.error e)
  tryCatch := Prog.handle

/-- Issue one operation and return its value, re-raising its error. -/
def perform (op : I.Op) : Prog I ε (I.Res op) := .call op .done

/-- A pure computation that may raise. -/
def ofExcept (r : Except ε α) : Prog I ε α := .done r

@[simp] theorem pure_eq (a : α) : (pure a : Prog I ε α) = .done (.ok a) := rfl
@[simp] theorem throw_eq (e : ε) : (throw e : Prog I ε α) = .done (.error e) := rfl
@[simp] theorem done_ok_bind (a : α) (f : α → Prog I ε β) : (Prog.done (.ok a) : Prog I ε α) >>= f = f a := rfl
@[simp] theorem done_error_bind (e : ε) (f : α → Prog I ε β) :
    (Prog.done (.error e) : Prog I ε α) >>= f = .done (.error e) := rfl
@[simp] theorem call_bind (op : I.Op) (k : Except ε (I.Res op) → Prog I ε α) (f : α → Prog I ε β) :
    (Prog.call op k) >>= f = .call op fun r => k r >>= f := rfl

@[simp] theorem handle_ok (a : α) (h : ε → Prog I ε α) :
    tryCatch (Prog.done (.ok a) : Prog I ε α) h = .done (.ok a) := rfl
@[simp] theorem handle_error (e : ε) (h : ε → Prog I ε α) :
    tryCatch (Prog.done (.error e) : Prog I ε α) h = h e := rfl

/-- Whatever it is answered, the program issues only operations that satisfy `ok`. -/
def Issues (ok : I.Op → Prop) : Prog I ε α → Prop
  | .done _ => True
  | .call op k => ok op ∧ ∀ r, (k r).Issues ok

namespace Issues
variable {ok : I.Op → Prop}

theorem imp {ok' : I.Op → Prop} (himp : ∀ op, ok op → ok' op) {p : Prog I ε α} (h : p.Issues ok) : p.Issues ok' := by
  induction p with
  | done r => trivial
  | call op k ih => exact ⟨himp op h.1, fun r => ih r (h.2 r)⟩

theorem ofExcept (r : Except ε α) : (Prog.ofExcept r : Prog I ε α).Issues ok := trivial

theorem pure (a : α) : (Pure.pure a : Prog I ε α).Issues ok := trivial

theorem throw (e : ε) : (MonadExcept.throw e : Prog I ε α).Issues ok := trivial

theorem perform {op : I.Op} (h : ok op) : (Prog.perform op : Prog I ε _).Issues ok := ⟨h, fun _ => trivial⟩

theorem bind {p : Prog I ε α} {f : α → Prog I ε β} (hp : p.Issues ok) (hf : ∀ a, (f a).Issues ok) :
    (p >>= f).Issues ok := by
  induction p with
  | done r => cases r with
    | ok a => exact hf a
    | error e => trivial
  | call op k ih => exact ⟨hp.1, fun r => ih r (hp.2 r)⟩

theorem ofExcept_bind {x : Except ε α} {f : α → Prog I ε β} (hf : ∀ a, x = .ok a → (f a).Issues ok) :
    (Prog.ofExcept x >>= f).Issues ok := by
  cases x with
  | ok a => exact hf a rfl
  | error e => trivial

theorem handle {p : Prog I ε α} {f : ε → Prog I ε α} (hp : p.Issues ok) (hf : ∀ e, (f e).Issues ok) :
    (tryCatch p f).Issues ok := by
  induction p with
  | done r => cases r with
    | ok a => trivial
    | error e => exact hf e
  | call op k ih => exact ⟨hp.1, fun r => ih r (hp.2 r)⟩

end Issues

end Prog

/-- How the resource answers each operation. The input is what the environment
supplies to that step: a clock reading, fresh identifiers. -/
abbrev Semantics (I : Interface) (ε Input σ : Type) :=
  (op : I.Op) → Input → σ → Except ε (I.Res op) × σ

/-- The shared state and what is left of every program. -/
structure Pool (I : Interface) (ε σ : Type) (θ : Type) (α : Type) where
  state : σ
  threads : θ → Prog I ε α

variable {θ : Type}

/-- The operation about to be issued satisfies `may` in the current state. -/
def Pool.Admits (may : σ → (op : I.Op) → Input → Prop) (c : Pool I ε σ θ α) (l : θ × Input) : Prop :=
  match c.threads l.1 with
  | .done _ => True
  | .call op _ => may c.state op l.2

theorem Pool.Admits.mono {may may' : σ → (op : I.Op) → Input → Prop} {c : Pool I ε σ θ α} {l : θ × Input}
    (hm : ∀ op, may c.state op l.2 → may' c.state op l.2) (h : c.Admits may l) : c.Admits may' l := by
  unfold Pool.Admits at h ⊢
  cases hc : c.threads l.1 with
  | done r => trivial
  | call op k =>
    rw [hc] at h
    exact hm op h

theorem Pool.Admits.and {may may' : σ → (op : I.Op) → Input → Prop} {c : Pool I ε σ θ α} {l : θ × Input}
    (h : c.Admits may l) (h' : c.Admits may' l) : c.Admits (fun s op i => may s op i ∧ may' s op i) l := by
  unfold Pool.Admits at h h' ⊢
  cases hc : c.threads l.1 with
  | done r => trivial
  | call op k =>
    rw [hc] at h h'
    exact ⟨h, h'⟩

variable [DecidableEq θ]

/-- Thread `l.1` takes its next operation; a finished thread does nothing. -/
def Pool.step (exec : Semantics I ε Input σ) (c : Pool I ε σ θ α) (l : θ × Input) : Pool I ε σ θ α :=
  match c.threads l.1 with
  | .done _ => c
  | .call op k =>
    ⟨(exec op l.2 c.state).2, Function.update c.threads l.1 (k (exec op l.2 c.state).1)⟩

theorem Pool.step_done (exec : Semantics I ε Input σ) {c : Pool I ε σ θ α} {l : θ × Input} {r : Except ε α}
    (h : c.threads l.1 = .done r) : c.step exec l = c := by
  simp [Pool.step, h]

theorem Pool.step_call (exec : Semantics I ε Input σ) {c : Pool I ε σ θ α} {l : θ × Input} {op : I.Op}
    {k : Except ε (I.Res op) → Prog I ε α} (h : c.threads l.1 = .call op k) :
    c.step exec l =
      ⟨(exec op l.2 c.state).2, Function.update c.threads l.1 (k (exec op l.2 c.state).1)⟩ := by
  simp [Pool.step, h]

end Autolean.Machine
