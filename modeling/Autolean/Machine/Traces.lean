import Autolean.Machine.RelyGuarantee

/-! The history of a pool: which thread issued which operation and what it was answered.
A relation between the history and the state that every allowed operation keeps holds
along every run of a sound pool. -/
namespace Autolean.Machine

variable {I : Interface} {ε α Input σ θ : Type}

/-- One operation of a run, and the reply to it. -/
structure Event (I : Interface) (ε θ : Type) where
  thread : θ
  op : I.Op
  reply : Except ε (I.Res op)

/-- What a step adds to the history; a finished thread adds nothing. -/
def Pool.event (exec : Semantics I ε Input σ) (c : Pool I ε σ θ α) (l : θ × Input) : List (Event I ε θ) :=
  match c.threads l.1 with
  | .done _ => []
  | .call op _ => [⟨l.1, op, (exec op l.2 c.state).1⟩]

theorem Pool.event_done (exec : Semantics I ε Input σ) {c : Pool I ε σ θ α} {l : θ × Input} {r : Except ε α}
    (h : c.threads l.1 = .done r) : c.event exec l = [] := by
  simp [Pool.event, h]

theorem Pool.event_call (exec : Semantics I ε Input σ) {c : Pool I ε σ θ α} {l : θ × Input} {op : I.Op}
    {k : Except ε (I.Res op) → Prog I ε α} (h : c.threads l.1 = .call op k) :
    c.event exec l = [⟨l.1, op, (exec op l.2 c.state).1⟩] := by
  simp [Pool.event, h]

variable [DecidableEq θ]

/-- The history of a run. -/
def Pool.trace (exec : Semantics I ε Input σ) : Pool I ε σ θ α → List (θ × Input) → List (Event I ε θ)
  | _, [] => []
  | c, l :: labels => c.event exec l ++ Pool.trace exec (c.step exec l) labels

theorem Pool.trace_append (exec : Semantics I ε Input σ) (c : Pool I ε σ θ α) (xs ys : List (θ × Input)) :
    c.trace exec (xs ++ ys) = c.trace exec xs ++ (run (Pool.step exec) c xs).trace exec ys := by
  induction xs generalizing c with
  | nil => rfl
  | cons x xs ih => simp only [List.cons_append, Pool.trace, ih, run_cons, List.append_assoc]

variable {P : Protocol I ε Input σ} {post : θ → Except ε α → σ → Prop}

/-- The operation keeps the relation `T` between the history and the state, wherever
the protocol allows it. -/
def Protocol.Traces (P : Protocol I ε Input σ) (T : List (Event I ε θ) → σ → Prop) : Prop :=
  ∀ h s j op i, P.Inv s → P.Allowed s op → P.may s op i → T h s → T (h ++ [⟨j, op, (P.exec op i s).1⟩]) (P.exec op i s).2

/-- What every allowed operation keeps of the history holds at the end of every run. -/
theorem Pool.Sound.traced {T : List (Event I ε θ) → σ → Prop} (hT : P.Traces T) {c : Pool I ε σ θ α}
    (hc : c.Sound P post) {h : List (Event I ε θ)} (h0 : T h c.state) {labels : List (θ × Input)}
    (hs : StepsMeet (Pool.step P.exec) (Pool.Admits P.may) c labels) :
    T (h ++ c.trace P.exec labels) (Machine.run (Pool.step P.exec) c labels).state := by
  induction labels generalizing c h with
  | nil => simpa [Pool.trace] using h0
  | cons l labels ih =>
    obtain ⟨hc', -⟩ := hc.step hs.1
    rw [Pool.trace, ← List.append_assoc, run_cons]
    apply ih hc' _ hs.2
    cases hl : c.threads l.1 with
    | done r => rwa [Pool.event_done P.exec hl, List.append_nil, Pool.step_done P.exec hl]
    | call op k =>
      have hmay : P.may c.state op l.2 := by simpa [Pool.Admits, hl] using hs.1
      rw [Pool.event_call P.exec hl, Pool.step_call P.exec hl]
      exact hT h c.state l.1 op l.2 hc.inv (hc.allowed hl) hmay h0

end Autolean.Machine
