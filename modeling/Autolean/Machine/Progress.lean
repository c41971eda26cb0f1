import Autolean.Machine.RelyGuarantee

/-! Programs that come to an end: a program alone against the resource, and what it is certain to
return among others. -/
namespace Autolean.Machine

variable {I : Interface} {ε α β Input σ : Type}

namespace Prog

/-- The program alone: its result, the inputs it has not used and the state it leaves. -/
def execute (exec : Semantics I ε Input σ) : Prog I ε α → (Nat → Input) → σ → Except ε α × (Nat → Input) × σ
  | .done r, inputs, s => (r, inputs, s)
  | .call op k, inputs, s =>
    (k (exec op (inputs 0) s).1).execute exec (fun n => inputs (n + 1)) (exec op (inputs 0) s).2

section
variable {exec : Semantics I ε Input σ} {inputs rest : Nat → Input} {s s' : σ}

theorem execute_bind_ok {p : Prog I ε α} {f : α → Prog I ε β} {a : α}
    (h : p.execute exec inputs s = (.ok a, rest, s')) : (p >>= f).execute exec inputs s = (f a).execute exec rest s' := by
  induction p generalizing inputs s with
  | done r =>
    simp only [execute, Prod.mk.injEq] at h
    obtain ⟨rfl, rfl, rfl⟩ := h
    rfl
  | call op k ih => exact ih _ h

theorem execute_bind_error {p : Prog I ε α} {f : α → Prog I ε β} {e : ε}
    (h : p.execute exec inputs s = (.error e, rest, s')) : (p >>= f).execute exec inputs s = (.error e, rest, s') := by
  induction p generalizing inputs s with
  | done r =>
    simp only [execute, Prod.mk.injEq] at h
    obtain ⟨rfl, rfl, rfl⟩ := h
    rfl
  | call op k ih => exact ih _ h

theorem execute_handle_ok {p : Prog I ε α} {f : ε → Prog I ε α} {a : α}
    (h : p.execute exec inputs s = (.ok a, rest, s')) : (tryCatch p f).execute exec inputs s = (.ok a, rest, s') := by
  induction p generalizing inputs s with
  | done r =>
    simp only [execute, Prod.mk.injEq] at h
    obtain ⟨rfl, rfl, rfl⟩ := h
    rfl
  | call op k ih => exact ih _ h

theorem execute_handle_error {p : Prog I ε α} {f : ε → Prog I ε α} {e : ε}
    (h : p.execute exec inputs s = (.error e, rest, s')) :
    (tryCatch p f).execute exec inputs s = (f e).execute exec rest s' := by
  induction p generalizing inputs s with
  | done r =>
    simp only [execute, Prod.mk.injEq] at h
    obtain ⟨rfl, rfl, rfl⟩ := h
    rfl
  | call op k ih => exact ih _ h

/-- A sequence returns when its parts do. -/
theorem execute_bind_eq_ok {p : Prog I ε α} {f : α → Prog I ε β} {b : β} :
    (p >>= f).execute exec inputs s = (.ok b, rest, s') ↔
      ∃ a mid t, p.execute exec inputs s = (.ok a, mid, t) ∧ (f a).execute exec mid t = (.ok b, rest, s') := by
  rcases hp : p.execute exec inputs s with ⟨r, mid, t⟩
  cases r with
  | ok a =>
    rw [execute_bind_ok hp]
    constructor
    · exact fun h => ⟨a, mid, t, rfl, h⟩
    · rintro ⟨a', mid', t', ha, h⟩
      cases ha
      exact h
  | error e =>
    rw [execute_bind_error hp]
    constructor
    · rintro ⟨⟩
    · rintro ⟨_, _, _, ha, -⟩
      cases ha

/-- A program whose handler only raises returns when the guarded part does. -/
theorem execute_guarded_eq_ok {p : Prog I ε α} {f : ε → Prog I ε α} (hf : ∀ e, ∃ e', f e = throw e') {a : α} :
    (tryCatch p f).execute exec inputs s = (.ok a, rest, s') ↔ p.execute exec inputs s = (.ok a, rest, s') := by
  constructor
  · intro h
    rcases hp : p.execute exec inputs s with ⟨r, rest', t⟩
    cases r with
    | ok a' =>
      rw [execute_handle_ok hp] at h
      exact h
    | error e =>
      obtain ⟨e', he⟩ := hf e
      rw [execute_handle_error hp, he] at h
      cases h
  · exact execute_handle_ok

theorem execute_ofExcept_eq_ok {x : Except ε α} {a : α} :
    (Prog.ofExcept x : Prog I ε α).execute exec inputs s = (.ok a, rest, s') ↔ x = .ok a ∧ inputs = rest ∧ s = s' := by
  simp only [ofExcept, execute, Prod.mk.injEq]

theorem execute_pure_eq_ok {a b : α} :
    (Pure.pure a : Prog I ε α).execute exec inputs s = (.ok b, rest, s') ↔ a = b ∧ inputs = rest ∧ s = s' := by
  simp only [pure_eq, execute, Prod.mk.injEq, Except.ok.injEq]

theorem execute_perform_eq_ok {op : I.Op} {a : I.Res op} :
    (Prog.perform op : Prog I ε _).execute exec inputs s = (.ok a, rest, s') ↔
      (exec op (inputs 0) s).1 = .ok a ∧ (fun n => inputs (n + 1)) = rest ∧ (exec op (inputs 0) s).2 = s' := by
  simp only [perform, execute, Prod.mk.injEq]

end

/-- A reply that is `bad` ends the program with an error. -/
def EndsOn (bad : (op : I.Op) → Except ε (I.Res op) → Prop) : Prog I ε α → Prop
  | .done _ => True
  | .call op k => (∀ r, bad op r → ∃ e, k r = .done (.error e)) ∧ ∀ r, (k r).EndsOn bad

namespace EndsOn
variable {bad : (op : I.Op) → Except ε (I.Res op) → Prop}

/-- No reply is bad for a program that issues only operations without bad replies. -/
theorem ofIssues {ok : I.Op → Prop} {p : Prog I ε α} (h : p.Issues ok) (hok : ∀ op, ok op → ∀ r, ¬ bad op r) :
    p.EndsOn bad := by
  induction p with
  | done r => trivial
  | call op k ih => exact ⟨fun r hr => absurd hr (hok op h.1 r), fun r => ih r (h.2 r)⟩

theorem bind {p : Prog I ε α} {f : α → Prog I ε β} (hp : p.EndsOn bad) (hf : ∀ a, (f a).EndsOn bad) :
    (p >>= f).EndsOn bad := by
  induction p with
  | done r => cases r with
    | ok a => exact hf a
    | error e => trivial
  | call op k ih =>
    refine ⟨fun r hr => ?_, fun r => ih r (hp.2 r)⟩
    obtain ⟨e, he⟩ := hp.1 r hr
    exact ⟨e, congrArg (· >>= f) he⟩

end EndsOn

/-- The program keeps its promise and returns a value, of which `Q` holds from then on. -/
def Returns (P : Protocol I ε Input σ) (Q : α → σ → Prop) (p : Prog I ε α) (s : σ) : Prop :=
  p.Meets P (fun r t => ∃ a, r = .ok a ∧ Q a t) s

namespace Returns
variable {P : Protocol I ε Input σ} {Q : α → σ → Prop} {Q' : β → σ → Prop} {s : σ}

theorem bind {p : Prog I ε α} {f : α → Prog I ε β} (hs : P.Inv s) (h : p.Returns P Q s)
    (hf : ∀ a t, P.Evolves s t → P.Inv t → Q a t → (f a).Returns P Q' t) : (p >>= f).Returns P Q' s := by
  refine Meets.bind hs h ?_ ?_
  · rintro a t ht hi ⟨_, ⟨rfl⟩, hq⟩
    exact hf a t ht hi hq
  · rintro e t _ _ ⟨_, he, -⟩
    cases he

theorem pure {a : α} (h : ∀ t, P.Evolves s t → P.Inv t → Q a t) : (Pure.pure a : Prog I ε α).Returns P Q s :=
  fun t ht hi => ⟨a, rfl, h t ht hi⟩

theorem perform {op : I.Op} {Q : I.Res op → σ → Prop} (ha : ∀ t, P.Evolves s t → P.Inv t → P.Allowed t op)
    (hq : ∀ t i, P.Evolves s t → P.Inv t → P.may t op i → ∃ a, (P.exec op i t).1 = .ok a ∧
      ∀ u, P.Evolves (P.exec op i t).2 u → P.Inv u → Q a u) : (Prog.perform op : Prog I ε _).Returns P Q s := by
  intro t ht hi
  refine ⟨ha t ht hi, fun i hm u hu hiu => ?_⟩
  obtain ⟨a, hea, hqa⟩ := hq t i ht hi hm
  exact ⟨a, hea, hqa u hu hiu⟩

/-- A handler is not reached by what returns. -/
theorem handle {p : Prog I ε α} {f : ε → Prog I ε α} (hs : P.Inv s) (h : p.Returns P Q s) :
    (tryCatch p f).Returns P Q s := by
  refine Meets.handle hs h (fun _ _ _ _ hq => hq) ?_
  rintro e t _ _ ⟨_, he, -⟩
  cases he

end Returns

end Prog

section
variable {θ : Type} [DecidableEq θ] {exec : Semantics I ε Input σ}

/-- A step of a pool leaves every thread a program it could have continued with. -/
theorem Pool.step_thread (exec : Semantics I ε Input σ) (c : Pool I ε σ θ α) (l : θ × Input) (i : θ) :
    (c.step exec l).threads i = c.threads i ∨
      l.1 = i ∧ ∃ op k r, c.threads i = .call op k ∧ (c.step exec l).threads i = k r := by
  cases hc : c.threads l.1 with
  | done r =>
    rw [Pool.step_done exec hc]
    exact .inl rfl
  | call op k =>
    rw [Pool.step_call exec hc]
    by_cases hi : i = l.1
    · subst hi
      exact .inr ⟨rfl, op, k, _, hc, Function.update_self ..⟩
    · exact .inl (Function.update_of_ne hi _ _)

/-- What each thread confines its operations to, it keeps to after a step. -/
theorem Pool.step_issues {ok : θ → I.Op → Prop} {c : Pool I ε σ θ α} (h : ∀ i, (c.threads i).Issues (ok i)) (l : θ × Input)
    (i : θ) : ((c.step exec l).threads i).Issues (ok i) := by
  obtain heq | ⟨-, op, k, r, hc, hk⟩ := c.step_thread exec l i
  · rw [heq]
    exact h i
  · have hi := h i
    rw [hc] at hi
    rw [hk]
    exact hi.2 r

/-- A thread that has returned stays as it is. -/
theorem Pool.run_kept {c : Pool I ε σ θ α} {i : θ} {r : Except ε α} (h : c.threads i = .done r) (labels : List (θ × Input)) :
    (Machine.run (Pool.step exec) c labels).threads i = .done r := by
  induction labels generalizing c with
  | nil => exact h
  | cons l labels ih =>
    apply ih
    obtain heq | ⟨-, op, k, reply, hc, -⟩ := c.step_thread exec l i
    · rw [heq, h]
    · rw [h] at hc
      cases hc

theorem Pool.step_endsOn {bad : (op : I.Op) → Except ε (I.Res op) → Prop} {c : Pool I ε σ θ α}
    (h : ∀ i, (c.threads i).EndsOn bad) (l : θ × Input) (i : θ) : ((c.step exec l).threads i).EndsOn bad := by
  obtain heq | ⟨-, op, k, r, hc, hk⟩ := c.step_thread exec l i
  · rw [heq]
    exact h i
  · have hi := h i
    rw [hc] at hi
    rw [hk]
    exact hi.2 r

/-- Where every thread ends on a bad reply and none of them has raised, no reply was bad. -/
theorem Pool.stepsMeet_of_endsOn {bad : (op : I.Op) → Except ε (I.Res op) → Prop} {c : Pool I ε σ θ α}
    (h : ∀ i, (c.threads i).EndsOn bad) {labels : List (θ × Input)}
    (hok : ∀ i e, (Machine.run (Pool.step exec) c labels).threads i ≠ .done (.error e)) :
    StepsMeet (Pool.step exec) (Pool.Admits fun s op i => ¬ bad op (exec op i s).1) c labels := by
  induction labels generalizing c with
  | nil => trivial
  | cons l labels ih =>
    refine ⟨?_, ih (fun i => Pool.step_endsOn h l i) hok⟩
    unfold Pool.Admits
    cases hc : c.threads l.1 with
    | done r => trivial
    | call op k =>
      intro hbad
      have hends := h l.1
      rw [hc] at hends
      obtain ⟨e, he⟩ := hends.1 _ hbad
      apply hok l.1 e
      refine Pool.run_kept (c := c.step exec l) ?_ labels
      rw [Pool.step_call exec hc, ← he]
      exact Function.update_self ..

/-- A thread that runs alone, on one input, comes to the end its program has alone. -/
theorem Pool.run_alone {c : Pool I ε σ θ α} {i : θ} {p : Prog I ε α} (hp : c.threads i = p) {input : Input}
    {r : Except ε α} {rest : Nat → Input} {s : σ} (h : p.execute exec (fun _ => input) c.state = (r, rest, s)) :
    ∃ n, Machine.run (Pool.step exec) c (List.replicate n (i, input)) = ⟨s, Function.update c.threads i (.done r)⟩ := by
  induction p generalizing c with
  | done r' =>
    simp only [Prog.execute, Prod.mk.injEq] at h
    obtain ⟨rfl, -, rfl⟩ := h
    exact ⟨0, by rw [← hp, Function.update_eq_self]; rfl⟩
  | call op k ih =>
    have hstep := Pool.step_call exec (l := (i, input)) hp
    have hthread : (c.step exec (i, input)).threads i = k (exec op input c.state).1 := by
      rw [hstep]
      exact Function.update_self ..
    obtain ⟨n, hn⟩ := ih _ hthread (by rw [hstep]; exact h)
    refine ⟨n + 1, hn.trans ?_⟩
    rw [hstep, Function.update_idem]

/-- The pool after the first `n` turns of an endless schedule. -/
def Pool.after (exec : Semantics I ε Input σ) (c : Pool I ε σ θ α) (schedule : Nat → θ × Input) (n : Nat) : Pool I ε σ θ α :=
  Machine.run (Pool.step exec) c ((List.range n).map schedule)

theorem Pool.after_succ (exec : Semantics I ε Input σ) (c : Pool I ε σ θ α) (schedule : Nat → θ × Input) (n : Nat) :
    c.after exec schedule (n + 1) = (c.after exec schedule n).step exec (schedule n) := by
  simp only [Pool.after, List.range_succ, List.map_append, run_append]
  rfl

/-- A thread that is given infinitely many turns comes to its end. -/
theorem Pool.after_ends {c : Pool I ε σ θ α} {i : θ} {schedule : Nat → θ × Input}
    (hturns : ∀ n, ∃ m, n ≤ m ∧ (schedule m).1 = i) : ∃ n r, (c.after exec schedule n).threads i = .done r := by
  have hends : ∀ (p : Prog I ε α) (start : Nat), (c.after exec schedule start).threads i = p →
      ∃ n r, (c.after exec schedule n).threads i = .done r := by
    intro p
    induction p with
    | done r => exact fun start hp => ⟨start, r, hp⟩
    | call op k ih =>
      intro start hp
      obtain ⟨m, hm, hturn⟩ := hturns start
      obtain ⟨d, rfl⟩ := Nat.exists_eq_add_of_le hm
      induction d generalizing start with
      | zero =>
        apply ih _ (start + 1)
        rw [Nat.add_zero] at hturn
        rw [Pool.after_succ, Pool.step_call exec (hturn ▸ hp), hturn]
        exact Function.update_self ..
      | succ d ihd =>
        obtain heq | ⟨-, op', k', r, hc, hk⟩ := (c.after exec schedule start).step_thread exec (schedule start) i
        · apply ihd (start + 1) _ (by omega) (by rwa [show start + 1 + d = start + (d + 1) by omega])
          rw [Pool.after_succ, heq, hp]
        · rw [hp] at hc
          cases hc
          exact ih r (start + 1) (by rw [Pool.after_succ, hk])
  exact hends _ 0 rfl

end
end Autolean.Machine
