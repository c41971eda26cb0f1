import Autolean.Machine.Exchanges

/-! Rely-guarantee reasoning for pools of programs. Every program promises that
each operation it issues is allowed in the state it meets; allowed operations keep
the invariant and move the state along a preorder, so every program may rely on
both at every instant. -/
namespace Autolean.Machine

variable {I : Interface} {ε α β Input σ : Type}

/-- The contract between the resource and its clients. `may` selects the steps
under consideration; `Allowed` is what a client promises of an operation. -/
structure Protocol (I : Interface) (ε Input σ : Type) where
  exec : Semantics I ε Input σ
  Inv : σ → Prop
  Evolves : σ → σ → Prop
  Allowed : σ → I.Op → Prop
  may : σ → (op : I.Op) → Input → Prop
  refl : ∀ s, Evolves s s
  trans : ∀ {a b c}, Evolves a b → Evolves b c → Evolves a c
  step : ∀ {s op i}, Inv s → Allowed s op → may s op i →
    Inv (exec op i s).2 ∧ Evolves s (exec op i s).2

/-- From any state the others may have reached meanwhile, the program issues only
allowed operations, and `post` holds of its result from then on. -/
def Prog.Meets (P : Protocol I ε Input σ) (post : Except ε α → σ → Prop) : Prog I ε α → σ → Prop
  | .done r, s => ∀ t, P.Evolves s t → P.Inv t → post r t
  | .call op k, s => ∀ t, P.Evolves s t → P.Inv t → P.Allowed t op ∧
      ∀ i, P.may t op i → (k (P.exec op i t).1).Meets P post (P.exec op i t).2

namespace Prog.Meets
variable {P : Protocol I ε Input σ} {post : Except ε α → σ → Prop}

/-- A program's promise survives whatever the others do. -/
theorem evolve {p : Prog I ε α} {s t : σ} (h : p.Meets P post s) (he : P.Evolves s t) : p.Meets P post t := by
  cases p with
  | done r => exact fun u hu hi => h u (P.trans he hu) hi
  | call op k => exact fun u hu hi => h u (P.trans he hu) hi

theorem mono {post' : Except ε α → σ → Prop} {p : Prog I ε α} {s : σ} (h : p.Meets P post s)
    (hp : ∀ r t, P.Inv t → post r t → post' r t) : p.Meets P post' s := by
  induction p generalizing s with
  | done r => exact fun t ht hi => hp r t hi (h t ht hi)
  | call op k ih =>
    intro t ht hi
    obtain ⟨ha, hk⟩ := h t ht hi
    exact ⟨ha, fun i hm => ih _ (hk i hm)⟩

/-- Sequencing: the continuation starts from a state the first part led to. -/
theorem bind {post' : Except ε β → σ → Prop} {p : Prog I ε α} {f : α → Prog I ε β} {s : σ}
    (hs : P.Inv s) (h : p.Meets P post s)
    (hok : ∀ a t, P.Evolves s t → P.Inv t → post (.ok a) t → (f a).Meets P post' t)
    (herr : ∀ e t, P.Evolves s t → P.Inv t → post (.error e) t → post' (.error e) t) :
    (p >>= f).Meets P post' s := by
  induction p generalizing s with
  | done r =>
    cases r with
    | ok a => exact hok a s (P.refl s) hs (h s (P.refl s) hs)
    | error e => exact fun t ht hi => herr e t ht hi (h t ht hi)
  | call op k ih =>
    intro t ht hi
    obtain ⟨ha, hk⟩ := h t ht hi
    refine ⟨ha, fun i hm => ?_⟩
    obtain ⟨hi', he'⟩ := P.step hi ha hm
    have hst := P.trans ht he'
    exact ih _ hi' (hk i hm) (fun a u hu => hok a u (P.trans hst hu))
      (fun e u hu => herr e u (P.trans hst hu))

/-- Handling: an error of the first part is answered by the handler. -/
theorem handle {post' : Except ε α → σ → Prop} {p : Prog I ε α} {f : ε → Prog I ε α} {s : σ}
    (hs : P.Inv s) (h : p.Meets P post s)
    (hok : ∀ a t, P.Evolves s t → P.Inv t → post (.ok a) t → post' (.ok a) t)
    (herr : ∀ e t, P.Evolves s t → P.Inv t → post (.error e) t → (f e).Meets P post' t) :
    (tryCatch p f).Meets P post' s := by
  induction p generalizing s with
  | done r =>
    cases r with
    | ok a => exact fun t ht hi => hok a t ht hi (h t ht hi)
    | error e => exact herr e s (P.refl s) hs (h s (P.refl s) hs)
  | call op k ih =>
    intro t ht hi
    obtain ⟨ha, hk⟩ := h t ht hi
    refine ⟨ha, fun i hm => ?_⟩
    obtain ⟨hi', he'⟩ := P.step hi ha hm
    have hst := P.trans ht he'
    exact ih _ hi' (hk i hm) (fun a u hu => hok a u (P.trans hst hu))
      (fun e u hu => herr e u (P.trans hst hu))

/-- A finished program's result satisfies its postcondition now. -/
theorem result {r : Except ε α} {s : σ} (h : (Prog.done r : Prog I ε α).Meets P post s) (hi : P.Inv s) :
    post r s := h s (P.refl s) hi

/-- A promise kept under an invariant is kept under a stronger one. -/
theorem strengthen {P' : Protocol I ε Input σ} (hexec : P'.exec = P.exec) (hinv : ∀ s, P'.Inv s → P.Inv s)
    (hevolves : ∀ s t, P'.Evolves s t → P.Evolves s t) (hallowed : ∀ s op, P.Allowed s op → P'.Allowed s op)
    (hmay : ∀ s op i, P'.may s op i → P.may s op i) {p : Prog I ε α} {s : σ} (h : p.Meets P post s) :
    p.Meets P' post s := by
  induction p generalizing s with
  | done r => exact fun t ht hi => h t (hevolves s t ht) (hinv t hi)
  | call op k ih =>
    intro t ht hi
    obtain ⟨ha, hk⟩ := h t (hevolves s t ht) (hinv t hi)
    refine ⟨hallowed t op ha, fun i hm => ?_⟩
    rw [hexec]
    exact ih _ (hk i (hmay t op i hm))

theorem and {post' : Except ε α → σ → Prop} {p : Prog I ε α} {s : σ} (h : p.Meets P post s) (h' : p.Meets P post' s) :
    p.Meets P (fun r t => post r t ∧ post' r t) s := by
  induction p generalizing s with
  | done r => exact fun t ht hi => ⟨h t ht hi, h' t ht hi⟩
  | call op k ih =>
    intro t ht hi
    obtain ⟨ha, hk⟩ := h t ht hi
    exact ⟨ha, fun i hm => ih _ (hk i hm) ((h' t ht hi).2 i hm)⟩

/-- What holds of a result however the operations are answered holds beside the promise. -/
theorem ensures {Q : Except ε α → Prop} {p : Prog I ε α} {s : σ} (h : p.Meets P post s) (hq : p.Ensures fun _ r => Q r) :
    p.Meets P (fun r t => post r t ∧ Q r) s := by
  induction p generalizing s with
  | done r => exact fun t ht hi => ⟨h t ht hi, hq⟩
  | call op k ih =>
    intro t ht hi
    obtain ⟨ha, hk⟩ := h t ht hi
    exact ⟨ha, fun i hm => ih _ (hk i hm) (hq _)⟩

end Prog.Meets

/-- The program keeps its promise, and whenever it returns a value, `Q` holds of it from
then on. -/
def Prog.Yields (P : Protocol I ε Input σ) (Q : α → σ → Prop) (p : Prog I ε α) (s : σ) : Prop :=
  p.Meets P (fun r t => ∀ a, r = .ok a → Q a t) s

namespace Prog.Yields
variable {P : Protocol I ε Input σ} {Q : α → σ → Prop} {Q' : β → σ → Prop} {s : σ}

theorem mono {p : Prog I ε α} {R : α → σ → Prop} (h : p.Yields P Q s) (hq : ∀ a t, P.Inv t → Q a t → R a t) :
    p.Yields P R s :=
  Meets.mono h fun _ t ht hr a ha => hq a t ht (hr a ha)

theorem bind {p : Prog I ε α} {f : α → Prog I ε β} (hs : P.Inv s) (h : p.Yields P Q s)
    (hf : ∀ a t, P.Evolves s t → P.Inv t → Q a t → (f a).Yields P Q' t) : (p >>= f).Yields P Q' s := by
  refine Meets.bind hs h (fun a t ht hi hq => hf a t ht hi (hq a rfl)) ?_
  intro e t _ _ _ b hb
  cases hb

/-- A pure computation yields what holds of its value in every later state. -/
theorem ofExcept {x : Except ε α} (h : ∀ a, x = .ok a → ∀ t, P.Evolves s t → P.Inv t → Q a t) :
    (Prog.ofExcept x : Prog I ε α).Yields P Q s :=
  fun t ht hi a ha => h a ha t ht hi

theorem pure {a : α} (h : ∀ t, P.Evolves s t → P.Inv t → Q a t) : (Pure.pure a : Prog I ε α).Yields P Q s :=
  fun t ht hi b hb => by cases hb; exact h t ht hi

theorem throw {e : ε} : (MonadExcept.throw e : Prog I ε α).Yields P Q s :=
  fun _ _ _ _ hb => by cases hb

/-- One operation: it is allowed wherever it may be issued, and what it returns holds
from its own step on. -/
theorem perform {op : I.Op} {Q : I.Res op → σ → Prop} (ha : ∀ t, P.Evolves s t → P.Inv t → P.Allowed t op)
    (hq : ∀ t i a, P.Evolves s t → P.Inv t → P.may t op i → (P.exec op i t).1 = .ok a →
      ∀ u, P.Evolves (P.exec op i t).2 u → P.Inv u → Q a u) : (Prog.perform op : Prog I ε _).Yields P Q s := by
  intro t ht hi
  exact ⟨ha t ht hi, fun i hm u hu hiu a hea => hq t i a ht hi hm hea u hu hiu⟩

/-- A handler answers for the errors of the part it guards. -/
theorem handle {p : Prog I ε α} {f : ε → Prog I ε α} (hs : P.Inv s) (h : p.Yields P Q s)
    (hf : ∀ e t, P.Evolves s t → P.Inv t → (f e).Yields P Q t) : (tryCatch p f).Yields P Q s :=
  Meets.handle hs h (fun _ _ _ _ hq => hq) fun e t ht hi _ => hf e t ht hi

/-- A loop keeps its promise when its body does, wherever it starts. -/
theorem forM {γ : Type} {l : List γ} {f : γ → Prog I ε PUnit} (hs : P.Inv s)
    (hf : ∀ x ∈ l, ∀ t, P.Inv t → (f x).Yields P (fun _ _ => True) t) : (l.forM f).Yields P (fun _ _ => True) s := by
  induction l generalizing s with
  | nil => exact pure fun _ _ _ => trivial
  | cons x rest ih =>
    refine bind hs (hf x List.mem_cons_self s hs) fun _ t _ ht _ => ?_
    exact ih ht fun y hy => hf y (List.mem_cons_of_mem x hy)

/-- A program that issues only operations allowed everywhere keeps its promise. -/
theorem ofIssues {ok : I.Op → Prop} (hok : ∀ t op, ok op → P.Allowed t op) {p : Prog I ε α} (h : p.Issues ok) :
    p.Yields P (fun _ _ => True) s := by
  induction p generalizing s with
  | done r => exact fun _ _ _ _ _ => trivial
  | call op k ih => exact fun t _ _ => ⟨hok t op h.1, fun i _ => ih _ (h.2 _)⟩

end Prog.Yields

/-- The invariant holds and every thread keeps its promise. -/
structure Pool.Sound {θ : Type} (P : Protocol I ε Input σ) (post : θ → Except ε α → σ → Prop)
    (c : Pool I ε σ θ α) : Prop where
  inv : P.Inv c.state
  meets : ∀ i, (c.threads i).Meets P (post i) c.state

variable {θ : Type} {P : Protocol I ε Input σ} {post : θ → Except ε α → σ → Prop}

/-- The operation a thread is about to issue is allowed now. -/
theorem Pool.Sound.allowed {c : Pool I ε σ θ α} (h : c.Sound P post) {i : θ} {op : I.Op}
    {k : Except ε (I.Res op) → Prog I ε α} (hc : c.threads i = .call op k) : P.Allowed c.state op := by
  have hm := h.meets i
  rw [hc] at hm
  exact (hm c.state (P.refl _) h.inv).1

/-- A thread that has returned satisfies its postcondition in the state reached. -/
theorem Pool.Sound.result {c : Pool I ε σ θ α} (h : c.Sound P post) {i : θ} {r : Except ε α}
    (hr : c.threads i = .done r) : post i r c.state := by
  have hm := h.meets i
  rw [hr] at hm
  exact hm.result h.inv

variable [DecidableEq θ]

/-- One step of any thread keeps every thread's promise. -/
theorem Pool.Sound.step {c : Pool I ε σ θ α} (h : c.Sound P post) {l : θ × Input} (ha : c.Admits P.may l) :
    (c.step P.exec l).Sound P post ∧ P.Evolves c.state (c.step P.exec l).state := by
  cases hc : c.threads l.1 with
  | done r =>
    rw [Pool.step_done P.exec hc]
    exact ⟨h, P.refl _⟩
  | call op k =>
    have hm := h.meets l.1
    rw [hc] at hm
    obtain ⟨hallowed, hk⟩ := hm c.state (P.refl _) h.inv
    have hmay : P.may c.state op l.2 := by simpa [Pool.Admits, hc] using ha
    obtain ⟨hi, he⟩ := P.step h.inv hallowed hmay
    rw [Pool.step_call P.exec hc]
    refine ⟨⟨hi, fun j => ?_⟩, he⟩
    by_cases hj : j = l.1
    · subst hj
      simpa using hk l.2 hmay
    · simpa [Function.update_of_ne hj] using (h.meets j).evolve he

/-- Every interleaving whose steps are admitted keeps the invariant, moves along
the preorder and keeps every thread's promise. -/
theorem Pool.Sound.run {c : Pool I ε σ θ α} (h : c.Sound P post) {labels : List (θ × Input)}
    (hs : StepsMeet (Pool.step P.exec) (Pool.Admits P.may) c labels) :
    (run (Pool.step P.exec) c labels).Sound P post ∧
      P.Evolves c.state (Machine.run (Pool.step P.exec) c labels).state := by
  induction labels generalizing c with
  | nil => exact ⟨h, P.refl _⟩
  | cons l labels ih =>
    obtain ⟨hstep, he⟩ := h.step hs.1
    obtain ⟨hrun, he'⟩ := ih hstep hs.2
    exact ⟨hrun, P.trans he he'⟩

end Autolean.Machine
