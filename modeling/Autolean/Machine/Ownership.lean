import Autolean.Machine.Progress

/-! Rely-guarantee reasoning in which every program has its own view of what the others may
do, so that a program can own a part of the state and know what it holds. -/
namespace Autolean.Machine

variable {I : Interface} {ε α β Input σ θ : Type}

/-- The contract of programs that own parts of the state. `Rely i` bounds what program `i`
may find changed by the others; `Allowed i` is what it promises of its own operations. -/
structure Shared (I : Interface) (ε Input σ θ : Type) where
  exec : Semantics I ε Input σ
  Inv : σ → Prop
  Rely : θ → σ → σ → Prop
  Allowed : θ → σ → I.Op → Prop
  may : σ → (op : I.Op) → Input → Prop
  refl : ∀ i s, Rely i s s
  trans : ∀ {i a b c}, Rely i a b → Rely i b c → Rely i a c
  step : ∀ {i s op input}, Inv s → Allowed i s op → may s op input →
    Inv (exec op input s).2 ∧ ∀ j, j ≠ i → Rely j s (exec op input s).2

/-- Whatever the others do, program `i` issues only operations it is allowed, and `post`
holds of its result from then on. -/
def Prog.Keeps (S : Shared I ε Input σ θ) (i : θ) (post : Except ε α → σ → Prop) : Prog I ε α → σ → Prop
  | .done r, s => ∀ t, S.Rely i s t → S.Inv t → post r t
  | .call op k, s => ∀ t, S.Rely i s t → S.Inv t → S.Allowed i t op ∧
      ∀ input, S.may t op input → (k (S.exec op input t).1).Keeps S i post (S.exec op input t).2

namespace Prog.Keeps
variable {S : Shared I ε Input σ θ} {i : θ} {post : Except ε α → σ → Prop} {s t : σ}

/-- A program's promise survives what the others do. -/
theorem evolve {p : Prog I ε α} (h : p.Keeps S i post s) (ht : S.Rely i s t) : p.Keeps S i post t := by
  cases p with
  | done r => exact fun u hu hi => h u (S.trans ht hu) hi
  | call op k => exact fun u hu hi => h u (S.trans ht hu) hi

theorem mono {post' : Except ε α → σ → Prop} {p : Prog I ε α} (h : p.Keeps S i post s)
    (hp : ∀ r t, S.Inv t → post r t → post' r t) : p.Keeps S i post' s := by
  induction p generalizing s with
  | done r => exact fun t ht hi => hp r t hi (h t ht hi)
  | call op k ih =>
    intro t ht hi
    obtain ⟨ha, hk⟩ := h t ht hi
    exact ⟨ha, fun input hm => ih _ (hk input hm)⟩

/-- Sequencing: all the continuation knows is what the first part established. -/
theorem bind {post' : Except ε β → σ → Prop} {p : Prog I ε α} {f : α → Prog I ε β} (hs : S.Inv s)
    (h : p.Keeps S i post s) (hok : ∀ a t, S.Inv t → post (.ok a) t → (f a).Keeps S i post' t)
    (herr : ∀ e t, S.Inv t → post (.error e) t → post' (.error e) t) : (p >>= f).Keeps S i post' s := by
  induction p generalizing s with
  | done r =>
    cases r with
    | ok a => exact hok a s hs (h s (S.refl i s) hs)
    | error e => exact fun t ht hi => herr e t hi (h t ht hi)
  | call op k ih =>
    intro t ht hi
    obtain ⟨ha, hk⟩ := h t ht hi
    exact ⟨ha, fun input hm => ih _ (S.step hi ha hm).1 (hk input hm)⟩

/-- Handling: an error of the first part is answered by the handler. -/
theorem handle {post' : Except ε α → σ → Prop} {p : Prog I ε α} {f : ε → Prog I ε α} (hs : S.Inv s)
    (h : p.Keeps S i post s) (hok : ∀ a t, S.Inv t → post (.ok a) t → post' (.ok a) t)
    (herr : ∀ e t, S.Inv t → post (.error e) t → (f e).Keeps S i post' t) : (tryCatch p f).Keeps S i post' s := by
  induction p generalizing s with
  | done r =>
    cases r with
    | ok a => exact fun t ht hi => hok a t hi (h t ht hi)
    | error e => exact herr e s hs (h s (S.refl i s) hs)
  | call op k ih =>
    intro t ht hi
    obtain ⟨ha, hk⟩ := h t ht hi
    exact ⟨ha, fun input hm => ih _ (S.step hi ha hm).1 (hk input hm)⟩

/-- One operation: allowed wherever it may be issued, with a reply that holds from then on. -/
theorem perform {op : I.Op} {post : Except ε (I.Res op) → σ → Prop}
    (h : ∀ t, S.Rely i s t → S.Inv t → S.Allowed i t op ∧ ∀ input, S.may t op input →
      ∀ u, S.Rely i (S.exec op input t).2 u → S.Inv u → post (S.exec op input t).1 u) :
    (Prog.perform op : Prog I ε _).Keeps S i post s := h

/-- A program whose operations do to the state only what it may see others do finds in the
end no more changed than that. -/
theorem quiet {ok : I.Op → Prop}
    (hok : ∀ {t op input}, S.Inv t → ok op → S.Allowed i t op → S.may t op input → S.Rely i t (S.exec op input t).2)
    {p : Prog I ε α} (hp : p.Issues ok) (h : p.Keeps S i post s) :
    p.Keeps S i (fun r t => post r t ∧ S.Rely i s t) s := by
  induction p generalizing s with
  | done r => exact fun t ht hi => ⟨h t ht hi, ht⟩
  | call op k ih =>
    intro t ht hi
    obtain ⟨ha, hk⟩ := h t ht hi
    refine ⟨ha, fun input hm => ?_⟩
    have hstep := S.trans ht (hok hi hp.1 ha hm)
    exact (ih _ (hp.2 _) (hk input hm)).mono fun r u _ ⟨hpost, hu⟩ => ⟨hpost, S.trans hstep hu⟩

/-- A finished program's result satisfies its postcondition now. -/
theorem result {r : Except ε α} (h : (Prog.done r : Prog I ε α).Keeps S i post s) (hi : S.Inv s) : post r s :=
  h s (S.refl i s) hi

end Prog.Keeps

/-- The promise of a program that returns a value, of which `Q` holds from then on. -/
def Prog.Delivers (S : Shared I ε Input σ θ) (i : θ) (Q : α → σ → Prop) (p : Prog I ε α) (s : σ) : Prop :=
  p.Keeps S i (fun r t => ∃ a, r = .ok a ∧ Q a t) s

namespace Prog.Delivers
variable {S : Shared I ε Input σ θ} {i : θ} {Q : α → σ → Prop} {s : σ}

theorem mono {R : α → σ → Prop} {p : Prog I ε α} (h : p.Delivers S i Q s) (hq : ∀ a t, S.Inv t → Q a t → R a t) :
    p.Delivers S i R s :=
  Keeps.mono h fun _ t ht ⟨a, ha, hqa⟩ => ⟨a, ha, hq a t ht hqa⟩

theorem bind {R : β → σ → Prop} {p : Prog I ε α} {f : α → Prog I ε β} (hs : S.Inv s) (h : p.Delivers S i Q s)
    (hf : ∀ a t, S.Inv t → Q a t → (f a).Delivers S i R t) : (p >>= f).Delivers S i R s := by
  refine Keeps.bind hs h ?_ ?_
  · rintro a t ht ⟨_, ⟨rfl⟩, hq⟩
    exact hf a t ht hq
  · rintro e t _ ⟨_, he, -⟩
    cases he

theorem pure {a : α} (h : ∀ t, S.Rely i s t → S.Inv t → Q a t) : (Pure.pure a : Prog I ε α).Delivers S i Q s :=
  fun t ht hi => ⟨a, rfl, h t ht hi⟩

/-- A handler is not reached by what returns. -/
theorem handle {p : Prog I ε α} {f : ε → Prog I ε α} (hs : S.Inv s) (h : p.Delivers S i Q s) :
    (tryCatch p f).Delivers S i Q s := by
  refine Keeps.handle hs h (fun _ _ _ hq => hq) ?_
  rintro e t _ ⟨_, he, -⟩
  cases he

end Prog.Delivers

/-- A program alone keeps its promise too. -/
theorem Prog.Keeps.execute {S : Shared I ε Input σ θ} {i : θ} {post : Except ε α → σ → Prop} {ok : I.Op → Prop}
    (hok : ∀ t op input, ok op → S.may t op input) {p : Prog I ε α} (hp : p.Issues ok) {s : σ} (h : p.Keeps S i post s)
    (hs : S.Inv s) (inputs : Nat → Input) :
    post (p.execute S.exec inputs s).1 (p.execute S.exec inputs s).2.2 := by
  induction p generalizing s inputs with
  | done r => exact h s (S.refl i s) hs
  | call op k ih =>
    obtain ⟨ha, hk⟩ := h s (S.refl i s) hs
    have hm := hok s op (inputs 0) hp.1
    exact ih _ (hp.2 _) (hk _ hm) (S.step hs ha hm).1 _

/-- The invariant holds and every program keeps its promise. -/
structure Pool.Fair (S : Shared I ε Input σ θ) (post : θ → Except ε α → σ → Prop) (c : Pool I ε σ θ α) : Prop where
  inv : S.Inv c.state
  keeps : ∀ i, (c.threads i).Keeps S i (post i) c.state

variable {S : Shared I ε Input σ θ} {post : θ → Except ε α → σ → Prop}

theorem Pool.Fair.result {c : Pool I ε σ θ α} (h : c.Fair S post) {i : θ} {r : Except ε α}
    (hr : c.threads i = .done r) : post i r c.state := by
  have hk := h.keeps i
  rw [hr] at hk
  exact hk.result h.inv

variable [DecidableEq θ]

/-- A step of one program keeps its promise, and stays within what the others rely on. -/
theorem Pool.Fair.step {c : Pool I ε σ θ α} (h : c.Fair S post) {l : θ × Input} (ha : c.Admits S.may l) :
    (c.step S.exec l).Fair S post := by
  cases hc : c.threads l.1 with
  | done r =>
    rw [Pool.step_done S.exec hc]
    exact h
  | call op k =>
    have hk := h.keeps l.1
    rw [hc] at hk
    obtain ⟨hallowed, hnext⟩ := hk c.state (S.refl _ _) h.inv
    have hmay : S.may c.state op l.2 := by simpa [Pool.Admits, hc] using ha
    obtain ⟨hi, hrely⟩ := S.step h.inv hallowed hmay
    rw [Pool.step_call S.exec hc]
    refine ⟨hi, fun j => ?_⟩
    by_cases hj : j = l.1
    · subst hj
      simpa using hnext l.2 hmay
    · simpa [Function.update_of_ne hj] using (h.keeps j).evolve (hrely j hj)

/-- Every interleaving keeps the invariant and every program's promise. -/
theorem Pool.Fair.run {c : Pool I ε σ θ α} (h : c.Fair S post) {labels : List (θ × Input)}
    (hs : StepsMeet (Pool.step S.exec) (Pool.Admits S.may) c labels) :
    (run (Pool.step S.exec) c labels).Fair S post := by
  induction labels generalizing c with
  | nil => exact h
  | cons l labels ih => exact ih (h.step hs.1) hs.2

end Autolean.Machine
