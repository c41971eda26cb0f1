import Autolean.Machine.Traces

/-! Programs that follow a protocol. A discipline is a transition relation over phases that
says which operations may be issued in a phase and where each reply leads; each thread of a
pool has its own phase, and a relation between all the phases and the shared state that
every permitted operation keeps holds along every run. -/
namespace Autolean.Machine

variable {I : Interface} {ε α β Input σ θ Q K : Type}

/-- From a phase, over an operation and its reply, to a phase. -/
abbrev Discipline (I : Interface) (ε Q : Type) := Q → (op : I.Op) → Except ε (I.Res op) → Q → Prop

/-- An operation that may be issued in the phase and leaves it, whatever it is answered. -/
def Discipline.Passes (D : Discipline I ε Q) (q : Q) (op : I.Op) : Prop := ∀ r, D q op r q

/-- However it is answered, each operation of the program has its step from the phase
reached, and `post` holds of the outcome in the last phase. -/
def Prog.Follows (D : Discipline I ε Q) : Prog I ε α → Q → (Except ε α → Q → Prop) → Prop
  | .done r, q, post => post r q
  | .call op k, q, post => ∀ r, ∃ q', D q op r q' ∧ (k r).Follows D q' post

namespace Prog.Follows
variable {D : Discipline I ε Q} {q : Q} {post : Except ε α → Q → Prop}

theorem mono {p : Prog I ε α} {mid : Except ε α → Q → Prop} (h : p.Follows D q mid)
    (himp : ∀ r q', mid r q' → post r q') : p.Follows D q post := by
  induction p generalizing q with
  | done r => exact himp r q h
  | call op k ih =>
    intro r
    obtain ⟨q', hstep, hk⟩ := h r
    exact ⟨q', hstep, ih r hk⟩

theorem bind {post : Except ε β → Q → Prop} {p : Prog I ε α} {f : α → Prog I ε β} (mid : Except ε α → Q → Prop)
    (h : p.Follows D q mid) (hok : ∀ a q', mid (.ok a) q' → (f a).Follows D q' post)
      (herr : ∀ e q', mid (.error e) q' → post (.error e) q') :
    (p >>= f).Follows D q post := by
  induction p generalizing q with
  | done r =>
    cases r with
    | ok a => exact hok a q h
    | error e => exact herr e q h
  | call op k ih =>
    intro r
    obtain ⟨q', hstep, hk⟩ := h r
    exact ⟨q', hstep, ih r hk⟩

theorem handle {p : Prog I ε α} {f : ε → Prog I ε α} (mid : Except ε α → Q → Prop) (h : p.Follows D q mid)
    (hok : ∀ a q', mid (.ok a) q' → post (.ok a) q') (herr : ∀ e q', mid (.error e) q' → (f e).Follows D q' post) :
    (tryCatch p f).Follows D q post := by
  induction p generalizing q with
  | done r =>
    cases r with
    | ok a => exact hok a q h
    | error e => exact herr e q h
  | call op k ih =>
    intro r
    obtain ⟨q', hstep, hk⟩ := h r
    exact ⟨q', hstep, ih r hk⟩

/-- A part all of whose operations pass leaves the phase it found. -/
theorem passing {p : Prog I ε α} (h : p.Issues (D.Passes q)) : p.Follows D q fun _ q' => q' = q := by
  induction p with
  | done r => rfl
  | call op k ih => exact fun r => ⟨q, h.1 r, ih r (h.2 r)⟩

/-- A passing part, and what its outcome says of the rest. -/
theorem pass {post : Except ε β → Q → Prop} {p : Prog I ε α} {f : α → Prog I ε β} (h : p.Issues (D.Passes q))
    (hok : ∀ a, (f a).Follows D q post) (herr : ∀ e, post (.error e) q) : (p >>= f).Follows D q post := by
  apply bind _ (passing h)
  · rintro a q' rfl
    exact hok a
  · rintro e q' rfl
    exact herr e

theorem perform {op : I.Op} {post : Except ε (I.Res op) → Q → Prop} (h : ∀ r, ∃ q', D q op r q' ∧ post r q') :
    (Prog.perform op : Prog I ε _).Follows D q post := h

theorem ofExcept {r : Except ε α} (h : post r q) : (Prog.ofExcept r : Prog I ε α).Follows D q post := h

/-- A pure check: what passes it goes on, and what does not ends here. -/
theorem ofExcept_bind {post : Except ε β → Q → Prop} {x : Except ε α} {f : α → Prog I ε β}
    (hok : ∀ a, x = .ok a → (f a).Follows D q post) (herr : ∀ e, x = .error e → post (.error e) q) :
    (Prog.ofExcept x >>= f).Follows D q post := by
  cases x with
  | ok a => exact hok a rfl
  | error e => exact herr e rfl

end Prog.Follows

/-- The steps a history takes in a discipline. -/
inductive Discipline.Walk (D : Discipline I ε Q) : Q → List (Event I ε θ) → Q → Prop
  | nil (q : Q) : Walk D q [] q
  | cons {q q' q'' : Q} {e : Event I ε θ} {trace : List (Event I ε θ)} (step : D q e.op e.reply q')
      (rest : Walk D q' trace q'') : Walk D q (e :: trace) q''

namespace Discipline.Walk
variable {D : Discipline I ε Q} {q q' q'' : Q} {trace trace' : List (Event I ε θ)}

theorem append (h : Walk D q trace q') (h' : Walk D q' trace' q'') : Walk D q (trace ++ trace') q'' := by
  induction h with
  | nil q => exact h'
  | cons step _ ih => exact .cons step (ih h')

theorem single {e : Event I ε θ} (step : D q e.op e.reply q') : Walk D q [e] q' := .cons step (.nil q')

end Discipline.Walk

/-! Pools of programs that follow their disciplines -/

variable [DecidableEq θ]

/-- A thread's own part of a history. -/
def ownEvents (i : θ) (trace : List (Event I ε θ)) : List (Event I ε θ) := trace.filter fun e => e.thread = i

theorem ownEvents_append (i : θ) (front back : List (Event I ε θ)) :
    ownEvents i (front ++ back) = ownEvents i front ++ ownEvents i back := List.filter_append ..

/-- Every thread follows the discipline of every key from its phase there, the phases are
where its own history led, and `R` relates them to the state. -/
structure Pool.Guided (D : K → Discipline I ε Q) (start : Q) (R : (θ → K → Q) → σ → Prop)
    (post : θ → K → Except ε α → Q → Prop) (c : Pool I ε σ θ α) (trace : List (Event I ε θ))
      (phases : θ → K → Q) : Prop where
  follows : ∀ i x, (c.threads i).Follows (D x) (phases i x) (post i x)
  walks : ∀ i x, (D x).Walk start (ownEvents i trace) (phases i x)
  related : R phases c.state

/-- The relation survives any permitted operation of any thread. -/
def Semantics.Relates (exec : Semantics I ε Input σ) (D : K → Discipline I ε Q) (R : (θ → K → Q) → σ → Prop) : Prop :=
  ∀ phases s i op input phase, R phases s → (∀ x, D x (phases i x) op (exec op input s).1 (phase x)) →
    R (Function.update phases i phase) (exec op input s).2

variable {D : K → Discipline I ε Q} {start : Q} {R : (θ → K → Q) → σ → Prop} {post : θ → K → Except ε α → Q → Prop}
  {exec : Semantics I ε Input σ}

/-- A step moves the phases of the thread that takes it. -/
theorem Pool.Guided.step {c : Pool I ε σ θ α} {trace : List (Event I ε θ)} {phases : θ → K → Q}
    (h : c.Guided D start R post trace phases) (hR : exec.Relates D R) (l : θ × Input) :
    ∃ phases', (c.step exec l).Guided D start R post (trace ++ c.event exec l) phases' := by
  cases hl : c.threads l.1 with
  | done r =>
    rw [Pool.step_done exec hl, Pool.event_done exec hl, List.append_nil]
    exact ⟨phases, h⟩
  | call op k =>
    rw [Pool.step_call exec hl, Pool.event_call exec hl]
    have hfollows : ∀ x, ∃ q', D x (phases l.1 x) op (exec op l.2 c.state).1 q' ∧
        (k (exec op l.2 c.state).1).Follows (D x) q' (post l.1 x) := by
      intro x
      have hx := h.follows l.1 x
      rw [hl] at hx
      exact hx _
    choose phase hstep hrest using hfollows
    refine ⟨Function.update phases l.1 phase, ?_, ?_, hR phases c.state l.1 op l.2 phase h.related hstep⟩
    · intro j x
      by_cases hj : j = l.1
      · subst hj
        simpa using hrest x
      · simpa [Function.update_of_ne hj] using h.follows j x
    · intro j x
      rw [ownEvents_append]
      by_cases hj : j = l.1
      · subst hj
        simpa [ownEvents] using (h.walks l.1 x).append (.single (hstep x))
      · simpa [ownEvents, Function.update_of_ne hj, Ne.symm hj] using h.walks j x

/-- Along every run the phases exist, and are related to the state reached. -/
theorem Pool.Guided.run {c : Pool I ε σ θ α} {trace : List (Event I ε θ)} {phases : θ → K → Q}
    (h : c.Guided D start R post trace phases) (hR : exec.Relates D R) (labels : List (θ × Input)) :
    ∃ phases', (Machine.run (Pool.step exec) c labels).Guided D start R post
      (trace ++ c.trace exec labels) phases' := by
  induction labels generalizing c trace phases with
  | nil => exact ⟨phases, by simpa [Pool.trace] using h⟩
  | cons l labels ih =>
    obtain ⟨phases', h'⟩ := h.step hR l
    rw [Pool.trace, ← List.append_assoc, run_cons]
    exact ih h'

/-- What the programs issue is all a history shows of them. -/
theorem Pool.issued {ok : θ → I.Op → Prop} {c : Pool I ε σ θ α} (h : ∀ i, (c.threads i).Issues (ok i))
    (labels : List (θ × Input)) : ∀ e ∈ c.trace exec labels, ok e.thread e.op := by
  induction labels generalizing c with
  | nil => simp [Pool.trace]
  | cons l labels ih =>
    rw [Pool.trace]
    cases hl : c.threads l.1 with
    | done r =>
      rw [Pool.event_done exec hl, Pool.step_done exec hl, List.nil_append]
      exact ih h
    | call op k =>
      have hissues := h l.1
      rw [hl] at hissues
      rw [Pool.event_call exec hl, Pool.step_call exec hl, List.singleton_append]
      refine List.forall_mem_cons.mpr ⟨hissues.1, ih fun j => ?_⟩
      by_cases hj : j = l.1
      · subst hj
        simpa using hissues.2 _
      · simpa [Function.update_of_ne hj] using h j

end Autolean.Machine
