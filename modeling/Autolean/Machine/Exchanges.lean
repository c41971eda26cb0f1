import Autolean.Machine.Interleaving

/-! One program against an environment that answers each operation as it likes, and
function bodies whose local variables keep their values when an error leaves them. -/
namespace Autolean.Machine

variable {I : Interface} {ε α β σ : Type}

/-- An operation that was issued, and how it was answered. -/
structure Exchange (I : Interface) (ε : Type) where
  op : I.Op
  reply : Except ε (I.Res op)

/-- A behaviour of everything the program calls: what was exchanged so far decides the next reply. -/
abbrev Environment (I : Interface) (ε : Type) := List (Exchange I ε) → (op : I.Op) → Except ε (I.Res op)

namespace Prog

/-- The exchanges of a run and its outcome. -/
def against (answer : Environment I ε) : List (Exchange I ε) → Prog I ε α → List (Exchange I ε) × Except ε α
  | _, .done r => ([], r)
  | seen, .call op k =>
    let exchange : Exchange I ε := ⟨op, answer seen op⟩
    let rest := (k exchange.reply).against answer (seen ++ [exchange])
    (exchange :: rest.1, rest.2)

/-- However it is answered, the exchanges and the outcome satisfy `post`. -/
def Ensures : Prog I ε α → (List (Exchange I ε) → Except ε α → Prop) → Prop
  | .done r, post => post [] r
  | .call op k, post => ∀ reply, (k reply).Ensures fun exchanges r => post (⟨op, reply⟩ :: exchanges) r

namespace Ensures
variable {post mid : List (Exchange I ε) → Except ε α → Prop}

theorem against {p : Prog I ε α} (h : p.Ensures post) (answer : Environment I ε) (seen : List (Exchange I ε)) :
    post (p.against answer seen).1 (p.against answer seen).2 := by
  induction p generalizing seen post with
  | done r => exact h
  | call op k ih => exact ih _ (h (answer seen op)) _

theorem mono {p : Prog I ε α} (h : p.Ensures mid) (himp : ∀ t r, mid t r → post t r) : p.Ensures post := by
  induction p generalizing mid post with
  | done r => exact himp [] r h
  | call op k ih => exact fun reply => ih reply (h reply) fun t r => himp (⟨op, reply⟩ :: t) r

theorem bind {post : List (Exchange I ε) → Except ε β → Prop} {p : Prog I ε α} {f : α → Prog I ε β}
    (h : p.Ensures mid) (hok : ∀ t a, mid t (.ok a) → (f a).Ensures fun t' r => post (t ++ t') r)
    (herror : ∀ t e, mid t (.error e) → post t (.error e)) : (p >>= f).Ensures post := by
  induction p generalizing mid post with
  | done r =>
    cases r with
    | ok a => exact hok [] a h
    | error e => exact herror [] e h
  | call op k ih =>
    intro reply
    apply ih reply (h reply)
    · intro t a ha
      exact hok (⟨op, reply⟩ :: t) a ha
    · intro t e he
      exact herror (⟨op, reply⟩ :: t) e he

theorem handle {p : Prog I ε α} {f : ε → Prog I ε α} (h : p.Ensures mid)
    (hok : ∀ t a, mid t (.ok a) → post t (.ok a))
    (herror : ∀ t e, mid t (.error e) → (f e).Ensures fun t' r => post (t ++ t') r) : (tryCatch p f).Ensures post := by
  induction p generalizing mid post with
  | done r =>
    cases r with
    | ok a => exact hok [] a h
    | error e => exact herror [] e h
  | call op k ih =>
    intro reply
    apply ih reply (h reply)
    · intro t a ha
      exact hok (⟨op, reply⟩ :: t) a ha
    · intro t e he
      exact herror (⟨op, reply⟩ :: t) e he

end Ensures

theorem Issues.ensures {ok : I.Op → Prop} {p : Prog I ε α} (h : p.Issues ok) : p.Ensures fun t _ => ∀ e ∈ t, ok e.op := by
  induction p with
  | done r => exact List.forall_mem_nil _
  | call op k ih =>
    intro reply
    apply (ih reply (h.2 reply)).mono
    intro t _ ht
    exact List.forall_mem_cons.mpr ⟨h.1, ht⟩

end Prog

/-! Functions with local variables -/

/-- The body of a function: when it raises, its local variables keep the values they had. -/
abbrev Body (I : Interface) (ε σ : Type) := ExceptT ε (StateT σ (Prog I ε))

namespace Body

/-- A part of the body that reads and writes no local variable. -/
def lift (p : Prog I ε α) : Body I ε σ α :=
  ExceptT.mk fun s => tryCatch (p >>= fun a => pure (.ok a, s)) fun e => pure (.error e, s)

def perform (op : I.Op) : Body I ε σ (I.Res op) := lift (.perform op)

/-- `try: body finally: cleanup`. An error of the cleanup replaces the outcome. -/
def tryFinally (body : Body I ε σ α) (cleanup : σ → Prog I ε Unit) (locals : σ) : Prog I ε α := do
  let (outcome, locals') ← body.run.run locals
  cleanup locals'
  .ofExcept outcome

/-- From locals in `R` the body issues only operations in `ok`, and leaves locals in `R`. -/
def Keeps (ok : I.Op → Prop) (R : σ → Prop) (body : Body I ε σ α) : Prop :=
  ∀ s, R s → (body.run.run s).Ensures fun t r =>
    (∀ e ∈ t, ok e.op) ∧ ∃ outcome s', r = .ok (outcome, s') ∧ R s'

namespace Keeps
variable {ok : I.Op → Prop} {R : σ → Prop}

theorem pure (a : α) : (Pure.pure a : Body I ε σ α).Keeps ok R :=
  fun s hs => ⟨List.forall_mem_nil _, .ok a, s, rfl, hs⟩

theorem throw (e : ε) : (MonadExcept.throw e : Body I ε σ α).Keeps ok R :=
  fun s hs => ⟨List.forall_mem_nil _, .error e, s, rfl, hs⟩

theorem modify {f : σ → σ} (h : ∀ s, R s → R (f s)) : (modify f : Body I ε σ PUnit).Keeps ok R :=
  fun s hs => ⟨List.forall_mem_nil _, .ok ⟨⟩, f s, rfl, h s hs⟩

theorem get : (get : Body I ε σ σ).Keeps ok R :=
  fun s hs => ⟨List.forall_mem_nil _, .ok s, s, rfl, hs⟩

theorem bind {p : Body I ε σ α} {f : α → Body I ε σ β} (hp : p.Keeps ok R) (hf : ∀ a, (f a).Keeps ok R) :
    (p >>= f).Keeps ok R := by
  intro s hs
  apply Prog.Ensures.bind (hp s hs)
  · rintro t ⟨outcome, s'⟩ ⟨ht, _, _, ⟨rfl⟩, hs'⟩
    cases outcome with
    | error e => exact ⟨by simpa using ht, _, s', rfl, hs'⟩
    | ok a =>
      apply (hf a s' hs').mono
      rintro t' r ⟨ht', hr⟩
      exact ⟨List.forall_mem_append.mpr ⟨ht, ht'⟩, hr⟩
  · rintro t e ⟨-, _, _, he, -⟩
    cases he

theorem handle {p : Body I ε σ α} {f : ε → Body I ε σ α} (hp : p.Keeps ok R) (hf : ∀ e, (f e).Keeps ok R) :
    (tryCatch p f).Keeps ok R := by
  intro s hs
  apply Prog.Ensures.bind (hp s hs)
  · rintro t ⟨outcome, s'⟩ ⟨ht, _, _, ⟨rfl⟩, hs'⟩
    cases outcome with
    | ok a => exact ⟨by simpa using ht, _, s', rfl, hs'⟩
    | error e =>
      apply (hf e s' hs').mono
      rintro t' r ⟨ht', hr⟩
      exact ⟨List.forall_mem_append.mpr ⟨ht, ht'⟩, hr⟩
  · rintro t e ⟨-, _, _, he, -⟩
    cases he

theorem lift {p : Prog I ε α} (hp : p.Issues ok) : (Body.lift p : Body I ε σ α).Keeps ok R := by
  intro s hs
  have hvalue : (p >>= fun a => (Pure.pure (.ok a, s) : Prog I ε (Except ε α × σ))).Ensures fun t r =>
      (∀ e ∈ t, ok e.op) ∧ ∀ out, r = .ok out → ∃ outcome s', out = (outcome, s') ∧ R s' := by
    apply Prog.Ensures.bind hp.ensures
    · intro t a ht
      exact ⟨by simpa using ht, fun _ h => ⟨_, s, (Except.ok.inj h).symm, hs⟩⟩
    · intro t e ht
      exact ⟨ht, nofun⟩
  apply hvalue.handle
  · rintro t out ⟨ht, hout⟩
    obtain ⟨outcome, s', rfl, hs'⟩ := hout out rfl
    exact ⟨ht, outcome, s', rfl, hs'⟩
  · rintro t e ⟨ht, -⟩
    exact ⟨by simpa using ht, .error e, s, rfl, hs⟩

theorem perform {op : I.Op} (h : ok op) : (Body.perform op : Body I ε σ _).Keeps ok R := lift (.perform h)

end Keeps

end Body

end Autolean.Machine
