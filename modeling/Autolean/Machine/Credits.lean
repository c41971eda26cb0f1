import Autolean.Machine.Traces
import Mathlib.Algebra.Order.Ring.Nat

/-! Operations that must be paid for. A program that spends a credit only after an
operation of its own earned it spends, in every interleaving, at most what it earned; so
when a credit is earned once by anyone, it is spent once by everyone. -/
namespace Autolean.Machine

variable {I : Interface} {ε α β Input σ θ K : Type} [DecidableEq K]

/-- Which replies earn a credit and which operations spend one. -/
structure Tariff (I : Interface) (ε K : Type) where
  earns : (op : I.Op) → Except ε (I.Res op) → Option K
  spends : I.Op → Option K

/-- The credit left after one operation. -/
def Tariff.after (tariff : Tariff I ε K) (credit : K → Nat) (op : I.Op) (r : Except ε (I.Res op)) (x : K) : Nat :=
  credit x - (if tariff.spends op = some x then 1 else 0) + if tariff.earns op r = some x then 1 else 0

/-- Starting with the credit, the program never spends what it has not got. -/
def Prog.Solvent (tariff : Tariff I ε K) : Prog I ε α → (K → Nat) → Prop
  | .done _, _ => True
  | .call op k, credit => (∀ x, tariff.spends op = some x → 0 < credit x) ∧
    ∀ r, (k r).Solvent tariff (tariff.after credit op r)

namespace Prog.Solvent
variable {tariff : Tariff I ε K} {credit credit' : K → Nat}

theorem mono {p : Prog I ε α} (h : p.Solvent tariff credit) (hle : ∀ x, credit x ≤ credit' x) : p.Solvent tariff credit' := by
  induction p generalizing credit credit' with
  | done r => trivial
  | call op k ih =>
    obtain ⟨hspend, hk⟩ := h
    refine ⟨fun x hx => (hspend x hx).trans_le (hle x), fun r => ih r (hk r) fun x => ?_⟩
    unfold Tariff.after
    have := hle x
    omega

/-- A part that spends nothing leaves at least the credit it found. -/
theorem bind {p : Prog I ε α} {f : α → Prog I ε β} (hp : p.Issues fun op => tariff.spends op = none)
    (hf : ∀ a, (f a).Solvent tariff credit) : (p >>= f).Solvent tariff credit := by
  induction p generalizing credit with
  | done r =>
    cases r with
    | ok a => exact hf a
    | error e => trivial
  | call op k ih =>
    refine ⟨fun x hx => ?_, fun r => ih r (hp.2 r) fun a => (hf a).mono fun x => ?_⟩
    · rw [hp.1] at hx
      cases hx
    · unfold Tariff.after
      rw [hp.1]
      simp

/-- Two solvent parts that each start from nothing, one after the other. -/
theorem seq {p : Prog I ε α} {f : α → Prog I ε β} (hp : p.Solvent tariff credit)
    (hf : ∀ a, (f a).Solvent tariff fun _ => 0) : (p >>= f).Solvent tariff credit := by
  induction p generalizing credit with
  | done r =>
    cases r with
    | ok a => exact (hf a).mono fun _ => Nat.zero_le _
    | error e => trivial
  | call op k ih => exact ⟨hp.1, fun r => ih r (hp.2 r)⟩

/-- A loop whose body is solvent from nothing. -/
theorem forM {γ : Type} {l : List γ} {f : γ → Prog I ε PUnit} (hf : ∀ x ∈ l, (f x).Solvent tariff fun _ => 0) :
    (l.forM f).Solvent tariff fun _ => 0 := by
  induction l with
  | nil => trivial
  | cons x rest ih =>
    exact seq (hf x List.mem_cons_self) fun _ => ih fun y hy => hf y (List.mem_cons_of_mem x hy)

theorem ofIssues {p : Prog I ε α} (hp : p.Issues fun op => tariff.spends op = none) : p.Solvent tariff credit := by
  induction p generalizing credit with
  | done r => trivial
  | call op k ih =>
    refine ⟨fun x hx => ?_, fun r => ih r (hp.2 r)⟩
    rw [hp.1] at hx
    cases hx

/-- An operation that earns a credit when it succeeds, and may spend nothing. -/
theorem earn (op : I.Op) {x : K} {f : I.Res op → Prog I ε β} (hspend : tariff.spends op = none)
    (hearn : ∀ a, tariff.earns op (.ok a) = some x) (hf : ∀ a, (f a).Solvent tariff fun y => if y = x then 1 else 0) :
    (Prog.perform op >>= f).Solvent tariff fun _ => 0 := by
  constructor
  · intro y hy
    rw [hspend] at hy
    cases hy
  · rintro (e | a)
    · trivial
    · refine (hf a).mono fun y => ?_
      simp only [Tariff.after, hspend, hearn a, Option.some.injEq]
      by_cases hy : y = x
      · simp [hy]
      · simp [hy]

/-- An operation that spends the credit just earned. -/
theorem spend (op : I.Op) {x : K} {f : I.Res op → Prog I ε β} (hspend : tariff.spends op = some x)
    (hf : ∀ a, (f a).Solvent tariff fun _ => 0) :
    (Prog.perform op >>= f).Solvent tariff fun y => if y = x then 1 else 0 := by
  constructor
  · intro y hy
    rw [hspend] at hy
    cases hy
    simp
  · rintro (e | a)
    · trivial
    · exact (hf a).mono fun _ => Nat.zero_le _

end Prog.Solvent

/-! Counting over a run -/

variable [DecidableEq θ]

/-- How often the thread earned the credit. -/
def earnedBy (tariff : Tariff I ε K) (i : θ) (x : K) (trace : List (Event I ε θ)) : Nat :=
  trace.countP fun e => e.thread = i ∧ tariff.earns e.op e.reply = some x

def spentBy (tariff : Tariff I ε K) (i : θ) (x : K) (trace : List (Event I ε θ)) : Nat :=
  trace.countP fun e => e.thread = i ∧ tariff.spends e.op = some x

variable {tariff : Tariff I ε K}

/-- A pool of solvent threads spends at most what each thread earned. -/
theorem spent_le_earned (tariff : Tariff I ε K) (exec : Semantics I ε Input σ) (c : Pool I ε σ θ α) (credit : θ → K → Nat)
    (h : ∀ i, (c.threads i).Solvent tariff (credit i)) (labels : List (θ × Input)) (i : θ) (x : K) :
    spentBy tariff i x (c.trace exec labels) ≤ earnedBy tariff i x (c.trace exec labels) + credit i x := by
  induction labels generalizing c credit with
  | nil => simp [Pool.trace, spentBy]
  | cons l labels ih =>
    rw [Pool.trace]
    cases hl : c.threads l.1 with
    | done r =>
      rw [Pool.event_done exec hl, Pool.step_done exec hl, List.nil_append]
      exact ih c credit h
    | call op k =>
      have hs := h l.1
      rw [hl] at hs
      obtain ⟨hspend, hk⟩ := hs
      rw [Pool.event_call exec hl, Pool.step_call exec hl, List.singleton_append]
      have hrest := ih ⟨(exec op l.2 c.state).2, Function.update c.threads l.1 (k (exec op l.2 c.state).1)⟩
        (Function.update credit l.1 (tariff.after (credit l.1) op (exec op l.2 c.state).1)) (fun j => ?_)
      · unfold spentBy earnedBy at hrest ⊢
        rw [List.countP_cons, List.countP_cons]
        by_cases hi : l.1 = i
        · subst hi
          have hpos := hspend x
          simp only [Function.update_self, Tariff.after] at hrest
          simp only [true_and, decide_eq_true_eq]
          by_cases hx : tariff.spends op = some x
          · have := hpos hx
            simp only [hx, if_true] at hrest ⊢
            omega
          · simp only [hx, if_false] at hrest ⊢
            omega
        · simp only [Function.update_of_ne (Ne.symm hi)] at hrest
          simp only [hi, false_and, decide_false, Bool.false_eq_true, if_false]
          omega
      · by_cases hj : j = l.1
        · subst hj
          simpa using hk (exec op l.2 c.state).1
        · simpa [Function.update_of_ne hj] using h j

/-- Two threads' earnings are parts of everyone's. -/
theorem earned_pair {trace : List (Event I ε θ)} {x : K} {i j : θ} (hne : ¬ j = i) :
    earnedBy tariff i x trace + earnedBy tariff j x trace ≤ trace.countP fun e => tariff.earns e.op e.reply = some x := by
  unfold earnedBy
  induction trace with
  | nil => simp
  | cons e trace ih =>
    simp only [List.countP_cons, decide_eq_true_eq]
    by_cases hx : tariff.earns e.op e.reply = some x
    · by_cases hi : e.thread = i
      · have hj : e.thread ≠ j := fun hj => hne (hj.symm.trans hi)
        simp only [hx, hi, Ne.symm hne, and_true, if_true, if_false]
        omega
      · simp only [hx, hi, and_true, if_true, if_false]
        split <;> omega
    · simp only [hx, and_false, if_false]
      omega

/-- A credit earned at most once is spent at most once, by whichever threads. -/
theorem spent_once (tariff : Tariff I ε K) {trace : List (Event I ε θ)} {x : K}
    (h : ∀ i, spentBy tariff i x trace ≤ earnedBy tariff i x trace)
    (hearned : (trace.countP fun e => tariff.earns e.op e.reply = some x) ≤ 1) :
    (trace.countP fun e => tariff.spends e.op = some x) ≤ 1 := by
  have hbound : ∀ i, earnedBy tariff i x trace ≤ 1 := by
    intro i
    refine le_trans (List.countP_mono_left fun e _ he => ?_) hearned
    simp only [decide_eq_true_eq] at he ⊢
    exact he.2
  by_cases hnone : ∃ e ∈ trace, tariff.spends e.op = some x
  · obtain ⟨e, hmem, he⟩ := hnone
    have hspent : 0 < spentBy tariff e.thread x trace := List.countP_pos_iff.mpr ⟨e, hmem, by simp [he]⟩
    have hall : (trace.countP fun e => tariff.spends e.op = some x) ≤ spentBy tariff e.thread x trace := by
      refine List.countP_mono_left fun e' hmem' he' => ?_
      simp only [decide_eq_true_eq] at he' ⊢
      refine ⟨?_, he'⟩
      by_contra hne
      have hspent' : 0 < spentBy tariff e'.thread x trace := List.countP_pos_iff.mpr ⟨e', hmem', by simp [he']⟩
      have h1 : 0 < earnedBy tariff e.thread x trace := hspent.trans_le (h e.thread)
      have h2 : 0 < earnedBy tariff e'.thread x trace := hspent'.trans_le (h e'.thread)
      have htwo : earnedBy tariff e.thread x trace + earnedBy tariff e'.thread x trace ≤
          trace.countP fun e => tariff.earns e.op e.reply = some x := earned_pair hne
      omega
    exact hall.trans ((h e.thread).trans (hbound e.thread))
  · rw [List.countP_eq_zero.mpr]
    · exact Nat.zero_le _
    · intro e hmem
      simp only [decide_eq_true_eq]
      exact fun he => hnone ⟨e, hmem, he⟩

end Autolean.Machine
