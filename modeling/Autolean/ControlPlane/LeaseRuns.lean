import Autolean.ControlPlane.StreamDiscipline

/-! Leases over whole runs. A token is handed out to one holder only, and once its row is
superseded or removed it is refused for good: rows are written with a fresh token or keep
the token they have. -/
namespace Autolean.ControlPlane
open Contracts Machine Raising

namespace LeaseTables

/-- What a transaction can do to the tables: nothing, issue the next token, or rewrite or
remove one row without changing its holder and token. -/
inductive Moves (t : LeaseTables) : LeaseTables → Prop
  | stay : Moves t t
  | issue (jobId holderId : String) (expiresAt now : Instant) : Moves t (t.issue jobId holderId expiresAt now)
  | setRow (jobId : String) (row : LeaseRow) (new : Option LeaseRow) : t.workerLeases jobId = some row →
      (∀ r, new = some r → r.holderId = row.holderId ∧ r.fencingToken = row.fencingToken) → Moves t (t.setRow jobId new)

variable {t t' : LeaseTables}

theorem claim_moves {jobId holderId : String} {ttl : ℚ} {now : Instant} {lease : Lease}
    (h : t.claim jobId holderId ttl now = .ok (lease, t')) : t.Moves t' := by
  obtain ⟨-, -, ⟨row, -, -, -, -, rfl⟩ | ⟨e, -, rfl⟩⟩ := claim_cases h
  · exact .stay
  · exact .issue jobId holderId e now

theorem renew_moves {held lease : Lease} {ttl : ℚ} {now : Instant} (h : t.renew held ttl now = .ok (lease, t')) :
    t.Moves t' := by
  obtain ⟨row, e, hrow, -, -, -, rfl⟩ := renew_cases h
  apply Moves.setRow held.jobId row _ hrow
  rintro r ⟨rfl⟩
  exact ⟨rfl, rfl⟩

theorem releaseRow_moves {lease : Lease} (h : t.releaseRow lease = .ok t') : t.Moves t' := by
  obtain ⟨row, hrow, -, rfl⟩ := releaseRow_cases h
  exact .setRow lease.jobId row none hrow (by simp)

/-- The token has been issued for the job, and a row that still carries it names a holder in `P`. -/
structure Reserves (t : LeaseTables) (jobId : String) (token : Nat) (P : String → Prop) : Prop where
  issued : token ≤ t.lastToken jobId
  holder : ∀ row, t.workerLeases jobId = some row → row.fencingToken = token → P row.holderId

/-- No transaction gives an issued token to a further holder. -/
theorem Reserves.moves {jobId : String} {token : Nat} {P : String → Prop} (h : t.Reserves jobId token P)
    (hm : t.Moves t') : t'.Reserves jobId token P := by
  cases hm with
  | stay => exact h
  | issue j holderId e now =>
    constructor
    · exact h.issued.trans ((issue_advances t j holderId e now).token_le jobId)
    · intro row hrow htoken
      by_cases hj : jobId = j
      · subst hj
        simp only [issue, Function.update_self, Option.some.injEq] at hrow
        subst hrow
        have hi := h.issued
        simp only [nextToken_eq] at htoken
        omega
      · simp only [issue, Function.update_of_ne hj] at hrow
        exact h.holder row hrow htoken
  | setRow j row new hrow hnew =>
    refine ⟨h.issued, ?_⟩
    intro r hr htoken
    by_cases hj : jobId = j
    · subst hj
      simp only [setRow, Function.update_self] at hr
      obtain ⟨hholder, hsame⟩ := hnew r hr
      rw [hholder]
      exact h.holder row hrow (hsame ▸ htoken)
    · simp only [setRow, Function.update_of_ne hj] at hr
      exact h.holder r hr htoken

/-- A row carries the counter of its job. -/
theorem WellFormed.counter (h : t.WellFormed) {jobId : String} {row : LeaseRow}
    (hrow : t.workerLeases jobId = some row) : t.leaseCounters jobId = some row.fencingToken := by
  have htoken := h.row_token jobId row hrow
  have hpos := h.row_pos jobId row hrow
  unfold lastToken at htoken
  cases hc : t.leaseCounters jobId with
  | none => simp [hc] at htoken; omega
  | some last => simp [hc] at htoken; rw [htoken]

end LeaseTables

/-! One step of the store -/

/-- The lease an operation returned. -/
def StoreOp.returnedLease : (op : StoreOp) → op.Res → Option Lease
  | .claimLease .., lease => some lease
  | .renewLease .., lease => some lease
  | .currentLease _, lease => lease
  | _, _ => none

/-- The step returns the lease to its caller. -/
def HandsOut (db : Database) (l : StoreOp × Readings) (lease : Lease) : Prop :=
  ∃ res, (l.1.exec l.2 db).1 = .ok res ∧ l.1.returnedLease res = some lease

/-- The step is a claim that returns the lease and found no live row of the job. -/
def NewlyIssues (db : Database) (l : StoreOp × Readings) (lease : Lease) : Prop :=
  HandsOut db l lease ∧ ∃ jobId holderId ttl, l.1 = .claimLease jobId holderId ttl ∧
    ∀ row, db.leases.workerLeases jobId = some row → row.expiresAt ≤ l.2.now

/-- The operation presents the lease: a currency check, a renewal or a release. -/
def StoreOp.Presents (lease : Lease) (op : StoreOp) : Prop :=
  op = .assertCurrent lease ∨ (∃ ttl, op = .renewLease lease ttl) ∨ op = .releaseRow lease

/-- The step presents the lease and succeeds. -/
def Accepts (db : Database) (l : StoreOp × Readings) (lease : Lease) : Prop :=
  l.1.Presents lease ∧ ∃ res, (l.1.exec l.2 db).1 = .ok res

section
variable {db : Database} {l : StoreOp × Readings} {lease : Lease}

private theorem onLeases_leases {α : Type} {x : Raises (α × LeaseTables)}
    (hx : ∀ a t, x = .ok (a, t) → db.leases.Moves t) : db.leases.Moves (onLeases x db).2.leases := by
  cases x with
  | error e => exact .stay
  | ok at' => exact hx at'.1 at'.2 rfl

theorem transaction_leases {db' : Database} {r : Readings} {call : AppendCall} {events : List StoredEvent}
    (h : call.transaction db r = .ok (events, db')) : db'.leases = db.leases := by
  cases AppendCall.transaction_outcome h with
  | replayed _ _ => rfl
  | linked _ _ _ => rfl
  | written _ _ _ _ => cases call <;> rfl

theorem storeStep_moves (db : Database) (l : StoreOp × Readings) : db.leases.Moves (storeStep db l).leases := by
  obtain ⟨op, r⟩ := l
  cases op with
  | write call =>
    rw [storeStep_write]
    cases hx : call.transaction db r with
    | error e => exact .stay
    | ok res =>
      rw [show (commit (.ok res) db).2 = res.2 from rfl, transaction_leases hx]
      exact .stay
  | claimLease j h ttl => exact onLeases_leases fun _ _ hx => LeaseTables.claim_moves hx
  | renewLease held ttl => exact onLeases_leases fun _ _ hx => LeaseTables.renew_moves hx
  | releaseRow held =>
    refine onLeases_leases fun a t hx => ?_
    obtain ⟨t', ht, hx⟩ := bind_eq_ok.mp hx
    simp only [pure_eq_ok, Prod.mk.injEq] at hx
    exact hx.2 ▸ LeaseTables.releaseRow_moves ht
  | lookupIdempotency _ | currentSequence _ _ | readStream _ _ | readAll | assertCurrent _ | currentLease _ =>
    exact .stay

theorem run_reserves {jobId : String} {token : Nat} {P : String → Prop} (h : db.leases.Reserves jobId token P)
    (labels : List (StoreOp × Readings)) : (run storeStep db labels).leases.Reserves jobId token P := by
  induction labels generalizing db with
  | nil => exact h
  | cons l labels ih => exact ih (h.moves (storeStep_moves db l))

private theorem onLeases_ok {α : Type} {x : Raises (α × LeaseTables)} {a : α} (h : (onLeases x db).1 = .ok a) :
    ∃ t, x = .ok (a, t) ∧ (onLeases x db).2.leases = t := by
  cases x with
  | error e => simp [onLeases] at h
  | ok at' =>
    simp only [onLeases, Except.ok.injEq] at h
    exact ⟨at'.2, by rw [← h], rfl⟩

/-- The lease a step returns is the row it leaves behind: that row was already there, or the
step is a claim that issued the next token. -/
theorem HandsOut.row (h : HandsOut db l lease) :
    ((∃ row, db.leases.workerLeases lease.jobId = some row ∧ LeaseTables.Held row lease) ∨
      lease.fencingToken = db.leases.lastToken lease.jobId + 1) ∧
    ∃ row, (storeStep db l).leases.workerLeases lease.jobId = some row ∧ LeaseTables.Held row lease := by
  obtain ⟨op, r⟩ := l
  obtain ⟨res, hres, hlease⟩ := h
  cases op with
  | claimLease j holder ttl =>
    cases hlease
    obtain ⟨t, hc, ht⟩ := onLeases_ok hres
    have hstep : (storeStep db (.claimLease j holder ttl, r)).leases = t := ht
    obtain ⟨hj, hh, ⟨row, hrow, -, hholder, htoken, rfl⟩ | ⟨e, htoken, rfl⟩⟩ := LeaseTables.claim_cases hc
    · have hheld : LeaseTables.Held row lease := ⟨hholder.trans hh.symm, htoken.symm⟩
      rw [hstep, hj]
      exact ⟨.inl ⟨row, hrow, hheld⟩, row, hrow, hheld⟩
    · rw [hstep, hj]
      refine ⟨.inr (htoken.trans (LeaseTables.nextToken_eq _ _)), _, Function.update_self .., ?_⟩
      exact ⟨hh.symm, htoken.symm⟩
  | renewLease held ttl =>
    cases hlease
    obtain ⟨t, hc, ht⟩ := onLeases_ok hres
    have hstep : (storeStep db (.renewLease held ttl, r)).leases = t := ht
    obtain ⟨row, e, hrow, hheld, -, rfl, rfl⟩ := LeaseTables.renew_cases hc
    rw [hstep]
    exact ⟨.inl ⟨row, hrow, hheld⟩, _, Function.update_self .., hheld⟩
  | currentLease j =>
    cases hlease
    obtain ⟨rfl, row, hrow, hheld, -⟩ := LeaseTables.current_cases hres
    exact ⟨.inl ⟨row, hrow, hheld⟩, row, hrow, hheld⟩
  | write _ | lookupIdempotency _ | currentSequence _ _ | readStream _ _ | readAll | releaseRow _ | assertCurrent _ =>
    cases hlease

/-- A lease handed out reserves its token for its holder. -/
theorem HandsOut.reserves (hw : (storeStep db l).leases.WellFormed) (h : HandsOut db l lease) :
    (storeStep db l).leases.Reserves lease.jobId lease.fencingToken (· = lease.holderId) := by
  obtain ⟨-, row, hrow, hholder, htoken⟩ := h.row
  constructor
  · rw [← htoken, hw.row_token lease.jobId row hrow]
  · intro row' hrow' _
    rw [hrow] at hrow'
    cases hrow'
    exact hholder

/-- A claim that found no live row issued the successor of the counter. -/
theorem NewlyIssues.token (h : NewlyIssues db l lease) :
    lease.fencingToken = db.leases.lastToken lease.jobId + 1 := by
  obtain ⟨op, r⟩ := l
  obtain ⟨⟨res, hres, hlease⟩, j, holder, ttl, hop, hdead⟩ := h
  simp only at hop
  subst hop
  cases hlease
  obtain ⟨t, hc, -⟩ := onLeases_ok hres
  obtain ⟨hj, -, ⟨row, hrow, hlive, -⟩ | ⟨e, htoken, -⟩⟩ := LeaseTables.claim_cases hc
  · exact absurd hlive (not_lt.mpr (hdead row hrow))
  · rw [htoken, LeaseTables.nextToken_eq, hj]

/-- An accepted lease holds the row of its job. -/
theorem Accepts.row (h : Accepts db l lease) :
    ∃ row, db.leases.workerLeases lease.jobId = some row ∧ LeaseTables.Held row lease := by
  obtain ⟨op, r⟩ := l
  obtain ⟨hp, res, hres⟩ := h
  obtain hop | ⟨ttl, hop⟩ | hop := hp <;> simp only at hop <;> subst hop
  · obtain ⟨row, hrow, hheld, -⟩ := LeaseTables.assertCurrent_ok hres
    exact ⟨row, hrow, hheld⟩
  · obtain ⟨t, hc, -⟩ := onLeases_ok hres
    obtain ⟨row, -, hrow, hheld, -⟩ := LeaseTables.renew_cases hc
    exact ⟨row, hrow, hheld⟩
  · obtain ⟨t, hc, -⟩ := onLeases_ok hres
    obtain ⟨t', ht, -⟩ := bind_eq_ok.mp hc
    obtain ⟨row, hrow, hheld, -⟩ := LeaseTables.releaseRow_cases ht
    exact ⟨row, hrow, hheld⟩

/-- A token without a row is refused for good. -/
theorem refused_of_reserves (h : db.leases.Reserves lease.jobId lease.fencingToken fun _ => False)
    (labels : List (StoreOp × Readings)) : ¬ Accepts (run storeStep db labels) l lease := by
  intro hacc
  obtain ⟨row, hrow, -, htoken⟩ := hacc.row
  exact (run_reserves h labels).holder row hrow htoken

/-- A newer token leaves no row to an older one. -/
theorem NewlyIssues.supersedes (hw : (storeStep db l).leases.WellFormed) {newer : Lease} (h : NewlyIssues db l newer)
    (hjob : newer.jobId = lease.jobId) (hlt : lease.fencingToken < newer.fencingToken) :
    (storeStep db l).leases.Reserves lease.jobId lease.fencingToken fun _ => False := by
  obtain ⟨-, row, hrow, -, htoken⟩ := h.1.row
  rw [hjob] at hrow
  constructor
  · rw [← hw.row_token lease.jobId row hrow, htoken]
    exact hlt.le
  · intro row' hrow' htoken'
    rw [hrow] at hrow'
    cases hrow'
    omega

/-- A release leaves no row to its lease. -/
theorem releaseRow_supersedes (hw : db.leases.WellFormed) {r : Readings}
    (h : ((StoreOp.releaseRow lease).exec r db).1 = .ok ()) :
    (storeStep db (.releaseRow lease, r)).leases.Reserves lease.jobId lease.fencingToken fun _ => False := by
  obtain ⟨t, hc, ht⟩ := onLeases_ok h
  have hstep : (storeStep db (.releaseRow lease, r)).leases = t := ht
  obtain ⟨t', ht', hp⟩ := bind_eq_ok.mp hc
  simp only [pure_eq_ok, Prod.mk.injEq, true_and] at hp
  obtain ⟨row, hrow, ⟨-, htoken⟩, rfl⟩ := LeaseTables.releaseRow_cases ht'
  rw [hstep, ← hp]
  constructor
  · rw [← htoken]
    exact le_of_eq (hw.row_token lease.jobId row hrow)
  · intro row' hrow'
    simp [LeaseTables.setRow] at hrow'

end

/-- Any operations of the store in any order and at any clock readings: a token of a job is
handed out to one holder, newly issued tokens increase, a row carries the counter of its job,
and a lease that a newer one supersedes or that is released is refused ever after. -/
theorem fencing_tokens_exclusive (before between : List (StoreOp × Readings)) (l l' : StoreOp × Readings) :
    let db := run storeStep .empty before
    let db' := run storeStep (storeStep db l) between
    (∀ lease lease', HandsOut db l lease → HandsOut db' l' lease' → lease.jobId = lease'.jobId →
      lease.fencingToken = lease'.fencingToken → lease.holderId = lease'.holderId) ∧
    (∀ lease lease', NewlyIssues db l lease → NewlyIssues db' l' lease' → lease.jobId = lease'.jobId →
      lease.fencingToken < lease'.fencingToken) ∧
    (∀ jobId row, db.leases.workerLeases jobId = some row → db.leases.leaseCounters jobId = some row.fencingToken) ∧
    (∀ lease newer, NewlyIssues db l newer → newer.jobId = lease.jobId → lease.fencingToken < newer.fencingToken →
      ¬ Accepts db' l' lease) ∧
    ∀ lease, l.1 = .releaseRow lease → Accepts db l lease → ¬ Accepts db' l' lease := by
  intro db db'
  have hc : Coherent db := (run_coherent empty_coherent before).1
  have hc₁ : Coherent (storeStep db l) := (storeStep_keeps hc l).1
  obtain ⟨hc', hext⟩ := run_coherent hc₁ between
  refine ⟨?_, ?_, fun jobId row hrow => hc.leases.counter hrow, ?_, ?_⟩
  · intro lease lease' h h' hjob htoken
    have hres := run_reserves (h.reserves hc₁.leases) between
    rw [hjob, htoken] at hres
    obtain ⟨⟨row, hrow, hheld⟩ | hnew, -⟩ := h'.row
    · exact (hres.holder row hrow hheld.2).symm.trans hheld.1
    · have hle := hres.issued
      rw [hnew] at hle
      exact absurd hle (Nat.not_succ_le_self _)
  · intro lease lease' h h' hjob
    obtain ⟨-, row, hrow, -, htoken⟩ := h.1.row
    have hle := hext.leases.token_le lease.jobId
    rw [← hc₁.leases.row_token lease.jobId row hrow, htoken, hjob] at hle
    rw [h'.token]
    exact Nat.lt_succ_of_le hle
  · intro lease newer h hjob hlt
    exact refused_of_reserves (h.supersedes hc₁.leases hjob hlt) between
  · intro lease hop hacc
    obtain ⟨op, r⟩ := l
    simp only at hop
    subst hop
    obtain ⟨-, res, hres⟩ := hacc
    exact refused_of_reserves (releaseRow_supersedes hc.leases hres) between

end Autolean.ControlPlane
