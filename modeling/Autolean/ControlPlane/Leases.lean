import Autolean.ControlPlane.Basic

/-! Fenced worker leases. A lease row names the holder and its fencing token; the
counter of a job remembers the last token ever issued for it. -/
namespace Autolean.ControlPlane
open Contracts Machine Raising

/-- The capability a worker holds. Its fields pass the checks of the constructor. -/
structure Lease where
  jobId : String
  holderId : String
  fencingToken : Nat
  expiresAt : Datetime
  jobId_nonblank : ¬ Blank jobId
  holderId_nonblank : ¬ Blank holderId
  token_pos : 0 < fencingToken
  deriving DecidableEq

def Lease.make (jobId holderId : String) (fencingToken : Nat) (expiresAt : Datetime) : Raises Lease :=
  if hi : ¬ Blank jobId ∧ ¬ Blank holderId then
    if ht : 0 < fencingToken then .ok ⟨jobId, holderId, fencingToken, expiresAt, hi.1, hi.2, ht⟩
    else .error (.valueError "fencing_token must be positive")
  else .error (.valueError "job_id and holder_id must not be empty")

structure LeaseRow where
  holderId : String
  fencingToken : Nat
  expiresAt : Instant
  updatedAt : Instant
  deriving DecidableEq

/-- The tables `worker_leases` and `lease_counters`, both keyed by `job_id`. -/
structure LeaseTables where
  workerLeases : String → Option LeaseRow
  leaseCounters : String → Option Nat

namespace LeaseTables

def empty : LeaseTables := ⟨fun _ => none, fun _ => none⟩

def rowToLease (jobId : String) (row : LeaseRow) : Raises Lease :=
  Lease.make jobId row.holderId row.fencingToken ⟨row.expiresAt, 0⟩

/-- The token the next lease of the job gets. -/
def nextToken (t : LeaseTables) (jobId : String) : Nat :=
  match t.leaseCounters jobId with
  | none => 1
  | some last => last + 1

/-- Write the counter and the lease row of a newly issued token. -/
def issue (t : LeaseTables) (jobId holderId : String) (expiresAt now : Instant) : LeaseTables where
  workerLeases := Function.update t.workerLeases jobId (some ⟨holderId, t.nextToken jobId, expiresAt, now⟩)
  leaseCounters := Function.update t.leaseCounters jobId (some (t.nextToken jobId))

/-- `LeaseStore.claim`: a live lease is returned to its own holder and refused to
others; otherwise the next token is issued. -/
def claim (t : LeaseTables) (jobId holderId : String) (ttlSeconds : ℚ) (now : Instant) :
    Raises (Lease × LeaseTables) := do
  ensure (¬ Blank jobId ∧ ¬ Blank holderId) (.valueError "job_id and holder_id must not be empty")
  ensure (0 < ttlSeconds) (.valueError "ttl_seconds must be positive")
  let expiresAt ← addSeconds now ttlSeconds
  let issued := do
    let lease ← Lease.make jobId holderId (t.nextToken jobId) ⟨expiresAt, 0⟩
    pure (lease, t.issue jobId holderId expiresAt now)
  match t.workerLeases jobId with
  | none => issued
  | some row =>
    if now < row.expiresAt then do
      ensure (row.holderId = holderId) (.leaseUnavailable ("job '" ++ jobId ++ "' is leased by another worker"))
      let lease ← rowToLease jobId row
      pure (lease, t)
    else issued

/-- Replace or remove the row of one job. -/
def setRow (t : LeaseTables) (jobId : String) (row : Option LeaseRow) : LeaseTables :=
  { t with workerLeases := Function.update t.workerLeases jobId row }

/-- The row of the job is the one the lease was taken from. -/
def Held (row : LeaseRow) (lease : Lease) : Prop :=
  row.holderId = lease.holderId ∧ row.fencingToken = lease.fencingToken

instance (row : LeaseRow) (lease : Lease) : Decidable (Held row lease) := inferInstanceAs (Decidable (_ ∧ _))

/-- `LeaseStore.renew`: move the expiry of a row that is still held and live. -/
def renew (t : LeaseTables) (lease : Lease) (ttlSeconds : ℚ) (now : Instant) : Raises (Lease × LeaseTables) := do
  ensure (0 < ttlSeconds) (.valueError "ttl_seconds must be positive")
  let expiresAt ← addSeconds now ttlSeconds
  match t.workerLeases lease.jobId with
  | none => .error (.staleFence "lease cannot be renewed because its fencing token is stale")
  | some row => do
    ensure (Held row lease ∧ now < row.expiresAt)
      (.staleFence "lease cannot be renewed because its fencing token is stale")
    pure ({ lease with expiresAt := ⟨expiresAt, 0⟩ },
      t.setRow lease.jobId (some { row with expiresAt := expiresAt, updatedAt := now }))

/-- `LeaseStore.assert_current`. -/
def assertCurrent (t : LeaseTables) (lease : Lease) (now : Instant) : Raises Unit :=
  match t.workerLeases lease.jobId with
  | none => .error (.staleFence "lease no longer exists")
  | some row =>
    ensure (Held row lease ∧ now < row.expiresAt) (.staleFence "lease fencing token is stale or expired")

/-- `LeaseStore.current`: the live lease recorded for a job. -/
def current (t : LeaseTables) (jobId : String) (now : Instant) : Raises (Option Lease) := do
  ensure (¬ Blank jobId) (.valueError "job_id must not be empty")
  match t.workerLeases jobId with
  | none => pure none
  | some row =>
    if row.expiresAt ≤ now then pure none
    else do
      let lease ← rowToLease jobId row
      pure (some lease)

/-- The delete transaction of `LeaseStore.release`, after its currency check. -/
def releaseRow (t : LeaseTables) (lease : Lease) : Raises LeaseTables :=
  match t.workerLeases lease.jobId with
  | none => .error (.staleFence "lease fencing token became stale before release")
  | some row => do
    ensure (Held row lease) (.staleFence "lease fencing token became stale before release")
    pure (t.setRow lease.jobId none)

/-! What each transaction can do -/

theorem make_fields {j h : String} {n : Nat} {e : Datetime} {l : Lease} (hl : Lease.make j h n e = .ok l) :
    l.jobId = j ∧ l.holderId = h ∧ l.fencingToken = n ∧ l.expiresAt = e := by
  unfold Lease.make at hl
  split at hl
  · split at hl
    · cases hl; exact ⟨rfl, rfl, rfl, rfl⟩
    · cases hl
  · cases hl

/-- A claim that returns either found its own live row or issued the next token. -/
theorem claim_cases {t t' : LeaseTables} {j h : String} {ttl : ℚ} {now : Instant} {l : Lease}
    (hc : t.claim j h ttl now = .ok (l, t')) :
    l.jobId = j ∧ l.holderId = h ∧
    ((∃ row, t.workerLeases j = some row ∧ now < row.expiresAt ∧ row.holderId = h ∧
        l.fencingToken = row.fencingToken ∧ t' = t) ∨
      ∃ e, l.fencingToken = t.nextToken j ∧ t' = t.issue j h e now) := by
  have fresh {e : Instant} (hf : (do
      let lease ← Lease.make j h (t.nextToken j) ⟨e, 0⟩
      pure (lease, t.issue j h e now)) = .ok (l, t')) :
      l.jobId = j ∧ l.holderId = h ∧ ∃ e, l.fencingToken = t.nextToken j ∧ t' = t.issue j h e now := by
    obtain ⟨l', hl, hp⟩ := bind_eq_ok.mp hf
    simp only [pure_eq_ok, Prod.mk.injEq] at hp
    obtain ⟨rfl, rfl⟩ := hp
    obtain ⟨hj, hh, hn, -⟩ := make_fields hl
    exact ⟨hj, hh, e, hn, rfl⟩
  unfold claim at hc
  obtain ⟨-, hc⟩ := ensure_bind_eq_ok.mp hc
  obtain ⟨-, hc⟩ := ensure_bind_eq_ok.mp hc
  obtain ⟨e, -, hc⟩ := bind_eq_ok.mp hc
  cases hr : t.workerLeases j with
  | none =>
    simp only [hr] at hc
    obtain ⟨hj, hh, hn⟩ := fresh hc
    exact ⟨hj, hh, .inr hn⟩
  | some row =>
    simp only [hr] at hc
    split at hc
    · rename_i hlive
      obtain ⟨ho, hc⟩ := ensure_bind_eq_ok.mp hc
      obtain ⟨l', hl, hp⟩ := bind_eq_ok.mp hc
      simp only [pure_eq_ok, Prod.mk.injEq] at hp
      obtain ⟨rfl, rfl⟩ := hp
      obtain ⟨hj, hh, hn, -⟩ := make_fields hl
      exact ⟨hj, hh.trans ho, .inl ⟨row, rfl, hlive, ho, hn, rfl⟩⟩
    · obtain ⟨hj, hh, hn⟩ := fresh hc
      exact ⟨hj, hh, .inr hn⟩

/-- A renewal that returns moved only the expiry of the row it held. -/
theorem renew_cases {t t' : LeaseTables} {l l' : Lease} {ttl : ℚ} {now : Instant}
    (hr : t.renew l ttl now = .ok (l', t')) :
    ∃ row e, t.workerLeases l.jobId = some row ∧ Held row l ∧ now < row.expiresAt ∧
      l' = { l with expiresAt := ⟨e, 0⟩ } ∧ t' = t.setRow l.jobId (some { row with expiresAt := e, updatedAt := now }) := by
  unfold renew at hr
  obtain ⟨-, hr⟩ := ensure_bind_eq_ok.mp hr
  obtain ⟨e, -, hr⟩ := bind_eq_ok.mp hr
  cases hrow : t.workerLeases l.jobId with
  | none => simp [hrow] at hr
  | some row =>
    simp only [hrow] at hr
    obtain ⟨hk, hr⟩ := ensure_bind_eq_ok.mp hr
    simp only [pure_eq_ok, Prod.mk.injEq] at hr
    exact ⟨row, e, rfl, hk.1, hk.2, hr.1.symm, hr.2.symm⟩

/-- A release that returns removed exactly the row it held. -/
theorem releaseRow_cases {t t' : LeaseTables} {l : Lease} (hr : t.releaseRow l = .ok t') :
    ∃ row, t.workerLeases l.jobId = some row ∧ Held row l ∧
      t' = t.setRow l.jobId none := by
  unfold releaseRow at hr
  cases hrow : t.workerLeases l.jobId with
  | none => simp [hrow] at hr
  | some row =>
    simp only [hrow] at hr
    obtain ⟨hk, hr⟩ := ensure_bind_eq_ok.mp hr
    simp only [pure_eq_ok] at hr
    exact ⟨row, rfl, hk, hr.symm⟩

theorem assertCurrent_ok {t : LeaseTables} {l : Lease} {now : Instant} {u : Unit}
    (ha : t.assertCurrent l now = .ok u) :
    ∃ row, t.workerLeases l.jobId = some row ∧ Held row l ∧ now < row.expiresAt := by
  unfold assertCurrent at ha
  cases hrow : t.workerLeases l.jobId with
  | none => simp [hrow] at ha
  | some row =>
    simp only [hrow] at ha
    have hk := ensure_eq_ok.mp ha
    exact ⟨row, rfl, hk.1, hk.2⟩

/-- The lease of a live row passes. -/
theorem assertCurrent_of {t : LeaseTables} {l : Lease} {now : Instant} {row : LeaseRow}
    (hrow : t.workerLeases l.jobId = some row) (hheld : Held row l) (hlive : now < row.expiresAt) :
    t.assertCurrent l now = .ok () := by
  unfold assertCurrent
  simp only [hrow]
  exact ensure_eq_ok.mpr ⟨hheld, hlive⟩

/-- The lease that `current` returns repeats the live row of the job. -/
theorem current_cases {t : LeaseTables} {j : String} {now : Instant} {l : Lease}
    (hc : t.current j now = .ok (some l)) :
    l.jobId = j ∧ ∃ row, t.workerLeases j = some row ∧ Held row l ∧ now < row.expiresAt := by
  unfold current at hc
  obtain ⟨-, hc⟩ := ensure_bind_eq_ok.mp hc
  cases hrow : t.workerLeases j with
  | none => simp [hrow, pure_eq_ok] at hc
  | some row =>
    simp only [hrow] at hc
    split at hc
    · simp [pure_eq_ok] at hc
    · rename_i hlive
      obtain ⟨l', hl, hp⟩ := bind_eq_ok.mp hc
      simp only [pure_eq_ok, Option.some.injEq] at hp
      subst hp
      obtain ⟨hj, hh, hn, -⟩ := make_fields hl
      exact ⟨hj, row, rfl, ⟨hh.symm, hn.symm⟩, not_le.mp hlive⟩

/-! The invariant of the two tables -/

/-- The last token issued for a job, zero before the first. -/
def lastToken (t : LeaseTables) (jobId : String) : Nat := (t.leaseCounters jobId).getD 0

/-- A lease row always carries the last token issued for its job, a positive one. -/
structure WellFormed (t : LeaseTables) : Prop where
  row_token : ∀ j row, t.workerLeases j = some row → row.fencingToken = t.lastToken j
  row_pos : ∀ j row, t.workerLeases j = some row → 0 < row.fencingToken

/-- Tokens of every job only grow. -/
structure Advances (t t' : LeaseTables) : Prop where
  token_le : ∀ j, t.lastToken j ≤ t'.lastToken j

theorem empty_wellFormed : empty.WellFormed := ⟨by simp [empty], by simp [empty]⟩

theorem Advances.refl (t : LeaseTables) : t.Advances t := ⟨fun _ => le_rfl⟩

theorem Advances.trans {a b c : LeaseTables} (h : a.Advances b) (h' : b.Advances c) : a.Advances c :=
  ⟨fun j => (h.token_le j).trans (h'.token_le j)⟩

theorem nextToken_eq (t : LeaseTables) (j : String) : t.nextToken j = t.lastToken j + 1 := by
  unfold nextToken lastToken
  cases t.leaseCounters j <;> rfl

theorem issue_lastToken (t : LeaseTables) (j k h : String) (e now : Instant) :
    (t.issue j h e now).lastToken k = if k = j then t.lastToken j + 1 else t.lastToken k := by
  by_cases hk : k = j
  · subst hk; simp [lastToken, issue, nextToken_eq]
  · simp [lastToken, issue, hk]

theorem issue_wellFormed {t : LeaseTables} (hw : t.WellFormed) (j h : String) (e now : Instant) :
    (t.issue j h e now).WellFormed := by
  constructor
  · intro k row hrow
    rw [issue_lastToken]
    by_cases hk : k = j
    · subst hk
      simp only [issue, Function.update_self, Option.some.injEq] at hrow
      subst hrow
      simp [nextToken_eq]
    · simp only [issue, Function.update_of_ne hk] at hrow
      simpa [hk] using hw.row_token k row hrow
  · intro k row hrow
    by_cases hk : k = j
    · subst hk
      simp only [issue, Function.update_self, Option.some.injEq] at hrow
      subst hrow
      simp [nextToken_eq]
    · simp only [issue, Function.update_of_ne hk] at hrow
      exact hw.row_pos k row hrow

theorem issue_advances (t : LeaseTables) (j h : String) (e now : Instant) : t.Advances (t.issue j h e now) := by
  constructor
  intro k
  rw [issue_lastToken]
  split
  · rename_i hk; subst hk; omega
  · exact le_rfl

/-- Rewriting one row without touching its token keeps the invariant. -/
theorem setRow_wellFormed {t : LeaseTables} (hw : t.WellFormed) {j : String} {row : LeaseRow}
    (hrow : t.workerLeases j = some row) (new : Option LeaseRow)
    (hn : ∀ r, new = some r → r.fencingToken = row.fencingToken) :
    (t.setRow j new).WellFormed := by
  constructor
  · intro k r hr
    by_cases hk : k = j
    · subst hk
      simp only [setRow, Function.update_self] at hr
      exact (hn r hr).trans (hw.row_token k row hrow)
    · simp only [setRow, Function.update_of_ne hk] at hr
      exact hw.row_token k r hr
  · intro k r hr
    by_cases hk : k = j
    · subst hk
      simp only [setRow, Function.update_self] at hr
      rw [hn r hr]
      exact hw.row_pos k row hrow
    · simp only [setRow, Function.update_of_ne hk] at hr
      exact hw.row_pos k r hr

theorem claim_keeps {t t' : LeaseTables} {j h : String} {ttl : ℚ} {now : Instant} {l : Lease}
    (hw : t.WellFormed) (hc : t.claim j h ttl now = .ok (l, t')) : t'.WellFormed ∧ t.Advances t' := by
  obtain ⟨-, -, ⟨row, -, -, -, -, rfl⟩ | ⟨e, -, rfl⟩⟩ := claim_cases hc
  · exact ⟨hw, .refl _⟩
  · exact ⟨issue_wellFormed hw j h e now, issue_advances t j h e now⟩

theorem renew_keeps {t t' : LeaseTables} {l l' : Lease} {ttl : ℚ} {now : Instant}
    (hw : t.WellFormed) (hr : t.renew l ttl now = .ok (l', t')) : t'.WellFormed ∧ t.Advances t' := by
  obtain ⟨row, e, hrow, -, -, -, rfl⟩ := renew_cases hr
  exact ⟨setRow_wellFormed hw hrow _ (by rintro r ⟨rfl⟩; rfl), ⟨fun _ => le_rfl⟩⟩

theorem releaseRow_keeps {t t' : LeaseTables} {l : Lease} (hw : t.WellFormed)
    (hr : t.releaseRow l = .ok t') : t'.WellFormed ∧ t.Advances t' := by
  obtain ⟨row, hrow, -, rfl⟩ := releaseRow_cases hr
  exact ⟨setRow_wellFormed hw hrow _ (by simp), ⟨fun _ => le_rfl⟩⟩

end LeaseTables
end Autolean.ControlPlane
