import Autolean.Machine.Discipline
import Autolean.ControlPlane.CommandKeys
import Autolean.ControlPlane.CommandSpecs
import Autolean.ControlPlane.CommandWrites
import Autolean.ControlPlane.LeaseRuns

/-! Which lease row a call was given, and under which one a key was recorded. A pool of
commands is watched by a history that tells lease rows apart by the step that issued them;
the history decides nothing, and a claim records the row it was given. -/
namespace Autolean.ControlPlane
open Contracts Machine Raising

/-! The lease a claim writes down -/

/-- What a lease row is known by. -/
structure LeaseName where
  jobId : String
  holderId : String
  fencingToken : Nat

/-- The payload names the holder and the token. -/
structure LeaseName.NamedBy (name : LeaseName) (payload : JsonObject) : Prop where
  holder : payload.get "worker_id" = some (.str name.holderId)
  token : payload.get "fencing_token" = some (.int name.fencingToken)

/-- A write under a key of `claim` records the lease the call was given. -/
def WritesLease (given : Option LeaseName) (call : AppendCall) : Prop :=
  (∀ v, call.batch.idempotency = some v → v.scope ≠ "claim") ∨
    ∃ name payload v expected, given = some name ∧ name.NamedBy payload ∧
      call = .append ⟨"task", name.jobId, [⟨"task.claimed", payload, []⟩], some v, none⟩ expected

/-- A call that claims a lease takes up its name, or goes on without one. -/
def Leasing : Discipline serviceInterface ControlPlaneError (Option LeaseName)
  | _, .store (.claimLease jobId holderId _), reply, given' =>
    given' = none ∨ ∃ lease, reply = .ok lease ∧ given' = some ⟨jobId, holderId, lease.fencingToken⟩
  | given, .store (.write call), _, given' => WritesLease given call ∧ given' = given
  | given, _, _, given' => given' = given

theorem ReadsOnly.passes {op : ServiceOp} (h : ReadsOnly op) (given : Option LeaseName) : Leasing.Passes given op := by
  intro r
  cases op with
  | store op =>
    cases op with
    | write _ | claimLease _ _ _ | renewLease _ _ | releaseRow _ => exact h.elim
    | _ => rfl
  | _ => rfl

variable {α : Type} {svc : Service}

theorem follows_of_reads {p : Call α} (h : p.Issues ReadsOnly) (given : Option LeaseName) :
    p.Issues (Leasing.Passes given) := h.imp fun _ hop => hop.passes given

/-- A call without a lease that writes under no key of `claim` follows the discipline. -/
theorem follows_of_writes {p : Call α}
    (h : p.Issues (Writes fun call => ∀ v, call.batch.idempotency = some v → v.scope ≠ "claim")) :
    p.Follows Leasing none fun _ _ => True := by
  refine (Prog.Follows.passing (h.imp fun op hop r => ?_)).mono fun _ _ _ => trivial
  cases op with
  | store op =>
    cases op with
    | write call => exact ⟨.inl (hop call rfl), rfl⟩
    | claimLease jobId holderId ttlSeconds => exact .inl rfl
    | _ => rfl
  | _ => rfl

theorem claimNew_follows (bundleId workerId : String) (ttlSeconds : PyFloat) (v : Idempotency) :
    (svc.claimNew bundleId workerId ttlSeconds v).Follows Leasing none fun _ _ => True := by
  unfold Service.claimNew
  refine .pass (follows_of_reads (getBinding_reads bundleId) none) (fun _ => ?_) fun _ => trivial
  refine .ofExcept_bind (fun ttl _ => ?_) fun _ _ => trivial
  refine .bind (fun r given => ∀ lease, r = .ok lease → given = some ⟨bundleId, workerId, lease.fencingToken⟩)
    (.perform fun r => ?_) (fun lease given hgiven => ?_) fun _ _ _ => trivial
  · cases r with
    | ok lease => exact ⟨_, .inr ⟨lease, rfl, rfl⟩, by rintro _ ⟨rfl⟩; rfl⟩
    | error e => exact ⟨none, .inl rfl, by rintro _ ⟨⟩⟩
  · rw [hgiven lease rfl]
    refine .ofExcept_bind (fun payload hpayload => ?_) fun _ _ => trivial
    refine .pass (follows_of_reads (currentSequence_reads _ _) _) (fun expected => ?_) fun _ => trivial
    cases (pure_eq_ok _ _).mp (ensure_bind_eq_ok.mp hpayload).2
    refine .bind (fun _ _ => True) (.perform fun r => ⟨_, ⟨.inr ⟨_, _, v, expected, rfl, ⟨rfl, rfl⟩, rfl⟩, rfl⟩, trivial⟩)
      (fun events given' _ => ?_) fun _ _ _ => trivial
    exact .ofExcept_bind (fun _ _ => trivial) fun _ _ => trivial

theorem claim_follows (bundleId workerId : String) (ttlSeconds : PyFloat) (key : String) :
    (svc.claim bundleId workerId ttlSeconds key).Follows Leasing none fun _ _ => True := by
  refine .ofExcept_bind (fun v _ => ?_) fun _ _ => trivial
  refine .pass (follows_of_reads (replayedEvent_reads v) none) (fun found => ?_) fun _ => trivial
  cases found with
  | some replayed => exact .ofExcept trivial
  | none => exact claimNew_follows bundleId workerId ttlSeconds v

/-- Every command follows the discipline. -/
theorem Command.program_follows (command : Command) : (command.program svc).Follows Leasing none fun _ _ => True := by
  have unclaimed (hscope : command.scope ≠ some "claim") : (command.program svc).Follows Leasing none fun _ _ => True := by
    refine follows_of_writes (command.program_writes.imp fun op hop call heq v hv => ?_)
    obtain ⟨_, scope, -, hs, -, v', hv', hv's⟩ := hop call heq
    rw [hv, Option.some.injEq] at hv'
    rintro hclaim
    rw [hs, ← hv's, ← hv', hclaim] at hscope
    exact hscope rfl
  cases command with
  | claim bundleId workerId ttlSeconds key =>
    exact .bind (fun _ _ => True) (claim_follows bundleId workerId ttlSeconds key) (fun _ _ _ => trivial) fun _ _ _ => trivial
  | _ => exact unclaimed (by simp [Command.scope])

/-! The history -/

variable {θ : Type}

/-- What a run has shown of its lease rows so far. Steps are numbered from zero, and a lease row
is told from the others by the step that issued it. -/
structure LeaseHistory (θ : Type) where
  steps : Nat
  /-- The step that issued the lease row of a bundle. -/
  issuedAt : String → Option Nat
  /-- The step that issued the row a call was last given. -/
  served : θ → Option Nat
  /-- The step that issued the row given to the call that recorded a key. -/
  recordedBy : String × String → Option Nat

/-- The rows after a step from `c` to `d`: moving the counter of a bundle issues its row. -/
def LeaseHistory.issuedAfter (h : LeaseHistory θ) (c d : CommandPool θ) (bundleId : String) : Option Nat :=
  if d.state.database.leases.leaseCounters bundleId = c.state.database.leases.leaseCounters bundleId then h.issuedAt bundleId
  else some h.steps

/-- The row of a call after its step: a lease transaction gives it the one then in force. -/
def LeaseHistory.servedAfter (h : LeaseHistory θ) (c d : CommandPool θ) (i : θ) : Option Nat :=
  match c.threads i with
  | .call (.store (.claimLease bundleId _ _)) _ => h.issuedAfter c d bundleId
  | _ => h.served i

variable [DecidableEq θ]

/-- The history after a step of thread `i` from `c` to `d`. -/
def LeaseHistory.next (h : LeaseHistory θ) (c d : CommandPool θ) (i : θ) : LeaseHistory θ where
  steps := h.steps + 1
  issuedAt := h.issuedAfter c d
  served := Function.update h.served i (h.servedAfter c d i)
  recordedBy key :=
    if c.state.database.idempotencyRecords key = none ∧ d.state.database.idempotencyRecords key ≠ none then h.served i
    else h.recordedBy key

/-- A pool and its history. -/
structure WatchedPool (θ : Type) where
  pool : CommandPool θ
  leases : LeaseHistory θ

namespace WatchedPool

def start (svc : Service) (commands : θ → Command) : WatchedPool θ :=
  ⟨CommandPool.start svc commands, ⟨0, fun _ => none, fun _ => none, fun _ => none⟩⟩

def step (svc : Service) (w : WatchedPool θ) (l : θ × ServiceInput) : WatchedPool θ :=
  ⟨CommandPool.step svc w.pool l, w.leases.next w.pool (CommandPool.step svc w.pool l) l.1⟩

/-- Watching changes nothing. -/
theorem run_pool (w : WatchedPool θ) (labels : List (θ × ServiceInput)) :
    (run (step svc) w labels).pool = run (CommandPool.step svc) w.pool labels := by
  induction labels generalizing w with
  | nil => rfl
  | cons l labels ih => exact ih (w.step svc l)

/-- A condition on the pool alone is met in the watched run when it is met in the plain one. -/
theorem stepsMeet_pool {ok : CommandPool θ → θ × ServiceInput → Prop} {w : WatchedPool θ} {labels : List (θ × ServiceInput)}
    (hs : StepsMeet (step svc) (fun w l => ok w.pool l) w labels) : StepsMeet (CommandPool.step svc) ok w.pool labels := by
  induction labels generalizing w with
  | nil => trivial
  | cons l labels ih => exact ⟨hs.1, ih hs.2⟩

end WatchedPool

/-! What the history accounts for -/

/-- The key stands for a claim event that records the lease. -/
def Database.RecordsClaim (db : Database) (key : String × String) (requestHash : String) (lease : LeaseName) : Prop :=
  ∃ e, db.BoundTo key requestHash [e] ∧ e.entityType = "task" ∧ e.entityId = lease.jobId ∧ e.eventType = "task.claimed" ∧
    lease.NamedBy e.payload

/-- The history accounts for a pool in which each call holds what it was `given` and each step
issued the row of that `name`. -/
structure LeaseHistory.Accounts (h : LeaseHistory θ) (c : CommandPool θ) (given : θ → Option LeaseName)
    (name : Nat → LeaseName) : Prop where
  follows : ∀ i, (c.threads i).Follows Leasing (given i) fun _ _ => True
  row : ∀ bundleId row, c.state.database.leases.workerLeases bundleId = some row →
    ∃ n < h.steps, h.issuedAt bundleId = some n ∧ name n = ⟨bundleId, row.holderId, row.fencingToken⟩
  held : ∀ i lease, given i = some lease → ∃ n < h.steps, h.served i = some n ∧ name n = lease
  unrecorded : ∀ key, c.state.database.idempotencyRecords key = none → h.recordedBy key = none
  recorded : ∀ key row, key.1 = "claim" → c.state.database.idempotencyRecords key = some row →
    ∃ n < h.steps, h.recordedBy key = some n ∧ c.state.database.RecordsClaim key row.requestHash (name n)

section
variable {commands : θ → Command} {h : LeaseHistory θ} {c : CommandPool θ} {given : θ → Option LeaseName}
  {name : Nat → LeaseName}

omit [DecidableEq θ] in
theorem start_accounts (svc : Service) (commands : θ → Command) :
    (WatchedPool.start svc commands).leases.Accounts (WatchedPool.start svc commands).pool (fun _ => none)
      fun _ => ⟨"", "", 0⟩ where
  follows i := (commands i).program_follows
  row _ _ hrow := by cases hrow
  held _ _ hgiven := by cases hgiven
  unrecorded _ _ := rfl
  recorded _ _ _ hrow := by cases hrow

/-- An operation that records a key is a write under it. -/
theorem exec_records {op : ServiceOp} {input : ServiceInput} {w : World} {key : String × String}
    (hnew : (svc.exec op input w).2.database.idempotencyRecords key ≠ w.database.idempotencyRecords key) :
    ∃ call v events db, op = .store (.write call) ∧ call.batch.idempotency = some v ∧ v.primaryKey = key ∧
      call.transaction w.database input.readings = .ok (events, db) ∧ (svc.exec op input w).2.database = db := by
  cases op with
  | store op =>
    cases op with
    | write call =>
      simp only [Service.exec, StoreOp.exec] at hnew ⊢
      cases ht : call.transaction w.database input.readings with
      | error e => simp [ht, commit] at hnew
      | ok res =>
        obtain ⟨events, db⟩ := res
        simp only [ht, commit] at hnew ⊢
        refine ⟨call, ?_⟩
        cases AppendCall.transaction_outcome ht with
        | replayed _ _ => exact absurd rfl hnew
        | @linked binding event v nonce e _ _ _ =>
          refine ⟨v, _, _, rfl, rfl, ?_, ht, rfl⟩
          by_contra hne
          exact hnew (Function.update_of_ne (Ne.symm hne) ..)
        | written _ _ _ _ =>
          have hrecords : (call.written w.database input.readings).idempotencyRecords =
              (call.batch.written w.database input.readings).idempotencyRecords := by cases call <;> rfl
          rw [hrecords] at hnew
          cases hv : call.batch.idempotency with
          | none => exact absurd (congrFun (Batch.written_records_none hv ..) key) hnew
          | some v =>
            refine ⟨v, _, _, rfl, rfl, ?_, ht, rfl⟩
            by_contra hne
            rw [Batch.written_records_some hv, Function.update_of_ne (Ne.symm hne)] at hnew
            exact hnew rfl
    | claimLease _ _ _ | renewLease _ _ | releaseRow _ => exact absurd (congrFun (onLeases_frame _ _).2 key) hnew
    | _ => exact absurd rfl hnew
  | putArtifact content =>
    exact absurd (congrArg (fun db => db.idempotencyRecords key) (storeBlob_database svc w content)) hnew
  | _ => exact absurd rfl hnew

/-- A claim's append that finds its key free records the lease it was given. -/
theorem claim_records {db db' : Database} {r : Readings} {lease : LeaseName} {payload : JsonObject} {v : Idempotency}
    {expected : Int} {events : List StoredEvent} (hnamed : lease.NamedBy payload)
    (hfree : db.idempotencyRecords v.primaryKey = none)
    (ht : AppendCall.transaction db r (.append ⟨"task", lease.jobId, [⟨"task.claimed", payload, []⟩], some v, none⟩ expected) =
      .ok (events, db')) : db'.RecordsClaim v.primaryKey v.requestHash lease := by
  have hbound := AppendCall.transaction_binds ht rfl
  generalize hcall : AppendCall.append ⟨"task", lease.jobId, [⟨"task.claimed", payload, []⟩], some v, none⟩ expected = call at ht
  cases AppendCall.transaction_outcome ht with
  | replayed hreplays _ =>
    subst hcall
    obtain ⟨v', hv', row, hrow, -⟩ := Database.replays_iff.mp hreplays
    cases hv'
    rw [hfree] at hrow
    cases hrow
  | linked _ _ _ => cases hcall
  | written _ _ _ _ =>
    subst hcall
    exact ⟨_, hbound, rfl, rfl, rfl, hnamed⟩

omit [DecidableEq θ] in
theorem Database.RecordsClaim.extends {db db' : Database} {key : String × String} {hash : String} {lease : LeaseName}
    (h : db.RecordsClaim key hash lease) (he : Extends db db') : db'.RecordsClaim key hash lease := by
  obtain ⟨e, hb, hrest⟩ := h
  exact ⟨e, hb.extends he, hrest⟩

/-- The rows carry the holders and tokens they had, and no counter has moved. -/
structure LeaseTables.Keeps (t t' : LeaseTables) : Prop where
  counters : t'.leaseCounters = t.leaseCounters
  rows : ∀ jobId row', t'.workerLeases jobId = some row' →
    ∃ row, t.workerLeases jobId = some row ∧ row'.holderId = row.holderId ∧ row'.fencingToken = row.fencingToken

theorem LeaseTables.Keeps.refl (t : LeaseTables) : t.Keeps t := ⟨rfl, fun _ row h => ⟨row, h, rfl, rfl⟩⟩

theorem LeaseTables.setRow_keeps {t : LeaseTables} {jobId : String} {row : LeaseRow} {new : Option LeaseRow}
    (hrow : t.workerLeases jobId = some row)
    (hnew : ∀ r, new = some r → r.holderId = row.holderId ∧ r.fencingToken = row.fencingToken) :
    t.Keeps (t.setRow jobId new) := by
  refine ⟨rfl, fun j row' hrow' => ?_⟩
  by_cases hj : j = jobId
  · subst hj
    exact ⟨row, hrow, hnew row' (by simpa [LeaseTables.setRow] using hrow')⟩
  · exact ⟨row', by simpa [LeaseTables.setRow, Function.update_of_ne hj] using hrow', rfl, rfl⟩

variable (svc) in
/-- Only a claim issues a row. -/
theorem exec_keeps_leases {op : ServiceOp} (hop : ∀ jobId holderId ttl, op ≠ .store (.claimLease jobId holderId ttl))
    (input : ServiceInput) (w : World) : w.database.leases.Keeps (svc.exec op input w).2.database.leases := by
  cases op with
  | store op =>
    cases op with
    | claimLease jobId holderId ttl => exact absurd rfl (hop jobId holderId ttl)
    | write call =>
      simp only [Service.exec, StoreOp.exec]
      cases ht : call.transaction w.database input.readings with
      | error e => exact .refl _
      | ok res =>
        rw [show (commit (.ok res) w.database).2 = res.2 from rfl, transaction_leases ht]
        exact .refl _
    | renewLease held ttl =>
      simp only [Service.exec, StoreOp.exec]
      cases hx : w.database.leases.renew held ttl input.readings.now with
      | error e => exact .refl _
      | ok res =>
        obtain ⟨row, e, hrow, -, -, -, ht⟩ := LeaseTables.renew_cases hx
        simp only [onLeases, ht]
        exact LeaseTables.setRow_keeps hrow (by rintro _ ⟨rfl⟩; exact ⟨rfl, rfl⟩)
    | releaseRow held =>
      simp only [Service.exec, StoreOp.exec]
      cases hx : w.database.leases.releaseRow held with
      | error e => exact .refl _
      | ok t =>
        obtain ⟨row, hrow, -, ht⟩ := LeaseTables.releaseRow_cases hx
        simp only [onLeases, ht, ok_bind]
        exact LeaseTables.setRow_keeps hrow (by simp)
    | _ => exact .refl _
  | putArtifact content =>
    rw [show (svc.exec (.putArtifact content) input w).2 = svc.storeBlob w content from rfl, storeBlob_database]
    exact .refl _
  | _ => exact .refl _

variable (svc) in
/-- A claim of a lease raises, finds a live row of its holder, or issues the next token. -/
theorem exec_claimLease (jobId holderId : String) (ttl : ℚ) (input : ServiceInput) (w : World) :
    let x := svc.exec (.store (.claimLease jobId holderId ttl)) input w
    (x.2.database.leases = w.database.leases ∧ ∀ lease, x.1 = .ok lease → ∃ row,
      w.database.leases.workerLeases jobId = some row ∧ row.holderId = holderId ∧ lease.fencingToken = row.fencingToken) ∨
    ∃ expiresAt lease, x.1 = .ok lease ∧ lease.fencingToken = w.database.leases.nextToken jobId ∧
      x.2.database.leases = w.database.leases.issue jobId holderId expiresAt input.readings.now := by
  simp only [Service.exec, StoreOp.exec]
  cases hx : w.database.leases.claim jobId holderId ttl input.readings.now with
  | error e => exact .inl ⟨rfl, fun _ h => by cases h⟩
  | ok res =>
    obtain ⟨lease, t⟩ := res
    obtain ⟨-, -, ⟨row, hrow, -, hholder, htoken, rfl⟩ | ⟨expiresAt, htoken, rfl⟩⟩ := LeaseTables.claim_cases hx
    · refine .inl ⟨rfl, fun lease' h => ?_⟩
      cases h
      exact ⟨row, hrow, hholder, htoken⟩
    · exact .inr ⟨expiresAt, lease, rfl, htoken, rfl⟩

end

/-! One step of a watched pool -/

section
variable {h : LeaseHistory θ} {c : CommandPool θ} {given : θ → Option LeaseName} {name : Nat → LeaseName}

omit [DecidableEq θ] in
theorem LeaseHistory.servedAfter_kept {d : CommandPool θ} {i : θ} {op : ServiceOp} {k : Raises op.Res → Call Reply}
    (hl : c.threads i = .call op k) (hop : ∀ jobId holderId ttl, op ≠ .store (.claimLease jobId holderId ttl)) :
    h.servedAfter c d i = h.served i := by
  unfold servedAfter
  split
  · rename_i jobId holderId ttl k' hl'
    rw [hl] at hl'
    cases hl'
    exact absurd rfl (hop jobId holderId ttl)
  · rfl

omit [DecidableEq θ] in
theorem LeaseHistory.servedAfter_claim {d : CommandPool θ} {i : θ} {jobId holderId : String} {ttl : ℚ}
    {k : Raises Lease → Call Reply} (hl : c.threads i = .call (.store (.claimLease jobId holderId ttl)) k) :
    h.servedAfter c d i = h.issuedAfter c d jobId := by
  simp only [servedAfter, hl]

omit [DecidableEq θ] in
theorem LeaseHistory.issuedAfter_kept {d : CommandPool θ}
    (hk : d.state.database.leases.leaseCounters = c.state.database.leases.leaseCounters) : h.issuedAfter c d = h.issuedAt := by
  funext jobId
  simp [issuedAfter, hk]

omit [DecidableEq θ] in
theorem LeaseHistory.issuedAfter_issue {d : CommandPool θ} {jobId holderId : String} {expiresAt now : Instant}
    (hd : d.state.database.leases = c.state.database.leases.issue jobId holderId expiresAt now) :
    h.issuedAfter c d = Function.update h.issuedAt jobId (some h.steps) := by
  funext bundleId
  unfold issuedAfter
  rw [hd]
  by_cases hb : bundleId = jobId
  · subst hb
    have hne : some (c.state.database.leases.nextToken bundleId) ≠ c.state.database.leases.leaseCounters bundleId := by
      intro heq
      have hnext := c.state.database.leases.nextToken_eq bundleId
      rw [LeaseTables.lastToken, ← heq, Option.getD_some] at hnext
      omega
    simp [LeaseTables.issue, hne]
  · simp [LeaseTables.issue, hb]

/-- An operation other than a claim of a lease leaves the call with the lease it has. -/
theorem Leasing.kept {lease lease' : Option LeaseName} {op : ServiceOp} {r : Raises op.Res} (hstep : Leasing lease op r lease')
    (hop : ∀ jobId holderId ttl, op ≠ .store (.claimLease jobId holderId ttl)) : lease' = lease := by
  cases op with
  | store op =>
    cases op with
    | claimLease jobId holderId ttl => exact absurd rfl (hop jobId holderId ttl)
    | write call => exact hstep.2
    | _ => exact hstep
  | _ => exact hstep

omit [DecidableEq θ] in
/-- The names after a step agree with the names before, tell the rows apart, and tell which row
the call that took the step holds. -/
theorem LeaseHistory.Accounts.leases (ha : h.Accounts c given name) {l : θ × ServiceInput} {op : ServiceOp}
    {k : Raises op.Res → Call Reply} (hl : c.threads l.1 = .call op k) {d : CommandPool θ}
    (hd : d.state = (svc.exec op l.2 c.state).2) {lease : Option LeaseName}
    (hstep : Leasing (given l.1) op (svc.exec op l.2 c.state).1 lease) :
    ∃ name' : Nat → LeaseName, (∀ n < h.steps, name' n = name n) ∧
      (∀ bundleId row, d.state.database.leases.workerLeases bundleId = some row →
        ∃ n < h.steps + 1, h.issuedAfter c d bundleId = some n ∧ name' n = ⟨bundleId, row.holderId, row.fencingToken⟩) ∧
      ∀ given', lease = some given' → ∃ n < h.steps + 1, h.servedAfter c d l.1 = some n ∧ name' n = given' := by
  have old {bundleId : String} {row : LeaseRow} (hrow : c.state.database.leases.workerLeases bundleId = some row) :
      ∃ n < h.steps + 1, h.issuedAt bundleId = some n ∧ name n = ⟨bundleId, row.holderId, row.fencingToken⟩ := by
    obtain ⟨n, hn, hissued⟩ := ha.row bundleId row hrow
    exact ⟨n, by omega, hissued⟩
  by_cases hop : ∃ jobId holderId ttl, op = .store (.claimLease jobId holderId ttl)
  · obtain ⟨jobId, holderId, ttl, rfl⟩ := hop
    rw [LeaseHistory.servedAfter_claim hl]
    obtain ⟨hsame, hlive⟩ | ⟨expiresAt, issued, hissued, htoken, hleases⟩ :=
      exec_claimLease svc jobId holderId ttl l.2 c.state
    · -- the row found, if any, was issued before
      rw [hd, hsame, LeaseHistory.issuedAfter_kept (by rw [hd, hsame])]
      refine ⟨name, fun _ _ => rfl, fun bundleId row hrow => old hrow, fun given' hgiven => ?_⟩
      obtain hnone | ⟨found, hfound, hname⟩ := hstep
      · rw [hnone] at hgiven
        cases hgiven
      · obtain ⟨row, hrow, hholder, htoken⟩ := hlive found hfound
        obtain ⟨n, hn, hissued, hn'⟩ := old hrow
        refine ⟨n, hn, hissued, ?_⟩
        rw [hn', hholder, ← htoken]
        exact Option.some.inj (hname.symm.trans hgiven)
    · -- a new row, issued by this step
      rw [hd, hleases, LeaseHistory.issuedAfter_issue (by rw [hd, hleases])]
      refine ⟨Function.update name h.steps ⟨jobId, holderId, issued.fencingToken⟩,
        fun n hn => Function.update_of_ne (Nat.ne_of_lt hn) .., fun bundleId row hrow => ?_, fun given' hgiven => ?_⟩
      · by_cases hb : bundleId = jobId
        · subst hb
          simp only [LeaseTables.issue, Function.update_self, Option.some.injEq] at hrow
          subst hrow
          exact ⟨h.steps, by omega, by simp, by simp [htoken]⟩
        · simp only [LeaseTables.issue, Function.update_of_ne hb] at hrow
          obtain ⟨n, hn, hissued', hn'⟩ := ha.row bundleId row hrow
          refine ⟨n, by omega, by rw [Function.update_of_ne hb, hissued'], ?_⟩
          rw [Function.update_of_ne (Nat.ne_of_lt hn), hn']
      · obtain hnone | ⟨found, hfound, hname⟩ := hstep
        · rw [hnone] at hgiven
          cases hgiven
        · rw [hissued, Except.ok.injEq] at hfound
          subst hfound
          refine ⟨h.steps, by omega, by simp, ?_⟩
          rw [Function.update_self]
          exact Option.some.inj (hname.symm.trans hgiven)
  · have hop' : ∀ jobId holderId ttl, op ≠ .store (.claimLease jobId holderId ttl) :=
      fun jobId holderId ttl heq => hop ⟨jobId, holderId, ttl, heq⟩
    have hkeeps := exec_keeps_leases svc hop' l.2 c.state
    rw [← hd] at hkeeps
    rw [LeaseHistory.issuedAfter_kept hkeeps.counters, LeaseHistory.servedAfter_kept hl hop', hstep.kept hop']
    refine ⟨name, fun _ _ => rfl, fun bundleId row' hrow' => ?_, fun given' hgiven => ?_⟩
    · obtain ⟨row, hrow, hholder, htoken⟩ := hkeeps.rows bundleId row' hrow'
      rw [hholder, htoken]
      exact old hrow
    · obtain ⟨n, hn, hserved⟩ := ha.held l.1 given' hgiven
      exact ⟨n, by omega, hserved⟩

/-- The keys of claims after a step. -/
theorem LeaseHistory.Accounts.records (ha : h.Accounts c given name) {l : θ × ServiceInput} {op : ServiceOp}
    {k : Raises op.Res → Call Reply} (hl : c.threads l.1 = .call op k) {d : CommandPool θ}
    (hd : d.state = (svc.exec op l.2 c.state).2) (hext : Extends c.state.database d.state.database) {name' : Nat → LeaseName}
    (hname : ∀ n < h.steps, name' n = name n) {key : String × String} {row : IdempotencyRow} (hclaim : key.1 = "claim")
    (hrow : d.state.database.idempotencyRecords key = some row) :
    ∃ n < h.steps + 1, (h.next c d l.1).recordedBy key = some n ∧
      d.state.database.RecordsClaim key row.requestHash (name' n) := by
  simp only [LeaseHistory.next]
  cases hold : c.state.database.idempotencyRecords key with
  | some row' =>
    rw [hext.records key row' hold, Option.some.injEq] at hrow
    subst hrow
    obtain ⟨n, hn, hrecorded, hstands⟩ := ha.recorded key row' hclaim hold
    refine ⟨n, by omega, by simpa using hrecorded, ?_⟩
    rw [hname n hn]
    exact hstands.extends hext
  | none =>
    have hnew : (svc.exec op l.2 c.state).2.database.idempotencyRecords key ≠ c.state.database.idempotencyRecords key := by
      rw [← hd, hrow, hold]
      exact Option.some_ne_none row
    obtain ⟨call, v, events, db, rfl, hv, rfl, ht, hdb⟩ := exec_records hnew
    have hfollows := ha.follows l.1
    rw [hl] at hfollows
    obtain ⟨_, ⟨hwrites, -⟩, -⟩ := hfollows (.ok [])
    obtain hother | ⟨lease, payload, v', expected, hgiven, hnamed, rfl⟩ := hwrites
    · exact absurd hclaim (hother v hv)
    · cases hv
      have hstands := claim_records hnamed hold ht
      rw [← hdb, ← hd] at hstands
      obtain ⟨n, hn, hserved, heq⟩ := ha.held l.1 lease hgiven
      refine ⟨n, by omega, by simpa [hrow] using hserved, ?_⟩
      rw [hname n hn, heq]
      obtain ⟨e, ⟨row', hrow', hhash, hby⟩, hrest⟩ := hstands
      rw [hrow, Option.some.injEq] at hrow'
      subst hrow'
      exact ⟨e, ⟨row, hrow, rfl, hby⟩, hrest⟩

theorem LeaseHistory.Accounts.step (ha : h.Accounts c given name) (l : θ × ServiceInput)
    (hext : Extends c.state.database (CommandPool.step svc c l).state.database) :
    ∃ given' name', (h.next c (CommandPool.step svc c l) l.1).Accounts (CommandPool.step svc c l) given' name' := by
  have unrecorded (key : String × String) (hkey : (CommandPool.step svc c l).state.database.idempotencyRecords key = none) :
      (h.next c (CommandPool.step svc c l) l.1).recordedBy key = none := by
    simp only [LeaseHistory.next, hkey, ne_eq, not_true_eq_false, and_false, if_false]
    refine ha.unrecorded key ?_
    cases hold : c.state.database.idempotencyRecords key with
    | none => rfl
    | some row =>
      rw [hext.records key row hold] at hkey
      cases hkey
  cases hl : c.threads l.1 with
  | done r =>
    rw [show CommandPool.step svc c l = c from Pool.step_done svc.exec hl] at unrecorded ⊢
    refine ⟨given, name, ha.follows, fun bundleId row hrow => ?_, fun i lease hgiven => ?_, unrecorded,
      fun key row hclaim hrow => ?_⟩
    · obtain ⟨n, hn, hissued, hname⟩ := ha.row bundleId row hrow
      exact ⟨n, Nat.lt_succ_of_lt hn, (congrFun (LeaseHistory.issuedAfter_kept rfl) bundleId).trans hissued, hname⟩
    · obtain ⟨n, hn, hserved, hname⟩ := ha.held i lease hgiven
      refine ⟨n, Nat.lt_succ_of_lt hn, ?_, hname⟩
      rw [← hserved]
      simp [LeaseHistory.next, LeaseHistory.servedAfter, hl]
    · obtain ⟨n, hn, hrecorded, hstands⟩ := ha.recorded key row hclaim hrow
      exact ⟨n, Nat.lt_succ_of_lt hn, by simpa [LeaseHistory.next, hrow] using hrecorded, hstands⟩
  | call op k =>
    have hstep : CommandPool.step svc c l = _ := Pool.step_call svc.exec hl
    have hfollows := ha.follows l.1
    rw [hl] at hfollows
    obtain ⟨lease, hlease, hrest⟩ := hfollows (svc.exec op l.2 c.state).1
    have hd : (CommandPool.step svc c l).state = (svc.exec op l.2 c.state).2 := by rw [hstep]
    obtain ⟨name', hname, hrows, hheld⟩ := ha.leases hl hd hlease
    refine ⟨Function.update given l.1 lease, name', fun i => ?_, hrows, fun i lease' hgiven => ?_, unrecorded,
      fun key row hclaim hrow => ha.records hl hd hext hname hclaim hrow⟩
    · by_cases hi : i = l.1
      · subst hi
        simpa [hstep] using hrest
      · simpa [hstep, Function.update_of_ne hi] using ha.follows i
    · by_cases hi : i = l.1
      · subst hi
        rw [Function.update_self] at hgiven
        obtain ⟨n, hn, hserved, heq⟩ := hheld lease' hgiven
        exact ⟨n, hn, by simpa [LeaseHistory.next] using hserved, heq⟩
      · rw [Function.update_of_ne hi] at hgiven
        obtain ⟨n, hn, hserved, heq⟩ := ha.held i lease' hgiven
        refine ⟨n, Nat.lt_succ_of_lt hn, ?_, ?_⟩
        · simpa [LeaseHistory.next, Function.update_of_ne hi] using hserved
        · rw [hname n hn, heq]

end

/-! Watched runs -/

/-- Every thread keeps its promise, and the history accounts for the pool. -/
structure WatchedPool.Sound (svc : Service) (commands : θ → Command) (w : WatchedPool θ) : Prop where
  sound : w.pool.Sound (protocol svc commands AnyStep) (ThreadHolds svc commands AnyStep)
  accounts : ∃ given name, w.leases.Accounts w.pool given name

namespace WatchedPool
variable {commands : θ → Command} {w : WatchedPool θ}

omit [DecidableEq θ] in
theorem start_sound (svc : Service) (commands : θ → Command) : (start svc commands).Sound svc commands :=
  ⟨ControlPlane.start_sound svc commands AnyStep, _, _, start_accounts svc commands⟩

theorem Sound.step (h : w.Sound svc commands) (l : θ × ServiceInput) : (w.step svc l).Sound svc commands := by
  have hadmits : Pool.Admits AnyStep w.pool l := by
    unfold Pool.Admits
    split <;> trivial
  obtain ⟨hsound, hevolves⟩ := h.sound.step hadmits
  obtain ⟨_, _, ha⟩ := h.accounts
  exact ⟨hsound, ha.step l hevolves.database⟩

end WatchedPool

end Autolean.ControlPlane
