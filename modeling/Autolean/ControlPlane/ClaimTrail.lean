import Autolean.ControlPlane.Fencing
import Autolean.ControlPlane.Verdicts

/-! The audit trail of claims. A claim's lease is live before its event is appended, so a
fenced event is preceded by the claim of its token as long as workers use only lease rows
that a claim has returned with. -/
namespace Autolean.ControlPlane
open Contracts Machine Raising

/-- The log holds a claim of the bundle that records the token. -/
def Claimed (log : List StoredEvent) (bundleId : String) (token : Int) : Prop :=
  ∃ e ∈ log, e.entityType = "task" ∧ e.entityId = bundleId ∧ e.eventType = "task.claimed" ∧
    e.payload.int "fencing_token" = some token

/-- Every fenced event comes after a claim of its token. -/
def FencedAfterClaim (log : List StoredEvent) : Prop :=
  History (fun before e => ∀ bundleId token, e.fence = some (bundleId, token) → Claimed before bundleId token) log

section
variable {θ : Type} [DecidableEq θ] {svc : Service} {commands : θ → Command}

/-- The call is a claim that has returned with the lease row in force for the bundle: it was
given that row, and its key was recorded by a call that was given it. -/
def ReturnedWith (commands : θ → Command) (w : WatchedPool θ) (bundleId : String) (i : θ) : Prop :=
  match commands i with
  | .claim _ _ _ key => (w.pool.receipt i).isSome = true ∧ w.leases.served i = w.leases.issuedAt bundleId ∧
      w.leases.recordedBy ("claim", key) = w.leases.issuedAt bundleId
  | _ => False

/-- A fenced append that would be written under the live lease row of its bundle comes after a
claim that returned with that row. -/
def UsesReturned (commands : θ → Command) (w : WatchedPool θ) (l : θ × ServiceInput) : Prop :=
  match w.pool.threads l.1 with
  | .call (.store (.write (.appendFenced batch bundleId lease expected))) _ =>
    (∀ v ∈ batch.idempotency, w.pool.state.database.idempotencyRecords v.primaryKey = none) →
    w.pool.state.database.leases.assertCurrent lease l.2.readings.now = .ok () →
    expected = w.pool.state.database.currentSequence batch.entityType batch.entityId →
    ∃ i, ReturnedWith commands w bundleId i
  | _ => True

instance (w : WatchedPool θ) (bundleId : String) (i : θ) : Decidable (ReturnedWith commands w bundleId i) := by
  unfold ReturnedWith
  split <;> infer_instance

instance [Fintype θ] (l : θ × ServiceInput) (w : WatchedPool θ) : Decidable (UsesReturned commands w l) := by
  unfold UsesReturned
  split <;> infer_instance

omit [DecidableEq θ] in
/-- A row that a claim returned with has its event in the log. -/
theorem ReturnedWith.claimed {w : WatchedPool θ} (hw : w.Sound svc commands) {bundleId : String} {row : LeaseRow}
    (hrow : w.pool.state.database.leases.workerLeases bundleId = some row) {i : θ} (h : ReturnedWith commands w bundleId i) :
    Claimed w.pool.state.database.events bundleId row.fencingToken := by
  obtain ⟨_, name, ha⟩ := hw.accounts
  obtain ⟨n, -, hissued, hname⟩ := ha.row bundleId row hrow
  unfold ReturnedWith at h
  split at h
  · rename_i key _
    obtain ⟨-, -, hrecorded⟩ := h
    rw [hissued] at hrecorded
    obtain ⟨record, hrecord⟩ : ∃ record, w.pool.state.database.idempotencyRecords ("claim", key) = some record := by
      apply Option.ne_none_iff_exists'.mp
      intro hnone
      rw [ha.unrecorded _ hnone] at hrecorded
      cases hrecorded
    obtain ⟨m, -, hm, e, hbound, htype, hid, hevent, hnamed⟩ := ha.recorded _ record rfl hrecord
    rw [hrecorded, Option.some.injEq] at hm
    subst hm
    rw [hname] at hid hnamed
    obtain ⟨_, _, _, _, heq, hmem, -⟩ := hw.sound.inv.bound hbound
    cases heq
    refine ⟨e, hmem, htype, hid, hevent, ?_⟩
    simp [JsonObject.int, hnamed.token]
  · exact h.elim

/-- In every interleaving of commands whose fenced appends use only lease rows that a claim has
returned with, every fenced event of the log comes after the claim of its token. -/
theorem fenced_after_claim (svc : Service) (commands : θ → Command) (labels : List (θ × ServiceInput))
    (h : StepsMeet (WatchedPool.step svc) (UsesReturned commands) (WatchedPool.start svc commands) labels) :
    FencedAfterClaim (run (CommandPool.step svc) (CommandPool.start svc commands) labels).state.database.events := by
  have keeps (w : WatchedPool θ) (l : θ × ServiceInput)
      (hc : w.Sound svc commands ∧ FencedAfterClaim w.pool.state.database.events) (hok : UsesReturned commands w l) :
      (w.step svc l).Sound svc commands ∧ FencedAfterClaim (w.step svc l).pool.state.database.events := by
    obtain ⟨hw, htrail⟩ := hc
    refine ⟨hw.step l, ?_⟩
    obtain heq | ⟨call, e, k, hcall, happ⟩ := pool_step_appends hw.sound l
    · rw [show (w.step svc l).pool.state.database.events = w.pool.state.database.events from heq]
      exact htrail
    · rw [show (w.step svc l).pool.state.database.events = w.pool.state.database.events ++ [e] from happ.events]
      refine (history_concat e).mpr ⟨htrail, fun bundleId token hf => ?_⟩
      have hfenced : e.entityType ∈ fencedEntityTypes := by
        by_contra hne
        rw [StoredEvent.fence_of_not_fenced hne] at hf
        cases hf
      obtain ⟨batch, b, lease, expected, row, rfl, rfl, hrow, hholder, htoken, hlive, hfence⟩ := happ.admitted hfenced
      rw [hf, Option.some.injEq, Prod.mk.injEq] at hfence
      obtain ⟨rfl, rfl⟩ := hfence
      unfold UsesReturned at hok
      rw [hcall] at hok
      obtain ⟨i, hi⟩ := hok happ.writable.key_unused (LeaseTables.assertCurrent_of hrow ⟨hholder, htoken⟩ hlive) happ.place
      exact hi.claimed hw hrow
  rw [← show (WatchedPool.start svc commands).pool = CommandPool.start svc commands from rfl, ← WatchedPool.run_pool]
  have hstart : FencedAfterClaim (WatchedPool.start svc commands).pool.state.database.events := history_nil
  exact (run_invariant (fun w : WatchedPool θ => w.Sound svc commands ∧ FencedAfterClaim w.pool.state.database.events) keeps
    ⟨WatchedPool.start_sound svc commands, hstart⟩ h).2

end

/-! A worker whose claim stops half way -/

inductive TrailCaller where
  | registrar
  | claimant
  | submitter
  deriving DecidableEq

instance : Fintype TrailCaller where
  elems := {.registrar, .claimant, .submitter}
  complete i := by cases i <;> decide

def trailCommands : TrailCaller → Command
  | .registrar => .registerBundle (sampleBundle []) "register"
  | .claimant => .claim sampleId.value "worker" (.finite 60) "claim"
  | .submitter => .submitProof sampleId.value sampleLeaseOf sampleSubmission "submit"

/-- The claim stops after its lease transaction. -/
def interruptedClaim : List (TrailCaller × ServiceInput) :=
  List.replicate 4 (stepOf .registrar 0 'a') ++ List.replicate 3 (stepOf .claimant 0 'b') ++
    List.replicate 5 (stepOf .submitter 0 'c')

/-- The claim returns before its lease is used. -/
def finishedClaim : List (TrailCaller × ServiceInput) :=
  List.replicate 4 (stepOf .registrar 0 'a') ++ List.replicate 5 (stepOf .claimant 0 'b') ++
    List.replicate 5 (stepOf .submitter 0 'c')

theorem finishedClaim_trail :
    StepsMeet (WatchedPool.step sampleService) (UsesReturned trailCommands) (WatchedPool.start sampleService trailCommands)
        finishedClaim ∧
      (run (CommandPool.step sampleService) (CommandPool.start sampleService trailCommands)
        finishedClaim).state.database.events.map (·.eventType) =
        ["task.registered", "task.claimed", "proof.submitted"] := by decide +kernel

theorem interruptedClaim_trail :
    let events := (run (CommandPool.step sampleService) (CommandPool.start sampleService trailCommands)
      interruptedClaim).state.database.events
    events.map (·.fence) = [none, some (sampleId.value, 1)] ∧
      events.map (·.eventType) = ["task.registered", "proof.submitted"] := by decide +kernel

theorem fenced_after_claim_finished :
    let events := (run (CommandPool.step sampleService) (CommandPool.start sampleService trailCommands)
      finishedClaim).state.database.events
    FencedAfterClaim events ∧ events.map (·.eventType) = ["task.registered", "task.claimed", "proof.submitted"] :=
  ⟨fenced_after_claim sampleService trailCommands finishedClaim finishedClaim_trail.1, finishedClaim_trail.2⟩

example : ¬ StepsMeet (WatchedPool.step sampleService) (UsesReturned trailCommands)
    (WatchedPool.start sampleService trailCommands) interruptedClaim := by decide +kernel

theorem unclaimed_token_committed :
    ¬ ∀ (svc : Service) (commands : TrailCaller → Command) (labels : List (TrailCaller × ServiceInput)),
      FencedAfterClaim (run (CommandPool.step svc) (CommandPool.start svc commands) labels).state.database.events := by
  intro h
  obtain ⟨hfence, htypes⟩ := interruptedClaim_trail
  obtain ⟨e, he, hf⟩ : ∃ e ∈ (run (CommandPool.step sampleService) (CommandPool.start sampleService trailCommands)
      interruptedClaim).state.database.events, e.fence = some (sampleId.value, 1) := by
    apply List.mem_map.mp
    rw [hfence]
    simp
  obtain ⟨before, after, hl, hp⟩ := (h sampleService trailCommands interruptedClaim).of_mem he
  obtain ⟨claim, hmem, -, -, htype, -⟩ := hp _ _ hf
  have hin : claim.eventType ∈ ["task.registered", "proof.submitted"] := by
    rw [← htypes, hl]
    exact List.mem_map_of_mem (List.mem_append_left _ hmem)
  rw [htype] at hin
  simp at hin

end Autolean.ControlPlane
