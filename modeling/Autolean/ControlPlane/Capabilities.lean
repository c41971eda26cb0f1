import Autolean.ControlPlane.Budgets
import Autolean.ControlPlane.ClaimTrail
import Autolean.Machine.Progress

/-! Capabilities and the leases they derive from. `issue` bounds a capability by the expiry in
the caller's lease value; the recorded lease may by then expire earlier. -/
namespace Autolean.ControlPlane
open Contracts Machine Raising

/-- A call some client of the authorization service or of the stores makes. -/
inductive AuthorityCommand where
  | store (op : StoreOp)
  | registerOperatorApproval (approval : ModelExecutionProviderApproval) (idempotencyKey : String)
  | issue (call : AuthorityService.IssueCall)
  | reserve (authorization : ModelExecutionAuthorization) (provider : ModelExecutionProviderBinding)
      (requestedInputTokens requestedOutputTokens : Int) (contextPackHash : Option Digest) (outboundRequestHash : Digest)
  | settle (reservation : ModelExecutionReservation) (inputTokens cachedInputTokens outputTokens : Int)
  | abandon (reservation : ModelExecutionReservation) (failureCode : String)
  | revoke (authorizationId : StableIdentifier) (reason idempotencyKey : String)

open AuthorityService in
def AuthorityCommand.program (svc : AuthorityService) : AuthorityCommand → AuthorityCall Unit
  | store op => do let _ ← perform (.store op)
  | registerOperatorApproval approval key => do let _ ← perform (.registerOperatorApproval approval key)
  | issue call => do let _ ← svc.issue call
  | reserve authorization provider input output contextPackHash outboundRequestHash => do
    let _ ← perform (.reserve authorization provider input output contextPackHash outboundRequestHash)
  | settle reservation input cached output => perform (.settle reservation input cached output)
  | abandon reservation failureCode => perform (.abandon reservation failureCode)
  | revoke authorizationId reason key => perform (.revoke authorizationId reason key)

abbrev AuthorityPool (θ : Type) := Pool authorityInterface ControlPlaneError AuthorityWorld θ Unit

def AuthorityPool.start {θ : Type} (svc : AuthorityService) (commands : θ → AuthorityCommand) : AuthorityPool θ :=
  ⟨.empty, fun i => (commands i).program svc⟩

/-- One client takes its next step. -/
def AuthorityPool.step {θ : Type} [DecidableEq θ] (svc : AuthorityService) :
    AuthorityPool θ → θ × AuthorityInput → AuthorityPool θ :=
  Pool.step svc.exec

/-- An authorization the step records expires no later than the lease row of its bundle. -/
def IssuesWithinLease (w w' : AuthorityWorld) : Prop :=
  ∀ id a, w.authority.authorizations id = none → w'.authority.authorizations id = some a →
    ∃ row, w.database.leases.workerLeases a.authorization.bundleId.value = some row ∧
      a.authorization.expiresAt.instant ≤ row.expiresAt

/-- Where an issue is about to record a new authorization, the lease row of its bundle expires no
earlier than the lease value the caller presented. -/
def LeaseCovers {θ : Type} (commands : θ → AuthorityCommand) (c : AuthorityPool θ) (l : θ × AuthorityInput) : Prop :=
  match commands l.1, c.threads l.1 with
  | .issue call, .call (.record ..) _ =>
    c.state.authority.authorizationIdempotency (AuthorityService.issueScope, call.idempotencyKey) = none →
    c.state.authority.authorizations call.authorizationId.value = none →
    ∃ row ∈ c.state.database.leases.workerLeases call.bundle.bundleId.value, call.lease.expiresAt.instant ≤ row.expiresAt
  | _, _ => True

instance {θ : Type} (commands : θ → AuthorityCommand) (c : AuthorityPool θ) (l : θ × AuthorityInput) :
    Decidable (LeaseCovers commands c l) := by
  unfold LeaseCovers
  split <;> infer_instance

/-- An operation a command may perform: only an issue records, and then a capability for its own
bundle within the lease value it was given. -/
def Performs : AuthorityCommand → AuthorityOp → Prop
  | .issue call, .record a _ key => a.bundleId = call.bundle.bundleId ∧ a.authorizationId = call.authorizationId ∧
      a.expiresAt.instant ≤ call.lease.expiresAt.instant ∧ key = call.idempotencyKey
  | _, .record .. => False
  | _, _ => True

theorem mint_ok {svc : AuthorityService} {call : AuthorityService.IssueCall} {approval : ModelExecutionProviderApproval}
    {policy : ModelEgressPolicy} {ttl : ℚ} {now : Instant} {capability : ModelExecutionCapability}
    (h : svc.mint call approval policy ttl now = .ok capability) :
    capability.bundleId = call.bundle.bundleId ∧ capability.authorizationId = call.authorizationId ∧
      capability.expiresAt.instant ≤ call.lease.expiresAt.instant := by
  unfold AuthorityService.mint at h
  obtain ⟨expiresAt, -, h⟩ := bind_eq_ok.mp h
  obtain ⟨hle, h⟩ := ensure_bind_eq_ok.mp h
  obtain ⟨lease, -, h⟩ := bind_eq_ok.mp h
  unfold AuthorityService.makeCapability at h
  split at h
  · cases h
    exact ⟨rfl, rfl, hle⟩
  · cases h

private theorem perform_performs {command : AuthorityCommand} {op : AuthorityOp} (h : Performs command op) :
    (AuthorityService.perform op).Issues (Performs command) := Prog.Issues.perform (I := authorityInterface) h

private theorem issue_performs (svc : AuthorityService) (call : AuthorityService.IssueCall) :
    (svc.issue call).Issues (Performs (.issue call)) := by
  have other {op : AuthorityOp} (h : ∀ a r k, op ≠ .record a r k) : Performs (.issue call) op := by
    cases op with
    | record a r k => exact absurd rfl (h a r k)
    | _ => trivial
  have refused (message : String) (e : ControlPlaneError) :
      (AuthorityService.refuse message e : AuthorityService.AuthorityCall Unit).Issues (Performs (.issue call)) := by
    unfold AuthorityService.refuse
    split <;> trivial
  unfold AuthorityService.issue
  refine .ofExcept_bind fun ttl _ => ?_
  refine .ofExcept_bind fun _ _ => ?_
  refine .bind (perform_performs (other (by simp))) fun events => ?_
  refine .ofExcept_bind fun binding _ => ?_
  refine .ofExcept_bind fun _ _ => ?_
  refine .bind ?_ fun _ => ?_
  · exact .ofExcept_bind fun _ _ => .handle (perform_performs (other (by simp))) (refused _)
  refine .bind (perform_performs (other (by simp))) fun approval => ?_
  refine .ofExcept_bind fun policy _ => ?_
  refine .bind (perform_performs (other (by simp))) fun now => ?_
  refine .ofExcept_bind fun capability hmint => ?_
  refine .bind (perform_performs (other (by simp))) fun signed => ?_
  refine .bind (perform_performs (other (by simp))) fun _ => ?_
  obtain ⟨a, rfl⟩ := signed
  obtain ⟨hbundle, hid, hle⟩ := mint_ok hmint
  exact perform_performs ⟨hbundle, hid, hle, rfl⟩

theorem program_performs (svc : AuthorityService) (command : AuthorityCommand) :
    (command.program svc).Issues (Performs command) := by
  cases command with
  | issue call => exact .bind (issue_performs svc call) fun _ => .pure _
  | store _ | registerOperatorApproval _ _ | reserve _ _ _ _ _ _ => exact .bind (perform_performs trivial) fun _ => .pure _
  | settle _ _ _ _ | abandon _ _ | revoke _ _ _ => exact perform_performs trivial

section
variable {θ : Type} [DecidableEq θ]

/-- In every interleaving of issues with lease operations in which each issue that records finds
its lease row as late as the lease it was given, no capability outlives the lease row it was
derived from. -/
theorem issued_within_lease (svc : AuthorityService) (commands : θ → AuthorityCommand) (labels : List (θ × AuthorityInput))
    (h : StepsMeet (AuthorityPool.step svc) (LeaseCovers commands) (AuthorityPool.start svc commands) labels) :
    StepsMeet (AuthorityPool.step svc) (fun c l => IssuesWithinLease c.state (AuthorityPool.step svc c l).state)
      (AuthorityPool.start svc commands) labels := by
  refine StepsMeet.of_invariant (fun c : AuthorityPool θ => ∀ i, (c.threads i).Issues (Performs (commands i))) ?_
    (fun i => program_performs svc (commands i)) h
  intro c l hc hok
  refine ⟨fun i => Pool.step_issues hc l i, fun id a hfree hnew => ?_⟩
  cases ht : c.threads l.1 with
  | done r =>
    rw [show AuthorityPool.step svc c l = c from Pool.step_done svc.exec ht, hfree] at hnew
    cases hnew
  | call op k =>
    have hstate : (AuthorityPool.step svc c l).state = authorityStep svc c.state (op, l.2) := by
      rw [show AuthorityPool.step svc c l = _ from Pool.step_call svc.exec ht]
      rfl
    rw [hstate] at hnew
    obtain hm | ⟨b, request, key, hop, hg⟩ := authorityStep_moves svc c.state (op, l.2)
    · rw [hm.authorizations, hfree] at hnew
      cases hnew
    · simp only at hop
      subst hop
      obtain ⟨row, hrow, hins⟩ := hg.inserted
      rw [hins] at hnew
      have hid : id = b.authorizationId.value := by
        by_contra hne
        rw [Function.update_of_ne hne, hfree] at hnew
        cases hnew
      subst hid
      rw [Function.update_self, Option.some.injEq] at hnew
      subst hnew
      rw [hrow]
      have hp := hc l.1
      rw [ht] at hp
      have hperf := hp.1
      cases hcmd : commands l.1 with
      | issue call =>
        rw [hcmd] at hperf
        obtain ⟨hbundle, hauth, hle, hkey⟩ := hperf
        subst hkey
        unfold LeaseCovers at hok
        simp only [hcmd, ht] at hok
        obtain ⟨lease, hlease, hcover⟩ := hok hg.key_free (hauth ▸ hg.id_free)
        exact ⟨lease, hbundle ▸ hlease, hle.trans hcover⟩
      | _ =>
        rw [hcmd] at hperf
        exact hperf.elim

end

/-! A lease renewed to an earlier expiry -/

def sampleRights : RightsRecord where
  rightsId := sampleId
  sourceId := sampleId
  sourceLicense := none
  overallDecision := .restricted
  modelEgress := .unknown
  allowedEndpointClasses := []
  reviewedBy := none
  reviewedAt := none
  licensed := by simp
  reviewed := by simp
  egress_explicit := by simp

def sampleApproval : ModelExecutionProviderApproval where
  approvalId := sampleId
  binding := ⟨sampleRevision, sampleRevision, sampleRevision, sampleRevision, .localEndpoint, sampleDigest, by simp⟩
  pricing := ⟨1, 1, 1⟩
  approvedBy := sampleRevision
  approvedAt := ⟨0, 0⟩
  enabled := true

def sampleAuthority : AuthorityService where
  control := sampleService
  capabilityHash _ := sampleDigest
  approvalHash _ := sampleDigest
  bindingHash _ := sampleDigest
  issueRequestHash _ := sampleDigest
  revocationRequestHash _ _ := sampleDigest
  approvalRequestHash _ _ := sampleDigest
  stableIdentifier _ _ := sampleId
  forbiddenIdentifier _ := false
  verifiesCapability _ _ _ := true
  maxTtlSeconds := 3600
  providerFailureThreshold := 3
  providerFailureCooldownSeconds := 60
  maxTtl_bounded := by norm_num
  threshold_bounded := by norm_num
  cooldown_bounded := by norm_num

/-- The lease of the first claim, one hour long. -/
def hourLease : Lease :=
  ⟨sampleId.value, "worker", 1, ⟨3600000000, 0⟩, sampleId.not_blank, sampleLease.holderId_nonblank, sampleLease.token_pos⟩

def sampleIssue : AuthorityService.IssueCall where
  bundle := ⟨sampleBundle [], sampleRights⟩
  authorizationId := sampleId
  approvalId := sampleId
  budget := ⟨1, 1, 1, 2, 1, by simp, by simp, by simp⟩
  lease := hourLease
  contextPackHash := sampleDigest
  outboundRequestHash := sampleDigest
  ttlSeconds := .finite 1800
  idempotencyKey := "issue"

def hourAttestation : Attestation :=
  { sampleAttestation .modelExecution "nonce-0123456789" sampleNonce.nonce_safe with
    expiresAt := ⟨3600000000, 0⟩, expires_after_issue := by decide }

inductive AuthorityCaller where
  | registrar
  | claimant
  | renewer
  | approver
  | issuer
  deriving DecidableEq

def authorityCommands : AuthorityCaller → AuthorityCommand
  | .registrar => .store (.write (sampleService.registrationCall (sampleBundle []) none
      (sampleAttestation .builderFreeze "nonce-0123456789" sampleNonce.nonce_safe) sampleKey))
  | .claimant => .store (.claimLease sampleId.value "worker" 3600)
  | .renewer => .store (.renewLease hourLease 60)
  | .approver => .registerOperatorApproval sampleApproval "approve"
  | .issuer => .issue sampleIssue

/-- A step of thread `i` at the epoch. -/
def authorityStepOf (i : AuthorityCaller) : AuthorityCaller × AuthorityInput :=
  (i, ⟨.sample 0 'a', ⟨fun _ => 0, 0, 0, (Readings.sample 0 'a').uuid⟩, some hourAttestation⟩)

/-- The hour-long lease is renewed to one minute before its holder asks for a capability, which
is about to be recorded. -/
def shortenedLease : List (AuthorityCaller × AuthorityInput) :=
  [authorityStepOf .registrar, authorityStepOf .claimant, authorityStepOf .renewer, authorityStepOf .approver] ++
    List.replicate 6 (authorityStepOf .issuer)

def untouchedLease : List (AuthorityCaller × AuthorityInput) :=
  [authorityStepOf .registrar, authorityStepOf .claimant, authorityStepOf .approver] ++
    List.replicate 7 (authorityStepOf .issuer)

theorem untouchedLease_issues :
    let start := AuthorityPool.start sampleAuthority authorityCommands
    StepsMeet (AuthorityPool.step sampleAuthority) (LeaseCovers authorityCommands) start untouchedLease ∧
      ((run (AuthorityPool.step sampleAuthority) start untouchedLease).state.authority.authorizations
        sampleId.value).isSome = true := by decide +kernel

theorem shortenedLease_issues :
    let c := run (AuthorityPool.step sampleAuthority) (AuthorityPool.start sampleAuthority authorityCommands) shortenedLease
    let issued := (AuthorityPool.step sampleAuthority c (authorityStepOf .issuer)).state.authority.authorizations sampleId.value
    c.state.authority.authorizations sampleId.value = none ∧
      issued.map (fun a => (a.authorization.bundleId, a.authorization.expiresAt.instant)) = some (sampleId, 1800000000) ∧
      (c.state.database.leases.workerLeases sampleId.value).map (·.expiresAt) = some 60000000 := by decide +kernel

theorem issued_within_lease_untouched :
    let start := AuthorityPool.start sampleAuthority authorityCommands
    StepsMeet (AuthorityPool.step sampleAuthority)
        (fun c l => IssuesWithinLease c.state (AuthorityPool.step sampleAuthority c l).state) start untouchedLease ∧
      ((run (AuthorityPool.step sampleAuthority) start untouchedLease).state.authority.authorizations
        sampleId.value).isSome = true :=
  ⟨issued_within_lease sampleAuthority authorityCommands untouchedLease untouchedLease_issues.1, untouchedLease_issues.2⟩

theorem capability_outlives_lease :
    ¬ ∀ (svc : AuthorityService) (commands : AuthorityCaller →
      AuthorityCommand) (labels : List (AuthorityCaller × AuthorityInput)),
      StepsMeet (AuthorityPool.step svc) (fun c l => IssuesWithinLease c.state (AuthorityPool.step svc c l).state)
        (AuthorityPool.start svc commands) labels := by
  intro h
  obtain ⟨-, hlast, -⟩ := (stepsMeet_append _ _ _).mp
    (h sampleAuthority authorityCommands (shortenedLease ++ [authorityStepOf .issuer]))
  obtain ⟨hfree, hissued, hlease⟩ := shortenedLease_issues
  obtain ⟨a, ha, hfields⟩ := Option.map_eq_some_iff.mp hissued
  obtain ⟨hbundle, hexpires⟩ := Prod.mk.inj hfields
  obtain ⟨row, hrow, hle⟩ := hlast sampleId.value a hfree ha
  rw [hbundle] at hrow
  rw [hrow, Option.map_some, Option.some.injEq] at hlease
  rw [hexpires, hlease] at hle
  exact absurd hle (by decide)

end Autolean.ControlPlane
