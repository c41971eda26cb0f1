import Autolean.ControlPlane.ModelAuthorization

/-! Minting a capability. `issue` reads the registered task, the worker's lease and the
operator's approval one after the other and only then records what it signed, so other
clients move between its steps. -/
namespace Autolean.ControlPlane
open Contracts Machine Raising

/-- A bundle with the rights record of its contract. -/
structure RightsBundle extends FormalizationTaskBundle where
  rights : RightsRecord

structure AuthorityWorld where
  database : Database
  authority : AuthorityTables

/-- The steps of the service and of the stores it shares. -/
inductive AuthorityOp where
  | store (op : StoreOp)
  | now
  | registerOperatorApproval (approval : ModelExecutionProviderApproval) (idempotencyKey : String)
  | storedProviderApproval (approvalId : String)
  | sign (capability : ModelExecutionCapability) (ttlSeconds : ℚ)
  | verifyCapability (authorization : ModelExecutionAuthorization)
  | record (authorization : ModelExecutionAuthorization) (request : IssueRequest) (idempotencyKey : String)
  | reserve (authorization : ModelExecutionAuthorization) (provider : ModelExecutionProviderBinding)
      (requestedInputTokens requestedOutputTokens : Int) (contextPackHash : Option Digest) (outboundRequestHash : Digest)
  | settle (reservation : ModelExecutionReservation) (inputTokens cachedInputTokens outputTokens : Int)
  | abandon (reservation : ModelExecutionReservation) (failureCode : String)
  | revoke (authorizationId : StableIdentifier) (reason idempotencyKey : String)

abbrev AuthorityOp.Res : AuthorityOp → Type
  | .store op => op.Res
  | .now => Instant
  | .registerOperatorApproval .. | .storedProviderApproval _ => ModelExecutionProviderApproval
  | .sign capability _ => { a : ModelExecutionAuthorization // a.toModelExecutionCapability = capability }
  | .verifyCapability _ => Unit
  | .record .. => ModelExecutionAuthorization
  | .reserve .. => ModelExecutionReservation
  | .settle .. | .abandon .. | .revoke .. => Unit

abbrev authorityInterface : Interface := ⟨AuthorityOp, AuthorityOp.Res⟩

/-- What the environment supplies to one step: clocks, identifiers and the signer's answer. -/
structure AuthorityInput where
  store : Readings
  readings : AuthorityReadings
  attestation : Option Attestation

namespace AuthorityService
variable (svc : AuthorityService)

def issueScope : String := "issue_model_execution_authorization"

/-- `_stored_provider_approval`. -/
def storedProviderApproval (t : AuthorityTables) (approvalId : String) : Raises ModelExecutionProviderApproval :=
  match t.providerApprovals approvalId with
  | none => unauthorized "model execution provider approval is not registered"
  | some row => do
    ensure (row.approval.approvalId.value = approvalId ∧ row.approvalHash = svc.approvalHash row.approval)
      (.modelExecutionAuthorizationError "stored model execution provider approval hash is corrupt")
    pure row.approval

/-- `_record_provider_approval_idempotency`. -/
def recordApprovalKey (t : AuthorityTables) (key : String) (requestDigest : Digest) (approvalId : String) :
    Raises AuthorityTables := do
  ensure ((t.approvalIdempotency key).isNone = true) .integrityError
  pure { t with approvalIdempotency := Function.update t.approvalIdempotency key (some (requestDigest, approvalId)) }

/-- `_idempotent_provider_approval`. -/
def idempotentProviderApproval (t : AuthorityTables) (key : String) (requestDigest : Digest) :
    Raises (Option ModelExecutionProviderApproval) :=
  match t.approvalIdempotency key with
  | none => .ok none
  | some (digest, approvalId) => do
    ensure (digest = requestDigest)
      (.modelExecutionAuthorizationError "provider approval idempotency key was reused for a different request")
    let approval ← svc.storedProviderApproval t approvalId
    pure (some approval)

/-- Persist one enabled provider approval. -/
def registerOperatorApproval (approval : ModelExecutionProviderApproval) (idempotencyKey : String) (t : AuthorityTables) :
    Raises (ModelExecutionProviderApproval × AuthorityTables) := do
  ensure (approval.enabled = true) (.modelExecutionAuthorizationError
    "operator provider approval registration requires an enabled approval")
  ensure (¬ Blank idempotencyKey) (.modelExecutionAuthorizationError
    "provider approval registration idempotency key must not be empty")
  let approvalId := approval.approvalId.value
  let requestDigest := svc.approvalRequestHash approvalId (svc.approvalHash approval)
  match ← svc.idempotentProviderApproval t idempotencyKey requestDigest with
  | some replay => pure (replay, t)
  | none =>
    match t.providerApprovals approvalId with
    | some row => do
      ensure (row.approvalHash = svc.approvalHash approval)
        (.modelExecutionAuthorizationError "provider approval ID is already bound to a different immutable record")
      let stored ← svc.storedProviderApproval t approvalId
      let t ← recordApprovalKey t idempotencyKey requestDigest stored.approvalId.value
      pure (stored, t)
    | none => do
      let inserted : AuthorityTables := { t with
        providerApprovals := Function.update t.providerApprovals approvalId (some ⟨svc.approvalHash approval, approval⟩) }
      let t ← recordApprovalKey inserted idempotencyKey requestDigest approvalId
      pure (approval, t)

/-- The write transaction of `issue`. -/
def record (authorization : ModelExecutionAuthorization) (request : IssueRequest) (idempotencyKey : String)
    (t : AuthorityTables) : Raises (ModelExecutionAuthorization × AuthorityTables) := do
  let authorizationId := authorization.authorizationId.value
  let requestDigest := svc.issueRequestHash request
  match ← svc.idempotentAuthorization t issueScope idempotencyKey requestDigest with
  | some replay => pure (replay, t)
  | none =>
    match t.authorizations authorizationId with
    | some row => do
      ensure (row.issueRequestHash = requestDigest)
        (.modelExecutionAuthorizationError "authorization ID is already bound to a different issue request")
      let stored ← svc.storedAuthorization t authorizationId
      let t ← recordIdempotency t issueScope idempotencyKey requestDigest stored.authorizationId.value
      pure (stored, t)
    | none => do
      let inserted : AuthorityTables := { t with
        authorizations := Function.update t.authorizations authorizationId
          (some ⟨svc.capabilityHash authorization.toModelExecutionCapability, authorization, requestDigest⟩) }
      let t ← recordIdempotency inserted issueScope idempotencyKey requestDigest authorizationId
      pure (authorization, t)

/-- The signer's attestation over a capability. One of another purpose is no authorization. -/
def signed (capability : ModelExecutionCapability) : Option Attestation →
    Raises { a : ModelExecutionAuthorization // a.toModelExecutionCapability = capability }
  | none => unauthorized "control-plane model authorization could not be attested"
  | some attestation =>
    if h : attestation.purpose = .modelExecution then
      .ok ⟨⟨capability, some attestation, by rintro _ ⟨rfl⟩; exact h⟩, rfl⟩
    else unauthorized "model execution authorization attestation was rejected"

/-- Commit the tables of a transaction that returned. -/
def committed {α : Type} (x : Raises (α × AuthorityTables)) (w : AuthorityWorld) : Raises α × AuthorityWorld :=
  match x with
  | .ok (a, t) => (.ok a, { w with authority := t })
  | .error e => (.error e, w)

def changed (x : Raises AuthorityTables) : Raises (Unit × AuthorityTables) := do
  let t ← x
  pure ((), t)

/-- One atomic step. -/
def exec : Semantics authorityInterface ControlPlaneError AuthorityInput AuthorityWorld
  | .store op, i, w => ((op.exec i.store w.database).1, { w with database := (op.exec i.store w.database).2 })
  | .now, i, w => (.ok (i.readings.now 0), w)
  | .registerOperatorApproval approval key, _, w => committed (svc.registerOperatorApproval approval key w.authority) w
  | .storedProviderApproval approvalId, _, w => (svc.storedProviderApproval w.authority approvalId, w)
  | .sign capability _, i, w => (signed capability i.attestation, w)
  | .verifyCapability authorization, i, w =>
    (svc.verifyCapability authorization (i.readings.now 0) i.readings.verifierNow, w)
  | .record authorization request key, _, w => committed (svc.record authorization request key w.authority) w
  | .reserve authorization provider input output contextPackHash outboundRequestHash, i, w =>
    committed (svc.reserve authorization provider input output contextPackHash outboundRequestHash i.readings
      w.database.leases w.authority) w
  | .settle reservation input cached output, i, w =>
    committed (changed (svc.settle reservation input cached output i.readings w.database.leases w.authority)) w
  | .abandon reservation failureCode, i, w =>
    committed (changed (svc.abandon reservation failureCode i.readings w.authority)) w
  | .revoke authorizationId reason key, i, w =>
    committed (changed (svc.revoke authorizationId reason key i.readings w.authority)) w

/-! `issue` -/

/-- `_validate_ttl`. -/
def validateTtl : PyFloat → Raises ℚ
  | .finite ttlSeconds => do
    ensure (0 < ttlSeconds)
      (.modelExecutionAuthorizationError "authorization ttl_seconds must be finite and positive")
    ensure (ttlSeconds ≤ svc.maxTtlSeconds)
      (.modelExecutionAuthorizationError "authorization ttl_seconds exceeds the configured maximum")
    pure ttlSeconds
  | _ => unauthorized "authorization ttl_seconds must be finite and positive"

/-- `_assert_bundle_binding` against the registered task. -/
def assertBundleBinding (bundle : Handoff) (binding : TaskBinding) : Raises Unit :=
  ensure (binding.bundleHash = (svc.control.hashing.handoffHash bundle).value ∧
      binding.contractId = bundle.contract.contractId.value ∧ binding.revision = bundle.contract.revision ∧
      binding.contractHash = (svc.control.hashing.semanticHash bundle.contract.toContractSemantics).value ∧
      binding.environmentHash = bundle.contract.formal.environment.environmentHash.value)
    (.modelExecutionAuthorizationError "model authorization bundle does not match the registered frozen task")

/-- The validators of `ModelEgressPolicyV1`. -/
def makeEgressPolicy (rights : RightsRecord) : Raises ModelEgressPolicy :=
  if h : rights.allowedEndpointClasses.Nodup then
    .ok ⟨rights.rightsId, rights.overallDecision, rights.modelEgress, rights.allowedEndpointClasses, h⟩
  else .error (.valueError "allowed_endpoint_classes must not contain duplicates")

/-- `_validate_public_identifier`. -/
def IsPublicIdentifier (value : String) : Prop :=
  value.toList.all (fun c => !isSpace c && 32 ≤ c.toNat && c.toNat ≠ 127) = true ∧ svc.forbiddenIdentifier value = false

instance (value : String) : Decidable (svc.IsPublicIdentifier value) := inferInstanceAs (Decidable (_ ∧ _))

/-- The validators of `ModelExecutionLeaseBindingV1`. -/
def makeLeaseBinding (bundleId : StableIdentifier) (lease : Lease) : Raises ModelExecutionLeaseBinding :=
  if h : lease.holderId ≠ "" then do
    ensure (lease.holderId.toList.length ≤ 256) (.valueError "worker_id is too long")
    ensure (svc.IsPublicIdentifier lease.holderId) (.valueError "worker_id must be a public identifier")
    pure ⟨bundleId, ⟨lease.holderId, h⟩, lease.fencingToken, lease.expiresAt, lease.token_pos⟩
  else .error (.valueError "worker_id is too short")

/-- The capability of a bundle under the validators of `ModelExecutionAuthorizationV1`. -/
def makeCapability (bundle : RightsBundle) (authorizationId : StableIdentifier) (lease : ModelExecutionLeaseBinding)
    (contextPackHash outboundRequestHash : Digest) (policy : ModelEgressPolicy) (approval : ModelExecutionProviderApproval)
    (budget : ModelExecutionBudget) (issuedAt expiresAt : Datetime) : Raises ModelExecutionCapability :=
  if h : issuedAt.instant < expiresAt.instant ∧ lease.bundleId = bundle.bundleId ∧
      expiresAt.instant ≤ lease.expiresAt.instant ∧ approval.enabled = true ∧
      policy.permits approval.binding.endpointClass = true then
    .ok {
      authorizationId := authorizationId
      bundleId := bundle.bundleId
      bundleHash := svc.control.hashing.handoffHash bundle.toHandoff
      contractId := bundle.contract.contractId
      revision := bundle.contract.revision
      contractHash := svc.control.hashing.semanticHash bundle.contract.toContractSemantics
      environmentHash := bundle.contract.formal.environment.environmentHash
      lease := lease
      contextPackHash := contextPackHash
      requestHash := outboundRequestHash
      egressPolicy := policy
      approvalSnapshot := approval
      budget := budget
      issuedAt := issuedAt
      expiresAt := expiresAt
      revision_pos := bundle.contract.revision_pos
      expires_after_issue := h.1
      lease_bundle := h.2.1
      within_lease := h.2.2.1
      approval_enabled := h.2.2.2.1
      egress_permitted := h.2.2.2.2 }
  else .error (.valueError "model execution authorization is invalid")

abbrev AuthorityCall := Prog authorityInterface ControlPlaneError

def perform (op : AuthorityOp) : AuthorityCall op.Res := Prog.perform (I := authorityInterface) op

def raise {α : Type} (x : Raises α) : AuthorityCall α := Prog.ofExcept x

/-- A stale fence found by an operation is reported as a refusal. -/
def refuse {α : Type} (message : String) : ControlPlaneError → AuthorityCall α
  | .staleFence _ => throw (.modelExecutionAuthorizationError message)
  | e => throw e

/-- `_assert_current_issue_lease`. -/
def assertCurrentIssueLease (bundleId : StableIdentifier) (lease : Lease) : AuthorityCall Unit := do
  raise (ensure (lease.jobId = bundleId.value)
    (.modelExecutionAuthorizationError "model execution lease belongs to a different frozen bundle"))
  tryCatch (perform (.store (.assertCurrent lease))) (refuse "model execution lease is stale or expired")

/-- What `issue` is called with. -/
structure IssueCall where
  bundle : RightsBundle
  authorizationId : StableIdentifier
  approvalId : StableIdentifier
  budget : ModelExecutionBudget
  lease : Lease
  contextPackHash : Digest
  outboundRequestHash : Digest
  ttlSeconds : PyFloat
  idempotencyKey : String

/-- The key of an issue request. -/
def issueRequest (call : IssueCall) (binding : TaskBinding) (capability : ModelExecutionCapability) (ttl : ℚ) :
    IssueRequest where
  authorizationId := call.authorizationId
  bundleHash := binding.bundleHash
  approvalId := capability.approvalSnapshot.approvalId
  approvalHash := svc.approvalHash capability.approvalSnapshot
  budget := call.budget
  lease := capability.lease
  contextPackHash := call.contextPackHash
  requestHash := call.outboundRequestHash
  ttlSeconds := ttl

/-- The frozen rights as a policy that permits the approved endpoint. -/
def approvedPolicy (rights : RightsRecord) (approval : ModelExecutionProviderApproval) : Raises ModelEgressPolicy := do
  ensure (approval.enabled = true) (.modelExecutionAuthorizationError "selected provider approval is disabled")
  let policy ← makeEgressPolicy rights
  ensure (policy.permits approval.binding.endpointClass = true)
    (.modelExecutionAuthorizationError "frozen source rights do not permit the selected model endpoint")
  pure policy

/-- The capability `issue` derives from the caller's lease value. -/
def mint (call : IssueCall) (approval : ModelExecutionProviderApproval) (policy : ModelEgressPolicy) (ttl : ℚ)
    (now : Instant) : Raises ModelExecutionCapability := do
  let expiresAt ← addSeconds now ttl
  ensure (expiresAt ≤ call.lease.expiresAt.instant) (.modelExecutionAuthorizationError
    "model execution authorization must expire no later than its current worker lease")
  let lease ← svc.makeLeaseBinding call.bundle.bundleId call.lease
  svc.makeCapability call.bundle call.authorizationId lease call.contextPackHash call.outboundRequestHash policy approval
    call.budget ⟨now, 0⟩ ⟨expiresAt, 0⟩

/-- Mint a short-lived capability from a registered frozen bundle and approval ID only. -/
def issue (call : IssueCall) : AuthorityCall ModelExecutionAuthorization := do
  let ttl ← raise (svc.validateTtl call.ttlSeconds)
  raise (ensure (¬ Blank call.idempotencyKey)
    (.modelExecutionAuthorizationError "authorization idempotency key must not be empty"))
  let events ← perform (.store (.readStream "task" call.bundle.bundleId.value))
  let binding ← raise (registeredBinding call.bundle.bundleId.value events)
  raise (svc.assertBundleBinding call.bundle.toHandoff binding)
  assertCurrentIssueLease call.bundle.bundleId call.lease
  let approval ← perform (.storedProviderApproval call.approvalId.value)
  let policy ← raise (approvedPolicy call.bundle.rights approval)
  let now ← perform .now
  let capability ← raise (svc.mint call approval policy ttl now)
  let authorization ← perform (.sign capability ttl)
  perform (.verifyCapability authorization.val)
  perform (.record authorization.val (svc.issueRequest call binding capability ttl) call.idempotencyKey)

end AuthorityService
end Autolean.ControlPlane
