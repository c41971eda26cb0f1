import Autolean.ControlPlane.ModelLedger
import Autolean.ControlPlane.Service

/-! The model-execution authorization service: its tables beside the event store, and the
transactions that reserve, settle, abandon and revoke under one budget. -/
namespace Autolean.ControlPlane
open Contracts Machine Raising

/-- One row of `model_execution_provider_health_ledger`: a success carries no failure code. -/
structure HealthRow where
  eventId : String
  bindingHash : Digest
  binding : ModelExecutionProviderBinding
  authorizationId : String
  reservationId : String
  failureCode : Option String
  recordedAt : Instant

structure AuthorizationRow where
  authorizationHash : Digest
  authorization : ModelExecutionAuthorization
  issueRequestHash : Digest

structure ApprovalRow where
  approvalHash : Digest
  approval : ModelExecutionProviderApproval

/-- The tables of the service. The two ledgers are listed oldest first. -/
structure AuthorityTables where
  authorizations : String → Option AuthorizationRow
  providerApprovals : String → Option ApprovalRow
  approvalIdempotency : String → Option (Digest × String)
  authorizationIdempotency : String × String → Option (Digest × String)
  ledger : List LedgerRow
  health : List HealthRow

def AuthorityTables.empty : AuthorityTables := ⟨fun _ => none, fun _ => none, fun _ => none, fun _ => none, [], []⟩

/-- What an issue request is keyed by. -/
structure IssueRequest where
  authorizationId : StableIdentifier
  bundleHash : String
  approvalId : StableIdentifier
  approvalHash : Digest
  budget : ModelExecutionBudget
  lease : ModelExecutionLeaseBinding
  contextPackHash : Digest
  requestHash : Digest
  ttlSeconds : ℚ

/-- The configuration of the service, its digests, the attestation verifier and `uuid5`. -/
structure AuthorityService where
  control : Service
  capabilityHash : ModelExecutionCapability → Digest
  approvalHash : ModelExecutionProviderApproval → Digest
  bindingHash : ModelExecutionProviderBinding → Digest
  issueRequestHash : IssueRequest → Digest
  revocationRequestHash : String → String → Digest
  approvalRequestHash : String → Digest → Digest
  stableIdentifier : String → String → StableIdentifier
  /-- The NFKC-normalized, case-folded text contains a forbidden term. -/
  forbiddenIdentifier : String → Bool
  verifiesCapability : Instant → Attestation → ModelExecutionCapability → Bool
  maxTtlSeconds : ℚ
  providerFailureThreshold : Nat
  providerFailureCooldownSeconds : ℚ
  maxTtl_bounded : 0 < maxTtlSeconds ∧ maxTtlSeconds ≤ 3600
  threshold_bounded : 1 ≤ providerFailureThreshold ∧ providerFailureThreshold ≤ 100
  cooldown_bounded : 1 ≤ providerFailureCooldownSeconds ∧ providerFailureCooldownSeconds ≤ 86400

/-- What one transaction reads from outside: the service's clock at each of its readings,
the clocks of the verifier and of the lease store, and random identifiers. -/
structure AuthorityReadings where
  now : Nat → Instant
  verifierNow : Instant
  leaseNow : Instant
  uuid : Nat → Uuid

/-! Rows -/

/-- A larger integer cannot be bound to a statement. -/
def bindInteger (value : Option Int) : Raises Unit := ensure (∀ n ∈ value, n ≤ sqliteIntegerMax) .overflowError

/-- `_append_ledger_event`. -/
def appendLedgerEvent (t : AuthorityTables) (row : LedgerRow) : Raises AuthorityTables := do
  bindInteger row.attemptNumber
  bindInteger row.reservedInputTokens
  bindInteger row.reservedOutputTokens
  bindInteger row.reservedCostMicrousd
  bindInteger row.actualInputTokens
  bindInteger row.actualCachedInputTokens
  bindInteger row.actualOutputTokens
  bindInteger row.actualCostMicrousd
  ensure (row.eventId ∉ t.ledger.map (·.eventId)) .integrityError
  pure { t with ledger := t.ledger ++ [row] }

/-- `_append_provider_health_event`. -/
def appendProviderHealthEvent (t : AuthorityTables) (row : HealthRow) : Raises AuthorityTables := do
  ensure (∀ failureCode ∈ row.failureCode, failureCode ∈ providerHealthFailureCodes)
    (.modelExecutionAuthorizationError "non-health failure code cannot advance the provider circuit")
  ensure (row.eventId ∉ t.health.map (·.eventId)) .integrityError
  pure { t with health := t.health ++ [row] }

/-- The ledger rows of one authorization, oldest first. -/
def rowsOf (t : AuthorityTables) (authorizationId : String) : List LedgerRow :=
  t.ledger.filter fun row => row.authorizationId = authorizationId

def isRevoked (t : AuthorityTables) (authorizationId : String) : Bool :=
  (rowsOf t authorizationId).any fun row => row.eventType = .revoked

/-- `_record_idempotency`. -/
def recordIdempotency (t : AuthorityTables) (scope key : String) (requestDigest : Digest) (authorizationId : String) :
    Raises AuthorityTables := do
  ensure ((t.authorizationIdempotency (scope, key)).isNone = true) .integrityError
  pure { t with
    authorizationIdempotency := Function.update t.authorizationIdempotency (scope, key) (some (requestDigest, authorizationId)) }

namespace AuthorityService
variable (svc : AuthorityService)

/-- `_stored_authorization`. -/
def storedAuthorization (t : AuthorityTables) (authorizationId : String) : Raises ModelExecutionAuthorization :=
  match t.authorizations authorizationId with
  | none => unauthorized "model execution authorization is unknown"
  | some row => do
    ensure (row.authorizationHash = svc.capabilityHash row.authorization.toModelExecutionCapability)
      (.modelExecutionAuthorizationError "stored model execution authorization hash is corrupt")
    pure row.authorization

/-- `_idempotent_authorization`. -/
def idempotentAuthorization (t : AuthorityTables) (scope key : String) (requestDigest : Digest) :
    Raises (Option ModelExecutionAuthorization) :=
  match t.authorizationIdempotency (scope, key) with
  | none => .ok none
  | some (digest, authorizationId) => do
    ensure (digest = requestDigest)
      (.modelExecutionAuthorizationError "model authorization idempotency key was reused for a different request")
    let authorization ← svc.storedAuthorization t authorizationId
    pure (some authorization)

/-- `_verify_capability`. -/
def verifyCapability (authorization : ModelExecutionAuthorization) (now verifierNow : Instant) : Raises Unit :=
  match authorization.attestation with
  | none => unauthorized "model execution authorization is missing a control-plane attestation"
  | some attestation => do
    ensure (authorization.expiresAt.instant ≤ attestation.expiresAt.instant)
      (.modelExecutionAuthorizationError "model execution attestation expires before its authorization capability")
    ensure (now < authorization.expiresAt.instant)
      (.modelExecutionAuthorizationError "model execution authorization has expired")
    ensure (svc.verifiesCapability verifierNow attestation authorization.toModelExecutionCapability = true)
      (.modelExecutionAuthorizationError "model execution authorization attestation was rejected")

/-- A stale fence is reported as a refusal. -/
def refuseStale (message : String) (x : Raises Unit) : Raises Unit :=
  match x with
  | .error (.staleFence _) => unauthorized message
  | x => x

/-- `_assert_active`. -/
def assertActive (t : AuthorityTables) (leases : LeaseTables) (authorization : ModelExecutionAuthorization)
    (now leaseNow : Instant) : Raises Unit := do
  ensure (now < authorization.expiresAt.instant)
    (.modelExecutionAuthorizationError "model execution authorization has expired")
  ensure (isRevoked t authorization.authorizationId.value = false)
    (.modelExecutionAuthorizationError "model execution authorization has been revoked")
  let lease ← Lease.make authorization.lease.bundleId.value authorization.lease.workerId.value
    authorization.lease.fencingToken authorization.lease.expiresAt
  refuseStale "model execution worker lease is stale or expired" (leases.assertCurrent lease leaseNow)

/-- `_validate_request_limits`. -/
def validateRequestLimits (authorization : ModelExecutionAuthorization) (provider : ModelExecutionProviderBinding)
    (requestedInputTokens requestedOutputTokens : Int) (contextPackHash : Option Digest) (outboundRequestHash : Digest) :
    Raises Unit := do
  ensure (authorization.provider = provider) (.modelExecutionAuthorizationError
    "model execution authorization does not permit the selected provider binding")
  ensure (contextPackHash.isSome = true)
    (.modelExecutionAuthorizationError "model execution context_pack_hash must be a prompt digest")
  ensure (contextPackHash = some authorization.contextPackHash)
    (.modelExecutionAuthorizationError "model execution authorization does not bind this ContextPack")
  ensure (outboundRequestHash = authorization.requestHash)
    (.modelExecutionAuthorizationError "model execution authorization does not bind this outbound request")
  ensure (0 < requestedInputTokens ∧ 0 < requestedOutputTokens)
    (.modelExecutionAuthorizationError "requested token limits must be positive integers")
  ensure (requestedInputTokens ≤ authorization.budget.maxInputTokens)
    (.modelExecutionAuthorizationError "requested input tokens exceed authorization budget")
  ensure (requestedOutputTokens ≤ authorization.budget.maxOutputTokens)
    (.modelExecutionAuthorizationError "requested output tokens exceed authorization budget")
  ensure (requestedInputTokens + requestedOutputTokens ≤ authorization.budget.maxTotalTokens)
    (.modelExecutionAuthorizationError "requested total tokens exceed authorization budget")

/-- The times of the failures since the last success, latest first. -/
def consecutiveFailures (provider : ModelExecutionProviderBinding) : List HealthRow → Raises (List Instant)
  | [] => .ok []
  | row :: rows => do
    ensure (row.binding = provider)
      (.modelExecutionAuthorizationError "provider health ledger binding hash collision or corruption")
    match row.failureCode with
    | none => pure []
    | some failureCode => do
      validateProviderFailureCode failureCode
      ensure (failureCode ∈ providerHealthFailureCodes)
        (.modelExecutionAuthorizationError "provider health ledger contains a non-health failure code")
      let failures ← consecutiveFailures provider rows
      pure (row.recordedAt :: failures)

/-- `_assert_provider_circuit_closed`. -/
def assertProviderCircuitClosed (t : AuthorityTables) (provider : ModelExecutionProviderBinding) (now : Instant) :
    Raises Unit := do
  let rows := (t.health.filter fun row => row.bindingHash = svc.bindingHash provider).reverse
  let failures ← consecutiveFailures provider (rows.take svc.providerFailureThreshold)
  match failures with
  | [] => pure ()
  | latest :: _ =>
    if svc.providerFailureThreshold ≤ failures.length then do
      let reopensAt ← addSeconds latest svc.providerFailureCooldownSeconds
      ensure (reopensAt ≤ now)
        (.modelExecutionAuthorizationError "provider circuit is open for the authorized provider binding")
    else pure ()

/-! `reserve` -/

def exhausted (resource : String) : ControlPlaneError :=
  .modelExecutionAuthorizationError ("model execution authorization " ++ resource ++ " budget exhausted")

def overBudget (resource : String) : ControlPlaneError :=
  .modelExecutionAuthorizationError ("model execution " ++ resource ++ " budget exhausted")

/-- The validators of `ModelExecutionReservationV1`. -/
def makeReservation (reservationId authorizationId : StableIdentifier) (attemptNumber input output cost : Int)
    (reservedAt : Datetime) : Raises ModelExecutionReservation :=
  if h : 1 ≤ attemptNumber ∧ (1 ≤ input ∧ 1 ≤ output) ∧ 0 ≤ cost then
    .ok ⟨reservationId, authorizationId, attemptNumber, input, output, cost, reservedAt, h.1, h.2.1, h.2.2⟩
  else .error (.valueError "reservation fields are out of range")

def reservedRow (reservation : ModelExecutionReservation) (eventId : String) (recordedAt : Instant) : LedgerRow where
  eventId := eventId
  authorizationId := reservation.authorizationId.value
  reservationId := some reservation.reservationId.value
  attemptNumber := some reservation.attemptNumber
  eventType := .reserved
  reservedInputTokens := some reservation.reservedInputTokens
  reservedOutputTokens := some reservation.reservedOutputTokens
  reservedCostMicrousd := some reservation.reservedCostMicrousd
  actualInputTokens := none
  actualCachedInputTokens := none
  actualOutputTokens := none
  actualCostMicrousd := none
  reason := none
  recordedAt := recordedAt

/-- The budget checks of a request on top of the totals. -/
def checkBudget (budget : ModelExecutionBudget) (totals : UsageTotals) (input output cost : Int) : Raises Unit := do
  ensure (totals.inputTokens + input ≤ budget.maxInputTokens) (overBudget "input-token")
  ensure (totals.outputTokens + output ≤ budget.maxOutputTokens) (overBudget "output-token")
  ensure (totals.totalTokens + input + output ≤ budget.maxTotalTokens) (overBudget "total-token")
  ensure (totals.costMicrousd + cost ≤ budget.maxCostMicrousd) (overBudget "cost")

/-- Reserve one attempt's worst-case token and cost budget. -/
def reserve (authorization : ModelExecutionAuthorization) (provider : ModelExecutionProviderBinding)
    (requestedInputTokens requestedOutputTokens : Int) (contextPackHash : Option Digest) (outboundRequestHash : Digest)
    (r : AuthorityReadings) (leases : LeaseTables) (t : AuthorityTables) :
    Raises (ModelExecutionReservation × AuthorityTables) := do
  svc.verifyCapability authorization (r.now 0) r.verifierNow
  validateRequestLimits authorization provider requestedInputTokens requestedOutputTokens contextPackHash
    outboundRequestHash
  let stored ← svc.storedAuthorization t authorization.authorizationId.value
  ensure (stored = authorization) (.modelExecutionAuthorizationError
    "supplied model execution authorization differs from the control-plane record")
  assertActive t leases authorization (r.now 1) r.leaseNow
  svc.assertProviderCircuitClosed t provider (r.now 2)
  let states ← reservationStates (rowsOf t authorization.authorizationId.value)
  let totals ← usageTotals states
  ensure (totals.attempts < authorization.budget.maxAttempts) (exhausted "attempt")
  let cost := authorization.pricing.reservedCost requestedInputTokens requestedOutputTokens
  checkBudget authorization.budget totals requestedInputTokens requestedOutputTokens cost
  let attemptNumber : Int := totals.attempts + 1
  let reservation ← makeReservation
    (svc.stableIdentifier "model-execution-reservation"
      (authorization.authorizationId.value ++ ":" ++ toString attemptNumber ++ ":" ++ (r.uuid 0).text))
    authorization.authorizationId attemptNumber requestedInputTokens requestedOutputTokens cost ⟨r.now 3, 0⟩
  let t ← appendLedgerEvent t (reservedRow reservation (r.uuid 1).text (r.now 4))
  pure (reservation, t)

/-! `settle` and `abandon` -/

/-- `_assert_reservation_matches`. -/
def matchingState (reservation : ModelExecutionReservation) : Option ReservationState → Raises ReservationState
  | none => unauthorized "model execution reservation is unknown"
  | some state => do
    ensure (reservation.attemptNumber = state.attemptNumber ∧ reservation.reservedInputTokens = state.reservedInputTokens ∧
      reservation.reservedOutputTokens = state.reservedOutputTokens ∧
      reservation.reservedCostMicrousd = state.reservedCostMicrousd)
      (.modelExecutionAuthorizationError "model execution reservation differs from the control-plane ledger")
    pure state

def settledRow (reservation : ModelExecutionReservation) (authorizationId : String) (input cached output cost : Int)
    (eventId : String) (recordedAt : Instant) : LedgerRow where
  eventId := eventId
  authorizationId := authorizationId
  reservationId := some reservation.reservationId.value
  attemptNumber := some reservation.attemptNumber
  eventType := .settled
  reservedInputTokens := none
  reservedOutputTokens := none
  reservedCostMicrousd := none
  actualInputTokens := some input
  actualCachedInputTokens := some cached
  actualOutputTokens := some output
  actualCostMicrousd := some cost
  reason := none
  recordedAt := recordedAt

def abandonedRow (reservation : ModelExecutionReservation) (authorizationId failureCode eventId : String)
    (recordedAt : Instant) : LedgerRow where
  eventId := eventId
  authorizationId := authorizationId
  reservationId := some reservation.reservationId.value
  attemptNumber := some reservation.attemptNumber
  eventType := .abandoned
  reservedInputTokens := none
  reservedOutputTokens := none
  reservedCostMicrousd := none
  actualInputTokens := none
  actualCachedInputTokens := none
  actualOutputTokens := none
  actualCostMicrousd := none
  reason := some failureCode
  recordedAt := recordedAt

def healthRow (authorization : ModelExecutionAuthorization) (reservation : ModelExecutionReservation)
    (failureCode : Option String) (eventId : String) (recordedAt : Instant) : HealthRow where
  eventId := eventId
  bindingHash := svc.bindingHash authorization.provider
  binding := authorization.provider
  authorizationId := authorization.authorizationId.value
  reservationId := reservation.reservationId.value
  failureCode := failureCode
  recordedAt := recordedAt

/-- Settle a reservation with observed usage. A replay of the same usage changes nothing. -/
def settle (reservation : ModelExecutionReservation) (inputTokens cachedInputTokens outputTokens : Int)
    (r : AuthorityReadings) (leases : LeaseTables) (t : AuthorityTables) : Raises AuthorityTables := do
  ensure (0 ≤ min inputTokens (min cachedInputTokens outputTokens))
    (.modelExecutionAuthorizationError "model execution usage must be non-negative")
  ensure (cachedInputTokens ≤ inputTokens)
    (.modelExecutionAuthorizationError "cached input tokens cannot exceed input tokens")
  let authorization ← svc.storedAuthorization t reservation.authorizationId.value
  svc.verifyCapability authorization (r.now 0) r.verifierNow
  assertActive t leases authorization (r.now 1) r.leaseNow
  let states ← reservationStates (rowsOf t authorization.authorizationId.value)
  let state ← matchingState reservation (stateOf states reservation.reservationId.value)
  match state.state with
  | .settled => do
    ensure (state.actualInputTokens = some inputTokens ∧ state.actualCachedInputTokens = some cachedInputTokens ∧
      state.actualOutputTokens = some outputTokens)
      (.modelExecutionAuthorizationError "model execution settlement replay has different usage")
    pure t
  | .abandoned => unauthorized "model execution reservation is not active"
  | .reserved => do
    let actualCost := authorization.pricing.usageCost inputTokens cachedInputTokens outputTokens
    ensure (inputTokens ≤ state.reservedInputTokens ∧ outputTokens ≤ state.reservedOutputTokens ∧
      actualCost ≤ state.reservedCostMicrousd) (.modelExecutionAuthorizationError
        "provider usage exceeded the pre-authorized model execution reservation")
    let t ← appendLedgerEvent t (settledRow reservation authorization.authorizationId.value inputTokens cachedInputTokens
      outputTokens actualCost (r.uuid 0).text (r.now 2))
    appendProviderHealthEvent t (svc.healthRow authorization reservation none (r.uuid 1).text (r.now 3))

/-- Release a failed attempt. A settled reservation stays settled. -/
def abandon (reservation : ModelExecutionReservation) (failureCode : String) (r : AuthorityReadings)
    (t : AuthorityTables) : Raises AuthorityTables := do
  validateProviderFailureCode failureCode
  let authorization ← svc.storedAuthorization t reservation.authorizationId.value
  let states ← reservationStates (rowsOf t authorization.authorizationId.value)
  let state ← matchingState reservation (stateOf states reservation.reservationId.value)
  match state.state with
  | .settled => pure t
  | .abandoned => do
    ensure (∀ code ∈ state.failureCode, code = failureCode)
      (.modelExecutionAuthorizationError "model execution abandonment replay has a different failure code")
    pure t
  | .reserved => do
    let t ← appendLedgerEvent t
      (abandonedRow reservation authorization.authorizationId.value failureCode (r.uuid 0).text (r.now 0))
    if failureCode ∈ providerHealthFailureCodes then
      appendProviderHealthEvent t (svc.healthRow authorization reservation (some failureCode) (r.uuid 1).text (r.now 1))
    else pure t

/-! `revoke` -/

/-- `^[a-z][a-z0-9_-]{0,63}$`. -/
def IsRevocationCode (s : String) : Prop :=
  s.toList.length ≤ 64 ∧ s.toList.head?.any (fun c => 'a' ≤ c && c ≤ 'z') = true ∧
    s.toList.all (fun c => ('a' ≤ c && c ≤ 'z') || c.isDigit || c = '_' || c = '-') = true

instance (s : String) : Decidable (IsRevocationCode s) := inferInstanceAs (Decidable (_ ∧ _ ∧ _))

def revokedRow (authorizationId reason eventId : String) (recordedAt : Instant) : LedgerRow where
  eventId := eventId
  authorizationId := authorizationId
  reservationId := none
  attemptNumber := none
  eventType := .revoked
  reservedInputTokens := none
  reservedOutputTokens := none
  reservedCostMicrousd := none
  actualInputTokens := none
  actualCachedInputTokens := none
  actualOutputTokens := none
  actualCostMicrousd := none
  reason := some reason
  recordedAt := recordedAt

def revokeScope : String := "revoke_model_execution_authorization"

/-- The first revocation is recorded; a later one adds nothing. -/
def revokeOnce (t : AuthorityTables) (authorizationId : String) (row : LedgerRow) : Raises AuthorityTables :=
  if isRevoked t authorizationId then .ok t else appendLedgerEvent t row

/-- Append a durable revocation. -/
def revoke (authorizationId : StableIdentifier) (reason idempotencyKey : String) (r : AuthorityReadings)
    (t : AuthorityTables) : Raises AuthorityTables := do
  ensure (IsRevocationCode reason) (.modelExecutionAuthorizationError "revocation reason must be a safe V1 code")
  ensure (¬ Blank idempotencyKey) (.modelExecutionAuthorizationError "revocation idempotency key must not be empty")
  let requestDigest := svc.revocationRequestHash authorizationId.value reason
  let replay ← svc.idempotentAuthorization t revokeScope idempotencyKey requestDigest
  if replay.isSome then pure t
  else do
    let _ ← svc.storedAuthorization t authorizationId.value
    let t ← revokeOnce t authorizationId.value (revokedRow authorizationId.value reason (r.uuid 0).text (r.now 0))
    recordIdempotency t revokeScope idempotencyKey requestDigest authorizationId.value

end AuthorityService
end Autolean.ControlPlane
