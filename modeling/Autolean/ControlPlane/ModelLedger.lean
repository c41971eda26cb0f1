import Autolean.ControlPlane.Basic
import Autolean.Contracts.Authorization

/-! The append-only ledger of model-execution reservations and the states the service
recomputes from it before every decision. -/
namespace Autolean.ControlPlane
open Contracts Machine Raising

inductive LedgerEventType where
  | reserved
  | settled
  | abandoned
  | revoked
  deriving DecidableEq

/-- One row of `model_execution_authorization_ledger`. -/
structure LedgerRow where
  eventId : String
  authorizationId : String
  reservationId : Option String
  attemptNumber : Option Int
  eventType : LedgerEventType
  reservedInputTokens : Option Int
  reservedOutputTokens : Option Int
  reservedCostMicrousd : Option Int
  actualInputTokens : Option Int
  actualCachedInputTokens : Option Int
  actualOutputTokens : Option Int
  actualCostMicrousd : Option Int
  reason : Option String
  recordedAt : Instant

inductive ReservationStatus where
  | reserved
  | settled
  | abandoned
  deriving DecidableEq

/-- `_ReservationState`. -/
structure ReservationState where
  reservationId : String
  attemptNumber : Int
  reservedInputTokens : Int
  reservedOutputTokens : Int
  reservedCostMicrousd : Int
  state : ReservationStatus
  actualInputTokens : Option Int
  actualCachedInputTokens : Option Int
  actualOutputTokens : Option Int
  actualCostMicrousd : Option Int
  failureCode : Option String

structure UsageTotals where
  attempts : Nat
  inputTokens : Int
  outputTokens : Int
  totalTokens : Int
  costMicrousd : Int

/-- A refusal of the authorization service. -/
def unauthorized {α : Type} (message : String) : Raises α := .error (.modelExecutionAuthorizationError message)

def providerFailureCodes : List String :=
  ["probe_failed_v1", "probe_invalid_v1", "probe_capability_mismatch_v1", "generation_failed_v1", "response_invalid_v1",
    "settlement_rejected_v1", "local_policy_rejected_v1"]

def providerHealthFailureCodes : List String :=
  ["probe_failed_v1", "probe_invalid_v1", "generation_failed_v1", "response_invalid_v1"]

def validateProviderFailureCode (failureCode : String) : Raises Unit :=
  ensure (failureCode ∈ providerFailureCodes)
    (.modelExecutionAuthorizationError "provider failure code must be a stable V1 code")

def requiredNonnegativeInt (key : String) (minimum : Int) : Option Int → Raises Int
  | some value => do
    ensure (minimum ≤ value) (.modelExecutionAuthorizationError ("authorization ledger has invalid " ++ key))
    pure value
  | none => unauthorized ("authorization ledger has invalid " ++ key)

/-- The state of a reservation. The states are a dictionary keyed by the reservation ID. -/
def stateOf (states : List ReservationState) (reservationId : String) : Option ReservationState :=
  states.find? fun s => s.reservationId = reservationId

/-- `states[reservation_id] = state` for an ID the dictionary holds. -/
def replaceState (states : List ReservationState) (state : ReservationState) : List ReservationState :=
  states.map fun s => if s.reservationId = state.reservationId then state else s

def reservedState (reservationId : String) (row : LedgerRow) : Raises ReservationState := do
  let attemptNumber ← requiredNonnegativeInt "attempt_number" 1 row.attemptNumber
  let reservedInputTokens ← requiredNonnegativeInt "reserved_input_tokens" 1 row.reservedInputTokens
  let reservedOutputTokens ← requiredNonnegativeInt "reserved_output_tokens" 1 row.reservedOutputTokens
  let reservedCostMicrousd ← requiredNonnegativeInt "reserved_cost_microusd" 0 row.reservedCostMicrousd
  pure ⟨reservationId, attemptNumber, reservedInputTokens, reservedOutputTokens, reservedCostMicrousd, .reserved, none, none,
    none, none, none⟩

def validateReason (row : LedgerRow) : Raises Unit :=
  match row.reason with
  | none => .ok ()
  | some failureCode => validateProviderFailureCode failureCode

def abandonedState (state : ReservationState) (row : LedgerRow) : Raises ReservationState := do
  validateReason row
  pure { state with
    state := .abandoned, actualInputTokens := none, actualCachedInputTokens := none, actualOutputTokens := none
    actualCostMicrousd := none, failureCode := row.reason }

def settledState (state : ReservationState) (row : LedgerRow) : Raises ReservationState := do
  let actualInputTokens ← requiredNonnegativeInt "actual_input_tokens" 0 row.actualInputTokens
  let actualCachedInputTokens ← requiredNonnegativeInt "actual_cached_input_tokens" 0 row.actualCachedInputTokens
  let actualOutputTokens ← requiredNonnegativeInt "actual_output_tokens" 0 row.actualOutputTokens
  let actualCostMicrousd ← requiredNonnegativeInt "actual_cost_microusd" 0 row.actualCostMicrousd
  pure { state with
    state := .settled, actualInputTokens := some actualInputTokens
    actualCachedInputTokens := some actualCachedInputTokens, actualOutputTokens := some actualOutputTokens
    actualCostMicrousd := some actualCostMicrousd, failureCode := none }

/-- The reservation a terminal row closes. -/
def openState (states : List ReservationState) (reservationId : String) : Raises ReservationState :=
  match stateOf states reservationId with
  | none => unauthorized "authorization ledger transition is invalid"
  | some state => do
    ensure (state.state = .reserved) (.modelExecutionAuthorizationError "authorization ledger transition is invalid")
    pure state

def rowReservationId (row : LedgerRow) : Raises String :=
  match row.reservationId with
  | none => unauthorized "authorization ledger has an invalid reservation"
  | some reservationId => do
    ensure (reservationId ≠ "") (.modelExecutionAuthorizationError "authorization ledger has an invalid reservation")
    pure reservationId

/-- What one row does to the states of the rows before it. -/
def applyRow (states : List ReservationState) (row : LedgerRow) : Raises (List ReservationState) :=
  match row.eventType with
  | .revoked => .ok states
  | .reserved => do
    let reservationId ← rowReservationId row
    ensure ((stateOf states reservationId).isNone = true)
      (.modelExecutionAuthorizationError "authorization ledger reserved twice")
    let state ← reservedState reservationId row
    pure (states ++ [state])
  | .abandoned => do
    let reservationId ← rowReservationId row
    let state ← openState states reservationId
    let state ← abandonedState state row
    pure (replaceState states state)
  | .settled => do
    let reservationId ← rowReservationId row
    let state ← openState states reservationId
    let state ← settledState state row
    pure (replaceState states state)

/-- `_reservation_states` over the rows of one authorization, oldest first. -/
def reservationStates (rows : List LedgerRow) : Raises (List ReservationState) := rows.foldlM applyRow []

/-- What one reservation counts against the budget. -/
def stateUsage (state : ReservationState) : Raises (Int × Int × Int) :=
  match state.state with
  | .abandoned => .ok (0, 0, 0)
  | .reserved => .ok (state.reservedInputTokens, state.reservedOutputTokens, state.reservedCostMicrousd)
  | .settled =>
    match state.actualInputTokens, state.actualOutputTokens, state.actualCostMicrousd with
    | some input, some output, some cost => .ok (input, output, cost)
    | _, _, _ => unauthorized "settled authorization ledger row is corrupt"

def addUsage (totals : Int × Int × Int) (state : ReservationState) : Raises (Int × Int × Int) := do
  let usage ← stateUsage state
  pure (totals.1 + usage.1, totals.2.1 + usage.2.1, totals.2.2 + usage.2.2)

/-- `_usage_totals`. -/
def usageTotals (states : List ReservationState) : Raises UsageTotals := do
  let totals ← states.foldlM addUsage (0, 0, 0)
  pure ⟨states.length, totals.1, totals.2.1, totals.1 + totals.2.1, totals.2.2⟩

end Autolean.ControlPlane
