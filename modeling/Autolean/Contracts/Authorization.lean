import Autolean.Contracts.Models

/-! Model-execution authority: source rights, approved providers, and the capability that
binds a provider, a budget and a worker lease to one frozen bundle. -/
namespace Autolean.Contracts

inductive PermissionDecision where
  | allow
  | restricted
  | unknown
  | deny
  deriving DecidableEq

inductive EndpointClass where
  | none
  | localEndpoint
  | approvedExternal
  | external
  deriving DecidableEq

/-- The rights facts of a contract that decide about model egress. -/
structure RightsRecord where
  rightsId : StableIdentifier
  sourceId : StableIdentifier
  sourceLicense : Option String
  overallDecision : PermissionDecision
  modelEgress : PermissionDecision
  allowedEndpointClasses : List EndpointClass
  reviewedBy : Option String
  reviewedAt : Option Datetime
  licensed : overallDecision = .allow → sourceLicense.any (· ≠ "") = true
  reviewed : overallDecision = .allow → reviewedBy.any (· ≠ "") = true ∧ reviewedAt.isSome = true
  egress_explicit : modelEgress = .allow → allowedEndpointClasses ≠ []

/-- The frozen source-rights facts relevant to a selected model endpoint. -/
@[ext]
structure ModelEgressPolicy where
  rightsId : StableIdentifier
  overallDecision : PermissionDecision
  modelEgress : PermissionDecision
  allowedEndpointClasses : List EndpointClass
  classes_distinct : allowedEndpointClasses.Nodup

instance : DecidableEq ModelEgressPolicy := fun _ _ => decidable_of_iff _ ModelEgressPolicy.ext_iff.symm

def ModelEgressPolicy.permits (policy : ModelEgressPolicy) (endpointClass : EndpointClass) : Bool :=
  if policy.overallDecision = .unknown ∨ policy.overallDecision = .deny then false
  else if endpointClass = .localEndpoint then true
  else decide (endpointClass = .approvedExternal ∧ policy.modelEgress = .allow ∧
    endpointClass ∈ policy.allowedEndpointClasses)

/-- The registry, provider, model and endpoint an authorization permits. -/
@[ext]
structure ModelExecutionProviderBinding where
  registryName : Text
  providerId : Text
  modelId : Text
  modelRevision : Text
  endpointClass : EndpointClass
  configurationHash : Digest
  endpoint_selected : endpointClass ≠ .none ∧ endpointClass ≠ .external

instance : DecidableEq ModelExecutionProviderBinding := fun _ _ => decidable_of_iff _ ModelExecutionProviderBinding.ext_iff.symm

/-! Pricing -/

/-- Upper-bound accounting schedule in integer micro-USD. -/
structure ModelExecutionPricing where
  inputMicrousdPerToken : Nat
  cachedInputMicrousdPerToken : Nat
  outputMicrousdPerToken : Nat
  deriving DecidableEq

namespace ModelExecutionPricing
variable (p : ModelExecutionPricing)

/-- The cost of usage whose sign checks have passed. -/
def usageCost (inputTokens cachedInputTokens outputTokens : Int) : Int :=
  (inputTokens - cachedInputTokens) * p.inputMicrousdPerToken + cachedInputTokens * p.cachedInputMicrousdPerToken +
    outputTokens * p.outputMicrousdPerToken

/-- The cost reserved when the share of cached tokens is still unknown. -/
def reservedCost (maxInputTokens maxOutputTokens : Int) : Int :=
  max (p.inputMicrousdPerToken : Int) p.cachedInputMicrousdPerToken * maxInputTokens +
    p.outputMicrousdPerToken * maxOutputTokens

/-- Usage within a reservation costs no more than the reservation. -/
theorem usageCost_le_reservedCost {input cached output maxInput maxOutput : Int} (hc : 0 ≤ cached) (hci : cached ≤ input)
    (hi : input ≤ maxInput) (ho : output ≤ maxOutput) :
    p.usageCost input cached output ≤ p.reservedCost maxInput maxOutput := by
  set rate := max (p.inputMicrousdPerToken : Int) p.cachedInputMicrousdPerToken with hrate
  have hr : (0 : Int) ≤ rate := le_max_of_le_left (Int.natCast_nonneg _)
  have hu : (input - cached) * (p.inputMicrousdPerToken : Int) ≤ (input - cached) * rate :=
    mul_le_mul_of_nonneg_left (le_max_left _ _) (by omega)
  have hk : cached * (p.cachedInputMicrousdPerToken : Int) ≤ cached * rate :=
    mul_le_mul_of_nonneg_left (le_max_right _ _) hc
  have hin : input * rate ≤ maxInput * rate := mul_le_mul_of_nonneg_right hi hr
  have hout : output * (p.outputMicrousdPerToken : Int) ≤ maxOutput * p.outputMicrousdPerToken :=
    mul_le_mul_of_nonneg_right ho (Int.natCast_nonneg _)
  calc p.usageCost input cached output
      ≤ (input - cached) * rate + cached * rate + output * p.outputMicrousdPerToken := by
        unfold usageCost
        omega
    _ = input * rate + output * p.outputMicrousdPerToken := by ring
    _ ≤ maxInput * rate + maxOutput * p.outputMicrousdPerToken := add_le_add hin hout
    _ = p.reservedCost maxInput maxOutput := by
        unfold reservedCost
        rw [← hrate]
        ring

end ModelExecutionPricing

/-- A whole-capability budget. -/
@[ext]
structure ModelExecutionBudget where
  maxAttempts : Nat
  maxInputTokens : Nat
  maxOutputTokens : Nat
  maxTotalTokens : Nat
  maxCostMicrousd : Nat
  attempts_pos : 1 ≤ maxAttempts
  tokens_pos : 1 ≤ maxInputTokens ∧ 1 ≤ maxOutputTokens
  covers_request : maxInputTokens + maxOutputTokens ≤ maxTotalTokens

instance : DecidableEq ModelExecutionBudget := fun _ _ => decidable_of_iff _ ModelExecutionBudget.ext_iff.symm

/-- Operator-owned approval input used when minting a capability. -/
structure ModelExecutionProviderApproval where
  approvalId : StableIdentifier
  binding : ModelExecutionProviderBinding
  pricing : ModelExecutionPricing
  approvedBy : Text
  approvedAt : Datetime
  enabled : Bool
  deriving DecidableEq

/-- The one fenced worker lease that may use a capability. -/
@[ext]
structure ModelExecutionLeaseBinding where
  bundleId : StableIdentifier
  workerId : Text
  fencingToken : Nat
  expiresAt : Datetime
  token_pos : 1 ≤ fencingToken

instance : DecidableEq ModelExecutionLeaseBinding := fun _ _ => decidable_of_iff _ ModelExecutionLeaseBinding.ext_iff.symm

/-- A short-lived capability for one frozen bundle and model selection: what is hashed and
signed of an authorization. -/
@[ext]
structure ModelExecutionCapability where
  authorizationId : StableIdentifier
  bundleId : StableIdentifier
  bundleHash : Digest
  contractId : StableIdentifier
  revision : Int
  contractHash : Digest
  environmentHash : Digest
  lease : ModelExecutionLeaseBinding
  contextPackHash : Digest
  requestHash : Digest
  egressPolicy : ModelEgressPolicy
  approvalSnapshot : ModelExecutionProviderApproval
  budget : ModelExecutionBudget
  issuedAt : Datetime
  expiresAt : Datetime
  revision_pos : 1 ≤ revision
  expires_after_issue : issuedAt.instant < expiresAt.instant
  lease_bundle : lease.bundleId = bundleId
  within_lease : expiresAt.instant ≤ lease.expiresAt.instant
  approval_enabled : approvalSnapshot.enabled = true
  egress_permitted : egressPolicy.permits approvalSnapshot.binding.endpointClass = true

instance : DecidableEq ModelExecutionCapability := fun _ _ => decidable_of_iff _ ModelExecutionCapability.ext_iff.symm

def ModelExecutionCapability.provider (a : ModelExecutionCapability) : ModelExecutionProviderBinding :=
  a.approvalSnapshot.binding

def ModelExecutionCapability.pricing (a : ModelExecutionCapability) : ModelExecutionPricing :=
  a.approvalSnapshot.pricing

attribute [ext] Attestation

instance : DecidableEq Attestation := fun _ _ => decidable_of_iff _ Attestation.ext_iff.symm

@[ext]
structure ModelExecutionAuthorization extends ModelExecutionCapability where
  attestation : Option Attestation
  attestation_purpose : ∀ a, attestation = some a → a.purpose = .modelExecution

instance : DecidableEq ModelExecutionAuthorization := fun _ _ =>
  decidable_of_iff _ ModelExecutionAuthorization.ext_iff.symm

/-- Public reservation receipt. -/
structure ModelExecutionReservation where
  reservationId : StableIdentifier
  authorizationId : StableIdentifier
  attemptNumber : Int
  reservedInputTokens : Int
  reservedOutputTokens : Int
  reservedCostMicrousd : Int
  reservedAt : Datetime
  attempt_pos : 1 ≤ attemptNumber
  tokens_pos : 1 ≤ reservedInputTokens ∧ 1 ≤ reservedOutputTokens
  cost_nonneg : 0 ≤ reservedCostMicrousd
  deriving DecidableEq

end Autolean.Contracts
