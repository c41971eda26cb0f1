import Autolean.Contracts.Values
import Autolean.Machine.Raising

/-! Errors and clock readings shared by the control plane's stores. -/
namespace Autolean.ControlPlane
open Contracts Machine Raising

/-- What a control-plane call can raise, with the text or the fields it carries. -/
inductive ControlPlaneError where
  | valueError (message : String)
  | typeError (message : String)
  | overflowError
  | runtimeError (message : String)
  | integrityError
  | concurrencyError (entityType entityId : String) (expected actual : Int)
  | idempotencyConflict (message : String)
  | attestationReplay (message : String)
  | contractRevisionConflict (message : String)
  | taskNotFound (message : String)
  | invalidTransition (message : String)
  | leaseUnavailable (message : String)
  | staleFence (message : String)
  | projectionError (message : String)
  | artifactNotFound (message : String)
  | artifactCorruption (message : String)
  | attestationError (message : String)
  | modelExecutionAuthorizationError (message : String)
  deriving DecidableEq

abbrev Raises := Except ControlPlaneError

/-- `datetime.max` in UTC. -/
def datetimeMax : Instant := 253402300799999999

/-- `round` of a rational to the nearest integer, ties to even. -/
def roundHalfEven (q : ℚ) : Int :=
  if q - ⌊q⌋ < 1 / 2 then ⌊q⌋
  else if 1 / 2 < q - ⌊q⌋ then ⌊q⌋ + 1
  else if ⌊q⌋ % 2 = 0 then ⌊q⌋ else ⌊q⌋ + 1

/-- `now + timedelta(seconds=...)`. -/
def addSeconds (now : Instant) (seconds : ℚ) : Raises Instant :=
  if datetimeMax < now + roundHalfEven (seconds * 1000000) then .error .overflowError
  else .ok (now + roundHalfEven (seconds * 1000000))

end Autolean.ControlPlane
