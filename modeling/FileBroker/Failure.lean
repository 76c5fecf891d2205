import FileBroker.Status

/-! Why a posted operation ended without a response for its caller. -/
namespace FileBroker

inductive Failure where
  /-- The pending queue was at capacity when the operation was posted. -/
  | queueFull
  | cancelled
  | expired
  /-- The worker's response, or the request itself, broke the protocol. -/
  | protocolViolation (reason : String)
  /-- The worker answered with a failure status. -/
  | refused (status : Status) (information : UInt64)
  deriving DecidableEq, Repr

namespace Failure

def message : Failure → String
  | .queueFull => "insufficient resources: pending queue at capacity"
  | .cancelled => "operation cancelled"
  | .expired => "operation expired"
  | .protocolViolation reason => "protocol error: " ++ reason
  | .refused status _ => "operation failed with status " ++ status.text

/-- The status a caller sees. Expiry is reported like a cancellation. -/
def status : Failure → Status
  | .queueFull => .insufficientResources
  | .cancelled | .expired => .cancelled
  | .protocolViolation _ => .internalError
  | .refused status _ => status

end Failure
end FileBroker
