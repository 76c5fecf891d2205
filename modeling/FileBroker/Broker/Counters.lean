import FileBroker.Queue.Operation

/-! What a broker has counted since it started. -/
namespace FileBroker.Broker

structure Counters where
  /-- Operations admitted. -/
  posted : Nat
  /-- Operations refused: the queue was at capacity or stopped. -/
  rejected : Nat
  /-- Requests handed to a worker. -/
  dispatched : Nat
  completed : Nat
  failed : Nat
  /-- Completions put off for another attempt. -/
  retried : Nat
  expired : Nat
  cancelled : Nat
  /-- Responses that broke the protocol. -/
  protocolErrors : Nat
  /-- Responses whose operation was no longer in flight. -/
  staleResponses : Nat
  deriving DecidableEq, Repr

namespace Counters

def zero : Counters := ⟨0, 0, 0, 0, 0, 0, 0, 0, 0, 0⟩

/-- The counters by name. -/
def toList (counters : Counters) : List (String × Nat) :=
  [("posted", counters.posted), ("rejected", counters.rejected),
   ("dispatched", counters.dispatched), ("completed", counters.completed),
   ("failed", counters.failed), ("retried", counters.retried), ("expired", counters.expired),
   ("cancelled", counters.cancelled), ("protocol_errors", counters.protocolErrors),
   ("stale_responses", counters.staleResponses)]

/-- Counts one outcome that an operation ended with. -/
def addOutcome (counters : Counters) : Outcome → Counters
  | .ok _ => { counters with completed := counters.completed + 1 }
  | .error (.refused _ _) | .error .queueFull => { counters with failed := counters.failed + 1 }
  | .error .expired => { counters with expired := counters.expired + 1 }
  | .error .cancelled => { counters with cancelled := counters.cancelled + 1 }
  | .error (.protocolViolation _) =>
    { counters with protocolErrors := counters.protocolErrors + 1 }

/-- Operations that have ended. -/
def ended (counters : Counters) : Nat :=
  counters.completed + counters.failed + counters.expired + counters.cancelled
    + counters.protocolErrors

end Counters
end FileBroker.Broker
