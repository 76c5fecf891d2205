import FileBroker.Broker.Config
import FileBroker.Broker.Counters
import FileBroker.Queue.Reply
import FileBroker.Wire.Batch

/-!
The broker between callers and workers. Callers post requests; workers fetch them in batches and
bring back responses, which are checked and then applied by a completion routine.
-/
namespace FileBroker

/-- What applying a response to its request comes to. -/
inductive Verdict where
  | done (outcome : Outcome)
  /-- Something local is busy; the same response is to be applied again later. -/
  | retry
  deriving DecidableEq

/-- One application of a response. -/
structure Attempt where
  request : Request
  response : Response
  deriving DecidableEq, Repr

/-- Decides on a response; the decision may depend on every earlier attempt, newest first. -/
abbrev Routine := List Attempt → Request → Response → Verdict

/-- Successes end with their response, failures with the status they report. -/
def Routine.standard : Routine := fun _ _ response =>
  if response.status.isSuccess then .done (.ok response)
  else .done (.error (.refused response.status response.io.information))

structure Broker where
  config : Broker.Config
  queue : Queue
  /-- The hint that the next posted operation gets. -/
  nextHint : Nat
  /-- Every attempt so far, newest first. -/
  attempts : List Attempt
  counters : Broker.Counters
  deriving DecidableEq

namespace Broker

def new (config : Config) : Broker where
  config
  queue := .new config.capacity config.retryDelay config.expiresInFlight
  nextHint := 1
  attempts := []
  counters := .zero

/-! ### Posting -/

/-- Admits a request under a fresh hint. Best-effort operations never expire. -/
def post (broker : Broker) (now : Instant) (request : Request) : Except Failure Reply × Broker :=
  let spoken := broker.config.revision
  if request.revision ≠ spoken then
    (.error (.protocolViolation
      s!"request encoded for {request.revision.label}, session speaks {spoken.label}"), broker)
  else
    let ticket := broker.nextHint
    let hint : Hint := ⟨UInt64.ofNat ticket⟩
    let admission := request.kind.admission
    let timeout := if admission = .bestEffort then none else some broker.config.operationTimeout
    let op := Operation.new ticket (request.withHint hint) timeout now
    let (admitted, queue) := broker.queue.enqueue op admission
    let counters := broker.counters
    match admitted with
    | .ok () =>
      (.ok (.new ticket hint),
        { broker with
          queue, nextHint := ticket + 1
          counters := { counters with posted := counters.posted + 1 } })
    | .error error =>
      (.error (match error with | .full => .queueFull | .stopped => .cancelled),
        { broker with
          queue, nextHint := ticket + 1
          counters := { counters with rejected := counters.rejected + 1 } })

/-- Cancels an operation that no worker has fetched yet. -/
def cancel (broker : Broker) (hint : Hint) : Bool × Broker :=
  let (found, queue) := broker.queue.cancel hint
  let counters := broker.counters
  (found,
    { broker with
      queue
      counters := { counters with cancelled := counters.cancelled + if found then 1 else 0 } })

/-! ### Responses -/

/-- Ends an operation and counts how. -/
def settle (broker : Broker) (op : Operation) (outcome : Outcome) : Broker :=
  { broker with
    queue := broker.queue.deliver op outcome
    counters := broker.counters.addOutcome outcome }

/-- Lets the routine decide. An operation whose attempts are used up expires; otherwise a retry
parks it. -/
def apply (routine : Routine) (broker : Broker) (clock : Instant) (op : Operation)
    (response : Response) : Broker :=
  let verdict := routine broker.attempts op.request response
  let broker := { broker with attempts := ⟨op.request, response⟩ :: broker.attempts }
  match verdict with
  | .done outcome => broker.settle op outcome
  | .retry =>
    if broker.config.maxRetries ≤ op.retries then broker.settle op (.error .expired)
    else
      { broker with
        queue := broker.queue.park clock op response
        counters := { broker.counters with retried := broker.counters.retried + 1 } }

/-- Reads a response and checks that it may answer `request`. -/
def readAnswer (revision : Revision) (request : Request) (frame : Frame) :
    Except FormatError Response := do
  let response ← Response.decode frame revision
  response.validate request
  return response

/-- Takes in one response, and tells whether its operation was in flight. -/
def receive (routine : Routine) (broker : Broker) (clock : Instant) (frame : Frame) :
    Bool × Broker :=
  match broker.queue.land frame.hint with
  | (none, queue) =>
    let counters := broker.counters
    (false,
      { broker with
        queue
        counters := { counters with staleResponses := counters.staleResponses + 1 } })
  | (some op, queue) =>
    let broker := { broker with queue }
    (true,
      match readAnswer broker.config.revision op.request frame with
      | .error error => broker.settle op (.error (.protocolViolation error.message))
      | .ok response =>
        if response.status.isPending then
          broker.settle op (.error (.protocolViolation "pending status in response"))
        else broker.apply routine clock op response)

def receiveAll (routine : Routine) (broker : Broker) (clock : Instant) :
    List Frame → Nat × Broker
  | [] => (0, broker)
  | frame :: rest =>
    let (matched, broker) := broker.receive routine clock frame
    let (count, broker) := broker.receiveAll routine clock rest
    (count + matched.toNat, broker)

/-- Takes in a batch of responses, and counts those whose operation was in flight. -/
def ingest (routine : Routine) (broker : Broker) (clock : Instant) (responses : Bytes) :
    Nat × Broker :=
  broker.receiveAll routine clock (Batch.frames .response responses)

/-! ### Retries -/

/-- Attempts a parked completion again. -/
def resume (routine : Routine) (broker : Broker) (clock : Instant) (op : Operation) : Broker :=
  match op.takeResponse with
  | (some response, op) => broker.apply routine clock op response
  | (none, op) =>
    broker.settle op (.error (.protocolViolation "retried operation has no response"))

/-- How many attempts the parked operations can take at most. -/
def attemptsLeft (broker : Broker) : Nat :=
  total (broker.queue.parked.map fun op => broker.config.maxRetries - op.retries + 1)

theorem parked_takeDue {queue after : Queue} {now : Instant} {op : Operation}
    (h : queue.takeDue now = (some op, after)) :
    ∃ before rest, queue.parked = before ++ op :: rest ∧ after.parked = before ++ rest := by
  unfold Queue.takeDue at h
  split at h
  · cases h
  · rename_i found first
    cases h
    obtain ⟨due, before, rest, whole, early⟩ := List.find?_eq_some_iff_append.1 first
    refine ⟨before, rest, whole, ?_⟩
    have none_before : ∀ other ∈ before, ¬ other.isDue now = true := by simpa using early
    simp [whole, List.eraseP_append_right _ none_before, due]

theorem attemptsLeft_resume_lt {routine : Routine} {broker : Broker} {after : Queue}
    {clock now : Instant} {op : Operation} (h : broker.queue.takeDue now = (some op, after)) :
    (({ broker with queue := after } : Broker).resume routine clock op).attemptsLeft
      < broker.attemptsLeft := by
  obtain ⟨before, rest, whole, remaining⟩ := parked_takeDue h
  unfold resume Operation.takeResponse
  split <;> rename_i taken <;> rw [Prod.mk.injEq] at taken <;> rw [← taken.2]
  · unfold apply
    dsimp only
    split
    · simp [attemptsLeft, settle, Queue.deliver, whole, remaining]
    · split
      · simp [attemptsLeft, settle, Queue.deliver, whole, remaining]
      · unfold Queue.park
        dsimp only
        split
        · simp [attemptsLeft, Queue.deliver, whole, remaining]
        · simp [attemptsLeft, Operation.park, whole, remaining]
          omega
  · simp [attemptsLeft, settle, Queue.deliver, whole, remaining]

/-- Attempts every parked completion that is due at `now`, earliest first, and counts the attempts.
An operation that is parked again takes its delay from the clock. -/
def processRetries (routine : Routine) (broker : Broker) (clock now : Instant) : Nat × Broker :=
  match _h : broker.queue.takeDue now with
  | (none, queue) => (0, { broker with queue })
  | (some op, queue) =>
    let (count, broker) :=
      processRetries routine (({ broker with queue } : Broker).resume routine clock op) clock now
    (count + 1, broker)
termination_by broker.attemptsLeft
decreasing_by exact attemptsLeft_resume_lt ‹_›

/-- Attempts what is due at `now`, on a clock that shows `tick` more whenever it is read again. As
long as the clock ticks, what is parked again on the way is parked later than `now`, so that every
operation is attempted at most once. -/
def resumeDue (routine : Routine) (broker : Broker) (now : Instant) (tick : Span := 1) :
    Nat × Broker :=
  broker.processRetries routine (now + tick) now

/-! ### Stopping and expiring -/

def removeExpired (broker : Broker) (now : Instant) : Nat × Broker :=
  let (count, queue) := broker.queue.removeExpired now
  let counters := broker.counters
  (count,
    { broker with queue, counters := { counters with expired := counters.expired + count } })

/-- Refuses further posts and exchanges and, with `cancelAll`, gives up every operation. -/
def stop (broker : Broker) (cancelAll : Bool) : Nat × Broker :=
  let (count, queue) := broker.queue.stop cancelAll
  let counters := broker.counters
  (count,
    { broker with queue, counters := { counters with cancelled := counters.cancelled + count } })

end Broker
end FileBroker
