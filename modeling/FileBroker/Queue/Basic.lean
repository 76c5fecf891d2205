import FileBroker.Queue.Operation

/-!
The queue of operations: pending until a worker fetches them, in flight until it answers, and
parked while a completion is put off. Whoever takes an operation out owns it; every operation that
is given up without an outcome is delivered as cancelled.
-/
namespace FileBroker

inductive QueueError where
  | full
  | stopped
  deriving DecidableEq, Repr

def QueueError.message : QueueError → String
  | .full => "pending queue at capacity"
  | .stopped => "queue stopped"

structure Queue where
  /-- How many operations may be pending before capacity-limited ones are refused. -/
  capacity : Nat
  retryDelay : Span
  /-- Whether operations in flight can expire. -/
  expiresInFlight : Bool
  pending : List Operation
  inFlight : List Operation
  parked : List Operation
  lastSeq : Nat
  stopped : Bool
  /-- Every outcome handed out so far, newest first. -/
  delivered : List Delivery
  deriving DecidableEq

namespace Queue

def longestRetryDelay : Span := Span.seconds 60

def new (capacity : Nat) (retryDelay : Span) (expiresInFlight : Bool) : Queue where
  capacity
  retryDelay := min retryDelay longestRetryDelay
  expiresInFlight
  pending := []
  inFlight := []
  parked := []
  lastSeq := 0
  stopped := false
  delivered := []

structure Counts where
  pending : Nat
  inFlight : Nat
  parked : Nat
  deriving DecidableEq, Repr

def counts (queue : Queue) : Counts :=
  ⟨queue.pending.length, queue.inFlight.length, queue.parked.length⟩

def deliver (queue : Queue) (op : Operation) (outcome : Outcome) : Queue :=
  { queue with delivered := ⟨op.ticket, outcome⟩ :: queue.delivered }

def deliverAll (queue : Queue) (ops : List Operation) (outcome : Outcome) : Queue :=
  ops.foldl (fun queue op => queue.deliver op outcome) queue

/-- Appends to the pending operations. A refused operation is cancelled. -/
def enqueue (queue : Queue) (op : Operation) (admission : Admission) :
    Except QueueError Unit × Queue :=
  if queue.stopped then (.error .stopped, queue.deliver op (.error .cancelled))
  else if admission = .capacityLimited ∧ queue.capacity ≤ queue.pending.length then
    (.error .full, queue.deliver op (.error .cancelled))
  else
    let seq := queue.lastSeq + 1
    (.ok (), { queue with lastSeq := seq, pending := queue.pending ++ [{ op with seq }] })

/-! ### Fetching -/

/-- Splits off the operations that arrived up to the boundary. -/
def splitAfter (boundary : Option Nat) (ops : List Operation) : List Operation × List Operation :=
  match boundary with
  | none => ([], ops)
  | some seq => (ops.takeWhile fun op => op.seq ≤ seq, ops.dropWhile fun op => op.seq ≤ seq)

/-- The longest run from the front whose sizes sum to at most `budget`, and the rest. -/
def takeRun : (budget : Nat) → List Operation → List Operation × List Operation
  | _, [] => ([], [])
  | budget, op :: rest =>
    if op.size ≤ budget then
      let (run, left) := takeRun (budget - op.size) rest
      (op :: run, left)
    else ([], op :: rest)

/-- Puts an operation in flight. One already there under the same hint is given up. -/
def launch (queue : Queue) (op : Operation) : Queue :=
  let (displaced, kept) := queue.inFlight.partition fun other => other.hint == op.hint
  { queue with inFlight := kept ++ [op] }.deliverAll displaced (.error .cancelled)

/-- When the first parked operation falls due. -/
def nextRetry (queue : Queue) : Option Instant :=
  queue.parked.foldl (fun first op => Instant.earlier first op.notBefore) none

/-- Moves pending operations newer than the boundary into flight, in arrival order and as many as
fit the budget. Without such an operation the batch is empty once the deadline has come or a
parked operation is due; until then there is nothing to do but wait. -/
def dequeue (queue : Queue) (now : Instant) (deadline : Option Instant) (budget : Nat)
    (boundary : Option Nat) : Wait (Except QueueError (List Operation)) × Queue :=
  if queue.stopped then (.ready (.error .stopped), queue)
  else
    let (older, eligible) := splitAfter boundary queue.pending
    if eligible.isEmpty then
      let wake := Instant.earlier deadline queue.nextRetry
      match wake with
      | some instant => if instant ≤ now then (.ready (.ok []), queue) else (.asleep wake, queue)
      | none => (.asleep none, queue)
    else
      let (run, left) := takeRun budget eligible
      (.ready (.ok run), run.foldl launch { queue with pending := older ++ left })

theorem takeRun_append (budget : Nat) (ops : List Operation) :
    (takeRun budget ops).1 ++ (takeRun budget ops).2 = ops := by
  induction ops generalizing budget with
  | nil => rfl
  | cons op rest ih =>
    unfold takeRun
    split
    · simp [ih]
    · rfl

theorem splitAfter_append (boundary : Option Nat) (ops : List Operation) :
    (splitAfter boundary ops).1 ++ (splitAfter boundary ops).2 = ops := by
  cases boundary with
  | none => rfl
  | some seq => simp [splitAfter]

@[simp] theorem pending_deliverAll (queue : Queue) (ops : List Operation) (outcome : Outcome) :
    (queue.deliverAll ops outcome).pending = queue.pending := by
  unfold deliverAll
  induction ops generalizing queue with
  | nil => rfl
  | cons op rest ih => exact ih _

@[simp] theorem pending_foldl_launch (queue : Queue) (ops : List Operation) :
    (ops.foldl launch queue).pending = queue.pending := by
  induction ops generalizing queue with
  | nil => rfl
  | cons op rest ih => rw [List.foldl_cons, ih]; simp [launch]

/-- What a fetch takes out of the pending operations is what it returns. -/
theorem length_dequeue {queue after : Queue} {now : Instant} {deadline : Option Instant}
    {budget : Nat} {boundary : Option Nat} {run : List Operation}
    (h : queue.dequeue now deadline budget boundary = (.ready (.ok run), after)) :
    run.length + after.pending.length = queue.pending.length := by
  have whole := congrArg List.length (splitAfter_append boundary queue.pending)
  have parts := congrArg List.length (takeRun_append budget (splitAfter boundary queue.pending).2)
  unfold dequeue at h
  simp only [List.length_append] at whole parts h
  split at h
  · cases h
  · split at h
    · split at h
      · split at h
        · cases h; simp
        · cases h
      · cases h
    · cases h
      simp only [pending_foldl_launch, List.length_append]
      omega

/-! ### Leaving flight -/

/-- Takes the operation in flight under a hint, if there is one. -/
def land (queue : Queue) (hint : Hint) : Option Operation × Queue :=
  match queue.inFlight.find? fun op => op.hint == hint with
  | none => (none, queue)
  | some op =>
    (some op, { queue with inFlight := queue.inFlight.filter fun other => other.hint != hint })

/-- Inserts by arrival. -/
def insertPending (op : Operation) (pending : List Operation) : List Operation :=
  (pending.takeWhile fun other => other.seq < op.seq)
    ++ op :: pending.dropWhile fun other => other.seq < op.seq

/-- Moves operations in flight back to where they arrived; counts those that were in flight. -/
def handBack (queue : Queue) : List Hint → Nat × Queue
  | [] => (0, queue)
  | hint :: rest =>
    match queue.land hint with
    | (none, queue) => queue.handBack rest
    | (some op, queue) =>
      let (count, queue) := { queue with pending := insertPending op queue.pending }.handBack rest
      (count + 1, queue)

/-- Parks an operation with the response it is to be completed with later. A stopped queue cancels
it instead. -/
def park (queue : Queue) (now : Instant) (op : Operation) (response : Response) : Queue :=
  let op := op.park response ((now.after? queue.retryDelay).getD now)
  if queue.stopped then queue.deliver op (.error .cancelled)
  else { queue with parked := queue.parked ++ [op] }

/-- Takes the earliest parked operation that is due. -/
def takeDue (queue : Queue) (now : Instant) : Option Operation × Queue :=
  match queue.parked.find? fun op => op.isDue now with
  | none => (none, queue)
  | some op => (some op, { queue with parked := queue.parked.eraseP fun op => op.isDue now })

/-! ### Cancelling and expiring -/

/-- Cancels the first pending operation under a hint. Others can no longer be cancelled. -/
def cancel (queue : Queue) (hint : Hint) : Bool × Queue :=
  match queue.pending.find? fun op => op.hint == hint with
  | none => (false, queue)
  | some op =>
    (true,
      { queue with pending := queue.pending.eraseP fun op => op.hint == hint }.deliver op
        (.error .cancelled))

/-- Takes out the operations whose deadline has come, from a position on, and puts them behind those
taken out before. The successor of an operation that is taken out moves up to its position. -/
def extractExpired (now : Instant) (ops : List Operation) (index : Nat) (taken : List Operation) :
    List Operation × List Operation :=
  if _h : index < ops.length then
    if ops[index].isExpired now then
      extractExpired now (ops.eraseIdx index) index (taken ++ [ops[index]])
    else extractExpired now ops (index + 1) taken
  else (taken, ops)
termination_by ops.length - index
decreasing_by
  · rw [List.length_eraseIdx_of_lt ‹_›]
    omega
  · omega

/-- Nobody is passed over, and nobody else is taken. -/
theorem extractExpired_eq (now : Instant) (ops : List Operation) (index : Nat)
    (taken : List Operation) :
    extractExpired now ops index taken =
      (taken ++ (ops.drop index).filter (·.isExpired now),
        ops.take index ++ (ops.drop index).filter fun op => !op.isExpired now) := by
  fun_induction extractExpired now ops index taken with
  | case1 ops index taken inside old ih =>
    -- What stands at the position afterwards is what stood behind it.
    have short : (ops.take index).length = index := List.length_take_of_le (Nat.le_of_lt inside)
    have moved : (ops.eraseIdx index).drop index = ops.drop (index + 1) := by
      rw [List.eraseIdx_eq_take_drop_succ, List.drop_left' short]
    have kept : (ops.eraseIdx index).take index = ops.take index := by
      rw [List.eraseIdx_eq_take_drop_succ, List.take_left' short]
    rw [ih, moved, kept, List.drop_eq_getElem_cons inside]
    simp only [List.filter_cons, old, Bool.not_true, Bool.false_eq_true, if_true, if_false,
      List.append_assoc, List.singleton_append]
  | case2 ops index taken inside live ih =>
    rw [ih, List.drop_eq_getElem_cons inside, List.take_succ_eq_append_getElem inside]
    simp only [List.filter_cons, live, Bool.not_false, Bool.false_eq_true, if_true, if_false,
      List.append_assoc, List.singleton_append]
  | case3 ops index taken outside =>
    have past : ops.length ≤ index := Nat.le_of_not_lt outside
    rw [List.drop_eq_nil_of_le past, List.take_of_length_le past, List.filter_nil, List.filter_nil,
      List.append_nil, List.append_nil]

/-- Completes every operation whose deadline has come, and counts them. -/
def removeExpired (queue : Queue) (now : Instant) : Nat × Queue :=
  let (expired, pending) := extractExpired now queue.pending 0 []
  let (expired, parked) := extractExpired now queue.parked 0 expired
  let (oldInFlight, inFlight) :=
    queue.inFlight.partition fun op => queue.expiresInFlight && op.isExpired now
  let expired := expired ++ oldInFlight
  (expired.length,
    { queue with pending, parked, inFlight }.deliverAll expired (.error .expired))

/-- Every operation the queue holds. -/
def all (queue : Queue) : List Operation := queue.pending ++ queue.inFlight ++ queue.parked

/-- Gives up every operation. -/
def clear (queue : Queue) : Queue :=
  { queue with pending := [], inFlight := [], parked := [] }.deliverAll queue.all
    (.error .cancelled)

/-- Refuses further work and, with `cancelAll`, gives up all there is; counts what was given up. -/
def stop (queue : Queue) (cancelAll : Bool) : Nat × Queue :=
  let queue := { queue with stopped := true }
  if cancelAll then (queue.all.length, queue.clear) else (0, queue)

def isDrained (queue : Queue) : Bool := queue.inFlight.isEmpty

/-- The outcomes handed out under a ticket; a caller gets at most one. -/
def outcomesOf (queue : Queue) (ticket : Nat) : List Outcome :=
  (queue.delivered.filter fun delivery => delivery.ticket == ticket).map Delivery.outcome

def outcome? (queue : Queue) (ticket : Nat) : Option Outcome :=
  (queue.delivered.find? fun delivery => delivery.ticket == ticket).map Delivery.outcome

end Queue
end FileBroker
