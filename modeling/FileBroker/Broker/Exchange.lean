import FileBroker.Broker.Basic

/-!
One round trip with a worker: its responses are taken in, then its buffer is filled with pending
requests. When nothing is pending the worker may wait, but never past a retry that falls due.
-/
namespace FileBroker.Broker

/-- The part before any waiting. Tells whether requests are to be fetched: an empty buffer asks for
none. -/
def beginExchange (routine : Routine) (broker : Broker) (now : Instant) (responses : Bytes)
    (room : Nat) (tick : Span := 1) : Except ChannelError Bool × Broker :=
  let (_, broker) := broker.ingest routine now responses
  if room = 0 then (.ok false, broker)
  else
    let (_, broker) := broker.resumeDue routine now tick
    let limit := broker.config.revision.messageLimit
    if Layout.fits room 0 limit then (.ok true, broker)
    else (.error (.bufferTooSmall limit room), broker)

/-- Writes fetched operations and tells whether all were written; what cannot be written goes back
to where it arrived. -/
def writeOut (broker : Broker) (writer : Batch.Writer) :
    List Operation → Bool × Batch.Writer × Broker
  | [] => (true, writer, broker)
  | op :: rest =>
    match writer.pushEncoded op.encoded with
    | .ok writer =>
      let counters := broker.counters
      writeOut
        { broker with counters := { counters with dispatched := counters.dispatched + 1 } }
        writer rest
    | .error _ =>
      let (_, queue) := broker.queue.handBack ((op :: rest).map Operation.hint)
      (false, writer, { broker with queue })

theorem queue_writeOut {broker after : Broker} {writer written : Batch.Writer}
    {ops : List Operation} (h : broker.writeOut writer ops = (true, written, after)) :
    after.queue = broker.queue := by
  induction ops generalizing broker writer with
  | nil => cases h; rfl
  | cons op rest ih =>
    unfold writeOut at h
    split at h
    · have kept := ih h
      exact kept
    · cases h

/-- Writes a fetched batch, then goes on fetching while a message of any size still fits. -/
def handOver (broker : Broker) (now : Instant) (writer : Batch.Writer) (batch : List Operation) :
    Batch.Writer × Broker :=
  match _hLast : batch.getLast? with
  | none => (writer, broker)
  | some last =>
    match _hWritten : broker.writeOut writer batch with
    | (false, writer, broker) => (writer, broker)
    | (true, writer, broker) =>
      if writer.fits broker.config.revision.messageLimit then
        match _hFetched : broker.queue.dequeue now (some now) writer.remaining (some last.seq) with
        | (.ready (.ok next), queue) => handOver { broker with queue } now writer next
        | (_, queue) => (writer, { broker with queue })
      else (writer, broker)
termination_by batch.length + broker.queue.pending.length
decreasing_by
  have written := queue_writeOut ‹_›
  have fetched := Queue.length_dequeue ‹_›
  rw [written] at fetched
  have filled : 0 < batch.length := List.length_pos_of_mem (List.mem_of_getLast? ‹_›)
  omega

/-- Fills the buffer as far as can be done at `now`. When no request was found, retries that have
fallen due are attempted before returning. -/
def pollExchange (routine : Routine) (broker : Broker) (now : Instant) (deadline : Option Instant)
    (buffer : Buffer) (tick : Span := 1) : Wait (Except ChannelError (Nat × Buffer)) × Broker :=
  match broker.queue.dequeue now deadline buffer.size none with
  | (.asleep wake, queue) => (.asleep wake, { broker with queue })
  | (.ready (.error _), queue) => (.ready (.error .stopped), { broker with queue })
  | (.ready (.ok batch), queue) =>
    let (writer, broker) := handOver { broker with queue } now (.ofBuffer buffer) batch
    let broker :=
      if writer.isEmpty then (broker.resumeDue routine (now + tick) tick).2 else broker
    (.ready (.ok (writer.cursor, writer.buffer)), broker)

/-- Until when an exchange that starts at `now` may wait. -/
def exchangeDeadline (broker : Broker) (now : Instant) (wait : Bool) : Option Instant :=
  if wait then now.after? broker.config.exchangeTimeout else some now

/-- A whole exchange during which nobody else acts, on a clock that but for its ticks only waiting
moves; the result comes with the instant at which the exchange ends. There is no result where the
wait has no end, neither by a deadline nor by a retry. -/
def exchange (routine : Routine) (broker : Broker) (now : Instant) (responses : Bytes)
    (buffer : Buffer) (wait : Bool) (tick : Span := 1) :
    Option (Except ChannelError (Nat × Buffer) × Instant) × Broker :=
  match broker.beginExchange routine now responses buffer.size tick with
  | (.error error, broker) => (some (.error error, now), broker)
  | (.ok false, broker) => (some (.ok (0, buffer), now), broker)
  | (.ok true, broker) =>
    let deadline := broker.exchangeDeadline now wait
    match broker.pollExchange routine now deadline buffer tick with
    | (.ready result, broker) => (some (result, now), broker)
    | (.asleep none, broker) => (none, broker)
    | (.asleep (some wake), broker) =>
      match broker.pollExchange routine wake deadline buffer tick with
      | (.ready result, broker) => (some (result, wake), broker)
      | (.asleep _, broker) => (none, broker)

end FileBroker.Broker
