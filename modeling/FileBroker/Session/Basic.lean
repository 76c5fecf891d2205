import FileBroker.Broker.Exchange

/-!
A session serves one volume: a broker, a sweep that runs at regular intervals for as long as the
session lives, and the change notifications that were sent to it. Time passes only where somebody
waits.

A wait that nothing in the session can end is over at once, with nothing to show for it. It takes a
span that reaches beyond the horizon, or an operation that never expires, to wait like that, and
whoever could end the wait from outside acts only after it. A worker or a caller can go on waiting
then, and gets what it would have got; all that differs is how often it has asked.
-/
namespace FileBroker

namespace Queue

/-- When the first operation that a sweep may expire reaches its deadline. -/
def nextDeadline (queue : Queue) : Option Instant :=
  let inFlight := if queue.expiresInFlight then queue.inFlight else []
  (queue.pending ++ queue.parked ++ inFlight).foldl
    (fun first op => Instant.earlier first op.deadline) none

end Queue

namespace Broker

/-- Expires what has timed out, then attempts the retries that are due. -/
def sweep (routine : Routine) (broker : Broker) (now : Instant) : Broker :=
  ((broker.removeExpired now).2.resumeDue routine now).2

/-- When a sweep would first find something to do. -/
def nextWork (broker : Broker) : Option Instant :=
  Instant.earlier broker.queue.nextDeadline broker.queue.nextRetry

/-- No more sweeps than this can find something to do, unless something is posted or answered:
each expires an operation or uses up an attempt. -/
def workLeft (broker : Broker) : Nat := broker.queue.all.length + broker.attemptsLeft

end Broker

structure Session where
  name : String
  broker : Broker
  /-- When the next sweep runs; none once the session has stopped. -/
  nextSweep : Option Instant
  /-- Every notification so far, oldest first. -/
  notifications : List Notification
  health : Health

namespace Session

def start (name : String) (config : Broker.Config) (now : Instant) : Session where
  name
  broker := .new config
  nextSweep := now.after? config.sweepInterval
  notifications := []
  health := .zero

def isStopped (session : Session) : Bool := session.broker.queue.stopped

def post (session : Session) (now : Instant) (request : Request) : Except Failure Reply × Session :=
  let (result, broker) := session.broker.post now request
  (result, { session with broker })

def cancel (session : Session) (hint : Hint) : Bool × Session :=
  let (found, broker) := session.broker.cancel hint
  (found, { session with broker })

/-! ### Sweeps -/

def sweepInterval (session : Session) : Span := max 1 session.broker.config.sweepInterval

/-- The first sweep that finds something to do. -/
def busySweep (session : Session) : Option Instant :=
  match session.nextSweep, session.broker.nextWork with
  | some sweep, some work =>
    let interval := session.sweepInterval
    some (sweep + (work - sweep + (interval - 1)) / interval * interval)
  | _, _ => none

/-- Passes over the sweeps up to `now`, none of which finds anything to do. -/
def skipIdle (session : Session) (now : Instant) : Session :=
  let interval := session.sweepInterval
  { session with
    nextSweep := session.nextSweep.map fun sweep =>
      if sweep ≤ now then sweep + ((now - sweep) / interval + 1) * interval else sweep }

/-- Runs at most `fuel` busy sweeps, and none later than `now`. -/
def runSweeps (routine : Routine) (now : Instant) : (fuel : Nat) → Session → Session
  | 0, session => session.skipIdle now
  | fuel + 1, session =>
    match session.busySweep with
    | none => session.skipIdle now
    | some sweep =>
      if sweep ≤ now then
        runSweeps routine now fuel
          { session with
            broker := session.broker.sweep routine sweep
            nextSweep := some (sweep + session.sweepInterval) }
      else session.skipIdle now

/-- Runs every sweep up to `now`. -/
def catchUp (routine : Routine) (session : Session) (now : Instant) : Session :=
  runSweeps routine now session.broker.workLeft session

/-- Lets sweeps run until the broker is ready, but not beyond the deadline; gives the instant at
which the wait ends. Without a deadline and without a sweep that finds something to do nothing in
the session can make the broker ready, and the wait ends where it is. -/
def waitFor (routine : Routine) (ready : Broker → Bool) (deadline : Option Instant) :
    (fuel : Nat) → (now : Instant) → Session → Instant × Session
  | 0, now, session => (now, session)
  | fuel + 1, now, session =>
    if ready session.broker then (now, session)
    else match Instant.earlier deadline session.busySweep with
    | none => (now, session)
    | some wake =>
      if wake ≤ now then (now, session)
      else waitFor routine ready deadline fuel wake (session.catchUp routine wake)

def wait (routine : Routine) (session : Session) (now : Instant) (deadline : Option Instant)
    (ready : Broker → Bool) : Instant × Session :=
  waitFor routine ready deadline (session.broker.workLeft + 2) now session

/-- Waits for the outcome of an operation. -/
def await (routine : Routine) (session : Session) (now : Instant) (ticket : Nat)
    (deadline : Option Instant) : Instant × Session :=
  session.wait routine now deadline fun broker => (broker.queue.outcome? ticket).isSome

/-! ### Exchanges -/

/-- Fills the buffer as soon as something is pending, but no later than the deadline or a due
retry. Where neither these nor a sweep can end the wait, the buffer stays as it is, and it is the
worker's next round trip that waits on. -/
def fill (routine : Routine) (deadline : Option Instant) (buffer : Buffer) :
    (fuel : Nat) → (now : Instant) → Session →
      (Except ChannelError (Nat × Buffer) × Instant) × Session
  | 0, now, session => ((.ok (0, buffer), now), session)
  | fuel + 1, now, session =>
    let (polled, broker) := session.broker.pollExchange routine now deadline buffer
    let session := { session with broker }
    match polled with
    | .ready result => ((result, now), session)
    | .asleep wake =>
      match Instant.earlier wake session.busySweep with
      | none => ((.ok (0, buffer), now), session)
      | some wake => fill routine deadline buffer fuel wake (session.catchUp routine wake)

/-- A round trip without its bookkeeping. -/
def roundTrip (routine : Routine) (session : Session) (now : Instant) (responses : Bytes)
    (buffer : Buffer) : (Except ChannelError (Nat × Buffer) × Instant) × Session :=
  match session.broker.beginExchange routine now responses buffer.size with
  | (.error error, broker) => ((.error error, now), { session with broker })
  | (.ok false, broker) => ((.ok (0, buffer), now), { session with broker })
  | (.ok true, broker) =>
    fill routine (broker.exchangeDeadline now true) buffer (broker.workLeft + 2) now
      { session with broker }

/-- Notes an exchange. Being stopped is no fault of the channel. -/
def note (health : Health) (received : Nat) (result : Except ChannelError (Nat × Buffer)) :
    Health :=
  let health :=
    { health with
      exchanges := health.exchanges + 1
      responsesReceived := health.responsesReceived + received }
  match result with
  | .ok (filled, buffer) =>
    { health with
      requestsDelivered :=
        health.requestsDelivered + Batch.count .request (buffer.front filled) }
  | .error .stopped => health
  | .error error => { health with lastError := some error.message }

/-- A worker's round trip; the result comes with the instant at which it ends. -/
def exchange (routine : Routine) (session : Session) (now : Instant) (responses : Bytes)
    (buffer : Buffer) : (Except ChannelError (Nat × Buffer) × Instant) × Session :=
  let (ended, session) := session.roundTrip routine now responses buffer
  let received := Batch.count .response responses
  (ended, { session with health := note session.health received ended.1 })

/-! ### Notifications and stopping -/

/-- Sends a notification to whoever listens; nobody has to, and a stopped session sends none. -/
def notify (session : Session) (notification : Notification) :
    Except ChannelError Unit × Session :=
  if session.isStopped then (.error .stopped, session)
  else (.ok (), { session with notifications := session.notifications ++ [notification] })

/-- Stops the session for good; gives the instant at which it has stopped. A graceful stop first
waits for the operations in flight, for as long as the settings allow; if they set no end to that,
for as long as the sweeps find something to do. -/
def stop (routine : Routine) (session : Session) (now : Instant) (mode : StopMode) :
    Instant × Session :=
  let (now, session) := match mode with
    | .forced => (now, session)
    | .graceful =>
      let session := { session with broker := (session.broker.stop false).2 }
      session.wait routine now (now.after? session.broker.config.stopGrace) fun broker =>
        broker.queue.isDrained
  (now, { session with broker := (session.broker.stop true).2, nextSweep := none })

end Session
end FileBroker
