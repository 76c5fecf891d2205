import FileBroker.Describe.Broker
import FileBroker.Relay.Workload
import FileBroker.Session.Registry

/-!
Sessions, workers and volumes as structured data, and the report on a workload: what the producers
saw, and what each part on the way counted.
-/
namespace FileBroker.Describe

open Data

/-! ### Parts -/

def session (session : Session) : Value :=
  let config := session.broker.config
  .table
    [("name", .text session.name), ("version", .text config.revision.keyword),
     ("mode", .text config.mode.keyword), ("stopped", .bool session.isStopped),
     ("counts", counts session.broker.queue.counts),
     ("stats", tally session.broker.counters.toList)]

/-- What tells a registered session from another. -/
def sessionEntry (session : Session) : Value :=
  .table
    [("name", .text session.name), ("stopped", .bool session.isStopped),
     ("version", .text session.broker.config.revision.keyword)]

def sessionError (cause : SessionError) : Value :=
  match cause with
  | .alreadyRegistered _ => error "AlreadyRegistered" cause.message

def workerCause : WorkerError → String
  | .channel _ => "Channel"
  | .format _ => "Codec"
  | .crashed _ => "Panicked"

def workerError (cause : WorkerError) : Value := error (workerCause cause) cause.message

/-- How many files and open handles a volume holds. -/
def volumeEntries (volume : Volume) : Entries :=
  [("files", .ofNat volume.files.length), ("handles", .ofNat volume.handles.length)]

/-! ### Reports -/

def queueCounts (counts : Queue.Counts) : Value :=
  .ofCounters
    [("pending", counts.pending), ("processing", counts.inFlight), ("retried", counts.parked)]

def channelHealth (health : Health) : Value :=
  .table
    [("transacts", .ofNat health.exchanges),
     ("requests_delivered", .ofNat health.requestsDelivered),
     ("responses_received", .ofNat health.responsesReceived),
     ("last_error", .ofOption .text health.lastError)]

/-- The report after `elapsed` milliseconds. Callers that take turns are never refused for want of
capacity, so nothing is counted as rejected, and they share the time that has elapsed. -/
def report (state : Workload.State) (elapsed : Nat) : Value :=
  let session := state.relay.session
  let tally := state.tally
  .table
    [("volume", .text session.name), ("elapsed_ms", .ofNat elapsed),
     ("cycles", .ofNat tally.cycles), ("operations", .ofNat tally.operations),
     ("failures", .ofNat tally.failures), ("rejected", .ofNat 0),
     ("mismatches", .ofNat tally.mismatches),
     ("mean_latency_us", .ofNat (elapsed * 1000 / tally.operations)),
     ("broker", .ofCounters session.broker.counters.toList),
     ("queue", queueCounts session.broker.queue.counts),
     ("channel", channelHealth session.health),
     ("dispatcher", .ofCounters state.relay.worker.desk.toList)]

end FileBroker.Describe
