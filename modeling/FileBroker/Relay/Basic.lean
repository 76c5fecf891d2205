import FileBroker.Session.Channel
import FileBroker.Volume.Basic
import FileBroker.Worker.Basic

/-!
A session that is served by a worker over a volume in memory, with one caller at a time: each
request is posted and its outcome awaited before the next.
-/
namespace FileBroker

structure Relay where
  worker : Worker Session.Live Volume
  /-- How the worker ended, if it has. -/
  ended : Option (Except WorkerError Unit)

namespace Relay

def start (session : Session) (volume : Volume) (thread : String) : Relay :=
  let config := session.broker.config
  ⟨.new config.revision config.mode thread ⟨0, session⟩ volume, none⟩

def session (relay : Relay) : Session := relay.worker.channel.session

def volume (relay : Relay) : Volume := relay.worker.desk.state

def now (relay : Relay) : Instant := relay.worker.channel.now

/-- Replaces the session and the time. -/
def withSession (relay : Relay) (now : Instant) (session : Session) : Relay :=
  { relay with worker := { relay.worker with channel := ⟨now, session⟩ } }

/-- The relay without the number of its exchanges, which depends on how long callers pause. -/
def unclocked (relay : Relay) : Relay :=
  let session := relay.session
  relay.withSession relay.now { session with health := { session.health with exchanges := 0 } }

/-- Lets the worker fetch and answer what is pending. -/
def serve (relay : Relay) (ticks : UInt64) : Relay :=
  if relay.ended.isSome then relay
  else
    let channel := Session.channel .standard
    match relay.worker.turn channel (Volume.handle ticks) with
    | (.error error, worker) => ⟨worker, some (.error error)⟩
    | (.ok false, worker) => ⟨worker, some (.ok ())⟩
    | (.ok true, worker) =>
      match worker.flush channel with
      | (.ok _, worker) => ⟨worker, none⟩
      | (.error error, worker) => ⟨worker, some (.error error)⟩

/-- Posts a request and waits for its outcome. -/
def call (relay : Relay) (ticks : UInt64) (request : Request) :
    Except Failure (Hint × Outcome) × Relay :=
  match relay.session.post relay.now request with
  | (.error failure, session) => (.error failure, relay.withSession relay.now session)
  | (.ok reply, session) =>
    let relay := (relay.withSession relay.now session).serve ticks
    let (now, session) := relay.session.await .standard relay.now reply.ticket none
    let outcome := (session.broker.queue.outcome? reply.ticket).getD (.error .cancelled)
    (.ok (reply.hint, outcome), relay.withSession now session)

/-- Stops the session gracefully and tells how the worker ended. -/
def stop (relay : Relay) : Except WorkerError Unit × Relay :=
  let (now, session) := relay.session.stop .standard relay.now .graceful
  let relay := relay.withSession now session
  match relay.ended with
  | some ending => (ending, relay)
  | none => (.ok (), relay)

end Relay
end FileBroker
