import FileBroker.Worker.Desk

/-!
A worker fetches requests over a channel, answers them in order, and sends the responses along
with its next fetch, or earlier when no further response is sure to fit.
-/
namespace FileBroker

structure Worker (σ τ : Type) where
  revision : Revision
  thread : String
  channel : σ
  desk : Desk τ
  /-- The buffer that requests are delivered in. -/
  inbox : Buffer
  /-- Responses that have not been sent. -/
  outbox : Batch.Writer

namespace Worker

variable {σ τ : Type}

def new (revision : Revision) (mode : ExchangeMode) (thread : String) (channel : σ) (state : τ) :
    Worker σ τ where
  revision
  thread
  channel
  desk := .new state
  inbox := .filled (mode.bufferSize revision) 0
  outbox := .ofBuffer (.filled (mode.bufferSize revision) 0)

/-- Sends the responses without asking for requests. -/
def flush (exchange : Channel σ) (worker : Worker σ τ) : Except WorkerError Unit × Worker σ τ :=
  let (result, channel) := exchange.exchange worker.channel worker.outbox.written .empty
  let emptied := { worker with channel, outbox := { worker.outbox with cursor := 0 } }
  match result with
  | .ok _ | .error .stopped => (.ok (), emptied)
  | .error error => (.error (.channel error), { worker with channel })

/-- Makes room for a response of any size. -/
def makeRoom (exchange : Channel σ) (worker : Worker σ τ) :
    Except WorkerError Unit × Worker σ τ :=
  if worker.outbox.fits worker.revision.messageLimit then (.ok (), worker)
  else worker.flush exchange

def answer (handler : Handler τ) (worker : Worker σ τ) (frame : Frame) :
    Except WorkerError Unit × Worker σ τ :=
  match worker.desk.answer handler worker.revision worker.thread worker.outbox frame with
  | (.ok outbox, desk) => (.ok (), { worker with desk, outbox })
  | (.error error, desk) => (.error error, { worker with desk })

/-- Answers requests in order, up to the first fault. -/
def answerAll (exchange : Channel σ) (handler : Handler τ) :
    List Frame → Worker σ τ → Except WorkerError Unit × Worker σ τ
  | [], worker => (.ok (), worker)
  | frame :: rest, worker =>
    match worker.makeRoom exchange with
    | (.error error, worker) => (.error error, worker)
    | (.ok _, worker) =>
      match worker.answer handler frame with
      | (.error error, worker) => (.error error, worker)
      | (.ok _, worker) => answerAll exchange handler rest worker

/-- One fetch and the answers to what it brought. Tells whether to go on: a stopped channel ends
the worker in good order. -/
def turn (exchange : Channel σ) (handler : Handler τ) (worker : Worker σ τ) :
    Except WorkerError Bool × Worker σ τ :=
  let (result, channel) := exchange.exchange worker.channel worker.outbox.written worker.inbox
  let worker := { worker with channel }
  match result with
  | .error .stopped => (.ok false, worker)
  | .error error => (.error (.channel error), worker)
  | .ok (filled, inbox) =>
    let worker := { worker with inbox, outbox := { worker.outbox with cursor := 0 } }
    match worker.answerAll exchange handler (Batch.frames .request (inbox.front filled)) with
    | (.ok _, worker) => (.ok true, worker)
    | (.error error, worker) => (.error error, worker)

/-- At most `fuel` turns; gives how the worker ended, if it has. -/
def run (exchange : Channel σ) (handler : Handler τ) :
    (fuel : Nat) → Worker σ τ → Option (Except WorkerError Unit) × Worker σ τ
  | 0, worker => (none, worker)
  | fuel + 1, worker =>
    match worker.turn exchange handler with
    | (.ok true, worker) => run exchange handler fuel worker
    | (.ok false, worker) => (some (.ok ()), worker)
    | (.error error, worker) => (some (.error error), worker)

/-- Sends the response to a deferred request. -/
def sendResponse (exchange : Channel σ) (worker : Worker σ τ) (response : Response) :
    Except WorkerError Unit × Worker σ τ :=
  let room := Buffer.filled (Layout.alignUp response.encodedSize) 0
  match (Batch.Writer.ofBuffer room).pushResponse response with
  | .error error => (.error (.format error), worker)
  | .ok writer =>
    let (result, channel) := exchange.exchange worker.channel writer.written .empty
    match result with
    | .error error => (.error (.channel error), { worker with channel })
    | .ok _ =>
      let desk := { worker.desk with responses := worker.desk.responses + 1 }
      (.ok (), { worker with channel, desk })

end Worker
end FileBroker
