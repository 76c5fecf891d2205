import FileBroker.Channel.Basic
import FileBroker.Response.Basic

/-!
Answering one request. A request that cannot be read and a response that cannot be built are
answered with a bare failure status, so that every caller hears back.
-/
namespace FileBroker

/-- What a handler does with one request. -/
inductive Reaction where
  /-- Send the response now, with this status and count. -/
  | complete (status : Status) (information : UInt64) (draft : Response.Draft)
  /-- The handler keeps the request; its response is sent later. -/
  | deferred
  /-- The handler gave up, and the worker with it. -/
  | crashed

/-- The file-system logic behind a worker, with a state of its own. -/
abbrev Handler (τ : Type) := τ → Request → Response.Draft → Reaction × τ

inductive WorkerError where
  | channel (error : ChannelError)
  | format (error : FormatError)
  | crashed (thread : String)
  deriving DecidableEq, Repr

def WorkerError.message : WorkerError → String
  | .channel error => "channel failure: " ++ error.message
  | .format error => "response encoding failed: " ++ error.message
  | .crashed thread => s!"dispatcher thread {thread} panicked"

/-- The state of a handler, and what it has been given to do. -/
structure Desk (τ : Type) where
  state : τ
  /-- Requests taken up. -/
  requests : Nat
  /-- Responses to requests that could be read, sent at once or later. -/
  responses : Nat
  deferred : Nat
  /-- Requests that could not be read, and responses that could not be built. -/
  invalid : Nat

namespace Desk

variable {τ : Type}

def new (state : τ) : Desk τ := ⟨state, 0, 0, 0, 0⟩

/-- The counters by name. -/
def toList (desk : Desk τ) : List (String × Nat) :=
  [("requests", desk.requests), ("responses", desk.responses), ("deferred", desk.deferred),
   ("invalid", desk.invalid)]

/-- What a completed draft is sent as: a draft that has grown too long keeps only a status. -/
def completed (revision : Revision) (draft : Response.Draft) (status : Status)
    (information : UInt64) : Except FormatError Response :=
  let draft := draft.setStatus status information
  if revision.messageLimit < draft.encodedSize then
    (draft.resetToStatus .invalidDeviceRequest).build
  else draft.build

/-- Counts a response, if it was written. -/
def wrote (desk : Desk τ) (written : Except FormatError Batch.Writer) :
    Except WorkerError Batch.Writer × Desk τ :=
  match written with
  | .ok writer => (.ok writer, { desk with responses := desk.responses + 1 })
  | .error error => (.error (.format error), desk)

/-- Answers one request and writes the response, if there is one yet. -/
def answer (handler : Handler τ) (revision : Revision) (thread : String) (desk : Desk τ)
    (writer : Batch.Writer) (frame : Frame) : Except WorkerError Batch.Writer × Desk τ :=
  let desk := { desk with requests := desk.requests + 1 }
  match Request.decode frame revision with
  | .error _ =>
    let header := frame.header
    let written := writer.pushStatus revision header.hint header.kind .invalidDeviceRequest
    (written.mapError .format, { desk with invalid := desk.invalid + 1 })
  | .ok request =>
    match handler desk.state request (.ofRequest request) with
    | (.crashed, state) => (.error (.crashed thread), { desk with state })
    | (.deferred, state) => (.ok writer, { desk with state, deferred := desk.deferred + 1 })
    | (.complete status information draft, state) =>
      let desk := { desk with state }
      match completed revision draft status information with
      | .ok response => desk.wrote (writer.pushResponse response)
      | .error _ =>
        { desk with invalid := desk.invalid + 1 }.wrote
          (writer.pushStatus revision request.hint request.kind.number .invalidDeviceRequest)

end Desk
end FileBroker
