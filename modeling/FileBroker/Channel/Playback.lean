import FileBroker.Channel.Basic
import FileBroker.Wire.Batch

/-!
A channel whose request batches are written down beforehand and whose response batches are kept.
A batch leaves the script only by being delivered whole.
-/
namespace FileBroker

structure Playback where
  script : List Bytes
  captured : List Bytes
  notifications : List Notification
  stopped : Option StopMode
  health : Health
  deriving DecidableEq, Repr

namespace Playback

def new : Playback := ⟨[], [], [], none, .zero⟩

/-- How long an exchange waits for a batch to be added to an empty script, in milliseconds. -/
def patience : Nat := 10

def push (playback : Playback) (batch : Bytes) : Playback :=
  { playback with script := playback.script ++ [batch] }

/-- Keeps a response batch, unless it is empty. -/
def capture (playback : Playback) (responses : Bytes) : Playback :=
  let health := { playback.health with exchanges := playback.health.exchanges + 1 }
  if responses.isEmpty then { playback with health }
  else
    { playback with
      captured := playback.captured ++ [responses]
      health := { health with
        responsesReceived := health.responsesReceived + Batch.count .response responses } }

def deliver (playback : Playback) (buffer : Buffer) :
    Except ChannelError (Nat × Buffer) × Playback :=
  match playback.script with
  | [] => (.ok (0, buffer), playback)
  | batch :: rest =>
    if fits : batch.length ≤ buffer.size then
      (.ok (batch.length, buffer.overwrite 0 batch (by omega)),
        { playback with
          script := rest
          health := { playback.health with
            requestsDelivered :=
              playback.health.requestsDelivered + Batch.count .request batch } })
    else
      let error := ChannelError.bufferTooSmall batch.length buffer.size
      (.error error,
        { playback with health := { playback.health with lastError := some error.message } })

/-- Responses are kept even when the exchange fails; an empty buffer asks for no requests. -/
def exchange (playback : Playback) (responses : Bytes) (buffer : Buffer) :
    Except ChannelError (Nat × Buffer) × Playback :=
  let playback := playback.capture responses
  if playback.stopped.isSome then (.error .stopped, playback)
  else if buffer.isEmpty then (.ok (0, buffer), playback)
  else playback.deliver buffer

def stop (playback : Playback) (mode : StopMode) : Playback :=
  { playback with stopped := some mode }

def notify (playback : Playback) (notification : Notification) :
    Except ChannelError Unit × Playback :=
  if playback.stopped.isSome then (.error .stopped, playback)
  else (.ok (),
    { playback with notifications := playback.notifications ++ [notification] })

def takeCaptured (playback : Playback) : List Bytes × Playback :=
  (playback.captured, { playback with captured := [] })

def takeNotifications (playback : Playback) : List Notification × Playback :=
  (playback.notifications, { playback with notifications := [] })

def channel : Channel Playback := ⟨exchange⟩

end Playback
end FileBroker
