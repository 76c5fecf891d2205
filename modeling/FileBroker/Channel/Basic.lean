import FileBroker.Wire.Buffer
import FileBroker.Wire.Error
import FileBroker.Wire.Layout

/-! What broker and worker agree on: how they exchange batches, stop, and notify each other. -/
namespace FileBroker

inductive ChannelError where
  /-- The session stopped; no further request will be delivered. -/
  | stopped
  | bufferTooSmall (needed available : Nat)
  | format (error : FormatError)
  deriving DecidableEq, Repr

def ChannelError.message : ChannelError → String
  | .stopped => "channel stopped"
  | .bufferTooSmall needed available =>
    s!"request buffer of {available} bytes cannot hold a {needed}-byte request"
  | .format error => error.message

/-- How many messages travel in one exchange. -/
inductive ExchangeMode where
  /-- One maximal message per direction. -/
  | single
  /-- As many per direction as the batch size holds. -/
  | batched
  deriving DecidableEq, Repr, Inhabited

namespace ExchangeMode

def all : List ExchangeMode := [.single, .batched]

def keyword : ExchangeMode → String
  | .single => "single"
  | .batched => "batched"

/-- Size of the buffer for requests, and of the one for responses. -/
def bufferSize (mode : ExchangeMode) (revision : Revision) : Nat :=
  match mode with
  | .single => revision.messageLimit
  | .batched => Layout.batchSize

theorem messageLimit_le_bufferSize (mode : ExchangeMode) (revision : Revision) :
    revision.messageLimit ≤ mode.bufferSize revision := by
  cases mode <;> cases revision <;> decide

end ExchangeMode

inductive StopMode where
  /-- Take no more work, let answers in flight land, then cancel the rest. -/
  | graceful
  /-- Cancel everything at once. -/
  | forced
  deriving DecidableEq, Repr

namespace StopMode

def all : List StopMode := [.graceful, .forced]

def keyword : StopMode → String
  | .graceful => "graceful"
  | .forced => "forced"

end StopMode

/-- A change the worker reports; nobody answers it. -/
structure Notification where
  filter : UInt32
  action : UInt32
  fileName : String
  deriving DecidableEq, Repr

/-- What has passed through a channel so far. -/
structure Health where
  exchanges : Nat
  requestsDelivered : Nat
  responsesReceived : Nat
  lastError : Option String
  deriving DecidableEq, Repr

def Health.zero : Health := ⟨0, 0, 0, none⟩

/-- One way to exchange batches: given responses and a buffer for requests, the buffer comes back
with that many bytes of it filled. -/
structure Channel (σ : Type) where
  exchange : σ → (responses : Bytes) → (buffer : Buffer) →
    Except ChannelError (Nat × Buffer) × σ

end FileBroker
