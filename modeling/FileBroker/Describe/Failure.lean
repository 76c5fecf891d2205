import FileBroker.Channel.Basic
import FileBroker.Data.Value
import FileBroker.Queue.Basic

/-! Errors as structured data: a name for the cause beside its message. -/
namespace FileBroker.Describe

open Data

def error (cause message : String) : Value :=
  .table [("error", .text cause), ("message", .text message)]

def formatCause : FormatError → String
  | .truncated _ => "Truncated"
  | .tooSmall _ _ => "TooSmall"
  | .tooLarge _ _ => "TooLarge"
  | .unsupportedRevision _ => "UnsupportedVersion"
  | .revisionMismatch _ _ => "VersionMismatch"
  | .unknownKind _ => "UnknownKind"
  | .regionOutOfBounds _ _ _ => "RegionOutOfBounds"
  | .noRoom _ _ _ => "NoRoom"
  | .invalidPayload _ => "InvalidPayload"

def formatError (cause : FormatError) : Value := error (formatCause cause) cause.message

def channelCause : ChannelError → String
  | .stopped => "Stopped"
  | .bufferTooSmall _ _ => "BufferTooSmall"
  | .format _ => "Codec"

def channelError (cause : ChannelError) : Value := error (channelCause cause) cause.message

def queueCause : QueueError → String
  | .full => "InsufficientResources"
  | .stopped => "Stopped"

def queueError (cause : QueueError) : Value := error (queueCause cause) cause.message

def failureCause : Failure → String
  | .queueFull => "InsufficientResources"
  | .cancelled => "Cancelled"
  | .expired => "Expired"
  | .protocolViolation _ => "ProtocolError"
  | .refused _ _ => "OperationFailed"

def failure (cause : Failure) : Value :=
  let common := [("error", .text (failureCause cause)), ("message", .text cause.message),
    ("status", .ofNat cause.status.code.toNat)]
  match cause with
  | .refused _ information => .table (common ++ [("information", .ofNat information.toNat)])
  | _ => .table common

/-- A result: the described value, or the described error. -/
def result {ε α : Type} (error : ε → Value) (value : α → Value) : Except ε α → Value
  | .ok a => value a
  | .error e => error e

def decoded {α : Type} (value : α → Value) : Except FormatError α → Value :=
  result formatError value

/-- A result without a value. -/
def done : Value := .text "ok"

def checked : Except FormatError Unit → Value := decoded fun _ => done

end FileBroker.Describe
