import FileBroker.Text

/-! Completion status codes. The top bit tells failures and warnings from successes. -/
namespace FileBroker

structure Status where
  code : UInt32
  deriving DecidableEq, Repr, Inhabited

namespace Status

def success : Status := ⟨0x00000000⟩
def pending : Status := ⟨0x00000103⟩
def reparse : Status := ⟨0x00000104⟩
def bufferOverflow : Status := ⟨0x80000005⟩
def noMoreFiles : Status := ⟨0x80000006⟩
def unsuccessful : Status := ⟨0xC0000001⟩
def notImplemented : Status := ⟨0xC0000002⟩
def invalidParameter : Status := ⟨0xC000000D⟩
def invalidDeviceRequest : Status := ⟨0xC0000010⟩
def endOfFile : Status := ⟨0xC0000011⟩
def accessDenied : Status := ⟨0xC0000022⟩
def bufferTooSmall : Status := ⟨0xC0000023⟩
def objectNameNotFound : Status := ⟨0xC0000034⟩
def objectNameCollision : Status := ⟨0xC0000035⟩
def sharingViolation : Status := ⟨0xC0000043⟩
def insufficientResources : Status := ⟨0xC000009A⟩
def ioTimeout : Status := ⟨0xC00000B5⟩
def internalError : Status := ⟨0xC00000E5⟩
def cancelled : Status := ⟨0xC0000120⟩

/-- The codes that have a name of their own. -/
def named : List (String × Status) :=
  [("SUCCESS", success), ("PENDING", pending), ("REPARSE", reparse),
   ("BUFFER_OVERFLOW", bufferOverflow), ("NO_MORE_FILES", noMoreFiles),
   ("UNSUCCESSFUL", unsuccessful), ("NOT_IMPLEMENTED", notImplemented),
   ("INVALID_PARAMETER", invalidParameter), ("INVALID_DEVICE_REQUEST", invalidDeviceRequest),
   ("END_OF_FILE", endOfFile), ("ACCESS_DENIED", accessDenied),
   ("BUFFER_TOO_SMALL", bufferTooSmall), ("OBJECT_NAME_NOT_FOUND", objectNameNotFound),
   ("OBJECT_NAME_COLLISION", objectNameCollision), ("SHARING_VIOLATION", sharingViolation),
   ("INSUFFICIENT_RESOURCES", insufficientResources), ("IO_TIMEOUT", ioTimeout),
   ("INTERNAL_ERROR", internalError), ("CANCELLED", cancelled)]

def ofName? (name : String) : Option Status := named.lookup name

/-- Success and informational codes have the severity bit clear. -/
def isSuccess (status : Status) : Bool := status.code < 0x80000000

def isPending (status : Status) : Bool := status == pending

def text (status : Status) : String := Text.hexWord status.code.toNat

end Status
end FileBroker
