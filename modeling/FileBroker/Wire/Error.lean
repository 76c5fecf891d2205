import FileBroker.Revision

/-! What can be wrong with a message, or with the place it is to be written to. -/
namespace FileBroker

inductive FormatError where
  /-- Fewer bytes than a field needs. -/
  | truncated (field : String)
  | tooSmall (size minimum : Nat)
  | tooLarge (size maximum : Nat)
  | unsupportedRevision (number : UInt16)
  | revisionMismatch (expected found : Revision)
  | unknownKind (number : UInt32)
  /-- A region that leaves the trailing buffer of its message. -/
  | regionOutOfBounds (offset size : UInt16) (messageSize : Nat)
  | noRoom (cursor needed available : Nat)
  | invalidPayload (what : String)
  deriving DecidableEq, Repr

def FormatError.message : FormatError → String
  | .truncated field => s!"truncated message: {field}"
  | .tooSmall size minimum => s!"message size {size} below minimum {minimum}"
  | .tooLarge size maximum => s!"message size {size} exceeds maximum {maximum}"
  | .unsupportedRevision number => s!"unsupported wire version {number.toNat}"
  | .revisionMismatch expected found =>
    s!"wire version mismatch: expected {expected.label}, found {found.label}"
  | .unknownKind number => s!"unknown operation kind {number.toNat}"
  | .regionOutOfBounds offset size messageSize =>
    s!"buffer region {offset.toNat}+{size.toNat} outside message of {messageSize} bytes"
  | .noRoom cursor needed available =>
    s!"no room at cursor {cursor}: need {needed} bytes, {available} available"
  | .invalidPayload what => s!"invalid payload: {what}"

end FileBroker
