import FileBroker.Kind
import FileBroker.Wire.Layout
import FileBroker.Wire.Reader

/-! Headers, and stepping over the messages of a batch by their declared sizes. -/
namespace FileBroker

/-- Header fields as they stand on the wire, so that a message of unknown kind can be answered. -/
structure Header where
  revision : UInt16
  size : UInt16
  kind : UInt32
  hint : Hint
  deriving DecidableEq, Repr

namespace Header

def reader : Reader Header := do
  let revision ← Reader.u16 "header.version"
  let size ← Reader.u16 "header.size"
  let kind ← Reader.u32 "header.kind"
  let hint ← Reader.u64 "header.hint"
  return ⟨revision, size, kind, ⟨hint⟩⟩

def read (bytes : Bytes) : Except FormatError Header := reader.runOn bytes

def put (header : Header) : Bytes :=
  LittleEndian.u16 header.revision ++ LittleEndian.u16 header.size
    ++ LittleEndian.u32 header.kind ++ LittleEndian.u64 header.hint.value

def zero : Header := ⟨0, 0, 0, ⟨0⟩⟩

def kind? (header : Header) : Except FormatError Kind :=
  match Kind.ofNumber? header.kind with
  | some kind => .ok kind
  | none => .error (.unknownKind header.kind)

def expect (header : Header) (expected : Revision) : Except FormatError Unit :=
  match Revision.ofNumber? header.revision with
  | none => .error (.unsupportedRevision header.revision)
  | some found =>
    if found = expected then .ok () else .error (.revisionMismatch expected found)

end Header

/-- One message of a batch, exactly as long as its size field says. -/
structure Frame where
  direction : Direction
  bytes : Bytes
  deriving DecidableEq, Repr

namespace Frame

def size (frame : Frame) : Nat := frame.bytes.length

/-- Frames cut from a batch are long enough for their header, so the zero header never shows. -/
def header (frame : Frame) : Header :=
  match Header.read frame.bytes with
  | .ok header => header
  | .error _ => .zero

def hint (frame : Frame) : Hint := frame.header.hint

def trailing (frame : Frame) : Bytes := frame.bytes.drop frame.direction.fixedSize

def resolve (frame : Frame) (region : Region) : Except FormatError Bytes :=
  region.resolve frame.bytes frame.direction.fixedSize

/-- The size field of the message at the front of `bytes`. -/
def declaredSize? : Bytes → Option Nat
  | _ :: _ :: low :: high :: _ => some (LittleEndian.decode [low, high])
  | _ => none

/-- The size of the first message, without its padding; none if the size field is missing, is below
the fixed part, or claims more than there is once padded. -/
def firstSize? (direction : Direction) (bytes : Bytes) : Option Nat :=
  match declaredSize? bytes with
  | none => none
  | some size =>
    if size < direction.fixedSize ∨ bytes.length < Layout.alignUp size then none else some size

/-- What follows the first message is shorter than the whole. -/
theorem length_drop_lt_of_firstSize? {direction : Direction} {bytes : Bytes} {size : Nat}
    (h : firstSize? direction bytes = some size) :
    (bytes.drop (Layout.alignUp size)).length < bytes.length := by
  unfold firstSize? at h
  split at h
  · cases h
  · split at h
    · cases h
    · rename_i fits
      cases h
      have padded := Layout.le_alignUp size
      have fixed : 0 < direction.fixedSize := by cases direction <;> decide
      rw [List.length_drop]
      omega

/-- Cuts off the first message. -/
def split? (direction : Direction) (bytes : Bytes) : Option (Frame × Bytes) :=
  (firstSize? direction bytes).map fun size =>
    (⟨direction, bytes.take size⟩, bytes.drop (Layout.alignUp size))

theorem length_lt_of_split? {direction : Direction} {bytes rest : Bytes} {frame : Frame}
    (h : split? direction bytes = some (frame, rest)) : rest.length < bytes.length := by
  obtain ⟨size, first, cut⟩ := Option.map_eq_some_iff.1 h
  cases cut
  exact length_drop_lt_of_firstSize? first

/-- The message at `cursor`, with the cursor of the message after it. -/
def at? (direction : Direction) (buffer : Bytes) (cursor : Nat) : Option (Frame × Nat) :=
  (split? direction (buffer.drop cursor)).map fun (frame, _) =>
    (frame, cursor + Layout.alignUp frame.size)

end Frame
end FileBroker
