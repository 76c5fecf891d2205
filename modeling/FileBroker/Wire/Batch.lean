import FileBroker.Wire.Buffer
import FileBroker.Wire.Frame
import FileBroker.Word

/-! Batches: the messages framed in a buffer, and writing further messages into it. -/
namespace FileBroker.Batch

/-- Every message of a batch, up to the first position that holds none. -/
def frames (direction : Direction) (bytes : Bytes) : List Frame :=
  match _h : Frame.split? direction bytes with
  | none => []
  | some (frame, rest) => frame :: frames direction rest
termination_by bytes.length
decreasing_by exact Frame.length_lt_of_split? ‹_›

/-- How many messages a batch holds, none of which has to be cut out. -/
def count (direction : Direction) (bytes : Bytes) : Nat :=
  match _h : Frame.firstSize? direction bytes with
  | none => 0
  | some size => count direction (bytes.drop (Layout.alignUp size)) + 1
termination_by bytes.length
decreasing_by exact Frame.length_drop_lt_of_firstSize? ‹_›

theorem frames_of_split?_eq_none {direction : Direction} {bytes : Bytes}
    (h : Frame.split? direction bytes = none) : frames direction bytes = [] := by
  rw [frames]
  split <;> simp_all

theorem frames_of_split?_eq_some {direction : Direction} {bytes rest : Bytes} {frame : Frame}
    (h : Frame.split? direction bytes = some (frame, rest)) :
    frames direction bytes = frame :: frames direction rest := by
  rw [frames]
  split <;> simp_all

theorem length_frames (direction : Direction) (bytes : Bytes) :
    (frames direction bytes).length = count direction bytes := by
  fun_induction count direction bytes with
  | case1 bytes first =>
    rw [frames_of_split?_eq_none (by simp [Frame.split?, first]), List.length_nil]
  | case2 bytes size first ih =>
    rw [frames_of_split?_eq_some (by rw [Frame.split?, first, Option.map_some]),
      List.length_cons, ih]

/-- Where reading stops: one past the padding of the last message. -/
def readTo (direction : Direction) (bytes : Bytes) : Nat :=
  total ((frames direction bytes).map fun frame => Layout.alignUp frame.size)

/-- Where a message of `size` bytes at `cursor` would end, if it may be written there. -/
def reserve (room cursor size limit : Nat) : Except FormatError Nat :=
  if limit < size then .error (.tooLarge size limit)
  else
    let needed := Layout.alignUp size
    if cursor + needed ≤ room then .ok (cursor + needed)
    else .error (.noRoom cursor needed (room - cursor))

theorem reserve_eq_ok {room cursor size limit next : Nat}
    (h : reserve room cursor size limit = .ok next) :
    next = cursor + Layout.alignUp size ∧ next ≤ room := by
  unfold reserve at h
  split at h
  · cases h
  · dsimp only at h
    split at h
    · cases h
      exact ⟨rfl, ‹_›⟩
    · cases h

/-- Writes a message and its padding at `cursor`; the result holds the next cursor. -/
def write (buffer : Buffer) (cursor : Nat) (message : Bytes) (limit : Nat) :
    Except FormatError (Nat × Buffer) :=
  match h : reserve buffer.size cursor message.length limit with
  | .error error => .error error
  | .ok next =>
    .ok (next, buffer.overwrite cursor (Layout.pad message) (by
      rw [Layout.length_pad, ← (reserve_eq_ok h).1]
      exact (reserve_eq_ok h).2))

/-- No bound but the word size: for messages that were bounded when they were encoded. -/
def unbounded : Nat := Word.limit - 1

def writeEncoded (buffer : Buffer) (cursor : Nat) (encoded : Bytes) :
    Except FormatError (Nat × Buffer) :=
  write buffer cursor encoded unbounded

/-- A buffer that is filled front to back. -/
structure Writer where
  buffer : Buffer
  cursor : Nat
  deriving DecidableEq, Repr

namespace Writer

def ofBuffer (buffer : Buffer) : Writer := ⟨buffer, 0⟩

def isEmpty (writer : Writer) : Bool := writer.cursor == 0

def remaining (writer : Writer) : Nat := writer.buffer.size - writer.cursor

def fits (writer : Writer) (size : Nat) : Bool :=
  Layout.fits writer.buffer.size writer.cursor size

def written (writer : Writer) : Bytes := writer.buffer.front writer.cursor

/-- A message that does not fit leaves the writer as it was. -/
def push (writer : Writer) (message : Bytes) (limit : Nat) : Except FormatError Writer := do
  let (next, buffer) ← write writer.buffer writer.cursor message limit
  return ⟨buffer, next⟩

def pushEncoded (writer : Writer) (encoded : Bytes) : Except FormatError Writer :=
  writer.push encoded unbounded

end Writer
end FileBroker.Batch
