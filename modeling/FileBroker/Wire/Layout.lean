import FileBroker.Wire.LittleEndian

/-!
Sizes of the parts of a message. A message is a fixed part followed by a trailing buffer; in a
batch every message starts on an eight-byte boundary.
-/
namespace FileBroker

/-- What numbers come to together. The zero of the sum is spelled out, so that it is the same one
wherever natural numbers are known to have more than one. -/
abbrev total (numbers : List Nat) : Nat := @List.sum Nat _ Zero.ofOfNat0 numbers

inductive Direction where
  | request
  | response
  deriving DecidableEq, Repr

namespace Layout

def alignment : Nat := 8
def headerSize : Nat := 16
def requestFieldsSize : Nat := 64
def ioStatusSize : Nat := 16
def responseFieldsSize : Nat := 88

/-- Bytes exchanged per direction when many messages travel together. -/
def batchSize : Nat := 64 * 1024

def alignUp (size : Nat) : Nat := (size + 7) / 8 * 8

/-- Zeros up to the next boundary. -/
def pad (message : Bytes) : Bytes :=
  message ++ List.replicate (alignUp message.length - message.length) 0

/-- Whether `size` more bytes fit at `cursor`. -/
def fits (room cursor size : Nat) : Bool := cursor + size ≤ room

theorem le_alignUp (size : Nat) : size ≤ alignUp size := by unfold alignUp; omega

theorem dvd_alignUp (size : Nat) : 8 ∣ alignUp size := ⟨(size + 7) / 8, by unfold alignUp; omega⟩

theorem alignUp_of_dvd {size : Nat} (h : 8 ∣ size) : alignUp size = size := by
  unfold alignUp; omega

@[simp] theorem length_pad (message : Bytes) : (pad message).length = alignUp message.length := by
  have := le_alignUp message.length
  simp [pad]
  omega

end Layout

/-- Where the trailing buffer starts. -/
def Direction.fixedSize : Direction → Nat
  | .request => Layout.headerSize + Layout.requestFieldsSize
  | .response => Layout.headerSize + Layout.ioStatusSize + Layout.responseFieldsSize

end FileBroker
