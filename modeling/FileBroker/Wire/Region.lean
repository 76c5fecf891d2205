import FileBroker.Wire.Error
import FileBroker.Wire.LittleEndian

/-!
Regions locate a variable-length field. Their offsets count from the start of the message, never
from its trailing buffer. An empty region is valid whatever its offset says.
-/
namespace FileBroker

structure Region where
  offset : UInt16
  size : UInt16
  deriving DecidableEq, Repr, Inhabited

namespace Region

def empty : Region := ⟨0, 0⟩

def isEmpty (region : Region) : Bool := region.size == 0

/-- One past the last byte. -/
def stop (region : Region) : Nat := region.offset.toNat + region.size.toNat

def outside (region : Region) (messageSize : Nat) : FormatError :=
  .regionOutOfBounds region.offset region.size messageSize

/-- The bytes of a region in a trailing buffer that is held apart from its fixed part. -/
def resolveTrailing (region : Region) (trailing : Bytes) (start : Nat) :
    Except FormatError Bytes :=
  if region.size = 0 then .ok []
  else
    let messageSize := start + trailing.length
    if region.offset.toNat < start then .error (region.outside messageSize)
    else
      let first := region.offset.toNat - start
      if first + region.size.toNat ≤ trailing.length then
        .ok ((trailing.drop first).take region.size.toNat)
      else .error (region.outside messageSize)

/-- The bytes of a region in a whole message whose trailing buffer begins at `start`. -/
def resolve (region : Region) (message : Bytes) (start : Nat) : Except FormatError Bytes :=
  region.resolveTrailing (message.drop start) start

/-- Bounds alone, for a message of `messageSize` bytes. -/
def check (region : Region) (messageSize start : Nat) : Except FormatError Unit :=
  if region.size = 0 then .ok ()
  else if region.offset.toNat < start ∨ messageSize < region.stop then
    .error (region.outside messageSize)
  else .ok ()

def put (region : Region) : Bytes := LittleEndian.u16 region.offset ++ LittleEndian.u16 region.size

end Region
end FileBroker
