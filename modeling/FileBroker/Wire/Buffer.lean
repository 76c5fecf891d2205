import FileBroker.Wire.LittleEndian

/-!
Buffers: bytes whose number is settled when the buffer is made. Writing replaces bytes and moves
none, so that their number is kept beside them and never counted again.
-/
namespace FileBroker

/-- Replaces what stands from `cursor` on; bytes past the end are appended. -/
def Bytes.overwrite (old : Bytes) (cursor : Nat) (bytes : Bytes) : Bytes :=
  old.take cursor ++ bytes ++ old.drop (cursor + bytes.length)

theorem Bytes.length_overwrite {old bytes : Bytes} {cursor : Nat}
    (fits : cursor + bytes.length ≤ old.length) :
    (Bytes.overwrite old cursor bytes).length = old.length := by
  simp only [Bytes.overwrite, List.length_append, List.length_take, List.length_drop]
  omega

structure Buffer where
  bytes : Bytes
  size : Nat
  size_eq : size = bytes.length
  deriving DecidableEq, Repr

namespace Buffer

def ofBytes (bytes : Bytes) : Buffer := ⟨bytes, bytes.length, rfl⟩

def filled (size : Nat) (byte : UInt8) : Buffer :=
  ⟨List.replicate size byte, size, List.length_replicate.symm⟩

def empty : Buffer := .ofBytes []

def isEmpty (buffer : Buffer) : Bool := buffer.size == 0

/-- The first bytes. -/
def front (buffer : Buffer) (count : Nat) : Bytes := buffer.bytes.take count

/-- Writes inside the buffer. -/
def overwrite (buffer : Buffer) (cursor : Nat) (bytes : Bytes)
    (fits : cursor + bytes.length ≤ buffer.size) : Buffer where
  bytes := Bytes.overwrite buffer.bytes cursor bytes
  size := buffer.size
  size_eq := by rw [Bytes.length_overwrite (buffer.size_eq ▸ fits), buffer.size_eq]

@[ext] theorem ext {left right : Buffer} (same : left.bytes = right.bytes) : left = right := by
  obtain ⟨_, _, rfl⟩ := left
  obtain ⟨_, _, rfl⟩ := right
  cases same
  rfl

@[simp] theorem size_ofBytes (bytes : Bytes) : (ofBytes bytes).size = bytes.length := rfl

@[simp] theorem size_overwrite (buffer : Buffer) (cursor : Nat) (bytes : Bytes)
    (fits : cursor + bytes.length ≤ buffer.size) :
    (buffer.overwrite cursor bytes fits).size = buffer.size := rfl

end Buffer
end FileBroker
