import FileBroker.Wire.Region

/-! Field-by-field reading of little-endian bytes; running out of bytes names the field. -/
namespace FileBroker

/-- Consumes bytes from the front of the input. -/
abbrev Reader := StateT Bytes (Except FormatError)

namespace Reader

def number (width : Nat) (field : String) : Reader Nat := fun bytes =>
  let word := bytes.take width
  if word.length < width then .error (.truncated field)
  else .ok (LittleEndian.decode word, bytes.drop width)

def u16 (field : String) : Reader UInt16 := return UInt16.ofNat (← number 2 field)
def u32 (field : String) : Reader UInt32 := return UInt32.ofNat (← number 4 field)
def u64 (field : String) : Reader UInt64 := return UInt64.ofNat (← number 8 field)

def region (field : String) : Reader Region := do
  let offset ← u16 field
  let size ← u16 field
  return ⟨offset, size⟩

/-- A word of flags in which only the bits of `known` may be set. -/
def flags (known : UInt32) (field : String) : Reader UInt32 := do
  let bits ← u32 field
  if bits &&& ~~~known = 0 then return bits else throw (.invalidPayload field)

def flag (field : String) : Reader Bool := return (← flags 1 field) != 0

/-- Reads a value from a fixed area and ignores what follows its last field. -/
def runOn {α : Type} (reader : Reader α) (area : Bytes) : Except FormatError α :=
  (reader.run area).map Prod.fst

end Reader

/-- The word that carries one flag. -/
def flagBit (set : Bool) (bit : UInt32) : UInt32 := if set then bit else 0

end FileBroker
