import FileBroker.Proofs.Wire.Checks
import FileBroker.Wire.Reader

/-! Readers against the bytes they were written for. -/
namespace FileBroker

/-- In front of any rest, the reader takes exactly these bytes and makes the value of them. -/
def Reads {α : Type} (reader : Reader α) (bytes : Bytes) (value : α) : Prop :=
  ∀ rest, reader.run (bytes ++ rest) = .ok (value, rest)

namespace Reads

variable {α β : Type} {reader : Reader α} {next : α → Reader β} {bytes more : Bytes} {value : α}
  {result : β}

theorem pure (value : α) : Reads (pure value : Reader α) [] value := fun _ => rfl

theorem bind (first : Reads reader bytes value) (second : Reads (next value) more result) :
    Reads (reader >>= next) (bytes ++ more) result := by
  intro rest
  have start := first (more ++ rest)
  rw [StateT.run_bind, List.append_assoc, start]
  exact second rest

/-- The last field of a record. -/
theorem finish (first : Reads reader bytes value) (second : Reads (next value) [] result) :
    Reads (reader >>= next) bytes result := by
  have whole := bind first second
  rwa [List.append_nil] at whole

theorem map (reads : Reads reader bytes value) (make : α → β) :
    Reads (reader >>= fun found => Pure.pure (make found)) bytes (make value) := by
  refine reads.finish ?_
  exact pure (make value)

theorem runOn (reads : Reads reader bytes value) (rest : Bytes) :
    reader.runOn (bytes ++ rest) = .ok value := by
  rw [Reader.runOn, reads rest]
  rfl

theorem number (width n : Nat) (field : String) :
    Reads (Reader.number width field) (LittleEndian.encode width n) (n % Nat.pow 256 width) := by
  intro rest
  have length := LittleEndian.length_encode width n
  have front : (LittleEndian.encode width n ++ rest).take width = LittleEndian.encode width n := by
    rw [List.take_append_of_le_length (by omega), List.take_of_length_le (by omega)]
  have back : (LittleEndian.encode width n ++ rest).drop width = rest := by
    rw [List.drop_append_of_le_length (by omega), List.drop_of_length_le (by omega),
      List.nil_append]
  have value := LittleEndian.decode_encode width n
  change Reader.number width field (LittleEndian.encode width n ++ rest) = _
  unfold Reader.number
  dsimp only
  rw [front, back, length, if_neg (Nat.lt_irrefl width), value]

theorem u16 (field : String) (word : UInt16) :
    Reads (Reader.u16 field) (LittleEndian.u16 word) word := by
  have read := number 2 word.toNat field
  have small : word.toNat < Nat.pow 256 2 := word.toNat_lt
  rw [Nat.mod_eq_of_lt small] at read
  have whole := read.map UInt16.ofNat
  rwa [UInt16.ofNat_toNat] at whole

theorem u32 (field : String) (word : UInt32) :
    Reads (Reader.u32 field) (LittleEndian.u32 word) word := by
  have read := number 4 word.toNat field
  have small : word.toNat < Nat.pow 256 4 := word.toNat_lt
  rw [Nat.mod_eq_of_lt small] at read
  have whole := read.map UInt32.ofNat
  rwa [UInt32.ofNat_toNat] at whole

theorem u64 (field : String) (word : UInt64) :
    Reads (Reader.u64 field) (LittleEndian.u64 word) word := by
  have read := number 8 word.toNat field
  have small : word.toNat < Nat.pow 256 8 := word.toNat_lt
  rw [Nat.mod_eq_of_lt small] at read
  have whole := read.map UInt64.ofNat
  rwa [UInt64.ofNat_toNat] at whole

theorem region (field : String) (region : Region) :
    Reads (Reader.region field) region.put region :=
  (u16 field region.offset).bind ((u16 field region.size).finish (pure _))

theorem flags {known bits : UInt32} (allowed : bits &&& ~~~known = 0) (field : String) :
    Reads (Reader.flags known field) (LittleEndian.u32 bits) bits := by
  refine (u32 field bits).finish ?_
  rw [if_pos allowed]
  exact pure bits

theorem flag (field : String) (set : Bool) :
    Reads (Reader.flag field) (LittleEndian.u32 (flagBit set 1)) set := by
  have allowed : flagBit set 1 &&& ~~~1 = 0 := by cases set <;> decide
  have meaning : (flagBit set 1 != 0) = set := by cases set <;> decide
  have whole := (flags allowed field).map fun bits => bits != 0
  rwa [meaning] at whole

end Reads
end FileBroker
