/-! Fixed-width unsigned integers as bytes, least significant byte first. -/
namespace FileBroker

abbrev Bytes := List UInt8

namespace LittleEndian

/-- The `width` low-order bytes of `n`. -/
def encode : (width : Nat) → (n : Nat) → Bytes
  | 0, _ => []
  | width + 1, n => UInt8.ofNat n :: encode width (n / 256)

def decode : Bytes → Nat
  | [] => 0
  | byte :: rest => byte.toNat + 256 * decode rest

@[simp] theorem length_encode (width n : Nat) : (encode width n).length = width := by
  induction width generalizing n with
  | zero => rfl
  | succ width ih => simp [encode, ih]

theorem decode_encode (width n : Nat) : decode (encode width n) = n % Nat.pow 256 width := by
  change decode (encode width n) = n % 256 ^ width
  induction width generalizing n with
  | zero => simp [encode, decode, Nat.mod_one]
  | succ width ih =>
    have low : (UInt8.ofNat n).toNat = n % 256 := by simp
    rw [encode, decode, ih, low, Nat.pow_succ, Nat.mul_comm (256 ^ width), Nat.mod_mul]

theorem decode_lt (bytes : Bytes) : decode bytes < Nat.pow 256 bytes.length := by
  change decode bytes < 256 ^ bytes.length
  induction bytes with
  | nil => simp [decode]
  | cons byte rest ih =>
    have high : byte.toNat < 256 := byte.toNat_lt
    rw [decode, List.length_cons, Nat.pow_succ]
    omega

theorem encode_decode (bytes : Bytes) : encode bytes.length (decode bytes) = bytes := by
  induction bytes with
  | nil => rfl
  | cons byte rest ih =>
    have high : byte.toNat < 256 := byte.toNat_lt
    have low : (byte.toNat + 256 * decode rest) / 256 = decode rest := by omega
    rw [List.length_cons, encode, decode, low, ih]
    congr 1
    apply UInt8.toNat.inj
    simp

def u16 (value : UInt16) : Bytes := encode 2 value.toNat
def u32 (value : UInt32) : Bytes := encode 4 value.toNat
def u64 (value : UInt64) : Bytes := encode 8 value.toNat

end LittleEndian
end FileBroker
