import FileBroker.Data.Value
import FileBroker.Text
import FileBroker.Wire.LittleEndian

/-! Byte strings in descriptions: all of a short one, the ends and a checksum of a long one. -/
namespace FileBroker.Describe

open Data

/-- Longest byte string that is written out. -/
def longestShown : Nat := 320

def hexText (bytes : Bytes) : String :=
  String.ofList (bytes.flatMap fun byte => Text.hexPadded 2 byte.toNat)

/-- The bytes that pairs of hexadecimal digits stand for. -/
def ofHex : List Char → Bytes
  | high :: low :: rest =>
    UInt8.ofNat ((Text.hexDigit? high).getD 0 * 16 + (Text.hexDigit? low).getD 0) :: ofHex rest
  | _ => []

/-- The 64-bit FNV-1a hash. -/
def checksum (bytes : Bytes) : UInt64 :=
  bytes.foldl (fun hash byte => (hash ^^^ byte.toUInt64) * 0x100000001b3) 0xcbf29ce484222325

def bytes (bytes : Bytes) : Value :=
  if bytes.length ≤ longestShown then .text (hexText bytes)
  else .table
    [("len", .ofNat bytes.length),
     ("head", .text (hexText (bytes.take 16))),
     ("tail", .text (hexText (bytes.drop (bytes.length - 16)))),
     ("fnv1a64", .text (String.ofList (Text.hexPadded 16 (checksum bytes).toNat)))]

end FileBroker.Describe
