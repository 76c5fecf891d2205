import FileBroker.Data.Value

/-! Typed fields of a table. A field that is missing, null or of another type reads as a default. -/
namespace FileBroker.Data.Value

def entry (value : Value) (key : String) : Value := (value.field? key).getD .null

def isNull : Value → Bool
  | .null => true
  | _ => false

def has (value : Value) (key : String) : Bool := !(value.entry key).isNull

def toNat : Value → Nat
  | .int n => n.toNat
  | _ => 0

def toText : Value → String
  | .text written => written
  | _ => ""

def toItems : Value → List Value
  | .list items => items
  | _ => []

def toEntries : Value → List (String × Value)
  | .table entries => entries
  | _ => []

def toFlag : Value → Bool
  | .bool set => set
  | _ => false

def nat (value : Value) (key : String) : Nat := (value.entry key).toNat

def natOr (value : Value) (key : String) (default : Nat) : Nat :=
  if value.has key then value.nat key else default

def string (value : Value) (key : String) : String := (value.entry key).toText

def stringOr (value : Value) (key default : String) : String :=
  if value.has key then value.string key else default

def flag (value : Value) (key : String) : Bool := (value.entry key).toFlag

def flagOr (value : Value) (key : String) (default : Bool) : Bool :=
  if value.has key then value.flag key else default

def items (value : Value) (key : String) : List Value := (value.entry key).toItems

def u16 (value : Value) (key : String) : UInt16 := UInt16.ofNat (value.nat key)
def u32 (value : Value) (key : String) : UInt32 := UInt32.ofNat (value.nat key)
def u64 (value : Value) (key : String) : UInt64 := UInt64.ofNat (value.nat key)

end FileBroker.Data.Value
