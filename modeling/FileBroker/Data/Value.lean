/-! Structured data as it is read from settings and written to reports. -/
namespace FileBroker.Data

inductive Value where
  | null
  | bool (value : Bool)
  | int (value : Int)
  | real (value : Float)
  | text (value : String)
  | list (items : List Value)
  /-- Entries keep the order in which they were written; keys are distinct. -/
  | table (entries : List (String × Value))
  deriving Inhabited, Repr

namespace Value

def ofNat (n : Nat) : Value := .int n

def ofOption {α : Type} (encode : α → Value) : Option α → Value
  | some a => encode a
  | none => .null

/-- Numbers by name. -/
def ofCounters (counters : List (String × Nat)) : Value :=
  .table (counters.map fun counter => (counter.1, .ofNat counter.2))

def keys : Value → List String
  | .table entries => entries.map Prod.fst
  | _ => []

def field? : Value → String → Option Value
  | .table entries, key => entries.lookup key
  | _, _ => none

end Value
end FileBroker.Data
