import FileBroker.Data.Decimal
import FileBroker.Data.Entry
import FileBroker.Data.Value
import FileBroker.Text
import FileBroker.Word

/-! Nodes of YAML documents, and what plain scalars stand for. -/
namespace FileBroker.Data.Yaml

inductive Node where
  | null
  | bool (value : Bool)
  | int (value : Int)
  /-- A real number as it is written. -/
  | real (written : String)
  | text (value : String)
  | list (items : List Node)
  | table (entries : List (Node × Node))
  deriving Inhabited, Repr

/-- A tag, whose handle has been replaced by what it stands for. -/
structure Tag where
  start : String
  suffix : String
  deriving DecidableEq, Repr

namespace Node

mutual

/-- Equality of nodes as keys of a table. -/
def same : Node → Node → Bool
  | .null, .null => true
  | .bool a, .bool b => a == b
  | .int a, .int b => a == b
  | .real a, .real b => a == b
  | .text a, .text b => a == b
  | .list a, .list b => sameItems a b
  | .table a, .table b => sameEntries a b
  | _, _ => false

def sameItems : List Node → List Node → Bool
  | [], [] => true
  | a :: restA, b :: restB => same a b && sameItems restA restB
  | _, _ => false

def sameEntries : List (Node × Node) → List (Node × Node) → Bool
  | [], [] => true
  | (keyA, a) :: restA, (keyB, b) :: restB => same keyA keyB && same a b && sameEntries restA restB
  | _, _ => false

end

/-! ### Scalars -/

def isReal (written : String) : Bool :=
  [".inf", ".Inf", ".INF", "+.inf", "+.Inf", "+.INF", "-.inf", "-.Inf", "-.INF",
    ".nan", "NaN", ".NaN", ".NAN"].contains written || (Decimal.real? written.toList).isSome

/-- A whole number in 64 bits, with at most one sign. -/
def whole? (written : List Char) : Option Int := do
  let n ← Decimal.integer? written
  if Word.isSigned n then some n else none

/-- A whole number with a mark in front: of its base, or a plus sign. -/
def marked? : List Char → Option Int
  | '0' :: 'x' :: digits => inBase? 16 digits
  | '0' :: 'o' :: digits => inBase? 8 digits
  | '+' :: digits => whole? digits
  | _ => none
where
  inBase? (base : Nat) (written : List Char) : Option Int := do
    let (negative, digits) := Decimal.splitSign written
    let values ← digits.mapM Text.hexDigit?
    if values.isEmpty || !values.all (· < base) then none
    else
      let size : Int := (values.foldl (fun n digit => base * n + digit) 0 : Nat)
      let n := if negative then -size else size
      if Word.isSigned n then some n else none

/-- What a plain scalar stands for. -/
def ofPlain (written : String) : Node :=
  match marked? written.toList with
  | some n => .int n
  | none =>
    match written with
    | "" | "~" | "null" => .null
    | "true" => .bool true
    | "false" => .bool false
    | _ => match whole? written.toList with
      | some n => .int n
      | none => if isReal written then .real written else .text written

/-- What a plain scalar with a tag stands for; one that does not fit its tag stands for nothing. -/
def ofTagged (tag : Tag) (written : String) : Node :=
  if tag.start != "tag:yaml.org,2002:" then .text written
  else match tag.suffix with
  | "bool" => match written with
    | "true" => .bool true
    | "false" => .bool false
    | _ => .null
  | "int" => match whole? written.toList with
    | some n => .int n
    | none => .null
  | "float" => if isReal written then .real written else .null
  | "null" => .null
  | _ => .text written

/-- A scalar stands for its text unless it is plain. -/
def ofScalar (isPlain : Bool) (tag : Option Tag) (written : String) : Node :=
  match isPlain, tag with
  | false, _ => .text written
  | true, none => ofPlain written
  | true, some tag => ofTagged tag written

/-- Adds an entry, unless its key is there. -/
def add? (entries : List (Node × Node)) (key value : Node) : Option (List (Node × Node)) :=
  if entries.any fun entry => same entry.1 key then none else some (entries ++ [(key, value)])

/-! ### Values -/

/-- The key that a node is, if it is one. -/
def key? : Node → Option String
  | .text written => some written
  | .int n => some (toString n)
  | _ => none

mutual

/-- The value of a node. Numbers that only this notation can write have none, and entries are left
out if their keys are neither text nor whole numbers. -/
def toValue? : Node → Option Value
  | .null => some .null
  | .bool value => some (.bool value)
  | .int n => some (.int n)
  | .real written => (Decimal.real? written.toList).map .real
  | .text written => some (.text written)
  | .list items => (toItems? items).map .list
  | .table entries => (toEntries? entries []).map .table

def toItems? : List Node → Option (List Value)
  | [] => some []
  | item :: rest => do return (← toValue? item) :: (← toItems? rest)

def toEntries? : List (Node × Node) → List (String × Value) → Option (List (String × Value))
  | [], read => some read
  | (key, value) :: rest, read =>
    match key? key with
    | some key => do toEntries? rest (put read key (← toValue? value))
    | none => toEntries? rest read

end

end Node
end FileBroker.Data.Yaml
