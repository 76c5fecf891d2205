import FileBroker.Data.Decimal
import FileBroker.Data.Entry
import FileBroker.Data.Fields
import FileBroker.Data.Scanner
import FileBroker.Word

/-!
Putting settings over others. The name of a setting may lead into tables by dots and into lists by
indices, and the case of letters does not count.
-/
namespace FileBroker.Settings

open Data

/-! ### Paths -/

/-- One step of the way to a value. -/
inductive Step where
  | key (name : String)
  /-- An item by its index, counted from the end if it is negative. -/
  | item (index : Int)
  deriving DecidableEq, Repr

namespace Step

open Scanner

def isKeyPart (c : Char) : Bool := c.isAlphanum || c == ' ' || c == '_' || c == '-'

def ofKey : Scanner Step := do
  let name ← takeWhile isKeyPart
  if name.isEmpty then failure else return .key (Text.lower (String.ofList name))

def skipBlanks : Scanner Unit := do
  let _ ← takeWhile fun c => c == ' ' || c == '\t'

/-- The rest of an index in brackets. -/
def ofItem : Scanner Step := do
  skipBlanks
  let negative ← accept "-"
  let digits ← takeWhile Char.isDigit
  if digits.isEmpty then failure
  let size : Int := Decimal.digitsValue digits
  let index := if negative then -size else size
  if !Word.isSigned index then failure
  skipBlanks
  expect "]"
  return .item index

/-- A further step, if there is one. -/
def further : Scanner (Option Step) := do
  if ← accept "." then some <$> ofKey
  else if ← accept "[" then some <$> ofItem
  else return none

def path : Scanner (List Step) := return (← ofKey) :: (← many further)

/-- The way that a name describes; a name that describes none is a single key. -/
def ofName (name : String) : List Step :=
  (whole? path name).getD [.key (Text.lower name)]

end Step

/-! ### Overlays -/

mutual

/-- A value put over another: tables take each other in, so that an empty one changes nothing, and
everything else replaces what it is put over. -/
def overlay (under : Value) : Value → Value
  | .table entries => overlayAll under entries
  | value => value

def overlayAll (under : Value) : List (String × Value) → Value
  | [] => under
  | (key, value) :: rest =>
    let entries := under.toEntries
    let key := Text.lower key
    let inner := (entries.lookup key).getD .null
    overlayAll (.table (put entries key (overlay inner value))) rest

end

/-- Puts a value at the end of a way, which is made where it is missing. -/
def place (value : Value) : List Step → Value → Value
  | [], under => overlay under value
  | .key name :: rest, under =>
    let entries := under.toEntries
    .table (put entries name (place value rest ((entries.lookup name).getD .null)))
  | .item index :: rest, under =>
    let items := under.toItems
    let position := if 0 ≤ index then index.toNat else items.length - index.natAbs
    let filled := items ++ List.replicate (position + 1 - items.length) .null
    .list (filled.set position (place value rest (filled.getD position .null)))

/-- Settings by name, as one source gives them. -/
abbrev Layer := List (String × Value)

/-- Puts the settings of a source over a table, one after the other. -/
def Layer.putOver (layer : Layer) (under : Value) : Value :=
  layer.foldl (fun table (name, value) => place value (Step.ofName name) table) under

theorem Layer.putOver_nil (under : Value) : Layer.putOver [] under = under := rfl

theorem Layer.putOver_append (first second : Layer) (under : Value) :
    Layer.putOver (first ++ second) under = Layer.putOver second (Layer.putOver first under) := by
  simp [Layer.putOver]

/-- Of two values for one plain setting, the last counts. -/
theorem lookup_place_key (name other : String) (value under : Value) :
    (place value [.key name] under).toEntries.lookup other =
      if other = name then some (overlay ((under.toEntries.lookup name).getD .null) value)
      else under.toEntries.lookup other := by
  simp only [place, Value.toEntries]
  exact lookup_put ..

end FileBroker.Settings
