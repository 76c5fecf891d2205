import FileBroker.Text

/-! Reading text from its front. A scanner takes some characters off, or fails. -/
namespace FileBroker.Data

abbrev Scanner := StateT (List Char) Option

namespace Scanner

def peek : Scanner (Option Char) := return (← get).head?

/-- Whether the text goes on with `front`. -/
def sees (front : String) : Scanner Bool := return front.toList.isPrefixOf (← get)

/-- Takes `front` off, if the text goes on with it. -/
def accept (front : String) : Scanner Bool := do
  let seen ← sees front
  if seen then modify fun input => input.drop front.length
  return seen

/-- Takes off the first of the given texts that the text goes on with. -/
def acceptAny : List String → Scanner Bool
  | [] => return false
  | front :: others => do
    if ← accept front then return true
    else acceptAny others

def expect (front : String) : Scanner Unit := do
  if !(← accept front) then failure

def next : Scanner Char := do
  match ← get with
  | c :: rest => set rest; return c
  | [] => failure

/-- Takes characters off while they satisfy `p`. -/
def takeWhile (p : Char → Bool) : Scanner (List Char) :=
  modifyGet fun input => (input.takeWhile p, input.dropWhile p)

/-- Takes off exactly `count` characters, all of which satisfy `p`. -/
def takeExactly (count : Nat) (p : Char → Bool) : Scanner (List Char) := do
  let input ← get
  let front := input.take count
  if front.length = count ∧ front.all p then
    set (input.drop count)
    return front
  else failure

/-- Reads items until there is none; `fuel` bounds their number. -/
def repeated {α : Type} (item : Scanner (Option α)) : (fuel : Nat) → Scanner (List α)
  | 0 => failure
  | fuel + 1 => do
    match ← item with
    | some first => return first :: (← repeated item fuel)
    | none => return []

/-- Reads items, each of which takes something off, until there is none. -/
def many {α : Type} (item : Scanner (Option α)) : Scanner (List α) := do
  repeated item ((← get).length + 1)

/-- A character by its number, in so many hexadecimal digits. -/
def numberedChar (digits : Nat) : Scanner Char := do
  let digits ← takeExactly digits fun c => (Text.hexDigit? c).isSome
  match (Text.hexNumber? digits).bind Text.numbered? with
  | some c => return c
  | none => failure

/-- Takes nothing off when the scanner fails. -/
def attempt {α : Type} (scanner : Scanner α) : Scanner (Option α) := fun input =>
  match scanner input with
  | some (a, rest) => some (some a, rest)
  | none => some (none, input)

/-- Reads a text to its end. -/
def whole? {α : Type} (scanner : Scanner α) (text : String) : Option α :=
  match scanner text.toList with
  | some (a, []) => some a
  | _ => none

end Scanner
end FileBroker.Data
