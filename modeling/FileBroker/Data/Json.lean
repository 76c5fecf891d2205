import FileBroker.Data.Decimal
import FileBroker.Data.Entry
import FileBroker.Data.Value
import FileBroker.Text
import FileBroker.Word

/-!
Reading and writing JSON. Whole numbers of at most 64 bits are integers, and every other number is
real and has to be finite; a repeated key keeps its last value.
-/
namespace FileBroker.Data.Json

def isBlank (c : Char) : Bool := c == ' ' || c == '\n' || c == '\t' || c == '\r'

def skip (input : List Char) : List Char := input.dropWhile isBlank

/-! ### Numbers -/

/-- Whole numbers that keep their exact value: those of a signed or unsigned 64-bit word. -/
def isWord (n : Int) : Bool := Word.isSigned n || decide (0 ≤ n ∧ n < Word.limit)

/-- The number that digits write, as far as it fits a word, and how many digits that takes. -/
def significant (number taken : Nat) : List Char → Nat × Nat
  | [] => (number, taken)
  | c :: rest =>
    let longer := 10 * number + Decimal.digitValue c
    if longer < Word.limit then significant longer (taken + 1) rest else (number, taken)

/-- A real number of as many digits as fit a word; it may miss the nearest by a little. -/
def real? (negative : Bool) (whole places : List Char) (power : Int) : Option Value := do
  let (number, taken) := significant 0 0 whole
  let skipped := whole.length - taken
  let (number, used) := significant number 0 places
  let size ← Decimal.scaled? 4 (Decimal.ofDigits false number 0) (power + skipped - used)
  return .real (if negative then -size else size)

def number? (input : List Char) : Option (Value × List Char) := do
  let (negative, input) := match input with
    | '-' :: rest => (true, rest)
    | _ => (false, input)
  let whole := input.takeWhile Char.isDigit
  let rest := input.dropWhile Char.isDigit
  if whole.isEmpty || (whole.length > 1 && whole.head? == some '0') then none
  let (fraction, rest, hasFraction) := match rest with
    | '.' :: tail => (tail.takeWhile Char.isDigit, tail.dropWhile Char.isDigit, true)
    | _ => ([], rest, false)
  if hasFraction && fraction.isEmpty then none
  let marked := match rest with
    | c :: _ => c == 'e' || c == 'E'
    | [] => false
  let (exponent, rest) ←
    if marked then
      let tail := rest.drop 1
      let (down, tail) := match tail with
        | '-' :: t => (true, t)
        | '+' :: t => (false, t)
        | _ => (false, tail)
      let power := tail.takeWhile Char.isDigit
      if power.isEmpty then none
      else
        let size : Int := Decimal.digitsValue power
        some (if down then -size else size, tail.dropWhile Char.isDigit)
    else some (0, rest)
  let digits := Decimal.digitsValue whole
  let signed : Int := if negative then -digits else digits
  if !hasFraction && !marked && isWord signed && !(negative && digits == 0) then
    return (.int signed, rest)
  else return (← real? negative whole fraction exponent, rest)

/-! ### Strings -/

def unit? : List Char → Option (Nat × List Char)
  | a :: b :: c :: d :: rest => (Text.hexNumber? [a, b, c, d]).map fun number => (number, rest)
  | _ => none

/-- The character of an escape `\uXXXX`, which takes two escapes above the basic plane. -/
def escapedChar? (input : List Char) : Option (Char × List Char) := do
  let (high, rest) ← unit? input
  if high < 0xD800 || 0xDFFF < high then return (Char.ofNat high, rest)
  else if 0xDC00 ≤ high then none
  else match rest with
    | '\\' :: 'u' :: tail => do
      let (low, rest) ← unit? tail
      if 0xDC00 ≤ low && low ≤ 0xDFFF then
        return (Char.ofNat (0x10000 + (high - 0xD800) * 0x400 + (low - 0xDC00)), rest)
      else none
    | _ => none

/-- The rest of a string after its opening quote; `fuel` bounds the characters read. -/
def string? : (fuel : Nat) → (read : List Char) → List Char → Option (String × List Char)
  | 0, _, _ => none
  | fuel + 1, read, input =>
    match input with
    | '"' :: rest => some (String.ofList read.reverse, rest)
    | '\\' :: 'u' :: rest =>
      match escapedChar? rest with
      | some (c, rest) => string? fuel (c :: read) rest
      | none => none
    | '\\' :: c :: rest =>
      match c with
      | '"' => string? fuel ('"' :: read) rest
      | '\\' => string? fuel ('\\' :: read) rest
      | '/' => string? fuel ('/' :: read) rest
      | 'b' => string? fuel ('\x08' :: read) rest
      | 'f' => string? fuel ('\x0c' :: read) rest
      | 'n' => string? fuel ('\n' :: read) rest
      | 'r' => string? fuel ('\r' :: read) rest
      | 't' => string? fuel ('\t' :: read) rest
      | _ => none
    | c :: rest => if c.toNat < 0x20 then none else string? fuel (c :: read) rest
    | [] => none

/-! ### Values -/

/-- So many lists and tables may stand one in the other. -/
def depthLimit : Nat := 127

mutual

/-- A value in which lists and tables stand at most `depth` deep; `fuel` bounds the steps. -/
def value? : (fuel depth : Nat) → List Char → Option (Value × List Char)
  | 0, _, _ => none
  | fuel + 1, depth, input =>
    match skip input, depth with
    | 'n' :: 'u' :: 'l' :: 'l' :: rest, _ => some (.null, rest)
    | 't' :: 'r' :: 'u' :: 'e' :: rest, _ => some (.bool true, rest)
    | 'f' :: 'a' :: 'l' :: 's' :: 'e' :: rest, _ => some (.bool false, rest)
    | '"' :: rest, _ =>
      (string? (rest.length + 1) [] rest).map fun (text, rest) => (.text text, rest)
    | '[' :: rest, depth + 1 =>
      match skip rest with
      | ']' :: rest => some (.list [], rest)
      | _ => items? fuel depth [] rest
    | '\x7b' :: rest, depth + 1 =>
      match skip rest with
      | '\x7d' :: rest => some (.table [], rest)
      | _ => entries? fuel depth [] rest
    | other, _ => number? other

def items? : (fuel depth : Nat) → (read : List Value) → List Char → Option (Value × List Char)
  | 0, _, _, _ => none
  | fuel + 1, depth, read, input =>
    match value? fuel depth input with
    | none => none
    | some (item, rest) =>
      match skip rest with
      | ',' :: rest => items? fuel depth (item :: read) rest
      | ']' :: rest => some (.list (item :: read).reverse, rest)
      | _ => none

def entries? : (fuel depth : Nat) → (read : List (String × Value)) → List Char →
    Option (Value × List Char)
  | 0, _, _, _ => none
  | fuel + 1, depth, read, input =>
    match skip input with
    | '"' :: rest =>
      match string? (rest.length + 1) [] rest with
      | none => none
      | some (key, rest) =>
        match skip rest with
        | ':' :: rest =>
          match value? fuel depth rest with
          | none => none
          | some (value, rest) =>
            match skip rest with
            | ',' :: rest => entries? fuel depth (put read key value) rest
            | '\x7d' :: rest => some (.table (put read key value), rest)
            | _ => none
        | _ => none
    | _ => none

end

/-- A whole document: one value with nothing but blanks around it. -/
def read? (text : String) : Option Value :=
  let input := text.toList
  match value? (input.length + 1) depthLimit input with
  | some (value, rest) => if (skip rest).isEmpty then some value else none
  | none => none

/-! ### Writing -/

def escape (c : Char) : List Char :=
  if c == '"' then ['\\', '"']
  else if c == '\\' then ['\\', '\\']
  else if c == '\x08' then ['\\', 'b']
  else if c == '\x0c' then ['\\', 'f']
  else if c == '\n' then ['\\', 'n']
  else if c == '\r' then ['\\', 'r']
  else if c == '\t' then ['\\', 't']
  else if c.toNat < 0x20 then '\\' :: 'u' :: Text.hexPadded 4 c.toNat
  else [c]

def quote (text : String) : String :=
  String.ofList ('"' :: text.toList.flatMap escape ++ ['"'])

mutual

/-- One line without blanks. -/
def compact : Value → String
  | .null => "null"
  | .bool value => if value then "true" else "false"
  | .int value => toString value
  | .real value => Decimal.text value
  | .text value => quote value
  | .list items => "[" ++ ",".intercalate (compactItems items) ++ "]"
  | .table entries => "\x7b" ++ ",".intercalate (compactEntries entries) ++ "\x7d"

def compactItems : List Value → List String
  | [] => []
  | item :: rest => compact item :: compactItems rest

def compactEntries : List (String × Value) → List String
  | [] => []
  | (key, value) :: rest => (quote key ++ ":" ++ compact value) :: compactEntries rest

end

def indent (depth : Nat) : String := "".pushn ' ' (2 * depth)

/-- Puts each part on a line of its own between brackets; nothing but brackets if there is none. -/
def block (depth : Nat) (opening closing : String) (parts : List String) : String :=
  if parts.isEmpty then opening ++ closing
  else
    let lines := parts.map fun part => indent (depth + 1) ++ part
    opening ++ "\n" ++ ",\n".intercalate lines ++ "\n" ++ indent depth ++ closing

mutual

/-- Indented by two blanks a level. -/
def pretty (depth : Nat) : Value → String
  | .list items => block depth "[" "]" (prettyItems depth items)
  | .table entries => block depth "\x7b" "\x7d" (prettyEntries depth entries)
  | .null => "null"
  | .bool value => if value then "true" else "false"
  | .int value => toString value
  | .real value => Decimal.text value
  | .text value => quote value

def prettyItems (depth : Nat) : List Value → List String
  | [] => []
  | item :: rest => pretty (depth + 1) item :: prettyItems depth rest

def prettyEntries (depth : Nat) : List (String × Value) → List String
  | [] => []
  | (key, value) :: rest =>
    (quote key ++ ": " ++ pretty (depth + 1) value) :: prettyEntries depth rest

end

end FileBroker.Data.Json
