import FileBroker.Data.Json
import FileBroker.Data.Scanner

/-!
Reading JSON as people write it: with comments, names without quotes, trailing commas, and numbers
in more forms. A number without a point or an exponent is an integer and has to fit its word.
-/
namespace FileBroker.Data.Json5

open Scanner

def isLineEnd (c : Char) : Bool := [0x0A, 0x0D, 0x2028, 0x2029].contains c.toNat

/-- White space; the mark for the byte order is blank, and the next-line control is not. -/
def isBlank (c : Char) : Bool := (Text.isBlank c && c.toNat != 0x85) || c.toNat == 0xFEFF

/-- White space and comments. -/
def gap : Scanner (Option Unit) := do
  if ← accept "//" then
    let _ ← takeWhile fun c => !isLineEnd c
    return some ()
  else if ← accept "/*" then
    let _ ← many do
      if ← sees "*/" then return none else return some (← next)
    expect "*/"
    return some ()
  else
    let blanks ← takeWhile isBlank
    return if blanks.isEmpty then none else some ()

def skip : Scanner Unit := do
  let _ ← many gap

/-! ### Numbers -/

/-- Digits after `0x`, at most 32 bits of them. -/
def hexNumber : Scanner Value := do
  let digits ← takeWhile fun c => (Text.hexDigit? c).isSome
  match Text.hexNumber? digits with
  | some n => if n < UInt32.size then return .int n else failure
  | none => failure

/-- A number without its sign, as it is written. -/
def unsigned : Scanner (List Char) := do
  let whole ← takeWhile Char.isDigit
  if whole.length > 1 && whole.head? == some '0' then failure
  let places ←
    if ← accept "." then
      let places ← takeWhile Char.isDigit
      if whole.isEmpty && places.isEmpty then failure
      pure ('.' :: places)
    else if whole.isEmpty then failure
    else pure []
  return whole ++ places ++ (← exponent)
where
  exponent : Scanner (List Char) := do
    let before ← get
    if ← acceptAny ["e", "E"] then
      let sign ← if ← accept "-" then pure ['-'] else do
        let _ ← accept "+"
        pure []
      let power ← takeWhile Char.isDigit
      if power.isEmpty then
        set before
        return []
      else return 'e' :: sign ++ power
    else return []

def decimal (negative : Bool) : Scanner Value := do
  let written ← unsigned
  if written.any fun c => c == '.' || c == 'e' then
    match Decimal.real? written with
    | some x => if x.isInf then failure else return .real (if negative then -x else x)
    | none => failure
  else
    let size : Int := Decimal.digitsValue written
    let n := if negative then -size else size
    if Word.isSigned n then return .int n else failure

/-- Only decimal numbers may have a plus sign, and hexadecimal ones have none. -/
def number : Scanner Value := do
  if ← acceptAny ["0x", "0X"] then hexNumber
  else
    let negative ← accept "-"
    let positive ← if negative then pure false else accept "+"
    if ← accept "Infinity" then
      if positive then failure
      return .real (if negative then -(1.0 / 0.0) else 1.0 / 0.0)
    else if ← accept "NaN" then
      if positive then failure
      return .real (0.0 / 0.0)
    else decimal negative

/-! ### Strings and names -/

/-- A character by its number in the basic plane, or above it by a pair. -/
def unicode : Scanner Char := fun input => Json.escapedChar? input

/-- What follows a backslash; an escaped line end stands for nothing. -/
def escaped : Scanner (List Char) := do
  match ← next with
  | 'b' => return ['\x08']
  | 'f' => return ['\x0c']
  | 'n' => return ['\n']
  | 'r' => return ['\x0d']
  | 't' => return ['\t']
  | 'v' => return ['\x0b']
  | '0' => return ['\x00']
  | 'x' => return [← numberedChar 2]
  | 'u' => return [← unicode]
  | '\x0d' =>
    let _ ← accept "\n"
    return []
  | c =>
    if isLineEnd c then return []
    else if c.isDigit then failure
    else return [c]

def string (quote : Char) : Scanner String := do
  let parts ← many do
    match ← next with
    | '\\' => return some (← escaped)
    | c =>
      if c == quote then return none
      else if c == '\n' || c == '\x0d' then failure
      else return some [c]
  return String.ofList parts.flatten

/-- Letters: those of Latin, and beyond it all that is not in a block of signs. -/
def isLetter (c : Char) : Bool :=
  let n := c.toNat
  c.isAlpha || [0xAA, 0xB5, 0xBA].contains n
    || (0xC0 ≤ n && n != 0xD7 && n != 0xF7 && !isBlank c && !signs.any fun (low, high) =>
      low ≤ n && n ≤ high)
where
  /-- Punctuation, symbols, combining marks and private use. -/
  signs : List (Nat × Nat) :=
    [(0x2C2, 0x2C5), (0x2D2, 0x2DF), (0x2E5, 0x2EB), (0x300, 0x36F), (0x37E, 0x37E),
     (0x2000, 0x2070), (0x207A, 0x207E), (0x2080, 0x208F), (0x20A0, 0x20FF), (0x2190, 0x2BFF),
     (0x2E00, 0x2E2E), (0x2E30, 0x3004), (0x3008, 0x3020), (0x302A, 0x3030), (0xE000, 0xF8FF),
     (0xFE00, 0xFE6F), (0xFF00, 0xFF20), (0xFFE0, 0xFFFF), (0x1F000, 0x1FAFF),
     (0xE0000, 0x10FFFF)]

def isNameStart (c : Char) : Bool := isLetter c || c == '$' || c == '_'

/-- Digits, combining marks and joiners go on a name but do not begin it. -/
def isNamePart (c : Char) : Bool :=
  isNameStart c || c.isDigit || [0x200C, 0x200D, 0x203F, 0x2040].contains c.toNat
    || (0x300 ≤ c.toNat && c.toNat ≤ 0x36F)

def name : Scanner String := do
  let parts ← many do
    if ← accept "\\u" then return some [← unicode]
    else
      let run ← takeWhile isNamePart
      return if run.isEmpty then none else some run
  return String.ofList parts.flatten

def key : Scanner String := do
  match ← peek with
  | some '"' =>
    let _ ← next
    string '"'
  | some '\'' =>
    let _ ← next
    string '\''
  | some c => if isNameStart c || c == '\\' then name else failure
  | none => failure

/-! ### Values -/

mutual

def value : (fuel : Nat) → Scanner Value
  | 0 => failure
  | fuel + 1 => do
    skip
    if ← accept "null" then return .null
    else if ← accept "true" then return .bool true
    else if ← accept "false" then return .bool false
    else if ← accept "[" then return .list (← items fuel)
    else if ← accept "\x7b" then entries fuel []
    else if ← accept "\"" then return .text (← string '"')
    else if ← accept "'" then return .text (← string '\'')
    else number

/-- The rest of a list; a comma may follow its last item. -/
def items : (fuel : Nat) → Scanner (List Value)
  | 0 => failure
  | fuel + 1 => do
    skip
    if ← accept "]" then return []
    else
      let first ← value fuel
      skip
      if ← accept "," then return first :: (← items fuel)
      else
        expect "]"
        return [first]

/-- The rest of a table; a comma may follow its last entry. -/
def entries : (fuel : Nat) → List (String × Value) → Scanner Value
  | 0, _ => failure
  | fuel + 1, read => do
    skip
    if ← accept "\x7d" then return .table read
    else
      let key ← key
      skip
      expect ":"
      let read := put read key (← value fuel)
      skip
      if ← accept "," then entries fuel read
      else
        expect "\x7d"
        return .table read

end

def document : Scanner Value := do
  let read ← value ((← get).length + 1)
  skip
  return read

/-- A whole document: one value. -/
def read? (text : String) : Option Value := whole? document text

end FileBroker.Data.Json5
