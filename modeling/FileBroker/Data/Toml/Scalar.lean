import FileBroker.Data.Decimal
import FileBroker.Data.Scanner
import FileBroker.Data.Value
import FileBroker.Text
import FileBroker.Word

/-! Single values of the TOML notation: strings, numbers, dates and times. -/
namespace FileBroker.Data.Toml

open Scanner

def isBlank (c : Char) : Bool := c == ' ' || c == '\t'

/-- Control characters have to be escaped, but for the tabulator. -/
def isControl (c : Char) : Bool := (c.toNat < 0x20 && c != '\t') || c.toNat == 0x7F

/-- Takes off a line end, if there is one. -/
def acceptNewline : Scanner Bool := acceptAny ["\n", "\x0d\n"]

/-! ### Strings -/

/-- What stands for a character after a backslash. -/
def escaped : Scanner Char := do
  match ← next with
  | 'b' => return '\x08'
  | 't' => return '\t'
  | 'n' => return '\n'
  | 'f' => return '\x0c'
  | 'r' => return '\x0d'
  | '"' => return '"'
  | '\\' => return '\\'
  | 'u' => numberedChar 4
  | 'U' => numberedChar 8
  | _ => failure

/-- The rest of a string on one line; `fuel` bounds its length. -/
def lineString (delimiter : Char) (escapes : Bool) : (fuel : Nat) → List Char → Scanner String
  | 0, _ => failure
  | fuel + 1, read => do
    let c ← next
    if c == delimiter then return String.ofList read.reverse
    else if escapes && c == '\\' then lineString delimiter escapes fuel ((← escaped) :: read)
    else if isControl c then failure
    else lineString delimiter escapes fuel (c :: read)

/-- Whether a backslash stands at the end of its line; the line end and all blanks and empty lines
that follow are then taken off. -/
def acceptContinuation : Scanner Bool := do
  let blanks := (← get).dropWhile isBlank
  match blanks with
  | '\n' :: _ | '\x0d' :: '\n' :: _ =>
    set (skipBreaks blanks)
    return true
  | _ => return false
where
  skipBreaks : List Char → List Char
    | '\n' :: rest => skipBreaks rest
    | '\x0d' :: '\n' :: rest => skipBreaks rest
    | c :: rest => if isBlank c then skipBreaks rest else c :: rest
    | [] => []

/-- The rest of a string over several lines, up to three delimiters in a row. One or two more of
them before those are part of the string. -/
def blockString (delimiter : Char) (escapes : Bool) : (fuel : Nat) → List Char → Scanner String
  | 0, _ => failure
  | fuel + 1, read => do
    let run := (← get).takeWhile (· == delimiter)
    if 3 ≤ run.length then
      let _ ← takeExactly run.length (· == delimiter)
      if run.length ≤ 5 then return String.ofList (read.reverse ++ run.drop 3) else failure
    else if ← acceptNewline then blockString delimiter escapes fuel ('\n' :: read)
    else
      let c ← next
      if escapes && c == '\\' then
        if ← acceptContinuation then blockString delimiter escapes fuel read
        else blockString delimiter escapes fuel ((← escaped) :: read)
      else if isControl c then failure
      else blockString delimiter escapes fuel (c :: read)

/-- A string on one line, with its delimiters. -/
def simpleString : Scanner String := do
  let fuel := (← get).length
  if ← accept "\"" then lineString '"' true fuel []
  else
    expect "'"
    lineString '\'' false fuel []

def string : Scanner String := do
  let fuel := (← get).length
  if ← accept "\"\"\"" then
    let _ ← acceptNewline
    blockString '"' true fuel []
  else if ← accept "'''" then
    let _ ← acceptNewline
    blockString '\'' false fuel []
  else simpleString

/-! ### Numbers -/

/-- Digits, with single underscores between them. -/
def digits (isDigit : Char → Bool) : Scanner (List Char) := do
  let written ← takeWhile fun c => isDigit c || c == '_'
  let groups := (String.ofList written).splitOn "_"
  if groups.all fun group => !group.isEmpty then return written.filter isDigit else failure

/-- Digits without a needless zero in front. -/
def wholeDigits : Scanner (List Char) := do
  let read ← digits Char.isDigit
  if 1 < read.length ∧ read.head? = some '0' then failure else return read

/-- A sign, if there is one: whether it is a minus. -/
def sign : Scanner Bool := do
  if ← accept "-" then return true
  else
    let _ ← accept "+"
    return false

/-- Whole numbers are those of a signed 64-bit word. -/
def wholeNumber (n : Int) : Scanner Value :=
  if Word.isSigned n then return .int n else failure

def inBase (base : Nat) : Scanner Value := do
  let below := fun c => ((Text.hexDigit? c).map fun value => decide (value < base)) == some true
  let read ← digits below
  wholeNumber (read.foldl (fun n c => base * n + (Text.hexDigit? c).getD 0) 0 : Nat)

def fractionDigits : Scanner (Option (List Char)) := do
  if ← accept "." then some <$> digits Char.isDigit else return none

def exponent : Scanner (Option Int) := do
  if ← acceptAny ["e", "E"] then
    let negative ← sign
    let size : Int := Decimal.digitsValue (← digits Char.isDigit)
    return some (if negative then -size else size)
  else return none

def decimal : Scanner Value := do
  let negative ← sign
  if ← accept "inf" then return .real (if negative then -(1.0 / 0.0) else 1.0 / 0.0)
  else if ← accept "nan" then return .real (0.0 / 0.0)
  else
    let whole ← wholeDigits
    let fraction ← fractionDigits
    let power ← exponent
    if fraction.isNone ∧ power.isNone then
      let size : Int := Decimal.digitsValue whole
      wholeNumber (if negative then -size else size)
    else
      let places := fraction.getD []
      let value := Decimal.ofDigits negative (Decimal.digitsValue (whole ++ places))
        (power.getD 0 - places.length)
      if value.isInf && !negative then failure else return .real value

def number : Scanner Value := do
  if ← accept "0x" then inBase 16
  else if ← accept "0o" then inBase 8
  else if ← accept "0b" then inBase 2
  else decimal

/-! ### Dates and times -/

/-- A number of so many digits within bounds, as it is written. -/
def bounded (width low high : Nat) : Scanner Nat := do
  let n := Decimal.digitsValue (← takeExactly width Char.isDigit)
  if low ≤ n ∧ n ≤ high then return n else failure

def padded (width n : Nat) : String :=
  let digits := Nat.toDigits 10 n
  String.ofList (List.replicate (width - digits.length) '0' ++ digits)

def daysIn (year month : Nat) : Nat :=
  if month = 2 then
    if year % 4 = 0 ∧ (year % 100 ≠ 0 ∨ year % 400 = 0) then 29 else 28
  else if month = 4 ∨ month = 6 ∨ month = 9 ∨ month = 11 then 30
  else 31

def date : Scanner String := do
  let year ← bounded 4 0 9999
  expect "-"
  let month ← bounded 2 1 12
  expect "-"
  let day ← bounded 2 1 (daysIn year month)
  return s!"{padded 4 year}-{padded 2 month}-{padded 2 day}"

/-- Nine places of a fraction of a second count, without the zeros at their end. -/
def secondFraction : Scanner String := do
  if ← accept "." then
    let places ← takeWhile Char.isDigit
    if places.isEmpty then failure
    else
      let kept := ((places.take 9).reverse.dropWhile (· == '0')).reverse
      return if kept.isEmpty then "" else String.ofList ('.' :: kept)
  else return ""

def time : Scanner String := do
  let hour ← bounded 2 0 23
  expect ":"
  let minute ← bounded 2 0 59
  expect ":"
  let second ← bounded 2 0 60
  return s!"{padded 2 hour}:{padded 2 minute}:{padded 2 second}" ++ (← secondFraction)

/-- The distance of a time from universal time, if it is given. -/
def offset : Scanner String := do
  if ← acceptAny ["Z", "z"] then return "Z"
  else
    let west ← accept "-"
    let given ← if west then pure true else accept "+"
    if given then
      let hour ← bounded 2 0 23
      expect ":"
      let minute ← bounded 2 0 59
      let sign := if west && hour + minute != 0 then "-" else "+"
      return s!"{sign}{padded 2 hour}:{padded 2 minute}"
    else return ""

def timeOfDay : Scanner String := do
  if ← acceptAny ["T", "t", " "] then
    return "T" ++ (← time) ++ (← offset)
  else failure

/-- Dates and times are kept as text. -/
def moment : Scanner Value := do
  match ← attempt date with
  | some day => return .text (day ++ ((← attempt timeOfDay).getD ""))
  | none => return .text (← time)

end FileBroker.Data.Toml
