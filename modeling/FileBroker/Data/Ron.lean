import FileBroker.Data.Decimal
import FileBroker.Data.Entry
import FileBroker.Data.Scanner
import FileBroker.Data.Value
import FileBroker.Word

/-!
Reading the RON notation: lists, tuples, tables with keys of any kind, records with or without a
name, and optional values. The keys of a table have to be text.
-/
namespace FileBroker.Data.Ron

open Scanner

def isBlank (c : Char) : Bool := c == ' ' || c == '\t' || c == '\n' || c == '\x0d'

/-- The rest of a block comment, which may hold others. -/
def blockComment : (fuel : Nat) → (level : Nat) → Scanner Unit
  | 0, _ => failure
  | _ + 1, 0 => return
  | fuel + 1, level + 1 => do
    if ← accept "/*" then blockComment fuel (level + 2)
    else if ← accept "*/" then blockComment fuel level
    else
      let _ ← next
      blockComment fuel (level + 1)

/-- White space or a comment. -/
def gap : Scanner (Option Unit) := do
  if ← accept "//" then
    let _ ← takeWhile (· != '\n')
    return some ()
  else if ← accept "/*" then
    blockComment ((← get).length + 2) 1
    return some ()
  else
    let blanks ← takeWhile isBlank
    return if blanks.isEmpty then none else some ()

def skip : Scanner Unit := do
  let _ ← many gap

/-! ### Names -/

def isNameStart (c : Char) : Bool := c.isAlpha || c == '_'
def isNamePart (c : Char) : Bool := c.isAlphanum || c == '_'

/-- Names after `r#` may hold more. -/
def isRawPart (c : Char) : Bool := isNamePart c || c == '.' || c == '+' || c == '-'

/-- A name, if the text goes on with one and not with raw text. -/
def name? : Scanner (Option String) := do
  match ← get with
  | 'r' :: '"' :: _ => return none
  | 'r' :: '#' :: c :: rest =>
    if isRawPart c then
      set (c :: rest)
      return some (String.ofList (← takeWhile isRawPart))
    else return none
  | c :: _ =>
    if isNameStart c then return some (String.ofList (← takeWhile isNamePart)) else return none
  | [] => return none

/-- Takes off a word that no further character of a name follows. -/
def acceptWord (word : String) : Scanner Bool := do
  let input ← get
  let after := (input.drop word.length).head?
  if word.toList.isPrefixOf input && (after.map isNamePart) != some true then
    set (input.drop word.length)
    return true
  else return false

/-! ### Numbers -/

def isDigitPart (c : Char) : Bool := (Text.hexDigit? c).isSome || c == '_'
def isRealPart (c : Char) : Bool := c.isDigit || ['.', 'e', 'E', '+', '-', '_'].contains c

/-- A whole number without its sign, in one of four bases. -/
def natural : Scanner Nat := do
  let base ←
    if ← accept "0x" then pure 16
    else if ← accept "0b" then pure 2
    else if ← accept "0o" then pure 8
    else pure 10
  let written ← takeWhile isDigitPart
  if written.isEmpty || written.head? == some '_' then failure
  let digits := (written.filter (· != '_')).filterMap Text.hexDigit?
  if digits.all (· < base) then return digits.foldl (fun n digit => base * n + digit) 0 else failure

/-- A whole number that fits a word. -/
def integer : Scanner Int := do
  if ← accept "-" then
    let n : Int := -(← natural)
    if Word.isSigned n then return n else failure
  else if ← accept "+" then
    let n : Int := ← natural
    if Word.isSigned n then return n else failure
  else
    let n ← natural
    if n < Word.limit then return n else failure

/-- A real number, the words for what is not finite included. -/
def real : Scanner Float := do
  let sign ← peek
  let negative := sign == some '-'
  let start := if negative then "-" else if sign == some '+' then "+" else ""
  if ← acceptWord (start ++ "inf") then return if negative then -(1.0 / 0.0) else 1.0 / 0.0
  else if ← acceptWord (start ++ "NaN") then return 0.0 / 0.0
  else
    match Decimal.real? (← takeWhile isRealPart) with
    | some x => return x
    | none => failure

/-- A number is real if it has characters that whole numbers lack, or is too large for one. -/
def number : Scanner Value := do
  let input ← get
  let body := match input with
    | '+' :: rest | '-' :: rest => rest
    | _ => input
  if (body.takeWhile isDigitPart).length < (body.takeWhile isRealPart).length then
    return .real (← real)
  else
    match ← attempt integer with
    | some n => return .int n
    | none => return .real (← real)

/-! ### Text -/

/-- One to six hexadecimal digits in braces. -/
def braced : Scanner Char := do
  expect "\x7b"
  let digits ← takeWhile (· != '\x7d')
  expect "\x7d"
  if 6 < digits.length then failure
  match (Text.hexNumber? digits).bind Text.numbered? with
  | some c => return c
  | none => failure

def escaped : Scanner Char := do
  match ← next with
  | '\'' => return '\''
  | '"' => return '"'
  | '\\' => return '\\'
  | 'n' => return '\n'
  | 'r' => return '\x0d'
  | 't' => return '\t'
  | '0' => return '\x00'
  | 'x' => numberedChar 2
  | 'u' => braced
  | _ => failure

/-- The rest of a text in quotes. -/
def string : Scanner String := do
  let read ← many do
    match ← next with
    | '"' => return none
    | '\\' => return some (← escaped)
    | c => return some c
  return String.ofList read

/-- The rest of a text without escapes, which ends with as many hashes as it begins with. -/
def rawString : Scanner String := do
  let hashes ← takeWhile (· == '#')
  expect "\""
  let closing := String.ofList ('"' :: hashes)
  let read ← many do
    if ← accept closing then return none else return some (← next)
  return String.ofList read

/-- The rest of a single character. -/
def char : Scanner Char := do
  let c ← if ← accept "\\" then escaped else do
    let c ← next
    if c == '\'' then failure
    pure c
  expect "'"
  return c

/-! ### Values -/

/-- How deep values may stand, where every list counts twice. -/
def depthLimit : Nat := 128

/-- Whether the parentheses that were opened hold a record: a name and a colon. -/
def holdsRecord : Scanner Bool := do
  let before ← get
  let named ← name?
  skip
  let after ← get
  set before
  if named.isNone then return false
  match after with
  | c :: _ => return c == ':'
  | [] => failure

mutual

/-- A value; `fuel` bounds the steps and `depth` how deep it may hold others. -/
def value : (fuel depth : Nat) → Scanner Value
  | 0, _ => failure
  | fuel + 1, depth => do
    if ← acceptWord "true" then return .bool true
    else if ← acceptWord "false" then return .bool false
    else if ← acceptWord "Some" then
      skip
      expect "("
      skip
      if depth = 0 then failure
      let held ← value fuel (depth - 1)
      skip
      if ← accept "," then skip
      expect ")"
      return held
    else if ← acceptWord "None" then return .null
    else if ← accept "()" then return .null
    else if ← acceptWord "inf" then return .real (1.0 / 0.0)
    else if ← acceptWord "-inf" then return .real (-(1.0 / 0.0))
    else if ← acceptWord "NaN" then return .real (0.0 / 0.0)
    else if (← name?).isSome then
      skip
      if ← accept "(" then parenthesized fuel depth else return .null
    else if ← accept "(" then parenthesized fuel depth
    else if ← accept "[" then
      if depth = 0 then failure
      return .list (← items fuel (depth - 1) "]" true)
    else if ← accept "\x7b" then
      if depth = 0 then failure
      return .table (← entries fuel (depth - 1) "\x7d" false true [])
    else if ← accept "\"" then return .text (← string)
    else if ← accept "r" then return .text (← rawString)
    else if ← accept "'" then return .text (String.ofList [← char])
    else
      match ← peek with
      | some c =>
        if c.isDigit || c == '+' || c == '-' then number
        else if c == '.' then return .real (← real)
        else failure
      | none => failure

/-- The rest of a record or of a tuple. -/
def parenthesized : (fuel depth : Nat) → Scanner Value
  | 0, _ => failure
  | fuel + 1, depth => do
    skip
    if depth = 0 then failure
    if ← holdsRecord then return .table (← entries fuel (depth - 1) ")" true true [])
    else return .list (← items fuel (depth - 1) ")" true)

/-- The rest of a list; `separated` tells whether an item may come next. -/
def items : (fuel depth : Nat) → (closing : String) → (separated : Bool) → Scanner (List Value)
  | 0, _, _, _ => failure
  | fuel + 1, depth, closing, separated => do
    skip
    if ← accept closing then return []
    else if !separated || depth = 0 then failure
    else
      let first ← value fuel (depth - 1)
      skip
      return first :: (← items fuel depth closing (← accept ","))

/-- The rest of a table; the keys of a record are names. -/
def entries : (fuel depth : Nat) → (closing : String) → (named separated : Bool) →
    List (String × Value) → Scanner (List (String × Value))
  | 0, _, _, _, _, _ => failure
  | fuel + 1, depth, closing, named, separated, read => do
    skip
    if ← accept closing then return read
    else if !separated || depth = 0 then failure
    else
      let key ← if named then key? else textKey fuel (depth - 1)
      skip
      expect ":"
      skip
      let read := put read key (← value fuel (depth - 1))
      skip
      entries fuel depth closing named (← accept ",") read

def textKey : (fuel depth : Nat) → Scanner String
  | 0, _ => failure
  | fuel + 1, depth => do
    match ← value fuel depth with
    | .text written => return written
    | _ => failure

/-- The name that is the key of a record's entry. -/
def key? : Scanner String := do
  match ← name? with
  | some name => return name
  | none => failure

end

/-! ### Documents -/

def extensionNames : List String := ["unwrap_newtypes", "implicit_some", "unwrap_variant_newtypes"]

/-- The rest of a list of extensions. -/
def extensions : Scanner Unit := do
  let _ ← many do
    match ← name? with
    | none => return none
    | some name =>
      if !extensionNames.contains name then failure
      skip
      if ← accept "," then
        skip
        return some ()
      else if ← sees ")" then return none
      else failure
  skip
  expect ")"
  skip
  expect "]"

/-- An attribute that turns on extensions, which change nothing here. -/
def enabling : Scanner (Option Unit) := do
  if ← accept "#" then
    for part in ["!", "[", "enable", "("] do
      skip
      expect part
    skip
    extensions
    skip
    return some ()
  else return none

def document : Scanner Value := do
  skip
  let _ ← many enabling
  let read ← value ((← get).length + 1) depthLimit
  skip
  return read

/-- A whole document: one value. -/
def read? (text : String) : Option Value := whole? document text

end FileBroker.Data.Ron
