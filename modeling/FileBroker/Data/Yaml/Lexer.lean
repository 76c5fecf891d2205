import FileBroker.Data.Yaml.Scalar

/-!
Tokens of the YAML notation. Indentation becomes tokens that open and end blocks, and a key shows
itself only by the colon after it: where one may have begun is kept, and the tokens that tell of a
key are put there afterwards.
-/
namespace FileBroker.Data.Yaml

inductive Token where
  | version
  /-- What a handle of tags stands for in its document. -/
  | tagRule (handle start : String)
  | documentStart
  | documentEnd
  | sequenceStart
  | mappingStart
  | blockEnd
  | flowSequenceStart
  | flowSequenceEnd
  | flowMappingStart
  | flowMappingEnd
  /-- A dash before an item. -/
  | item
  | comma
  | key
  | value
  | alias (name : String)
  | anchor (name : String)
  | tag (handle suffix : String)
  | scalar (isPlain : Bool) (text : String)
  deriving DecidableEq, Repr

/-- A place where a key may have begun. -/
structure Candidate where
  possible : Bool
  /-- Nothing but a key can stand there. -/
  required : Bool
  /-- How many tokens come before it. -/
  position : Nat
  index : Nat
  line : Nat
  column : Nat
  deriving DecidableEq, Repr

def Candidate.none : Candidate := ⟨false, false, 0, 0, 0, 0⟩

/-- A column of indentation, which a block has unless it is there for its contents only. -/
structure Level where
  outer : Int
  isBlock : Bool
  deriving DecidableEq, Repr

/-- What a bracket has opened, with the candidate outside. -/
structure Bracket where
  isSequence : Bool
  outside : Candidate
  deriving DecidableEq, Repr

structure Lexer where
  cursor : Cursor
  tokens : List Token
  /-- Whether a key may begin here. -/
  keysAllowed : Bool
  candidate : Candidate
  /-- The column of the innermost block, -1 outside of blocks. -/
  indent : Int
  levels : List Level
  brackets : List Bracket
  /-- Where a colon needs no blank after it. -/
  adjacentAt : Option Nat

/-- Steps of the lexer, which may fail. -/
abbrev Lexing := StateT Lexer Option

namespace Lexing

def start (text : List Char) : Lexer :=
  ⟨.start text, [], true, .none, -1, [], [], none⟩

def check (holds : Bool) : Lexing Unit := if holds then return else failure

def scan {α : Type} (read : Scan α) : Lexing α := fun lexer =>
  (read lexer.cursor).map fun (a, cursor) => (a, { lexer with cursor })

def cursor : Lexing Cursor := return (← get).cursor

def inFlow : Lexing Bool := return !(← get).brackets.isEmpty

def push (token : Token) : Lexing Unit :=
  modify fun lexer => { lexer with tokens := lexer.tokens ++ [token] }

/-- Puts a token before one that is already there. -/
def insert (position : Nat) (token : Token) : Lexing Unit :=
  modify fun lexer => { lexer with tokens := lexer.tokens.insertIdx position token }

def allowKeys (keysAllowed : Bool) : Lexing Unit :=
  modify fun lexer => { lexer with keysAllowed }

/-! ### Candidates for keys -/

/-- Notes that a key may begin here. -/
def saveCandidate : Lexing Unit := modify fun lexer =>
  if !lexer.keysAllowed then lexer
  else
    let inBlock := (lexer.levels.head?.map Level.isBlock) == some true
    let required := lexer.brackets.isEmpty && lexer.indent == lexer.cursor.column && inBlock
    { lexer with
      candidate := ⟨true, required, lexer.tokens.length, lexer.cursor.index, lexer.cursor.line,
        lexer.cursor.column⟩ }

/-- There will be no key where one may have begun; this fails if it had to be one. -/
def dropCandidate : Lexing Unit := do
  let lexer ← get
  check !(lexer.candidate.possible && lexer.candidate.required)
  set { lexer with candidate := { lexer.candidate with possible := false } }

/-- Outside of brackets, a key is on one line and at most 1024 characters long. -/
def dropStale : Lexing Unit := do
  let lexer ← get
  let candidate := lexer.candidate
  if lexer.brackets.isEmpty && (candidate.line < lexer.cursor.line
      || candidate.index + 1024 < lexer.cursor.index) then
    dropCandidate

/-! ### Indentation -/

/-- Leaves the columns that contents only have. -/
def leaveLoose : List Level → Int → List Level × Int
  | level :: outer, indent =>
    if level.isBlock then (level :: outer, indent) else leaveLoose outer level.outer
  | [], indent => ([], indent)

def dropLoose : Lexing Unit := modify fun lexer =>
  let (levels, indent) := leaveLoose lexer.levels lexer.indent
  { lexer with levels, indent }

/-- Opens a block at a column, unless one is open there or brackets are. -/
def openBlock (column : Nat) (position : Option Nat) (token : Token) : Lexing Unit := do
  if ← inFlow then return
  let lexer ← get
  if lexer.indent ≤ column then
    match lexer.levels with
    | ⟨outer, false⟩ :: levels => set { lexer with indent := outer, levels }
    | _ => pure ()
  let lexer ← get
  if lexer.indent < column then
    set { lexer with indent := column, levels := ⟨lexer.indent, true⟩ :: lexer.levels }
    insert (position.getD lexer.tokens.length) token

/-- Asks the contents of a block to be at least a column to the right of it. -/
def openLoose : Lexing Unit := do
  if ← inFlow then return
  modify fun lexer => match lexer.levels with
    | ⟨_, true⟩ :: _ =>
      { lexer with indent := lexer.indent + 1, levels := ⟨lexer.indent, false⟩ :: lexer.levels }
    | _ => lexer

/-- The blocks that are left by going to a column: how many, and what remains. -/
def closed (column : Int) : List Level → Int → Nat × List Level × Int
  | level :: outer, indent =>
    if column < indent then
      let (count, levels, indent) := closed column outer level.outer
      (if level.isBlock then count + 1 else count, levels, indent)
    else (0, level :: outer, indent)
  | [], indent => (0, [], indent)

def closeBlocks (column : Int) : Lexing Unit := do
  if ← inFlow then return
  modify fun lexer =>
    let (count, levels, indent) := closed column lexer.levels lexer.indent
    { lexer with levels, indent, tokens := lexer.tokens ++ List.replicate count .blockEnd }

/-! ### Between tokens -/

/-- Goes past blanks, line ends and comments, at most `fuel` of them. Tabs do not indent blocks. -/
def skipSpace : (fuel : Nat) → Lexing Unit
  | 0 => return
  | fuel + 1 => do
    let lexer ← get
    let cursor := lexer.cursor
    match cursor.next? with
    | some '#' =>
      scan Scan.skipComment
      skipSpace fuel
    | some c =>
      if isBreak c then
        scan Scan.skipBreak
        if !(← inFlow) then allowKeys true
        skipSpace fuel
      else if !isBlank c then return
      else if c == '\t' && !lexer.levels.isEmpty && cursor.inMargin
          && cursor.column < lexer.indent then
        let _ ← scan Scan.skipGap
        check (endsLine (← Lexing.cursor).next?)
        skipSpace fuel
      else
        let _ ← scan (Scan.skipBlanks (· == c))
        skipSpace fuel
    | none => return

def skipAll : Lexing Unit := do skipSpace ((← cursor).rest.length + 1)

/-! ### Directives and tags -/

def isWord (c : Char) : Bool := c.isAlphanum || c == '_' || c == '-'

def isUriPart (c : Char) : Bool :=
  c.isAlphanum || c == '-' || "#;/?:@&=+$,_.!~*'()[]%".toList.contains c

def isTagPart (c : Char) : Bool := isUriPart c && !isFlowMark c && c != '!'

/-- Bytes that are written with percent signs make up one character. -/
def percentChar : Scan Char := do
  let bytes ← octets 4
  match String.fromUTF8? ⟨bytes.toArray⟩ with
  | some text => match text.toList with
    | [c] => return c
    | _ => failure
  | none => failure
where
  octet : Scan UInt8 := do
    let c ← Scan.accept '%'
    Scan.check c
    return UInt8.ofNat (← Scan.numberedChar 2).toNat
  /-- How many bytes begin with one. -/
  width (first : UInt8) : Nat :=
    if first < 0x80 then 1 else if first < 0xE0 then 2 else if first < 0xF0 then 3 else 4
  octets (limit : Nat) : Scan (List UInt8) := do
    let first ← octet
    let rest ← (List.replicate (min limit (width first) - 1) ()).mapM fun _ => octet
    return first :: rest

/-- Characters of an address, some of them written with percent signs. -/
def uri (p : Char → Bool) : (fuel : Nat) → Scan (List Char)
  | 0 => return []
  | fuel + 1 => do
    match (← get).next? with
    | some '%' => return (← percentChar) :: (← uri p fuel)
    | some c =>
      if !p c then return []
      Scan.skipWord 1
      return c :: (← uri p fuel)
    | none => return []

def uriText (p : Char → Bool) : Scan String := do
  return String.ofList (← uri p ((← get).rest.length + 1))

/-- An exclamation mark, a word, and another mark if there is one. -/
def tagHandle : Scan String := do
  Scan.check (← Scan.accept '!')
  let word ← Scan.takeWhile isWord
  let closed ← Scan.accept '!'
  return String.ofList ('!' :: word ++ if closed then ['!'] else [])

def isHandle (handle : String) : Bool := 2 ≤ handle.length && handle.endsWith "!"

/-- A tag is an address, a handle with a suffix, or a suffix alone. -/
def tag (inFlow : Bool) : Scan Token := do
  let read ←
    if (← get).second? == some '<' then
      Scan.skipWord 2
      let address ← uriText isUriPart
      Scan.check (← Scan.accept '>')
      pure (Token.tag "" address)
    else
      let handle ← tagHandle
      let suffix ← uriText isTagPart
      if isHandle handle then
        Scan.check !suffix.isEmpty
        pure (Token.tag handle suffix)
      else
        let suffix := (handle.drop 1).toString ++ suffix
        pure (if suffix.isEmpty then Token.tag "" "!" else Token.tag "!" suffix)
  let after := (← get).next?
  Scan.check (endsWord after || (inFlow && (after.map isFlowMark) == some true))
  return read

def versionNumber : Scan Unit := do
  let digits ← Scan.takeWhile Char.isDigit
  Scan.check (0 < digits.length && digits.length ≤ 9)

/-- A line that begins with a percent sign. -/
def directive : Scan Token := do
  Scan.skipWord 1
  let name ← Scan.takeWhile isWord
  Scan.check (!name.isEmpty && endsWord (← get).next?)
  let read ← match String.ofList name with
    | "YAML" => do
      let _ ← Scan.skipBlanks isBlank
      versionNumber
      Scan.check (← Scan.accept '.')
      versionNumber
      pure Token.version
    | "TAG" => do
      let _ ← Scan.skipBlanks isBlank
      let handle ← tagHandle
      Scan.check (handle == "!" || handle.endsWith "!")
      let _ ← Scan.skipBlanks isBlank
      let local_ ← Scan.accept '!'
      let start ← uriText isUriPart
      Scan.check (local_ || (start.toList.head?.map isTagPart) == some true)
      Scan.check (endsWord (← get).next?)
      pure (Token.tagRule handle (if local_ then "!" ++ start else start))
    | _ => do
      Scan.skipComment
      pure (Token.tagRule "" "")
  let _ ← Scan.skipGap
  Scan.check (endsLine (← get).next?)
  Scan.skipBreak
  return read

/-! ### Tokens -/

/-- A token that a key may begin with. -/
def single (read : Scan Token) : Lexing Unit := do
  saveCandidate
  allowKeys false
  push (← scan read)

/-- An anchor or an alias, after its mark. -/
def named (token : String → Token) : Scan Token := do
  Scan.skipWord 1
  let name ← Scan.takeWhile fun c =>
    !endsWord (some c) && !isFlowMark c && c.toNat != 0xFEFF
  Scan.check !name.isEmpty
  return token (String.ofList name)

/-- A line that begins or ends a document. -/
def documentMark (token : Token) : Lexing Unit := do
  closeBlocks (-1)
  dropCandidate
  allowKeys false
  scan (Scan.skipWord 3)
  push token
  if token = .documentEnd then
    let _ ← scan Scan.skipGap
    check (endsLine (← cursor).next?)

def directiveLine : Lexing Unit := do
  closeBlocks (-1)
  dropCandidate
  allowKeys false
  push (← scan directive)

/-- Brackets may stand 255 deep. -/
def openBracket (isSequence : Bool) (token : Token) : Lexing Unit := do
  saveCandidate
  openLoose
  let lexer ← get
  check (lexer.brackets.length < 255)
  set { lexer with
    brackets := ⟨isSequence, lexer.candidate⟩ :: lexer.brackets
    candidate := .none
    keysAllowed := true }
  scan (Scan.skipWord 1)
  let _ ← scan Scan.skipGap
  push token

def closeBracket (token : Token) : Lexing Unit := do
  dropCandidate
  modify fun lexer => match lexer.brackets with
    | bracket :: brackets => { lexer with brackets, candidate := bracket.outside }
    | [] => lexer
  allowKeys false
  scan (Scan.skipWord 1)
  let _ ← scan Scan.skipGap
  if ← inFlow then modify fun lexer => { lexer with adjacentAt := some lexer.cursor.index }
  push token

def comma : Lexing Unit := do
  dropCandidate
  allowKeys true
  scan (Scan.skipWord 1)
  let _ ← scan Scan.skipGap
  push .comma

/-- A dash before an item of a block. After a tab there is no further dash. -/
def item : Lexing Unit := do
  let lexer ← get
  check (lexer.brackets.isEmpty && lexer.keysAllowed)
  scan (Scan.skipWord 1)
  openBlock lexer.cursor.column none .sequenceStart
  let blanks ← scan Scan.skipGap
  let cursor ← cursor
  check !(blanks.contains '\t' && cursor.next? == some '-' && endsWord cursor.second?)
  if (cursor.next?.map fun c => isBreak c || isFlowMark c) == some true then openLoose
  dropCandidate
  allowKeys true
  push .item

/-- A question mark before a key of any kind. -/
def explicitKey : Lexing Unit := do
  let lexer ← get
  let flow := !lexer.brackets.isEmpty
  check (flow || lexer.keysAllowed)
  openBlock lexer.cursor.column none .mappingStart
  dropCandidate
  allowKeys !flow
  scan (Scan.skipWord 1)
  let before := (← cursor).index
  skipKeyGap ((← cursor).rest.length + 1)
  let cursor ← cursor
  check (before < cursor.index && cursor.next? != some '\t')
  push .key
where
  /-- Blanks without tabs, line ends and comments. -/
  skipKeyGap : (fuel : Nat) → Lexing Unit
    | 0 => return
    | fuel + 1 => do
      match (← cursor).next? with
      | some ' ' =>
        let _ ← scan (Scan.skipBlanks (· == ' '))
        skipKeyGap fuel
      | some '#' =>
        scan Scan.skipComment
        skipKeyGap fuel
      | some c =>
        if isBreak c then
          scan Scan.skipBreak
          if !(← inFlow) then allowKeys true
          skipKeyGap fuel
      | none => return

/-- A colon after a key. If a key may have begun, this is where it is known to be one. -/
def colon : Lexing Unit := do
  let lexer ← get
  let start := lexer.cursor
  let candidate := lexer.candidate
  let inSequence := (lexer.brackets.head?.map Bracket.isSequence) == some true
  scan (Scan.skipWord 1)
  if (← cursor).next? == some '\t' then
    let blanks ← scan Scan.skipGap
    let next := (← cursor).next?
    check (blanks.contains ' ' || !(next == some '-' || (next.map isWord) == some true))
  if candidate.possible then
    check !(inSequence && candidate.line < start.line)
    insert candidate.position .key
    openBlock candidate.column (some candidate.position) .mappingStart
    openLoose
    modify fun lexer => { lexer with candidate := { lexer.candidate with possible := false } }
    allowKeys false
  else
    if !(← inFlow) then
      check lexer.keysAllowed
      openBlock start.column none .mappingStart
    openLoose
    allowKeys !(← inFlow)
  push .value

def plainScalar : Lexing Unit := do
  saveCandidate
  allowKeys false
  dropLoose
  let text ← scan (plain (← inFlow) ((← get).indent + 1))
  if (← cursor).inMargin then allowKeys true
  push (.scalar true text)

def quotedScalar (single : Bool) : Lexing Unit := do
  saveCandidate
  allowKeys false
  let text ← scan (quoted single (← inFlow) (← get).indent)
  skipAll
  modify fun lexer => { lexer with adjacentAt := some lexer.cursor.index }
  push (.scalar false text)

def blockScalar (literal : Bool) : Lexing Unit := do
  saveCandidate
  allowKeys true
  dropLoose
  let text ← scan (block literal (← get).indent)
  push (.scalar false text)

/-- The token that begins with a character, given the character after it. -/
def tokenAt (c : Char) (second : Option Char) : Lexing Unit := do
  let lexer ← get
  let flow := !lexer.brackets.isEmpty
  let flowNext := (second.map isFlowMark) == some true
  match c with
  | '[' => openBracket true .flowSequenceStart
  | '\x7b' => openBracket false .flowMappingStart
  | ']' => closeBracket .flowSequenceEnd
  | '\x7d' => closeBracket .flowMappingEnd
  | ',' => comma
  | '*' => single (named .alias)
  | '&' => single (named .anchor)
  | '!' => single (tag flow)
  | '\'' => quotedScalar true
  | '"' => quotedScalar false
  | '%' | '@' | '\x60' => failure
  | '-' => if endsWord second then item else plainScalar
  | '?' => if endsWord second then explicitKey else plainScalar
  | ':' =>
    if endsWord second || (flow && (flowNext || lexer.adjacentAt == some lexer.cursor.index)) then
      colon
    else plainScalar
  | '|' => if flow then plainScalar else blockScalar true
  | '>' => if flow then plainScalar else blockScalar false
  | _ => plainScalar

/-- The next token, or several of them; tells whether there was one. -/
def step : Lexing Bool := do
  skipAll
  dropStale
  let cursor ← cursor
  closeBlocks cursor.column
  match cursor.next? with
  | none => return false
  | some c =>
    if cursor.column == 0 && c == '%' then directiveLine
    else if cursor.seesMark '-' then documentMark .documentStart
    else if cursor.seesMark '.' then documentMark .documentEnd
    else
      check ((← get).indent ≤ cursor.column)
      tokenAt c cursor.second?
    return true

def finish : Lexing Unit := do
  let lexer ← get
  check ((lexer.candidate :: lexer.brackets.map Bracket.outside).all fun candidate =>
    !(candidate.possible && candidate.required))
  closeBlocks (-1)

def run : (fuel : Nat) → Lexing Unit
  | 0 => failure
  | fuel + 1 => do
    if ← step then run fuel else finish

end Lexing

/-- The tokens of a text, which ends at a null character if it has one. -/
def tokens? (text : String) : Option (List Token) :=
  let input := text.toList.takeWhile (· != '\x00')
  (Lexing.run (input.length + 2) (Lexing.start input)).map fun (_, lexer) => lexer.tokens

end FileBroker.Data.Yaml
