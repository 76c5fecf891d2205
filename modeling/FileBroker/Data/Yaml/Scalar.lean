import FileBroker.Data.Yaml.Cursor

/-!
Scalars: plain, in quotes, and in blocks. Where lines are folded, a line end between two words is a
blank, and further ones are line ends.
-/
namespace FileBroker.Data.Yaml

open Scan

/-- What stands between two words of a scalar. -/
structure Gap where
  /-- The blanks before the first line end. -/
  blanks : List Char
  breaks : Nat
  deriving DecidableEq, Repr

def Gap.none : Gap := ⟨[], 0⟩

/-- The text that a gap stands for. -/
def Gap.folded (gap : Gap) : List Char :=
  match gap.breaks with
  | 0 => gap.blanks
  | 1 => [' ']
  | further + 1 => List.replicate further '\n'

/-! ### Plain scalars -/

/-- Whether a word of a plain scalar may go on here. -/
def goesOnPlain (inFlow : Bool) (cursor : Cursor) : Bool :=
  match cursor.rest with
  | ':' :: rest => !endsWord rest.head? && !(inFlow && (rest.head?.map isFlowMark) == some true)
  | c :: _ => !endsWord (some c) && !(inFlow && isFlowMark c)
  | [] => false

/-- The characters of a word. -/
def plainWord (inFlow : Bool) : (fuel : Nat) → Scan (List Char)
  | 0 => return []
  | fuel + 1 => do
    let cursor ← get
    match goesOnPlain inFlow cursor, cursor.next? with
    | true, some c =>
      skipWord 1
      return c :: (← plainWord inFlow fuel)
    | _, _ => return []

/-- Blanks and line ends. A tab left of the margin that is asked for has to be on an empty line. -/
def plainGap (indent : Int) : (fuel : Nat) → Gap → Scan Gap
  | 0, gap => return gap
  | fuel + 1, gap => do
    let cursor ← get
    match cursor.next? with
    | some c =>
      if isBreak c then
        skipBreak
        plainGap indent fuel { gap with breaks := gap.breaks + 1 }
      else if !isBlank c then return gap
      else if !cursor.inMargin then
        set (cursor.pastBlanks 1)
        plainGap indent fuel { gap with blanks := gap.blanks ++ [c] }
      else if c == '\t' && (cursor.column : Int) < indent then
        let _ ← skipGap
        check (endsLine (← get).next?)
        plainGap indent fuel gap
      else
        set (cursor.pastBlanks 1)
        plainGap indent fuel gap
    | none => return gap

/-- Words and the gaps between them, up to a comment, a mark, or a line that is too far left. -/
def plainWords (inFlow : Bool) (indent : Int) : (fuel : Nat) → Gap → Scan (List Char)
  | 0, _ => return []
  | fuel + 1, gap => do
    let cursor ← get
    if cursor.seesDocumentMark || cursor.next? == some '#' then return []
    check !(inFlow && cursor.next? == some '-' && (cursor.second?.map isFlowMark) == some true)
    let word ← plainWord inFlow cursor.rest.length
    let read := if word.isEmpty then [] else gap.folded ++ word
    let gap := if word.isEmpty then gap else .none
    let cursor ← get
    if cursor.next?.isNone || !endsWord cursor.next? then return read
    let gap ← plainGap indent cursor.rest.length gap
    if !inFlow && ((← get).column : Int) < indent then return read
    return read ++ (← plainWords inFlow indent fuel gap)

/-- A plain scalar, which has at least one character. -/
def plain (inFlow : Bool) (indent : Int) : Scan String := do
  let cursor ← get
  check !(inFlow && (cursor.column : Int) < indent)
  let read ← plainWords inFlow indent (cursor.rest.length + 1) .none
  check !read.isEmpty
  return String.ofList read

/-! ### Scalars in quotes -/

/-- What a backslash and the character after it stand for. -/
def escaped : Scan Char := do
  let escape := (← get).second?
  skipWord 2
  match escape with
  | some '0' => return '\x00'
  | some 'a' => return '\x07'
  | some 'b' => return '\x08'
  | some 't' | some '\t' => return '\t'
  | some 'n' => return '\n'
  | some 'v' => return '\x0b'
  | some 'f' => return '\x0c'
  | some 'r' => return '\x0d'
  | some 'e' => return '\x1b'
  | some ' ' => return ' '
  | some '"' => return '"'
  | some '/' => return '/'
  | some '\\' => return '\\'
  | some 'N' => return '\u0085'
  | some '_' => return '\u00a0'
  | some 'L' => return '\u2028'
  | some 'P' => return '\u2029'
  | some 'x' => numberedChar 2
  | some 'u' => numberedChar 4
  | some 'U' => numberedChar 8
  | _ => failure

/-- The characters up to a gap or the closing quote, and whether an escaped line end follows. -/
def quotedWord (single : Bool) : (fuel : Nat) → Scan (List Char × Bool)
  | 0 => failure
  | fuel + 1 => do
    let cursor ← get
    match cursor.next? with
    | some '\'' =>
      if single && cursor.second? != some '\'' then return ([], false)
      skipWord (if single then 2 else 1)
      further '\'' fuel
    | some '"' =>
      if !single then return ([], false)
      skipWord 1
      further '"' fuel
    | some '\\' =>
      if single then
        skipWord 1
        further '\\' fuel
      else if cursor.second?.isSome && endsLine cursor.second? then
        skipWord 1
        skipBreak
        return ([], true)
      else further (← escaped) fuel
    | some c =>
      if endsWord (some c) then return ([], false)
      skipWord 1
      further c fuel
    | none => return ([], false)
where
  further (c : Char) (fuel : Nat) : Scan (List Char × Bool) := do
    let (rest, broken) ← quotedWord single fuel
    return (c :: rest, broken)

/-- Blanks and line ends; blanks after a line end, for which tabs do not count, are left out. -/
def quotedGap (indent : Int) : (fuel : Nat) → (broken : Bool) → Gap → Scan Gap
  | 0, _, gap => return gap
  | fuel + 1, broken, gap => do
    let cursor ← get
    match cursor.next? with
    | some c =>
      if isBreak c then
        skipBreak
        quotedGap indent fuel true { gap with breaks := gap.breaks + 1 }
      else if !isBlank c then return gap
      else
        check !(broken && c == '\t' && (cursor.column : Int) < indent)
        set (cursor.pastBlanks 1)
        quotedGap indent fuel broken
          (if broken then gap else { gap with blanks := gap.blanks ++ [c] })
    | none => return gap

/-- The text up to the closing quote. No line of it may be too far left. -/
def quotedText (single : Bool) (indent : Int) : (fuel : Nat) → Scan (List Char)
  | 0 => failure
  | fuel + 1 => do
    let cursor ← get
    check !(cursor.seesDocumentMark || cursor.rest.isEmpty || (cursor.column : Int) < indent)
    let (word, broken) ← quotedWord single (cursor.rest.length + 1)
    let cursor ← get
    if cursor.next? == some (if single then '\'' else '"') then return word
    let gap ← quotedGap indent cursor.rest.length broken .none
    let between := if broken then List.replicate gap.breaks '\n' else gap.folded
    return word ++ between ++ (← quotedText single indent fuel)

/-- A scalar in quotes. Only a mark that goes on with what holds it may follow on its line, and a
key is on one line. -/
def quoted (single inFlow : Bool) (indent : Int) : Scan String := do
  let start ← get
  skipWord 1
  let read ← quotedText single indent start.rest.length
  skipWord 1
  let _ ← skipGap
  let cursor ← get
  check (match cursor.next? with
    | some ',' | some '\x7d' | some ']' => inFlow
    | some ':' => inFlow || start.line == cursor.line
    | other => endsLine other)
  return String.ofList read

/-! ### Block scalars -/

/-- What becomes of the line ends at the end of a block. -/
inductive Chomping where
  | clip
  | strip
  | keep
  deriving DecidableEq, Repr

def chomping : Scan (Option Chomping) := do
  if ← accept '+' then return some .keep
  else if ← accept '-' then return some .strip
  else return none

/-- The columns by which a block says to be indented: a digit from 1 to 9. -/
def increment : Scan Nat := do
  match (← get).next? with
  | some c =>
    if !c.isDigit then return 0
    check (c != '0')
    skipWord 1
    return c.toNat - '0'.toNat
  | none => return 0

/-- The marks after the first, in either order. -/
def blockMarks : Scan (Chomping × Nat) := do
  match ← chomping with
  | some chomping => return (chomping, ← increment)
  | none =>
    let increment ← increment
    let chomping ← if increment = 0 then pure none else chomping
    return (chomping.getD .clip, increment)

/-- Empty lines, and the blanks of the line after them, up to the indentation of a block. -/
def skipIndent (indent : Nat) : (fuel : Nat) → (breaks : Nat) → Scan Nat
  | 0, breaks => return breaks
  | fuel + 1, breaks => do
    let cursor ← get
    let blanks := (cursor.rest.takeWhile (· == ' ')).length
    set (cursor.pastBlanks (min blanks (indent - cursor.column)))
    if ((← get).next?.map isBreak) == some true then
      skipBreak
      skipIndent indent fuel (breaks + 1)
    else return breaks

/-- Empty lines, and the blanks of the line after them; also the widest of these margins. -/
def skipMargins : (fuel : Nat) → (widest breaks : Nat) → Scan (Nat × Nat)
  | 0, widest, breaks => return (widest, breaks)
  | fuel + 1, widest, breaks => do
    let _ ← skipBlanks (· == ' ')
    let cursor ← get
    let widest := max widest cursor.column
    if (cursor.next?.map isBreak) == some true then
      skipBreak
      skipMargins fuel widest (breaks + 1)
    else return (widest, breaks)

/-- Lines of a block as far as they are read. -/
structure Block where
  text : List Char
  /-- Whether the last line has an end. -/
  ended : Bool
  /-- The empty lines after it. -/
  breaks : Nat
  /-- Whether the last line began with a blank, so that its end is not folded. -/
  spaced : Bool

/-- The text that the end of the last line stands for. -/
def Block.joint (literal spaced : Bool) (block : Block) : List Char :=
  let breaks := List.replicate block.breaks '\n'
  if !literal && block.ended && !block.spaced && !spaced then
    if block.breaks = 0 then [' '] else breaks
  else if block.ended then '\n' :: breaks
  else breaks

def blockLines (literal : Bool) (indent : Nat) : (fuel : Nat) → Block → Scan Block
  | 0, block => return block
  | fuel + 1, block => do
    let cursor ← get
    if cursor.column ≠ indent || cursor.rest.isEmpty || cursor.seesDocumentMark then return block
    let spaced := (cursor.next?.map isBlank) == some true
    let line ← takeWhile fun c => !isBreak c
    let text := block.text ++ block.joint literal spaced ++ line
    if (← get).rest.isEmpty then return ⟨text, false, 0, spaced⟩
    skipBreak
    let breaks ← skipIndent indent cursor.rest.length 0
    blockLines literal indent fuel ⟨text, true, breaks, spaced⟩

/-- A block after its first mark. `indent` is the column of what holds it, or -1. -/
def block (literal : Bool) (indent : Int) : Scan String := do
  let start ← get
  skipWord 1
  let (chomping, increment) ← blockMarks
  let _ ← skipGap
  check (endsLine (← get).next?)
  let begun := !(← get).rest.isEmpty
  if begun then skipBreak
  check ((← get).next? != some '\t')
  let fuel := start.rest.length
  let (column, breaks) ←
    if increment > 0 then
      let column := increment + indent.toNat
      pure (column, ← skipIndent column fuel 0)
    else
      let (widest, breaks) ← skipMargins fuel 0 0
      pure (max widest (indent + 1).toNat, breaks)
  let cursor ← get
  if cursor.rest.isEmpty then
    return String.ofList (match chomping with
      | .strip => []
      | .clip => if begun then ['\n'] else []
      | .keep => if begun then List.replicate (max 1 breaks) '\n' else [])
  check !(cursor.column < column && indent < cursor.column)
  let read ← blockLines literal column fuel ⟨[], false, breaks, false⟩
  let cursor ← get
  let last :=
    if chomping = .strip then []
    else
      (if read.ended then ['\n'] else [])
        ++ (if cursor.rest.isEmpty && max column 1 ≤ cursor.column then ['\n'] else [])
  let tail := if chomping = .keep then List.replicate read.breaks '\n' else []
  return String.ofList (read.text ++ last ++ tail)

end FileBroker.Data.Yaml
