import FileBroker.Data.Scanner

/-!
A position in a text in which lines and columns count. Blanks at the beginning of a line make up its
margin; only a word ends the margin.
-/
namespace FileBroker.Data.Yaml

def isBlank (c : Char) : Bool := c == ' ' || c == '\t'

def isBreak (c : Char) : Bool := c == '\n' || c == '\x0d'

/-- Brackets and commas, which have a meaning of their own between brackets. -/
def isFlowMark (c : Char) : Bool := [',', '[', ']', '\x7b', '\x7d'].contains c

/-- Whether a line ends before a character, or before the end of the text. -/
def endsLine : Option Char → Bool
  | none => true
  | some c => isBreak c

/-- Whether a word ends there. -/
def endsWord : Option Char → Bool
  | none => true
  | some c => isBlank c || isBreak c

structure Cursor where
  /-- The text that is left. -/
  rest : List Char
  /-- How many characters have been read. -/
  index : Nat
  line : Nat
  column : Nat
  inMargin : Bool
  deriving DecidableEq, Repr

namespace Cursor

def start (text : List Char) : Cursor := ⟨text, 0, 0, 0, true⟩

def next? (cursor : Cursor) : Option Char := cursor.rest.head?

def second? (cursor : Cursor) : Option Char := cursor.rest.tail.head?

/-- Past so many blanks. -/
def pastBlanks (cursor : Cursor) (count : Nat) : Cursor :=
  { cursor with
    rest := cursor.rest.drop count
    index := cursor.index + count
    column := cursor.column + count }

/-- Past so many characters, at least one, that are no line ends. -/
def pastWord (cursor : Cursor) (count : Nat) : Cursor :=
  { cursor.pastBlanks count with inMargin := false }

/-- Past a line end, which may be two characters. -/
def pastBreak (cursor : Cursor) : Cursor :=
  match cursor.rest with
  | '\x0d' :: '\n' :: rest => ⟨rest, cursor.index + 2, cursor.line + 1, 0, true⟩
  | _ :: rest => ⟨rest, cursor.index + 1, cursor.line + 1, 0, true⟩
  | [] => cursor

/-- Whether three such marks stand alone at the beginning of a line. -/
def seesMark (cursor : Cursor) (mark : Char) : Bool :=
  cursor.column == 0 && match cursor.rest with
    | a :: b :: c :: rest => [a, b, c].all (· == mark) && endsWord rest.head?
    | _ => false

/-- Whether a document begins or ends here. -/
def seesDocumentMark (cursor : Cursor) : Bool := cursor.seesMark '-' || cursor.seesMark '.'

end Cursor

/-! ### Reading at a cursor -/

/-- Reads on from a cursor, or fails. -/
abbrev Scan := StateT Cursor Option

namespace Scan

def check (holds : Bool) : Scan Unit := if holds then return else failure

/-- Past so many characters of a word. -/
def skipWord (count : Nat) : Scan Unit := modify fun cursor => cursor.pastWord count

def skipBreak : Scan Unit := modify Cursor.pastBreak

/-- Takes off the mark if the text goes on with it. -/
def accept (mark : Char) : Scan Bool := do
  let seen := (← get).next? == some mark
  if seen then skipWord 1
  return seen

/-- Takes characters of a word off while they satisfy `p`. -/
def takeWhile (p : Char → Bool) : Scan (List Char) := do
  let run := (← get).rest.takeWhile p
  if !run.isEmpty then skipWord run.length
  return run

/-- Takes off blanks that satisfy `p`. -/
def skipBlanks (p : Char → Bool) : Scan (List Char) := do
  let run := (← get).rest.takeWhile p
  modify fun cursor => cursor.pastBlanks run.length
  return run

/-- Up to the end of the line, without its mark. -/
def skipComment : Scan Unit := do
  let _ ← takeWhile fun c => !isBreak c

/-- Takes off blanks and then a comment, which may not stand without a blank before it. -/
def skipGap : Scan (List Char) := do
  let blanks ← skipBlanks isBlank
  if (← get).next? == some '#' then
    check !blanks.isEmpty
    skipComment
  return blanks

/-- A character by its number, in so many hexadecimal digits. -/
def numberedChar (digits : Nat) : Scan Char := do
  let written := (← get).rest.take digits
  check (written.length == digits)
  match (Text.hexNumber? written).bind Text.numbered? with
  | some c =>
    skipWord digits
    return c
  | none => failure

end Scan
end FileBroker.Data.Yaml
