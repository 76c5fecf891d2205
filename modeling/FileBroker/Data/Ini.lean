import FileBroker.Data.Entry
import FileBroker.Data.Scanner
import FileBroker.Data.Value

/-!
Reading the INI notation: keys with text, alone or in sections. A backslash escapes, a value may
begin with a quoted part, and a key, which ends only at its mark, may go over several lines.
-/
namespace FileBroker.Data.Ini

open Scanner

/-- What stands for a backslash and the character after it; nothing does for a line end. -/
def escaped : Scanner (List Char) := do
  match ← next with
  | '0' => return ['\x00']
  | 'a' => return ['\x07']
  | 'b' => return ['\x08']
  | 't' => return ['\t']
  | 'r' => return ['\x0d']
  | 'n' => return ['\n']
  | '\n' => return []
  | 'x' => return [← numberedChar 4]
  | c => return [c]

/-- One part of a text that goes on until `ends` holds. -/
def part (ends : Option Char → Bool) : Scanner (Option (List Char)) := do
  if ends (← peek) then return none
  else if ← accept "\\" then return some (← escaped)
  else return some [← next]

/-- Text up to where `ends` holds first. -/
def textUntil (ends : Option Char → Bool) : Scanner (List Char) :=
  List.flatten <$> many (part ends)

/-- Whether a line ends, by either of its marks or with the text. -/
def isLineEnd : Option Char → Bool
  | none => true
  | some c => c == '\n' || c == '\x0d'

/-- A value, which may begin with a part in quotes. -/
def value : Scanner String := do
  let _ ← takeWhile fun c => Text.isBlank c && !isLineEnd (some c)
  let first ←
    if ← accept "\"" then quoted '"'
    else if ← accept "'" then quoted '\''
    else pure []
  let rest ← textUntil isLineEnd
  return String.ofList (Text.trim (first ++ rest))
where
  quoted (quote : Char) : Scanner (List Char) := do
    let inside ← textUntil (· == some quote)
    let _ ← next
    return inside

/-- What has been read: the entries, and the heading that further ones stand under. -/
structure Draft where
  entries : List (String × Value)
  heading : Option String

namespace Draft

def empty : Draft := ⟨[], none⟩

/-- A section that comes again replaces the one before. -/
def openSection (draft : Draft) (name : String) : Draft :=
  ⟨put draft.entries name (.table []), some name⟩

def add (draft : Draft) (key : String) (value : Value) : Draft :=
  match draft.heading with
  | none => { draft with entries := put draft.entries key value }
  | some name =>
    let inner := match draft.entries.lookup name with
      | some (.table inner) => inner
      | _ => []
    { draft with entries := put draft.entries name (.table (put inner key value)) }

end Draft

/-- White space; tells whether it leads to the beginning of a line. -/
def skipBlanks (atLineStart : Bool) : Scanner Bool := do
  let blanks ← takeWhile Text.isBlank
  return match blanks.getLast? with
    | none => atLineStart
    | some last => last == '\n'

/-- All that is left of a text. Comments have lines of their own. -/
def items : (fuel : Nat) → (atLineStart : Bool) → Draft → Scanner Draft
  | 0, _, _ => failure
  | fuel + 1, atLineStart, draft => do
    let atLineStart ← skipBlanks atLineStart
    match ← peek with
    | none => return draft
    | some ';' | some '#' =>
      if !atLineStart then failure
      let _ ← takeWhile (· != '\n')
      items fuel true draft
    | some '[' =>
      let _ ← next
      let name ← textUntil (· == some ']')
      let _ ← next
      items fuel false (draft.openSection (String.ofList (Text.trim name)))
    | _ =>
      let key ← textUntil fun c => c == some '=' || c == some ':'
      let _ ← next
      let key := Text.trim key
      if key.isEmpty then failure
      items fuel false (draft.add (String.ofList key) (.text (← value)))

/-- A whole document. -/
def read? (text : String) : Option Value :=
  (whole? (items (text.length + 1) true .empty) text).map fun draft => .table draft.entries

end FileBroker.Data.Ini
