import FileBroker.Data.Entry
import FileBroker.Data.Toml.Scalar

/-!
Documents in the TOML notation. A key may be set once, a table may be opened by one heading, and
neither dotted keys nor headings add to what is written as a single value.
-/
namespace FileBroker.Data.Toml

open Scanner

/-! ### Tables under construction -/

/-- What stands under a key. -/
inductive Node where
  | value (value : Value)
  /-- `implicit` until a heading opens it; `dotted` if a dotted key has made it. -/
  | table (implicit dotted : Bool) (entries : List (String × Node))
  /-- The tables of one repeated heading. -/
  | tables (items : List (List (String × Node)))

abbrev Nodes := List (String × Node)

mutual

def Node.toValue : Node → Value
  | .value written => written
  | .table _ _ entries => .table (Node.toEntries entries)
  | .tables items => .list (Node.toItems items)

def Node.toEntries : Nodes → List (String × Value)
  | [] => []
  | (key, node) :: rest => (key, node.toValue) :: Node.toEntries rest

def Node.toItems : List Nodes → List Value
  | [] => []
  | item :: rest => .table (Node.toEntries item) :: Node.toItems rest

end

namespace Nodes

/-- Changes the table at the end of a path, which is made where it is missing. A dotted key does not
reach into tables that a heading has opened. The change is told whether dotted keys made it. -/
def reach? (byDots : Bool) (change : Bool → Nodes → Option Nodes) :
    (path : List String) → (dotted : Bool) → Nodes → Option Nodes
  | [], dotted, nodes => change dotted nodes
  | key :: path, _, nodes =>
    match nodes.lookup key with
    | none => do
      let inner ← reach? byDots change path byDots []
      return put nodes key (.table true byDots inner)
    | some (.value _) => none
    | some (.tables items) => do
      let inner ← reach? byDots change path false (items.getLastD [])
      return put nodes key (.tables (items.dropLast ++ [inner]))
    | some (.table implicit dotted inner) =>
      if byDots && !implicit then none
      else do
        let inner ← reach? byDots change path dotted inner
        return put nodes key (.table implicit dotted inner)

/-- Sets a key that may be dotted. -/
def set? (nodes : Nodes) (path : List String) (value : Value) : Option Nodes :=
  let parents := path.dropLast
  let key := path.getLastD ""
  nodes.reach? true (fun dotted inner =>
    if dotted = parents.isEmpty ∨ (inner.lookup key).isSome then none
    else some (put inner key (.value value))) parents false

end Nodes

/-! ### Values -/

def skipBlanks : Scanner Unit := do
  let _ ← takeWhile isBlank

/-- Takes off a comment, up to the end of its line. -/
def skipComment : Scanner Unit := do
  if ← accept "#" then
    let _ ← takeWhile fun c => !isControl c

/-- Takes off blanks, comments and line ends; `fuel` bounds the lines. -/
def skipLines : (fuel : Nat) → Scanner Unit
  | 0 => skipBlanks
  | fuel + 1 => do
    skipBlanks
    skipComment
    if ← acceptNewline then skipLines fuel

def isBare (c : Char) : Bool := c.isAlphanum || c == '_' || c == '-'

def simpleKey : Scanner String := do
  let bare ← takeWhile isBare
  if bare.isEmpty then simpleString else return String.ofList bare

/-- Neither keys nor values reach deeper. -/
def depthLimit : Nat := 79

/-- A key, and the keys after it that dots join to it, at most so many. -/
def keys : (limit : Nat) → Scanner (List String)
  | 0 => failure
  | limit + 1 => do
    skipBlanks
    let first ← simpleKey
    skipBlanks
    if ← accept "." then return first :: (← keys limit) else return [first]

def key : Scanner (List String) := keys depthLimit

mutual

/-- A value in which lists and tables stand at most `depth` deep. -/
def value : (fuel depth : Nat) → Scanner Value
  | 0, _ => failure
  | fuel + 1, depth => do
    if ← accept "true" then return .bool true
    else if ← accept "false" then return .bool false
    else if ← accept "[" then
      if depth = 0 then failure else return .list (← items fuel (depth - 1))
    else if ← accept "\x7b" then
      skipBlanks
      if depth = 0 then failure
      else if ← accept "\x7d" then return .table []
      else entries fuel (depth - 1) []
    else match ← peek with
    | some '"' | some '\'' => return .text (← string)
    | _ =>
      match ← attempt moment with
      | some moment => return moment
      | none => number

/-- The rest of a list; a comma may follow its last item. -/
def items : (fuel depth : Nat) → Scanner (List Value)
  | 0, _ => failure
  | fuel + 1, depth => do
    skipLines (← get).length
    if ← accept "]" then return []
    else
      let first ← value fuel depth
      skipLines (← get).length
      if ← accept "," then return first :: (← items fuel depth)
      else
        expect "]"
        return [first]

/-- The rest of a table on one line. -/
def entries : (fuel depth : Nat) → Nodes → Scanner Value
  | 0, _, _ => failure
  | fuel + 1, depth, nodes => do
    let path ← key
    expect "="
    skipBlanks
    let set ← nodes.set? path (← value fuel depth)
    skipBlanks
    if ← accept "," then entries fuel depth set
    else
      expect "\x7d"
      return .table (Node.toEntries set)

end

/-! ### Documents -/

/-- A document as far as it is read: its tables, and the path of the one that is being filled. -/
structure Draft where
  root : Nodes
  path : List String

namespace Draft

/-- Sets a key in the table that is being filled. -/
def set? (draft : Draft) (path : List String) (value : Value) : Option Draft := do
  let root ← draft.root.reach? false (fun _ nodes => nodes.set? path value) draft.path false
  return { draft with root }

/-- Opens a table; of the tables before it, only one that nothing has opened yet may go on. -/
def openTable? (draft : Draft) (path : List String) : Option Draft := do
  let key := path.getLastD ""
  let root ← draft.root.reach? false (fun _ nodes =>
    match nodes.lookup key with
    | none => some (put nodes key (.table false false []))
    | some (.table true false inner) => some (put nodes key (.table false false inner))
    | some _ => none) path.dropLast false
  return ⟨root, path⟩

/-- Adds a table to those of a repeated heading. -/
def openItem? (draft : Draft) (path : List String) : Option Draft := do
  let key := path.getLastD ""
  let root ← draft.root.reach? false (fun _ nodes =>
    match nodes.lookup key with
    | none => some (put nodes key (.tables [[]]))
    | some (.tables items) => some (put nodes key (.tables (items ++ [[]])))
    | some _ => none) path.dropLast false
  return ⟨root, path⟩

end Draft

/-- One line: a heading, or a key with its value, or neither. -/
def line (draft : Draft) : Scanner Draft := do
  skipBlanks
  if ← accept "[[" then
    let path ← key
    expect "]]"
    draft.openItem? path
  else if ← accept "[" then
    let path ← key
    expect "]"
    draft.openTable? path
  else
    match ← peek with
    | none | some '#' | some '\n' | some '\x0d' => return draft
    | _ =>
      let path ← key
      expect "="
      skipBlanks
      draft.set? path (← value ((← get).length + 1) depthLimit)

def lines : (fuel : Nat) → Draft → Scanner Draft
  | 0, _ => failure
  | fuel + 1, draft => do
    let draft ← line draft
    skipBlanks
    skipComment
    if ← acceptNewline then lines fuel draft else return draft

/-- A document, which a byte order mark may precede. -/
def document : Scanner Draft := do
  let _ ← accept "\ufeff"
  lines ((← get).length + 1) ⟨[], []⟩

/-- A whole document. -/
def read? (text : String) : Option Value :=
  (whole? document text).map fun draft => .table (Node.toEntries draft.root)

end FileBroker.Data.Toml
