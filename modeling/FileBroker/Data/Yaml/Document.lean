import FileBroker.Data.Yaml.Lexer
import FileBroker.Data.Yaml.Node

/-! Documents of the YAML notation: tokens made into nodes. -/
namespace FileBroker.Data.Yaml

/-- The tokens that are left, and what names stand for in the document. -/
structure Reading where
  tokens : List Token
  anchors : List (String × Node)
  rules : List (String × String)

abbrev Parse := StateT Reading Option

namespace Parse

def next? : Parse (Option Token) := return (← get).tokens.head?

def skip : Parse Unit := modify fun reading => { reading with tokens := reading.tokens.tail }

/-- Whether the next token is one of these. -/
def sees (tokens : List Token) : Parse Bool := do
  match ← next? with
  | some token => return tokens.contains token
  | none => return false

def accept (token : Token) : Parse Bool := do
  let seen ← sees [token]
  if seen then skip
  return seen

def expect (token : Token) : Parse Unit := do
  if !(← accept token) then failure

/-- An anchor stands for nothing until the end of its node. -/
def name (anchor : String) (node : Node) : Parse Unit :=
  modify fun reading => { reading with anchors := put reading.anchors anchor node }

/-- A handle may have a rule; of those that need one, only the doubled mark has a standard one. -/
def tag (handle suffix : String) : Parse Tag := do
  match (← get).rules.lookup handle with
  | some start => return ⟨start, suffix⟩
  | none =>
    if handle == "!!" then return ⟨"tag:yaml.org,2002:", suffix⟩
    else if Lexing.isHandle handle then failure
    else return ⟨handle, suffix⟩

/-- An anchor and a tag before a node, in either order. -/
def properties : Parse (Option String × Option Tag) := do
  match ← next? with
  | some (.anchor anchor) =>
    skip
    name anchor .null
    match ← next? with
    | some (.tag handle suffix) =>
      skip
      return (some anchor, some (← tag handle suffix))
    | _ => return (some anchor, none)
  | some (.tag handle suffix) =>
    skip
    let tag ← tag handle suffix
    match ← next? with
    | some (.anchor anchor) =>
      skip
      name anchor .null
      return (some anchor, some tag)
    | _ => return (none, some tag)
  | _ => return (none, none)

/-- Where a part of a block mapping is empty. -/
def blockEnds : List Token := [.key, .value, .blockEnd]

mutual

/-- A node; a sequence that is the value of a key need not be indented. -/
def node : (fuel : Nat) → (inBlock unindented : Bool) → Parse Node
  | 0, _, _ => failure
  | fuel + 1, inBlock, unindented => do
    match ← next? with
    | some (.alias anchor) =>
      skip
      match (← get).anchors.lookup anchor with
      | some node => return node
      | none => failure
    | _ =>
      let (anchor, tag) ← properties
      let read ← content fuel inBlock unindented tag (anchor.isSome || tag.isSome)
      match anchor with
      | some anchor => name anchor read
      | none => pure ()
      return read

/-- A node without its properties, after which it may be empty. -/
def content : (fuel : Nat) → (inBlock unindented : Bool) → Option Tag → (mayBeEmpty : Bool) →
    Parse Node
  | 0, _, _, _, _ => failure
  | fuel + 1, inBlock, unindented, tag, mayBeEmpty => do
    match ← next? with
    | some (.scalar isPlain text) =>
      skip
      return .ofScalar isPlain tag text
    | some .flowSequenceStart =>
      skip
      return .list (← flowItems fuel true)
    | some .flowMappingStart =>
      skip
      return .table (← flowEntries fuel true [])
    | some .sequenceStart =>
      if !inBlock then failure
      skip
      return .list (← blockItems fuel)
    | some .mappingStart =>
      if !inBlock then failure
      skip
      return .table (← blockEntries fuel [])
    | some .item =>
      if unindented then return .list (← unindentedItems fuel)
      else if mayBeEmpty then return .ofScalar true tag ""
      else failure
    | _ => if mayBeEmpty then return .ofScalar true tag "" else failure

def blockItems : (fuel : Nat) → Parse (List Node)
  | 0 => failure
  | fuel + 1 => do
    if ← accept .blockEnd then return []
    expect .item
    let first ← if ← sees [.item, .blockEnd] then pure Node.null else node fuel true false
    return first :: (← blockItems fuel)

def unindentedItems : (fuel : Nat) → Parse (List Node)
  | 0 => failure
  | fuel + 1 => do
    if !(← accept .item) then return []
    let first ←
      if ← sees (.item :: blockEnds) then pure Node.null else node fuel true false
    return first :: (← unindentedItems fuel)

def blockEntries : (fuel : Nat) → List (Node × Node) → Parse (List (Node × Node))
  | 0, _ => failure
  | fuel + 1, read => do
    if ← accept .blockEnd then return read
    let key ←
      if ← accept .key then
        if ← sees blockEnds then pure Node.null else node fuel true true
      else if ← sees [.value] then pure Node.null
      else failure
    let value ←
      if ← accept .value then
        if ← sees blockEnds then pure Node.null else node fuel true true
      else pure Node.null
    blockEntries fuel (← Node.add? read key value)

/-- The items up to a closing bracket; an item may be a single entry of a table. -/
def flowItems : (fuel : Nat) → (first : Bool) → Parse (List Node)
  | 0, _ => failure
  | fuel + 1, first => do
    if ← accept .flowSequenceEnd then return []
    if !first then expect .comma
    if ← accept .flowSequenceEnd then return []
    let ends : List Token := [.comma, .flowSequenceEnd]
    let item ←
      if ← sees [.key, .value] then
        let key ←
          if ← accept .key then
            if ← sees (.value :: ends) then pure Node.null else node fuel false false
          else pure Node.null
        pure (Node.table [(key, ← flowValue fuel ends)])
      else node fuel false false
    return item :: (← flowItems fuel false)

def flowEntries : (fuel : Nat) → (first : Bool) → List (Node × Node) → Parse (List (Node × Node))
  | 0, _, _ => failure
  | fuel + 1, first, read => do
    if ← accept .flowMappingEnd then return read
    if !first then expect .comma
    if ← accept .flowMappingEnd then return read
    let ends : List Token := [.comma, .flowMappingEnd]
    if ← accept .key then
      let key ← if ← sees (.value :: ends) then pure Node.null else node fuel false false
      flowEntries fuel false (← Node.add? read key (← flowValue fuel ends))
    else if ← sees [.value] then
      flowEntries fuel false (← Node.add? read .null (← flowValue fuel ends))
    else
      let key ← node fuel false false
      flowEntries fuel false (← Node.add? read key .null)

/-- The value after a key between brackets, if it has one. -/
def flowValue : (fuel : Nat) → (ends : List Token) → Parse Node
  | 0, _ => failure
  | fuel + 1, ends => do
    if ← accept .value then
      if ← sees ends then return .null else node fuel false false
    else return .null

end

/-! ### Documents -/

/-- What stands before a document, of which only the last line counts; tells whether there is any. A
version is given once. -/
def directives : (fuel : Nat) → (versioned : Bool) → Parse Bool
  | 0, _ => failure
  | fuel + 1, versioned => do
    match ← next? with
    | some .version =>
      if versioned then failure
      modify fun reading => { reading with tokens := reading.tokens.tail, rules := [] }
      let _ ← directives fuel true
      return true
    | some (.tagRule handle start) =>
      modify fun reading =>
        { reading with tokens := reading.tokens.tail, rules := [(handle, start)] }
      let _ ← directives fuel versioned
      return true
    | _ => return false

/-- Whether a document ends before the next token. -/
def atDocumentEnd : Parse Bool := do
  match ← next? with
  | none | some .version | some (.tagRule ..) => return true
  | some .documentStart | some .documentEnd => return true
  | _ => return false

/-- The documents of a stream. One that no line ends is followed only by one that a line begins. -/
def documents : (fuel : Nat) → (afterEnd : Bool) → Parse (List Node)
  | 0, _ => failure
  | fuel + 1, afterEnd => do
    let ended ← accept .documentEnd
    if ended then documents fuel true
    else if (← next?).isNone then return []
    else
      modify fun reading => { reading with anchors := [], rules := [] }
      let size := (← get).tokens.length
      let ruled ← directives (size + 1) false
      if ruled && !afterEnd then failure
      let begun ← accept .documentStart
      if !begun && (ruled || !afterEnd) then failure
      let root ←
        if begun && (← atDocumentEnd) then pure Node.null else node (4 * size + 4) true false
      return root :: (← documents fuel false)

end Parse

/-- A text of one document; without any, it is an empty table. -/
def read? (text : String) : Option Value := do
  let tokens ← tokens? text
  let (roots, _) ← Parse.documents (tokens.length + 1) true ⟨tokens, [], []⟩
  match roots with
  | [] => return .table []
  | [root] => root.toValue?
  | _ => none

end FileBroker.Data.Yaml
