import FileBroker.Request.Fields
import FileBroker.Wire.Batch

/-! Requests: encoding, decoding, and drafting one with its trailing buffer. -/
namespace FileBroker

/-- A command together with the trailing buffer its regions point into. -/
structure Request where
  revision : Revision
  hint : Hint
  command : Command
  trailing : Bytes
  deriving DecidableEq, Repr

namespace Request

def fixedSize : Nat := Direction.request.fixedSize

def kind (request : Request) : Kind := request.command.kind

/-- The declared message size, without alignment padding. -/
def encodedSize (request : Request) : Nat := fixedSize + request.trailing.length

def withHint (request : Request) (hint : Hint) : Request := { request with hint }

def resolve (request : Request) (region : Region) : Except FormatError Bytes :=
  region.resolveTrailing request.trailing fixedSize

/-- The text of a region that holds UTF-8, such as a file name. -/
def resolveText (request : Request) (region : Region) : Except FormatError String := do
  let bytes ← request.resolve region
  match String.fromUTF8? ⟨bytes.toArray⟩ with
  | some text => return text
  | none => throw (.invalidPayload "region is not utf-8")

def header (request : Request) : Header :=
  ⟨request.revision.number, UInt16.ofNat request.encodedSize, request.kind.number, request.hint⟩

/-- The field area: the command's fields, then zeros. -/
def fieldArea (command : Command) : Bytes :=
  let fields := command.put
  fields ++ List.replicate (Layout.requestFieldsSize - fields.length) 0

/-- The message without its padding. -/
def message (request : Request) : Bytes :=
  request.header.put ++ fieldArea request.command ++ request.trailing

/-- The message as it stands in a batch. -/
def encode (request : Request) : Bytes := Layout.pad request.message

/-- Every region of the command lies in a message of `size` bytes. -/
def checkRegions (command : Command) (size : Nat) : Except FormatError Unit :=
  command.regions.forM fun region => region.check size fixedSize

/-- Reads a framed request of the given revision. The first fault in message order is reported:
size, revision, bound, kind, fields, regions. -/
def decode (frame : Frame) (revision : Revision) : Except FormatError Request := do
  let bytes := frame.bytes
  if bytes.length < fixedSize then throw (.tooSmall bytes.length fixedSize)
  let header := frame.header
  header.expect revision
  let limit := revision.messageLimit
  if limit < bytes.length then throw (.tooLarge bytes.length limit)
  let kind ← header.kind?
  let area := (bytes.drop Layout.headerSize).take Layout.requestFieldsSize
  let command ← (Command.reader kind).runOn area
  checkRegions command bytes.length
  return ⟨revision, header.hint, command, bytes.drop fixedSize⟩

/-- A trailing buffer under construction. -/
structure Draft where
  revision : Revision
  trailing : Bytes
  deriving DecidableEq, Repr

namespace Draft

def new (revision : Revision) : Draft := ⟨revision, []⟩

/-- Appends bytes and names them by a region; refused when the message would pass its bound. -/
def append (draft : Draft) (bytes : Bytes) : Except FormatError (Region × Draft) :=
  let offset := fixedSize + draft.trailing.length
  let stop := offset + bytes.length
  let limit := draft.revision.messageLimit
  if limit < stop then .error (.tooLarge stop limit)
  else .ok (⟨UInt16.ofNat offset, UInt16.ofNat bytes.length⟩,
    { draft with trailing := draft.trailing ++ bytes })

/-- The request has hint zero until it is posted. -/
def build (draft : Draft) (command : Command) : Except FormatError Request := do
  checkRegions command (fixedSize + draft.trailing.length)
  return ⟨draft.revision, ⟨0⟩, command, draft.trailing⟩

end Draft
end Request

def Batch.writeRequest (buffer : Buffer) (cursor : Nat) (request : Request) :
    Except FormatError (Nat × Buffer) :=
  write buffer cursor request.message request.revision.messageLimit

def Batch.Writer.pushRequest (writer : Writer) (request : Request) : Except FormatError Writer :=
  writer.push request.message request.revision.messageLimit

end FileBroker
