import FileBroker.Request.Basic
import FileBroker.Response.Answer
import FileBroker.Status

/-!
Responses: encoding, decoding, drafting, and the check that a response answers its request. A
response that passes the check never hands a caller more data than it asked for.
-/
namespace FileBroker

/-- `information` is a count whose meaning depends on the kind, such as bytes transferred. -/
structure IoStatus where
  status : Status
  information : UInt64
  deriving DecidableEq, Repr

structure Response where
  revision : Revision
  hint : Hint
  io : IoStatus
  answer : Answer
  trailing : Bytes
  deriving DecidableEq, Repr

namespace Response

def fixedSize : Nat := Direction.response.fixedSize

/-- A response that carries nothing but a status. -/
def ofStatus (revision : Revision) (hint : Hint) (kind : Kind) (status : Status) : Response :=
  ⟨revision, hint, ⟨status, 0⟩, .empty kind, []⟩

def kind (response : Response) : Kind := response.answer.kind

def status (response : Response) : Status := response.io.status

def encodedSize (response : Response) : Nat := fixedSize + response.trailing.length

def resolve (response : Response) (region : Region) : Except FormatError Bytes :=
  region.resolveTrailing response.trailing fixedSize

/-- The bytes of the kind's data region; empty for a kind that has none. -/
def data (response : Response) : Except FormatError Bytes :=
  match response.answer.dataRegion with
  | some region => response.resolve region
  | none => .ok []

/-- A whole message without padding; `fields` fill the front of the field area. -/
def frameMessage (revision : Revision) (hint : Hint) (kind : UInt32) (io : IoStatus)
    (fields trailing : Bytes) : Bytes :=
  (⟨revision.number, UInt16.ofNat (fixedSize + trailing.length), kind, hint⟩ : Header).put
    ++ LittleEndian.u64 io.information ++ LittleEndian.u32 io.status.code ++ LittleEndian.u32 0
    ++ fields ++ List.replicate (Layout.responseFieldsSize - fields.length) 0 ++ trailing

def message (response : Response) : Bytes :=
  frameMessage response.revision response.hint response.kind.number response.io
    response.answer.put response.trailing

def encode (response : Response) : Bytes := Layout.pad response.message

/-- A bare status under a kind number that need not name a kind. -/
def statusMessage (revision : Revision) (hint : Hint) (kind : UInt32) (status : Status) : Bytes :=
  frameMessage revision hint kind ⟨status, 0⟩ [] []

def ioReader : Reader IoStatus := do
  let information ← Reader.u64 "io_status.information"
  let code ← Reader.u32 "io_status.status"
  return ⟨⟨code⟩, information⟩

def checkRegion (answer : Answer) (size : Nat) : Except FormatError Unit :=
  match answer.dataRegion with
  | some region => region.check size fixedSize
  | none => .ok ()

/-- Reads a framed response of the given revision; faults are reported in the order size,
revision, bound, kind, fields, region. -/
def decode (frame : Frame) (revision : Revision) : Except FormatError Response := do
  let bytes := frame.bytes
  if bytes.length < fixedSize then throw (.tooSmall bytes.length fixedSize)
  let header := frame.header
  header.expect revision
  let limit := revision.messageLimit
  if limit < bytes.length then throw (.tooLarge bytes.length limit)
  let kind ← header.kind?
  let body := bytes.drop Layout.headerSize
  let io ← ioReader.runOn (body.take Layout.ioStatusSize)
  let area := (body.drop Layout.ioStatusSize).take Layout.responseFieldsSize
  let answer ← (Answer.reader kind).runOn area
  checkRegion answer bytes.length
  return ⟨revision, header.hint, io, answer, bytes.drop fixedSize⟩

/-- The most data and the largest count a response to `command` may carry. -/
def limitFor : Command → Option Nat
  | .write _ _ data _ _ => some data.size.toNat
  | command => command.requestedLength.map UInt32.toNat

/-- Whether a response may answer a request: same kind, no data beside a failure, no more data
than asked for, and for a success of bounded length a count equal to the size of the data. -/
def validate (response : Response) (request : Request) : Except FormatError Unit := do
  if response.kind ≠ request.kind then
    throw (.invalidPayload "response kind does not match request")
  if !response.status.isSuccess && !response.trailing.isEmpty then
    throw (.invalidPayload "failure response carries data")
  let size := (response.answer.dataRegion.map fun region => region.size.toNat).getD 0
  let information := response.io.information.toNat
  if let some limit := limitFor request.command then
    if limit < size then throw (.invalidPayload "data longer than requested")
    if limit < information then throw (.invalidPayload "information exceeds requested length")
  if request.command.requestedLength.isSome && response.status.isSuccess
      && information != size then
    throw (.invalidPayload "information does not match data size")

/-- A response under construction by a handler. -/
structure Draft where
  revision : Revision
  hint : Hint
  io : IoStatus
  answer : Answer
  trailing : Bytes
  deriving DecidableEq, Repr

namespace Draft

def new (revision : Revision) (hint : Hint) (kind : Kind) : Draft :=
  ⟨revision, hint, ⟨.success, 0⟩, .empty kind, []⟩

def ofRequest (request : Request) : Draft := new request.revision request.hint request.kind

def kind (draft : Draft) : Kind := draft.answer.kind

def encodedSize (draft : Draft) : Nat := fixedSize + draft.trailing.length

/-- Appends bytes and names them by a region; refused when the message would pass its bound. -/
def append (draft : Draft) (bytes : Bytes) : Except FormatError (Region × Draft) :=
  let offset := draft.encodedSize
  let stop := offset + bytes.length
  let limit := draft.revision.messageLimit
  if limit < stop then .error (.tooLarge stop limit)
  else .ok (⟨UInt16.ofNat offset, UInt16.ofNat bytes.length⟩,
    { draft with trailing := draft.trailing ++ bytes })

/-- The answer must be of the draft's kind, which never changes. -/
def setAnswer (draft : Draft) (answer : Answer) : Except FormatError Draft :=
  if answer.kind ≠ draft.kind then
    .error (.invalidPayload "response kind does not match request")
  else .ok { draft with answer }

def setStatus (draft : Draft) (status : Status) (information : UInt64) : Draft :=
  { draft with io := ⟨status, information⟩ }

/-- Drops the answer and all data, leaving a bare status. -/
def resetToStatus (draft : Draft) (status : Status) : Draft :=
  { draft with answer := .empty draft.kind, trailing := [], io := ⟨status, 0⟩ }

def build (draft : Draft) : Except FormatError Response := do
  checkRegion draft.answer draft.encodedSize
  return ⟨draft.revision, draft.hint, draft.io, draft.answer, draft.trailing⟩

end Draft
end Response

namespace Batch

def writeResponse (buffer : Buffer) (cursor : Nat) (response : Response) :
    Except FormatError (Nat × Buffer) :=
  write buffer cursor response.message response.revision.messageLimit

/-- Answers a request that could not be decoded, echoing its kind number. -/
def writeStatus (buffer : Buffer) (cursor : Nat) (revision : Revision) (hint : Hint)
    (kind : UInt32) (status : Status) : Except FormatError (Nat × Buffer) :=
  write buffer cursor (Response.statusMessage revision hint kind status) revision.messageLimit

def Writer.pushResponse (writer : Writer) (response : Response) : Except FormatError Writer :=
  writer.push response.message response.revision.messageLimit

def Writer.pushStatus (writer : Writer) (revision : Revision) (hint : Hint) (kind : UInt32)
    (status : Status) : Except FormatError Writer :=
  writer.push (Response.statusMessage revision hint kind status) revision.messageLimit

end Batch
end FileBroker
