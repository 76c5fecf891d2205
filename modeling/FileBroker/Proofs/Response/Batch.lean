import FileBroker.Proofs.Response.Draft
import Mathlib.Data.List.Forall2

/-!
Reading a batch undoes writing it. Messages of all sorts are offered to a writer one after the
other, over whatever its buffer held before, and some of them are refused. Reading finds those that
were taken, in this order, and stops where the writer stopped.
-/
namespace FileBroker.Batch

/-- A message that a writer is asked to append to a batch of the given direction. -/
inductive Push : Direction → Type where
  | request (request : Request) (formed : request.WellFormed) : Push .request
  | encodedRequest (request : Request) (formed : request.WellFormed) : Push .request
  | response (response : Response) (formed : response.WellFormed) : Push .response
  | encodedResponse (response : Response) (formed : response.WellFormed) : Push .response
  | bareStatus (revision : Revision) (hint : Hint) (kind : UInt32) (status : Status) :
    Push .response

variable {direction : Direction}

namespace Push

/-- What is to be framed, without its padding. -/
def message : Push direction → Bytes
  | .request asked _ | .encodedRequest asked _ => asked.message
  | .response reply _ | .encodedResponse reply _ => reply.message
  | .bareStatus revision hint kind status => Response.statusMessage revision hint kind status

def on (writer : Writer) : Push direction → Except FormatError Writer
  | .request asked _ => writer.pushRequest asked
  | .encodedRequest asked _ => writer.pushEncoded asked.encode
  | .response reply _ => writer.pushResponse reply
  | .encodedResponse reply _ => writer.pushEncoded reply.encode
  | .bareStatus revision hint kind status => writer.pushStatus revision hint kind status

/-- The frame reads as what was pushed. The kind of a bare status need not be known. -/
def ReadBackFrom (frame : Frame) : Push direction → Prop
  | .request asked _ | .encodedRequest asked _ =>
    Request.decode frame asked.revision = .ok asked
  | .response reply _ | .encodedResponse reply _ =>
    Response.decode frame reply.revision = .ok reply
  | .bareStatus revision hint kind status =>
    frame.header = ⟨revision.number, 120, kind, hint⟩ ∧
    Response.ioReader.runOn ((frame.bytes.drop Layout.headerSize).take Layout.ioStatusSize)
      = .ok ⟨status, 0⟩ ∧
    ∀ known : Kind, known.number = kind →
      Response.decode frame revision = .ok (.ofStatus revision hint known status)

end Push

namespace Writer

/-- A refused message leaves the writer as it was. -/
def offer (writer : Writer) (push : Push direction) : Writer :=
  match push.on writer with
  | .ok after => after
  | .error _ => writer

def offerAll (writer : Writer) (pushes : List (Push direction)) : Writer :=
  pushes.foldl offer writer

/-- The messages that are not refused when they are offered one after the other. -/
def taken (writer : Writer) : List (Push direction) → List (Push direction)
  | [] => []
  | push :: rest =>
    match push.on writer with
    | .ok after => push :: taken after rest
    | .error _ => taken writer rest

end Writer

/-! ### One message -/

namespace Push

theorem statusMessage_parts (revision : Revision) (hint : Hint) (kind : UInt32) (status : Status) :
    Response.statusMessage revision hint kind status
      = (⟨revision.number, 120, kind, hint⟩ : Header).put
        ++ ((LittleEndian.u64 0 ++ LittleEndian.u32 status.code ++ LittleEndian.u32 0)
        ++ List.replicate Layout.responseFieldsSize 0) := by
  simp only [Response.statusMessage, Response.frameMessage, List.append_assoc, List.append_nil,
    List.length_nil]
  rfl

theorem length_statusMessage (revision : Revision) (hint : Hint) (kind : UInt32)
    (status : Status) : (Response.statusMessage revision hint kind status).length = 120 := by
  rw [statusMessage_parts]
  simp [Header.length_put, LittleEndian.u64, LittleEndian.u32, Layout.headerSize,
    Layout.responseFieldsSize]

theorem sized (push : Push direction) : Frame.Sized direction push.message := by
  cases push with
  | request request formed => exact Request.sized_message formed.1
  | encodedRequest request formed => exact Request.sized_message formed.1
  | response response formed => exact Response.sized_message formed.1
  | encodedResponse response formed => exact Response.sized_message formed.1
  | bareStatus revision hint kind status =>
    have length := length_statusMessage revision hint kind status
    constructor
    · exact Nat.le_of_eq length.symm
    · change Frame.declaredSize? (Response.statusMessage revision hint kind status)
        = some (Response.statusMessage revision hint kind status).length
      rw [length, statusMessage_parts]
      exact Frame.declaredSize?_of_put (by decide) rfl _

theorem readBackFrom_message (push : Push direction) :
    push.ReadBackFrom ⟨direction, push.message⟩ := by
  cases push with
  | request request formed => exact Request.decode_message formed
  | encodedRequest request formed => exact Request.decode_message formed
  | response response formed => exact Response.decode_message formed
  | encodedResponse response formed => exact Response.decode_message formed
  | bareStatus revision hint kind status =>
    have parts := statusMessage_parts revision hint kind status
    refine ⟨Frame.header_of_put parts, ?_, ?_⟩
    · change Response.ioReader.runOn (((Response.statusMessage revision hint kind status).drop
        Layout.headerSize).take Layout.ioStatusSize) = _
      rw [parts, List.drop_left' (Header.length_put _),
        List.take_left' (Response.length_io ⟨status, 0⟩)]
      exact (Response.reads_io ⟨status, 0⟩).runOn _
    · rintro known rfl
      change Response.decode ⟨.response, Response.statusMessage revision hint known.number status⟩
        revision = _
      rw [Response.statusMessage_eq]
      exact Response.decode_message (Response.wellFormed_ofStatus revision hint known status)

/-- A message that was encoded before is padded already, and within what it was encoded under. -/
theorem length_pad_le_unbounded {message : Bytes} {revision : Revision}
    (short : message.length ≤ revision.messageLimit) :
    (Layout.pad message).length ≤ unbounded := by
  have aligned := Layout.alignUp_le short revision.dvd_messageLimit
  have bound := revision.messageLimit_le
  have word : unbounded = 2 ^ 64 - 1 := rfl
  rw [Layout.length_pad]
  omega

/-- However a message is pushed, it keeps the bound it is pushed under, and stands there padded. -/
theorem on_eq (push : Push direction) : ∃ bytes limit,
    (∀ writer, push.on writer = writer.push bytes limit) ∧ bytes.length ≤ limit ∧
      Layout.pad bytes = Layout.pad push.message := by
  cases push with
  | request request formed =>
    exact ⟨_, _, fun _ => rfl, request.length_message ▸ formed.1, rfl⟩
  | encodedRequest request formed =>
    have short := request.length_message ▸ formed.1
    exact ⟨_, _, fun _ => rfl, length_pad_le_unbounded short, Layout.pad_pad _⟩
  | response response formed =>
    exact ⟨_, _, fun _ => rfl, response.length_message ▸ formed.1, rfl⟩
  | encodedResponse response formed =>
    have short := response.length_message ▸ formed.1
    exact ⟨_, _, fun _ => rfl, length_pad_le_unbounded short, Layout.pad_pad _⟩
  | bareStatus revision hint kind status =>
    have length := length_statusMessage revision hint kind status
    have bare := revision.messageLimit_ge
    exact ⟨_, _, fun _ => rfl, by omega, rfl⟩

/-- A message is taken exactly if there is room for it and its padding. -/
theorem exists_on_iff (push : Push direction) (writer : Writer) :
    (∃ after, push.on writer = .ok after) ↔
      writer.cursor + Layout.alignUp push.message.length ≤ writer.buffer.size := by
  obtain ⟨bytes, limit, same, short, padded⟩ := push.on_eq
  rw [same, ← Layout.length_pad, ← padded]
  constructor
  · rintro ⟨after, pushed⟩
    obtain ⟨fits, -, -⟩ := Writer.push_overwrites pushed
    exact fits
  · intro fits
    rw [Layout.length_pad] at fits
    exact Writer.push_ok short fits

/-- What taking a message does. -/
theorem on_eq_ok {push : Push direction} {writer after : Writer} (bounds : writer.InBounds)
    (pushed : push.on writer = .ok after) :
    after.written = writer.written ++ Layout.pad push.message ∧
      after.cursor = writer.cursor + Layout.alignUp push.message.length ∧
      after.buffer.size = writer.buffer.size ∧ after.InBounds ∧
      after.buffer.bytes.drop after.cursor = writer.buffer.bytes.drop after.cursor := by
  obtain ⟨bytes, limit, same, -, padded⟩ := push.on_eq
  rw [same] at pushed
  obtain ⟨written, moved, size, within⟩ := Writer.push_eq_ok bounds pushed
  have rest := Writer.drop_push bounds pushed
  rw [← Layout.length_pad, ← padded, Layout.length_pad]
  exact ⟨written, moved, size, within, rest⟩

end Push

/-! ### Many messages -/

namespace Writer

/-- The buffer holds these messages up to the cursor, and behind it what it held at the start. -/
structure Holds (start : Buffer) (messages : List (Push direction)) (writer : Writer) : Prop where
  aligned : 8 ∣ writer.cursor
  bounds : writer.InBounds
  size : writer.buffer.size = start.size
  rest : writer.buffer.bytes.drop writer.cursor = start.bytes.drop writer.cursor
  written : writer.written = messages.flatMap fun push => Layout.pad push.message

variable {start : Buffer} {messages : List (Push direction)} {writer : Writer}

theorem holds_ofBuffer (start : Buffer) :
    (ofBuffer start).Holds start ([] : List (Push direction)) where
  aligned := Nat.dvd_zero 8
  bounds := Nat.zero_le start.size
  size := rfl
  rest := rfl
  written := rfl

theorem Holds.push (holds : writer.Holds start messages) {push : Push direction} {after : Writer}
    (pushed : push.on writer = .ok after) : after.Holds start (messages ++ [push]) := by
  obtain ⟨written, moved, size, within, rest⟩ := Push.on_eq_ok holds.bounds pushed
  refine ⟨?_, within, size.trans holds.size, ?_, ?_⟩
  · rw [moved]
    exact Nat.dvd_add holds.aligned (Layout.dvd_alignUp _)
  · -- What the message left alone lies behind what was left alone before.
    have farther : after.cursor = writer.cursor + (after.cursor - writer.cursor) := by omega
    rw [rest, farther, ← List.drop_drop, ← List.drop_drop, holds.rest]
  · rw [written, holds.written]
    simp

theorem Holds.offerAll (holds : writer.Holds start messages) (pushes : List (Push direction)) :
    (writer.offerAll pushes).Holds start (messages ++ writer.taken pushes) := by
  induction pushes generalizing writer messages with
  | nil =>
    rw [taken, List.append_nil]
    exact holds
  | cons push later ih =>
    change ((writer.offer push).offerAll later).Holds start _
    unfold offer taken
    split
    · next after pushed =>
      have whole := ih (holds.push pushed)
      rwa [List.append_assoc] at whole
    · exact ih holds

/-- The writer ends up as if the messages that were refused had never been offered. -/
theorem offerAll_taken (writer : Writer) (pushes : List (Push direction)) :
    writer.offerAll (writer.taken pushes) = writer.offerAll pushes := by
  induction pushes generalizing writer with
  | nil => rfl
  | cons push later ih =>
    change _ = (writer.offer push).offerAll later
    unfold taken
    split
    · next after pushed =>
      change (writer.offer push).offerAll (after.taken later) = _
      unfold offer
      rw [pushed]
      exact ih after
    · next refused =>
      unfold offer
      rw [refused]
      exact ih writer

/-- Reading the written part finds the messages. -/
theorem Holds.frames (holds : writer.Holds start messages) :
    Batch.frames direction writer.written
      = messages.map fun push => ⟨direction, push.message⟩ := by
  rw [holds.written]
  exact frames_padded fun push _ => push.sized

/-- Reading goes as far as writing went. -/
theorem Holds.readTo (holds : writer.Holds start messages) :
    Batch.readTo direction writer.written = writer.cursor := by
  have padded : total (messages.map fun push => Layout.alignUp push.message.length)
      = (messages.flatMap fun push => Layout.pad push.message).length := by
    simp only [List.length_flatMap, Layout.length_pad]
  rw [Batch.readTo, holds.frames, ← length_written holds.bounds, holds.written, ← padded,
    List.map_map]
  rfl

end Writer

/-- Whatever is offered to a writer, and whatever its buffer held before, the written part is whole
and in bounds, nothing behind it has changed, and reading it ends where it ends. It reads as the
messages that were taken, in the order in which they were offered; the others had no effect. A
message is refused only if there is no room for it. -/
theorem reading_undoes_writing (buffer : Buffer) (pushes : List (Push direction)) :
    let start := Writer.ofBuffer buffer
    let writer := start.offerAll pushes
    8 ∣ writer.cursor ∧ writer.cursor ≤ buffer.size ∧ writer.buffer.size = buffer.size ∧
    writer.buffer.bytes.drop writer.cursor = buffer.bytes.drop writer.cursor ∧
    readTo direction writer.written = writer.cursor ∧
    List.Forall₂ Push.ReadBackFrom (frames direction writer.written) (start.taken pushes) ∧
    start.offerAll (start.taken pushes) = writer ∧
    ∀ push : Push direction, (∃ after, push.on writer = .ok after) ↔
      writer.cursor + Layout.alignUp push.message.length ≤ buffer.size := by
  intro start writer
  have holds : writer.Holds buffer (start.taken pushes) := by
    have whole := (Writer.holds_ofBuffer buffer).offerAll pushes
    rwa [List.nil_append] at whole
  have within : writer.cursor ≤ buffer.size := holds.size ▸ holds.bounds
  refine ⟨holds.aligned, within, holds.size, holds.rest, holds.readTo, ?_,
    start.offerAll_taken pushes, fun push => ?_⟩
  · rw [holds.frames, List.forall₂_map_left_iff, List.forall₂_same]
    exact fun push _ => push.readBackFrom_message
  · rw [push.exists_on_iff, holds.size]

end FileBroker.Batch
