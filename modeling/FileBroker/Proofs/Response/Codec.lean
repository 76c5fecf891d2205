import FileBroker.Proofs.Request.Codec
import FileBroker.Response.Basic

/-!
Responses survive the wire: a well-formed response is read back from its message as it was, and so
is every response that was decoded or built from a draft.
-/
namespace FileBroker

open LittleEndian (u32 u64)

theorem FileInfo.reads (info : FileInfo) : Reads FileInfo.reader info.put info := by
  unfold put
  simp only [List.append_assoc]
  refine (Reads.u32 _ info.attributes).bind ?_
  refine (Reads.u32 _ info.reparseTag).bind ?_
  refine (Reads.u64 _ info.allocationSize).bind ?_
  refine (Reads.u64 _ info.fileSize).bind ?_
  refine (Reads.u64 _ info.created).bind ?_
  refine (Reads.u64 _ info.accessed).bind ?_
  refine (Reads.u64 _ info.written).bind ?_
  refine (Reads.u64 _ info.changed).bind ?_
  exact (Reads.u64 _ info.index).map _

theorem VolumeInfo.reads (info : VolumeInfo) : Reads VolumeInfo.reader info.put info := by
  unfold put
  simp only [List.append_assoc]
  refine (Reads.u64 _ info.totalSize).bind ?_
  refine (Reads.u64 _ info.freeSize).bind ?_
  refine (Reads.u64 _ info.created).bind ?_
  exact (Reads.region _ info.label).map _

/-- The reader of its kind reads an answer. -/
theorem Answer.reads (answer : Answer) : Reads (reader answer.kind) answer.put answer := by
  cases answer with
  | create file grantedAccess info =>
    simp only [put, FileKey.put, List.append_assoc]
    refine (Reads.u64 _ file.handle).bind ?_
    refine (Reads.u64 _ file.index).bind ?_
    exact (Reads.u32 _ grantedAccess).bind (info.reads.map _)
  | overwrite info => exact info.reads.map _
  | write info => exact info.reads.map _
  | queryInformation info => exact info.reads.map _
  | setInformation info => exact info.reads.map _
  | setEa info => exact info.reads.map _
  | flushBuffers info => exact info.reads.map _
  | queryVolumeInformation info => exact info.reads.map _
  | setVolumeInformation info => exact info.reads.map _
  | read region => exact (Reads.region _ region).map _
  | queryEa region => exact (Reads.region _ region).map _
  | queryDirectory region => exact (Reads.region _ region).map _
  | fileSystemControl region => exact (Reads.region _ region).map _
  | deviceControl region => exact (Reads.region _ region).map _
  | querySecurity region => exact (Reads.region _ region).map _
  | cleanup => exact Reads.pure _
  | close => exact Reads.pure _
  | shutdown => exact Reads.pure _
  | lockControl => exact Reads.pure _
  | setSecurity => exact Reads.pure _

theorem Answer.length_put_le (answer : Answer) :
    answer.put.length ≤ Layout.responseFieldsSize := by
  cases answer <;>
    simp [put, FileInfo.put, VolumeInfo.put, u32, u64, FileKey.length_put, Region.length_put,
      Layout.responseFieldsSize]

/-- The answer of a status alone is all zeros. -/
theorem Answer.put_empty (kind : Kind) :
    (empty kind).put = List.replicate (empty kind).put.length 0 := by
  cases kind <;> decide

namespace Response

/-! ### Messages -/

/-- The front of a message: header, status and field area. -/
def fixedPart (response : Response) : Bytes :=
  (⟨response.revision.number, UInt16.ofNat response.encodedSize, response.kind.number,
      response.hint⟩ : Header).put
    ++ ((u64 response.io.information ++ u32 response.io.status.code ++ u32 0)
    ++ (response.answer.put
    ++ List.replicate (Layout.responseFieldsSize - response.answer.put.length) 0))

theorem message_eq (response : Response) :
    response.message = response.fixedPart ++ response.trailing := by
  simp only [message, frameMessage, fixedPart, encodedSize, List.append_assoc]

theorem length_fields (answer : Answer) :
    (answer.put
        ++ List.replicate (Layout.responseFieldsSize - answer.put.length) (0 : UInt8)).length
      = Layout.responseFieldsSize := by
  have fields := answer.length_put_le
  rw [List.length_append, List.length_replicate]
  omega

theorem length_io (io : IoStatus) :
    (u64 io.information ++ u32 io.status.code ++ u32 0).length = Layout.ioStatusSize := by
  simp [u32, u64, Layout.ioStatusSize]

theorem length_fixedPart (response : Response) : response.fixedPart.length = fixedSize := by
  rw [fixedPart, List.length_append, List.length_append, Header.length_put, length_fields,
    length_io]
  rfl

theorem length_message (response : Response) : response.message.length = response.encodedSize := by
  rw [message_eq, List.length_append, length_fixedPart, encodedSize]

/-- A bare status is the message of a response that carries nothing else. -/
theorem statusMessage_eq (revision : Revision) (hint : Hint) (kind : Kind) (status : Status) :
    statusMessage revision hint kind.number status
      = (ofStatus revision hint kind status).message := by
  have fields := Answer.length_put_le (.empty kind)
  have zeros : List.replicate Layout.responseFieldsSize (0 : UInt8)
      = (Answer.empty kind).put
        ++ List.replicate (Layout.responseFieldsSize - (Answer.empty kind).put.length) 0 := by
    rw [Answer.put_empty kind, List.length_replicate, List.replicate_append_replicate]
    congr 1
    omega
  simp only [statusMessage, message, ofStatus, Response.kind, Answer.kind_empty, frameMessage,
    List.length_nil, Nat.sub_zero, List.append_nil, zeros, List.append_assoc]

/-- Fits the wire: the message keeps the bound of its revision, and its data lies inside. -/
def WellFormed (response : Response) : Prop :=
  response.encodedSize ≤ response.revision.messageLimit ∧
    checkRegion response.answer response.encodedSize = .ok ()

theorem sized_message {response : Response}
    (short : response.encodedSize ≤ response.revision.messageLimit) :
    Frame.Sized .response response.message := by
  have word := Revision.lt_word short
  constructor
  · rw [length_message, encodedSize, fixedSize]
    omega
  · rw [length_message, message_eq, fixedPart, List.append_assoc]
    exact Frame.declaredSize?_of_put word rfl _

theorem frame_header (response : Response) :
    (Frame.mk .response response.message).header
      = ⟨response.revision.number, UInt16.ofNat response.encodedSize, response.kind.number,
          response.hint⟩ := by
  have start := response.message_eq
  rw [fixedPart, List.append_assoc] at start
  exact Frame.header_of_put start

theorem decode_eq_ok {frame : Frame} {revision : Revision} {response : Response} :
    decode frame revision = .ok response ↔
      fixedSize ≤ frame.bytes.length ∧ frame.header.expect revision = .ok () ∧
      frame.bytes.length ≤ revision.messageLimit ∧ ∃ kind io answer,
        frame.header.kind? = .ok kind ∧
        ioReader.runOn ((frame.bytes.drop Layout.headerSize).take Layout.ioStatusSize) = .ok io ∧
        (Answer.reader kind).runOn (((frame.bytes.drop Layout.headerSize).drop
          Layout.ioStatusSize).take Layout.responseFieldsSize) = .ok answer ∧
        checkRegion answer frame.bytes.length = .ok () ∧
        ⟨revision, frame.header.hint, io, answer, frame.bytes.drop fixedSize⟩ = response := by
  unfold decode
  simp only [throw_bind, throw_if_eq_ok, bind_eq_ok, pure_eq_ok, Nat.not_lt]
  constructor
  · rintro ⟨long, ⟨⟩, spoken, short, kind, known, io, reported, answer, read, ⟨⟩, checked, same⟩
    exact ⟨long, spoken, short, kind, io, answer, known, reported, read, checked, same⟩
  · rintro ⟨long, spoken, short, kind, io, answer, known, reported, read, checked, same⟩
    exact ⟨long, _, spoken, short, kind, known, io, reported, answer, read, _, checked, same⟩

theorem reads_io (io : IoStatus) :
    Reads ioReader (u64 io.information ++ u32 io.status.code) io :=
  (Reads.u64 _ io.information).bind ((Reads.u32 _ io.status.code).map _)

/-- Decoding undoes encoding. -/
theorem decode_message {response : Response} (formed : response.WellFormed) :
    decode ⟨.response, response.message⟩ response.revision = .ok response := by
  have header := response.frame_header
  have length := response.length_message
  have start : response.message.drop Layout.headerSize
      = (u64 response.io.information ++ u32 response.io.status.code ++ u32 0)
        ++ ((response.answer.put
          ++ List.replicate (Layout.responseFieldsSize - response.answer.put.length) 0)
        ++ response.trailing) := by
    rw [message_eq, fixedPart, List.append_assoc, List.drop_left' (Header.length_put _),
      List.append_assoc]
  have trailing : response.message.drop fixedSize = response.trailing := by
    rw [message_eq, List.drop_left' response.length_fixedPart]
  refine decode_eq_ok.2
    ⟨?_, ?_, ?_, response.kind, response.io, response.answer, ?_, ?_, ?_, ?_, ?_⟩
  · rw [length, encodedSize]
    omega
  · rw [header]
    exact Header.expect_self rfl
  · rw [length]
    exact formed.1
  · rw [header]
    exact Header.kind?_of_number rfl
  · rw [start, List.take_left' (length_io response.io)]
    exact (reads_io response.io).runOn _
  · rw [start, List.drop_left' (length_io response.io), List.take_left' (length_fields _)]
    exact response.answer.reads.runOn _
  · rw [length]
    exact formed.2
  · rw [header, trailing]

/-- Responses sent together come apart again. -/
theorem frames_flatMap_encode {responses : List Response}
    (formed : ∀ response ∈ responses, response.WellFormed) :
    Batch.frames .response (responses.flatMap encode)
      = responses.map fun response => ⟨.response, response.message⟩ :=
  Batch.frames_padded fun response member => sized_message (formed response member).1

theorem split?_encode {response : Response} (formed : response.WellFormed) :
    Frame.split? .response response.encode = some (⟨.response, response.message⟩, []) := by
  have cut := Frame.split?_pad (sized_message formed.1) []
  rwa [List.append_nil] at cut

theorem frames_encode {response : Response} (formed : response.WellFormed) :
    Batch.frames .response response.encode = [⟨.response, response.message⟩] := by
  rw [Batch.frames_of_split?_eq_some (split?_encode formed), Batch.frames_nil]

theorem readTo_encode {response : Response} (formed : response.WellFormed) :
    Batch.readTo .response response.encode = response.encode.length := by
  rw [Batch.readTo, frames_encode formed, List.map_cons, List.map_nil, total, List.sum_singleton,
    encode, Layout.length_pad]
  rfl

theorem wellFormed_of_decode {frame : Frame} {revision : Revision} {response : Response}
    (decoded : decode frame revision = .ok response) : response.WellFormed := by
  obtain ⟨long, -, short, kind, io, answer, -, -, -, checked, rfl⟩ := decode_eq_ok.1 decoded
  have size : fixedSize + (frame.bytes.drop fixedSize).length = frame.bytes.length := by
    rw [List.length_drop]
    omega
  unfold WellFormed encodedSize
  dsimp only
  rw [size]
  exact ⟨short, checked⟩

/-- The data of a well-formed response can be had, and is as long as its region says. -/
theorem data_of_wellFormed {response : Response} (formed : response.WellFormed) :
    ∃ data, response.data = .ok data ∧
      data.length = (response.answer.dataRegion.map fun region => region.size.toNat).getD 0 := by
  have checked := formed.2
  unfold checkRegion at checked
  unfold Response.data
  split at checked
  · next region named =>
    rw [named]
    obtain ⟨bytes, resolved⟩ := Region.resolveTrailing_of_check checked
    exact ⟨bytes, resolved, Region.length_resolveTrailing resolved⟩
  · next unnamed =>
    rw [unnamed]
    exact ⟨[], rfl, rfl⟩

end Response
end FileBroker
