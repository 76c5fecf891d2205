import FileBroker.Proofs.Request.Format
import FileBroker.Proofs.Response.Codec

/-!
The field areas of responses, kind by kind, and what the decoders of both directions come to: they
accept the format and nothing else, and what they accept is written back as it was framed.
-/
namespace FileBroker

/-! ### Records -/

/-- No response has flags. -/
def Response.shape? (kind : Kind) (_ : Bytes) : Option Shape :=
  match kind with
  | .create => some ⟨84, [], []⟩
  | .overwrite | .write | .queryInformation | .setInformation | .setEa | .flushBuffers =>
    some ⟨64, [], []⟩
  | .read | .queryEa | .queryDirectory | .fileSystemControl | .deviceControl | .querySecurity =>
    some ⟨4, [], [0]⟩
  | .queryVolumeInformation | .setVolumeInformation => some ⟨28, [], [24]⟩
  | .cleanup | .close | .shutdown | .lockControl | .setSecurity => some ⟨0, [], []⟩

def Bytes.fileInfoAt (area : Bytes) (start : Nat) : FileInfo where
  attributes := area.u32At start
  reparseTag := area.u32At (start + 4)
  allocationSize := area.u64At (start + 8)
  fileSize := area.u64At (start + 16)
  created := area.u64At (start + 24)
  accessed := area.u64At (start + 32)
  written := area.u64At (start + 40)
  changed := area.u64At (start + 48)
  index := area.u64At (start + 56)

def Bytes.volumeInfo (area : Bytes) : VolumeInfo :=
  ⟨area.u64At 0, area.u64At 8, area.u64At 16, area.regionAt 24⟩

namespace Finds

theorem fileInfo (area : Bytes) (start : Nat) :
    Finds area start (start + 64) True FileInfo.reader (area.fileInfoAt start).put
      (area.fileInfoAt start) := by
  unfold FileInfo.put
  simp only [List.append_assoc]
  refine (Finds.u32 area start _).step ?_
  refine (Finds.u32 area (start + 4) _).step ?_
  refine (Finds.u64 area (start + 8) _).step ?_
  refine (Finds.u64 area (start + 16) _).step ?_
  refine (Finds.u64 area (start + 24) _).step ?_
  refine (Finds.u64 area (start + 32) _).step ?_
  refine (Finds.u64 area (start + 40) _).step ?_
  refine (Finds.u64 area (start + 48) _).step ?_
  exact (Finds.u64 area (start + 56) _).map _

theorem volumeInfo (area : Bytes) :
    Finds area 0 28 True VolumeInfo.reader area.volumeInfo.put area.volumeInfo := by
  unfold VolumeInfo.put
  simp only [List.append_assoc]
  refine (Finds.u64 area 0 _).step ?_
  refine (Finds.u64 area 8 _).step ?_
  refine (Finds.u64 area 16 _).step ?_
  exact (Finds.region area 24 _).map _

end Finds

/-! ### Answers -/

/-- The reader of a kind makes an answer of every area. -/
theorem Answer.finds {kind : Kind} {area : Bytes} {shape : Shape}
    (shaped : Response.shape? kind area = some shape) : ∃ answer,
    Finds area 0 shape.stop (shape.Allows area) (reader kind) answer.put answer ∧
      answer.kind = kind ∧ answer.dataRegion.toList = shape.regions.map area.regionAt := by
  have info := Finds.fileInfo area 0
  have volume := Finds.volumeInfo area
  have data := fun field => Finds.region area 0 field
  have free := @Shape.allows_free area
  cases kind <;> obtain rfl := Option.some.inj shaped
  case create =>
    refine ⟨.create (area.fileAt 0) (area.u32At 16) (area.fileInfoAt 20),
      .congr ?_ (free ..).symm, rfl, rfl⟩
    simp only [put, FileKey.put, List.append_assoc]
    refine (Finds.u64 area 0 _).step ?_
    refine (Finds.u64 area 8 _).step ?_
    exact (Finds.u32 area 16 _).step ((Finds.fileInfo area 20).map _)
  case overwrite =>
    exact ⟨.overwrite _, .congr (info.map _) (free ..).symm, rfl, rfl⟩
  case write =>
    exact ⟨.write _, .congr (info.map _) (free ..).symm, rfl, rfl⟩
  case queryInformation =>
    exact ⟨.queryInformation _, .congr (info.map _) (free ..).symm, rfl, rfl⟩
  case setInformation =>
    exact ⟨.setInformation _, .congr (info.map _) (free ..).symm, rfl, rfl⟩
  case setEa =>
    exact ⟨.setEa _, .congr (info.map _) (free ..).symm, rfl, rfl⟩
  case flushBuffers =>
    exact ⟨.flushBuffers _, .congr (info.map _) (free ..).symm, rfl, rfl⟩
  case queryVolumeInformation =>
    exact ⟨.queryVolumeInformation _, .congr (volume.map _) (free ..).symm, rfl, rfl⟩
  case setVolumeInformation =>
    exact ⟨.setVolumeInformation _, .congr (volume.map _) (free ..).symm, rfl, rfl⟩
  case read =>
    exact ⟨.read _, .congr ((data _).map _) (free ..).symm, rfl, rfl⟩
  case queryEa =>
    exact ⟨.queryEa _, .congr ((data _).map _) (free ..).symm, rfl, rfl⟩
  case queryDirectory =>
    exact ⟨.queryDirectory _, .congr ((data _).map _) (free ..).symm, rfl, rfl⟩
  case fileSystemControl =>
    exact ⟨.fileSystemControl _, .congr ((data _).map _) (free ..).symm, rfl, rfl⟩
  case deviceControl =>
    exact ⟨.deviceControl _, .congr ((data _).map _) (free ..).symm, rfl, rfl⟩
  case querySecurity =>
    exact ⟨.querySecurity _, .congr ((data _).map _) (free ..).symm, rfl, rfl⟩
  case cleanup => exact ⟨.cleanup, .congr (.pure ..) (free ..).symm, rfl, rfl⟩
  case close => exact ⟨.close, .congr (.pure ..) (free ..).symm, rfl, rfl⟩
  case shutdown => exact ⟨.shutdown, .congr (.pure ..) (free ..).symm, rfl, rfl⟩
  case lockControl => exact ⟨.lockControl, .congr (.pure ..) (free ..).symm, rfl, rfl⟩
  case setSecurity => exact ⟨.setSecurity, .congr (.pure ..) (free ..).symm, rfl, rfl⟩

/-! ### Messages -/

namespace Response

theorem shape?_stop_le {kind : Kind} {area : Bytes} {shape : Shape}
    (shaped : shape? kind area = some shape) : shape.stop ≤ Layout.responseFieldsSize := by
  cases kind <;> cases shaped <;> decide

def fields : Fields Answer where
  size := Layout.responseFieldsSize
  shape? := shape?
  reader := Answer.reader
  put := Answer.put
  kindOf := Answer.kind
  regions := fun answer => answer.dataRegion.toList
  stop_le := shape?_stop_le
  finds := Answer.finds
  refuses {kind area} _ misfit := by cases kind <;> cases misfit

theorem checkRegion_eq_ok {answer : Answer} {size : Nat} :
    checkRegion answer size = .ok () ↔
      ∀ region ∈ answer.dataRegion.toList, region.check size fixedSize = .ok () := by
  unfold checkRegion
  cases answer.dataRegion with
  | none => exact iff_of_true rfl nofun
  | some region => simp

theorem ample_checkRegion (answer : Answer) (size : Nat) : Ample (checkRegion answer size) := by
  unfold checkRegion
  split
  · next region _ => exact region.ample_check size fixedSize
  · exact .ok ()

variable {bytes : Bytes} {revision : Revision}

/-- The first twelve bytes of a status area are a status; the others are free. -/
theorem finds_io (area : Bytes) :
    Finds area 0 12 True ioReader
      (LittleEndian.u64 (area.u64At 0) ++ LittleEndian.u32 (area.u32At 8))
      ⟨⟨area.u32At 8⟩, area.u64At 0⟩ :=
  (Finds.u64 area 0 _).step ((Finds.u32 area 8 _).map _)

/-- What stands between the header and the fields. -/
def statusArea (bytes : Bytes) : Bytes :=
  (bytes.drop Layout.headerSize).take Layout.ioStatusSize

theorem length_statusArea (long : fixedSize ≤ bytes.length) :
    (statusArea bytes).length = Layout.ioStatusSize := by
  change 120 ≤ bytes.length at long
  simp only [statusArea, List.length_take, List.length_drop, Layout.headerSize,
    Layout.ioStatusSize]
  omega

theorem readIo_ok (long : fixedSize ≤ bytes.length) :
    ∃ io, ioReader.runOn (statusArea bytes) = .ok io ∧
      (statusArea bytes).take 12
        = LittleEndian.u64 io.information ++ LittleEndian.u32 io.status.code := by
  have length := length_statusArea long
  have finds := finds_io (statusArea bytes)
  have fits : 12 ≤ (statusArea bytes).length := by
    rw [length]
    decide
  refine ⟨_, finds.runOn fits trivial, ?_⟩
  exact List.append_cancel_right ((List.take_append_drop 12 _).trans (finds.wire fits trivial))

theorem fieldArea_eq : ((bytes.drop Layout.headerSize).drop Layout.ioStatusSize).take
    Layout.responseFieldsSize = (Frame.mk .response bytes).area := by
  rw [List.drop_drop]
  rfl

theorem exists_decode_iff (long : fixedSize ≤ bytes.length) :
    (∃ response, decode ⟨.response, bytes⟩ revision = .ok response) ↔
      (Frame.mk .response bytes).Lawful revision shape? := by
  have length : (Frame.mk .response bytes).area.length = fields.size := Frame.length_area long
  refine .trans ?_ (fields.lawful_iff length).symm
  simp only [decode_eq_ok, checkRegion_eq_ok, fieldArea_eq]
  constructor
  · rintro ⟨response, -, spoken, short, kind, io, answer, known, -, read, inside, -⟩
    exact ⟨spoken, short, kind, answer, known, read, inside⟩
  · rintro ⟨spoken, short, kind, answer, known, read, inside⟩
    obtain ⟨io, reported, -⟩ := readIo_ok long
    exact ⟨_, long, spoken, short, kind, io, answer, known, reported, read, inside, rfl⟩

theorem ample_decode (long : fixedSize ≤ bytes.length) :
    Ample (decode ⟨.response, bytes⟩ revision) := by
  have length : (Frame.mk .response bytes).area.length = fields.size := Frame.length_area long
  obtain ⟨io, reported, -⟩ := readIo_ok long
  unfold decode
  dsimp only
  rw [if_neg (Nat.not_lt.2 long)]
  refine (Header.ample_expect _ revision).bind fun _ _ => ?_
  split
  · exact .error rfl
  · refine (Header.ample_kind? _).bind fun kind _ => ?_
    change Ample (ioReader.runOn (statusArea bytes) >>= _)
    rw [reported, fieldArea_eq]
    refine (fields.ample_runOn length).bind fun answer _ => ?_
    exact (ample_checkRegion answer _).bind fun _ _ => .ok _

/-- Clearing the end of the status leaves its words and what follows as they were. -/
theorem overwrite_status {rest : Bytes} {header : Header} {io : IoStatus}
    (long : fixedSize ≤ bytes.length) (start : bytes.take Layout.headerSize = header.put)
    (reported : ioReader.runOn (statusArea bytes) = .ok io) :
    Bytes.overwrite (bytes.take Direction.response.areaStart ++ rest) 28 (List.replicate 4 0)
      = header.put ++ (LittleEndian.u64 io.information ++ LittleEndian.u32 io.status.code
        ++ (LittleEndian.u32 0 ++ rest)) := by
  obtain ⟨io', reported', status⟩ := readIo_ok long
  cases reported.symm.trans reported'
  have area := length_statusArea long
  have front : bytes.take Direction.response.areaStart = header.put ++ statusArea bytes := by
    rw [← start]
    exact List.take_add
  have width : (header.put ++ (statusArea bytes).take 12).length = 28 := by
    rw [List.length_append, Header.length_put, List.length_take, area]
    rfl
  have pad : (List.replicate 4 (0 : UInt8)).length = ((statusArea bytes).drop 12).length := by
    rw [List.length_drop, area]
    rfl
  have apart : bytes.take Direction.response.areaStart ++ rest
      = (header.put ++ (statusArea bytes).take 12) ++ ((statusArea bytes).drop 12 ++ rest) := by
    have parts := List.take_append_drop 12 (statusArea bytes)
    rw [front, List.append_assoc _ _ (_ ++ rest), ← List.append_assoc _ _ rest, parts,
      List.append_assoc]
  rw [apart, ← width, Bytes.overwrite_append pad, status, List.append_assoc]
  rfl

/-- The message of what was read differs from what was framed at most behind the status and behind
the last field. -/
theorem message_of_decode {response : Response} (sized : Frame.Sized .response bytes)
    (decoded : decode ⟨.response, bytes⟩ revision = .ok response) :
    ∃ kind shape, Kind.number kind = (Frame.mk .response bytes).header.kind ∧
      shape? kind (Frame.mk .response bytes).area = some shape ∧
      response.message = (Frame.mk .response bytes).cleared shape := by
  obtain ⟨long, spoken, -, kind, io, answer, known, reported, read, -, rfl⟩ :=
    decode_eq_ok.1 decoded
  rw [fieldArea_eq] at read
  set frame : Frame := ⟨.response, bytes⟩
  have header := frame.header_eq sized spoken known
  have start := (frame.header_of_sized sized).1
  have length : frame.area.length = fields.size := Frame.length_area long
  obtain ⟨shape, shaped, -, same, -, front⟩ := fields.shape?_of_runOn length read
  change answer.kind = kind at same
  change answer.put = frame.area.take shape.stop at front
  subst same
  refine ⟨answer.kind, shape, Header.kind?_eq_ok.1 known, shaped, ?_⟩
  have restated : (⟨revision.number, UInt16.ofNat (fixedSize + (bytes.drop fixedSize).length),
      answer.kind.number, frame.header.hint⟩ : Header) = frame.header := header.symm
  have cleared := frame.overwrite_unused long (length ▸ fields.stop_le shaped)
  rw [← front, length] at cleared
  have whole := congrArg (fun bytes => Bytes.overwrite bytes 28 (List.replicate 4 0)) cleared
  refine .trans ?_ (whole.trans (overwrite_status long start reported)).symm
  dsimp only [message, Response.kind]
  rw [frameMessage, restated]
  simp only [List.append_assoc]
  rfl

theorem exact (sized : Frame.Sized .response bytes) (revision : Revision) :
    (Frame.mk .response bytes).Exact revision shape? decode encode where
  accepts := exists_decode_iff sized.1
  ample := ample_decode sized.1
  writes response decoded := by
    have formed := wellFormed_of_decode decoded
    obtain ⟨long, -, -, kind, io, answer, -, -, -, -, same⟩ := decode_eq_ok.1 decoded
    have spoken : response.revision = revision := by rw [← same]
    have length : response.message.length = (Frame.mk .response bytes).size := by
      rw [length_message, encodedSize, ← same, List.length_drop]
      exact Nat.add_sub_cancel' long
    obtain ⟨front, found⟩ := Frame.take_pad_and_at?_pad (sized_message formed.1)
    obtain ⟨kind, shape, number, shaped, cleared⟩ := message_of_decode sized decoded
    rw [length] at front
    constructor
    · exact ⟨kind, shape, number, shaped, front.trans cleared⟩
    · exact ⟨⟨.response, response.message⟩, found, length, spoken ▸ decode_message formed⟩

end Response

/-! ### Both directions -/

/-- Whatever stands in a buffer, what is framed there is read if it is lawful, and then written
back as it was but for the bytes that mean nothing. -/
theorem Frame.decoding_exact (buffer : Bytes) (cursor : Nat) (revision : Revision) :
    (∀ frame next, at? .request buffer cursor = some (frame, next) →
      frame.Exact revision Request.shape? Request.decode Request.encode) ∧
    (∀ frame next, at? .response buffer cursor = some (frame, next) →
      frame.Exact revision Response.shape? Response.decode Response.encode) := by
  constructor
  · rintro ⟨direction, bytes⟩ next cut
    obtain ⟨rfl, sized⟩ := sized_of_at? cut
    exact Request.exact sized revision
  · rintro ⟨direction, bytes⟩ next cut
    obtain ⟨rfl, sized⟩ := sized_of_at? cut
    exact Response.exact sized revision

/-- A shutdown that can be taken for a message of either direction, with noise behind its header. -/
def noisyShutdown : Bytes :=
  (⟨1, 120, Kind.shutdown.number, ⟨7⟩⟩ : Header).put ++ List.replicate 104 255

theorem Frame.sized_noisyShutdown (direction : Direction) : Sized direction noisyShutdown := by
  cases direction <;> exact ⟨by decide, rfl⟩

theorem Frame.decoding_exact_noisyShutdown :
    let buffer := Layout.pad noisyShutdown
    at? .request buffer 0 = some (⟨.request, noisyShutdown⟩, buffer.length) ∧
    (Frame.mk .request noisyShutdown).Exact .v1 Request.shape? Request.decode Request.encode ∧
    at? .response buffer 0 = some (⟨.response, noisyShutdown⟩, buffer.length) ∧
    (Frame.mk .response noisyShutdown).Exact .v1 Response.shape? Response.decode
      Response.encode := by
  intro buffer
  have asked := (take_pad_and_at?_pad (sized_noisyShutdown .request)).2
  have answered := (take_pad_and_at?_pad (sized_noisyShutdown .response)).2
  obtain ⟨exact', exact''⟩ := decoding_exact buffer 0 .v1
  exact ⟨asked, exact' _ _ asked, answered, exact'' _ _ answered⟩

end FileBroker
