import FileBroker.Proofs.Request.Draft
import FileBroker.Proofs.Wire.Format

/-!
The field areas of requests, kind by kind, as they stand on the wire: how far the fields reach, and
where flags and regions are among them. The readers accept these areas and no others.
-/
namespace FileBroker

open LittleEndian (u32 u64)

/-! ### Shapes -/

/-- The rest of the area depends on the class number. -/
def FileChange.shape? (number : UInt32) : Option Shape :=
  if number = 4 then some ⟨56, [], []⟩
  else if number = 10 then some ⟨28, [(24, 1)], [20]⟩
  else if number = 13 then some ⟨24, [(20, 1)], []⟩
  else if number = 19 then some ⟨28, [], []⟩
  else if number = 20 then some ⟨32, [(28, 1)], []⟩
  else none

theorem FileChange.shape?_eq_none {number : UInt32} :
    shape? number = none ↔
      number ≠ 4 ∧ number ≠ 10 ∧ number ≠ 13 ∧ number ≠ 19 ∧ number ≠ 20 := by
  unfold shape?
  split_ifs <;> simp_all

theorem LockAction.exists_number {number : UInt32} :
    (∃ action, LockAction.number action = number) ↔ 1 ≤ number ∧ number ≤ 4 := by
  constructor
  · rintro ⟨action, rfl⟩
    cases action <;> decide
  · rintro ⟨least, most⟩
    have few : ∀ number : UInt32, number ≤ 4 → 1 ≤ number →
        ∃ action ∈ LockAction.all, action.number = number := by
      apply forall_small
      decide
    obtain ⟨action, -, same⟩ := few number most least
    exact ⟨action, same⟩

/-- None if a change or a lock has an unknown number. -/
def Request.shape? (kind : Kind) (area : Bytes) : Option Shape :=
  match kind with
  | .create => some ⟨48, [(44, 15)], [8, 36, 40]⟩
  | .overwrite => some ⟨24, [(20, 1)], []⟩
  | .cleanup => some ⟨24, [(20, 1)], [16]⟩
  | .close | .queryInformation | .queryEa | .flushBuffers | .querySecurity => some ⟨16, [], []⟩
  | .read => some ⟨32, [], []⟩
  | .write => some ⟨36, [(32, 1)], [24]⟩
  | .setInformation => FileChange.shape? (area.u32At 16)
  | .setEa => some ⟨20, [], [16]⟩
  | .queryVolumeInformation | .shutdown => some ⟨0, [], []⟩
  | .setVolumeInformation => some ⟨4, [], [0]⟩
  | .queryDirectory => some ⟨32, [(28, 1)], [16, 20]⟩
  | .fileSystemControl | .deviceControl => some ⟨28, [], [20]⟩
  | .lockControl =>
    if 1 ≤ area.u32At 16 ∧ area.u32At 16 ≤ 4 then some ⟨44, [(20, 3)], []⟩ else none
  | .setSecurity => some ⟨24, [], [20]⟩

/-! ### Records -/

theorem fourFlags_of_known {bits : UInt32} (allowed : bits &&& ~~~15 = 0) :
    (flagBit (bits &&& 1 != 0) 1 ||| flagBit (bits &&& 2 != 0) 2 ||| flagBit (bits &&& 4 != 0) 4
      ||| flagBit (bits &&& 8 != 0) 8) = bits := by
  revert bits
  apply forall_known
  decide

theorem twoFlags_of_known {bits : UInt32} (allowed : bits &&& ~~~3 = 0) :
    (flagBit (bits &&& 1 != 0) 1 ||| flagBit (bits &&& 2 != 0) 2) = bits := by
  revert bits
  apply forall_known
  decide

def Bytes.fileAt (area : Bytes) (start : Nat) : FileKey :=
  ⟨area.u64At start, area.u64At (start + 8)⟩

def Bytes.openOptions (area : Bytes) : OpenOptions where
  options := area.u32At 0
  attributes := area.u32At 4
  securityDescriptor := area.regionAt 8
  allocationSize := area.u64At 12
  accessToken := area.u64At 20
  desiredAccess := area.u32At 28
  shareAccess := area.u32At 32
  extendedAttributes := area.regionAt 36
  fileName := area.regionAt 40
  userMode := area.u32At 44 &&& 1 != 0
  traversePrivilege := area.u32At 44 &&& 2 != 0
  openTargetDirectory := area.u32At 44 &&& 4 != 0
  caseSensitive := area.u32At 44 &&& 8 != 0

def Bytes.controlAt (area : Bytes) : Control :=
  ⟨area.fileAt 0, area.u32At 16, area.regionAt 20, area.u32At 24⟩

namespace Finds

theorem file (area : Bytes) (start : Nat) :
    Finds area start (start + 16) True FileKey.reader (area.fileAt start).put
      (area.fileAt start) :=
  (u64 area start _).step ((u64 area (start + 8) _).map _)

theorem openOptions (area : Bytes) :
    Finds area 0 48 (area.u32At 44 &&& ~~~15 = 0) OpenOptions.reader area.openOptions.put
      area.openOptions := by
  unfold OpenOptions.reader OpenOptions.put
  simp only [List.append_assoc]
  refine (Finds.u32 area 0 _).step ?_
  refine (Finds.u32 area 4 _).step ?_
  refine (Finds.region area 8 _).step ?_
  refine (Finds.u64 area 12 _).step ?_
  refine (Finds.u64 area 20 _).step ?_
  refine (Finds.u32 area 28 _).step ?_
  refine (Finds.u32 area 32 _).step ?_
  refine (Finds.region area 36 _).step ?_
  refine (Finds.region area 40 _).step ?_
  refine ((Finds.flags area 44 15 _).map _).rewire fun _ allowed => ?_
  simp only [Bytes.openOptions]
  rw [fourFlags_of_known allowed]

theorem control (area : Bytes) :
    Finds area 0 28 True Control.reader area.controlAt.put area.controlAt := by
  unfold Control.put
  simp only [List.append_assoc]
  refine (Finds.file area 0).step ?_
  refine (Finds.u32 area 16 _).step ?_
  refine (Finds.region area 20 _).step ?_
  exact (Finds.u32 area 24 _).map _

/-- A change that starts with the number of a known class. -/
theorem change {area : Bytes} {shape : Shape}
    (shaped : FileChange.shape? (area.u32At 16) = some shape) :
    ∃ change, Finds area 16 shape.stop (shape.Allows area) FileChange.reader change.put change ∧
      ∀ file, (Command.setInformation file change).regions
        = shape.regions.map area.regionAt := by
  have number := Finds.u32 area 16 "set_information.class"
  unfold FileChange.shape? at shaped
  split at shaped
  · next known =>
    rw [known] at number
    obtain rfl := Option.some.inj shaped
    refine ⟨.basic (area.u32At 20) (area.u64At 24) (area.u64At 32) (area.u64At 40)
      (area.u64At 48), .congr (number.step ?_) (Shape.allows_free ..).symm, fun _ => rfl⟩
    simp only [List.append_assoc]
    refine (Finds.u32 area 20 _).step ?_
    refine (Finds.u64 area 24 _).step ?_
    refine (Finds.u64 area 32 _).step ?_
    refine (Finds.u64 area 40 _).step ?_
    exact (Finds.u64 area 48 _).map _
  split at shaped
  · next known =>
    rw [known] at number
    obtain rfl := Option.some.inj shaped
    refine ⟨.rename (area.regionAt 20) (area.u32At 24 != 0),
      .congr (number.step ?_) (Shape.allows_flags ..).symm, fun _ => rfl⟩
    exact (Finds.region area 20 _).step ((Finds.flag area 24 _).map _)
  split at shaped
  · next known =>
    rw [known] at number
    obtain rfl := Option.some.inj shaped
    exact ⟨.disposition (area.u32At 20 != 0),
      .congr (number.step ((Finds.flag area 20 _).map _)) (Shape.allows_flags ..).symm,
      fun _ => rfl⟩
  split at shaped
  · next known =>
    rw [known] at number
    obtain rfl := Option.some.inj shaped
    exact ⟨.allocation (area.u64At 20),
      .congr (number.step ((Finds.u64 area 20 _).map _)) (Shape.allows_free ..).symm,
      fun _ => rfl⟩
  split at shaped
  · next known =>
    rw [known] at number
    obtain rfl := Option.some.inj shaped
    refine ⟨.endOfFile (area.u64At 20) (area.u32At 28 != 0),
      .congr (number.step ?_) (Shape.allows_flags ..).symm, fun _ => rfl⟩
    exact (Finds.u64 area 20 _).step ((Finds.flag area 28 _).map _)
  · cases shaped

/-- Nothing is read behind the number of an unknown class. -/
theorem refuses_change {area : Bytes} (fits : 20 ≤ area.length)
    (unknown : FileChange.shape? (area.u32At 16) = none) : Refuses area 16 FileChange.reader := by
  have number := Finds.u32 area 16 "set_information.class"
  obtain ⟨basic, rename, disposition, allocation, ending⟩ := FileChange.shape?_eq_none.1 unknown
  refine number.refuses_next fits trivial ⟨"set_information.class", ?_⟩
  rw [if_neg basic, if_neg rename, if_neg disposition, if_neg allocation, if_neg ending]
  rfl

theorem lockAction {area : Bytes} {action : LockAction} (known : action.number = area.u32At 16) :
    Finds area 16 20 True LockAction.reader (LittleEndian.u32 action.number) action := by
  have number := Finds.u32 area 16 "lock_control.operation"
  rw [← known] at number
  have last : Finds area 20 20 True (Pure.pure action) [] action := pure ..
  refine (number.step ?_).rewire fun _ _ => List.append_nil _
  rwa [LockAction.ofNumber?_number]

theorem refuses_lockAction {area : Bytes} (fits : 20 ≤ area.length)
    (unknown : ∀ action, LockAction.number action ≠ area.u32At 16) :
    Refuses area 16 LockAction.reader := by
  have number := Finds.u32 area 16 "lock_control.operation"
  have absent : LockAction.ofNumber? (area.u32At 16) = none := by
    refine Option.eq_none_iff_forall_ne_some.2 fun action found => unknown action ?_
    simpa using List.find?_some found
  refine number.refuses_next fits trivial ⟨"lock_control.operation", ?_⟩
  rw [absent]
  rfl

end Finds

/-! ### Commands -/

/-- A lock with a known number. -/
theorem Command.finds_lockControl {area : Bytes} {shape : Shape}
    (shaped : Request.shape? .lockControl area = some shape) : ∃ command,
    Finds area 0 shape.stop (shape.Allows area) (reader .lockControl) command.put command ∧
      command.kind = .lockControl ∧ command.regions = shape.regions.map area.regionAt := by
  have file := Finds.file area 0
  have flags := @Shape.allows_flags area
  unfold Request.shape? at shaped
  dsimp only at shaped
  split at shaped
  · next known =>
    obtain rfl := Option.some.inj shaped
    obtain ⟨action, same⟩ := LockAction.exists_number.2 known
    refine ⟨.lockControl (area.fileAt 0) action (area.u64At 24) (area.u64At 32) (area.u32At 40)
      (area.u32At 20 &&& 1 != 0) (area.u32At 20 &&& 2 != 0), .congr ?_ (flags ..).symm, rfl, rfl⟩
    simp only [put, List.append_assoc]
    refine file.step ((Finds.lockAction same).step ?_)
    -- The flags stand before other fields, which are free.
    have bits := (Finds.flags area 20 3 "lock_control.flags").rewire fun _ allowed =>
      congrArg u32 (twoFlags_of_known allowed).symm
    refine .congr (bits.bind ?_) (.of_eq (and_true _))
    refine (Finds.u64 area 24 _).step ?_
    exact (Finds.u64 area 32 _).step ((Finds.u32 area 40 _).map _)
  · cases shaped

/-- The reader of a kind makes a command of every area that has the shape of the kind, and of no
other. -/
theorem Command.finds {kind : Kind} {area : Bytes} {shape : Shape}
    (shaped : Request.shape? kind area = some shape) : ∃ command,
    Finds area 0 shape.stop (shape.Allows area) (reader kind) command.put command ∧
      command.kind = kind ∧ command.regions = shape.regions.map area.regionAt := by
  have file := Finds.file area 0
  have free := @Shape.allows_free area
  have flags := @Shape.allows_flags area
  cases kind
  case setInformation =>
    obtain ⟨change, walk, regions⟩ := Finds.change shaped
    exact ⟨.setInformation (area.fileAt 0) change, file.step (walk.map _), rfl, regions _⟩
  case lockControl => exact finds_lockControl shaped
  all_goals obtain rfl := Option.some.inj shaped
  case create =>
    exact ⟨.create area.openOptions, .congr ((Finds.openOptions area).map _) (flags ..).symm, rfl,
      rfl⟩
  case overwrite =>
    refine ⟨.overwrite (area.fileAt 0) (area.u32At 16) (area.u32At 20 != 0),
      .congr ?_ (flags ..).symm, rfl, rfl⟩
    simp only [put, List.append_assoc]
    exact file.step ((Finds.u32 area 16 _).step ((Finds.flag area 20 _).map _))
  case cleanup =>
    refine ⟨.cleanup (area.fileAt 0) (area.regionAt 16) (area.u32At 20 != 0),
      .congr ?_ (flags ..).symm, rfl, rfl⟩
    simp only [put, List.append_assoc]
    exact file.step ((Finds.region area 16 _).step ((Finds.flag area 20 _).map _))
  case close =>
    exact ⟨.close (area.fileAt 0), .congr (file.map _) (free ..).symm, rfl, rfl⟩
  case read =>
    refine ⟨.read (area.fileAt 0) (area.u64At 16) (area.u32At 24) (area.u32At 28),
      .congr ?_ (free ..).symm, rfl, rfl⟩
    simp only [put, List.append_assoc]
    refine file.step ?_
    refine (Finds.u64 area 16 _).step ?_
    exact (Finds.u32 area 24 _).step ((Finds.u32 area 28 _).map _)
  case write =>
    refine ⟨.write (area.fileAt 0) (area.u64At 16) (area.regionAt 24) (area.u32At 28)
      (area.u32At 32 != 0), .congr ?_ (flags ..).symm, rfl, rfl⟩
    simp only [put, List.append_assoc]
    refine file.step ?_
    refine (Finds.u64 area 16 _).step ?_
    refine (Finds.region area 24 _).step ?_
    exact (Finds.u32 area 28 _).step ((Finds.flag area 32 _).map _)
  case queryInformation =>
    exact ⟨.queryInformation (area.fileAt 0), .congr (file.map _) (free ..).symm, rfl, rfl⟩
  case queryEa =>
    exact ⟨.queryEa (area.fileAt 0), .congr (file.map _) (free ..).symm, rfl, rfl⟩
  case setEa =>
    exact ⟨.setEa (area.fileAt 0) (area.regionAt 16),
      .congr (file.step ((Finds.region area 16 _).map _)) (free ..).symm, rfl, rfl⟩
  case flushBuffers =>
    exact ⟨.flushBuffers (area.fileAt 0), .congr (file.map _) (free ..).symm, rfl, rfl⟩
  case queryVolumeInformation =>
    exact ⟨.queryVolumeInformation, .congr (.pure ..) (free ..).symm, rfl, rfl⟩
  case setVolumeInformation =>
    exact ⟨.setVolumeInformation (area.regionAt 0),
      .congr ((Finds.region area 0 _).map _) (free ..).symm, rfl, rfl⟩
  case queryDirectory =>
    refine ⟨.queryDirectory (area.fileAt 0) (area.regionAt 16) (area.regionAt 20)
      (area.u32At 24) (area.u32At 28 != 0), .congr ?_ (flags ..).symm, rfl, rfl⟩
    simp only [put, List.append_assoc]
    refine file.step ?_
    refine (Finds.region area 16 _).step ?_
    refine (Finds.region area 20 _).step ?_
    exact (Finds.u32 area 24 _).step ((Finds.flag area 28 _).map _)
  case fileSystemControl =>
    exact ⟨.fileSystemControl area.controlAt, .congr ((Finds.control area).map _) (free ..).symm,
      rfl, rfl⟩
  case deviceControl =>
    exact ⟨.deviceControl area.controlAt, .congr ((Finds.control area).map _) (free ..).symm, rfl,
      rfl⟩
  case shutdown =>
    exact ⟨.shutdown, .congr (.pure ..) (free ..).symm, rfl, rfl⟩
  case querySecurity =>
    exact ⟨.querySecurity (area.fileAt 0), .congr (file.map _) (free ..).symm, rfl, rfl⟩
  case setSecurity =>
    refine ⟨.setSecurity (area.fileAt 0) (area.u32At 16) (area.regionAt 20),
      .congr ?_ (free ..).symm, rfl, rfl⟩
    simp only [put, List.append_assoc]
    exact file.step ((Finds.u32 area 16 _).step ((Finds.region area 20 _).map _))

theorem Command.refuses {kind : Kind} {area : Bytes} (fits : 20 ≤ area.length)
    (misfit : Request.shape? kind area = none) : Refuses area 0 (reader kind) := by
  have file := Finds.file area 0
  have room : 16 ≤ area.length := by omega
  cases kind with
  | setInformation =>
    exact file.refuses_next room trivial (Finds.refuses_change fits misfit).bind
  | lockControl =>
    have unknown : ∀ action, LockAction.number action ≠ area.u32At 16 := by
      intro action same
      have known := LockAction.exists_number.1 ⟨action, same⟩
      unfold Request.shape? at misfit
      dsimp only at misfit
      rw [if_pos known] at misfit
      cases misfit
    exact file.refuses_next room trivial (Finds.refuses_lockAction fits unknown).bind
  | _ => cases misfit

/-! ### Messages -/

theorem FileChange.shape?_stop_le {number : UInt32} {shape : Shape}
    (shaped : shape? number = some shape) : shape.stop ≤ Layout.requestFieldsSize := by
  unfold shape? at shaped
  split_ifs at shaped <;> cases shaped <;> decide

namespace Request

theorem shape?_stop_le {kind : Kind} {area : Bytes} {shape : Shape}
    (shaped : shape? kind area = some shape) : shape.stop ≤ Layout.requestFieldsSize := by
  cases kind with
  | setInformation => exact FileChange.shape?_stop_le shaped
  | lockControl =>
    unfold shape? at shaped
    dsimp only at shaped
    split at shaped <;> cases shaped
    decide
  | _ =>
    cases shaped
    decide

def fields : Fields Command where
  size := Layout.requestFieldsSize
  shape? := shape?
  reader := Command.reader
  put := Command.put
  kindOf := Command.kind
  regions := Command.regions
  stop_le := shape?_stop_le
  finds := Command.finds
  refuses length misfit := by
    refine Command.refuses ?_ misfit
    rw [length]
    decide

theorem checkRegions_eq_ok {command : Command} {size : Nat} :
    checkRegions command size = .ok () ↔
      ∀ region ∈ command.regions, region.check size fixedSize = .ok () := by
  unfold checkRegions
  induction command.regions with
  | nil => exact iff_of_true rfl nofun
  | cons region rest ih =>
    rw [List.forall_mem_cons, ← ih]
    refine bind_eq_ok.trans ⟨?_, ?_⟩
    · rintro ⟨⟨⟩, first, others⟩
      exact ⟨first, others⟩
    · rintro ⟨first, others⟩
      exact ⟨(), first, others⟩

theorem ample_checkRegions (command : Command) (size : Nat) :
    Ample (checkRegions command size) := by
  unfold checkRegions
  induction command.regions with
  | nil => exact .ok ()
  | cons region rest ih => exact (region.ample_check size fixedSize).bind fun _ _ => ih

variable {bytes : Bytes} {revision : Revision}

theorem exists_decode_iff (long : fixedSize ≤ bytes.length) :
    (∃ request, decode ⟨.request, bytes⟩ revision = .ok request) ↔
      (Frame.mk .request bytes).Lawful revision shape? := by
  have length : (Frame.mk .request bytes).area.length = fields.size := Frame.length_area long
  refine .trans ?_ (fields.lawful_iff length).symm
  simp only [decode_eq_ok, checkRegions_eq_ok]
  constructor
  · rintro ⟨request, -, spoken, short, kind, command, known, read, inside, -⟩
    exact ⟨spoken, short, kind, command, known, read, inside⟩
  · rintro ⟨spoken, short, kind, command, known, read, inside⟩
    exact ⟨_, long, spoken, short, kind, command, known, read, inside, rfl⟩

theorem ample_decode (long : fixedSize ≤ bytes.length) :
    Ample (decode ⟨.request, bytes⟩ revision) := by
  have length : (Frame.mk .request bytes).area.length = fields.size := Frame.length_area long
  unfold decode
  dsimp only
  rw [if_neg (Nat.not_lt.2 long)]
  refine (Header.ample_expect _ revision).bind fun _ _ => ?_
  split
  · exact .error rfl
  · refine (Header.ample_kind? _).bind fun kind _ => ?_
    refine (fields.ample_runOn length).bind fun command _ => ?_
    exact (ample_checkRegions command _).bind fun _ _ => .ok _

/-- The message of what was read differs from what was framed at most behind the last field. -/
theorem message_of_decode {request : Request} (sized : Frame.Sized .request bytes)
    (decoded : decode ⟨.request, bytes⟩ revision = .ok request) :
    ∃ kind shape, Kind.number kind = (Frame.mk .request bytes).header.kind ∧
      shape? kind (Frame.mk .request bytes).area = some shape ∧
      request.message = (Frame.mk .request bytes).cleared shape := by
  obtain ⟨long, spoken, -, kind, command, known, read, -, rfl⟩ := decode_eq_ok.1 decoded
  set frame : Frame := ⟨.request, bytes⟩
  have header := frame.header_eq sized spoken known
  have start := (frame.header_of_sized sized).1
  have length : frame.area.length = fields.size := Frame.length_area long
  obtain ⟨shape, shaped, -, same, -, front⟩ := fields.shape?_of_runOn length read
  change command.kind = kind at same
  change command.put = frame.area.take shape.stop at front
  subst same
  refine ⟨command.kind, shape, Header.kind?_eq_ok.1 known, shaped, ?_⟩
  have cleared := frame.overwrite_unused long (length ▸ fields.stop_le shaped)
  rw [← front, length] at cleared
  refine .trans ?_ cleared.symm
  have restated : (⟨revision, frame.header.hint, command, bytes.drop fixedSize⟩ : Request).header
      = frame.header := header.symm
  rw [message, restated, fieldArea, ← start]
  simp only [List.append_assoc]
  rfl

/-- A request keeps the revision it was read under, and the hint and kind it came with. -/
theorem header_of_decode {frame : Frame} {request : Request}
    (decoded : decode frame revision = .ok request) :
    request.revision = revision ∧ request.hint = frame.header.hint ∧
      request.kind.number = frame.header.kind := by
  obtain ⟨long, -, -, kind, command, known, read, -, rfl⟩ := decode_eq_ok.1 decoded
  have length : ((frame.bytes.drop Layout.headerSize).take Layout.requestFieldsSize).length
      = fields.size := by
    have fixed : fixedSize = Layout.headerSize + Layout.requestFieldsSize := rfl
    have size : fields.size = Layout.requestFieldsSize := rfl
    rw [List.length_take, List.length_drop]
    omega
  obtain ⟨-, -, -, same, -, -⟩ := fields.shape?_of_runOn length read
  have number : command.kind.number = kind.number := congrArg Kind.number same
  exact ⟨rfl, rfl, number.trans (Header.kind?_eq_ok.1 known)⟩

theorem exact (sized : Frame.Sized .request bytes) (revision : Revision) :
    (Frame.mk .request bytes).Exact revision shape? decode encode where
  accepts := exists_decode_iff sized.1
  ample := ample_decode sized.1
  writes request decoded := by
    have formed := wellFormed_of_decode decoded
    obtain ⟨long, -, -, kind, command, -, -, -, same⟩ := decode_eq_ok.1 decoded
    have spoken : request.revision = revision := by rw [← same]
    have length : request.message.length = (Frame.mk .request bytes).size := by
      rw [length_message, encodedSize, ← same, List.length_drop]
      exact Nat.add_sub_cancel' long
    obtain ⟨front, found⟩ := Frame.take_pad_and_at?_pad (sized_message formed.1)
    obtain ⟨kind, shape, number, shaped, cleared⟩ := message_of_decode sized decoded
    rw [length] at front
    constructor
    · exact ⟨kind, shape, number, shaped, front.trans cleared⟩
    · exact ⟨⟨.request, request.message⟩, found, length, spoken ▸ decode_message formed⟩

end Request
end FileBroker
