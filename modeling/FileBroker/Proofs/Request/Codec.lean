import FileBroker.Proofs.Wire.Batch
import FileBroker.Request.Basic

/-! Requests survive the wire: a well-formed request is read back from its message as it was. -/
namespace FileBroker

open LittleEndian (u32 u64)

/-! ### Fields -/

theorem FileKey.reads (file : FileKey) : Reads FileKey.reader file.put file :=
  (Reads.u64 _ _).bind ((Reads.u64 _ _).map _)

theorem FileKey.length_put (file : FileKey) : file.put.length = 16 := by
  simp [FileKey.put, u64]

theorem Region.length_put (region : Region) : region.put.length = 4 := by
  simp [Region.put, LittleEndian.u16]

/-- Four flags in one word can be told apart. -/
theorem fourFlags (first second third fourth : Bool) :
    let bits := flagBit first 1 ||| flagBit second 2 ||| flagBit third 4 ||| flagBit fourth 8
    bits &&& ~~~15 = 0 ∧ (bits &&& 1 != 0) = first ∧ (bits &&& 2 != 0) = second ∧
      (bits &&& 4 != 0) = third ∧ (bits &&& 8 != 0) = fourth := by
  cases first <;> cases second <;> cases third <;> cases fourth <;> decide

theorem twoFlags (first second : Bool) :
    let bits := flagBit first 1 ||| flagBit second 2
    bits &&& ~~~3 = 0 ∧ (bits &&& 1 != 0) = first ∧ (bits &&& 2 != 0) = second := by
  cases first <;> cases second <;> decide

theorem OpenOptions.reads (o : OpenOptions) : Reads OpenOptions.reader o.put o := by
  obtain ⟨allowed, user, traverse, target, case⟩ :=
    fourFlags o.userMode o.traversePrivilege o.openTargetDirectory o.caseSensitive
  unfold reader put
  simp only [List.append_assoc]
  refine (Reads.u32 _ o.options).bind ?_
  refine (Reads.u32 _ o.attributes).bind ?_
  refine (Reads.region _ o.securityDescriptor).bind ?_
  refine (Reads.u64 _ o.allocationSize).bind ?_
  refine (Reads.u64 _ o.accessToken).bind ?_
  refine (Reads.u32 _ o.desiredAccess).bind ?_
  refine (Reads.u32 _ o.shareAccess).bind ?_
  refine (Reads.region _ o.extendedAttributes).bind ?_
  refine (Reads.region _ o.fileName).bind ?_
  refine (Reads.flags allowed _).finish ?_
  rw [user, traverse, target, case]
  exact Reads.pure o

theorem FileChange.reads (change : FileChange) : Reads FileChange.reader change.put change := by
  unfold reader put
  refine (Reads.u32 _ change.number).bind ?_
  cases change with
  | basic attributes created accessed written changed =>
    simp only [List.append_assoc]
    refine (Reads.u32 _ attributes).bind ?_
    refine (Reads.u64 _ created).bind ?_
    refine (Reads.u64 _ accessed).bind ?_
    refine (Reads.u64 _ written).bind ?_
    exact (Reads.u64 _ changed).map _
  | rename newName replace =>
    exact (Reads.region _ newName).bind ((Reads.flag _ replace).map _)
  | disposition delete => exact (Reads.flag _ delete).map _
  | allocation size => exact (Reads.u64 _ size).map _
  | endOfFile size advanceOnly =>
    exact (Reads.u64 _ size).bind ((Reads.flag _ advanceOnly).map _)

theorem LockAction.reads (action : LockAction) :
    Reads LockAction.reader (u32 action.number) action := by
  refine (Reads.u32 _ action.number).finish ?_
  rw [LockAction.ofNumber?_number]
  exact Reads.pure action

theorem Control.reads (control : Control) : Reads Control.reader control.put control := by
  unfold put
  simp only [List.append_assoc]
  refine control.file.reads.bind ?_
  refine (Reads.u32 _ control.code).bind ?_
  refine (Reads.region _ control.input).bind ?_
  exact (Reads.u32 _ control.outputLength).map _

/-- The reader of its kind reads a command. -/
theorem Command.reads (command : Command) : Reads (reader command.kind) command.put command := by
  cases command with
  | create options => exact options.reads.map _
  | overwrite file attributes supersede =>
    simp only [put, List.append_assoc]
    exact file.reads.bind ((Reads.u32 _ attributes).bind ((Reads.flag _ supersede).map _))
  | cleanup file fileName delete =>
    simp only [put, List.append_assoc]
    exact file.reads.bind ((Reads.region _ fileName).bind ((Reads.flag _ delete).map _))
  | close file => exact file.reads.map _
  | read file offset length key =>
    simp only [put, List.append_assoc]
    refine file.reads.bind ?_
    refine (Reads.u64 _ offset).bind ?_
    exact (Reads.u32 _ length).bind ((Reads.u32 _ key).map _)
  | write file offset data key constrained =>
    simp only [put, List.append_assoc]
    refine file.reads.bind ?_
    refine (Reads.u64 _ offset).bind ?_
    refine (Reads.region _ data).bind ?_
    exact (Reads.u32 _ key).bind ((Reads.flag _ constrained).map _)
  | queryInformation file => exact file.reads.map _
  | setInformation file change => exact file.reads.bind (change.reads.map _)
  | queryEa file => exact file.reads.map _
  | setEa file ea => exact file.reads.bind ((Reads.region _ ea).map _)
  | flushBuffers file => exact file.reads.map _
  | queryVolumeInformation => exact Reads.pure _
  | setVolumeInformation label => exact (Reads.region _ label).map _
  | queryDirectory file pattern marker length restart =>
    simp only [put, List.append_assoc]
    refine file.reads.bind ?_
    refine (Reads.region _ pattern).bind ?_
    refine (Reads.region _ marker).bind ?_
    exact (Reads.u32 _ length).bind ((Reads.flag _ restart).map _)
  | fileSystemControl control => exact control.reads.map _
  | deviceControl control => exact control.reads.map _
  | shutdown => exact Reads.pure _
  | lockControl file action offset length key failImmediately exclusive =>
    obtain ⟨allowed, immediate, alone⟩ := twoFlags failImmediately exclusive
    simp only [put, List.append_assoc]
    refine file.reads.bind ?_
    refine action.reads.bind ?_
    refine (Reads.flags allowed _).bind ?_
    refine (Reads.u64 _ offset).bind ?_
    refine (Reads.u64 _ length).bind ?_
    refine (Reads.u32 _ key).finish ?_
    rw [immediate, alone]
    exact Reads.pure _
  | querySecurity file => exact file.reads.map _
  | setSecurity file information descriptor =>
    simp only [put, List.append_assoc]
    exact file.reads.bind ((Reads.u32 _ information).bind ((Reads.region _ descriptor).map _))

theorem FileChange.length_put_le (change : FileChange) : change.put.length ≤ 40 := by
  cases change <;> simp [put, u32, u64, Region.length_put]

theorem Command.length_put_le (command : Command) :
    command.put.length ≤ Layout.requestFieldsSize := by
  cases command with
  | setInformation file change =>
    have fields := change.length_put_le
    simp only [put, List.length_append, FileKey.length_put, Layout.requestFieldsSize]
    omega
  | _ =>
    simp [put, OpenOptions.put, Control.put, u32, u64, FileKey.length_put, Region.length_put,
      Layout.requestFieldsSize]

/-! ### Messages -/

namespace Request

theorem length_fieldArea (command : Command) :
    (fieldArea command).length = Layout.requestFieldsSize := by
  have fields := command.length_put_le
  simp only [fieldArea, List.length_append, List.length_replicate]
  omega

theorem length_message (request : Request) : request.message.length = request.encodedSize := by
  simp only [message, List.length_append, Header.length_put, length_fieldArea, encodedSize,
    fixedSize, Direction.fixedSize]

/-- Fits the wire: the message keeps the bound of its revision, and its regions lie inside. -/
def WellFormed (request : Request) : Prop :=
  request.encodedSize ≤ request.revision.messageLimit ∧
    checkRegions request.command request.encodedSize = .ok ()

theorem sized_message {request : Request}
    (short : request.encodedSize ≤ request.revision.messageLimit) :
    Frame.Sized .request request.message := by
  have word := Revision.lt_word short
  constructor
  · rw [length_message, encodedSize, fixedSize]
    omega
  · rw [length_message, message, List.append_assoc]
    exact Frame.declaredSize?_of_put word rfl _

theorem frame_header (request : Request) :
    (Frame.mk .request request.message).header = request.header := by
  have start : request.message
      = request.header.put ++ (fieldArea request.command ++ request.trailing) :=
    List.append_assoc ..
  exact Frame.header_of_put start

theorem hint_frame (request : Request) :
    (Frame.mk .request request.message).hint = request.hint := by
  rw [Frame.hint, request.frame_header]
  rfl

theorem decode_eq_ok {frame : Frame} {revision : Revision} {request : Request} :
    decode frame revision = .ok request ↔
      fixedSize ≤ frame.bytes.length ∧ frame.header.expect revision = .ok () ∧
      frame.bytes.length ≤ revision.messageLimit ∧ ∃ kind command,
        frame.header.kind? = .ok kind ∧
        (Command.reader kind).runOn
          ((frame.bytes.drop Layout.headerSize).take Layout.requestFieldsSize) = .ok command ∧
        checkRegions command frame.bytes.length = .ok () ∧
        ⟨revision, frame.header.hint, command, frame.bytes.drop fixedSize⟩ = request := by
  unfold decode
  simp only [throw_bind, throw_if_eq_ok, bind_eq_ok, pure_eq_ok, Nat.not_lt]
  constructor
  · rintro ⟨long, ⟨⟩, spoken, short, kind, known, command, read, ⟨⟩, checked, same⟩
    exact ⟨long, spoken, short, kind, command, known, read, checked, same⟩
  · rintro ⟨long, spoken, short, kind, command, known, read, checked, same⟩
    exact ⟨long, _, spoken, short, kind, known, command, read, _, checked, same⟩

/-- Decoding undoes encoding. -/
theorem decode_message {request : Request} (formed : request.WellFormed) :
    decode ⟨.request, request.message⟩ request.revision = .ok request := by
  have header := request.frame_header
  have length := request.length_message
  have area : (request.message.drop Layout.headerSize).take Layout.requestFieldsSize
      = fieldArea request.command := by
    rw [message, List.append_assoc, List.drop_left' request.header.length_put,
      List.take_left' (length_fieldArea request.command)]
  have trailing : request.message.drop fixedSize = request.trailing := by
    rw [message, List.drop_left']
    rw [List.length_append, Header.length_put, length_fieldArea]
    rfl
  refine decode_eq_ok.2 ⟨?_, ?_, ?_, request.kind, request.command, ?_, ?_, ?_, ?_⟩
  · rw [length, encodedSize]
    omega
  · rw [header]
    exact Header.expect_self rfl
  · rw [length]
    exact formed.1
  · rw [header]
    exact Header.kind?_of_number rfl
  · rw [area]
    exact request.command.reads.runOn _
  · rw [length]
    exact formed.2
  · rw [header, trailing]
    rfl

/-- Requests sent together come apart again. -/
theorem frames_flatMap_encode {requests : List Request}
    (formed : ∀ request ∈ requests, request.WellFormed) :
    Batch.frames .request (requests.flatMap encode)
      = requests.map fun request => ⟨.request, request.message⟩ :=
  Batch.frames_padded fun request member => sized_message (formed request member).1

theorem encode_eq (request : Request) : request.encode = Layout.pad request.message := rfl

theorem wellFormed_withHint {request : Request} (formed : request.WellFormed) (hint : Hint) :
    (request.withHint hint).WellFormed := formed

end Request
end FileBroker
