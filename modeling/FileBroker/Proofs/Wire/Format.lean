import FileBroker.Proofs.Wire.Area
import FileBroker.Proofs.Wire.Batch
import FileBroker.Wire.Buffer

/-!
What a framed message has to say to be read, told from its bytes alone, and the bytes that are left
when everything a reader ignores is cleared.
-/
namespace FileBroker

/-- Where the values stand in a field area that are not free. Positions count from its start. -/
structure Shape where
  /-- One past the last field. -/
  stop : Nat
  /-- Flag words, each with the bits that may be set in it. -/
  flags : List (Nat × UInt32)
  regions : List Nat

namespace Shape

/-- Only known flags are set. -/
def Allows (shape : Shape) (area : Bytes) : Prop :=
  ∀ flag ∈ shape.flags, area.u32At flag.1 &&& ~~~flag.2 = 0

variable (area : Bytes) (stop start : Nat) (known : UInt32) (regions : List Nat)

theorem allows_free : (⟨stop, [], regions⟩ : Shape).Allows area ↔ True := by
  simp [Allows]

theorem allows_flags : (⟨stop, [(start, known)], regions⟩ : Shape).Allows area ↔
    area.u32At start &&& ~~~known = 0 := by
  simp [Allows]

end Shape

/-! ### Faults -/

/-- The message, or what is left of it, is too short. -/
def FormatError.isShortage : FormatError → Bool
  | .truncated _ | .tooSmall _ _ => true
  | _ => false

/-- If it fails, then not for want of bytes. -/
def Ample {α : Type} (result : Except FormatError α) : Prop :=
  ∀ fault, result = .error fault → fault.isShortage = false

namespace Ample

variable {α β : Type}

theorem ok (value : α) : Ample (.ok value) := nofun

theorem error {fault : FormatError} (other : fault.isShortage = false) :
    Ample (.error fault : Except FormatError α) := by
  rintro _ ⟨⟩
  exact other

theorem bind {first : Except FormatError α} {next : α → Except FormatError β}
    (start : Ample first) (rest : ∀ value, first = .ok value → Ample (next value)) :
    Ample (first >>= next) := by
  cases first with
  | error fault => exact error (start fault rfl)
  | ok value => exact rest value rfl

end Ample

theorem Region.ample_check (region : Region) (messageSize start : Nat) :
    Ample (region.check messageSize start) := by
  unfold check
  split
  · exact .ok ()
  · split
    · exact .error rfl
    · exact .ok ()

/-! ### Headers -/

theorem Kind.exists_number {number : UInt32} :
    (∃ kind, Kind.number kind = number) ↔ 1 ≤ number ∧ number ≤ 20 := by
  constructor
  · rintro ⟨kind, rfl⟩
    cases kind <;> decide
  · rintro ⟨least, most⟩
    have few : ∀ number : UInt32, number ≤ 20 → 1 ≤ number →
        ∃ kind ∈ Kind.all, kind.number = number := by
      apply forall_small
      decide
    obtain ⟨kind, -, same⟩ := few number most least
    exact ⟨kind, same⟩

namespace Header

theorem expect_eq_ok {header : Header} {revision : Revision} :
    header.expect revision = .ok () ↔ header.revision = revision.number := by
  constructor
  · intro spoken
    unfold expect at spoken
    split at spoken
    · cases spoken
    · next found known =>
      split at spoken
      · next same =>
        subst same
        unfold Revision.ofNumber? at known
        split at known <;> cases known <;> assumption
      · cases spoken
  · exact expect_self

theorem ample_expect (header : Header) (revision : Revision) : Ample (header.expect revision) := by
  unfold expect
  split
  · exact .error rfl
  · split
    · exact .ok ()
    · exact .error rfl

theorem kind?_eq_ok {header : Header} {kind : Kind} :
    header.kind? = .ok kind ↔ kind.number = header.kind := by
  constructor
  · intro known
    unfold kind? at known
    split at known
    · next found =>
      cases known
      exact Kind.number_of_ofNumber? found
    · cases known
  · exact fun same => kind?_of_number same.symm

theorem ample_kind? (header : Header) : Ample header.kind? := by
  unfold kind?
  split
  · exact .ok _
  · exact .error rfl

/-- A header consists of the words at the front of a message. -/
theorem finds (bytes : Bytes) :
    Finds bytes 0 16 True reader
      (put ⟨bytes.u16At 0, bytes.u16At 2, bytes.u32At 4, ⟨bytes.u64At 8⟩⟩)
      ⟨bytes.u16At 0, bytes.u16At 2, bytes.u32At 4, ⟨bytes.u64At 8⟩⟩ := by
  unfold put
  simp only [List.append_assoc]
  refine (Finds.u16 bytes 0 _).step ?_
  refine (Finds.u16 bytes 2 _).step ?_
  exact (Finds.u32 bytes 4 _).step ((Finds.u64 bytes 8 _).map _)

end Header

/-! ### Frames -/

/-- Where the field area starts. -/
def Direction.areaStart : Direction → Nat
  | .request => Layout.headerSize
  | .response => Layout.headerSize + Layout.ioStatusSize

theorem Direction.areaStart_le_fixedSize (direction : Direction) :
    direction.areaStart ≤ direction.fixedSize := by
  cases direction <;> decide

/-- Bytes that give way to as many others. -/
theorem Bytes.overwrite_append {front old new back : Bytes} (length : new.length = old.length) :
    overwrite (front ++ (old ++ back)) front.length new = front ++ (new ++ back) := by
  rw [overwrite, List.take_left, length, ← List.append_assoc front old,
    List.drop_left' List.length_append, List.append_assoc]

namespace Frame

/-- The fixed part without what comes before the fields. -/
def area (frame : Frame) : Bytes :=
  (frame.bytes.drop frame.direction.areaStart).take
    (frame.direction.fixedSize - frame.direction.areaStart)

/-- Everything that a message of a revision has to say right. Regions lie between the fixed part
and the end of the message, unless they are empty. -/
structure Lawful (frame : Frame) (revision : Revision) (shape? : Kind → Bytes → Option Shape) :
    Prop where
  spoken : frame.header.revision = revision.number
  short : frame.size ≤ revision.messageLimit
  known : 1 ≤ frame.header.kind ∧ frame.header.kind ≤ 20
  shaped : ∀ kind, Kind.number kind = frame.header.kind →
    ∃ shape, shape? kind frame.area = some shape ∧ shape.Allows frame.area ∧
      ∀ start ∈ shape.regions, let region := frame.area.regionAt start
        region.size = 0 ∨
          frame.direction.fixedSize ≤ region.offset.toNat ∧ region.stop ≤ frame.size

/-- The message without what no reader looks at: the area behind the last field, and in a response
what fills up the status. -/
def cleared (frame : Frame) (shape : Shape) : Bytes :=
  let rest := frame.direction.areaStart + shape.stop
  let fields := Bytes.overwrite frame.bytes rest
    (List.replicate (frame.direction.fixedSize - rest) 0)
  match frame.direction with
  | .request => fields
  | .response => Bytes.overwrite fields 28 (List.replicate 4 0)

/-- Reading and writing are as exact as can be: lawful messages are read and no others, none is
found to be too short, and what is read is written, and read again, as it was framed. -/
structure Exact {α : Type} (frame : Frame) (revision : Revision)
    (shape? : Kind → Bytes → Option Shape) (decode : Frame → Revision → Except FormatError α)
    (encode : α → Bytes) : Prop where
  accepts : (∃ value, decode frame revision = .ok value) ↔ frame.Lawful revision shape?
  ample : Ample (decode frame revision)
  writes : ∀ value, decode frame revision = .ok value →
    (∃ kind shape, Kind.number kind = frame.header.kind ∧ shape? kind frame.area = some shape ∧
      (encode value).take frame.size = frame.cleared shape) ∧
    ∃ again, at? frame.direction (encode value) 0 = some (again, (encode value).length) ∧
      again.size = frame.size ∧ decode again revision = .ok value

/-- Whatever is framed states its own length. -/
theorem sized_of_at? {direction : Direction} {buffer : Bytes} {cursor next : Nat} {frame : Frame}
    (cut : at? direction buffer cursor = some (frame, next)) :
    frame.direction = direction ∧ Sized direction frame.bytes := by
  obtain ⟨turned, sized, -⟩ := split?_eq_some.1 (split?_of_at? cut).1
  exact ⟨turned, sized⟩

theorem headerSize_le_fixedSize (direction : Direction) :
    Layout.headerSize ≤ direction.fixedSize := by
  cases direction <;> decide

/-- A framed message starts with its header, which states its size. -/
theorem header_of_sized (frame : Frame) (sized : Sized frame.direction frame.bytes) :
    frame.bytes.take Layout.headerSize = frame.header.put ∧
      frame.header.size = UInt16.ofNat frame.size := by
  obtain ⟨long, declared⟩ := sized
  have fits : 16 ≤ frame.bytes.length :=
    Nat.le_trans (headerSize_le_fixedSize frame.direction) long
  have walk := Header.finds frame.bytes
  have wire := walk.wire fits trivial
  have read : frame.header = _ := header_of_put wire
  rw [read]
  constructor
  · exact List.append_cancel_right ((List.take_append_drop 16 frame.bytes).trans wire)
  match whole : frame.bytes, fits with
  | first :: second :: low :: high :: rest, _ =>
    have size : frame.size = (first :: second :: low :: high :: rest).length :=
      congrArg List.length whole
    rw [whole] at declared
    rw [size]
    exact congrArg UInt16.ofNat (Option.some.inj declared)

/-- So the header of a framed message can be read. -/
theorem read_of_sized {frame : Frame} (sized : Sized frame.direction frame.bytes) :
    Header.read frame.bytes = .ok frame.header := by
  have start := (frame.bytes.take_append_drop Layout.headerSize).symm
  rw [(header_of_sized frame sized).1] at start
  unfold Header.read
  rw [start]
  exact frame.header.reads.runOn _

theorem length_area {frame : Frame} (long : frame.direction.fixedSize ≤ frame.bytes.length) :
    frame.area.length = frame.direction.fixedSize - frame.direction.areaStart := by
  have start := frame.direction.areaStart_le_fixedSize
  simp only [area, List.length_take, List.length_drop]
  omega

/-- A message is what comes before the fields, the field area, and the trailing buffer. -/
theorem bytes_eq (frame : Frame) :
    frame.bytes = frame.bytes.take frame.direction.areaStart ++ (frame.area ++ frame.trailing) := by
  have start := frame.direction.areaStart_le_fixedSize
  have back : frame.trailing = (frame.bytes.drop frame.direction.areaStart).drop
      (frame.direction.fixedSize - frame.direction.areaStart) := by
    rw [trailing, List.drop_drop, Nat.add_sub_cancel' start]
  rw [back, area, List.take_append_drop, List.take_append_drop]

/-- Clearing what follows the fields leaves the rest of the message as it was. -/
theorem overwrite_unused (frame : Frame) {stop : Nat}
    (long : frame.direction.fixedSize ≤ frame.bytes.length) (within : stop ≤ frame.area.length) :
    Bytes.overwrite frame.bytes (frame.direction.areaStart + stop)
        (List.replicate (frame.direction.fixedSize - (frame.direction.areaStart + stop)) 0)
      = frame.bytes.take frame.direction.areaStart ++ (frame.area.take stop ++
        (List.replicate (frame.area.length - (frame.area.take stop).length) 0
          ++ frame.trailing)) := by
  have start := frame.direction.areaStart_le_fixedSize
  have length := length_area long
  have front : (frame.bytes.take frame.direction.areaStart ++ frame.area.take stop).length
      = frame.direction.areaStart + stop := by
    simp only [List.length_append, List.length_take]
    omega
  have apart : frame.bytes
      = (frame.bytes.take frame.direction.areaStart ++ frame.area.take stop)
        ++ (frame.area.drop stop ++ frame.trailing) := by
    rw [List.append_assoc, ← List.append_assoc (frame.area.take stop), List.take_append_drop]
    exact frame.bytes_eq
  have unused : (frame.area.drop stop).length
      = frame.direction.fixedSize - (frame.direction.areaStart + stop) := by
    rw [List.length_drop]
    omega
  have behind : frame.area.length - (frame.area.take stop).length
      = frame.direction.fixedSize - (frame.direction.areaStart + stop) := by
    rw [List.length_take]
    omega
  conv =>
    lhs
    rw [apart, ← front]
  rw [Bytes.overwrite_append (by rw [List.length_replicate, unused, front]), front, behind,
    List.append_assoc]

/-- The header is the only one that a message of its length, revision, kind and hint can have. -/
theorem header_eq (frame : Frame) {revision : Revision} {kind : Kind}
    (sized : Sized frame.direction frame.bytes) (spoken : frame.header.expect revision = .ok ())
    (known : frame.header.kind? = .ok kind) :
    frame.header = ⟨revision.number,
      UInt16.ofNat (frame.direction.fixedSize + frame.trailing.length), kind.number,
      frame.header.hint⟩ := by
  have size := (frame.header_of_sized sized).2
  have whole : frame.direction.fixedSize + frame.trailing.length = frame.size := by
    rw [trailing, List.length_drop]
    exact Nat.add_sub_cancel' sized.1
  rw [whole, Header.kind?_eq_ok.1 known, ← size, ← Header.expect_eq_ok.1 spoken]

/-- A padded message can be cut off again, and is found whole at the front of a buffer. -/
theorem take_pad_and_at?_pad {direction : Direction} {message : Bytes}
    (sized : Sized direction message) :
    (Layout.pad message).take message.length = message ∧
      at? direction (Layout.pad message) 0
        = some (⟨direction, message⟩, (Layout.pad message).length) := by
  have found := at?_pad sized []
  rw [List.append_nil, ← Layout.length_pad] at found
  exact ⟨List.take_left, found⟩

end Frame

/-! ### Fields -/

/-- The field areas of a direction. The reader of a kind makes a value of every area that has the
shape of the kind and sets no unknown flag, and refuses every other. -/
structure Fields (α : Type) where
  size : Nat
  shape? : Kind → Bytes → Option Shape
  reader : Kind → Reader α
  put : α → Bytes
  kindOf : α → Kind
  regions : α → List Region
  stop_le : ∀ {kind area shape}, shape? kind area = some shape → shape.stop ≤ size
  finds : ∀ {kind area shape}, shape? kind area = some shape → ∃ value,
    Finds area 0 shape.stop (shape.Allows area) (reader kind) (put value) value ∧
      kindOf value = kind ∧ regions value = shape.regions.map area.regionAt
  refuses : ∀ {kind area}, area.length = size → shape? kind area = none →
    Refuses area 0 (reader kind)

theorem Refuses.runOn {α : Type} {area : Bytes} {reader : Reader α}
    (refuses : Refuses area 0 reader) :
    ∃ what, reader.runOn area = .error (.invalidPayload what) := by
  obtain ⟨what, refused⟩ := refuses
  rw [List.drop_zero] at refused
  exact ⟨what, by rw [Reader.runOn, refused]; rfl⟩

theorem Finds.runOn {α : Type} {area bytes : Bytes} {stop : Nat} {valid : Prop} {reader : Reader α}
    {value : α} (finds : Finds area 0 stop valid reader bytes value) (fits : stop ≤ area.length)
    (allowed : valid) : reader.runOn area = .ok value := by
  have took := finds.takes fits allowed
  rw [List.drop_zero] at took
  rw [Reader.runOn, took]
  rfl

namespace Fields

variable {α : Type} {fields : Fields α} {kind : Kind} {area : Bytes} {shape : Shape} {value : α}

/-- An area that has the shape of its kind is read if it sets no unknown flag. -/
theorem runOn_ok (length : area.length = fields.size)
    (shaped : fields.shape? kind area = some shape) (allowed : shape.Allows area) :
    ∃ value, (fields.reader kind).runOn area = .ok value := by
  obtain ⟨value, finds, -, -⟩ := fields.finds shaped
  exact ⟨value, finds.runOn (length ▸ fields.stop_le shaped) allowed⟩

/-- What is read stands in an area that has the shape of its kind. -/
theorem shape?_of_runOn (length : area.length = fields.size)
    (read : (fields.reader kind).runOn area = .ok value) :
    ∃ shape, fields.shape? kind area = some shape ∧ shape.Allows area ∧
      fields.kindOf value = kind ∧ fields.regions value = shape.regions.map area.regionAt ∧
      fields.put value = area.take shape.stop := by
  cases shaped : fields.shape? kind area with
  | none =>
    obtain ⟨what, refused⟩ := (fields.refuses length shaped).runOn
    rw [refused] at read
    cases read
  | some shape =>
    have fits : shape.stop ≤ area.length := length ▸ fields.stop_le shaped
    obtain ⟨found, finds, kind', regions⟩ := fields.finds shaped
    by_cases allowed : shape.Allows area
    · rw [finds.runOn fits allowed] at read
      cases read
      have wire := finds.wire fits allowed
      rw [List.drop_zero] at wire
      have front := List.append_cancel_right ((List.take_append_drop shape.stop area).trans wire)
      exact ⟨shape, rfl, allowed, kind', regions, front.symm⟩
    · obtain ⟨what, refused⟩ := (finds.refuses fits allowed).runOn
      rw [refused] at read
      cases read

theorem ample_runOn (length : area.length = fields.size) :
    Ample ((fields.reader kind).runOn area) := by
  cases shaped : fields.shape? kind area with
  | none =>
    obtain ⟨what, refused⟩ := (fields.refuses length shaped).runOn
    rw [refused]
    exact .error rfl
  | some shape =>
    have fits : shape.stop ≤ area.length := length ▸ fields.stop_le shaped
    obtain ⟨found, finds, -, -⟩ := fields.finds shaped
    by_cases allowed : shape.Allows area
    · rw [finds.runOn fits allowed]
      exact .ok found
    · obtain ⟨what, refused⟩ := (finds.refuses fits allowed).runOn
      rw [refused]
      exact .error rfl

/-- The fields of the message can be read, and every region that they name lies in the message. -/
def Holds (fields : Fields α) (frame : Frame) : Prop :=
  ∃ kind value, frame.header.kind? = .ok kind ∧
    (fields.reader kind).runOn frame.area = .ok value ∧
    ∀ region ∈ fields.regions value,
      region.check frame.size frame.direction.fixedSize = .ok ()

/-- The checks that a reader makes are those that the format asks for. -/
theorem lawful_iff {frame : Frame} {revision : Revision}
    (length : frame.area.length = fields.size) :
    frame.Lawful revision fields.shape? ↔
      frame.header.expect revision = .ok () ∧ frame.size ≤ revision.messageLimit ∧
        fields.Holds frame := by
  constructor
  · intro lawful
    obtain ⟨kind, number⟩ := Kind.exists_number.2 lawful.known
    obtain ⟨shape, shaped, allowed, inside⟩ := lawful.shaped kind number
    obtain ⟨value, read⟩ := runOn_ok length shaped allowed
    refine ⟨Header.expect_eq_ok.2 lawful.spoken, lawful.short, kind, value,
      Header.kind?_eq_ok.2 number, read, ?_⟩
    obtain ⟨shape', shaped', -, -, regions, -⟩ := shape?_of_runOn length read
    cases shaped.symm.trans shaped'
    rw [regions]
    intro region member
    obtain ⟨start, place, rfl⟩ := List.mem_map.1 member
    exact Region.check_eq_ok.2 (inside start place)
  · rintro ⟨spoken, short, kind, value, known, read, inside⟩
    have number := Header.kind?_eq_ok.1 known
    refine ⟨Header.expect_eq_ok.1 spoken, short, Kind.exists_number.1 ⟨kind, number⟩, ?_⟩
    intro kind' number'
    obtain rfl : kind' = kind := by
      have known' := Header.kind?_eq_ok.2 number'
      rw [known] at known'
      exact (Except.ok.inj known').symm
    obtain ⟨shape, shaped, allowed, -, regions, -⟩ := shape?_of_runOn length read
    refine ⟨shape, shaped, allowed, fun start place => ?_⟩
    refine Region.check_eq_ok.1 (inside _ ?_)
    rw [regions]
    exact List.mem_map.2 ⟨start, place, rfl⟩

end Fields
end FileBroker
