import FileBroker.Proofs.Wire.Reader
import FileBroker.Wire.Batch

/-!
Framing in both directions: a writer appends padded messages to what it wrote before, and a batch
of padded messages falls apart into these messages again, provided each states its own size.
-/
namespace FileBroker

/-- Padding adds nothing to what is padded. -/
theorem Layout.pad_pad (message : Bytes) : pad (pad message) = pad message := by
  have whole : alignUp (pad message).length = (pad message).length := by
    rw [length_pad]
    exact alignUp_of_dvd (dvd_alignUp _)
  rw [pad, whole, Nat.sub_self, List.replicate_zero, List.append_nil]

theorem Layout.alignUp_le {size limit : Nat} (short : size ≤ limit) (aligned : 8 ∣ limit) :
    alignUp size ≤ limit := by
  unfold alignUp
  omega

/-- A size field can hold the size of every message that keeps its bound. -/
theorem Revision.lt_word {revision : Revision} {size : Nat} (short : size ≤ revision.messageLimit) :
    size < UInt16.size := by
  have bound := revision.messageLimit_le
  have word : UInt16.size = 65536 := rfl
  omega

theorem Revision.dvd_messageLimit (revision : Revision) : 8 ∣ revision.messageLimit := by
  cases revision <;> decide

namespace Header

theorem reads (header : Header) : Reads reader header.put header := by
  unfold put
  simp only [List.append_assoc]
  exact (Reads.u16 _ _).bind ((Reads.u16 _ _).bind ((Reads.u32 _ _).bind ((Reads.u64 _ _).map _)))

theorem length_put (header : Header) : header.put.length = Layout.headerSize := by
  simp [put, LittleEndian.u16, LittleEndian.u32, LittleEndian.u64, Layout.headerSize]

theorem expect_self {header : Header} {revision : Revision}
    (same : header.revision = revision.number) : header.expect revision = .ok () := by
  unfold expect
  rw [same, Revision.ofNumber?_number]
  exact if_pos rfl

theorem kind?_of_number {header : Header} {kind : Kind} (same : header.kind = kind.number) :
    header.kind? = .ok kind := by
  unfold kind?
  rw [same, Kind.ofNumber?_number]

end Header

namespace Frame

theorem header_of_put {frame : Frame} {header : Header} {rest : Bytes}
    (start : frame.bytes = header.put ++ rest) : frame.header = header := by
  have read := header.reads.runOn rest
  unfold Frame.header Header.read
  rw [start, read]

/-- The message states its own length, and has a whole fixed part. -/
def Sized (direction : Direction) (message : Bytes) : Prop :=
  direction.fixedSize ≤ message.length ∧ declaredSize? message = some message.length

theorem four_le_fixedSize (direction : Direction) : 4 ≤ direction.fixedSize := by
  cases direction <;> decide

/-- The size field comes with the first four bytes. -/
theorem declaredSize?_append {message : Bytes} (long : 4 ≤ message.length) (rest : Bytes) :
    declaredSize? (message ++ rest) = declaredSize? message := by
  match message, long with
  | _ :: _ :: _ :: _ :: _, _ => rfl

theorem declaredSize?_of_put {header : Header} {size : Nat} (word : size < UInt16.size)
    (states : header.size = UInt16.ofNat size) (rest : Bytes) :
    declaredSize? (header.put ++ rest) = some size := by
  have meant : LittleEndian.decode (LittleEndian.u16 (UInt16.ofNat size)) = size := by
    have read := LittleEndian.decode_encode 2 size
    unfold LittleEndian.u16
    rw [UInt16.toNat_ofNat_of_lt' word]
    exact read.trans (Nat.mod_eq_of_lt word)
  unfold Header.put
  rw [states]
  simp only [List.append_assoc]
  exact congrArg some meant

theorem split?_padded {direction : Direction} {message padding : Bytes}
    (sized : Sized direction message)
    (filled : message.length + padding.length = Layout.alignUp message.length) (rest : Bytes) :
    split? direction (message ++ (padding ++ rest)) = some (⟨direction, message⟩, rest) := by
  have long : 4 ≤ message.length := Nat.le_trans (four_le_fixedSize direction) sized.1
  have declared : declaredSize? (message ++ (padding ++ rest)) = some message.length := by
    rw [declaredSize?_append long, sized.2]
  have first : firstSize? direction (message ++ (padding ++ rest)) = some message.length := by
    unfold firstSize?
    rw [declared]
    dsimp only
    rw [if_neg]
    simp only [List.length_append]
    have fixed := sized.1
    omega
  have back : (message ++ (padding ++ rest)).drop (Layout.alignUp message.length) = rest := by
    rw [← filled, ← List.length_append, ← List.append_assoc, List.drop_left]
  rw [split?, first, Option.map_some, List.take_left, back]

theorem split?_pad {direction : Direction} {message : Bytes} (sized : Sized direction message)
    (rest : Bytes) :
    split? direction (Layout.pad message ++ rest) = some (⟨direction, message⟩, rest) := by
  rw [Layout.pad, List.append_assoc]
  refine split?_padded sized ?_ rest
  rw [List.length_replicate, Nat.add_sub_cancel' (Layout.le_alignUp _)]

section Cut

variable {direction : Direction} {bytes rest : Bytes} {frame : Frame}

/-- A message is cut off where one of its stated length stands, with padding up to the next
boundary, whatever the padding is and whatever comes after it. -/
theorem split?_eq_some :
    split? direction bytes = some (frame, rest) ↔
      frame.direction = direction ∧ Sized direction frame.bytes ∧
        ∃ padding, bytes = frame.bytes ++ (padding ++ rest) ∧
          frame.size + padding.length = Layout.alignUp frame.size := by
  constructor
  · intro cut
    obtain ⟨size, first, same⟩ := Option.map_eq_some_iff.1 cut
    cases same
    unfold firstSize? at first
    split at first
    · cases first
    · next size' declared =>
      split at first
      · cases first
      · next fits =>
        cases first
        have padded := Layout.le_alignUp size
        have header := four_le_fixedSize direction
        have length : (bytes.take size).length = size := by
          rw [List.length_take]
          omega
        have long : 4 ≤ (bytes.take size).length := by omega
        have front := declaredSize?_append long (bytes.drop size)
        rw [List.take_append_drop, declared] at front
        refine ⟨rfl, ⟨by dsimp only; omega, by dsimp only; rw [length, ← front]⟩,
          (bytes.drop size).take (Layout.alignUp size - size), ?_, ?_⟩
        · have behind : bytes.drop (Layout.alignUp size)
              = (bytes.drop size).drop (Layout.alignUp size - size) := by
            rw [List.drop_drop, Nat.add_sub_cancel' padded]
          rw [behind, List.take_append_drop, List.take_append_drop]
        · change (bytes.take size).length + _ = Layout.alignUp (bytes.take size).length
          rw [length, List.length_take, List.length_drop]
          omega
  · rintro ⟨rfl, sized, padding, rfl, filled⟩
    exact split?_padded sized filled rest

/-- What follows a message and its padding has no part in how it is read. -/
theorem split?_append (cut : split? direction bytes = some (frame, rest)) (more : Bytes) :
    split? direction (bytes ++ more) = some (frame, rest ++ more) := by
  obtain ⟨same, sized, padding, rfl, filled⟩ := split?_eq_some.1 cut
  exact split?_eq_some.2 ⟨same, sized, padding, by simp only [List.append_assoc], filled⟩

/-- A message at the cursor is the first of the bytes that are left, and leaves those behind it. -/
theorem split?_of_at? {cursor next : Nat}
    (cut : at? direction bytes cursor = some (frame, next)) :
    split? direction (bytes.drop cursor) = some (frame, bytes.drop next) ∧
      next = cursor + Layout.alignUp frame.size := by
  obtain ⟨⟨_, rest⟩, split, same⟩ := Option.map_eq_some_iff.1 cut
  cases same
  obtain ⟨-, -, padding, whole, filled⟩ := split?_eq_some.1 split
  refine ⟨?_, rfl⟩
  have behind : bytes.drop (cursor + Layout.alignUp frame.size) = rest := by
    rw [← List.drop_drop, whole, ← List.append_assoc]
    exact List.drop_left' (List.length_append.trans filled)
  rw [behind, split]

end Cut

/-- The message at the front, with the cursor behind its padding. -/
theorem at?_pad {direction : Direction} {message : Bytes} (sized : Sized direction message)
    (rest : Bytes) :
    at? direction (Layout.pad message ++ rest) 0
      = some (⟨direction, message⟩, Layout.alignUp message.length) := by
  rw [at?, List.drop_zero, split?_pad sized, Option.map_some]
  dsimp only
  rw [Nat.zero_add]
  rfl

/-- A message is found where it was written. -/
theorem at?_overwrite {direction : Direction} {message old : Bytes} {cursor : Nat}
    (sized : Sized direction message) (within : cursor ≤ old.length) :
    at? direction (old.overwrite cursor (Layout.pad message)) cursor
      = some (⟨direction, message⟩, cursor + (Layout.pad message).length) := by
  have front : (old.take cursor).length = cursor := List.length_take_of_le within
  rw [at?, Bytes.overwrite, List.append_assoc, List.drop_left' front, split?_pad sized,
    Option.map_some, Layout.length_pad]
  rfl

end Frame

namespace Batch

theorem frames_nil (direction : Direction) : frames direction [] = [] :=
  frames_of_split?_eq_none rfl

section Cut

variable {direction : Direction} {bytes : Bytes} {frame : Frame}

/-- Every message is a whole piece of the batch, of its stated length. -/
theorem sized_of_mem_frames (member : frame ∈ frames direction bytes) :
    frame.direction = direction ∧ Frame.Sized direction frame.bytes ∧ frame.bytes <:+: bytes := by
  fun_induction frames direction bytes with
  | case1 bytes none' => cases member
  | case2 bytes first rest cut ih =>
    obtain ⟨turned, sized, padding, rfl, -⟩ := Frame.split?_eq_some.1 cut
    rcases List.mem_cons.1 member with rfl | later
    · exact ⟨turned, sized, List.infix_append [] _ _⟩
    · obtain ⟨turned', sized', piece⟩ := ih later
      refine ⟨turned', sized', piece.trans ?_⟩
      rw [← List.append_assoc]
      exact (List.suffix_append _ rest).isInfix

/-- Where reading uses up a batch, it goes on with whatever follows. -/
theorem frames_append (whole : readTo direction bytes = bytes.length) (more : Bytes) :
    frames direction (bytes ++ more) = frames direction bytes ++ frames direction more := by
  unfold readTo at whole
  fun_induction frames direction bytes with
  | case1 bytes none' =>
    rw [List.eq_nil_of_length_eq_zero whole.symm]
    rfl
  | case2 bytes first rest cut ih =>
    obtain ⟨-, -, padding, rfl, filled⟩ := Frame.split?_eq_some.1 cut
    rw [frames_of_split?_eq_some (Frame.split?_append cut more), ih, List.cons_append]
    simp only [total, List.map_cons, List.sum_cons, List.length_append] at whole ⊢
    change first.bytes.length + _ = _ at filled
    omega

end Cut

/-- Padded messages in a row are framed one by one. -/
theorem frames_padded {α : Type} {direction : Direction} {message : α → Bytes} {values : List α}
    (sized : ∀ value ∈ values, Frame.Sized direction (message value)) :
    frames direction (values.flatMap fun value => Layout.pad (message value))
      = values.map fun value => ⟨direction, message value⟩ := by
  induction values with
  | nil => exact frames_nil direction
  | cons value later ih =>
    have first := Frame.split?_pad (sized value (List.mem_cons_self ..))
      (later.flatMap fun value => Layout.pad (message value))
    have others := ih fun other member => sized other (List.mem_cons_of_mem _ member)
    rw [List.flatMap_cons, frames_of_split?_eq_some first, others]
    rfl

/-! ### Writing -/

section Write

variable {buffer : Buffer} {cursor limit : Nat} {message : Bytes}

theorem write_of_room (short : message.length ≤ limit)
    (room : cursor + (Layout.pad message).length ≤ buffer.size) :
    write buffer cursor message limit
      = .ok (cursor + (Layout.pad message).length,
        buffer.overwrite cursor (Layout.pad message) room) := by
  have reserved : reserve buffer.size cursor message.length limit
      = .ok (cursor + (Layout.pad message).length) := by
    rw [Layout.length_pad] at room ⊢
    unfold reserve
    rw [if_neg (Nat.not_lt.2 short)]
    exact if_pos room
  unfold write
  split
  · next failed =>
    rw [reserved] at failed
    cases failed
  · next next' found =>
    rw [reserved] at found
    cases found
    rfl

theorem write_of_full (short : message.length ≤ limit)
    (full : buffer.size < cursor + (Layout.pad message).length) :
    write buffer cursor message limit
      = .error (.noRoom cursor (Layout.pad message).length (buffer.size - cursor)) := by
  have refused : reserve buffer.size cursor message.length limit
      = .error (.noRoom cursor (Layout.pad message).length (buffer.size - cursor)) := by
    rw [Layout.length_pad] at full ⊢
    unfold reserve
    rw [if_neg (Nat.not_lt.2 short)]
    exact if_neg (Nat.not_le.2 full)
  unfold write
  split
  · next failed =>
    rw [refused] at failed
    cases failed
    rfl
  · next found =>
    rw [refused] at found
    cases found

end Write

namespace Writer

/-- The writer has not passed the end of its buffer. -/
def InBounds (writer : Writer) : Prop := writer.cursor ≤ writer.buffer.size

theorem length_written {writer : Writer} (bounds : writer.InBounds) :
    writer.written.length = writer.cursor := by
  unfold written Buffer.front
  unfold InBounds at bounds
  rw [writer.buffer.size_eq] at bounds
  rw [List.length_take]
  omega

/-- What writing a message does: its padded form replaces what stood from the cursor on. -/
theorem push_overwrites {writer after : Writer} {message : Bytes} {limit : Nat}
    (pushed : writer.push message limit = .ok after) :
    ∃ fits, after.buffer = writer.buffer.overwrite writer.cursor (Layout.pad message) fits ∧
      after.cursor = writer.cursor + Layout.alignUp message.length := by
  obtain ⟨⟨next, buffer⟩, wrote, made⟩ := bind_eq_ok.1 pushed
  rw [pure_eq_ok] at made
  subst made
  unfold write at wrote
  split at wrote
  · cases wrote
  · next reserved =>
    cases wrote
    obtain ⟨same, within⟩ := reserve_eq_ok reserved
    have fits : writer.cursor + (Layout.pad message).length ≤ writer.buffer.size := by
      rwa [Layout.length_pad, ← same]
    exact ⟨fits, rfl, same⟩

/-- What is written keeps the limit. -/
theorem length_le_of_push {writer after : Writer} {message : Bytes} {limit : Nat}
    (pushed : writer.push message limit = .ok after) : message.length ≤ limit := by
  obtain ⟨_, wrote, -⟩ := bind_eq_ok.1 pushed
  unfold write at wrote
  split at wrote
  · cases wrote
  · next reserved =>
    unfold reserve at reserved
    split at reserved
    · cases reserved
    · omega

/-- A message that is written stands, padded, behind those before it. -/
theorem push_eq_ok {writer after : Writer} {message : Bytes} {limit : Nat}
    (bounds : writer.InBounds) (pushed : writer.push message limit = .ok after) :
    after.written = writer.written ++ Layout.pad message ∧
      after.cursor = writer.cursor + Layout.alignUp message.length ∧
      after.buffer.size = writer.buffer.size ∧ after.InBounds := by
  obtain ⟨fits, overwritten, moved⟩ := push_overwrites pushed
  have padded := Layout.length_pad message
  refine ⟨?_, moved, by rw [overwritten]; rfl, ?_⟩
  · have length := length_written bounds
    unfold written Buffer.front at length ⊢
    rw [overwritten, moved]
    dsimp only [Buffer.overwrite, Bytes.overwrite]
    rw [List.take_left' (by rw [List.length_append, length, padded])]
  · unfold InBounds
    rw [overwritten, moved, ← padded]
    exact fits

/-- Nothing behind the message is touched. -/
theorem drop_push {writer after : Writer} {message : Bytes} {limit : Nat}
    (bounds : writer.InBounds) (pushed : writer.push message limit = .ok after) :
    after.buffer.bytes.drop after.cursor = writer.buffer.bytes.drop after.cursor := by
  obtain ⟨fits, overwritten, moved⟩ := push_overwrites pushed
  have length := length_written bounds
  have padded := Layout.length_pad message
  unfold written Buffer.front at length
  rw [overwritten, moved, ← padded]
  dsimp only [Buffer.overwrite, Bytes.overwrite]
  rw [List.drop_left' (by rw [List.length_append, length])]

theorem push_ok {writer : Writer} {message : Bytes} {limit : Nat}
    (short : message.length ≤ limit)
    (fits : writer.cursor + Layout.alignUp message.length ≤ writer.buffer.size) :
    ∃ after, writer.push message limit = .ok after := by
  rw [← Layout.length_pad] at fits
  unfold push
  rw [write_of_room short fits]
  exact ⟨_, rfl⟩

end Writer
end Batch
end FileBroker
