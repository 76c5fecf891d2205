import FileBroker.Proofs.Wire.Format

/-!
Reading a batch one message at a time. How far a step goes is up to the sender, who fills in the
size field. That reading moves on, keeps to the boundaries and comes to an end rests on what is
checked before a message is cut out.
-/
namespace FileBroker

namespace Frame

/-- The message is a whole piece of the buffer, as long as its size field says, and has a header. -/
structure StandsAt (frame : Frame) (direction : Direction) (buffer : Bytes) (start : Nat) :
    Prop where
  turned : frame.direction = direction
  inside : start + frame.size ≤ buffer.length
  piece : (buffer.drop start).take frame.size = frame.bytes
  long : direction.fixedSize ≤ frame.size
  headed : Header.read frame.bytes = .ok frame.header
  stated : frame.header.size.toNat = frame.size

/-- A size field has two bytes. -/
theorem declaredSize?_lt {bytes : Bytes} {size : Nat} (declared : declaredSize? bytes = some size) :
    size < UInt16.size := by
  unfold declaredSize? at declared
  split at declared
  · next low high _ =>
    cases declared
    have word : LittleEndian.decode [low, high] < Nat.pow 256 2 := LittleEndian.decode_lt _
    exact word
  · cases declared

theorem size_header_of_sized {frame : Frame} (sized : Sized frame.direction frame.bytes) :
    frame.header.size.toNat = frame.size := by
  rw [(frame.header_of_sized sized).2]
  exact UInt16.toNat_ofNat_of_lt' (declaredSize?_lt sized.2)

section Cut

variable {direction : Direction} {buffer : Bytes} {cursor next : Nat} {frame : Frame}

/-- The padding lies inside as well, so that the next cursor is no farther than the end. -/
theorem standsAt_of_at? (cut : at? direction buffer cursor = some (frame, next)) :
    frame.StandsAt direction buffer cursor ∧ next ≤ buffer.length := by
  obtain ⟨split, moved⟩ := split?_of_at? cut
  obtain ⟨turned, sized, padding, whole, filled⟩ := split?_eq_some.1 split
  have left := congrArg List.length whole
  simp only [List.length_append, List.length_drop] at left
  have long : direction.fixedSize ≤ frame.size := sized.1
  have fixed := four_le_fixedSize direction
  have length : frame.size = frame.bytes.length := rfl
  have padded := Layout.le_alignUp frame.size
  refine ⟨⟨turned, by omega, ?_, long, ?_, ?_⟩, by omega⟩
  · rw [whole]
    exact List.take_left
  · exact read_of_sized (turned ▸ sized)
  · exact size_header_of_sized (turned ▸ sized)

/-- Bytes behind the end of a buffer have no part in what stands inside. -/
theorem at?_append (cut : at? direction buffer cursor = some (frame, next)) (more : Bytes) :
    at? direction (buffer ++ more) cursor = some (frame, next) := by
  obtain ⟨split, moved⟩ := split?_of_at? cut
  have inside := (standsAt_of_at? cut).1.inside
  rw [at?, List.drop_append_of_le_length (by omega), split?_append split more, moved]
  rfl

end Cut
end Frame

namespace Batch

/-- A message, and where in its batch it starts. -/
structure Located where
  start : Nat
  frame : Frame
  deriving DecidableEq, Repr

/-- One past the last byte, without the padding. -/
def Located.stop (found : Located) : Nat := found.start + found.frame.size

/-- A batch that is being read, and how far it has been read. -/
structure Reading where
  direction : Direction
  buffer : Bytes
  cursor : Nat
  deriving DecidableEq, Repr

namespace Reading

def ofBytes (direction : Direction) (buffer : Bytes) : Reading := ⟨direction, buffer, 0⟩

def next? (reading : Reading) : Option (Located × Reading) :=
  (Frame.at? reading.direction reading.buffer reading.cursor).map fun (frame, next) =>
    (⟨reading.cursor, frame⟩, { reading with cursor := next })

/-- The next messages, at most `count` of them. -/
def take : Nat → Reading → List Located × Reading
  | 0, reading => ([], reading)
  | count + 1, reading =>
    match reading.next? with
    | none => ([], reading)
    | some (found, after) =>
      let (later, final) := take count after
      (found :: later, final)

variable {reading middle after : Reading} {found later : List Located} {first : Located}

theorem take_of_end (ended : reading.next? = none) (count : Nat) :
    reading.take count = ([], reading) := by
  cases count with
  | zero => rfl
  | succ count => rw [take, ended]

theorem take_of_next (stepped : reading.next? = some (first, after)) (count : Nat) :
    reading.take (count + 1) = (first :: (after.take count).1, (after.take count).2) := by
  rw [take, stepped]

/-- What can be said of a step, when a message was found. -/
theorem next?_eq_some (stepped : reading.next? = some (first, after)) :
    Frame.at? reading.direction reading.buffer reading.cursor = some (first.frame, after.cursor) ∧
      first.start = reading.cursor ∧ after = { reading with cursor := after.cursor } := by
  obtain ⟨⟨frame, next⟩, cut, same⟩ := Option.map_eq_some_iff.1 stepped
  cases same
  exact ⟨cut, rfl, rfl⟩

/-- Reading stands on a boundary, no farther than the end. -/
structure InBounds (reading : Reading) : Prop where
  aligned : 8 ∣ reading.cursor
  bounds : reading.cursor ≤ reading.buffer.length

/-- Reading went on over these messages. Each starts on a boundary at or behind the stop of the one
before, and each took up at least a fixed part. -/
structure Passed (reading : Reading) (found : List Located) (after : Reading) : Prop where
  direction : after.direction = reading.direction
  buffer : after.buffer = reading.buffer
  inBounds : after.InBounds
  stands : ∀ message ∈ found, 8 ∣ message.start ∧
    message.frame.StandsAt reading.direction reading.buffer message.start
  between : ∀ message ∈ found, reading.cursor ≤ message.start ∧ message.stop ≤ after.cursor
  ordered : found.Pairwise fun earlier later => earlier.stop ≤ later.start
  padded : after.cursor
    = reading.cursor + total (found.map fun message => Layout.alignUp message.frame.size)
  far : reading.cursor + found.length * reading.direction.fixedSize ≤ after.cursor

namespace Passed

theorem nothing (inBounds : reading.InBounds) : reading.Passed [] reading where
  direction := rfl
  buffer := rfl
  inBounds := inBounds
  stands := nofun
  between := nofun
  ordered := .nil
  padded := rfl
  far := by simp

/-- One step. -/
theorem one (inBounds : reading.InBounds) (stepped : reading.next? = some (first, after)) :
    reading.Passed [first] after := by
  obtain ⟨cut, start, moved⟩ := next?_eq_some stepped
  obtain ⟨stands, bounds⟩ := Frame.standsAt_of_at? cut
  have next := (Frame.split?_of_at? cut).2
  have padded := Layout.le_alignUp first.frame.size
  have long := stands.long
  rw [← start] at stands
  refine ⟨by rw [moved], by rw [moved], ⟨?_, by rw [moved]; exact bounds⟩, ?_, ?_, ?_, next, ?_⟩
  · rw [next]
    exact Nat.dvd_add inBounds.aligned (Layout.dvd_alignUp _)
  · simp only [List.mem_singleton, forall_eq]
    exact ⟨start ▸ inBounds.aligned, stands⟩
  · simp only [List.mem_singleton, forall_eq]
    unfold Located.stop
    omega
  · exact List.pairwise_singleton _ _
  · rw [List.length_singleton, Nat.one_mul]
    omega

theorem append (front : reading.Passed found middle) (back : middle.Passed later after) :
    reading.Passed (found ++ later) after := by
  have onward := front.far
  have onward' := back.far
  refine ⟨back.direction.trans front.direction, back.buffer.trans front.buffer, back.inBounds,
    ?_, ?_, ?_, ?_, ?_⟩
  · intro message member
    rcases List.mem_append.1 member with early | late
    · exact front.stands message early
    · rw [← front.direction, ← front.buffer]
      exact back.stands message late
  · intro message member
    rcases List.mem_append.1 member with early | late
    · have place := front.between message early
      omega
    · have place := back.between message late
      omega
  · refine List.pairwise_append.2 ⟨front.ordered, back.ordered, fun early member late member' => ?_⟩
    exact Nat.le_trans (front.between early member).2 (back.between late member').1
  · rw [back.padded, front.padded, List.map_append, Nat.add_assoc, ← List.sum_append_nat]
  · rw [front.direction] at onward'
    rw [List.length_append, Nat.add_mul]
    omega

/-- Room for so many fixed parts is room for no more messages. -/
theorem length_le (passed : reading.Passed found after) :
    found.length ≤ reading.buffer.length / reading.direction.fixedSize := by
  have fixed : 0 < reading.direction.fixedSize :=
    Nat.lt_of_lt_of_le (by decide) (Frame.four_le_fixedSize _)
  have far := passed.far
  have bounds := passed.inBounds.bounds
  rw [passed.buffer] at bounds
  rw [Nat.le_div_iff_mul_le fixed]
  omega

end Passed

/-- Any number of steps. -/
theorem passed_take (inBounds : reading.InBounds) (count : Nat) :
    reading.Passed (reading.take count).1 (reading.take count).2 := by
  induction count generalizing reading with
  | zero => exact .nothing inBounds
  | succ count ih =>
    cases stepped : reading.next? with
    | none =>
      rw [take_of_end stepped]
      exact .nothing inBounds
    | some step =>
      rw [take_of_next stepped]
      have front := Passed.one inBounds stepped
      exact front.append (ih front.inBounds)

/-- Fewer messages than were asked for are found only where there are no more. -/
theorem length_take_or_end (reading : Reading) (count : Nat) :
    (reading.take count).1.length = count ∨ (reading.take count).2.next? = none := by
  induction count generalizing reading with
  | zero => exact .inl rfl
  | succ count ih =>
    cases stepped : reading.next? with
    | none =>
      rw [take_of_end stepped]
      exact .inr stepped
    | some step =>
      rw [take_of_next stepped]
      exact (ih step.2).imp_left (congrArg Nat.succ)

/-- Reading ends, however often it is asked for more. -/
theorem next?_take_eq_none (inBounds : reading.InBounds) {count : Nat}
    (enough : reading.buffer.length / reading.direction.fixedSize ≤ count) :
    (reading.take count).2.next? = none := by
  rcases reading.length_take_or_end count with all | ended
  · -- One message more would be too many.
    cases stepped : (reading.take count).2.next? with
    | none => rfl
    | some step =>
      have passed := passed_take inBounds count
      have most := (passed.append (.one passed.inBounds stepped)).length_le
      rw [List.length_append, List.length_singleton] at most
      omega
  · exact ended

/-- One at a time the same messages are found as all together. -/
theorem frames_take (reading : Reading) (count : Nat) :
    (reading.take count).1.map Located.frame
      = (frames reading.direction (reading.buffer.drop reading.cursor)).take count := by
  induction count generalizing reading with
  | zero => rfl
  | succ count ih =>
    cases stepped : reading.next? with
    | none =>
      have nothing :
          Frame.split? reading.direction (reading.buffer.drop reading.cursor) = none := by
        simpa [next?, Frame.at?] using stepped
      rw [take_of_end stepped, frames_of_split?_eq_none nothing]
      rfl
    | some step =>
      obtain ⟨first, after⟩ := step
      obtain ⟨cut, -, moved⟩ := next?_eq_some stepped
      have rest := ih after
      rw [moved] at rest
      dsimp only at rest
      rw [take_of_next stepped, frames_of_split?_eq_some (Frame.split?_of_at? cut).1,
        List.map_cons, List.take_succ_cons, ← rest, ← moved]

/-- What has been read stays so when more bytes come in. -/
theorem take_prefix_append (reading : Reading) (more : Bytes) {count further : Nat}
    (fewer : count ≤ further) :
    (reading.take count).1 <+:
      (take further { reading with buffer := reading.buffer ++ more }).1 := by
  induction count generalizing reading further with
  | zero => exact List.nil_prefix
  | succ count ih =>
    cases stepped : reading.next? with
    | none =>
      rw [take_of_end stepped]
      exact List.nil_prefix
    | some step =>
      obtain ⟨first, after⟩ := step
      obtain ⟨further, rfl⟩ : ∃ less, further = less + 1 := ⟨further - 1, by omega⟩
      obtain ⟨cut, start, moved⟩ := next?_eq_some stepped
      have again : next? { reading with buffer := reading.buffer ++ more }
          = some (first, { after with buffer := after.buffer ++ more }) := by
        rw [next?, Frame.at?_append cut more, moved]
        cases first
        cases start
        rfl
      rw [take_of_next stepped, take_of_next again, List.prefix_cons_inj]
      exact ih after (Nat.le_of_succ_le_succ fewer)

theorem inBounds_ofBytes (direction : Direction) (buffer : Bytes) :
    (ofBytes direction buffer).InBounds where
  aligned := Nat.dvd_zero 8
  bounds := Nat.zero_le _

end Reading

theorem length_frames_le (direction : Direction) (buffer : Bytes) :
    (frames direction buffer).length ≤ buffer.length / direction.fixedSize := by
  have all := (Reading.ofBytes direction buffer).frames_take (frames direction buffer).length
  have few := (Reading.passed_take (Reading.inBounds_ofBytes direction buffer)
    (frames direction buffer).length).length_le
  change _ = (frames direction buffer).take (frames direction buffer).length at all
  rw [List.take_length] at all
  rwa [← all, List.length_map]

/-- What has become of a batch whose messages have at least `least` bytes, once its reader was asked
for a message `count` times. -/
structure SafelyRead (direction : Direction) (least : Nat) (buffer : Bytes) (count : Nat)
    (found : List Located) (after : Reading) : Prop where
  few : found.length ≤ buffer.length / least
  bounded : after.cursor ≤ buffer.length
  /-- Each message stands whole in the buffer, on a boundary. -/
  stands : ∀ message ∈ found, 8 ∣ message.start ∧ least ≤ message.frame.size ∧
    message.frame.StandsAt direction buffer message.start
  /-- Later messages start later, and behind every byte of those before. -/
  ordered : found.Pairwise fun earlier later =>
    earlier.start < later.start ∧ earlier.stop ≤ later.start
  same : found.map Located.frame = (frames direction buffer).take count
  /-- By then there are no more. -/
  ends : buffer.length / least ≤ count → after.next? = none ∧
    found.map Located.frame = frames direction buffer ∧ after.cursor = readTo direction buffer
  /-- When more bytes come in, the same messages are found first, in the same places. -/
  lasting : ∀ more further, count ≤ further →
    found <+: ((Reading.ofBytes direction (buffer ++ more)).take further).1

theorem safelyRead_take (direction : Direction) (buffer : Bytes) (count : Nat) :
    SafelyRead direction direction.fixedSize buffer count
      ((Reading.ofBytes direction buffer).take count).1
      ((Reading.ofBytes direction buffer).take count).2 := by
  have start := Reading.inBounds_ofBytes direction buffer
  have passed := Reading.passed_take start count
  have same := (Reading.ofBytes direction buffer).frames_take count
  refine ⟨passed.length_le, ?_, ?_, ?_, same, fun enough => ?_, fun more further fewer =>
    (Reading.ofBytes direction buffer).take_prefix_append more fewer⟩
  · have bounds := passed.inBounds.bounds
    rwa [passed.buffer] at bounds
  · intro message member
    obtain ⟨aligned, stands⟩ := passed.stands message member
    exact ⟨aligned, stands.long, stands⟩
  · refine List.Pairwise.imp_of_mem ?_ passed.ordered
    intro earlier later member _ behind
    have long := (passed.stands earlier member).2.long
    have fixed := Frame.four_le_fixedSize direction
    change direction.fixedSize ≤ earlier.frame.size at long
    unfold Located.stop at behind ⊢
    omega
  · have all : (frames direction buffer).take count = frames direction buffer :=
      List.take_of_length_le (Nat.le_trans (length_frames_le direction buffer) enough)
    have whole := same.trans all
    refine ⟨Reading.next?_take_eq_none start enough, whole, ?_⟩
    rw [passed.padded, readTo, ← whole, List.map_map]
    exact Nat.zero_add _

/-- Whatever bytes a buffer holds, and however often a message is asked for, to read it as requests
or as responses is safe and comes to an end. -/
theorem reading_any_bytes (buffer : Bytes) (count : Nat) :
    let requests := (Reading.ofBytes .request buffer).take count
    let responses := (Reading.ofBytes .response buffer).take count
    SafelyRead .request 80 buffer count requests.1 requests.2 ∧
      SafelyRead .response 120 buffer count responses.1 responses.2 :=
  ⟨safelyRead_take .request buffer count, safelyRead_take .response buffer count⟩

/-- A message of 81 bytes needs its 7 bytes of padding, whatever they are. -/
theorem reading_any_bytes_padded81 :
    let message : Bytes := [1, 0, 81, 0] ++ List.replicate 77 7
    let whole := message ++ List.replicate 7 7
    (Reading.ofBytes .request (message ++ List.replicate 6 7)).next? = none ∧
    frames .request whole = [⟨.request, message⟩] ∧ readTo .request whole = 88 ∧
    ∀ more, [⟨0, .request, message⟩] <+: ((Reading.ofBytes .request (whole ++ more)).take 1).1 := by
  intro message whole
  have found : (Reading.ofBytes .request whole).take 1
      = ([⟨0, .request, message⟩], ⟨.request, whole, 88⟩) := by decide
  obtain ⟨safe, -⟩ := reading_any_bytes whole 1
  rw [found] at safe
  obtain ⟨-, all, cursor⟩ := safe.ends (by decide)
  exact ⟨by decide, all.symm, cursor.symm, fun more => safe.lasting more 1 (Nat.le_refl 1)⟩

end Batch
end FileBroker
