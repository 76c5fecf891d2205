import FileBroker.Proofs.Request.Draft
import FileBroker.Proofs.Response.Batch
import FileBroker.Proofs.Response.RoundTrip

/-!
There are two ways to put a message into a buffer: to write it out, bounded by its revision, or to
copy the encoding that was made of it before, which is padded already and has no bound but the word
size. The two leave the same bytes behind, or are refused for the same reason.
-/
namespace FileBroker

namespace Batch

variable {buffer : Buffer} {cursor limit : Nat} {message : Bytes}

/-- A padded message is written as it would be without its padding. -/
theorem writeEncoded_pad (short : message.length ≤ limit)
    (bounded : (Layout.pad message).length ≤ unbounded) :
    writeEncoded buffer cursor (Layout.pad message) = write buffer cursor message limit := by
  unfold writeEncoded
  by_cases room : cursor + (Layout.pad message).length ≤ buffer.size
  · have again : cursor + (Layout.pad (Layout.pad message)).length ≤ buffer.size := by
      rwa [Layout.pad_pad]
    rw [write_of_room short room, write_of_room bounded again]
    simp only [Layout.pad_pad]
  · have full := Nat.not_le.1 room
    have again : buffer.size < cursor + (Layout.pad (Layout.pad message)).length := by
      rwa [Layout.pad_pad]
    rw [write_of_full short full, write_of_full bounded again, Layout.pad_pad]

/-- What becomes of an encoded message that is put at `cursor`. Room for the longest message of its
revision is enough, since that ends on a boundary itself. -/
structure Put (buffer : Buffer) (cursor : Nat) (encoded : Bytes) (revision : Revision)
    (result : Except FormatError (Nat × Buffer)) : Prop where
  lands : cursor + encoded.length ≤ buffer.size → ∃ after,
    result = .ok (cursor + encoded.length, after) ∧
      after.bytes = buffer.bytes.overwrite cursor encoded
  refused : buffer.size < cursor + encoded.length →
    result = .error (.noRoom cursor encoded.length (buffer.size - cursor))
  roomy : Layout.fits buffer.size cursor revision.messageLimit = true → ∃ next after,
    result = .ok (next, after)

theorem put_write {revision : Revision} (short : message.length ≤ revision.messageLimit) :
    Put buffer cursor (Layout.pad message) revision
      (write buffer cursor message revision.messageLimit) where
  lands room := ⟨_, write_of_room short room, rfl⟩
  refused full := write_of_full short full
  roomy fits := by
    have aligned := Layout.alignUp_le short revision.dvd_messageLimit
    have room : cursor + (Layout.pad message).length ≤ buffer.size := by
      simp only [Layout.fits, decide_eq_true_eq] at fits
      rw [Layout.length_pad]
      omega
    exact ⟨_, _, write_of_room short room⟩

/-- A message that landed is found there. -/
theorem Put.at?_landed {direction : Direction} {revision : Revision} {next : Nat} {after : Buffer}
    (put : Put buffer cursor (Layout.pad message) revision (.ok (next, after)))
    (sized : Frame.Sized direction message) :
    Frame.at? direction after.bytes cursor = some (⟨direction, message⟩, next) := by
  by_cases room : cursor + (Layout.pad message).length ≤ buffer.size
  · obtain ⟨after', landed, bytes⟩ := put.lands room
    cases landed
    rw [bytes]
    refine Frame.at?_overwrite sized ?_
    rw [← buffer.size_eq]
    omega
  · cases put.refused (Nat.not_le.1 room)

end Batch

/-- Every way to come by a response: it carries a bare status, is built from a draft, or is read
from a frame. -/
inductive Response.Made : Response → Prop where
  | bare (revision : Revision) (hint : Hint) (kind : Kind) (status : Status) :
      Made (.ofStatus revision hint kind status)
  | built {revision : Revision} {hint : Hint} {kind : Kind} {steps : List Draft.Step}
      {response : Response}
      (built : ((Draft.new revision hint kind).performAll steps).build = .ok response) :
      Made response
  | decoded {frame : Frame} {revision : Revision} {response : Response}
      (decoded : decode frame revision = .ok response) : Made response

theorem Response.Made.wellFormed {response : Response} (made : response.Made) :
    response.WellFormed := by
  cases made with
  | bare revision hint kind status => exact wellFormed_ofStatus revision hint kind status
  | @built revision hint kind steps response built =>
    have belongs := (Draft.Belongs.new revision hint kind).performAll steps
    exact (belongs.build built).2.2
  | decoded decoded => exact wellFormed_of_decode decoded

/-- Copying the encoding of a message and writing the message have the same result: it lands whole
and padded wherever there is room for it, and nowhere else. -/
theorem Batch.copying_is_writing (buffer : Buffer) (cursor : Nat) :
    (∀ request : Request, request.Made →
      writeEncoded buffer cursor request.encode = writeRequest buffer cursor request ∧
      Put buffer cursor request.encode request.revision (writeRequest buffer cursor request)) ∧
    (∀ response : Response, response.Made →
      writeEncoded buffer cursor response.encode = writeResponse buffer cursor response ∧
      Put buffer cursor response.encode response.revision
        (writeResponse buffer cursor response)) := by
  constructor
  · intro request made
    have short : request.message.length ≤ request.revision.messageLimit :=
      request.length_message ▸ made.wellFormed.1
    exact ⟨writeEncoded_pad short (Push.length_pad_le_unbounded short), put_write short⟩
  · intro response made
    have short : response.message.length ≤ response.revision.messageLimit :=
      response.length_message ▸ made.wellFormed.1
    exact ⟨writeEncoded_pad short (Push.length_pad_le_unbounded short), put_write short⟩

/-- A request of 83 bytes needs 88, so the last place for it in 128 bytes is at 40. -/
theorem Batch.copying_is_writing_opening :
    let asked : Request := ⟨.legacy, ⟨7⟩, .create Request.opening, [97, 98, 99]⟩
    let reply : Response := .ofStatus .v1 ⟨9⟩ .read .unsuccessful
    let buffer := Buffer.filled 128 255
    asked.Made ∧ reply.Made ∧
    (∃ after, writeEncoded buffer 40 asked.encode = .ok (128, after) ∧
      writeRequest buffer 40 asked = .ok (128, after)) ∧
    writeRequest buffer 41 asked = .error (.noRoom 41 88 87) ∧
    writeEncoded buffer 41 asked.encode = .error (.noRoom 41 88 87) ∧
    ∃ next after, writeResponse (.filled 16320 255) 0 reply = .ok (next, after) := by
  intro asked reply buffer
  have asked_made : asked.Made := Request.made_of_wellFormed ⟨by decide, rfl⟩
  have reply_made : reply.Made := .bare .v1 ⟨9⟩ .read .unsuccessful
  have length : asked.encode.length = 88 := by
    rw [Request.encode, Layout.length_pad, asked.length_message]
    decide
  have size : buffer.size = 128 := rfl
  obtain ⟨same, put⟩ := (copying_is_writing buffer 40).1 asked asked_made
  obtain ⟨same', put'⟩ := (copying_is_writing buffer 41).1 asked asked_made
  obtain ⟨-, answered⟩ := (copying_is_writing (.filled 16320 255) 0).2 reply reply_made
  obtain ⟨after, landed, -⟩ := put.lands (by omega)
  have refused := put'.refused (by omega)
  rw [length] at landed refused
  exact ⟨asked_made, reply_made, ⟨after, same.trans landed, landed⟩, refused,
    same'.trans refused, answered.roomy (by decide)⟩

end FileBroker
