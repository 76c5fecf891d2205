import FileBroker.Proofs.Message.Copying
import FileBroker.Proofs.Response.Validation

/-!
A worker that has nothing to report but a status can come to its response in three ways: it writes
the status under the number of the kind, it makes a response without data, or it resets the draft
that it was filling in. Nobody can tell from the bytes which way it was.
-/
namespace FileBroker.Response

/-- A fixed part and nothing behind it, which ends on a boundary. -/
theorem length_encode_ofStatus (revision : Revision) (hint : Hint) (kind : Kind) (status : Status) :
    (ofStatus revision hint kind status).encode.length = 120 := by
  rw [encode, Layout.length_pad, length_message]
  exact Layout.alignUp_of_dvd (by decide : 8 ∣ 120)

/-- The three ways write the same bytes, or are refused alike. Where there is room, the status is
read back as a response without data, which may answer any request of its kind. -/
theorem bare_status_one_message (revision : Revision) (hint : Hint) (kind : Kind) (status : Status)
    (steps : List Draft.Step) (buffer : Buffer) (cursor : Nat) :
    let bare := ofStatus revision hint kind status
    let draft := (Draft.new revision hint kind).performAll steps
    let result := Batch.writeStatus buffer cursor revision hint kind.number status
    Batch.writeResponse buffer cursor bare = result ∧
    (∃ built, (draft.resetToStatus status).build = .ok built ∧
      Batch.writeResponse buffer cursor built = result) ∧
    Batch.Put buffer cursor bare.encode revision result ∧
    (∀ next after, result = .ok (next, after) →
      ∃ frame, Frame.at? .response after.bytes cursor = some (frame, next) ∧
        decode frame revision = .ok bare) ∧
    ∀ request : Request, request.kind = kind → bare.validate request = .ok () := by
  intro bare draft result
  have formed : bare.WellFormed := wellFormed_ofStatus revision hint kind status
  have written : Batch.writeResponse buffer cursor bare = result := by
    change Batch.write buffer cursor bare.message revision.messageLimit
      = Batch.write buffer cursor (statusMessage revision hint kind.number status)
        revision.messageLimit
    rw [statusMessage_eq]
  have belongs : draft.Belongs revision hint kind :=
    (Draft.Belongs.new revision hint kind).performAll steps
  have put : Batch.Put buffer cursor bare.encode revision result := by
    rw [← written]
    exact Batch.put_write (bare.length_message ▸ formed.1)
  refine ⟨written, ⟨bare, Draft.build_resetToStatus belongs status, written⟩, put, ?_, ?_⟩
  · intro next after landed
    rw [landed] at put
    exact ⟨_, put.at?_landed (sized_message formed.1), decode_message formed⟩
  · rintro request rfl
    exact validate_ofStatus request status

/-- A draft with data and a count is reset; its status goes to the end of a buffer of 128 bytes, and
would not fit one byte further. -/
theorem bare_status_one_message_lateReset :
    let steps := [.append [1, 2, 3], .setAnswer (.read ⟨120, 3⟩), .setStatus .success 3]
    let draft := (Draft.new .v1 ⟨9⟩ .read).performAll steps
    let bare := ofStatus .v1 ⟨9⟩ .read .endOfFile
    let request : Request := ⟨.legacy, ⟨4⟩, .read .none 0 16 0, []⟩
    draft.trailing = [1, 2, 3] ∧
    (∃ after frame, Batch.writeStatus (.filled 128 255) 8 .v1 ⟨9⟩ 5 .endOfFile = .ok (128, after) ∧
      Batch.writeResponse (.filled 128 255) 8 bare = .ok (128, after) ∧
      Frame.at? .response after.bytes 8 = some (frame, 128) ∧ decode frame .v1 = .ok bare) ∧
    (∃ built, (draft.resetToStatus .endOfFile).build = .ok built ∧
      Batch.writeResponse (.filled 128 255) 9 built = .error (.noRoom 9 120 119)) ∧
    bare.validate request = .ok () := by
  intro steps draft bare request
  obtain ⟨same, -, put, readBack, answers⟩ :=
    bare_status_one_message .v1 ⟨9⟩ .read .endOfFile steps (.filled 128 255) 8
  obtain ⟨-, ⟨built, reset, same'⟩, put', -, -⟩ :=
    bare_status_one_message .v1 ⟨9⟩ .read .endOfFile steps (.filled 128 255) 9
  have lands := put.lands
  have refused := put'.refused
  rw [length_encode_ofStatus] at lands refused
  obtain ⟨after, landed, -⟩ := lands (by decide)
  obtain ⟨frame, found, decoded⟩ := readBack _ after landed
  exact ⟨rfl, ⟨after, frame, landed, same.trans landed, found, decoded⟩,
    ⟨built, reset, same'.trans (refused (by decide))⟩, answers request rfl⟩

end FileBroker.Response
