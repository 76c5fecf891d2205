import FileBroker.Proofs.Request.Format
import FileBroker.Proofs.Response.Batch
import FileBroker.Proofs.Worker.Turn

/-!
A worker on any channel. Whatever the channel delivers, the worker sends one reply for every request
that is framed there, in the order of the requests, unless the handler keeps the request for later;
no reply is lost before the channel stops.
-/
namespace FileBroker

/-! ### Replies -/

namespace Worker

/-- What is sent for a request. A bare reply refuses the request under its hint and kind number. -/
inductive Reply where
  | bare (hint : Hint) (kind : UInt32)
  | full (response : Response)

namespace Reply

def message (revision : Revision) : Reply → Bytes
  | .bare hint kind => Response.statusMessage revision hint kind .invalidDeviceRequest
  | .full response => response.message

def frame (revision : Revision) (reply : Reply) : Frame := ⟨.response, reply.message revision⟩

/-- The frame says what the reply says. A bare one has a failure status and no data. -/
def ReadFrom (revision : Revision) (frame : Frame) : Reply → Prop
  | .bare _ _ =>
    Response.ioReader.runOn ((frame.bytes.drop Layout.headerSize).take Layout.ioStatusSize)
      = .ok ⟨.invalidDeviceRequest, 0⟩ ∧ frame.trailing = []
  | .full response => Response.decode frame revision = .ok response

/-- The frame carries the reply to the request. -/
structure Answers (revision : Revision) (request : Frame) (reply : Reply) (frame : Frame) :
    Prop where
  spoken : frame.header.revision = revision.number
  hint : frame.header.hint = request.header.hint
  kind : frame.header.kind = request.header.kind
  reads : reply.ReadFrom revision frame

end Reply
end Worker

namespace Handler

variable {τ : Type}

/-- The reply to one request, and the state of the handler afterwards. A request that cannot be read
never gets to the handler. -/
def reply? (handler : Handler τ) (revision : Revision) (state : τ) (request : Frame) :
    Option Worker.Reply × τ :=
  match Request.decode request revision with
  | .error _ => (some (.bare request.header.hint request.header.kind), state)
  | .ok asked =>
    match handler state asked (.ofRequest asked) with
    | (.complete status information draft, after) =>
      match (draft.setStatus status information).build with
      | .ok response => (some (.full response), after)
      | .error _ => (some (.bare request.header.hint request.header.kind), after)
    | (_, after) => (none, after)

/-- The replies to requests in a row, each with its request. -/
def replies (handler : Handler τ) (revision : Revision) (state : τ) :
    List Frame → List (Frame × Worker.Reply) × τ
  | [] => ([], state)
  | request :: rest =>
    let first := handler.reply? revision state request
    let later := replies handler revision first.2 rest
    ((first.1.map (request, ·)).toList ++ later.1, later.2)

theorem replies_append (handler : Handler τ) (revision : Revision) (state : τ)
    (first rest : List Frame) :
    handler.replies revision state (first ++ rest)
      = ((handler.replies revision state first).1
          ++ (handler.replies revision (handler.replies revision state first).2 rest).1,
        (handler.replies revision (handler.replies revision state first).2 rest).2) := by
  induction first generalizing state with
  | nil => rfl
  | cons request later ih => simp [replies, ih]

end Handler

namespace Worker.Reply

/-- A reply that can be sent: it is framed whole, answers its request, and keeps the bound. -/
structure Sendable (revision : Revision) (request : Frame) (reply : Reply) : Prop where
  sized : Frame.Sized .response (reply.message revision)
  short : (reply.message revision).length ≤ revision.messageLimit
  answers : reply.Answers revision request (reply.frame revision)

theorem sendable_bare (revision : Revision) (request : Frame) :
    (bare request.header.hint request.header.kind).Sendable revision request := by
  have length := Batch.Push.length_statusMessage revision request.header.hint request.header.kind
    .invalidDeviceRequest
  have limit := revision.messageLimit_ge
  let push : Batch.Push .response :=
    .bareStatus revision request.header.hint request.header.kind .invalidDeviceRequest
  obtain ⟨header, io, -⟩ := push.readBackFrom_message
  have spoken := congrArg Header.revision header
  have hint := congrArg Header.hint header
  have kind := congrArg Header.kind header
  refine ⟨push.sized, ?_, spoken, hint, kind, io, ?_⟩
  · rw [message, length]
    omega
  · exact List.drop_eq_nil_of_le (Nat.le_of_eq length)

theorem sendable_full {revision : Revision} {request : Frame} {asked : Request}
    {response : Response} (decoded : Request.decode request revision = .ok asked)
    (mine : response.Matches asked) : (full response).Sendable revision request := by
  obtain ⟨spoken, hint, kind⟩ := Request.header_of_decode decoded
  have revision' := mine.revision.trans spoken
  have header := response.frame_header
  have spoken' := congrArg Header.revision header
  have hint' := congrArg Header.hint header
  have kind' := congrArg Header.kind header
  refine ⟨Response.sized_message mine.formed.1, ?_, ?_, ?_, ?_, ?_⟩
  · rw [message, response.length_message, ← revision']
    exact mine.formed.1
  · exact spoken'.trans (congrArg Revision.number revision')
  · exact hint'.trans (mine.hint.trans hint)
  · exact kind'.trans ((congrArg Kind.number mine.kind).trans kind)
  · rw [ReadFrom, ← revision']
    exact Response.decode_message mine.formed

end Worker.Reply

namespace Handler

variable {τ : Type} {handler : Handler τ}

theorem Proper.sendable (proper : handler.Proper) {revision : Revision} {state : τ}
    {request : Frame} {reply : Worker.Reply}
    (given : (handler.reply? revision state request).1 = some reply) :
    reply.Sendable revision request := by
  unfold reply? at given
  split at given
  · cases given
    exact Worker.Reply.sendable_bare revision request
  · next asked decoded =>
    split at given
    · next status information draft after reacts =>
      have made := proper.made state asked status information draft (congrArg Prod.fst reacts)
      split at given
      · next response built =>
        cases given
        exact Worker.Reply.sendable_full decoded ((made.setStatus _ _).build built)
      · cases given
        exact Worker.Reply.sendable_bare revision request
    · cases given

theorem Proper.sendable_replies (proper : handler.Proper) {revision : Revision} {state : τ}
    {requests : List Frame} :
    ∀ pair ∈ (handler.replies revision state requests).1, pair.2.Sendable revision pair.1 := by
  induction requests generalizing state with
  | nil => exact fun pair member => absurd member List.not_mem_nil
  | cons request rest ih =>
    intro pair member
    rcases List.mem_append.1 member with first | later
    · obtain ⟨reply, given, rfl⟩ := Option.map_eq_some_iff.1 (Option.mem_toList.1 first)
      exact proper.sendable given
    · exact ih pair later

end Handler
/-! ### One request -/

/-- A reply is written where there is room for the largest. -/
theorem Worker.Reply.Sendable.push {revision : Revision} {request : Frame} {reply : Worker.Reply}
    (sendable : reply.Sendable revision request) {writer : Batch.Writer} (bounds : writer.InBounds)
    (fits : writer.cursor + revision.messageLimit ≤ writer.buffer.size) :
    ∃ written, writer.push (reply.message revision) revision.messageLimit = .ok written ∧
      written.InBounds ∧ written.buffer.size = writer.buffer.size ∧
      written.written = writer.written ++
        [reply].flatMap fun reply => Layout.pad (reply.message revision) := by
  have aligned := Layout.alignUp_le sendable.short revision.dvd_messageLimit
  have room : writer.cursor + Layout.alignUp (reply.message revision).length
      ≤ writer.buffer.size := by omega
  obtain ⟨written, pushed⟩ := Batch.Writer.push_ok sendable.short room
  obtain ⟨longer, -, size, within⟩ := Batch.Writer.push_eq_ok bounds pushed
  rw [List.flatMap_singleton]
  exact ⟨written, pushed, within, size, longer⟩

/-- Whatever is framed is answered as the handler has it, and the reply is written. -/
theorem Desk.answer_reply {τ : Type} {handler : Handler τ} (proper : handler.Proper)
    {revision : Revision} (thread : String) (desk : Desk τ) (request : Frame)
    {writer : Batch.Writer} (bounds : writer.InBounds)
    (fits : writer.cursor + revision.messageLimit ≤ writer.buffer.size) :
    ∃ written after, desk.answer handler revision thread writer request = (.ok written, after) ∧
      after.state = (handler.reply? revision desk.state request).2 ∧
      written.InBounds ∧ written.buffer.size = writer.buffer.size ∧
      written.written = writer.written ++
        (handler.reply? revision desk.state request).1.toList.flatMap
          fun reply => Layout.pad (reply.message revision) := by
  obtain ⟨refusal, refused, stands⟩ :=
    (Worker.Reply.sendable_bare revision request).push bounds fits
  change writer.pushStatus revision request.header.hint request.header.kind .invalidDeviceRequest
    = .ok refusal at refused
  unfold Handler.reply? Desk.answer
  cases decoded : Request.decode request revision with
  | error fault =>
    dsimp only
    rw [refused]
    exact ⟨refusal, _, rfl, rfl, stands⟩
  | ok asked =>
    obtain ⟨spoken, hint, kind⟩ := Request.header_of_decode decoded
    dsimp only
    cases reacts : handler desk.state asked (.ofRequest asked) with
    | mk reaction state =>
      cases reaction with
      | crashed => exact absurd (congrArg Prod.fst reacts) (proper.finishes desk.state asked)
      | deferred => exact ⟨writer, _, rfl, rfl, bounds, rfl, (List.append_nil _).symm⟩
      | complete status information draft =>
        have made := proper.made _ _ _ _ _ (congrArg Prod.fst reacts)
        have completed := Response.completed_of_made made status information
        rw [spoken] at completed
        dsimp only
        rw [completed]
        cases built : (draft.setStatus status information).build with
        | ok response =>
          have mine := (made.setStatus status information).build built
          obtain ⟨written, pushed, stands⟩ :=
            (Worker.Reply.sendable_full decoded mine).push bounds fits
          rw [← spoken, ← mine.revision] at pushed
          change writer.pushResponse response = .ok written at pushed
          dsimp only
          rw [pushed]
          exact ⟨written, _, rfl, rfl, stands⟩
        | error fault =>
          dsimp only
          rw [hint, kind, refused]
          exact ⟨refusal, _, rfl, rfl, stands⟩

end FileBroker
