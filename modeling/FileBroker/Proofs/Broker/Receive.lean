import FileBroker.Broker.Basic
import FileBroker.Proofs.Queue.Tally
import FileBroker.Proofs.Response.Draft
import FileBroker.Proofs.Response.Validation

/-!
What becomes of a response under the standard routine: the operation that it answers ends, with an
outcome that depends on nothing but its request and the response.
-/
namespace FileBroker

namespace Response

/-- The outcome that a caller gets for a response to its request. -/
def judge (request : Request) (response : Response) : Outcome :=
  match response.validate request with
  | .error error => .error (.protocolViolation error.message)
  | .ok () =>
    if response.status.isPending then
      .error (.protocolViolation "pending status in response")
    else if response.status.isSuccess then .ok response
    else .error (.refused response.status response.io.information)

/-- A bare failure status refuses the request. -/
theorem judge_ofStatus (request : Request) (status : Status) (failed : status.isSuccess = false)
    (final : status.isPending = false) :
    (ofStatus request.revision request.hint request.kind status).judge request
      = .error (.refused status 0) := by
  unfold judge
  rw [validate_ofStatus]
  change (if status.isPending = true then _ else if status.isSuccess = true then _ else _) = _
  rw [failed, final]
  rfl

end Response

namespace Queue

/-- The operation in flight under a hint is the one that lands under it. -/
theorem land_of_mem {queue : Queue} {op : Operation} (distinct : queue.Distinct)
    (flying : op ∈ queue.inFlight) :
    queue.land op.hint = (some op,
      { queue with inFlight := queue.inFlight.filter fun other => other.hint != op.hint }) := by
  rcases land_cases queue op.hint with ⟨-, free⟩ | ⟨found, member, under, -, present⟩
  · exact absurd rfl (free op flying)
  · have same : found = op := List.inj_on_of_nodup_map distinct member flying under
    rw [present, same]

end Queue

namespace Broker

variable {broker : Broker} {op : Operation} {response : Response}

theorem readAnswer_message (formed : response.WellFormed) :
    readAnswer response.revision op.request ⟨.response, response.message⟩
      = (response.validate op.request).map fun _ => response := by
  unfold readAnswer
  rw [Response.decode_message formed]
  change (response.validate op.request >>= fun _ => Except.ok response) = _
  cases response.validate op.request <;> rfl

theorem apply_standard (clock : Instant) :
    broker.apply .standard clock op response
      = ({ broker with attempts := ⟨op.request, response⟩ :: broker.attempts } : Broker).settle op
          (if response.status.isSuccess then .ok response
            else .error (.refused response.status response.io.information)) := by
  unfold apply Routine.standard
  by_cases success : response.status.isSuccess = true
  · simp only [success, if_true]
  · simp only [success]
    rfl

theorem hint_message (mine : response.Matches op.request) :
    (Frame.mk .response response.message).hint = op.hint := by
  unfold Frame.hint
  rw [response.frame_header]
  exact mine.hint

theorem ingest_encode (routine : Routine) (clock : Instant) (formed : response.WellFormed) :
    (broker.ingest routine clock response.encode).2
      = (broker.receive routine clock ⟨.response, response.message⟩).2 := by
  rw [ingest, Response.frames_encode formed]
  rfl

/-- A response to an operation in flight lands it and settles it. -/
theorem receive_standard (clock : Instant) (distinct : broker.queue.Distinct)
    (flying : op ∈ broker.queue.inFlight) (mine : response.Matches op.request)
    (spoken : op.request.revision = broker.config.revision) :
    ∃ attempts counters,
      (broker.receive .standard clock ⟨.response, response.message⟩).2 = { broker with
        queue := { broker.queue with
          inFlight := broker.queue.inFlight.filter fun other => other.hint != op.hint
        }.deliver op (response.judge op.request)
        attempts
        counters } := by
  have revision : broker.config.revision = response.revision := spoken.symm.trans mine.revision.symm
  unfold receive
  rw [hint_message mine, Queue.land_of_mem distinct flying]
  dsimp only
  rw [revision, readAnswer_message mine.formed]
  unfold Response.judge
  cases response.validate op.request with
  | error error => exact ⟨_, _, rfl⟩
  | ok passed =>
    dsimp only [Except.map]
    by_cases pending : response.status.isPending = true
    · rw [if_pos pending, if_pos pending]
      exact ⟨_, _, rfl⟩
    · rw [if_neg pending, if_neg pending, apply_standard]
      exact ⟨_, _, rfl⟩

theorem attempts_apply (routine : Routine) (clock : Instant) :
    (broker.apply routine clock op response).attempts
      = ⟨op.request, response⟩ :: broker.attempts := by
  unfold apply
  dsimp only
  split
  · rfl
  · split <;> rfl

/-- Whatever the routine, it gets to see a response that passes every check. -/
theorem attempts_receive (routine : Routine) (clock : Instant) (distinct : broker.queue.Distinct)
    (flying : op ∈ broker.queue.inFlight) (mine : response.Matches op.request)
    (spoken : op.request.revision = broker.config.revision)
    (valid : response.validate op.request = .ok ()) (final : response.status.isPending = false) :
    (broker.receive routine clock ⟨.response, response.message⟩).2.attempts
      = ⟨op.request, response⟩ :: broker.attempts := by
  have revision : broker.config.revision = response.revision := spoken.symm.trans mine.revision.symm
  unfold receive
  rw [hint_message mine, Queue.land_of_mem distinct flying]
  dsimp only
  rw [revision, readAnswer_message mine.formed, valid]
  dsimp only [Except.map]
  rw [if_neg (by rw [final]; exact Bool.false_ne_true), attempts_apply]

end Broker
end FileBroker
