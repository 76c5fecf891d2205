import FileBroker.Proofs.Broker.Landing
import FileBroker.Proofs.Volume.Course

/-!
A volume and a broker agree. Whatever is asked of a volume, and in whatever state, the response that
is sent can be read and may answer the request. So a caller whose request a volume answers gets what
the volume said: the response, or the status and the count it was refused with.
-/
namespace FileBroker

open Broker (Action)

/-- Whoever is in flight speaks the revision of the broker. -/
theorem Broker.revision_of_flying {routine : Routine} {config : Broker.Config}
    {actions : List Action} {op : Operation}
    (flying : op ∈ ((Broker.new config).run routine actions).queue.inFlight) :
    op.request.revision = ((Broker.new config).run routine actions).config.revision := by
  have recorded := recorded_run routine config actions
  obtain ⟨before, now, draft, rest, reply, -, accepted, same⟩ :=
    (recorded.inFlight op flying).posted
  have spoken : draft.revision = ((Broker.new config).run routine before).config.revision :=
    (post_eq_ok (Prod.ext accepted rfl)).1
  rw [same, recorded.revision, ← (recorded_run routine config before).revision]
  exact spoken

/-- What becomes of a request on a volume: the handler crashes, or the worker sends a response with
the status and the count of the volume, which can be read and may answer the request. Whoever waits
for an answer to this request in flight, is told just that by the first message in a batch that
names it: a success is handed on, and a failure is reported with its status and count. -/
theorem volume_answers_accepted (volume : Volume) (now : UInt64) (request : Request)
    {reaction : Reaction} {after : Volume}
    (handled : Volume.handle now volume request (.ofRequest request) = (reaction, after))
    (returned : reaction ≠ .crashed) :
    ∃ status information draft response,
      reaction = .complete status information draft ∧
      Desk.completed request.revision draft status information = .ok response ∧
      (∀ (desk : Desk Volume) thread writer frame, desk.state = volume →
        Request.decode frame request.revision = .ok request →
        desk.answer (Volume.handle now) request.revision thread writer frame
          = { desk with requests := desk.requests + 1, state := after }.wrote
              (writer.pushResponse response)) ∧
      response.status = status ∧ response.io.information = information ∧
      Batch.frames .response response.encode = [⟨.response, response.message⟩] ∧
      Response.decode ⟨.response, response.message⟩ request.revision = .ok response ∧
      response.validate request = .ok () ∧ status.isPending = false ∧
      ∀ config actions op (action : Action) before rest later,
        op ∈ ((Broker.new config).run .standard actions).queue.inFlight → op.request = request →
        Batch.frames .response action.responses
          = before ++ ⟨.response, response.message⟩ :: rest →
        (∀ frame ∈ before, frame.hint ≠ request.hint) →
        ((((Broker.new config).run .standard actions).act .standard action).run .standard
            later).queue.outcomesOf op.ticket
          = [if status.isSuccess then .ok response else .error (.refused status information)] := by
  rcases Volume.handle_course handled with
    ⟨crashed, -⟩ | ⟨status, information, draft, response, rfl, completed, io, mine, course⟩
  · exact absurd crashed returned
  · obtain ⟨valid, final⟩ := course.valid
    have sent : response.status = status := congrArg IoStatus.status io
    have count : response.io.information = information := congrArg IoStatus.information io
    have read : Response.decode ⟨.response, response.message⟩ request.revision = .ok response :=
      mine.revision ▸ Response.decode_message mine.formed
    refine ⟨status, information, draft, response, rfl, completed, ?_, sent, count,
      Response.frames_encode mine.formed, read, valid, sent ▸ final, ?_⟩
    · intro desk thread writer frame held decoded
      unfold Desk.answer
      rw [decoded, held]
      dsimp only
      rw [handled]
      dsimp only
      rw [completed]
    · intro config actions op action before rest later flying same framed first
      subst same
      obtain ⟨missed, ledger, -, -⟩ := (Broker.ledger_new config).run .standard actions
      have spoken := Broker.revision_of_flying flying
      obtain ⟨attempts, -, -, told⟩ := Broker.answered_of_framed .standard ledger flying framed
        first (Broker.hint_message mine) (spoken ▸ read) valid final
      obtain ⟨-, outcomes⟩ := told _ (Broker.lastWord_standard ..) later
      rw [outcomes, sent, count]

/-- A volume with one file of three bytes, which is open. -/
def threeByteVolume : Volume where
  label := "v"
  size := 1024
  created := 0
  files := [("a", ⟨1, [10, 20, 30], 0, 0, false⟩)]
  handles := [(1, "a")]
  lastHandle := 1
  lastIndex := 1
  used := 3

/-- The read that was posted and fetched is answered by a volume with the bytes that are there, and
its caller is told. -/
theorem volume_answers_accepted_oneRead :
    ((Broker.new .standard).run .standard Broker.oneRead).queue.outcomesOf 1
      = [.ok Broker.threeBytes] := by
  let request := Broker.reading.withHint ⟨1⟩
  let draft : Response.Draft := ⟨.v1, ⟨1⟩, ⟨.success, 0⟩, .read ⟨120, 3⟩, [10, 20, 30]⟩
  have handled : Volume.handle 0 threeByteVolume request (.ofRequest request)
      = (.complete .success 3 draft, threeByteVolume) := rfl
  obtain ⟨status, information, draft, response, same, completed, -, -, -, framed, -, -, -, told⟩ :=
    volume_answers_accepted _ _ _ handled nofun
  cases same
  obtain rfl : Broker.threeBytes = response := Except.ok.inj completed
  have flying : Broker.readOperation
      ∈ ((Broker.new .standard).run .standard (Broker.oneRead.take 2)).queue.inFlight := by
    rw [Broker.fetched_oneRead.1]
    exact List.mem_singleton_self _
  exact told .standard (Broker.oneRead.take 2) Broker.readOperation
    (.ingest 0 Broker.threeBytes.encode) [] [] [] flying rfl framed (by simp)

end FileBroker
