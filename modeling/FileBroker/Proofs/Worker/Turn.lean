import FileBroker.Proofs.Session.Fetch
import FileBroker.Proofs.Worker.Progress
import FileBroker.Proofs.Worker.Run

/-!
A worker that serves a session alone. Each of its turns returns the answers it has, takes the
longest front of what is waiting, and gives it to the handler request by request, just as if the
handler had been called directly.
-/
namespace FileBroker

section Handlers

variable {τ : Type}

/-- Direct calls: the handler gets every request in turn, with a fresh draft for it. -/
def Handler.serve (handler : Handler τ) : τ → List Posting → List Call × τ
  | state, [] => ([], state)
  | state, posting :: rest =>
    let reacted := handler state posting.request (.ofRequest posting.request)
    let served := serve handler reacted.2 rest
    (⟨posting, reacted.1⟩ :: served.1, served.2)

/-- A handler that never gives up, and completes a request with nothing but a draft that it made
for this request. -/
structure Handler.Proper (handler : Handler τ) : Prop where
  finishes : ∀ state request, (handler state request (.ofRequest request)).1 ≠ .crashed
  made : ∀ state request status information draft,
    (handler state request (.ofRequest request)).1 = .complete status information draft →
    draft.MadeFor request

theorem Handler.Proper.call {handler : Handler τ} (proper : Handler.Proper handler) (state : τ)
    (posting : Posting) :
    Call.Proper ⟨posting, (handler state posting.request (.ofRequest posting.request)).1⟩ where
  finished := proper.finishes state posting.request
  made := proper.made state posting.request

/-- One more direct call. -/
theorem Handler.serve_concat {handler : Handler τ} {state middle : τ} {first : List Posting}
    {calls : List Call} (served : serve handler state first = (calls, middle))
    (posting : Posting) :
    serve handler state (first ++ [posting])
      = (calls ++ [⟨posting, (handler middle posting.request (.ofRequest posting.request)).1⟩],
        (handler middle posting.request (.ofRequest posting.request)).2) := by
  induction first generalizing state calls with
  | nil =>
    cases served
    rfl
  | cons earlier rest ih =>
    unfold serve at served
    cases served
    rw [List.cons_append, serve, ih rfl]
    rfl

end Handlers

/-! ### One request -/

/-- A response of any size is written where there is room for the largest. -/
theorem Batch.Writer.push_response {writer : Writer} (bounds : writer.InBounds)
    {response : Response} (formed : response.WellFormed)
    (fits : writer.cursor + response.revision.messageLimit ≤ writer.buffer.size) :
    ∃ written, writer.pushResponse response = .ok written ∧ written.InBounds ∧
      written.buffer.size = writer.buffer.size ∧
      written.written = writer.written ++ response.encode := by
  have short := formed.1
  rw [← response.length_message] at short
  have aligned := Layout.alignUp_le short response.revision.dvd_messageLimit
  have room : writer.cursor + Layout.alignUp response.message.length ≤ writer.buffer.size := by
    omega
  obtain ⟨written, push⟩ := push_ok short room
  obtain ⟨longer, -, size, within⟩ := push_eq_ok bounds push
  exact ⟨written, push, within, size, longer⟩

theorem Batch.Writer.pushStatus_eq (writer : Writer) (revision : Revision) (hint : Hint)
    (kind : Kind) (status : Status) :
    writer.pushStatus revision hint kind.number status
      = writer.pushResponse (.ofStatus revision hint kind status) := by
  unfold pushStatus pushResponse
  rw [Response.statusMessage_eq]
  rfl

namespace Desk

variable {τ : Type} {handler : Handler τ} {desk : Desk τ}

/-- A request that was fetched is given to the handler, and what the handler sends at once is
written. -/
theorem answer_spec {posting : Posting}
    (call : Call.Proper
      ⟨posting, (handler desk.state posting.request (.ofRequest posting.request)).1⟩)
    (thread : String) {revision : Revision} (formed : posting.request.WellFormed)
    (spoken : posting.request.revision = revision) {writer : Batch.Writer}
    (bounds : writer.InBounds)
    (fits : writer.cursor + revision.messageLimit ≤ writer.buffer.size) :
    ∃ written after,
      desk.answer handler revision thread writer ⟨.request, posting.request.message⟩
        = (.ok written, after) ∧
      after.state = (handler desk.state posting.request (.ofRequest posting.request)).2 ∧
      after.requests = desk.requests + 1 ∧
      written.InBounds ∧ written.buffer.size = writer.buffer.size ∧
      written.written = writer.written ++
        (Call.response? ⟨posting,
          (handler desk.state posting.request (.ofRequest posting.request)).1⟩).toList.flatMap
          Response.encode := by
  subst spoken
  have wrote : ∀ response : Response, response.Matches posting.request →
      ∃ written, writer.pushResponse response = .ok written ∧ written.InBounds ∧
        written.buffer.size = writer.buffer.size ∧
        written.written = writer.written ++ [response].flatMap Response.encode := by
    intro response mine
    rw [List.flatMap_singleton]
    exact writer.push_response bounds mine.formed (mine.revision ▸ fits)
  unfold Desk.answer
  rw [Request.decode_message formed]
  dsimp only
  cases reacts : handler desk.state posting.request (.ofRequest posting.request) with
  | mk reaction state =>
    rw [reacts] at call
    cases reaction with
    | crashed => exact absurd rfl call.finished
    | deferred => exact ⟨writer, _, rfl, rfl, rfl, bounds, rfl, (List.append_nil _).symm⟩
    | complete status information draft =>
      have made := call.made status information draft rfl
      dsimp only
      rw [Response.completed_of_made made]
      unfold Call.response?
      dsimp only
      cases built : (draft.setStatus status information).build with
      | ok response =>
        obtain ⟨written, push, stands⟩ :=
          wrote response ((made.setStatus status information).build built)
        dsimp only
        rw [push]
        exact ⟨written, _, rfl, rfl, rfl, stands⟩
      | error fault =>
        obtain ⟨written, push, stands⟩ :=
          wrote _ (Response.matches_ofStatus posting.request .invalidDeviceRequest)
        dsimp only
        rw [Batch.Writer.pushStatus_eq, push]
        exact ⟨written, _, rfl, rfl, rfl, stands⟩

end Desk

/-! ### Turns -/

/-- A worker that has called the handler as if directly, and holds the answers of the new calls. -/
structure Sound {τ : Type} (handler : Handler τ) (state : τ) (posted : List Posting)
    (sent : List (Nat × Response)) (old new : List Call) (todo waiting : List Posting)
    (worker : Worker Session.Live τ) : Prop where
  progress : ∃ answer,
    Progress worker.channel.session.broker sent old new todo waiting answer
  posted : (old ++ new).map Call.posting ++ todo ++ waiting = posted
  served : Handler.serve handler state ((old ++ new).map Call.posting)
    = (old ++ new, worker.desk.state)
  requests : worker.desk.requests = (old ++ new).length
  outbox : worker.outbox.written = (new.filterMap Call.response?).flatMap Response.encode
  bounds : worker.outbox.InBounds
  outboxRoom : worker.revision.messageLimit ≤ worker.outbox.buffer.size
  inboxRoom : worker.revision.messageLimit ≤ worker.inbox.size
  spoken : worker.channel.session.broker.config.revision = worker.revision

namespace Sound

variable {τ : Type} {handler : Handler τ} {state : τ} {posted : List Posting}
  {sent : List (Nat × Response)} {old new : List Call} {todo waiting : List Posting}
  {worker : Worker Session.Live τ}

/-- The answers go out, and no request comes in. -/
theorem flush (sound : Sound handler state posted sent old new todo waiting worker) :
    ∃ after, worker.flush (Session.channel .standard) = (.ok (), after) ∧
      after.outbox.cursor = 0 ∧
      Sound handler state posted sent (old ++ new) [] todo waiting after := by
  obtain ⟨answer, progress⟩ := sound.progress
  obtain ⟨answer', returned⟩ := progress.ingest worker.channel.now
  rw [← sound.outbox] at returned
  refine ⟨_, rfl, rfl, ?_⟩
  refine
    { progress := ⟨answer', returned⟩
      posted := by rw [List.append_nil]; exact sound.posted
      served := by rw [List.append_nil]; exact sound.served
      requests := by rw [List.append_nil]; exact sound.requests
      outbox := rfl
      bounds := Nat.zero_le _
      outboxRoom := sound.outboxRoom
      inboxRoom := sound.inboxRoom
      spoken := ?_ }
  have continues := worker.channel.session.broker.continues_ingest .standard worker.channel.now
    worker.outbox.written
  exact (congrArg Broker.Config.revision continues.config).trans sound.spoken

/-- Before a request is given to the handler there is room for an answer of any size. -/
theorem makeRoom (sound : Sound handler state posted sent old new todo waiting worker) :
    ∃ after returned unsent, worker.makeRoom (Session.channel .standard) = (.ok (), after) ∧
      Sound handler state posted sent returned unsent todo waiting after ∧
      after.outbox.cursor + after.revision.messageLimit ≤ after.outbox.buffer.size := by
  unfold Worker.makeRoom
  by_cases fits : worker.outbox.fits worker.revision.messageLimit = true
  · rw [if_pos fits]
    refine ⟨worker, old, new, rfl, sound, ?_⟩
    simpa [Batch.Writer.fits, Layout.fits] using fits
  · rw [if_neg fits]
    obtain ⟨after, flushed, empty, kept⟩ := sound.flush
    refine ⟨after, old ++ new, [], flushed, kept, ?_⟩
    rw [empty, Nat.zero_add]
    exact kept.outboxRoom

/-- The next request that was fetched is given to the handler. -/
theorem answer (proper : Handler.Proper handler) {posting : Posting}
    (sound : Sound handler state posted sent old new (posting :: todo) waiting worker)
    (fits : worker.outbox.cursor + worker.revision.messageLimit ≤ worker.outbox.buffer.size) :
    ∃ after reaction,
      worker.answer handler ⟨.request, posting.request.message⟩ = (.ok (), after) ∧
      Sound handler state posted sent old (new ++ [⟨posting, reaction⟩]) todo waiting after := by
  obtain ⟨answer, progress⟩ := sound.progress
  have admitted : worker.channel.session.broker.Admitted posting :=
    progress.flow.admitted posting (by simp)
  obtain ⟨written, desk, answered, state', requests, within, size, longer⟩ :=
    Desk.answer_spec (proper.call worker.desk.state posting) worker.thread admitted.formed
      (admitted.spoken.trans sound.spoken) sound.bounds fits
  have called := progress.called (proper.call worker.desk.state posting)
  refine ⟨{ worker with desk, outbox := written },
    (handler worker.desk.state posting.request (.ofRequest posting.request)).1, ?_, ?_⟩
  · unfold Worker.answer
    rw [answered]
  · refine
      { progress := ⟨answer, called⟩
        posted := ?_
        served := ?_
        requests := ?_
        outbox := ?_
        bounds := within
        outboxRoom := size ▸ sound.outboxRoom
        inboxRoom := sound.inboxRoom
        spoken := sound.spoken }
    · rw [← sound.posted]
      simp
    · have direct := Handler.serve_concat sound.served posting
      rw [← List.append_assoc, List.map_append, List.map_singleton, direct, state']
    · rw [← List.append_assoc, List.length_append, ← sound.requests]
      exact requests
    · have single : ∀ call : Call, [call].filterMap Call.response? = call.response?.toList := by
        intro call
        cases sends : call.response? with
        | none => rw [List.filterMap_cons_none sends]; rfl
        | some response => rw [List.filterMap_cons_some sends]; rfl
      rw [longer, sound.outbox, List.filterMap_append, List.flatMap_append, single]

/-- All requests that were fetched are given to the handler, in order. -/
theorem answerAll (proper : Handler.Proper handler)
    (sound : Sound handler state posted sent old new todo waiting worker) :
    ∃ after returned unsent,
      Worker.answerAll (Session.channel .standard) handler
        (todo.map fun posting => ⟨.request, posting.request.message⟩) worker = (.ok (), after) ∧
      Sound handler state posted sent returned unsent [] waiting after ∧
      (todo = [] → unsent = new) := by
  induction todo generalizing worker old new with
  | nil => exact ⟨worker, old, new, rfl, sound, fun _ => rfl⟩
  | cons posting rest ih =>
    obtain ⟨roomy, old', new', made, kept, fits⟩ := sound.makeRoom
    obtain ⟨answered, reaction, gave, sound'⟩ := kept.answer proper fits
    obtain ⟨after, returned, unsent, done, final, -⟩ := ih sound'
    refine ⟨after, returned, unsent, ?_, final, nofun⟩
    rw [List.map_cons, Worker.answerAll, made]
    dsimp only
    rw [gave]
    exact done

/-- An exchange returns the answers, and brings a front of what was waiting. -/
theorem fetch (sound : Sound handler state posted sent old new [] waiting worker)
    (spared : (worker.channel.session.exchange .standard worker.channel.now worker.outbox.written
      worker.inbox).2.broker.Spared posted) :
    ∃ now session batch left count filled,
      (Session.channel .standard).exchange worker.channel worker.outbox.written worker.inbox
        = (.ok (count, filled), ⟨now, session⟩) ∧
      Batch.frames .request (filled.front count)
        = batch.map (fun posting => ⟨.request, posting.request.message⟩) ∧
      Sound handler state posted sent (old ++ new) [] batch left { worker with
        channel := ⟨now, session⟩
        inbox := filled
        outbox := { worker.outbox with cursor := 0 } } ∧
      batch ++ left = waiting ∧ (waiting ≠ [] → batch ≠ []) := by
  obtain ⟨answer, progress⟩ := sound.progress
  obtain ⟨answer', returned⟩ := progress.ingest worker.channel.now
  have continues := worker.channel.session.broker.continues_ingest .standard worker.channel.now
    worker.outbox.written
  rw [← sound.outbox] at returned
  generalize ingestion : (worker.channel.session.broker.ingest .standard worker.channel.now
    worker.outbox.written).2 = broker at returned continues
  have postings : (old ++ new ++ []).map Call.posting ++ [] ++ waiting = posted := by
    rw [List.append_nil (old ++ new)]
    exact sound.posted
  have spoken : broker.config.revision = worker.revision :=
    (congrArg Broker.Config.revision continues.config).trans sound.spoken
  have admitted := returned.flow.admitted_pending
  have formed : ∀ op ∈ broker.queue.pending, op.request.WellFormed :=
    fun op member => (admitted op member).formed
  have small : ∀ op ∈ broker.queue.pending, op.size ≤ worker.inbox.size := by
    intro op member
    have short := Operation.size_le ((admitted op member).spoken.trans spoken) (formed op member)
    exact Nat.le_trans short sound.inboxRoom
  obtain ⟨batch, rest, count, filled, result, delivered⟩ := Session.exchange_spec ingestion
    returned.flow.serving returned.flow.ordered formed small (spoken ▸ sound.inboxRoom)
    (fun op held => spared.expired op.posting (postings ▸ returned.flow.held op held))
  have fetched := returned.fetched delivered.toFetched (postings ▸ spared)
  have cut := returned.flow.cut delivered.pending
  refine ⟨_, _, batch.map Operation.posting, rest.map Operation.posting, count, filled,
    Prod.ext result rfl, ?_, ?_, cut, ?_⟩
  · rw [delivered.frames formed, List.map_map]
    rfl
  · refine
      { progress := ⟨answer', fetched⟩
        posted := ?_
        served := by rw [List.append_nil]; exact sound.served
        requests := by rw [List.append_nil]; exact sound.requests
        outbox := rfl
        bounds := Nat.zero_le _
        outboxRoom := sound.outboxRoom
        inboxRoom := delivered.size ▸ sound.inboxRoom
        spoken := (congrArg Broker.Config.revision delivered.config).trans spoken }
    rw [List.append_assoc, cut]
    simpa using postings
  · intro some'
    have pending : broker.queue.pending ≠ [] := by
      intro nothing
      rw [← returned.flow.pending, nothing] at some'
      exact some' rfl
    have batch' := delivered.progress pending
    simpa using batch'

/-- A turn returns the answers of the turn before, and calls the handler for a front of what was
waiting. -/
theorem turn (proper : Handler.Proper handler)
    (sound : Sound handler state posted sent old new [] waiting worker)
    (spared : (worker.turn (Session.channel .standard) handler).2.channel.session.broker.Spared
      posted) :
    ∃ after returned unsent left,
      worker.turn (Session.channel .standard) handler = (.ok true, after) ∧
      Sound handler state posted sent returned unsent [] left after ∧
      (waiting = [] → unsent = [] ∧ left = []) ∧
      (waiting ≠ [] → left.length < waiting.length) := by
  have later := (Session.sweepInvariant_continues .standard
    (worker.channel.session.exchange .standard worker.channel.now worker.outbox.written
      worker.inbox).2.broker).keeps.turn_of_exchange handler (.refl _)
  obtain ⟨now, session, batch, left, count, filled, exchanged, framed, fetched, cut, progress⟩ :=
    sound.fetch (spared.before later)
  obtain ⟨after, returned, unsent, answered, final, kept⟩ := fetched.answerAll proper
  refine ⟨after, returned, unsent, left, ?_, final, ?_, ?_⟩
  · unfold Worker.turn
    rw [exchanged]
    dsimp only
    rw [framed, answered]
  · intro nothing
    rw [nothing, List.append_eq_nil_iff] at cut
    exact ⟨kept cut.1, cut.2⟩
  · intro some'
    have length := congrArg List.length cut
    have filled := List.length_pos_iff.2 (progress some')
    rw [List.length_append] at length
    omega

/-- More turns than there are waiting requests leave nothing to fetch, and no answer unsent; and so
it stays. -/
theorem run (proper : Handler.Proper handler) {fuel : Nat}
    (sound : Sound handler state posted sent old new [] waiting worker)
    (spared : (worker.run (Session.channel .standard) handler fuel).2.channel.session.broker.Spared
      posted) :
    ∃ after returned unsent left,
      worker.run (Session.channel .standard) handler fuel = (none, after) ∧
      Sound handler state posted sent returned unsent [] left after ∧
      (waiting.length < fuel ∨ new = [] ∧ waiting = [] → unsent = [] ∧ left = []) := by
  induction fuel generalizing worker old new waiting with
  | zero =>
    refine ⟨worker, old, new, waiting, rfl, sound, fun idle => ?_⟩
    exact idle.resolve_left (Nat.not_lt_zero _)
  | succ fuel ih =>
    have later := (Session.sweepInvariant_continues .standard
      (worker.turn (Session.channel .standard) handler).2.channel.session.broker).keeps.run_of_turn
      handler fuel (.refl _)
    obtain ⟨middle, old', new', left', turned, sound', done, fewer⟩ :=
      sound.turn proper (spared.before later)
    unfold Worker.run at spared ⊢
    rw [turned] at spared ⊢
    obtain ⟨after, returned, unsent, left, ran, final, finished⟩ := ih sound' spared
    refine ⟨after, returned, unsent, left, ran, final, fun enough => finished ?_⟩
    by_cases nothing : waiting = []
    · exact .inr (done nothing)
    · have length := fewer nothing
      rcases enough with short | ⟨-, none'⟩
      · exact .inl (by omega)
      · exact absurd none' nothing

/-- The response to a deferred request goes out at once. -/
theorem sendResponse (sound : Sound handler state posted sent old new todo waiting worker)
    {call : Call} (called : call ∈ old ++ new) (deferred : call.reaction = .deferred)
    (open' : sent.lookup call.ticket = none) {response : Response}
    (mine : response.Matches call.posting.request) :
    ∃ after, worker.sendResponse (Session.channel .standard) response = (.ok (), after) ∧
      Sound handler state posted (sent ++ [(call.ticket, response)]) old new todo waiting
        after := by
  obtain ⟨answer, progress⟩ := sound.progress
  have replied := progress.reply called deferred open' mine worker.channel.now
  have short : response.message.length ≤ response.revision.messageLimit := by
    rw [response.length_message]
    exact mine.formed.1
  have room : (Batch.Writer.ofBuffer (.filled (Layout.alignUp response.encodedSize) 0)).cursor
      + Layout.alignUp response.message.length
      ≤ (Batch.Writer.ofBuffer (.filled (Layout.alignUp response.encodedSize) 0)).buffer.size := by
    rw [response.length_message]
    exact Nat.le_of_eq (Nat.zero_add _)
  obtain ⟨writer, push⟩ := Batch.Writer.push_ok short room
  obtain ⟨written, -, -, -⟩ := Batch.Writer.push_eq_ok (Nat.zero_le _) push
  have ingested : (worker.channel.session.broker.ingest .standard worker.channel.now
      writer.written).2 = (worker.channel.session.broker.receive .standard worker.channel.now
        ⟨.response, response.message⟩).2 := by
    rw [written]
    exact Broker.ingest_encode .standard worker.channel.now mine.formed
  rw [← ingested] at replied
  refine ⟨{ worker with
    channel := ⟨worker.channel.now,
      (worker.channel.session.exchange .standard worker.channel.now writer.written .empty).2⟩
    desk := { worker.desk with responses := worker.desk.responses + 1 } }, ?_, ?_⟩
  · unfold Worker.sendResponse Batch.Writer.pushResponse
    dsimp only
    rw [push]
    rfl
  · have continues := worker.channel.session.broker.continues_ingest .standard
      worker.channel.now writer.written
    exact
      { progress := ⟨_, replied⟩
        posted := sound.posted
        served := sound.served
        requests := sound.requests
        outbox := sound.outbox
        bounds := sound.bounds
        outboxRoom := sound.outboxRoom
        inboxRoom := sound.inboxRoom
        spoken := (congrArg Broker.Config.revision continues.config).trans sound.spoken }

end Sound
end FileBroker
