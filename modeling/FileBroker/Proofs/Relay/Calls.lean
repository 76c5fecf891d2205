import FileBroker.Proofs.Session.Single
import FileBroker.Proofs.Volume.Files
import FileBroker.Proofs.Worker.Turn
import FileBroker.Relay.Basic

/-!
A relay with one caller. Between two calls it is at rest, however it was used before, unless a
request made the volume fault. A call comes to what a step of the volume comes to.
-/
namespace FileBroker

/-- A handler that crashes on a request leaves it without an answer. -/
theorem Desk.answer_of_crashed {τ : Type} {handler : Handler τ} {desk : Desk τ}
    {request : Request} (formed : request.WellFormed)
    (crashes : (handler desk.state request (.ofRequest request)).1 = .crashed) (thread : String)
    (writer : Batch.Writer) :
    ∃ after, desk.answer handler request.revision thread writer ⟨.request, request.message⟩
      = (.error (.crashed thread), after) := by
  unfold Desk.answer
  rw [Request.decode_message formed]
  dsimp only
  rcases reacts : handler desk.state request (.ofRequest request) with ⟨reaction, state⟩
  rw [reacts] at crashes
  dsimp only at crashes
  rw [crashes]
  exact ⟨_, rfl⟩

namespace Worker

/-- Everything was sent, and there is room for the longest message either way. -/
structure Ready {τ : Type} (worker : Worker Session.Live τ) : Prop where
  sent : worker.outbox.cursor = 0
  outboxRoom : worker.revision.messageLimit ≤ worker.outbox.buffer.size
  inboxRoom : worker.revision.messageLimit ≤ worker.inbox.size
  spoken : worker.channel.session.broker.config.revision = worker.revision

namespace Ready

variable {τ : Type} {worker : Worker Session.Live τ} {handler : Handler τ} {op : Operation}

theorem written (ready : worker.Ready) : worker.outbox.written = [] := by
  unfold Batch.Writer.written Buffer.front
  rw [ready.sent, List.take_zero]

/-- The worker fetches the one pending operation and gives it to its handler. -/
theorem turn_eq (ready : worker.Ready)
    (attends : worker.channel.session.broker.Attends op [op] []) :
    ∃ fetched : Worker Session.Live τ,
      fetched.Ready ∧ fetched.desk = worker.desk ∧ fetched.revision = worker.revision ∧
      fetched.channel.session.broker.Attends op [] [op] ∧
      ∀ result answered,
        fetched.answer handler ⟨.request, op.request.message⟩ = (result, answered) →
        worker.turn (Session.channel .standard) handler
          = (result.map fun _ => true, answered) := by
  obtain ⟨count, filled, session, exchanged, framed, size, attends', config⟩ :=
    Session.exchange_single .standard attends (ready.spoken ▸ ready.inboxRoom)
      worker.channel.now
  have fetches : (Session.channel .standard).exchange worker.channel worker.outbox.written
      worker.inbox = (.ok (count, filled), ⟨worker.channel.now, session⟩) := by
    unfold Session.channel
    dsimp only
    rw [ready.written, exchanged]
  obtain ⟨fetched, same⟩ : ∃ fetched : Worker Session.Live τ, fetched = { worker with
    channel := ⟨worker.channel.now, session⟩
    inbox := filled
    outbox := { worker.outbox with cursor := 0 } } := ⟨_, rfl⟩
  have fetched_ready : fetched.Ready := by
    rw [same]
    exact
      { sent := rfl
        outboxRoom := ready.outboxRoom
        inboxRoom := size ▸ ready.inboxRoom
        spoken := (congrArg Broker.Config.revision config).trans ready.spoken }
  refine ⟨fetched, fetched_ready, by rw [same], by rw [same], by rw [same]; exact attends', ?_⟩
  have roomy : fetched.makeRoom (Session.channel .standard) = (.ok (), fetched) := by
    unfold makeRoom
    rw [if_pos]
    simpa [Batch.Writer.fits, Layout.fits, fetched_ready.sent] using fetched_ready.outboxRoom
  intro result answered gave
  have single : answerAll (Session.channel .standard) handler [⟨.request, op.request.message⟩]
      fetched = (result, answered) := by
    unfold answerAll
    rw [roomy]
    dsimp only
    rw [gave]
    cases result <;> rfl
  rw [same] at single
  unfold turn
  rw [fetches]
  dsimp only
  rw [framed, single]
  cases result <;> rfl

/-- A request that makes the handler crash ends the worker. -/
theorem turn_of_crashed (ready : worker.Ready)
    (attends : worker.channel.session.broker.Attends op [op] [])
    (crashes : (handler worker.desk.state op.request (.ofRequest op.request)).1 = .crashed) :
    ∃ error after, worker.turn (Session.channel .standard) handler = (.error error, after) := by
  obtain ⟨fetched, ready', desk, -, attends', turned⟩ := ready.turn_eq attends
  rw [← desk] at crashes
  obtain ⟨after, gave⟩ := Desk.answer_of_crashed attends'.formed crashes fetched.thread
    fetched.outbox
  rw [attends'.spoken.trans ready'.spoken] at gave
  refine ⟨_, _, turned (.error (.crashed fetched.thread)) { fetched with desk := after } ?_⟩
  unfold answer
  rw [gave]

/-- What the handler answers goes out with the next exchange, and settles the operation. -/
theorem serve_of_completed (ready : worker.Ready)
    (attends : worker.channel.session.broker.Attends op [op] []) {call : Call}
    (called : call = ⟨op.posting,
      (handler worker.desk.state op.posting.request (.ofRequest op.posting.request)).1⟩)
    (proper : call.Proper) {response : Response} (sends : call.response? = some response) :
    ∃ answered after,
      worker.turn (Session.channel .standard) handler = (.ok true, answered) ∧
      answered.flush (Session.channel .standard) = (.ok (), after) ∧
      after.Ready ∧ after.revision = worker.revision ∧
      after.desk.state = (handler worker.desk.state op.request (.ofRequest op.request)).2 ∧
      after.channel.session.broker.AtRest ∧
      after.channel.session.broker.queue.outcome? op.ticket
        = some (response.judge op.request) := by
  obtain ⟨fetched, ready', desk, revision, attends', turned⟩ := ready.turn_eq attends
  rw [← desk] at called
  subst called
  obtain ⟨written, after, answered, state, -, -, size, longer⟩ :=
    Desk.answer_spec proper fetched.thread attends'.formed
      (attends'.spoken.trans ready'.spoken)
      (show fetched.outbox.cursor ≤ _ by rw [ready'.sent]; exact Nat.zero_le _)
      (by rw [ready'.sent, Nat.zero_add]; exact ready'.outboxRoom)
  rw [ready'.written, sends, List.nil_append, Option.toList_some, List.flatMap_singleton] at longer
  obtain ⟨rest, config, outcome⟩ :=
    attends'.answered (proper.mine sends) fetched.channel.now
  rw [← longer] at rest config outcome
  refine ⟨{ fetched with desk := after, outbox := written }, _, turned (.ok ()) _ ?_, rfl, ?_,
    revision, ?_, rest, outcome⟩
  · change Desk.answer _ _ _ _ _ ⟨.request, op.request.message⟩ = _ at answered
    unfold answer
    rw [answered]
  · exact
      { sent := rfl
        outboxRoom := size ▸ ready'.outboxRoom
        inboxRoom := ready'.inboxRoom
        spoken := (congrArg Broker.Config.revision config).trans ready'.spoken }
  · rw [← desk]
    exact state

end Ready
end Worker

namespace Relay

variable {relay : Relay} {request : Request} {ticks : UInt64}

/-- The worker is at work and has nothing left to do. -/
structure AtRest (relay : Relay) : Prop where
  running : relay.ended = none
  worker : relay.worker.Ready
  broker : relay.session.broker.AtRest

theorem atRest_start {config : Broker.Config} (admits : 0 < config.capacity) (name : String)
    (now : Instant) (volume : Volume) (thread : String) :
    (start (.start name config now) volume thread).AtRest where
  running := rfl
  worker :=
    { sent := rfl
      outboxRoom := config.mode.messageLimit_le_bufferSize config.revision
      inboxRoom := config.mode.messageLimit_le_bufferSize config.revision
      spoken := rfl }
  broker := Broker.atRest_new admits

/-- A request as the volume gets to see it, under the hint that it is posted under. -/
def received (relay : Relay) (request : Request) : Request :=
  request.withHint ⟨UInt64.ofNat relay.session.broker.nextHint⟩

theorem AtRest.spoken (rest : relay.AtRest) :
    relay.session.broker.config.revision = relay.worker.revision :=
  rest.worker.spoken

/-- A request of another revision than the session speaks gets nowhere. -/
theorem AtRest.call_of_ne (rest : relay.AtRest) (ticks : UInt64) (request : Request)
    (other : request.revision ≠ relay.worker.revision) :
    relay.call ticks request
      = (.error (Broker.foreign request.revision relay.worker.revision), relay) := by
  rw [← rest.spoken] at other ⊢
  unfold call Session.post
  rw [Broker.post_of_ne other]
  rfl

/-- A relay at rest takes every request of its revision, for its worker to fetch. -/
theorem AtRest.post (rest : relay.AtRest) (formed : request.WellFormed)
    (spoken : request.revision = relay.worker.revision) :
    ∃ op session,
      relay.session.post relay.now request
        = (.ok (.new relay.session.broker.nextHint
            ⟨UInt64.ofNat relay.session.broker.nextHint⟩), session) ∧
      op.ticket = relay.session.broker.nextHint ∧ op.request = relay.received request ∧
      session.broker.Attends op [op] [] ∧
      (relay.withSession relay.now session).worker.Ready := by
  obtain ⟨op, broker, posted, ticket, opened, attends, config⟩ :=
    rest.broker.post formed (spoken.trans rest.spoken.symm) relay.now
  refine ⟨op, { relay.session with broker }, ?_, ticket, opened, attends, ?_⟩
  · unfold Session.post
    rw [posted]
  · exact
      { sent := rest.worker.sent
        outboxRoom := rest.worker.outboxRoom
        inboxRoom := rest.worker.inboxRoom
        spoken := (congrArg Broker.Config.revision config).trans rest.spoken }

/-- A request that makes the volume fault ends the worker. -/
theorem AtRest.call_of_crashed (rest : relay.AtRest) (formed : request.WellFormed)
    (spoken : request.revision = relay.worker.revision)
    (crashes : (Volume.handle ticks relay.volume (relay.received request)
      (.ofRequest (relay.received request))).1 = .crashed) :
    (relay.call ticks request).2.ended ≠ none := by
  obtain ⟨op, session, posted, -, opened, attends, ready⟩ := rest.post formed spoken
  rw [← opened] at crashes
  obtain ⟨error, after, turned⟩ := ready.turn_of_crashed attends crashes
  have served : (relay.withSession relay.now session).serve ticks
      = ⟨after, some (.error error)⟩ := by
    unfold serve
    rw [if_neg (by simp [withSession, rest.running])]
    dsimp only
    rw [turned]
  unfold call
  rw [posted]
  dsimp only
  rw [served]
  exact Option.some_ne_none _

/-- A request that the volume answers has the outcome that the response stands for. -/
theorem AtRest.call_of_completed (rest : relay.AtRest) (formed : request.WellFormed)
    (spoken : request.revision = relay.worker.revision) {status : Status} {information : UInt64}
    {draft : Response.Draft}
    (completes : (Volume.handle ticks relay.volume (relay.received request)
      (.ofRequest (relay.received request))).1 = .complete status information draft)
    (made : draft.MadeFor (relay.received request)) :
    ∃ response hint after,
      Call.response? ⟨⟨relay.session.broker.nextHint, relay.received request⟩,
        .complete status information draft⟩ = some response ∧
      relay.call ticks request = (.ok (hint, response.judge (relay.received request)), after) ∧
      after.AtRest ∧ after.worker.revision = relay.worker.revision ∧
      after.volume = (Volume.handle ticks relay.volume (relay.received request)
        (.ofRequest (relay.received request))).2 := by
  obtain ⟨op, session, posted, ticket, opened, attends, ready⟩ := rest.post formed spoken
  rw [← opened] at completes made
  have proper : Call.Proper ⟨op.posting, .complete status information draft⟩ :=
    ⟨nofun, fun _ _ _ same => by cases same; exact made⟩
  obtain ⟨response, sends⟩ : ∃ response,
      Call.response? ⟨op.posting, .complete status information draft⟩ = some response := by
    unfold Call.response?
    dsimp only
    split <;> exact ⟨_, rfl⟩
  obtain ⟨answered, after, turned, flushed, ready', revision, state, rest', outcome⟩ :=
    ready.serve_of_completed attends (congrArg (Call.mk op.posting) completes.symm) proper sends
  have served : (relay.withSession relay.now session).serve ticks = ⟨after, none⟩ := by
    unfold serve
    rw [if_neg (by simp [withSession, rest.running])]
    dsimp only
    rw [turned]
    dsimp only
    rw [flushed]
  unfold Operation.posting at sends
  rw [ticket, opened] at outcome sends
  rw [opened] at state
  let ended : Relay := ⟨after, none⟩
  have waits : ended.session.await .standard ended.now relay.session.broker.nextHint none
      = (ended.now, ended.session) := Session.await_of_outcome outcome _ _
  refine ⟨response, ⟨UInt64.ofNat relay.session.broker.nextHint⟩, ended, sends, ?_,
    ⟨rfl, ready', rest'⟩, revision, state⟩
  unfold Relay.call
  rw [posted]
  dsimp only [Reply.new]
  rw [served, waits]
  change (Except.ok (_, (after.channel.session.broker.queue.outcome? _).getD _), _) = _
  rw [outcome]
  rfl

/-- A relay at rest never refuses a request for want of capacity. -/
theorem AtRest.call_ne_full (rest : relay.AtRest) (formed : request.WellFormed) (ticks : UInt64) :
    (relay.call ticks request).1 ≠ .error .queueFull := by
  by_cases spoken : request.revision = relay.worker.revision
  · obtain ⟨op, session, posted, -⟩ := rest.post formed spoken
    unfold call
    rw [posted]
    exact nofun
  · rw [rest.call_of_ne ticks request spoken]
    exact nofun

/-! ### The volume behind a relay -/

/-- A request that the volume grants is granted to the caller. -/
theorem AtRest.call_of_grants (rest : relay.AtRest) (lawful : relay.volume.Lawful)
    (formed : request.WellFormed) (spoken : request.revision = relay.worker.revision)
    {response : Response} {volume : Volume}
    (grants : relay.volume.Grants ticks (relay.received request) response volume) :
    ∃ hint after,
      relay.call ticks request = (.ok (hint, .ok response), after) ∧
      after.AtRest ∧ after.worker.revision = relay.worker.revision ∧ after.volume = volume := by
  obtain ⟨information, draft, stepped, built⟩ := grants.step
  have reacts : Volume.handle ticks relay.volume (relay.received request)
      (.ofRequest (relay.received request)) = (.complete .success information draft, volume) := by
    unfold Volume.handle
    rw [stepped]
  have made := (Volume.keeps_step lawful .start ticks _ _ stepped).made information draft rfl
  obtain ⟨response', hint, after, sends, called, rest', revision, same⟩ :=
    rest.call_of_completed formed spoken (congrArg Prod.fst reacts) made
  obtain rfl : response = response' := by
    unfold Call.response? at sends
    dsimp only at sends
    rw [built] at sends
    exact Option.some.inj sends
  have judged : response.judge (relay.received request) = .ok response := by
    obtain ⟨-, whole⟩ := Response.Draft.build_eq_ok.1 built
    unfold Response.judge
    rw [grants.valid, whole]
    rfl
  rw [judged] at called
  rw [reacts] at same
  exact ⟨hint, after, called, rest', revision, same⟩

/-! ### Relays that were used before -/

/-- Time passes between two calls, and the session sweeps as often as it falls due. -/
def pause (relay : Relay) (span : Span) : Relay :=
  let now := relay.now + span
  relay.withSession now (relay.session.catchUp .standard now)

/-- Everything that can come of a relay, as long as nobody stops it. -/
inductive Reached (start : Relay) : Relay → Prop where
  | start : Reached start start
  | call {relay : Relay} (reached : Reached start relay) (ticks : UInt64) (request : Request)
      (formed : request.WellFormed) : Reached start (relay.call ticks request).2
  | pause {relay : Relay} (reached : Reached start relay) (span : Span) :
      Reached start (relay.pause span)

/-- A worker that has ended stays so. -/
theorem ended_call (ended : relay.ended ≠ none) (ticks : UInt64) (request : Request) :
    (relay.call ticks request).2.ended ≠ none := by
  unfold call
  split
  · exact ended
  · next reply session _ =>
    have still : ∀ session, ((relay.withSession relay.now session).serve ticks).ended ≠ none := by
      intro session
      have past : (relay.withSession relay.now session).ended.isSome = true :=
        Option.isSome_iff_ne_none.2 ended
      unfold serve
      rw [if_pos past]
      exact ended
    exact still session

/-- Nobody is waiting, so time passes without effect. -/
theorem AtRest.pause (rest : relay.AtRest) (span : Span) : (relay.pause span).AtRest := by
  have nobody : ∀ op ∈ relay.session.broker.queue.all, False := by
    unfold Queue.all
    rw [rest.broker.pending, rest.broker.inFlight, rest.broker.serving.unparked]
    exact fun op member => absurd member List.not_mem_nil
  have same : (relay.pause span).session.broker = relay.session.broker :=
    Session.catchUp_of_spared rest.broker.serving fun op held => (nobody op held).elim
  exact
    { running := rest.running
      worker :=
        { sent := rest.worker.sent
          outboxRoom := rest.worker.outboxRoom
          inboxRoom := rest.worker.inboxRoom
          spoken := (congrArg (fun broker => broker.config.revision) same).trans rest.spoken }
      broker := by rw [same]; exact rest.broker }

/-- A call leaves the relay at rest and its volume lawful, or it ends the worker. -/
theorem AtRest.call (rest : relay.AtRest) (lawful : relay.volume.Lawful)
    (formed : request.WellFormed) (running : (relay.call ticks request).2.ended = none) :
    (relay.call ticks request).2.AtRest ∧ (relay.call ticks request).2.volume.Lawful ∧
      (relay.call ticks request).2.worker.revision = relay.worker.revision := by
  by_cases spoken : request.revision = relay.worker.revision
  · obtain ⟨lawful', reacts⟩ := Volume.handle_spec lawful ticks (relay.received request)
    rcases reacts with crashes | ⟨status, information, draft, completes, made⟩
    · exact absurd running (rest.call_of_crashed formed spoken crashes)
    · obtain ⟨response, hint, after, -, called, rest', revision, volume⟩ :=
        rest.call_of_completed formed spoken completes made
      rw [called]
      exact ⟨rest', volume ▸ lawful', revision⟩
  · rw [rest.call_of_ne ticks request spoken]
    exact ⟨rest, lawful, rfl⟩

/-- However a relay was used, it is at rest between calls while its worker runs. -/
theorem atRest_of_reached {config : Broker.Config} (admits : 0 < config.capacity) {name : String}
    {now : Instant} {volume : Volume} (lawful : volume.Lawful) {thread : String}
    (reached : Reached (start (.start name config now) volume thread) relay)
    (running : relay.ended = none) :
    relay.AtRest ∧ relay.volume.Lawful ∧ relay.worker.revision = config.revision := by
  induction reached with
  | start => exact ⟨atRest_start admits name now volume thread, lawful, rfl⟩
  | @call earlier reached ticks request formed ih =>
    have before : earlier.ended = none := by
      by_contra ended
      exact ended_call ended ticks request running
    obtain ⟨rest, lawful', revision⟩ := ih before
    obtain ⟨rest', lawful'', revision'⟩ := rest.call lawful' formed running
    exact ⟨rest', lawful'', revision'.trans revision⟩
  | @pause earlier reached span ih =>
    obtain ⟨rest, lawful', revision⟩ := ih running
    exact ⟨rest.pause span, lawful', revision⟩

/-- Callers who take turns are never refused for want of capacity, so that none of them has to ask
twice. -/
theorem call_ne_full_of_reached {config : Broker.Config} (admits : 0 < config.capacity)
    {name : String} {now : Instant} {volume : Volume} (lawful : volume.Lawful) {thread : String}
    (reached : Reached (start (.start name config now) volume thread) relay)
    (running : relay.ended = none) (formed : request.WellFormed) (ticks : UInt64) :
    (relay.call ticks request).1 ≠ .error .queueFull :=
  (atRest_of_reached admits lawful reached running).1.call_ne_full formed ticks

end Relay
end FileBroker
