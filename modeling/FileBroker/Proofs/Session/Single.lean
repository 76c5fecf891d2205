import FileBroker.Proofs.Broker.Receive
import FileBroker.Proofs.Session.Fetch

/-!
A session with one operation at a time. It is posted to a broker at rest, fetched by itself and
answered, and the broker is at rest again. Nothing on this way takes time, so nothing expires.
-/
namespace FileBroker

namespace Broker

/-- Nothing is held, there is room for work, and no ticket that is still to come was used. -/
structure AtRest (broker : Broker) : Prop where
  serving : broker.queue.Serving
  admits : 0 < broker.queue.capacity
  pending : broker.queue.pending = []
  inFlight : broker.queue.inFlight = []
  past : ∀ delivery ∈ broker.queue.delivered, delivery.ticket < broker.nextHint

/-- One operation is held, either pending or in flight, and its caller has no outcome yet. -/
structure Attends (broker : Broker) (op : Operation) (pending inFlight : List Operation) :
    Prop where
  serving : broker.queue.Serving
  admits : 0 < broker.queue.capacity
  pending : broker.queue.pending = pending
  inFlight : broker.queue.inFlight = inFlight
  arrived : op.seq ≤ broker.queue.lastSeq
  past : ∀ delivery ∈ broker.queue.delivered, delivery.ticket < op.ticket
  ticket : op.ticket < broker.nextHint
  formed : op.request.WellFormed
  spoken : op.request.revision = broker.config.revision

variable {broker : Broker} {op : Operation}

theorem atRest_new {config : Config} (admits : 0 < config.capacity) : (new config).AtRest where
  serving := ⟨rfl, rfl⟩
  admits := admits
  pending := rfl
  inFlight := rfl
  past _ member := absurd member List.not_mem_nil

/-- Why a request is turned away by a session that speaks another revision. -/
def foreign (asked spoken : Revision) : Failure :=
  .protocolViolation s!"request encoded for {asked.label}, session speaks {spoken.label}"

/-- Requests of another revision are turned away, and nothing comes of them. -/
theorem post_of_ne {request : Request} (other : request.revision ≠ broker.config.revision)
    (now : Instant) :
    broker.post now request
      = (.error (foreign request.revision broker.config.revision), broker) := by
  unfold post
  dsimp only
  rw [if_pos other]
  rfl

/-- A broker at rest takes every request of its revision. -/
theorem AtRest.post (rest : broker.AtRest) {request : Request} (formed : request.WellFormed)
    (spoken : request.revision = broker.config.revision) (now : Instant) :
    ∃ op after,
      broker.post now request
        = (.ok (.new broker.nextHint ⟨UInt64.ofNat broker.nextHint⟩), after) ∧
      op.ticket = broker.nextHint ∧
      op.request = request.withHint ⟨UInt64.ofNat broker.nextHint⟩ ∧
      after.Attends op [op] [] ∧ after.config = broker.config := by
  rcases post_cases broker now request with ⟨foreign, -⟩ | ⟨⟨-, closed⟩, -⟩ | ⟨-, accepted⟩
  · exact absurd spoken foreign
  · have admits := rest.admits
    rw [rest.serving.running, rest.pending, List.length_nil] at closed
    rcases closed with stopped | full
    · cases stopped
    · omega
  · refine ⟨{ broker.posted now request with seq := broker.queue.lastSeq + 1 }, _, accepted, rfl,
      rfl, ?_, rfl⟩
    exact
      { serving := ⟨rest.serving.running, rest.serving.unparked⟩
        admits := rest.admits
        pending := by rw [rest.pending]; rfl
        inFlight := rest.inFlight
        arrived := Nat.le_refl _
        past := rest.past
        ticket := Nat.lt_succ_self _
        formed := Request.wellFormed_withHint formed _
        spoken := spoken }

/-- The one operation is fetched by itself. -/
theorem Attends.fetched (attends : broker.Attends op [op] []) {batch rest : List Operation}
    {after : Broker} (fetched : broker.Fetched batch rest after) (some' : batch ≠ []) :
    batch = [op] ∧ after.Attends op [] [op] := by
  have cut := fetched.pending
  rw [attends.pending] at cut
  obtain ⟨first, others, rfl⟩ := List.exists_cons_of_ne_nil some'
  rw [List.cons_append, List.cons.injEq] at cut
  obtain ⟨rfl, nothing⟩ := cut
  obtain ⟨rfl, rfl⟩ := List.append_eq_nil_iff.1 nothing.symm
  have queue : after.queue = { broker.queue with pending := [], inFlight := [op] } := by
    rw [fetched.queue]
    simp [Queue.launch, attends.inFlight, Queue.deliverAll]
  refine ⟨rfl, ?_⟩
  exact
    { serving := fetched.serving attends.serving
      admits := by rw [queue]; exact attends.admits
      pending := by rw [queue]
      inFlight := by rw [queue]
      arrived := by rw [queue]; exact attends.arrived
      past := by rw [queue]; exact attends.past
      ticket := by rw [fetched.nextHint]; exact attends.ticket
      formed := attends.formed
      spoken := by rw [fetched.config]; exact attends.spoken }

/-- A response to the one operation gives its caller an outcome. -/
theorem Attends.answered (attends : broker.Attends op [] [op]) {response : Response}
    (mine : response.Matches op.request) (now : Instant) :
    (broker.ingest .standard now response.encode).2.AtRest ∧
      (broker.ingest .standard now response.encode).2.config = broker.config ∧
      (broker.ingest .standard now response.encode).2.queue.outcome? op.ticket
        = some (response.judge op.request) := by
  have flying : op ∈ broker.queue.inFlight := by
    rw [attends.inFlight]
    exact List.mem_singleton_self _
  have distinct : broker.queue.Distinct := by
    unfold Queue.Distinct
    rw [attends.inFlight]
    exact List.nodup_singleton _
  obtain ⟨attempts, counters, received⟩ :=
    receive_standard now distinct flying mine attends.spoken
  rw [ingest_encode .standard now mine.formed, received]
  refine ⟨?_, rfl, ?_⟩
  · exact
      { serving := ⟨attends.serving.running, attends.serving.unparked⟩
        admits := attends.admits
        pending := attends.pending
        inFlight := by
          change (broker.queue.inFlight.filter _) = []
          rw [attends.inFlight]
          simp
        past := fun delivery member => by
          rcases List.mem_cons.1 member with rfl | before
          · exact attends.ticket
          · exact Nat.lt_trans (attends.past delivery before) attends.ticket }
  · simp [Queue.outcome?, Queue.deliver]

end Broker

namespace Session

variable {session : Session} {op : Operation} {routine : Routine}

/-- A worker that has nothing to return is given the one pending operation at once. -/
theorem exchange_single (routine : Routine) (attends : session.broker.Attends op [op] [])
    {buffer : Buffer} (fits : session.broker.config.revision.messageLimit ≤ buffer.size)
    (now : Instant) :
    ∃ count filled after,
      session.exchange routine now [] buffer = ((.ok (count, filled), now), after) ∧
      Batch.frames .request (filled.front count) = [⟨.request, op.request.message⟩] ∧
      filled.size = buffer.size ∧ after.broker.Attends op [] [op] ∧
      after.broker.config = session.broker.config := by
  have nothing : (session.broker.ingest routine now []).2 = session.broker := by
    unfold Broker.ingest
    rw [Batch.frames_nil]
    rfl
  have begun := @Broker.beginExchange_of_serving session.broker routine now [] buffer.size
  rw [nothing] at begun
  have only : ∀ other ∈ session.broker.queue.pending, other = op := by
    rw [attends.pending]
    exact fun other => List.mem_singleton.1
  have formed : ∀ other ∈ session.broker.queue.pending, other.request.WellFormed :=
    fun other member => only other member ▸ attends.formed
  have small : ∀ other ∈ session.broker.queue.pending, other.size ≤ buffer.size :=
    fun other member => only other member ▸
      Nat.le_trans (Operation.size_le attends.spoken attends.formed) fits
  have ordered : session.broker.queue.Ordered := by
    refine ⟨?_, fun other member => only other member ▸ attends.arrived⟩
    rw [attends.pending]
    exact List.pairwise_singleton _ _
  have pending : session.broker.queue.pending ≠ [] := by
    rw [attends.pending]
    exact List.cons_ne_nil _ _
  obtain ⟨batch, rest, count, filled, after, ready, delivered⟩ := Broker.pollExchange_some pending
    attends.serving.running ordered formed small routine now
    (session.broker.exchangeDeadline now true) 1
  obtain ⟨rfl, attends'⟩ := attends.fetched delivered.toFetched (delivered.progress pending)
  refine ⟨count, filled, { session with
    broker := after
    health := note session.health (Batch.count .response []) (.ok (count, filled)) }, ?_,
    delivered.frames formed, delivered.size, attends', delivered.config⟩
  unfold exchange roundTrip
  rw [begun attends.serving fits]
  dsimp only
  unfold fill
  rw [ready]

/-- Whoever has an outcome waits no longer. -/
theorem await_of_outcome {ticket : Nat} {outcome : Outcome}
    (has : session.broker.queue.outcome? ticket = some outcome) (now : Instant)
    (deadline : Option Instant) : session.await routine now ticket deadline = (now, session) := by
  unfold await wait waitFor
  rw [has]
  rfl

end Session
end FileBroker
