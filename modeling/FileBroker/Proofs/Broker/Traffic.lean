import FileBroker.Proofs.Broker.Packing
import FileBroker.Proofs.Broker.Reordering

/-!
What passes between a broker and its workers, as the broker counts it. Requests are counted while
they are written, and responses while they are taken in; nothing else that a broker does is counted
as either. What is counted is what the worker finds in its buffer, and what it brought along.
-/
namespace FileBroker

theorem Broker.Counters.dispatched_addOutcome (counters : Counters) (outcome : Outcome) :
    (counters.addOutcome outcome).dispatched = counters.dispatched := by
  unfold addOutcome
  split <;> rfl

namespace Broker

/-- Between two states so many requests were handed out, and so many responses found nobody. -/
structure Traffic (handed stale : Nat) (before after : Broker) : Prop where
  dispatched : after.counters.dispatched = before.counters.dispatched + handed
  staleResponses : after.counters.staleResponses = before.counters.staleResponses + stale

namespace Traffic

variable {before middle after : Broker} {handed handed' stale stale' : Nat}

theorem refl (broker : Broker) : Traffic 0 0 broker broker := ⟨rfl, rfl⟩

theorem trans (first : Traffic handed stale before middle)
    (second : Traffic handed' stale' middle after) :
    Traffic (handed + handed') (stale + stale') before after where
  dispatched := by rw [second.dispatched, first.dispatched, Nat.add_assoc]
  staleResponses := by rw [second.staleResponses, first.staleResponses, Nat.add_assoc]

/-- What else changes does not matter. -/
theorem of_counters (traffic : Traffic handed stale before middle)
    (same : after.counters = middle.counters) : Traffic handed stale before after where
  dispatched := same ▸ traffic.dispatched
  staleResponses := same ▸ traffic.staleResponses

end Traffic

/-! ### What is not counted -/

section Quiet

variable (broker : Broker) (routine : Routine)

theorem quiet_settle (op : Operation) (outcome : Outcome) :
    Traffic 0 0 broker (broker.settle op outcome) :=
  ⟨Counters.dispatched_addOutcome _ outcome, Counters.staleResponses_addOutcome _ outcome⟩

theorem quiet_apply (clock : Instant) (op : Operation) (response : Response) :
    Traffic 0 0 broker (broker.apply routine clock op response) := by
  have noted : Traffic 0 0 broker
      { broker with attempts := ⟨op.request, response⟩ :: broker.attempts } := ⟨rfl, rfl⟩
  unfold apply
  dsimp only
  split
  · exact noted.trans (quiet_settle _ op _)
  · split
    · exact noted.trans (quiet_settle _ op _)
    · exact ⟨rfl, rfl⟩

theorem quiet_resume (queue : Queue) (clock : Instant) (op : Operation) :
    Traffic 0 0 broker (({ broker with queue } : Broker).resume routine clock op) := by
  have taken : Traffic 0 0 broker { broker with queue } := ⟨rfl, rfl⟩
  unfold resume
  split
  · exact taken.trans (quiet_apply _ routine clock _ _)
  · exact taken.trans (quiet_settle _ _ _)

theorem quiet_resumeDue (now : Instant) : Traffic 0 0 broker (broker.resumeDue routine now).2 :=
  processRetries_induction
    (fun middle op queue quiet _ => quiet.trans (quiet_resume middle routine queue _ op))
    (.refl broker)

theorem quiet_sweep (now : Instant) : Traffic 0 0 broker (broker.sweep routine now) := by
  have expired : Traffic 0 0 broker (broker.removeExpired now).2 := ⟨rfl, rfl⟩
  exact expired.trans (quiet_resumeDue _ routine now)

theorem quiet_post (now : Instant) (request : Request) :
    Traffic 0 0 broker (broker.post now request).2 := by
  rcases post_cases broker now request with ⟨-, _, same⟩ | ⟨-, _, same⟩ | ⟨-, same⟩ <;> rw [same]
  · exact .refl broker
  · exact ⟨rfl, rfl⟩
  · exact ⟨rfl, rfl⟩

end Quiet

/-! ### Responses -/

section Responses

variable {broker : Broker} {routine : Routine} {clock : Instant}

/-- A response finds its operation in flight, or is counted as stale. -/
theorem traffic_receive (broker : Broker) (routine : Routine) (clock : Instant) (frame : Frame) :
    ∃ stale, stale + (broker.receive routine clock frame).1.toNat = 1 ∧
      Traffic 0 stale broker (broker.receive routine clock frame).2 := by
  unfold receive
  rcases Queue.land_cases broker.queue frame.hint with ⟨absent, -⟩ | ⟨op, -, -, -, present⟩
  · rw [absent]
    exact ⟨1, rfl, rfl, rfl⟩
  · rw [present]
    have landed : Traffic 0 0 broker { broker with queue := { broker.queue with
        inFlight := broker.queue.inFlight.filter fun other => other.hint != frame.hint } } :=
      ⟨rfl, rfl⟩
    refine ⟨0, rfl, ?_⟩
    dsimp only
    split
    · exact landed.trans (quiet_settle _ op _)
    · split
      · exact landed.trans (quiet_settle _ op _)
      · exact landed.trans (quiet_apply _ routine clock op _)

theorem traffic_receiveAll (broker : Broker) (routine : Routine) (clock : Instant)
    (frames : List Frame) :
    ∃ stale, stale + (broker.receiveAll routine clock frames).1 = frames.length ∧
      Traffic 0 stale broker (broker.receiveAll routine clock frames).2 := by
  induction frames generalizing broker with
  | nil => exact ⟨0, rfl, .refl broker⟩
  | cons frame rest ih =>
    obtain ⟨stale, one, first⟩ := traffic_receive broker routine clock frame
    obtain ⟨stale', others, later⟩ := ih (broker.receive routine clock frame).2
    rw [receiveAll_cons]
    refine ⟨stale + stale', ?_, first.trans later⟩
    rw [List.length_cons]
    omega

/-- Every response that a worker brings along takes an operation out of flight or is stale. -/
theorem traffic_beginExchange (distinct : broker.queue.Distinct) (routine : Routine)
    (now : Instant) (responses : Bytes) (room : Nat) :
    ∃ stale, stale + (broker.landedBy (Batch.frames .response responses)).length
        = Batch.count .response responses ∧
      Traffic 0 stale broker (broker.beginExchange routine now responses room).2 := by
  obtain ⟨stale, all, ingested⟩ :=
    traffic_receiveAll broker routine now (Batch.frames .response responses)
  rw [matched_eq distinct, Batch.length_frames] at all
  refine ⟨stale, all, ?_⟩
  unfold beginExchange
  dsimp only
  split
  · exact ingested
  · split <;> exact ingested.trans (quiet_resumeDue _ routine now)

end Responses

/-! ### Requests -/

/-- Whoever may be handed out has a request that fits the wire. -/
def Formed (broker : Broker) : Prop :=
  ∀ op, op ∈ broker.queue.pending ∨ op ∈ broker.queue.inFlight → op.request.WellFormed

theorem formed_new (config : Config) : (new config).Formed :=
  fun _ held => held.elim (absurd · List.not_mem_nil) (absurd · List.not_mem_nil)

section Requests

variable {broker after : Broker} {routine : Routine}

theorem Formed.shrink (formed : broker.Formed)
    (kept : ∀ op, op ∈ after.queue.pending ∨ op ∈ after.queue.inFlight →
      op ∈ broker.queue.pending ∨ op ∈ broker.queue.inFlight) : after.Formed :=
  fun op held => formed op (kept op held)

theorem loopInvariant_formed (routine : Routine) : LoopInvariant routine Formed where
  receive broker clock frame formed := by
    refine formed.shrink fun op held => ?_
    rw [(sameLine_receive broker routine clock frame).pending, inFlight_receive] at held
    exact held.imp_right List.mem_of_mem_filter
  resume broker clock now op queue formed due := by
    have unmoved : Unmoved broker (({ broker with queue } : Broker).resume routine clock op) :=
      unmoved_resume routine due
    refine formed.shrink fun other held => ?_
    rwa [unmoved.pending, unmoved.inFlight] at held
  write broker formed := formed
  handBack broker hints formed := formed.shrink fun _ => Queue.outstanding_handBack
  fetch broker older run left formed cut := formed.shrink fun _ => Queue.outstanding_fetch cut

theorem Formed.post (formed : broker.Formed) (now : Instant) {request : Request}
    (asked : request.WellFormed) : (broker.post now request).2.Formed := by
  rcases post_cases broker now request with ⟨-, _, same⟩ | ⟨-, _, same⟩ | ⟨-, same⟩ <;> rw [same]
  · exact formed
  · exact formed
  · intro op held
    simp only [List.mem_append, List.mem_singleton] at held
    rcases held with (waits | rfl) | flies
    · exact formed op (.inl waits)
    · exact Request.wellFormed_withHint asked _
    · exact formed op (.inr flies)

theorem Formed.cancel (formed : broker.Formed) (hint : Hint) : (broker.cancel hint).2.Formed := by
  rcases queue_cancel broker hint with same | ⟨op, before, rest, whole, same⟩
  · refine formed.shrink fun other held => ?_
    rwa [same] at held
  · refine formed.shrink fun other held => ?_
    rw [same] at held
    rw [whole]
    simp only [List.mem_append, List.mem_cons] at held ⊢
    tauto

theorem Formed.removeExpired (formed : broker.Formed) (now : Instant) :
    (broker.removeExpired now).2.Formed := by
  refine formed.shrink fun op held => ?_
  rw [queue_removeExpired] at held
  exact held.imp List.mem_of_mem_filter List.mem_of_mem_filter

theorem Formed.stop (formed : broker.Formed) (cancelAll : Bool) :
    (broker.stop cancelAll).2.Formed := by
  cases cancelAll with
  | false => exact formed
  | true =>
    intro op held
    rw [queue_stop_all] at held
    exact held.elim (absurd · List.not_mem_nil) (absurd · List.not_mem_nil)

/-- While a buffer is filled: what was written since the `start` is the requests `out`, each of them
counted, and no other requests wait to be written than such as fit the wire. -/
structure Writing (start : Broker) (out : List Request) (broker : Broker) (writer : Batch.Writer)
    (batch : List Operation) : Prop where
  traffic : Traffic out.length 0 start broker
  bounds : writer.InBounds
  written : writer.written = out.flatMap Request.encode
  outFormed : ∀ request ∈ out, request.WellFormed
  batchFormed : ∀ op ∈ batch, op.request.WellFormed
  formed : broker.Formed

/-- What was written is what a worker reads. -/
theorem Writing.requestsOf {start : Broker} {out : List Request} {writer : Batch.Writer}
    {batch : List Operation} (writing : Writing start out broker writer batch) :
    requestsOf (.ok (writer.cursor, writer.buffer))
      = out.map fun request => ⟨.request, request.message⟩ :=
  (congrArg (Batch.frames .request) writing.written).trans
    (Request.frames_flatMap_encode writing.outFormed)

theorem fetchInvariant_writing (start : Broker) :
    FetchInvariant fun broker writer batch => ∃ out, Writing start out broker writer batch where
  write broker writer written op rest := by
    rintro ⟨out, writing⟩ pushed
    obtain ⟨longer, -, -, within⟩ := Batch.Writer.push_eq_ok writing.bounds pushed
    have first := writing.batchFormed op (List.mem_cons_self ..)
    have counted : Traffic 1 0 broker { broker with
        counters := { broker.counters with dispatched := broker.counters.dispatched + 1 } } :=
      ⟨rfl, rfl⟩
    refine ⟨out ++ [op.request], ?_, within, ?_, ?_, ?_, writing.formed⟩
    · rw [List.length_append]
      exact writing.traffic.trans counted
    · rw [longer, writing.written, List.flatMap_append, List.flatMap_singleton]
      exact congrArg (_ ++ ·) (Layout.pad_pad _)
    · intro request member
      rcases List.mem_append.1 member with earlier | last
      · exact writing.outFormed request earlier
      · exact List.mem_singleton.1 last ▸ first
    · exact fun other member => writing.batchFormed other (List.mem_cons_of_mem _ member)
  handBack broker writer ops := by
    rintro ⟨out, writing⟩
    have back := (loopInvariant_formed .standard).handBack broker (ops.map Operation.hint)
      writing.formed
    exact ⟨out, writing.traffic.of_counters rfl, writing.bounds, writing.written,
      writing.outFormed, fun _ member => absurd member List.not_mem_nil, back⟩
  fetch broker writer older run left := by
    rintro ⟨out, writing⟩ cut
    have fetched := (loopInvariant_formed .standard).fetch broker older run left writing.formed cut
    refine ⟨out, writing.traffic.of_counters rfl, writing.bounds, writing.written,
      writing.outFormed, fun op member => writing.formed op (.inl ?_), fetched⟩
    rw [cut]
    exact List.mem_append_right _ (List.mem_append_left _ member)

/-- What a worker reads in its buffer was counted message by message; while it waits, nothing is. -/
theorem traffic_pollExchange (formed : broker.Formed) {now : Instant} {deadline : Option Instant}
    {buffer : Buffer} {polled : Wait (Except ChannelError (Nat × Buffer))}
    (result : broker.pollExchange routine now deadline buffer = (polled, after)) :
    (∃ wake, polled = .asleep wake ∧ Traffic 0 0 broker after) ∨
      ∃ returned, polled = .ready returned ∧
        Traffic (requestsOf returned).length 0 broker after := by
  have invariant := fetchInvariant_writing broker
  have start : ∃ out, Writing broker out broker (.ofBuffer buffer) [] :=
    ⟨[], .refl broker, Nat.zero_le _, rfl, fun _ member => absurd member List.not_mem_nil,
      fun _ member => absurd member List.not_mem_nil, formed⟩
  unfold pollExchange at result
  split at result
  · next wake queue asleep =>
    cases result
    exact .inl ⟨wake, rfl, rfl, rfl⟩
  · next error queue failed =>
    cases result
    exact .inr ⟨_, rfl, rfl, rfl⟩
  · next batch queue fetched =>
    have taken : ∃ out, Writing broker out { broker with queue } (.ofBuffer buffer) batch := by
      rcases invariant.dequeue (.ofBuffer buffer) start fetched with
        ⟨_, same, moved⟩ | ⟨rfl, nothing⟩
      · cases same
        exact moved
      · rw [nothing batch rfl]
        exact start
    obtain ⟨out, handed⟩ := invariant.handOver now (.ofBuffer buffer) batch taken
    dsimp only at result
    rw [Prod.mk.injEq] at result
    obtain ⟨rfl, rfl⟩ := result
    refine .inr ⟨_, rfl, ?_⟩
    rw [handed.requestsOf, List.length_map]
    split
    · exact handed.traffic.trans (quiet_resumeDue _ routine _)
    · exact handed.traffic

end Requests

end Broker
end FileBroker
