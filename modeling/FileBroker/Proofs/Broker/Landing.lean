import FileBroker.Proofs.Broker.Packing
import FileBroker.Proofs.Session.Run

/-!
Where a response lands. The first response of a batch that names an operation in flight takes it
out of flight, whatever else the batch brings in, and what it is told at that moment it is told for
good.
-/
namespace FileBroker.Broker

variable {routine : Routine} {broker : Broker} {clock : Instant} {op : Operation}

/-! ### Batches -/

theorem receiveAll_append (first second : List Frame) :
    (broker.receiveAll routine clock (first ++ second)).2
      = ((broker.receiveAll routine clock first).2.receiveAll routine clock second).2 := by
  induction first generalizing broker with
  | nil => rfl
  | cons frame rest ih => exact ih

/-- A response takes its operation out of flight, and nobody else. -/
theorem inFlight_receive (frame : Frame) :
    (broker.receive routine clock frame).2.queue.inFlight
      = broker.queue.inFlight.filter fun other => other.hint != frame.hint := by
  unfold receive
  rcases Queue.land_cases broker.queue frame.hint with ⟨absent, free⟩ | ⟨op, -, -, -, present⟩
  · rw [absent, List.filter_eq_self.2]
    intro other member
    simpa using free other member
  · rw [present]
    dsimp only
    split
    · rfl
    · split
      · rfl
      · rw [(unmoved_apply _ routine clock op _).inFlight]

/-- Who is in flight after a batch: whom no response of it names. -/
theorem inFlight_receiveAll (frames : List Frame) :
    (broker.receiveAll routine clock frames).2.queue.inFlight
      = broker.queue.inFlight.filter fun other =>
          decide (∀ frame ∈ frames, frame.hint ≠ other.hint) := by
  induction frames generalizing broker with
  | nil => simp [receiveAll]
  | cons frame rest ih =>
    change ((broker.receive routine clock frame).2.receiveAll routine clock rest).2.queue.inFlight
      = _
    rw [ih, inFlight_receive, List.filter_filter]
    refine List.filter_congr fun other member => ?_
    rw [Bool.eq_iff_iff]
    simp only [Bool.and_eq_true, decide_eq_true_eq, bne_iff_ne, List.forall_mem_cons]
    exact and_comm.trans (and_congr_left' ne_comm)

/-! ### What is said and done -/

/-- No outcome was taken back, and no attempt was forgotten. -/
structure Extends (before after : Broker) : Prop where
  outcomes : before.queue.Grows after.queue
  attempts : before.attempts <:+ after.attempts

namespace Extends

variable {before after : Broker}

theorem refl (broker : Broker) : broker.Extends broker := ⟨.refl _, List.suffix_refl _⟩

theorem trans {middle : Broker} (first : before.Extends middle) (second : middle.Extends after) :
    before.Extends after :=
  ⟨first.outcomes.trans second.outcomes, first.attempts.trans second.attempts⟩

end Extends

theorem extends_receive (broker : Broker) (routine : Routine) (clock : Instant) (frame : Frame) :
    broker.Extends (broker.receive routine clock frame).2 where
  outcomes := ((Continues.refl broker).receive routine clock frame).outcomes
  attempts := by
    unfold receive
    split
    · exact List.suffix_refl _
    · dsimp only
      split
      · exact List.suffix_refl _
      · split
        · exact List.suffix_refl _
        · rw [attempts_apply]
          exact List.suffix_cons _ _

/-- Nothing that a broker does takes back an outcome or forgets an attempt. -/
theorem invariant_extends (routine : Routine) (before : Broker) :
    Invariant routine before.Extends where
  receive broker clock frame kept := kept.trans (extends_receive broker routine clock frame)
  resume broker clock now op queue kept due := by
    refine kept.trans ⟨?_, ?_⟩
    · exact ((Continues.refl broker).resume routine clock now op queue due).outcomes
    · unfold resume
      split
      · rw [attempts_apply]
        exact List.suffix_cons _ _
      · exact List.suffix_refl _
  write broker kept := kept.trans ⟨.refl _, List.suffix_refl _⟩
  handBack broker hints kept := by
    refine kept.trans ⟨?_, List.suffix_refl _⟩
    have loops := Session.sweepInvariant_continues routine broker
    exact (loops.handBack broker hints (.refl broker)).outcomes
  fetch broker older run left kept cut := by
    refine kept.trans ⟨?_, List.suffix_refl _⟩
    have loops := Session.sweepInvariant_continues routine broker
    exact (loops.fetch broker older run left (.refl broker) cut).outcomes
  post broker now request kept := by
    refine kept.trans ⟨grows_post broker now request, ?_⟩
    rcases post_cases broker now request with ⟨-, _, same⟩ | ⟨-, _, same⟩ | ⟨-, same⟩ <;>
      simp [same]
  cancel broker hint kept := by
    refine kept.trans ⟨?_, List.suffix_refl _⟩
    rcases queue_cancel broker hint with same | ⟨op, before, rest, -, found⟩
    · rw [same]
      exact .refl _
    · rw [found]
      exact List.suffix_cons _ _
  removeExpired broker now kept := kept.trans ⟨.removeExpired broker.queue now, List.suffix_refl _⟩
  stop broker cancelAll kept := by
    refine kept.trans ⟨?_, List.suffix_refl _⟩
    cases cancelAll with
    | false => exact .of_eq rfl
    | true =>
      rw [queue_stop_all]
      exact List.suffix_append _ _

theorem extends_run (routine : Routine) (broker : Broker) (actions : List Action) :
    broker.Extends (broker.run routine actions) :=
  (invariant_extends routine broker).run (.refl broker) actions

/-! ### The last word -/

/-- What an operation is told at once when a response to it is applied after these attempts; nothing
if it is parked. -/
def lastWord (routine : Routine) (broker : Broker) (attempts : List Attempt) (op : Operation)
    (response : Response) : Option Outcome :=
  match routine attempts op.request response with
  | .done outcome => some outcome
  | .retry =>
    if broker.config.maxRetries ≤ op.retries then some (.error .expired)
    else if broker.queue.stopped then some (.error .cancelled)
    else none

theorem lastWord_standard (broker : Broker) (attempts : List Attempt) (op : Operation)
    (response : Response) :
    broker.lastWord .standard attempts op response
      = some (if response.status.isSuccess then .ok response
          else .error (.refused response.status response.io.information)) := by
  unfold lastWord Routine.standard
  cases response.status.isSuccess <;> rfl

theorem apply_lastWord {response : Response} {outcome : Outcome}
    (said : broker.lastWord routine broker.attempts op response = some outcome) :
    (⟨op.ticket, outcome⟩ : Delivery)
      ∈ (broker.apply routine clock op response).queue.delivered := by
  unfold lastWord at said
  unfold apply
  dsimp only
  cases decided : routine broker.attempts op.request response with
  | done decision =>
    rw [decided] at said
    cases said
    exact List.mem_cons_self ..
  | retry =>
    rw [decided] at said
    dsimp only at said ⊢
    by_cases used : broker.config.maxRetries ≤ op.retries
    · rw [if_pos used] at said ⊢
      cases said
      exact List.mem_cons_self ..
    · rw [if_neg used] at said ⊢
      by_cases stopped : broker.queue.stopped = true
      · rw [if_pos stopped] at said
        cases said
        unfold Queue.park
        rw [if_pos stopped]
        exact List.mem_cons_self ..
      · rw [if_neg stopped] at said
        cases said

/-- A response that passes every check is applied to the operation that it lands. -/
theorem receive_of_checks (routine : Routine) (clock : Instant) {frame : Frame}
    {response : Response} (distinct : broker.queue.Distinct)
    (flying : op ∈ broker.queue.inFlight) (under : frame.hint = op.hint)
    (decoded : Response.decode frame broker.config.revision = .ok response)
    (valid : response.validate op.request = .ok ()) (final : response.status.isPending = false) :
    (broker.receive routine clock frame).2 = apply routine
      { broker with
        queue := { broker.queue with
          inFlight := broker.queue.inFlight.filter fun other => other.hint != op.hint } }
      clock op response := by
  have read : readAnswer broker.config.revision op.request frame = .ok response := by
    unfold readAnswer
    rw [decoded]
    change (response.validate op.request >>= fun _ => Except.ok response) = _
    rw [valid]
    rfl
  unfold receive
  rw [under, Queue.land_of_mem distinct flying]
  dsimp only
  rw [read]
  dsimp only
  rw [if_neg (by simp [final])]

/-- After an action that brings in responses, all is still so that was so after any of them. -/
theorem act_of_framed (routine : Routine) (broker : Broker) {action : Action}
    {before : List Frame} {frame : Frame} {rest : List Frame}
    (framed : Batch.frames .response action.responses = before ++ frame :: rest) :
    ∃ clock, ((broker.receiveAll routine clock before).2.receive routine clock frame).2.Extends
      (broker.act routine action) := by
  have ingests : ∀ clock responses,
      Batch.frames .response responses = before ++ frame :: rest →
      ((broker.receiveAll routine clock before).2.receive routine clock frame).2.Extends
        (broker.ingest routine clock responses).2 := by
    intro clock responses framed
    unfold ingest
    rw [framed, receiveAll_append]
    let landed := ((broker.receiveAll routine clock before).2.receive routine clock frame).2
    have kept : landed.Extends (landed.receiveAll routine clock rest).2 := receiveAll_induction
      (fun _ other _ kept => kept.trans (extends_receive _ routine clock other)) (.refl landed)
    exact kept
  cases action with
  | ingest now responses => exact ⟨now, ingests now responses framed⟩
  | exchange now responses buffer wait =>
    refine ⟨now, (ingests now responses framed).trans ?_⟩
    rw [act, exchange_ingests_first]
    exact (invariant_extends routine _).exchange (.refl _) now [] buffer wait
  | _ =>
    unfold Action.responses at framed
    rw [Batch.frames_nil] at framed
    cases before <;> cases framed

/-- Whoever was told something has left every place for good, and is never told anything else. -/
theorem Ledger.told {accepted : List Nat} {silent : Nat}
    (ledger : Ledger accepted [] silent broker) {ticket : Nat} (member : ticket ∈ accepted)
    {outcome : Outcome} (told : ⟨ticket, outcome⟩ ∈ broker.queue.delivered) :
    (∀ op ∈ broker.queue.all, op.ticket ≠ ticket) ∧
      broker.queue.outcomesOf ticket = [outcome] := by
  have single := ledger.outcomesOf_delivered told member
  refine ⟨fun op held same => ?_, single⟩
  have nothing := ledger.outcomesOf_held held
  rw [same, single] at nothing
  cases nothing

/-- The first response of a batch that names an operation in flight and passes every check ends it
with the last word of the routine, if that is one. Then it is out of every place, for good. -/
theorem answered_of_framed (routine : Routine) {accepted : List Nat} {silent : Nat}
    (ledger : Ledger accepted [] silent broker) (flying : op ∈ broker.queue.inFlight)
    {action : Action} {before : List Frame} {frame : Frame} {rest : List Frame}
    (framed : Batch.frames .response action.responses = before ++ frame :: rest)
    (first : ∀ other ∈ before, other.hint ≠ op.hint) (under : frame.hint = op.hint)
    {response : Response} (decoded : Response.decode frame broker.config.revision = .ok response)
    (valid : response.validate op.request = .ok ()) (final : response.status.isPending = false) :
    ∃ attempts, broker.attempts <:+ attempts ∧
      ⟨op.request, response⟩ :: attempts <:+ (broker.act routine action).attempts ∧
      ∀ outcome, broker.lastWord routine attempts op response = some outcome → ∀ later,
        (∀ other ∈ ((broker.act routine action).run routine later).queue.all,
          other.ticket ≠ op.ticket) ∧
        ((broker.act routine action).run routine later).queue.outcomesOf op.ticket
          = [outcome] := by
  obtain ⟨clock, onward⟩ := act_of_framed routine broker framed
  let middle := (broker.receiveAll routine clock before).2
  have line : SameLine broker middle := receiveAll_induction
    (fun _ other _ kept => kept.trans (sameLine_receive _ routine clock other)) (.refl broker)
  have grown : broker.Extends middle := receiveAll_induction
    (fun _ other _ kept => kept.trans (extends_receive _ routine clock other)) (.refl broker)
  have flies : middle.queue.inFlight = broker.queue.inFlight.filter _ :=
    inFlight_receiveAll before
  have present : op ∈ middle.queue.inFlight := by
    rw [flies]
    exact List.mem_filter.2 ⟨flying, by simpa using first⟩
  have distinct : middle.queue.Distinct := by
    unfold Queue.Distinct
    rw [flies]
    exact (List.filter_sublist.map Operation.hint).nodup ledger.distinct
  have received := receive_of_checks routine clock distinct present under
    (line.config ▸ decoded) valid final
  refine ⟨middle.attempts, grown.attempts, ?_, fun outcome said later => ?_⟩
  · have noted := onward.attempts
    rwa [received, attempts_apply] at noted
  · have word : middle.lastWord routine middle.attempts op response = some outcome := by
      unfold lastWord at said ⊢
      rwa [line.config, line.stopped]
    have told : (⟨op.ticket, outcome⟩ : Delivery)
        ∈ ((broker.act routine action).run routine later).queue.delivered := by
      refine (onward.trans (extends_run routine _ later)).outcomes.subset ?_
      rw [received]
      exact apply_lastWord word
    obtain ⟨missed, kept, -, -⟩ := ledger.run routine (action :: later)
    have held : op ∈ broker.queue.all := by simp [Queue.all, flying]
    exact kept.told (List.mem_append_left _ (ledger.owned op (.inl held)).1) told

end FileBroker.Broker
