import FileBroker.Proofs.Broker.Setup
import FileBroker.Proofs.Broker.Turns
import FileBroker.Proofs.Queue.Expiry

/-!
Which operations of a broker a sweep can expire. The deadline of an operation is what the settings
made it when it was posted, and those that end the use of a file have none.
-/
namespace FileBroker
namespace Broker

variable {routine : Routine} {broker after : Broker} {turn : Turn}

/-! ### Deadlines -/

/-- When the time of an operation is up, by its kind and its age. -/
def Config.deadlineOf (config : Config) (op : Operation) : Option Instant :=
  if op.kind = .cleanup ∨ op.kind = .close then none
  else op.enqueuedAt.after? config.operationTimeout

/-- Every operation has the deadline that it was posted with. -/
def Dated (broker : Broker) : Prop :=
  ∀ op ∈ broker.queue.all, op.deadline = broker.config.deadlineOf op

theorem dated_new (config : Config) : (Broker.new config).Dated :=
  fun _ member => absurd member List.not_mem_nil

theorem deadline_posted (broker : Broker) (now : Instant) (request : Request) :
    (broker.posted now request).deadline
      = broker.config.deadlineOf (broker.posted now request) := by
  have kind : (broker.posted now request).kind = request.kind := rfl
  unfold Config.deadlineOf
  rw [kind]
  unfold posted Operation.new
  simp only [request.kind.admission_eq_bestEffort_iff]
  split <;> rfl

/-- What is taken in hand is an operation of the queue. -/
theorem Arises.origin (arises : Arises broker turn) :
    turn.broker.config = broker.config ∧ ∃ op ∈ broker.queue.all, turn.op.SameOrigin op := by
  cases arises with
  | @landing clock frame op queue landed =>
    obtain ⟨flies, -⟩ := Queue.land_some landed
    exact ⟨rfl, op, List.mem_append_left _ (List.mem_append_right _ flies), .refl op⟩
  | @resumption clock now op queue due =>
    obtain ⟨before, rest, whole, -⟩ := Queue.takeDue_some due
    refine ⟨rfl, op, List.mem_append_right _ ?_, rfl, rfl, rfl, rfl⟩
    rw [whole]
    exact List.mem_append_right before (List.mem_cons_self ..)

namespace Dated

/-- Operations may move, and may be put off. -/
theorem relocate (dated : broker.Dated) (config : after.config = broker.config)
    (origin : ∀ op ∈ after.queue.all, ∃ other ∈ broker.queue.all, op.SameOrigin other) :
    after.Dated := by
  intro op member
  obtain ⟨other, before, same⟩ := origin op member
  have kind : op.kind = other.kind := congrArg Request.kind same.request
  rw [same.deadline, dated other before, config, Config.deadlineOf, Config.deadlineOf, kind,
    same.enqueuedAt]

theorem shrink (dated : broker.Dated) (config : after.config = broker.config)
    (held : ∀ op ∈ after.queue.all, op ∈ broker.queue.all) : after.Dated :=
  dated.relocate config fun op member => ⟨op, held op member, .refl op⟩

theorem post (dated : broker.Dated) (now : Instant) (request : Request) :
    (broker.post now request).2.Dated := by
  rcases post_cases broker now request with ⟨-, _, same⟩ | ⟨-, _, same⟩ | ⟨-, same⟩
  · rw [same]
    exact dated
  · rw [same]
    exact dated.shrink rfl fun _ => id
  · rw [same]
    intro op member
    simp only [Queue.all, List.mem_append, List.mem_singleton] at member
    rcases member with ((waits | rfl) | flies) | parked
    · exact dated op (by simp [Queue.all, waits])
    · exact deadline_posted broker now request
    · exact dated op (by simp [Queue.all, flies])
    · exact dated op (by simp [Queue.all, parked])

/-- Who is parked after a turn is parked with the deadline that it had. -/
theorem answer (dated : broker.Dated) (arises : Arises broker turn) :
    (turn.after routine).Dated := by
  have took := arises.tookOut
  have unmoved := turn.unmoved_after routine
  obtain ⟨config, op, member, same⟩ := arises.origin
  refine dated.relocate (unmoved.config.trans config) fun other held => ?_
  simp only [Queue.all, List.mem_append, unmoved.pending, unmoved.inFlight, took.pending] at held
  rcases held with (waits | flies) | parked
  · exact ⟨other, by simp [Queue.all, waits], .refl other⟩
  · exact ⟨other, by simp [Queue.all, took.inFlight other flies], .refl other⟩
  · rcases Turn.parked_after parked with before | ⟨response, -, -, -, rfl⟩
    · exact ⟨other, by simp [Queue.all, took.parked other before], .refl other⟩
    · exact ⟨op, member, same.ticket, same.request, same.enqueuedAt, same.deadline⟩

end Dated

theorem invariant_dated (routine : Routine) (settings : Config) :
    RunInvariant routine fun broker _ => broker.SetUp settings ∧ broker.Dated := by
  have keeps := invariant_setUp routine settings
  refine .of_loops keeps (.of_loops keeps.toLoopInvariant ?_ ?_ ?_ ?_) ?_ ?_ ?_ ?_
  · exact fun broker counters _ dated => dated.shrink rfl fun _ => id
  · exact fun broker turn _ _ dated arises => dated.answer arises
  · exact fun broker hints _ _ dated => dated.shrink rfl fun _ => Queue.mem_all_of_handBack
  · exact fun broker older run left _ _ dated cut =>
      dated.shrink rfl fun _ => Queue.mem_all_of_fetch cut
  · exact fun broker now request _ dated => dated.post now request
  · exact fun broker hint _ dated =>
      dated.shrink rfl (Queue.thinned_cancel broker.queue hint).held
  · exact fun broker now _ dated =>
      dated.shrink rfl (Queue.thinned_removeExpired broker.queue now).held
  · exact fun broker cancelAll _ dated =>
      dated.shrink rfl (Queue.thinned_stop broker.queue cancelAll).held

/-- In every run the deadlines are those that the settings demand. -/
theorem deadline_run (routine : Routine) (settings : Config) (actions : List Action) :
    ∀ op ∈ ((new settings).run routine actions).queue.all,
      op.deadline = settings.deadlineOf op := by
  have start : (new settings).SetUp settings ∧ (new settings).Dated :=
    ⟨setUp_new settings, dated_new settings⟩
  obtain ⟨setUp, dated⟩ :=
    @RunInvariant.run routine _ _ [] (invariant_dated routine settings) start actions
  intro op held
  rw [dated op held, setUp.config]

/-! ### Sweeps -/

/-- A sweep of a broker is one of its queue. -/
theorem removeExpired_eq_queue (broker : Broker) (now : Instant) :
    ((broker.removeExpired now).1, (broker.removeExpired now).2.queue)
      = broker.queue.removeExpired now := rfl

/-- Who ends the use of a file is not among those whom a sweep takes. -/
theorem spared_of_deadline {settings : Config}
    (dated : ∀ op ∈ broker.queue.all, op.deadline = settings.deadlineOf op) {now : Instant}
    {op : Operation} (taken : op ∈ broker.queue.expiredBy now) :
    op.kind ≠ .cleanup ∧ op.kind ≠ .close := by
  obtain ⟨somewhere, deadline, stands, -⟩ := Queue.mem_expiredBy.1 taken
  have held : op ∈ broker.queue.all := by
    simp only [Queue.all, List.mem_append]
    tauto
  rw [dated op held, Config.deadlineOf] at stands
  rw [← not_or]
  intro ends
  rw [if_pos ends] at stands
  cases stands

end Broker

/-- Whatever was done to a queue, a sweep takes exactly the operations whose deadline has come, in
flight only where the queue says so; it tells each of them once that it has expired, counts them,
and leaves everybody else where they stood. The deadline of an operation is the end of the timeout
that it was created with; and a sweep before another changes nothing about what the other one
leaves. In a broker the deadline is a matter of the kind and the settings, and no operation that
ends the use of a file is ever taken by a sweep. -/
theorem expiry_exact (capacity : Nat) (retryDelay : Span) (expiresInFlight : Bool)
    (moves : List Ensemble.Move) (routine : Routine) (settings : Broker.Config)
    (actions : List Broker.Action) :
    let ensemble := (Ensemble.start capacity retryDelay expiresInFlight).run moves
    let queue := ensemble.queue
    let broker := (Broker.new settings).run routine actions
    (∀ now, ∃ taken, Queue.Swept now queue taken (queue.removeExpired now)) ∧
    (∀ op ∈ ensemble.everybody, ∃ creation,
      (moves.filterMap Ensemble.Move.creation?)[op.ticket]? = some creation ∧ creation.Made op) ∧
    (∀ early late, early ≤ late →
      let first := queue.removeExpired early
      let second := first.2.removeExpired late
      let direct := queue.removeExpired late
      first.1 + second.1 = direct.1 ∧
        second.2 = { direct.2 with delivered := second.2.delivered } ∧
        ∀ ticket, second.2.outcomesOf ticket = direct.2.outcomesOf ticket) ∧
    (∀ op ∈ broker.queue.all, op.deadline = settings.deadlineOf op) ∧
    ∀ now, ∃ taken,
      Queue.Swept now broker.queue taken
        ((broker.removeExpired now).1, (broker.removeExpired now).2.queue) ∧
      ∀ op ∈ taken, op.kind ≠ .cleanup ∧ op.kind ≠ .close := by
  intro ensemble queue broker
  have accounted : ensemble.Accounted := (Ensemble.accounted_start _ _ _).run moves
  have traced := (Ensemble.traced_start capacity retryDelay expiresInFlight).run moves
  have dated : ∀ op ∈ broker.queue.all, op.deadline = settings.deadlineOf op :=
    Broker.deadline_run routine settings actions
  have audited : Broker.Audited [] broker :=
    (Broker.invariant_audited routine).run (Broker.audited_new settings) actions
  refine ⟨fun now => ⟨queue.expiredBy now, Queue.swept_removeExpired (fun ticket => ?_) now⟩,
    traced.made, fun early late order => Queue.removeExpired_removeExpired queue order,
    dated, fun now => ⟨broker.queue.expiredBy now, ?_, fun op => Broker.spared_of_deadline dated⟩⟩
  · have once : queue.tally ticket + Operation.tally ensemble.held ticket = _ :=
      accounted.once ticket
    split at once <;> omega
  · rw [Broker.removeExpired_eq_queue]
    refine Queue.swept_removeExpired (fun ticket => ?_) now
    have once := audited.once ticket
    rw [Queue.tally, ← Queue.length_outcomesOf]
    omega

end FileBroker
