import FileBroker.Proofs.Broker.Dispatch
import FileBroker.Proofs.Broker.Setup

/-!
How long the line can get. Operations that end the use of a file are always let in, so the line may
outgrow the capacity; the others are turned away from a full line, and since nobody ever gets back
into it, there are never more of them than the capacity allows.
-/
namespace FileBroker

/-- Who ends the use of a file is not kept waiting outside. -/
theorem Kind.admission_eq_capacityLimited_iff (kind : Kind) :
    kind.admission = .capacityLimited ↔ kind ≠ .cleanup ∧ kind ≠ .close := by
  cases kind <;> decide

/-- A caller sees nothing of what others are told. -/
theorem Reply.take?_deliver {reply : Reply} {op : Operation} (other : op.ticket ≠ reply.ticket)
    (queue : Queue) (outcome : Outcome) :
    reply.take? (queue.deliver op outcome) = reply.take? queue := by
  have same : (queue.deliver op outcome).outcome? reply.ticket = queue.outcome? reply.ticket := by
    simp [Queue.outcome?, Queue.deliver, other]
  unfold Reply.take?
  rw [same]

namespace Broker

variable {broker : Broker} {settings : Config}

/-- What a post is told, if it comes in the language of the session. -/
theorem post_result (broker : Broker) (now : Instant) {request : Request}
    (spoken : request.revision = broker.config.revision) :
    (broker.post now request).1 =
      if broker.queue.stopped then .error .cancelled
      else if request.kind.admission = .capacityLimited ∧
          broker.queue.capacity ≤ broker.queue.pending.length then .error .queueFull
      else .ok (.new broker.nextHint ⟨UInt64.ofNat broker.nextHint⟩) := by
  by_cases stopped : broker.queue.stopped = true
  · simp [post, Queue.enqueue, spoken, stopped]
  · by_cases full : request.kind.admission = .capacityLimited ∧
        broker.queue.capacity ≤ broker.queue.pending.length
    · simp [post, Queue.enqueue, spoken, stopped, full]
    · simp [post, Queue.enqueue, spoken, stopped, full]

/-- Whatever is not a post can only shorten the line. -/
theorem InLine.pending_act (inLine : broker.InLine) (routine : Routine) {action : Action}
    (quiet : ¬ action.isPost) :
    (broker.act routine action).queue.pending.Sublist broker.queue.pending := by
  cases action with
  | post now request => exact absurd rfl quiet
  | cancel hint =>
    rcases queue_cancel broker hint with same | ⟨op, before, rest, whole, same⟩
    · rw [Broker.act, same]
    · rw [Broker.act, same, whole]
      exact (List.Sublist.refl before).append (List.sublist_cons_self op rest)
  | exchange now responses buffer wait =>
    obtain ⟨batch, served, -⟩ := exchange_serves inLine routine now responses buffer wait
    rw [served.pending]
    exact List.sublist_append_right batch _
  | ingest now responses =>
    rw [Broker.act, (sameLine_ingest broker routine now responses).pending]
  | processRetries clock now =>
    rw [Broker.act, (unmoved_processRetries broker routine clock now).pending]
  | removeExpired now =>
    rw [Broker.act, queue_removeExpired]
    exact List.filter_sublist
  | stop cancelAll =>
    cases cancelAll with
    | false => exact List.Sublist.refl _
    | true =>
      rw [Broker.act, queue_stop_all]
      exact List.nil_sublist _

/-- Of the pending operations, those that the capacity is there for. -/
def limited (broker : Broker) : Nat :=
  broker.queue.pending.countP fun op => op.kind ≠ .cleanup ∧ op.kind ≠ .close

/-- A post that makes more of them came when the line was shorter than the capacity. -/
theorem limited_post (setUp : broker.SetUp settings) (room : broker.limited ≤ settings.capacity)
    (now : Instant) (request : Request) :
    (broker.post now request).2.limited ≤ settings.capacity := by
  rcases post_cases broker now request with ⟨-, _, same⟩ | ⟨-, _, same⟩ | ⟨spoken, accepted⟩
  · rw [same]
    exact room
  · rw [same]
    exact room
  · have told := post_result broker now spoken
    rw [accepted] at told ⊢
    unfold limited at room ⊢
    rw [List.countP_append, List.countP_singleton]
    split at told
    · cases told
    · split at told
      · cases told
      · next _ admitted =>
        have kind : ({ broker.posted now request with
            seq := broker.queue.lastSeq + 1 } : Operation).kind = request.kind := rfl
        have atMost : broker.queue.pending.countP
            (fun op => op.kind ≠ .cleanup ∧ op.kind ≠ .close) ≤ broker.queue.pending.length :=
          List.countP_le_length
        rw [Kind.admission_eq_capacityLimited_iff, setUp.capacity, not_and, Nat.not_le] at admitted
        rw [kind]
        split
        · next needed =>
          have shorter := admitted (of_decide_eq_true needed)
          omega
        · exact room

/-- Never more of them wait than the capacity allows. -/
theorem limited_run (routine : Routine) {actions : List Action} (inLine : broker.InLine)
    (setUp : broker.SetUp settings) (room : broker.limited ≤ settings.capacity)
    (formed : ∀ now request, .post now request ∈ actions → request.WellFormed) :
    (broker.run routine actions).limited ≤ settings.capacity := by
  induction actions generalizing broker with
  | nil => exact room
  | cons action rest ih =>
    have first : (broker.act routine action).InLine :=
      inLine.act routine fun now request same => formed now request (same ▸ List.mem_cons_self ..)
    refine ih first ((invariant_setUp routine settings).act setUp action) ?_
      fun now request member => formed now request (List.mem_cons_of_mem _ member)
    by_cases posts : action.isPost
    · cases action <;> cases posts
      exact limited_post setUp room _ _
    · exact Nat.le_trans (inLine.pending_act routine posts).countP_le room

/-- In every state that a broker can get into, the pending operations other than cleanups and closes
are at most as many as the capacity. While the broker runs, a post in the language of the session is
refused exactly if it is for another kind and the line, whoever stands in it, has reached the
capacity; it is then told that the line is full. After a stop every post is told that it was
cancelled. A refused post moves nobody, and nobody who was admitted is told of it. -/
theorem backpressure_exact (routine : Routine) (settings : Config) (actions : List Action)
    (made : ∀ now request, .post now request ∈ actions → request.Made) :
    let broker := (new settings).run routine actions
    broker.queue.pending.countP (fun op => op.kind ≠ .cleanup ∧ op.kind ≠ .close)
      ≤ settings.capacity ∧
    (∀ now request, request.revision = settings.revision →
      (broker.queue.stopped = false → ∀ failure, (broker.post now request).1 = .error failure ↔
        failure = .queueFull ∧ (request.kind ≠ .cleanup ∧ request.kind ≠ .close) ∧
          settings.capacity ≤ broker.queue.pending.length) ∧
      (broker.queue.stopped = true → (broker.post now request).1 = .error .cancelled)) ∧
    ∀ now request failure after, broker.post now request = (.error failure, after) →
      after.queue.pending = broker.queue.pending ∧
      after.queue.inFlight = broker.queue.inFlight ∧
      after.queue.parked = broker.queue.parked ∧
      broker.nextHint ∉ (new settings).admitted routine actions ∧
      ∀ reply : Reply, reply.ticket ≠ broker.nextHint →
        reply.take? after.queue = reply.take? broker.queue := by
  intro broker
  have setUp : broker.SetUp settings := setUp_run routine settings actions
  refine ⟨?_, fun now request spoken => ?_, fun now request failure after refused => ?_⟩
  · exact limited_run routine (inLine_new settings) (setUp_new settings) (Nat.zero_le _)
      fun now request member => (made now request member).wellFormed
  · have told := post_result broker now (spoken.trans (by rw [setUp.config]))
    rw [told, setUp.capacity, ← Kind.admission_eq_capacityLimited_iff]
    refine ⟨fun running failure => ?_, fun stopped => if_pos stopped⟩
    rw [if_neg (by rw [running]; exact Bool.false_ne_true)]
    split
    · next full => simp [full, eq_comm]
    · next room => simp [room]
  · obtain ⟨silent, ledger, -, -⟩ := (ledger_new settings).run routine actions
    have fresh : broker.nextHint ∉ (new settings).admitted routine actions := fun member =>
      Nat.lt_irrefl _ (ledger.created _ member).2
    rcases post_eq_error refused with rfl | rfl
    · exact ⟨rfl, rfl, rfl, fresh, fun _ _ => rfl⟩
    · exact ⟨rfl, rfl, rfl, fresh, fun reply other => Reply.take?_deliver other.symm _ _⟩

/-- With room for one operation the second of two requests is refused. -/
theorem backpressure_secondRead :
    (∀ now request, .post now request ∈ [Action.post 0 reading] → request.Made) ∧
      ((((new { Config.standard with capacity := 1 }).run .standard [.post 0 reading]).post 0
        reading).1 = .error .queueFull) := by
  have made : ∀ now request, .post now request ∈ [Action.post 0 reading] → request.Made := by
    intro now request member
    cases List.mem_singleton.1 member
    exact reading_made
  obtain ⟨-, refuses, -⟩ :=
    backpressure_exact .standard { Config.standard with capacity := 1 } [.post 0 reading] made
  exact ⟨made, ((refuses 0 reading rfl).1 rfl .queueFull).2
    ⟨rfl, ⟨by decide, by decide⟩, Nat.le_refl 1⟩⟩

end Broker
end FileBroker
