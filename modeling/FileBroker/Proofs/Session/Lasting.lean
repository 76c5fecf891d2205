import FileBroker.Proofs.Broker.Receive
import FileBroker.Proofs.Session.Run

/-!
Operations without a deadline, such as best-effort ones: no sweep and no exchange ever expires them.
-/
namespace FileBroker

theorem Operation.isExpired_of_lasting {op : Operation} (lasting : op.deadline = none)
    (now : Instant) : op.isExpired now = false := by
  unfold isExpired
  rw [lasting]

namespace Broker

/-- No operation has a deadline, and none has expired. -/
structure Lasting (broker : Broker) : Prop where
  held : ∀ op ∈ broker.queue.all, op.deadline = none
  outcomes : ∀ delivery ∈ broker.queue.delivered, delivery.outcome ≠ .error .expired

theorem lasting_new (config : Config) : (Broker.new config).Lasting where
  held _ member := absurd member List.not_mem_nil
  outcomes _ member := absurd member List.not_mem_nil

namespace Lasting

variable {broker after : Broker}

/-- Operations may move and leave, with any other outcome. -/
theorem relocate (lasting : broker.Lasting)
    (held : ∀ op ∈ after.queue.all, op ∈ broker.queue.all)
    (outcomes : ∀ delivery ∈ after.queue.delivered,
      delivery ∈ broker.queue.delivered ∨ delivery.outcome ≠ .error .expired) : after.Lasting where
  held op member := lasting.held op (held op member)
  outcomes delivery member := by
    rcases outcomes delivery member with before | other
    · exact lasting.outcomes delivery before
    · exact other

/-- Best-effort operations are created without a deadline. -/
theorem post (lasting : broker.Lasting) (now : Instant) (request : Request)
    (best : ∀ reply after, broker.post now request = (.ok reply, after) →
      request.kind.admission = .bestEffort) : (broker.post now request).2.Lasting := by
  rcases post_cases broker now request with ⟨-, _, same⟩ | ⟨-, _, same⟩ | ⟨-, same⟩
  · rw [same]
    exact lasting
  · rw [same]
    refine lasting.relocate (fun _ => id) fun delivery member => ?_
    rcases List.mem_cons.1 member with rfl | before
    · exact .inr (by simp)
    · exact .inl before
  · have free := best _ _ same
    rw [same]
    refine ⟨fun op member => ?_, lasting.outcomes⟩
    simp only [Queue.all, List.mem_append, List.mem_singleton] at member
    rcases member with ((waiting | rfl) | flying) | parked
    · exact lasting.held op (by simp [Queue.all, waiting])
    · simp [posted, Operation.new, free]
    · exact lasting.held op (by simp [Queue.all, flying])
    · exact lasting.held op (by simp [Queue.all, parked])

theorem settle (lasting : broker.Lasting) (op : Operation) {outcome : Outcome}
    (other : outcome ≠ .error .expired) : (broker.settle op outcome).Lasting := by
  refine lasting.relocate (fun _ => id) fun delivery member => ?_
  rcases List.mem_cons.1 member with rfl | before
  · exact .inr other
  · exact .inl before

theorem apply (lasting : broker.Lasting) (clock : Instant) (op : Operation) (response : Response) :
    (broker.apply .standard clock op response).Lasting := by
  have noted : Lasting { broker with attempts := ⟨op.request, response⟩ :: broker.attempts } :=
    lasting.relocate (fun _ => id) (fun _ => .inl)
  rw [apply_standard]
  refine noted.settle op ?_
  split <;>
    · intro same
      cases same

theorem receive (lasting : broker.Lasting) (clock : Instant) (frame : Frame) :
    (broker.receive .standard clock frame).2.Lasting := by
  unfold Broker.receive
  rcases Queue.land_cases broker.queue frame.hint with ⟨absent, -⟩ | ⟨op, -, -, -, present⟩
  · rw [absent]
    exact lasting.relocate (fun _ => id) (fun _ => .inl)
  · rw [present]
    have landed : Lasting { broker with queue := { broker.queue with
        inFlight := broker.queue.inFlight.filter fun other => other.hint != frame.hint } } := by
      refine lasting.relocate (fun other member => ?_) (fun _ => .inl)
      simp only [Queue.all, List.mem_append, List.mem_filter] at member ⊢
      tauto
    dsimp only
    split
    · exact landed.settle op (by simp)
    · split
      · exact landed.settle op (by simp)
      · exact landed.apply clock op _

theorem resume (lasting : broker.Lasting) (clock now : Instant) (op : Operation) (queue : Queue)
    (due : broker.queue.takeDue now = (some op, queue)) :
    (({ broker with queue } : Broker).resume .standard clock op).Lasting := by
  obtain ⟨earlier, rest, whole, rfl, -, -⟩ := Queue.takeDue_some due
  have taken : Lasting
      { broker with queue := { broker.queue with parked := earlier ++ rest } } := by
    refine lasting.relocate (fun other member => ?_) (fun _ => .inl)
    simp only [Queue.all, whole, List.mem_append, List.mem_cons] at member ⊢
    tauto
  unfold Broker.resume
  split
  · exact taken.apply clock _ _
  · exact taken.settle _ (by simp)

theorem removeExpired (lasting : broker.Lasting) (now : Instant) :
    (broker.removeExpired now).2.Lasting := by
  have nobody : ∀ op ∈ broker.queue.all, op.isExpired now = false :=
    fun op member => Operation.isExpired_of_lasting (lasting.held op member) now
  refine lasting.relocate (fun op member => ?_) (fun delivery member => ?_) <;>
    rw [queue_removeExpired] at member
  · simp only [Queue.all, List.mem_append, List.mem_filter] at member ⊢
    tauto
  · rcases List.mem_append.1 member with new | before
    · obtain ⟨op, old, rfl⟩ := List.mem_map.1 (List.mem_reverse.1 new)
      simp only [Queue.all, Queue.canExpire, List.mem_append, List.mem_filter,
        Bool.and_eq_true] at old nobody
      have fresh := nobody op (by tauto)
      simp [fresh] at old
    · exact .inl before

end Lasting
end Broker

namespace Session

theorem sweepInvariant_lasting : SweepInvariant .standard Broker.Lasting where
  receive broker clock frame lasting := lasting.receive clock frame
  resume broker clock now op queue lasting due := lasting.resume clock now op queue due
  write broker lasting := lasting.relocate (fun _ => id) (fun _ => .inl)
  handBack broker hints lasting := by
    obtain ⟨waiting, flying, same, waited, flown⟩ := Queue.handBack_spec hints broker.queue
    rw [same]
    refine lasting.relocate (fun op member => ?_) (fun _ => .inl)
    have origin := waited op
    have origin' := flown op
    simp only [Queue.all, List.mem_append] at member ⊢
    tauto
  fetch broker older run left lasting cut := by
    obtain ⟨flying, displaced, same, flown, -⟩ :=
      Queue.foldl_launch_eq run { broker.queue with pending := older ++ left }
    rw [same, Queue.deliverAll_eq]
    refine lasting.relocate (fun op member => ?_) (fun delivery member => ?_)
    · have origin := flown op
      simp only [Queue.all, cut, List.mem_append] at member ⊢
      tauto
    · rcases List.mem_append.1 member with new | before
      · obtain ⟨op, -, rfl⟩ := List.mem_map.1 (List.mem_reverse.1 new)
        exact .inr (by simp)
      · exact .inl before
  removeExpired broker now lasting := lasting.removeExpired now

end Session
end FileBroker
