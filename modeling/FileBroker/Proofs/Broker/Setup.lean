import FileBroker.Proofs.Broker.Line

/-! What a broker was set up with holds for good: no operation of it changes its settings. -/
namespace FileBroker

/-- Two queues that admit and park alike. -/
structure Queue.SameRules (before after : Queue) : Prop where
  capacity : after.capacity = before.capacity
  retryDelay : after.retryDelay = before.retryDelay

namespace Broker

variable {routine : Routine} {broker after : Broker} {settings : Config}

/-- A broker with the settings it was given, and a queue that keeps them. -/
structure SetUp (settings : Config) (broker : Broker) : Prop where
  config : broker.config = settings
  capacity : broker.queue.capacity = settings.capacity
  retryDelay : broker.queue.retryDelay = min settings.retryDelay Queue.longestRetryDelay

theorem setUp_new (settings : Config) : (new settings).SetUp settings := ⟨rfl, rfl, rfl⟩

namespace SetUp

theorem later (setUp : broker.SetUp settings) (config : after.config = broker.config)
    (rules : Queue.SameRules broker.queue after.queue) : after.SetUp settings where
  config := config.trans setUp.config
  capacity := rules.capacity.trans setUp.capacity
  retryDelay := rules.retryDelay.trans setUp.retryDelay

theorem apply (setUp : broker.SetUp settings) (clock : Instant) (op : Operation)
    (response : Response) : (broker.apply routine clock op response).SetUp settings := by
  refine setUp.later (unmoved_apply broker routine clock op response).config ?_
  unfold Broker.apply
  dsimp only
  split
  · exact ⟨rfl, rfl⟩
  · split
    · exact ⟨rfl, rfl⟩
    · unfold Queue.park
      dsimp only
      split <;> exact ⟨rfl, rfl⟩

theorem receive (setUp : broker.SetUp settings) (clock : Instant) (frame : Frame) :
    (broker.receive routine clock frame).2.SetUp settings := by
  unfold Broker.receive
  rcases Queue.land_cases broker.queue frame.hint with ⟨absent, -⟩ | ⟨op, -, -, -, present⟩
  · rw [absent]
    exact setUp.later rfl ⟨rfl, rfl⟩
  · rw [present]
    have landed : SetUp settings { broker with queue := { broker.queue with
        inFlight := broker.queue.inFlight.filter fun other => other.hint != frame.hint } } :=
      setUp.later rfl ⟨rfl, rfl⟩
    dsimp only
    split
    · exact landed.later rfl ⟨rfl, rfl⟩
    · split
      · exact landed.later rfl ⟨rfl, rfl⟩
      · exact landed.apply clock op _

theorem resume (setUp : broker.SetUp settings) {clock now : Instant} {op : Operation}
    {queue : Queue} (due : broker.queue.takeDue now = (some op, queue)) :
    (({ broker with queue } : Broker).resume routine clock op).SetUp settings := by
  obtain ⟨before, rest, -, rfl, -⟩ := Queue.takeDue_some due
  have taken : SetUp settings
      { broker with queue := { broker.queue with parked := before ++ rest } } :=
    setUp.later rfl ⟨rfl, rfl⟩
  unfold Broker.resume
  split
  · exact taken.apply clock _ _
  · exact taken.later rfl ⟨rfl, rfl⟩

end SetUp

theorem invariant_setUp (routine : Routine) (settings : Config) :
    Invariant routine (SetUp settings) where
  receive broker clock frame setUp := setUp.receive clock frame
  resume broker clock now op queue setUp due := setUp.resume due
  write broker setUp := setUp.later rfl ⟨rfl, rfl⟩
  handBack broker hints setUp := by
    obtain ⟨waiting, flying, same, -, -⟩ := Queue.handBack_spec hints broker.queue
    rw [same]
    exact setUp.later rfl ⟨rfl, rfl⟩
  fetch broker older run left setUp cut := by
    obtain ⟨flying, displaced, same, -, -⟩ :=
      Queue.foldl_launch_eq run { broker.queue with pending := older ++ left }
    rw [same, Queue.deliverAll_eq]
    exact setUp.later rfl ⟨rfl, rfl⟩
  post broker now request setUp := by
    rcases post_cases broker now request with ⟨-, _, same⟩ | ⟨-, _, same⟩ | ⟨-, same⟩ <;> rw [same]
    · exact setUp
    · exact setUp.later rfl ⟨rfl, rfl⟩
    · exact setUp.later rfl ⟨rfl, rfl⟩
  cancel broker hint setUp := by
    refine setUp.later rfl ?_
    rcases queue_cancel broker hint with same | ⟨op, before, rest, -, same⟩ <;> rw [same] <;>
      exact ⟨rfl, rfl⟩
  removeExpired broker now setUp := by
    refine setUp.later rfl ?_
    rw [queue_removeExpired]
    exact ⟨rfl, rfl⟩
  stop broker cancelAll setUp := by
    refine setUp.later rfl ?_
    cases cancelAll with
    | false => exact ⟨rfl, rfl⟩
    | true =>
      rw [queue_stop_all]
      exact ⟨rfl, rfl⟩

/-- In every run a broker is the one that it was set up as. -/
theorem setUp_run (routine : Routine) (settings : Config) (actions : List Action) :
    ((new settings).run routine actions).SetUp settings :=
  (invariant_setUp routine settings).run (setUp_new settings) actions

end Broker
end FileBroker
