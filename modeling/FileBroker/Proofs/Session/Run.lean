import FileBroker.Proofs.Broker.Run
import FileBroker.Proofs.Queue.Outcomes
import FileBroker.Session.Channel

/-!
What the sweeps and the exchanges of a session leave true of its broker: everything that each single
change to the broker leaves true.
-/
namespace FileBroker

namespace Session

/-- A predicate that exchanges and sweeps keep. -/
structure SweepInvariant (routine : Routine) (holds : Broker → Prop) : Prop
    extends Broker.LoopInvariant routine holds where
  removeExpired : ∀ broker now, holds broker → holds (broker.removeExpired now).2

namespace SweepInvariant

variable {routine : Routine} {holds : Broker → Prop} {session : Session}

theorem sweep (invariant : SweepInvariant routine holds) {broker : Broker} (start : holds broker)
    (now : Instant) : holds (broker.sweep routine now) :=
  invariant.resumeDue (invariant.removeExpired broker now start) now

theorem runSweeps (invariant : SweepInvariant routine holds) (start : holds session.broker)
    (now : Instant) (fuel : Nat) : holds (session.runSweeps routine now fuel).broker := by
  induction fuel generalizing session with
  | zero => exact start
  | succ fuel ih =>
    unfold Session.runSweeps
    split
    · exact start
    · next sweep busy =>
      split
      · exact ih (invariant.sweep start sweep)
      · exact start

theorem catchUp (invariant : SweepInvariant routine holds) (start : holds session.broker)
    (now : Instant) : holds (session.catchUp routine now).broker :=
  invariant.runSweeps start now _

theorem fill (invariant : SweepInvariant routine holds) (start : holds session.broker)
    (deadline : Option Instant) (buffer : Buffer) (fuel : Nat) (now : Instant) :
    holds (session.fill routine deadline buffer fuel now).2.broker := by
  induction fuel generalizing now session with
  | zero => exact start
  | succ fuel ih =>
    have polled := invariant.pollExchange start now deadline buffer
    unfold Session.fill
    dsimp only
    split
    · exact polled
    · split
      · exact polled
      · next wake _ => exact ih (invariant.catchUp polled wake) wake

theorem roundTrip (invariant : SweepInvariant routine holds) (start : holds session.broker)
    (now : Instant) (responses : Bytes) (buffer : Buffer) :
    holds (session.roundTrip routine now responses buffer).2.broker := by
  have begun := invariant.beginExchange start now responses buffer.size
  unfold Session.roundTrip
  split
  · next begins => rwa [begins] at begun
  · next begins => rwa [begins] at begun
  · next broker begins =>
    rw [begins] at begun
    exact invariant.fill begun _ buffer _ now

theorem exchange (invariant : SweepInvariant routine holds) (start : holds session.broker)
    (now : Instant) (responses : Bytes) (buffer : Buffer) :
    holds (session.exchange routine now responses buffer).2.broker :=
  invariant.roundTrip start now responses buffer

end SweepInvariant

end Session

namespace Broker

/-- Nothing was posted meanwhile, and no outcome was taken back. -/
structure Continues (before after : Broker) : Prop where
  outcomes : before.queue.Grows after.queue
  nextHint : after.nextHint = before.nextHint
  config : after.config = before.config

namespace Continues

variable {before broker after : Broker}

theorem refl (broker : Broker) : Continues broker broker := ⟨.refl _, rfl, rfl⟩

/-- Nothing of note changed but the queue, which handed out more. -/
theorem grow (continues : before.Continues broker) (grows : broker.queue.Grows after.queue)
    (nextHint : after.nextHint = broker.nextHint) (config : after.config = broker.config) :
    before.Continues after :=
  ⟨continues.outcomes.trans grows, nextHint.trans continues.nextHint,
    config.trans continues.config⟩

theorem apply (continues : before.Continues broker) (routine : Routine) (clock : Instant)
    (op : Operation) (response : Response) :
    before.Continues (broker.apply routine clock op response) := by
  unfold Broker.apply
  dsimp only
  split
  · exact continues.grow (.deliver broker.queue op _) rfl rfl
  · split
    · exact continues.grow (.deliver broker.queue op _) rfl rfl
    · unfold Queue.park
      dsimp only
      split
      · exact continues.grow (.deliver broker.queue _ _) rfl rfl
      · exact continues.grow (.of_eq rfl) rfl rfl

theorem receive (continues : before.Continues broker) (routine : Routine) (clock : Instant)
    (frame : Frame) : before.Continues (broker.receive routine clock frame).2 := by
  unfold Broker.receive
  rcases Queue.land_cases broker.queue frame.hint with ⟨absent, -⟩ | ⟨op, -, -, -, present⟩
  · rw [absent]
    exact continues.grow (.refl _) rfl rfl
  · rw [present]
    have landed : before.Continues { broker with queue := { broker.queue with
        inFlight := broker.queue.inFlight.filter fun other => other.hint != frame.hint } } :=
      continues.grow (.of_eq rfl) rfl rfl
    dsimp only
    split
    · exact landed.grow (.deliver _ op _) rfl rfl
    · split
      · exact landed.grow (.deliver _ op _) rfl rfl
      · exact landed.apply routine clock op _

theorem resume (continues : before.Continues broker) (routine : Routine) (clock now : Instant)
    (op : Operation) (queue : Queue) (due : broker.queue.takeDue now = (some op, queue)) :
    before.Continues (({ broker with queue } : Broker).resume routine clock op) := by
  obtain ⟨earlier, rest, whole, rfl, -, -⟩ := Queue.takeDue_some due
  have taken : before.Continues
      { broker with queue := { broker.queue with parked := earlier ++ rest } } :=
    continues.grow (.of_eq rfl) rfl rfl
  unfold Broker.resume
  split
  · exact taken.apply routine clock _ _
  · exact taken.grow (.deliver _ _ _) rfl rfl

end Continues
end Broker

namespace Session

/-- Exchanges and sweeps post nothing and take nothing back. -/
theorem sweepInvariant_continues (routine : Routine) (before : Broker) :
    SweepInvariant routine before.Continues where
  receive broker clock frame continues := continues.receive routine clock frame
  resume broker clock now op queue continues due := continues.resume routine clock now op queue due
  write broker continues := continues.grow (.refl _) rfl rfl
  handBack broker hints continues := by
    obtain ⟨waiting, flying, same, -, -⟩ := Queue.handBack_spec hints broker.queue
    refine continues.grow ?_ rfl rfl
    rw [same]
    exact .of_eq rfl
  fetch broker older run left continues cut := by
    have split : before.Continues
        { broker with queue := { broker.queue with pending := older ++ left } } :=
      continues.grow (.of_eq rfl) rfl rfl
    exact split.grow (.foldl_launch _ run) rfl rfl
  removeExpired broker now continues := continues.grow (.removeExpired broker.queue now) rfl rfl

end Session

theorem Broker.continues_ingest (routine : Routine) (broker : Broker) (now : Instant)
    (responses : Bytes) : broker.Continues (broker.ingest routine now responses).2 :=
  (Session.sweepInvariant_continues routine broker).ingest (.refl broker) now responses

end FileBroker
