import FileBroker.Proofs.Broker.Fetch
import FileBroker.Proofs.Session.Run

/-!
Exchanges of a session that parks nothing and expires nobody: its sweeps change nothing, however
long a worker waits, and the worker gets the longest front of the pending requests.
-/
namespace FileBroker

namespace Broker

variable {broker : Broker}

theorem sweep_of_spared (routine : Routine) (now : Instant) (serving : broker.queue.Serving)
    (spared : ∀ op ∈ broker.queue.all,
      .error .expired ∉ (broker.sweep routine now).queue.outcomesOf op.ticket) :
    broker.sweep routine now = broker := by
  have later := (Session.sweepInvariant_continues routine
    (broker.removeExpired now).2).resumeDue (.refl _) now
  have nobody : broker.queue.removeExpired now = (0, broker.queue) :=
    Queue.removeExpired_of_spared fun op held expired =>
      spared op held (later.outcomes.keeps expired)
  have same : (broker.removeExpired now).2 = broker := by
    unfold Broker.removeExpired
    rw [nobody]
    rfl
  unfold sweep
  rw [same]
  exact resumeDue_of_serving serving routine now

end Broker

namespace Session

variable {routine : Routine} {session : Session}

theorem runSweeps_of_spared {now : Instant} {fuel : Nat}
    (serving : session.broker.queue.Serving)
    (spared : ∀ op ∈ session.broker.queue.all,
      .error .expired ∉ (session.runSweeps routine now fuel).broker.queue.outcomesOf op.ticket) :
    (session.runSweeps routine now fuel).broker = session.broker := by
  induction fuel generalizing session with
  | zero => rfl
  | succ fuel ih =>
    unfold runSweeps at spared ⊢
    split
    · rfl
    · next sweep busy =>
      simp only [busy] at spared
      by_cases due : sweep ≤ now
      · rw [if_pos due] at spared ⊢
        have idle : session.broker.sweep routine sweep = session.broker := by
          refine Broker.sweep_of_spared routine sweep serving fun op held expired => ?_
          have invariant := sweepInvariant_continues routine (session.broker.sweep routine sweep)
          have later := @SweepInvariant.runSweeps routine _ { session with
            broker := session.broker.sweep routine sweep
            nextSweep := some (sweep + session.sweepInterval) } invariant (.refl _) now fuel
          exact spared op held (later.outcomes.keeps expired)
        rw [idle] at spared ⊢
        exact ih serving spared
      · rw [if_neg due]
        rfl

theorem catchUp_of_spared {now : Instant} (serving : session.broker.queue.Serving)
    (spared : ∀ op ∈ session.broker.queue.all,
      .error .expired ∉ (session.catchUp routine now).broker.queue.outcomesOf op.ticket) :
    (session.catchUp routine now).broker = session.broker :=
  runSweeps_of_spared serving spared

/-- However often the wait is interrupted by sweeps, the buffer is filled in the end or nothing is
pending. -/
theorem fill_spec (deadline : Option Instant) (buffer : Buffer) {fuel : Nat} {now : Instant}
    (serving : session.broker.queue.Serving) (ordered : session.broker.queue.Ordered)
    (formed : ∀ op ∈ session.broker.queue.pending, op.request.WellFormed)
    (small : ∀ op ∈ session.broker.queue.pending, op.size ≤ buffer.size)
    (fuelled : fuel = 0 → session.broker.queue.pending = [])
    (spared : ∀ op ∈ session.broker.queue.all, .error .expired
      ∉ (session.fill routine deadline buffer fuel now).2.broker.queue.outcomesOf op.ticket) :
    ∃ batch rest count filled,
      (session.fill routine deadline buffer fuel now).1.1 = .ok (count, filled) ∧
      session.broker.Delivered buffer batch rest count filled
        (session.fill routine deadline buffer fuel now).2.broker := by
  induction fuel generalizing session now with
  | zero => exact ⟨[], [], 0, buffer, rfl, Broker.delivered_nothing (fuelled rfl) buffer⟩
  | succ fuel ih =>
    unfold fill at spared ⊢
    rcases Broker.pollExchange_spec routine now deadline buffer serving ordered formed small with
      ⟨nothing, wake, asleep⟩ | ⟨batch, rest, count, filled, after, ready, delivered⟩
    · rw [asleep] at spared ⊢
      dsimp only at spared ⊢
      split
      · exact ⟨[], [], 0, buffer, rfl, Broker.delivered_nothing nothing buffer⟩
      · next wake' found =>
        rw [found] at spared
        dsimp only at spared
        have idle : (session.catchUp routine wake').broker = session.broker := by
          refine catchUp_of_spared serving fun op held expired => ?_
          have invariant := sweepInvariant_continues routine (session.catchUp routine wake').broker
          have later := invariant.fill (.refl _) deadline buffer fuel wake'
          exact spared op held (later.outcomes.keeps expired)
        have goesOn := @ih (session.catchUp routine wake') wake'
        rw [idle] at goesOn
        exact goesOn serving ordered formed small (fun _ => nothing) spared
    · rw [ready]
      exact ⟨batch, rest, count, filled, rfl, delivered⟩

/-- The responses are taken in, then the buffer is filled. -/
theorem exchange_spec {now : Instant} {responses : Bytes} {buffer : Buffer} {broker : Broker}
    (ingested : (session.broker.ingest routine now responses).2 = broker)
    (serving : broker.queue.Serving) (ordered : broker.queue.Ordered)
    (formed : ∀ op ∈ broker.queue.pending, op.request.WellFormed)
    (small : ∀ op ∈ broker.queue.pending, op.size ≤ buffer.size)
    (fits : broker.config.revision.messageLimit ≤ buffer.size)
    (spared : ∀ op ∈ broker.queue.all, .error .expired
      ∉ (session.exchange routine now responses buffer).2.broker.queue.outcomesOf op.ticket) :
    ∃ batch rest count filled,
      (session.exchange routine now responses buffer).1.1 = .ok (count, filled) ∧
      broker.Delivered buffer batch rest count filled
        (session.exchange routine now responses buffer).2.broker := by
  subst ingested
  have begun := Broker.beginExchange_of_serving routine now responses serving fits
  unfold exchange roundTrip at spared ⊢
  rw [begun] at spared ⊢
  dsimp only at spared ⊢
  exact fill_spec _ buffer serving ordered formed small
    (fun none' => absurd none' (by omega)) spared

end Session
end FileBroker
