import FileBroker.Proofs.Session.Run
import FileBroker.Worker.Basic

/-!
What a worker does to its channel is exchanges and nothing else: whatever every exchange keeps, the
whole loop of a worker keeps.
-/
namespace FileBroker

/-- Exchanges keep a predicate on the channel. -/
def Channel.Keeps {σ : Type} (exchange : Channel σ) (kept : σ → Prop) : Prop :=
  ∀ channel responses buffer, kept channel → kept (exchange.exchange channel responses buffer).2

namespace Channel.Keeps

variable {σ τ : Type} {exchange : Channel σ} {kept : σ → Prop} {worker : Worker σ τ}

theorem flush (keeps : exchange.Keeps kept) (start : kept worker.channel) :
    kept (worker.flush exchange).2.channel := by
  have exchanged := keeps worker.channel worker.outbox.written .empty start
  unfold Worker.flush
  dsimp only
  split <;> exact exchanged

theorem makeRoom (keeps : exchange.Keeps kept) (start : kept worker.channel) :
    kept (worker.makeRoom exchange).2.channel := by
  unfold Worker.makeRoom
  split
  · exact start
  · exact keeps.flush start

theorem channel_answer (worker : Worker σ τ) (handler : Handler τ) (frame : Frame) :
    (worker.answer handler frame).2.channel = worker.channel := by
  unfold Worker.answer
  split <;> rfl

theorem answerAll (keeps : exchange.Keeps kept) (start : kept worker.channel)
    (handler : Handler τ) (frames : List Frame) :
    kept (Worker.answerAll exchange handler frames worker).2.channel := by
  induction frames generalizing worker with
  | nil => exact start
  | cons frame rest ih =>
    have roomy := keeps.makeRoom start
    unfold Worker.answerAll
    split
    · next made => rwa [made] at roomy
    · next ready made =>
      rw [made] at roomy
      have answered : kept (ready.answer handler frame).2.channel := by
        rw [channel_answer]
        exact roomy
      split
      · next failed => rwa [failed] at answered
      · next done =>
        rw [done] at answered
        exact ih answered

/-- After its exchange a turn exchanges no more than answers. -/
theorem turn_of_exchange (keeps : exchange.Keeps kept) (handler : Handler τ)
    (exchanged : kept (exchange.exchange worker.channel worker.outbox.written worker.inbox).2) :
    kept (worker.turn exchange handler).2.channel := by
  unfold Worker.turn
  dsimp only
  split
  · exact exchanged
  · exact exchanged
  · next filled inbox _ =>
    have answered := @answerAll σ τ exchange kept { worker with
      channel := (exchange.exchange worker.channel worker.outbox.written worker.inbox).2
      inbox
      outbox := { worker.outbox with cursor := 0 } } keeps exchanged handler
      (Batch.frames .request (inbox.front filled))
    split <;> next done => rwa [done] at answered

theorem turn (keeps : exchange.Keeps kept) (start : kept worker.channel) (handler : Handler τ) :
    kept (worker.turn exchange handler).2.channel :=
  keeps.turn_of_exchange handler (keeps worker.channel worker.outbox.written worker.inbox start)

theorem run (keeps : exchange.Keeps kept) (start : kept worker.channel) (handler : Handler τ)
    (fuel : Nat) : kept (worker.run exchange handler fuel).2.channel := by
  induction fuel generalizing worker with
  | zero => exact start
  | succ fuel ih =>
    have turned := keeps.turn start handler
    unfold Worker.run
    split
    · next done =>
      rw [done] at turned
      exact ih turned
    · next done => rwa [done] at turned
    · next done => rwa [done] at turned

theorem run_of_turn (keeps : exchange.Keeps kept) (handler : Handler τ) (fuel : Nat)
    (turned : kept (worker.turn exchange handler).2.channel) :
    kept (worker.run exchange handler (fuel + 1)).2.channel := by
  unfold Worker.run
  split
  · next done =>
    rw [done] at turned
    exact keeps.run turned handler fuel
  · next done => rwa [done] at turned
  · next done => rwa [done] at turned

theorem sendResponse (keeps : exchange.Keeps kept) (start : kept worker.channel)
    (response : Response) : kept (worker.sendResponse exchange response).2.channel := by
  unfold Worker.sendResponse
  dsimp only
  split
  · exact start
  · next writer _ =>
    have exchanged := keeps worker.channel writer.written .empty start
    split <;> exact exchanged

end Channel.Keeps

/-- The channel of a session keeps what sweeps and exchanges keep. -/
theorem Session.SweepInvariant.keeps {routine : Routine} {holds : Broker → Prop}
    (invariant : SweepInvariant routine holds) :
    (Session.channel routine).Keeps fun live => holds live.session.broker :=
  fun live responses buffer start => invariant.exchange start live.now responses buffer

end FileBroker
