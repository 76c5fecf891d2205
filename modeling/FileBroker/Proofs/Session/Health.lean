import FileBroker.Proofs.Broker.Traffic
import FileBroker.Proofs.Session.Run
import Mathlib.Logic.Relation

/-!
The health of a session beside the counters of its broker. The session counts what it can read: the
messages in what a worker brings along, and those in the buffer that it gets back. The broker counts
what it does. Both counts agree after every exchange, however it ends, and whatever callers, sweeps,
stops and other workers do before it or while it waits.
-/
namespace FileBroker

namespace Session

/-! ### Runs -/

/-- What happens to a session besides exchanges, one thing at a time. -/
inductive Change (routine : Routine) (session : Session) : Session → Prop where
  | post (now : Instant) {request : Request} (made : request.Made) :
      Change routine session (session.post now request).2
  | cancel (hint : Hint) : Change routine session (session.cancel hint).2
  | sweep (now : Instant) :
      Change routine session { session with broker := session.broker.sweep routine now }
  | stop (cancelAll : Bool) :
      Change routine session { session with broker := (session.broker.stop cancelAll).2 }
  | schedule (nextSweep : Option Instant) : Change routine session { session with nextSweep }
  | notify (notification : Notification) : Change routine session (session.notify notification).2

/-- How far an exchange has got. -/
inductive Stage where
  /-- The responses are in, and the worker waits for requests. -/
  | waiting (deadline : Option Instant)
  | ended (result : Except ChannelError (Nat × Buffer))

/-- Where an exchange stands when its responses have just been taken in. -/
def Stage.begun (buffer : Buffer) (now : Instant) (broker : Broker) :
    Except ChannelError Bool → Stage
  | .error error => .ended (.error error)
  | .ok false => .ended (.ok (0, buffer))
  | .ok true => .waiting (broker.exchangeDeadline now true)

/-- An exchange that is under way. -/
structure Trip where
  responses : Bytes
  buffer : Buffer
  stage : Stage

/-- The states that a session gets into from `start`, each with the exchanges that are under way and
the number of operations that responses have taken out of flight so far. Any number of workers may
be at it, and in any order. A worker that waits tries any number of times to fill its buffer, and
may leave at any time with nothing; the session notes an exchange when it has ended. -/
inductive Reached (routine : Routine) (start : Session) : Session → List Trip → Nat → Prop where
  | start : Reached routine start start [] 0
  | change {session after : Session} {trips : List Trip} {landed : Nat}
      (reached : Reached routine start session trips landed)
      (change : Change routine session after) : Reached routine start after trips landed
  | reorder {session : Session} {trips others : List Trip} {landed : Nat}
      (reached : Reached routine start session trips landed) (same : trips.Perm others) :
      Reached routine start session others landed
  | enter {session : Session} {trips : List Trip} {landed : Nat} {now : Instant}
      {responses : Bytes} {buffer : Buffer} {begun : Except ChannelError Bool} {broker : Broker}
      (reached : Reached routine start session trips landed)
      (begins : session.broker.beginExchange routine now responses buffer.size
        = (begun, broker)) :
      Reached routine start { session with broker }
        (⟨responses, buffer, .begun buffer now broker begun⟩ :: trips)
        (landed + (session.broker.landedBy (Batch.frames .response responses)).length)
  | sleep {session : Session} {trips : List Trip} {landed : Nat} {now : Instant}
      {responses : Bytes} {buffer : Buffer} {deadline wake : Option Instant} {broker : Broker}
      (reached : Reached routine start session
        (⟨responses, buffer, .waiting deadline⟩ :: trips) landed)
      (polls : session.broker.pollExchange routine now deadline buffer
        = (.asleep wake, broker)) :
      Reached routine start { session with broker }
        (⟨responses, buffer, .waiting deadline⟩ :: trips) landed
  | fill {session : Session} {trips : List Trip} {landed : Nat} {now : Instant}
      {responses : Bytes} {buffer : Buffer} {deadline : Option Instant}
      {result : Except ChannelError (Nat × Buffer)} {broker : Broker}
      (reached : Reached routine start session
        (⟨responses, buffer, .waiting deadline⟩ :: trips) landed)
      (polls : session.broker.pollExchange routine now deadline buffer
        = (.ready result, broker)) :
      Reached routine start { session with broker }
        (⟨responses, buffer, .ended result⟩ :: trips) landed
  | leave {session : Session} {trips : List Trip} {landed : Nat} {responses : Bytes}
      {buffer : Buffer} {deadline : Option Instant}
      (reached : Reached routine start session
        (⟨responses, buffer, .waiting deadline⟩ :: trips) landed) :
      Reached routine start session
        (⟨responses, buffer, .ended (.ok (0, buffer))⟩ :: trips) landed
  | finish {session : Session} {trips : List Trip} {landed : Nat} {responses : Bytes}
      {buffer : Buffer} {result : Except ChannelError (Nat × Buffer)}
      (reached : Reached routine start session
        (⟨responses, buffer, .ended result⟩ :: trips) landed) :
      Reached routine start
        { session with health := note session.health (Batch.count .response responses) result }
        trips landed

/-- A call on a session, with its arguments. -/
inductive Call where
  | post (now : Instant) (request : Request)
  | cancel (hint : Hint)
  | exchange (now : Instant) (responses : Bytes) (buffer : Buffer)
  | catchUp (now : Instant)
  | await (now : Instant) (ticket : Nat) (deadline : Option Instant)
  | notify (notification : Notification)
  | stop (now : Instant) (mode : StopMode)

def act (routine : Routine) (session : Session) : Call → Session
  | .post now request => (session.post now request).2
  | .cancel hint => (session.cancel hint).2
  | .exchange now responses buffer => (session.exchange routine now responses buffer).2
  | .catchUp now => session.catchUp routine now
  | .await now ticket deadline => (session.await routine now ticket deadline).2
  | .notify notification => (session.notify notification).2
  | .stop now mode => (session.stop routine now mode).2

def run (routine : Routine) (session : Session) (calls : List Call) : Session :=
  calls.foldl (act routine) session

/-- How many operations the responses of a call take out of flight. -/
def landing (session : Session) : Call → Nat
  | .exchange _ responses _ =>
    (session.broker.landedBy (Batch.frames .response responses)).length
  | _ => 0

/-- How many operations responses take out of flight over a run. -/
def landings (routine : Routine) : Session → List Call → Nat
  | _, [] => 0
  | session, call :: rest =>
    session.landing call + landings routine (session.act routine call) rest

/-! ### Calls as runs -/

section Instances

variable {routine : Routine}

theorem changes_runSweeps (session : Session) (now : Instant) (fuel : Nat) :
    Relation.ReflTransGen (Change routine) session (session.runSweeps routine now fuel) := by
  induction fuel generalizing session with
  | zero => exact .single (.schedule _)
  | succ fuel ih =>
    unfold runSweeps
    split
    · exact .single (.schedule _)
    · next sweep busy =>
      split
      · have swept : Change routine session
            { session with broker := session.broker.sweep routine sweep } := .sweep sweep
        exact .head swept (.head (.schedule _) (ih _))
      · exact .single (.schedule _)

theorem changes_waitFor (session : Session) (ready : Broker → Bool) (deadline : Option Instant)
    (fuel : Nat) (now : Instant) :
    Relation.ReflTransGen (Change routine) session
      (session.waitFor routine ready deadline fuel now).2 := by
  induction fuel generalizing session now with
  | zero => exact .refl
  | succ fuel ih =>
    unfold waitFor
    split
    · exact .refl
    · split
      · exact .refl
      · next wake _ =>
        split
        · exact .refl
        · exact (changes_runSweeps session wake _).trans (ih _ wake)

theorem changes_stop (session : Session) (now : Instant) (mode : StopMode) :
    Relation.ReflTransGen (Change routine) session (session.stop routine now mode).2 := by
  have halts : ∀ session : Session, Relation.ReflTransGen (Change routine) session
      { session with broker := (session.broker.stop true).2, nextSweep := none } := fun session =>
    .head (.stop true) (.single (.schedule none))
  unfold stop
  cases mode with
  | forced => exact halts session
  | graceful => exact .head (.stop false) ((changes_waitFor _ _ _ _ now).trans (halts _))

namespace Reached

variable {start session after : Session} {trips : List Trip} {landed : Nat}

theorem of_changes (reached : Reached routine start session trips landed)
    (changes : Relation.ReflTransGen (Change routine) session after) :
    Reached routine start after trips landed := by
  induction changes with
  | refl => exact reached
  | tail _ change before => exact .change before change

/-- A worker that waits ends up with what filling its buffer gives. -/
theorem of_fill {responses : Bytes} {buffer : Buffer} {deadline : Option Instant}
    (reached : Reached routine start session
      (⟨responses, buffer, .waiting deadline⟩ :: trips) landed)
    (fuel : Nat) (now : Instant) :
    Reached routine start (session.fill routine deadline buffer fuel now).2
      (⟨responses, buffer, .ended (session.fill routine deadline buffer fuel now).1.1⟩ :: trips)
      landed := by
  induction fuel generalizing session now with
  | zero => exact reached.leave
  | succ fuel ih =>
    unfold Session.fill
    split
    next polled broker polls =>
      dsimp only
      split
      · exact reached.fill polls
      · have slept := reached.sleep polls
        split
        · exact slept.leave
        · next wake _ => exact ih (slept.of_changes (changes_runSweeps _ wake _)) wake

/-- An exchange goes its way from its responses to its note. -/
theorem of_exchange (reached : Reached routine start session trips landed) (now : Instant)
    (responses : Bytes) (buffer : Buffer) :
    Reached routine start (session.exchange routine now responses buffer).2 trips
      (landed + (session.broker.landedBy (Batch.frames .response responses)).length) := by
  have trip : Reached routine start (session.roundTrip routine now responses buffer).2
      (⟨responses, buffer, .ended (session.roundTrip routine now responses buffer).1.1⟩ :: trips)
      (landed + (session.broker.landedBy (Batch.frames .response responses)).length) := by
    unfold roundTrip
    split
    · next begins => exact reached.enter begins
    · next begins => exact reached.enter begins
    · next broker begins => exact (reached.enter begins).of_fill _ now
  exact trip.finish

theorem of_act (reached : Reached routine start session trips landed) {call : Call}
    (made : ∀ now request, call = .post now request → request.Made) :
    Reached routine start (session.act routine call) trips (landed + session.landing call) := by
  cases call with
  | post now request => exact reached.change (.post now (made now request rfl))
  | cancel hint => exact reached.change (.cancel hint)
  | exchange now responses buffer => exact reached.of_exchange now responses buffer
  | catchUp now => exact reached.of_changes (changes_runSweeps session now _)
  | await now ticket deadline => exact reached.of_changes (changes_waitFor session _ deadline _ now)
  | notify notification => exact reached.change (.notify notification)
  | stop now mode => exact reached.of_changes (changes_stop session now mode)

/-- Calls one after the other are one way to get on. -/
theorem of_run (reached : Reached routine start session trips landed) {calls : List Call}
    (made : ∀ now request, .post now request ∈ calls → request.Made) :
    Reached routine start (session.run routine calls) trips
      (landed + session.landings routine calls) := by
  induction calls generalizing session landed with
  | nil => exact reached
  | cons call rest ih =>
    have next := reached.of_act fun now request same =>
      made now request (same ▸ List.mem_cons_self ..)
    have later := ih next fun now request member =>
      made now request (List.mem_cons_of_mem _ member)
    rw [Nat.add_assoc] at later
    exact later

end Reached

end Instances

/-! ### Counting -/

/-- How many requests the session will find in the buffer, as far as it has been filled. -/
def Trip.requests (trip : Trip) : Nat :=
  match trip.stage with
  | .waiting _ => 0
  | .ended result => (Broker.requestsOf result).length

/-- The session and its broker have counted the same, up to what the session has yet to note. -/
structure Agrees (session : Session) (trips : List Trip) (landed : Nat) : Prop where
  audited : Broker.Audited [] session.broker
  formed : session.broker.Formed
  delivered : session.health.requestsDelivered + total (trips.map Trip.requests)
    = session.broker.counters.dispatched
  received : session.health.responsesReceived
      + total (trips.map fun trip => Batch.count .response trip.responses)
    = session.broker.counters.staleResponses + landed

theorem agrees_start (name : String) (config : Broker.Config) (now : Instant) :
    (start name config now).Agrees [] 0 where
  audited := Broker.audited_new config
  formed := Broker.formed_new config
  delivered := rfl
  received := rfl

/-- A session counts the requests that can be read in what the worker gets. -/
theorem requestsDelivered_note (health : Health) (received : Nat)
    (result : Except ChannelError (Nat × Buffer)) :
    (note health received result).requestsDelivered
      = health.requestsDelivered + (Broker.requestsOf result).length := by
  unfold note Broker.requestsOf
  split
  · rw [Batch.length_frames]
  · rfl
  · rfl

theorem responsesReceived_note (health : Health) (received : Nat)
    (result : Except ChannelError (Nat × Buffer)) :
    (note health received result).responsesReceived = health.responsesReceived + received := by
  unfold note
  split <;> rfl

theorem requestsOf_nothing (buffer : Buffer) : Broker.requestsOf (.ok (0, buffer)) = [] :=
  Batch.frames_nil .request

namespace Agrees

variable {routine : Routine} {session after : Session} {trips : List Trip} {landed : Nat}
  {broker : Broker} {now : Instant} {responses : Bytes} {buffer : Buffer}
  {deadline : Option Instant}

/-- What is not counted changes nothing. -/
theorem quiet (agrees : session.Agrees trips landed)
    (audited : Broker.Audited [] after.broker) (formed : after.broker.Formed)
    (traffic : Broker.Traffic 0 0 session.broker after.broker)
    (health : after.health = session.health) : after.Agrees trips landed where
  audited := audited
  formed := formed
  delivered := by rw [health, traffic.dispatched, agrees.delivered, Nat.add_zero]
  received := by rw [health, traffic.staleResponses, agrees.received, Nat.add_zero]

theorem change (agrees : session.Agrees trips landed) (change : Change routine session after) :
    after.Agrees trips landed := by
  have keeps := Broker.invariant_audited routine
  have forms := Broker.loopInvariant_formed routine
  cases change with
  | post now made =>
    exact agrees.quiet (keeps.post _ now _ agrees.audited) (agrees.formed.post now made.wellFormed)
      (session.broker.quiet_post now _) rfl
  | cancel hint =>
    exact agrees.quiet (keeps.cancel _ hint agrees.audited) (agrees.formed.cancel hint)
      ⟨rfl, rfl⟩ rfl
  | sweep now =>
    have audited := keeps.removeExpired _ now agrees.audited
    exact agrees.quiet (keeps.toLoopInvariant.resumeDue audited now)
      (forms.resumeDue (agrees.formed.removeExpired now) now)
      (session.broker.quiet_sweep routine now) rfl
  | stop cancelAll =>
    exact agrees.quiet (keeps.stop _ cancelAll agrees.audited) (agrees.formed.stop cancelAll)
      ⟨rfl, rfl⟩ rfl
  | schedule nextSweep => exact agrees.quiet agrees.audited agrees.formed (.refl _) rfl
  | notify notification =>
    unfold Session.notify
    split <;> exact agrees.quiet agrees.audited agrees.formed (.refl _) rfl

/-- Each response that comes in is stale or takes an operation out of flight. -/
theorem enter (agrees : session.Agrees trips landed) {begun : Except ChannelError Bool}
    (begins : session.broker.beginExchange routine now responses buffer.size = (begun, broker)) :
    Agrees { session with broker }
      (⟨responses, buffer, .begun buffer now broker begun⟩ :: trips)
      (landed + (session.broker.landedBy (Batch.frames .response responses)).length) := by
  obtain ⟨stale, all, traffic⟩ := Broker.traffic_beginExchange agrees.audited.distinct routine now
    responses buffer.size
  have audited := (Broker.invariant_audited routine).toLoopInvariant.beginExchange agrees.audited
    now responses buffer.size
  have formed := (Broker.loopInvariant_formed routine).beginExchange agrees.formed now responses
    buffer.size
  rw [begins] at audited formed traffic
  have nothing : Trip.requests ⟨responses, buffer, .begun buffer now broker begun⟩ = 0 := by
    rcases begun with error | wants
    · rfl
    · cases wants with
      | false => exact congrArg List.length (requestsOf_nothing buffer)
      | true => rfl
  refine ⟨audited, formed, ?_, ?_⟩
  · rw [List.map_cons, total, List.sum_cons, nothing, Nat.zero_add]
    exact agrees.delivered.trans traffic.dispatched.symm
  · have before := agrees.received
    have after := traffic.staleResponses
    simp only [total, List.map_cons, List.sum_cons] at before after ⊢
    omega

/-- Whatever an attempt to fill a buffer counts, is found in the buffer. -/
theorem poll (agrees : session.Agrees (⟨responses, buffer, .waiting deadline⟩ :: trips) landed)
    {polled : Wait (Except ChannelError (Nat × Buffer))}
    (polls : session.broker.pollExchange routine now deadline buffer = (polled, broker)) :
    (∃ wake, polled = .asleep wake ∧ Agrees { session with broker }
        (⟨responses, buffer, .waiting deadline⟩ :: trips) landed) ∨
      ∃ result, polled = .ready result ∧ Agrees { session with broker }
        (⟨responses, buffer, .ended result⟩ :: trips) landed := by
  have audited := (Broker.invariant_audited routine).toLoopInvariant.pollExchange agrees.audited now
    deadline buffer
  have formed := (Broker.loopInvariant_formed routine).pollExchange agrees.formed now deadline
    buffer
  rw [polls] at audited formed
  rcases Broker.traffic_pollExchange agrees.formed polls with
    ⟨wake, rfl, traffic⟩ | ⟨result, rfl, traffic⟩
  · exact .inl ⟨wake, rfl, agrees.quiet audited formed traffic rfl⟩
  · refine .inr ⟨result, rfl, audited, formed, ?_, ?_⟩
    · have before := agrees.delivered
      have after := traffic.dispatched
      simp only [List.map_cons, List.sum_cons, Trip.requests] at before ⊢
      omega
    · exact agrees.received.trans (congrArg (· + landed) traffic.staleResponses.symm)

theorem leave
    (agrees : session.Agrees (⟨responses, buffer, .waiting deadline⟩ :: trips) landed) :
    session.Agrees (⟨responses, buffer, .ended (.ok (0, buffer))⟩ :: trips) landed where
  audited := agrees.audited
  formed := agrees.formed
  delivered := by
    have nothing : Trip.requests ⟨responses, buffer, .ended (.ok (0, buffer))⟩ = 0 :=
      congrArg List.length (requestsOf_nothing buffer)
    rw [List.map_cons, total, List.sum_cons, nothing]
    exact agrees.delivered
  received := agrees.received

/-- The session notes what it had yet to note. -/
theorem finish {result : Except ChannelError (Nat × Buffer)}
    (agrees : session.Agrees (⟨responses, buffer, .ended result⟩ :: trips) landed) :
    Agrees
      { session with health := note session.health (Batch.count .response responses) result }
      trips landed where
  audited := agrees.audited
  formed := agrees.formed
  delivered := by
    have before := agrees.delivered
    rw [List.map_cons, total, List.sum_cons, ← Nat.add_assoc] at before
    rw [requestsDelivered_note]
    exact before
  received := by
    have before := agrees.received
    rw [List.map_cons, total, List.sum_cons, ← Nat.add_assoc] at before
    rw [responsesReceived_note]
    exact before

end Agrees

/-- Both counts agree at every point of a run, and so after every exchange. -/
theorem Reached.agrees {routine : Routine} {start session : Session} {trips : List Trip}
    {landed : Nat} (agrees : start.Agrees [] 0)
    (reached : Reached routine start session trips landed) : session.Agrees trips landed := by
  induction reached with
  | start => exact agrees
  | change _ change before => exact before.change change
  | reorder _ same before =>
    have delivered : total _ = total _ := (same.map Trip.requests).sum_nat
    have received : total _ = total _ :=
      (same.map fun trip => Batch.count .response trip.responses).sum_nat
    exact ⟨before.audited, before.formed, delivered ▸ before.delivered,
      received ▸ before.received⟩
  | enter _ begins before => exact before.enter begins
  | sleep _ polls before =>
    rcases before.poll polls with ⟨_, -, after⟩ | ⟨_, same, -⟩
    · exact after
    · cases same
  | fill _ polls before =>
    rcases before.poll polls with ⟨_, same, -⟩ | ⟨_, same, after⟩
    · cases same
    · cases same
      exact after
  | leave _ before => exact before.leave
  | finish _ before => exact before.finish

/-- Whenever no exchange is under way, a session and its broker have counted the same: the requests
that were found in the buffers of workers are those that the broker handed out, and the responses
found in what workers brought along are those that came for nobody and those that took an operation
out of flight. This holds after exchanges that were refused as well, whatever the workers sent, how
large their buffers were, and what happened meanwhile. So it holds after any calls that are made one
after the other. -/
theorem health_agrees (routine : Routine) (name : String) (config : Broker.Config)
    (now : Instant) :
    (∀ session landed, Reached routine (start name config now) session [] landed →
      session.health.requestsDelivered = session.broker.counters.dispatched ∧
      session.health.responsesReceived = session.broker.counters.staleResponses + landed) ∧
    ∀ calls : List Call, (∀ now request, .post now request ∈ calls → request.Made) →
      let session := (start name config now).run routine calls
      let landed := (start name config now).landings routine calls
      session.health.requestsDelivered = session.broker.counters.dispatched ∧
      session.health.responsesReceived = session.broker.counters.staleResponses + landed := by
  have counts : ∀ session landed, Reached routine (start name config now) session [] landed →
      session.health.requestsDelivered = session.broker.counters.dispatched ∧
      session.health.responsesReceived = session.broker.counters.staleResponses + landed := by
    intro session landed reached
    have agrees := reached.agrees (agrees_start name config now)
    exact ⟨agrees.delivered, agrees.received⟩
  refine ⟨counts, fun calls made => ?_⟩
  have begun : Reached routine (start name config now) (start name config now) [] 0 := .start
  have ended := begun.of_run made
  rw [Nat.zero_add] at ended
  exact counts _ _ ended

/-- A read is fetched and answered, once more than needed, by a worker that leaves no room for
requests; after the session has stopped it is answered again. -/
def manyAnswers : List Call :=
  [.post 0 Broker.reading, .exchange 0 [] (.filled 16320 0),
    .exchange 0 (Broker.threeBytes.encode ++ Broker.threeBytes.encode) (.filled 8 0),
    .stop 0 .forced, .exchange 0 Broker.threeBytes.encode (.filled 16320 0)]

theorem health_agrees_manyAnswers :
    (∀ now request, .post now request ∈ manyAnswers → request.Made) ∧
      (start "c" .standard 0).landings .standard manyAnswers = 1 ∧
      ((start "c" .standard 0).run .standard manyAnswers).broker.counters.dispatched = 1 ∧
      ((start "c" .standard 0).run .standard manyAnswers).broker.counters.staleResponses = 2 := by
  have made : ∀ now request, .post now request ∈ manyAnswers → request.Made := by
    intro now request member
    obtain ⟨-, rfl⟩ : now = 0 ∧ request = Broker.reading := by simpa [manyAnswers] using member
    exact Broker.reading_made
  have read : ((start "c" .standard 0).run .standard manyAnswers).health
      = ⟨3, 1, 3, some (ChannelError.bufferTooSmall 16320 8).message⟩ := by decide +kernel
  have landed : (start "c" .standard 0).landings .standard manyAnswers = 1 := by decide +kernel
  obtain ⟨-, counts⟩ := health_agrees .standard "c" .standard 0
  obtain ⟨delivered, received⟩ := counts manyAnswers made
  rw [read] at delivered received
  rw [landed] at received
  exact ⟨made, landed, delivered.symm, (Nat.succ.inj received).symm⟩

end Session
end FileBroker
