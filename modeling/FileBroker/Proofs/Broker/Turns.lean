import FileBroker.Proofs.Broker.Dispatch
import FileBroker.Proofs.Broker.Landing

/-!
The turns that operations get. An operation that a response lands, or whose retry is due, is taken
in hand; the routine is asked once, unless the response cannot be used, and the operation is told
something or parked. Apart from its turns an operation is never dealt with, other than by callers
and sweeps; so what is to be known of all completions can be proved turn by turn.
-/
namespace FileBroker.Broker

/-- An operation in hand, and the response to complete it with, or why there is none. -/
structure Turn where
  /-- The state that the operation was taken out of. -/
  broker : Broker
  clock : Instant
  /-- The instant by which the operation was due, if it was parked. -/
  due : Option Instant
  op : Operation
  answer : Except String Response

namespace Turn

def after (routine : Routine) (turn : Turn) : Broker :=
  match turn.answer with
  | .ok response => turn.broker.apply routine turn.clock turn.op response
  | .error reason => turn.broker.settle turn.op (.error (.protocolViolation reason))

/-- What the routine is asked. -/
def attempt? (turn : Turn) : Option Attempt :=
  match turn.answer with
  | .ok response => some ⟨turn.op.request, response⟩
  | .error _ => none

/-- What the routine says. -/
def verdict? (routine : Routine) (turn : Turn) : Option Verdict :=
  turn.attempt?.map fun attempt => routine turn.broker.attempts attempt.request attempt.response

/-- What the operation is told; nothing if it is parked. -/
def word? (routine : Routine) (turn : Turn) : Option Outcome :=
  match turn.answer with
  | .ok response => turn.broker.lastWord routine turn.broker.attempts turn.op response
  | .error reason => some (.error (.protocolViolation reason))

/-- The operation, parked with its response. -/
def parked (turn : Turn) (response : Response) : Operation :=
  turn.op.park response ((turn.clock.after? turn.broker.queue.retryDelay).getD turn.clock)

variable {routine : Routine} {turn : Turn}

theorem attempt?_ok {response : Response} (answered : turn.answer = .ok response) :
    turn.attempt? = some ⟨turn.op.request, response⟩ := by
  unfold attempt?
  rw [answered]

theorem verdict?_ok {response : Response} (answered : turn.answer = .ok response) :
    turn.verdict? routine = some (routine turn.broker.attempts turn.op.request response) := by
  rw [verdict?, attempt?_ok answered, Option.map_some]

/-- A turn is noted if the routine was asked. -/
theorem attempts_after (routine : Routine) (turn : Turn) :
    (turn.after routine).attempts = turn.attempt?.toList ++ turn.broker.attempts := by
  unfold after attempt?
  split
  · exact attempts_apply routine turn.clock
  · rfl

/-- A turn moves nobody else. -/
theorem unmoved_after (routine : Routine) (turn : Turn) :
    Unmoved turn.broker (turn.after routine) := by
  unfold after
  split
  · exact unmoved_apply turn.broker routine turn.clock turn.op _
  · exact ⟨⟨rfl, rfl, rfl, rfl, rfl⟩, rfl⟩

/-- What a turn comes to: the operation is told something, or it is parked because the routine wants
to see its response again, may do so, and the queue was not stopped. -/
theorem after_cases (routine : Routine) (turn : Turn) :
    (∃ outcome, turn.word? routine = some outcome ∧
      (turn.after routine).queue = turn.broker.queue.deliver turn.op outcome) ∨
    (∃ response, turn.answer = .ok response ∧ turn.word? routine = none ∧
      turn.verdict? routine = some .retry ∧ turn.op.retries < turn.broker.config.maxRetries ∧
      (turn.after routine).queue = { turn.broker.queue with
        parked := turn.broker.queue.parked ++ [turn.parked response] }) := by
  unfold word? after
  match answered : turn.answer with
  | .error reason => exact .inl ⟨_, rfl, rfl⟩
  | .ok response =>
    rw [verdict?_ok answered]
    dsimp only
    unfold lastWord apply
    dsimp only
    cases routine turn.broker.attempts turn.op.request response with
    | done outcome => exact .inl ⟨outcome, rfl, rfl⟩
    | retry =>
      dsimp only
      by_cases used : turn.broker.config.maxRetries ≤ turn.op.retries
      · rw [if_pos used, if_pos used]
        exact .inl ⟨_, rfl, rfl⟩
      · rw [if_neg used, if_neg used]
        unfold Queue.park
        dsimp only
        by_cases stopped : turn.broker.queue.stopped = true
        · rw [if_pos stopped, if_pos stopped]
          exact .inl ⟨_, rfl, rfl⟩
        · rw [if_neg stopped, if_neg stopped]
          exact .inr ⟨response, rfl, rfl, rfl, Nat.lt_of_not_le used, rfl⟩

/-- What was told before a turn is not taken back. -/
theorem grows_after (routine : Routine) (turn : Turn) :
    turn.broker.queue.Grows (turn.after routine).queue := by
  rcases turn.after_cases routine with ⟨outcome, -, told⟩ | ⟨response, -, -, -, -, put⟩
  · rw [told]
    exact .deliver turn.broker.queue turn.op outcome
  · rw [put]
    exact .of_eq rfl

/-- A turn tells nobody else anything. -/
theorem outcomesOf_after_of_ne (routine : Routine) {ticket : Nat}
    (other : turn.op.ticket ≠ ticket) :
    (turn.after routine).queue.outcomesOf ticket = turn.broker.queue.outcomesOf ticket := by
  rcases turn.after_cases routine with ⟨outcome, -, told⟩ | ⟨response, -, -, -, -, put⟩
  · rw [told, Queue.outcomesOf_deliver_of_ne _ _ other]
  · rw [put]
    rfl

/-- Who is parked after a turn was so before, or is the one that the routine wants to be asked about
again. -/
theorem parked_after {op : Operation} (held : op ∈ (turn.after routine).queue.parked) :
    op ∈ turn.broker.queue.parked ∨
      ∃ response, turn.answer = .ok response ∧ turn.verdict? routine = some .retry ∧
        turn.op.retries < turn.broker.config.maxRetries ∧ op = turn.parked response := by
  rcases turn.after_cases routine with
    ⟨outcome, -, told⟩ | ⟨response, answered, -, asked, room, put⟩
  · rw [told] at held
    exact .inl held
  · rw [put] at held
    rcases List.mem_append.1 held with before | new
    · exact .inl before
    · exact .inr ⟨response, answered, asked, room, List.mem_singleton.1 new⟩

/-- Who is told something in a turn is told it at once. -/
theorem outcomesOf_after {outcome : Outcome} (said : turn.word? routine = some outcome) :
    (turn.after routine).queue.outcomesOf turn.op.ticket
      = outcome :: turn.broker.queue.outcomesOf turn.op.ticket := by
  rcases turn.after_cases routine with ⟨other, word, told⟩ | ⟨response, -, silent, -⟩
  · obtain rfl : outcome = other := Option.some.inj (said.symm.trans word)
    rw [told, Queue.outcomesOf_deliver]
  · rw [silent] at said
    cases said

/-- Who was told nothing before its turn is told what is said in it. -/
theorem word?_of_untold {outcome : Outcome}
    (untold : turn.broker.queue.outcomesOf turn.op.ticket = [])
    (told : outcome ∈ (turn.after routine).queue.outcomesOf turn.op.ticket) :
    turn.word? routine = some outcome := by
  rcases turn.after_cases routine with ⟨other, said, -⟩ | ⟨response, -, -, -, -, put⟩
  · rw [outcomesOf_after said, untold] at told
    rw [said, List.mem_singleton.1 told]
  · have nothing : (turn.after routine).queue.outcomesOf turn.op.ticket = [] := by
      rw [put]
      exact untold
    rw [nothing] at told
    cases told

/-- Who is told nothing in its turn is parked with its response. -/
theorem parked_of_silent (silent : turn.word? routine = none) : ∃ response,
    turn.answer = .ok response ∧
      (turn.after routine).queue.parked
        = turn.broker.queue.parked ++ [turn.parked response] := by
  rcases turn.after_cases routine with ⟨outcome, said, -⟩ | ⟨response, answered, -, -, -, put⟩
  · rw [silent] at said
    cases said
  · exact ⟨response, answered, by rw [put]⟩

/-- If the routine wants to be asked again, that is granted unless it was granted too often or the
queue was stopped. -/
theorem word?_retry (asked : turn.verdict? routine = some .retry) :
    turn.word? routine =
      if turn.broker.config.maxRetries ≤ turn.op.retries then some (.error .expired)
      else if turn.broker.queue.stopped then some (.error .cancelled)
      else none := by
  unfold word?
  match answered : turn.answer with
  | .ok response =>
    rw [verdict?_ok answered, Option.some.injEq] at asked
    dsimp only
    unfold lastWord
    rw [asked]
  | .error reason => simp [verdict?, attempt?, answered] at asked

/-- An operation is cancelled in its turn if the routine says so, or if a retry that it is granted
comes after the stop. -/
theorem word?_cancelled_iff : turn.word? routine = some (.error .cancelled) ↔
    turn.verdict? routine = some (.done (.error .cancelled)) ∨
      turn.verdict? routine = some .retry ∧ turn.op.retries < turn.broker.config.maxRetries ∧
        turn.broker.queue.stopped = true := by
  match answered : turn.answer with
  | .error reason => simp [word?, verdict?, attempt?, answered]
  | .ok response =>
    cases said : turn.verdict? routine with
    | none => simp [verdict?_ok answered] at said
    | some verdict =>
      cases verdict with
      | retry =>
        rw [word?_retry said, ← Nat.not_le]
        by_cases used : turn.broker.config.maxRetries ≤ turn.op.retries <;> simp [used]
      | done outcome =>
        rw [verdict?_ok answered, Option.some.injEq] at said
        simp [word?, answered, lastWord, said]

end Turn

/-! ### How turns arise -/

/-- What a response is good for. -/
def answerOf (revision : Revision) (request : Request) (frame : Frame) : Except String Response :=
  match readAnswer revision request frame with
  | .error error => .error error.message
  | .ok response =>
    if response.status.isPending then .error "pending status in response" else .ok response

/-- The turn of an operation that a response has landed, which left `queue`. -/
def landing (broker : Broker) (clock : Instant) (frame : Frame) (op : Operation) (queue : Queue) :
    Turn where
  broker := { broker with queue }
  clock
  due := none
  op
  answer := answerOf broker.config.revision op.request frame

/-- The turn of a parked operation that was due `now`, which left `queue`. -/
def resumption (broker : Broker) (clock now : Instant) (op : Operation) (queue : Queue) :
    Turn where
  broker := { broker with queue }
  clock
  due := some now
  op := op.takeResponse.2
  answer :=
    match op.response with
    | some response => .ok response
    | none => .error "retried operation has no response"

variable {routine : Routine} {broker : Broker}

theorem receive_landed (routine : Routine) (clock : Instant) {frame : Frame} {op : Operation}
    {queue : Queue} (landed : broker.queue.land frame.hint = (some op, queue)) :
    (broker.receive routine clock frame).2
      = (broker.landing clock frame op queue).after routine := by
  unfold receive Turn.after landing answerOf
  rw [landed]
  dsimp only
  cases readAnswer broker.config.revision op.request frame with
  | error error => rfl
  | ok response =>
    dsimp only
    split <;> rfl

theorem resume_due (routine : Routine) (broker : Broker) (clock now : Instant) (op : Operation)
    (queue : Queue) :
    ({ broker with queue } : Broker).resume routine clock op
      = (broker.resumption clock now op queue).after routine := by
  unfold resume Turn.after resumption Operation.takeResponse
  cases op.response <;> rfl

/-- The turns that a state can go on with. -/
inductive Arises (broker : Broker) : Turn → Prop where
  | landing {clock : Instant} {frame : Frame} {op : Operation} {queue : Queue}
      (landed : broker.queue.land frame.hint = (some op, queue)) :
      Arises broker (broker.landing clock frame op queue)
  | resumption {clock now : Instant} {op : Operation} {queue : Queue}
      (due : broker.queue.takeDue now = (some op, queue)) :
      Arises broker (broker.resumption clock now op queue)

/-- Operations were taken out of a queue, and that is all. -/
structure TookOut (before after : Broker) : Prop where
  pending : after.queue.pending = before.queue.pending
  inFlight : ∀ op ∈ after.queue.inFlight, op ∈ before.queue.inFlight
  parked : ∀ op ∈ after.queue.parked, op ∈ before.queue.parked
  delivered : after.queue.delivered = before.queue.delivered
  stopped : after.queue.stopped = before.queue.stopped
  nextHint : after.nextHint = before.nextHint
  attempts : after.attempts = before.attempts

theorem Arises.tookOut {turn : Turn} (arises : Arises broker turn) :
    TookOut broker turn.broker := by
  cases arises with
  | @landing clock frame op queue landed =>
    rcases Queue.land_cases broker.queue frame.hint with ⟨absent, -⟩ | ⟨other, -, -, -, present⟩
    · rw [absent] at landed
      cases landed
    · rw [present] at landed
      cases landed
      exact ⟨rfl, fun _ => List.mem_of_mem_filter, fun _ => id, rfl, rfl, rfl, rfl⟩
  | @resumption clock now op queue due =>
    obtain ⟨before, rest, whole, rfl, -⟩ := Queue.takeDue_some due
    refine ⟨rfl, fun _ => id, fun other left => ?_, rfl, rfl, rfl, rfl⟩
    have left : other ∈ before ++ rest := left
    rw [whole]
    simp only [List.mem_append, List.mem_cons] at left ⊢
    tauto

/-! ### The turns of each operation of the broker -/

def turnOfFrame (broker : Broker) (clock : Instant) (frame : Frame) : List Turn :=
  match broker.queue.land frame.hint with
  | (none, _) => []
  | (some op, queue) => [broker.landing clock frame op queue]

def turnsOfFrames (routine : Routine) (broker : Broker) (clock : Instant) : List Frame → List Turn
  | [] => []
  | frame :: rest =>
    broker.turnOfFrame clock frame
      ++ (broker.receive routine clock frame).2.turnsOfFrames routine clock rest

def turnsOfRetries (routine : Routine) (broker : Broker) (clock now : Instant) : List Turn :=
  match _h : broker.queue.takeDue now with
  | (none, _) => []
  | (some op, queue) =>
    broker.resumption clock now op queue
      :: turnsOfRetries routine (({ broker with queue } : Broker).resume routine clock op) clock now
termination_by broker.attemptsLeft
decreasing_by exact attemptsLeft_resume_lt ‹_›

def turnsOfPoll (routine : Routine) (broker : Broker) (now : Instant) (deadline : Option Instant)
    (buffer : Buffer) : List Turn :=
  match broker.queue.dequeue now deadline buffer.size none with
  | (.ready (.ok batch), queue) =>
    let (writer, broker) := handOver { broker with queue } now (.ofBuffer buffer) batch
    if writer.isEmpty then broker.turnsOfRetries routine (now + 1 + 1) (now + 1) else []
  | _ => []

/-- The responses come first, then retries that are due; others may fall due while the worker waits
for a request. -/
def turnsOfExchange (routine : Routine) (broker : Broker) (now : Instant) (responses : Bytes)
    (buffer : Buffer) (wait : Bool) : List Turn :=
  let ingested := (broker.ingest routine now responses).2
  let retries := if buffer.size = 0 then [] else ingested.turnsOfRetries routine (now + 1) now
  let polls := match broker.beginExchange routine now responses buffer.size with
    | (.ok true, begun) =>
      let deadline := begun.exchangeDeadline now wait
      let later := match begun.pollExchange routine now deadline buffer with
        | (.asleep (some wake), slept) => slept.turnsOfPoll routine wake deadline buffer
        | _ => []
      begun.turnsOfPoll routine now deadline buffer ++ later
    | _ => []
  broker.turnsOfFrames routine now (Batch.frames .response responses) ++ retries ++ polls

def turnsBy (routine : Routine) (broker : Broker) : Action → List Turn
  | .exchange now responses buffer wait =>
    broker.turnsOfExchange routine now responses buffer wait
  | .ingest now responses =>
    broker.turnsOfFrames routine now (Batch.frames .response responses)
  | .processRetries clock now => broker.turnsOfRetries routine clock now
  | .post .. | .cancel _ | .removeExpired _ | .stop _ => []

/-- The turns of a whole run, in order. -/
def turns (routine : Routine) (broker : Broker) (actions : List Action) : List Turn :=
  along routine (turnsBy routine) broker actions

theorem turnsOfRetries_idle {clock now : Instant} {queue : Queue}
    (idle : broker.queue.takeDue now = (none, queue)) :
    broker.turnsOfRetries routine clock now = [] := by
  rw [turnsOfRetries]
  split
  · rfl
  · next due => rw [idle] at due; cases due

theorem turnsOfRetries_due {clock now : Instant} {op : Operation} {queue : Queue}
    (due : broker.queue.takeDue now = (some op, queue)) :
    broker.turnsOfRetries routine clock now = broker.resumption clock now op queue
      :: (({ broker with queue } : Broker).resume routine clock op).turnsOfRetries routine clock
        now := by
  rw [turnsOfRetries]
  split
  · next idle => rw [due] at idle; cases idle
  · next found => rw [due] at found; cases found; rfl

/-! ### Invariants -/

/-- What a broker and the turns so far keep to while responses are taken in and retries are
attempted: there is a turn, or a response is only counted. -/
structure AnswerInvariant (routine : Routine) (holds : Broker → List Turn → Prop) : Prop where
  stale : ∀ broker clock frame queue turns, holds broker turns →
    broker.queue.land frame.hint = (none, queue) →
    holds (broker.receive routine clock frame).2 turns
  turn : ∀ broker turn turns, holds broker turns → Arises broker turn →
    holds (turn.after routine) (turns ++ [turn])

/-- What a broker and the turns so far keep to whatever the loops inside its operations do. -/
structure TurnInvariant (routine : Routine) (holds : Broker → List Turn → Prop) : Prop
    extends AnswerInvariant routine holds where
  write : ∀ broker turns, holds broker turns →
    holds { broker with
      counters := { broker.counters with dispatched := broker.counters.dispatched + 1 } } turns
  handBack : ∀ broker hints turns, holds broker turns →
    holds { broker with queue := (broker.queue.handBack hints).2 } turns
  fetch : ∀ broker older run left turns, holds broker turns →
    broker.queue.pending = older ++ (run ++ left) →
    holds { broker with
      queue := run.foldl Queue.launch { broker.queue with pending := older ++ left } } turns

namespace AnswerInvariant

variable {holds : Broker → List Turn → Prop} {turns : List Turn}

/-- Counting has no part in what is shown of the turns, and what holds of every state may be used
in it. -/
theorem of_loops {always : Broker → Prop} {holds : Broker → List Turn → Prop}
    (loops : LoopInvariant routine always)
    (count : ∀ broker counters turns, holds broker turns → holds { broker with counters } turns)
    (turn : ∀ broker turn turns, always broker → holds broker turns → Arises broker turn →
      holds (turn.after routine) (turns ++ [turn])) :
    AnswerInvariant routine fun broker turns => always broker ∧ holds broker turns where
  stale broker clock frame queue turns start nobody := by
    refine ⟨loops.receive broker clock frame start.1, ?_⟩
    unfold Broker.receive
    rw [nobody, Queue.land_none nobody]
    exact count broker _ turns start.2
  turn broker next turns start arises := by
    refine ⟨?_, turn broker next turns start.1 start.2 arises⟩
    cases arises with
    | landing landed =>
      rw [← receive_landed routine _ landed]
      exact loops.receive broker _ _ start.1
    | resumption due =>
      rw [← resume_due routine broker]
      exact loops.resume broker _ _ _ _ start.1 due

theorem receive (invariant : AnswerInvariant routine holds) (start : holds broker turns)
    (clock : Instant) (frame : Frame) :
    holds (broker.receive routine clock frame).2 (turns ++ broker.turnOfFrame clock frame) := by
  unfold turnOfFrame
  split
  · next queue nobody =>
    rw [List.append_nil]
    exact invariant.stale broker clock frame queue turns start nobody
  · next op queue landed =>
    rw [receive_landed routine clock landed]
    exact invariant.turn broker _ turns start (.landing landed)

theorem receiveAll (invariant : AnswerInvariant routine holds) (start : holds broker turns)
    (clock : Instant) (frames : List Frame) :
    holds (broker.receiveAll routine clock frames).2
      (turns ++ broker.turnsOfFrames routine clock frames) := by
  induction frames generalizing broker turns with
  | nil =>
    rw [turnsOfFrames, List.append_nil]
    exact start
  | cons frame rest ih =>
    rw [turnsOfFrames, ← List.append_assoc]
    exact ih (invariant.receive start clock frame)

theorem ingest (invariant : AnswerInvariant routine holds) (start : holds broker turns)
    (clock : Instant) (responses : Bytes) :
    holds (broker.ingest routine clock responses).2
      (turns ++ broker.turnsOfFrames routine clock (Batch.frames .response responses)) :=
  invariant.receiveAll start clock _

theorem processRetries (invariant : AnswerInvariant routine holds) (start : holds broker turns)
    (clock now : Instant) :
    holds (broker.processRetries routine clock now).2
      (turns ++ broker.turnsOfRetries routine clock now) := by
  fun_induction Broker.processRetries routine broker clock now generalizing turns with
  | case1 broker queue idle =>
    rw [turnsOfRetries_idle idle, Queue.takeDue_none idle, List.append_nil]
    exact start
  | case2 broker op queue due count after rest ih =>
    rw [turnsOfRetries_due due, List.append_cons]
    rw [rest] at ih
    refine ih ?_
    rw [resume_due routine broker clock now]
    exact invariant.turn broker _ turns start (.resumption due)

end AnswerInvariant

namespace TurnInvariant

variable {holds : Broker → List Turn → Prop} {turns : List Turn}

theorem of_loops {always : Broker → Prop} {holds : Broker → List Turn → Prop}
    (loops : LoopInvariant routine always)
    (count : ∀ broker counters turns, holds broker turns → holds { broker with counters } turns)
    (turn : ∀ broker turn turns, always broker → holds broker turns → Arises broker turn →
      holds (turn.after routine) (turns ++ [turn]))
    (handBack : ∀ broker hints turns, always broker → holds broker turns →
      holds { broker with queue := (broker.queue.handBack hints).2 } turns)
    (fetch : ∀ broker older run left turns, always broker → holds broker turns →
      broker.queue.pending = older ++ (run ++ left) →
      holds { broker with
        queue := run.foldl Queue.launch { broker.queue with pending := older ++ left } } turns) :
    TurnInvariant routine fun broker turns => always broker ∧ holds broker turns where
  toAnswerInvariant := .of_loops loops count turn
  write broker turns start := ⟨loops.write broker start.1, count broker _ turns start.2⟩
  handBack broker hints turns start :=
    ⟨loops.handBack broker hints start.1, handBack broker hints turns start.1 start.2⟩
  fetch broker older run left turns start cut :=
    ⟨loops.fetch broker older run left start.1 cut,
      fetch broker older run left turns start.1 start.2 cut⟩

theorem fetching (invariant : TurnInvariant routine holds) (turns : List Turn) :
    FetchInvariant fun broker _ _ => holds broker turns where
  write broker _ _ _ _ start _ := invariant.write broker turns start
  handBack broker _ _ start := invariant.handBack broker _ turns start
  fetch broker _ older run left start cut := invariant.fetch broker older run left turns start cut

theorem pollExchange (invariant : TurnInvariant routine holds) (start : holds broker turns)
    (now : Instant) (deadline : Option Instant) (buffer : Buffer) :
    holds (broker.pollExchange routine now deadline buffer).2
      (turns ++ broker.turnsOfPoll routine now deadline buffer) := by
  have fetching := invariant.fetching turns
  have taken : ∀ {fetched queue},
      broker.queue.dequeue now deadline buffer.size none = (fetched, queue) →
      holds { broker with queue } turns := by
    intro fetched queue result
    rcases fetching.dequeue (.ofBuffer buffer) start result with ⟨_, -, moved⟩ | ⟨rfl, -⟩
    · exact moved
    · exact start
  unfold Broker.pollExchange turnsOfPoll
  split
  · next wake queue asleep =>
    rw [asleep, List.append_nil]
    exact taken asleep
  · next error queue failed =>
    rw [failed, List.append_nil]
    exact taken failed
  · next batch queue fetched =>
    have handed := fetching.handOver now (.ofBuffer buffer) batch (taken fetched)
    rw [fetched]
    dsimp only
    split
    · exact invariant.toAnswerInvariant.processRetries handed (now + 1 + 1) (now + 1)
    · rwa [List.append_nil]

theorem beginExchange (invariant : TurnInvariant routine holds) (start : holds broker turns)
    (now : Instant) (responses : Bytes) (room : Nat) :
    holds (broker.beginExchange routine now responses room).2
      (turns ++ (broker.turnsOfFrames routine now (Batch.frames .response responses)
        ++ if room = 0 then []
          else (broker.ingest routine now responses).2.turnsOfRetries routine (now + 1) now)) := by
  have ingested := invariant.toAnswerInvariant.ingest start now responses
  rw [← List.append_assoc]
  unfold Broker.beginExchange
  dsimp only
  split
  · rwa [List.append_nil]
  · have resumed := invariant.toAnswerInvariant.processRetries ingested (now + 1) now
    split <;> exact resumed

theorem exchange (invariant : TurnInvariant routine holds) (start : holds broker turns)
    (now : Instant) (responses : Bytes) (buffer : Buffer) (wait : Bool) :
    holds (broker.exchange routine now responses buffer wait).2
      (turns ++ broker.turnsOfExchange routine now responses buffer wait) := by
  have begun := invariant.beginExchange start now responses buffer.size
  unfold Broker.exchange turnsOfExchange
  dsimp only
  rw [← List.append_assoc]
  split
  · next begins =>
    rw [begins] at begun ⊢
    rwa [List.append_nil]
  · next begins =>
    rw [begins] at begun ⊢
    rwa [List.append_nil]
  · next after begins =>
    rw [begins] at begun ⊢
    dsimp only
    have first := invariant.pollExchange begun now (after.exchangeDeadline now wait) buffer
    rw [← List.append_assoc]
    split
    · next polls =>
      rw [polls] at first ⊢
      rwa [List.append_nil]
    · next polls =>
      rw [polls] at first ⊢
      rwa [List.append_nil]
    · next wake asleep polls =>
      rw [polls] at first ⊢
      have second := invariant.pollExchange first wake (after.exchangeDeadline now wait) buffer
      split <;> next again => rwa [again] at second

end TurnInvariant

/-- What a broker and the turns so far keep to throughout a run. -/
structure RunInvariant (routine : Routine) (holds : Broker → List Turn → Prop) : Prop
    extends TurnInvariant routine holds where
  post : ∀ broker now request turns, holds broker turns →
    holds (broker.post now request).2 turns
  cancel : ∀ broker hint turns, holds broker turns → holds (broker.cancel hint).2 turns
  removeExpired : ∀ broker now turns, holds broker turns →
    holds (broker.removeExpired now).2 turns
  stop : ∀ broker cancelAll turns, holds broker turns → holds (broker.stop cancelAll).2 turns

namespace RunInvariant

variable {holds : Broker → List Turn → Prop} {turns : List Turn}

/-- What the turns keep to in every state, callers and sweeps keep to as well. -/
theorem of_loops {always : Broker → Prop} {holds : Broker → List Turn → Prop}
    (keeps : Invariant routine always)
    (loops : TurnInvariant routine fun broker turns => always broker ∧ holds broker turns)
    (post : ∀ broker now request turns, holds broker turns →
      holds (broker.post now request).2 turns)
    (cancel : ∀ broker hint turns, holds broker turns → holds (broker.cancel hint).2 turns)
    (removeExpired : ∀ broker now turns, holds broker turns →
      holds (broker.removeExpired now).2 turns)
    (stop : ∀ broker cancelAll turns, holds broker turns →
      holds (broker.stop cancelAll).2 turns) :
    RunInvariant routine fun broker turns => always broker ∧ holds broker turns where
  toTurnInvariant := loops
  post broker now request turns start :=
    ⟨keeps.post broker now request start.1, post broker now request turns start.2⟩
  cancel broker hint turns start :=
    ⟨keeps.cancel broker hint start.1, cancel broker hint turns start.2⟩
  removeExpired broker now turns start :=
    ⟨keeps.removeExpired broker now start.1, removeExpired broker now turns start.2⟩
  stop broker cancelAll turns start :=
    ⟨keeps.stop broker cancelAll start.1, stop broker cancelAll turns start.2⟩

theorem act (invariant : RunInvariant routine holds) (start : holds broker turns)
    (action : Action) :
    holds (broker.act routine action) (turns ++ broker.turnsBy routine action) := by
  cases action with
  | exchange now responses buffer wait =>
    exact invariant.toTurnInvariant.exchange start now responses buffer wait
  | ingest now responses => exact invariant.toAnswerInvariant.ingest start now responses
  | processRetries clock now => exact invariant.toAnswerInvariant.processRetries start clock now
  | post now request =>
    rw [turnsBy, List.append_nil]
    exact invariant.post broker now request turns start
  | cancel hint =>
    rw [turnsBy, List.append_nil]
    exact invariant.cancel broker hint turns start
  | removeExpired now =>
    rw [turnsBy, List.append_nil]
    exact invariant.removeExpired broker now turns start
  | stop cancelAll =>
    rw [turnsBy, List.append_nil]
    exact invariant.stop broker cancelAll turns start

theorem run (invariant : RunInvariant routine holds) (start : holds broker turns)
    (actions : List Action) :
    holds (broker.run routine actions) (turns ++ broker.turns routine actions) := by
  induction actions generalizing broker turns with
  | nil =>
    rw [Broker.turns, along, List.append_nil]
    exact start
  | cons action rest ih =>
    rw [Broker.turns, along, ← List.append_assoc]
    exact ih (invariant.act start action)

end RunInvariant

/-! ### In hand -/

/-- A broker at some point of a run, with operations that were taken out of its queue in `hand`. -/
def Audited (hand : List Operation) (broker : Broker) : Prop :=
  ∃ accepted silent, Ledger accepted hand silent broker

theorem audited_new (config : Config) : Audited [] (new config) := ⟨[], 0, ledger_new config⟩

theorem invariant_audited (routine : Routine) : Invariant routine (Audited []) where
  receive broker clock frame := by
    rintro ⟨accepted, silent, ledger⟩
    obtain ⟨missed, kept, -⟩ := (books_loops routine broker accepted silent).receive broker clock
      frame ⟨silent, ledger, .refl broker silent⟩
    exact ⟨accepted, missed, kept⟩
  resume broker clock now op queue := by
    rintro ⟨accepted, silent, ledger⟩ due
    obtain ⟨missed, kept, -⟩ := (books_loops routine broker accepted silent).resume broker clock
      now op queue ⟨silent, ledger, .refl broker silent⟩ due
    exact ⟨accepted, missed, kept⟩
  write broker := by
    rintro ⟨accepted, silent, ledger⟩
    obtain ⟨missed, kept, -⟩ := (books_loops routine broker accepted silent).write broker
      ⟨silent, ledger, .refl broker silent⟩
    exact ⟨accepted, missed, kept⟩
  handBack broker hints := by
    rintro ⟨accepted, silent, ledger⟩
    exact ⟨accepted, silent, ledger.handBack hints⟩
  fetch broker older run left := by
    rintro ⟨accepted, silent, ledger⟩ cut
    obtain ⟨missed, kept, -⟩ := (books_loops routine broker accepted silent).fetch broker older
      run left ⟨silent, ledger, .refl broker silent⟩ cut
    exact ⟨accepted, missed, kept⟩
  post broker now request := by
    rintro ⟨accepted, silent, ledger⟩
    exact ⟨_, silent, ledger.post now request⟩
  cancel broker hint := by
    rintro ⟨accepted, silent, ledger⟩
    exact ⟨accepted, silent, ledger.cancel hint⟩
  removeExpired broker now := by
    rintro ⟨accepted, silent, ledger⟩
    exact ⟨accepted, silent, ledger.removeExpired now⟩
  stop broker cancelAll := by
    rintro ⟨accepted, silent, ledger⟩
    exact ⟨accepted, silent, ledger.stop cancelAll⟩

theorem Arises.inHand {turn : Turn} (arises : Arises broker turn) (audited : Audited [] broker) :
    Audited [turn.op] turn.broker := by
  obtain ⟨accepted, silent, ledger⟩ := audited
  cases arises with
  | landing landed => exact ⟨accepted, silent, ledger.land landed⟩
  | resumption due => exact ⟨accepted, silent, (ledger.takeDue due).rename rfl rfl⟩

namespace Audited

variable {hand : List Operation}

/-- Nobody is in two places, or is told twice. -/
theorem once (audited : Audited hand broker) (ticket : Nat) :
    Operation.tally broker.queue.all ticket + (broker.queue.outcomesOf ticket).length
      + Operation.tally hand ticket ≤ 1 := by
  obtain ⟨accepted, silent, ledger⟩ := audited
  have once := ledger.once ticket
  rw [Queue.tally] at once
  rw [Queue.length_outcomesOf]
  split at once <;> omega

theorem nodup_tickets (audited : Audited hand broker) :
    (broker.queue.all.map Operation.ticket).Nodup := by
  refine List.nodup_iff_count_le_one.2 fun ticket => ?_
  have once := audited.once ticket
  rw [← Operation.tally_eq_count]
  omega

/-- Nobody in flight shares a hint. -/
theorem distinct (audited : Audited hand broker) : broker.queue.Distinct := by
  obtain ⟨accepted, silent, ledger⟩ := audited
  exact ledger.distinct

/-- Who was told something is never told anything else. -/
theorem outcomesOf_eq (audited : Audited hand broker) {ticket : Nat} {outcome : Outcome}
    (told : outcome ∈ broker.queue.outcomesOf ticket) :
    broker.queue.outcomesOf ticket = [outcome] := by
  have once := audited.once ticket
  refine (Queue.outcomesOf_eq_singleton_iff ?_).2 told
  rw [Queue.tally, ← Queue.length_outcomesOf]
  omega

/-- Who is in a place was told nothing. -/
theorem outcomesOf_held (audited : Audited hand broker) {op : Operation}
    (held : op ∈ broker.queue.all) : broker.queue.outcomesOf op.ticket = [] := by
  have once := audited.once op.ticket
  have present : 0 < Operation.tally broker.queue.all op.ticket :=
    List.countP_pos_iff.2 ⟨op, held, by simp⟩
  exact List.length_eq_zero_iff.1 (by omega)

theorem ticket_lt (audited : Audited hand broker) {op : Operation}
    (held : op ∈ broker.queue.all ∨ op ∈ hand) : op.ticket < broker.nextHint := by
  obtain ⟨accepted, silent, ledger⟩ := audited
  exact (ledger.created _ (ledger.owned op held).1).2

variable {op : Operation}

/-- Who is in hand is in no place. -/
theorem alone (audited : Audited [op] broker) :
    ∀ other ∈ broker.queue.all, other.ticket ≠ op.ticket := by
  intro other held same
  have once := audited.once op.ticket
  have present : 0 < Operation.tally broker.queue.all op.ticket :=
    List.countP_pos_iff.2 ⟨other, held, by simp [same]⟩
  rw [Operation.tally_singleton, if_pos rfl] at once
  omega

/-- Who is in hand was told nothing. -/
theorem untold (audited : Audited [op] broker) : broker.queue.outcomesOf op.ticket = [] := by
  have once := audited.once op.ticket
  rw [Operation.tally_singleton, if_pos rfl] at once
  exact List.length_eq_zero_iff.1 (by omega)

end Audited

end FileBroker.Broker
