import FileBroker.Broker.Exchange
import FileBroker.Proofs.Queue.Tally

/-!
Runs of a broker: any of its operations in any order. The loops inside the operations are opened
here once. What they do comes down to five small changes, and whatever those keep, every run keeps.
-/
namespace FileBroker.Broker

/-- An operation of a broker with its arguments. -/
inductive Action where
  | post (now : Instant) (request : Request)
  | cancel (hint : Hint)
  | exchange (now : Instant) (responses : Bytes) (buffer : Buffer) (wait : Bool)
  | ingest (now : Instant) (responses : Bytes)
  | processRetries (clock now : Instant)
  | removeExpired (now : Instant)
  | stop (cancelAll : Bool)

def act (routine : Routine) (broker : Broker) : Action → Broker
  | .post now request => (broker.post now request).2
  | .cancel hint => (broker.cancel hint).2
  | .exchange now responses buffer wait =>
    (broker.exchange routine now responses buffer wait).2
  | .ingest now responses => (broker.ingest routine now responses).2
  | .processRetries clock now => (broker.processRetries routine clock now).2
  | .removeExpired now => (broker.removeExpired now).2
  | .stop cancelAll => (broker.stop cancelAll).2

def run (routine : Routine) (broker : Broker) (actions : List Action) : Broker :=
  actions.foldl (act routine) broker

@[simp] theorem run_nil (routine : Routine) (broker : Broker) :
    broker.run routine [] = broker := rfl

@[simp] theorem run_cons (routine : Routine) (broker : Broker) (action : Action)
    (rest : List Action) :
    broker.run routine (action :: rest) = (broker.act routine action).run routine rest := rfl

theorem run_append (routine : Routine) (broker : Broker) (first second : List Action) :
    broker.run routine (first ++ second) = (broker.run routine first).run routine second :=
  List.foldl_append

/-! ### Posting -/

/-- The operation that a post creates. -/
def posted (broker : Broker) (now : Instant) (request : Request) : Operation :=
  .new broker.nextHint (request.withHint ⟨UInt64.ofNat broker.nextHint⟩)
    (if request.kind.admission = .bestEffort then none else some broker.config.operationTimeout) now

/-- A post is turned away before anything is created, or it creates an operation, which is refused
and cancelled or put behind the pending ones. -/
theorem post_cases (broker : Broker) (now : Instant) (request : Request) :
    (request.revision ≠ broker.config.revision ∧
      ∃ failure, broker.post now request = (.error failure, broker)) ∨
    ((request.revision = broker.config.revision ∧
        (broker.queue.stopped = true ∨ broker.queue.capacity ≤ broker.queue.pending.length)) ∧
      ∃ failure, broker.post now request = (.error failure,
        { broker with
          queue := broker.queue.deliver (broker.posted now request) (.error .cancelled)
          nextHint := broker.nextHint + 1
          counters := { broker.counters with rejected := broker.counters.rejected + 1 } })) ∨
    (request.revision = broker.config.revision ∧
      broker.post now request = (.ok (.new broker.nextHint ⟨UInt64.ofNat broker.nextHint⟩),
        { broker with
          queue := { broker.queue with
            lastSeq := broker.queue.lastSeq + 1
            pending := broker.queue.pending
              ++ [{ broker.posted now request with seq := broker.queue.lastSeq + 1 }] }
          nextHint := broker.nextHint + 1
          counters := { broker.counters with posted := broker.counters.posted + 1 } })) := by
  by_cases spoken : request.revision = broker.config.revision
  · right
    by_cases stopped : broker.queue.stopped = true
    · exact .inl ⟨⟨spoken, .inl stopped⟩, .cancelled, by
        simp [Broker.post, Queue.enqueue, spoken, stopped, Broker.posted]⟩
    · by_cases full : request.kind.admission = .capacityLimited ∧
          broker.queue.capacity ≤ broker.queue.pending.length
      · exact .inl ⟨⟨spoken, .inr full.2⟩, .queueFull, by
          simp [Broker.post, Queue.enqueue, spoken, stopped, full, Broker.posted]⟩
      · exact .inr ⟨spoken, by
          simp [Broker.post, Queue.enqueue, spoken, stopped, full, Broker.posted]⟩
  · exact .inl ⟨spoken, _, by simp [Broker.post, spoken]; rfl⟩

section Posts

variable {broker after : Broker} {now : Instant} {request : Request}

theorem post_eq_ok {reply : Reply} (accepted : broker.post now request = (.ok reply, after)) :
    request.revision = broker.config.revision ∧
      reply = .new broker.nextHint ⟨UInt64.ofNat broker.nextHint⟩ ∧
      after = { broker with
        queue := { broker.queue with
          lastSeq := broker.queue.lastSeq + 1
          pending := broker.queue.pending
            ++ [{ broker.posted now request with seq := broker.queue.lastSeq + 1 }] }
        nextHint := broker.nextHint + 1
        counters := { broker.counters with posted := broker.counters.posted + 1 } } := by
  rcases post_cases broker now request with ⟨-, _, same⟩ | ⟨-, _, same⟩ | ⟨spoken, same⟩
  · rw [accepted] at same
    cases same
  · rw [accepted] at same
    cases same
  · rw [accepted, Prod.mk.injEq, Except.ok.injEq] at same
    exact ⟨spoken, same⟩

theorem post_eq_error {failure : Failure}
    (refused : broker.post now request = (.error failure, after)) :
    after = broker ∨
      after = { broker with
        queue := broker.queue.deliver (broker.posted now request) (.error .cancelled)
        nextHint := broker.nextHint + 1
        counters := { broker.counters with rejected := broker.counters.rejected + 1 } } := by
  rcases post_cases broker now request with ⟨-, _, same⟩ | ⟨-, _, same⟩ | ⟨-, same⟩
  · rw [refused, Prod.mk.injEq] at same
    exact .inl same.2
  · rw [refused, Prod.mk.injEq] at same
    exact .inr same.2
  · rw [refused] at same
    cases same

theorem config_post (broker : Broker) (now : Instant) (request : Request) :
    (broker.post now request).2.config = broker.config := by
  rcases post_cases broker now request with ⟨-, _, same⟩ | ⟨-, _, same⟩ | ⟨-, same⟩ <;> rw [same]

theorem nextHint_le_post (broker : Broker) (now : Instant) (request : Request) :
    broker.nextHint ≤ (broker.post now request).2.nextHint := by
  rcases post_cases broker now request with ⟨-, _, same⟩ | ⟨-, _, same⟩ | ⟨-, same⟩ <;> simp [same]

theorem retried_post (broker : Broker) (now : Instant) (request : Request) :
    (broker.post now request).2.counters.retried = broker.counters.retried := by
  rcases post_cases broker now request with ⟨-, _, same⟩ | ⟨-, _, same⟩ | ⟨-, same⟩ <;> rw [same]

/-- A post sends nobody into flight. -/
theorem inFlight_post (broker : Broker) (now : Instant) (request : Request) :
    (broker.post now request).2.queue.inFlight = broker.queue.inFlight := by
  rcases post_cases broker now request with ⟨-, _, same⟩ | ⟨-, _, same⟩ | ⟨-, same⟩
  · rw [same]
  · rw [same]
    rfl
  · rw [same]

end Posts

/-! ### Giving up -/

/-- Those whose time has come leave every place, and are told. -/
theorem queue_removeExpired (broker : Broker) (now : Instant) :
    (broker.removeExpired now).2.queue = { broker.queue with
      pending := broker.queue.pending.filter fun op => !op.isExpired now
      parked := broker.queue.parked.filter fun op => !op.isExpired now
      inFlight := broker.queue.inFlight.filter fun op => !broker.queue.canExpire now op
      delivered := ((broker.queue.pending.filter (·.isExpired now)
          ++ broker.queue.parked.filter (·.isExpired now)
          ++ broker.queue.inFlight.filter (broker.queue.canExpire now)).map
            fun op => ⟨op.ticket, .error .expired⟩).reverse ++ broker.queue.delivered } := by
  unfold removeExpired
  rw [Queue.removeExpired_eq]
  dsimp only
  rw [Queue.deliverAll_eq]

/-- Everybody leaves, and is told. -/
theorem queue_stop_all (broker : Broker) :
    (broker.stop true).2.queue = { broker.queue with
      stopped := true
      pending := []
      inFlight := []
      parked := []
      delivered := (broker.queue.all.map fun op => ⟨op.ticket, .error .cancelled⟩).reverse
        ++ broker.queue.delivered } := by
  unfold stop Queue.stop Queue.clear
  rw [if_pos rfl, Queue.deliverAll_eq]
  rfl

/-- Nobody is found under the hint, or the first one who waits under it leaves, and is told. -/
theorem queue_cancel (broker : Broker) (hint : Hint) :
    (broker.cancel hint).2.queue = broker.queue ∨
      ∃ op before after, broker.queue.pending = before ++ op :: after ∧
        (broker.cancel hint).2.queue = { broker.queue with
          pending := before ++ after
          delivered := ⟨op.ticket, .error .cancelled⟩ :: broker.queue.delivered } := by
  unfold cancel
  rcases Queue.cancel_cases broker.queue hint with
    ⟨same, -⟩ | ⟨op, before, after, whole, -, -, found⟩
  · rw [same]
    exact .inl rfl
  · rw [found]
    exact .inr ⟨op, before, after, whole, rfl⟩

/-! ### The loops -/

variable {routine : Routine} {broker : Broker}

/-- One response after the other. -/
theorem receiveAll_induction {holds : Broker → Prop} {clock : Instant} {frames : List Frame}
    (receive : ∀ broker, ∀ frame ∈ frames, holds broker →
      holds (broker.receive routine clock frame).2) (start : holds broker) :
    holds (broker.receiveAll routine clock frames).2 := by
  induction frames generalizing broker with
  | nil => exact start
  | cons frame rest ih =>
    exact ih (fun broker other member => receive broker other (List.mem_cons_of_mem _ member))
      (receive broker frame (List.mem_cons_self ..) start)

theorem ingest_induction {holds : Broker → Prop} {clock : Instant} {responses : Bytes}
    (receive : ∀ broker, ∀ frame ∈ Batch.frames .response responses, holds broker →
      holds (broker.receive routine clock frame).2) (start : holds broker) :
    holds (broker.ingest routine clock responses).2 :=
  receiveAll_induction receive start

/-- One parked operation after the other, each of them due. -/
theorem processRetries_induction {holds : Broker → Prop} {clock now : Instant}
    (resume : ∀ broker op queue, holds broker → broker.queue.takeDue now = (some op, queue) →
      holds (({ broker with queue } : Broker).resume routine clock op)) (start : holds broker) :
    holds (broker.processRetries routine clock now).2 := by
  fun_induction processRetries routine broker clock now with
  | case1 broker queue idle =>
    rw [Queue.takeDue_none idle]
    exact start
  | case2 broker op queue due count after rest ih =>
    rw [rest] at ih
    exact ih (resume broker op queue start due)

/-- What may change when a fetched batch is written out and further batches are fetched: an
operation is written, operations that cannot be written go back, or a run of pending operations
goes into flight. The state is seen with what has been written so far and what has not. -/
structure FetchInvariant (holds : Broker → Batch.Writer → List Operation → Prop) : Prop where
  write : ∀ broker writer written op rest, holds broker writer (op :: rest) →
    writer.pushEncoded op.encoded = .ok written →
    holds { broker with
      counters := { broker.counters with dispatched := broker.counters.dispatched + 1 } }
      written rest
  handBack : ∀ broker writer ops, holds broker writer ops →
    holds { broker with queue := (broker.queue.handBack (ops.map Operation.hint)).2 } writer []
  fetch : ∀ broker writer older run left, holds broker writer [] →
    broker.queue.pending = older ++ (run ++ left) →
    holds { broker with
      queue := run.foldl Queue.launch { broker.queue with pending := older ++ left } } writer run

variable {holds : Broker → Batch.Writer → List Operation → Prop}

theorem FetchInvariant.writeOut (invariant : FetchInvariant holds) {writer : Batch.Writer}
    {ops : List Operation} (start : holds broker writer ops) :
    holds (broker.writeOut writer ops).2.2 (broker.writeOut writer ops).2.1 [] := by
  induction ops generalizing broker writer with
  | nil => exact start
  | cons op rest ih =>
    unfold Broker.writeOut
    split
    · rename_i written pushed
      exact ih (invariant.write broker writer written op rest start pushed)
    · exact invariant.handBack broker writer (op :: rest) start

theorem FetchInvariant.dequeue (invariant : FetchInvariant holds) (writer : Batch.Writer)
    (start : holds broker writer []) {now : Instant} {deadline : Option Instant} {budget : Nat}
    {boundary : Option Nat} {fetched : Wait (Except QueueError (List Operation))} {queue : Queue}
    (result : broker.queue.dequeue now deadline budget boundary = (fetched, queue)) :
    (∃ run, fetched = .ready (.ok run) ∧ holds { broker with queue } writer run) ∨
      (queue = broker.queue ∧ ∀ run, fetched = .ready (.ok run) → run = []) := by
  rcases Queue.dequeue_cases broker.queue now deadline budget boundary with
    ⟨other, same, nothing⟩ | ⟨older, run, left, cut, moved⟩
  · rw [result, Prod.mk.injEq] at same
    obtain ⟨rfl, rfl⟩ := same
    exact .inr ⟨rfl, nothing⟩
  · rw [result, Prod.mk.injEq] at moved
    obtain ⟨rfl, rfl⟩ := moved
    exact .inl ⟨run, rfl, invariant.fetch broker writer older run left start cut⟩

theorem FetchInvariant.handOver (invariant : FetchInvariant holds) (now : Instant)
    (writer : Batch.Writer) (batch : List Operation) (start : holds broker writer batch) :
    holds (broker.handOver now writer batch).2 (broker.handOver now writer batch).1 [] := by
  fun_induction Broker.handOver broker now writer batch with
  | case1 broker writer batch empty =>
    rwa [List.getLast?_eq_none_iff.1 empty] at start
  | case2 broker writer batch last filled writer' broker' failed =>
    have out := invariant.writeOut start
    rwa [failed] at out
  | case3 broker writer batch last filled writer' broker' done fits next queue fetched ih =>
    have out := invariant.writeOut start
    rw [done] at out
    rcases invariant.dequeue writer' out fetched with ⟨run, same, moved⟩ | ⟨rfl, nothing⟩
    · cases same
      exact ih moved
    · rw [nothing next rfl] at ih ⊢
      exact ih out
  | case4 broker writer batch last filled writer' broker' done fits other queue failed fetched =>
    have out := invariant.writeOut start
    rw [done] at out
    rcases invariant.dequeue writer' out fetched with ⟨run, same, -⟩ | ⟨rfl, -⟩
    · exact absurd same (failed run)
    · exact out
  | case5 broker writer batch last filled writer' broker' done fits =>
    have out := invariant.writeOut start
    rwa [done] at out

/-! ### Invariants -/

/-- What the loops inside the operations keep: a predicate that survives each of the five changes
they are made of. -/
structure LoopInvariant (routine : Routine) (holds : Broker → Prop) : Prop where
  receive : ∀ broker clock frame, holds broker → holds (broker.receive routine clock frame).2
  resume : ∀ broker clock now op queue, holds broker →
    broker.queue.takeDue now = (some op, queue) →
    holds (({ broker with queue } : Broker).resume routine clock op)
  write : ∀ broker, holds broker →
    holds { broker with
      counters := { broker.counters with dispatched := broker.counters.dispatched + 1 } }
  handBack : ∀ broker hints, holds broker →
    holds { broker with queue := (broker.queue.handBack hints).2 }
  fetch : ∀ broker older run left, holds broker → broker.queue.pending = older ++ (run ++ left) →
    holds { broker with
      queue := run.foldl Queue.launch { broker.queue with pending := older ++ left } }

namespace LoopInvariant

variable {holds : Broker → Prop}

theorem toFetchInvariant (invariant : LoopInvariant routine holds) :
    FetchInvariant fun broker _ _ => holds broker where
  write broker _ _ _ _ start _ := invariant.write broker start
  handBack broker _ _ start := invariant.handBack broker _ start
  fetch broker _ older run left start cut := invariant.fetch broker older run left start cut

theorem ingest (invariant : LoopInvariant routine holds) (start : holds broker)
    (clock : Instant) (responses : Bytes) : holds (broker.ingest routine clock responses).2 :=
  ingest_induction (fun broker frame _ => invariant.receive broker clock frame) start

theorem processRetries (invariant : LoopInvariant routine holds) (start : holds broker)
    (clock now : Instant) : holds (broker.processRetries routine clock now).2 :=
  processRetries_induction (fun broker op queue => invariant.resume broker clock now op queue) start

theorem resumeDue (invariant : LoopInvariant routine holds) (start : holds broker)
    (now : Instant) : holds (broker.resumeDue routine now).2 :=
  invariant.processRetries start (now + 1) now

theorem beginExchange (invariant : LoopInvariant routine holds) (start : holds broker)
    (now : Instant) (responses : Bytes) (room : Nat) :
    holds (broker.beginExchange routine now responses room).2 := by
  have ingested := invariant.ingest start now responses
  have resumed := invariant.resumeDue ingested now
  unfold Broker.beginExchange
  dsimp only
  split
  · exact ingested
  · split <;> exact resumed

theorem pollExchange (invariant : LoopInvariant routine holds) (start : holds broker)
    (now : Instant) (deadline : Option Instant) (buffer : Buffer) :
    holds (broker.pollExchange routine now deadline buffer).2 := by
  have fetching := invariant.toFetchInvariant
  unfold Broker.pollExchange
  split
  · next wake queue asleep =>
    rcases fetching.dequeue (.ofBuffer buffer) start asleep with ⟨_, same, _⟩ | ⟨rfl, -⟩
    · cases same
    · exact start
  · next error queue failed =>
    rcases fetching.dequeue (.ofBuffer buffer) start failed with ⟨_, same, _⟩ | ⟨rfl, -⟩
    · cases same
    · exact start
  · next batch queue fetched =>
    have taken : holds { broker with queue } := by
      rcases fetching.dequeue (.ofBuffer buffer) start fetched with
        ⟨_, -, moved⟩ | ⟨rfl, -⟩
      · exact moved
      · exact start
    have handed := fetching.handOver now (.ofBuffer buffer) batch taken
    dsimp only
    split
    · exact invariant.resumeDue handed (now + 1)
    · exact handed

theorem exchange (invariant : LoopInvariant routine holds) (start : holds broker)
    (now : Instant) (responses : Bytes) (buffer : Buffer) (wait : Bool) :
    holds (broker.exchange routine now responses buffer wait).2 := by
  have begun := invariant.beginExchange start now responses buffer.size
  unfold Broker.exchange
  split
  · next begins => rwa [begins] at begun
  · next begins => rwa [begins] at begun
  · next begun' begins =>
    rw [begins] at begun
    dsimp only
    have first := invariant.pollExchange begun now (begun'.exchangeDeadline now wait) buffer
    split
    · next polls => rwa [polls] at first
    · next polls => rwa [polls] at first
    · next wake asleep polls =>
      rw [polls] at first
      have second := invariant.pollExchange first wake (begun'.exchangeDeadline now wait) buffer
      split <;> next polls => rwa [polls] at second

end LoopInvariant

/-- A predicate that every operation of a broker keeps. -/
structure Invariant (routine : Routine) (holds : Broker → Prop) : Prop
    extends LoopInvariant routine holds where
  post : ∀ broker now request, holds broker → holds (broker.post now request).2
  cancel : ∀ broker hint, holds broker → holds (broker.cancel hint).2
  removeExpired : ∀ broker now, holds broker → holds (broker.removeExpired now).2
  stop : ∀ broker cancelAll, holds broker → holds (broker.stop cancelAll).2

variable {holds : Broker → Prop}

theorem Invariant.and {also : Broker → Prop} (first : Invariant routine holds)
    (second : Invariant routine also) :
    Invariant routine fun broker => holds broker ∧ also broker where
  receive broker clock frame start :=
    ⟨first.receive broker clock frame start.1, second.receive broker clock frame start.2⟩
  resume broker clock now op queue start due :=
    ⟨first.resume broker clock now op queue start.1 due,
      second.resume broker clock now op queue start.2 due⟩
  write broker start := ⟨first.write broker start.1, second.write broker start.2⟩
  handBack broker hints start :=
    ⟨first.handBack broker hints start.1, second.handBack broker hints start.2⟩
  fetch broker older run left start cut :=
    ⟨first.fetch broker older run left start.1 cut, second.fetch broker older run left start.2 cut⟩
  post broker now request start :=
    ⟨first.post broker now request start.1, second.post broker now request start.2⟩
  cancel broker hint start := ⟨first.cancel broker hint start.1, second.cancel broker hint start.2⟩
  removeExpired broker now start :=
    ⟨first.removeExpired broker now start.1, second.removeExpired broker now start.2⟩
  stop broker cancelAll start :=
    ⟨first.stop broker cancelAll start.1, second.stop broker cancelAll start.2⟩

theorem Invariant.act (invariant : Invariant routine holds) (start : holds broker)
    (action : Action) : holds (broker.act routine action) := by
  cases action with
  | post now request => exact invariant.post broker now request start
  | cancel hint => exact invariant.cancel broker hint start
  | exchange now responses buffer wait =>
    exact invariant.toLoopInvariant.exchange start now responses buffer wait
  | ingest now responses => exact invariant.toLoopInvariant.ingest start now responses
  | processRetries clock now => exact invariant.toLoopInvariant.processRetries start clock now
  | removeExpired now => exact invariant.removeExpired broker now start
  | stop cancelAll => exact invariant.stop broker cancelAll start

theorem Invariant.run (invariant : Invariant routine holds) (start : holds broker)
    (actions : List Action) : holds (broker.run routine actions) := by
  induction actions generalizing broker with
  | nil => exact start
  | cons action rest ih => exact ih (invariant.act start action)

end FileBroker.Broker
