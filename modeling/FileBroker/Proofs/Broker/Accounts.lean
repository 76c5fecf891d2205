import FileBroker.Proofs.Broker.Run
import FileBroker.Proofs.Queue.Contents
import Mathlib.Data.List.Perm.Basic

/-!
The counters of a broker against what became of the operations it admitted. Every way to end an
operation raises one counter, except one: a completion put off after the broker was stopped is
cancelled by the queue, and no counter takes notice of it.
-/
namespace FileBroker

/-- How an outcome is counted. -/
inductive Ending where
  | completed
  | failed
  | expired
  | cancelled
  | protocolError
  deriving DecidableEq

def Ending.of : Outcome → Ending
  | .ok _ => .completed
  | .error (.refused _ _) | .error .queueFull => .failed
  | .error .expired => .expired
  | .error .cancelled => .cancelled
  | .error (.protocolViolation _) => .protocolError

/-- How many of the tickets have an outcome that is counted under an ending. -/
def Queue.endedAs (queue : Queue) (tickets : List Nat) (ending : Ending) : Nat :=
  tickets.countP fun ticket =>
    (queue.outcomesOf ticket).any fun outcome => Ending.of outcome = ending

namespace Broker

/-- The counter for an ending. -/
def Counters.of (counters : Counters) : Ending → Nat
  | .completed => counters.completed
  | .failed => counters.failed
  | .expired => counters.expired
  | .cancelled => counters.cancelled
  | .protocolError => counters.protocolErrors

theorem Counters.of_addOutcome (counters : Counters) (outcome : Outcome) (ending : Ending) :
    (counters.addOutcome outcome).of ending
      = counters.of ending + if Ending.of outcome = ending then 1 else 0 := by
  cases outcome with
  | ok response => cases ending <;> rfl
  | error failure => cases failure <;> cases ending <;> rfl

@[simp] theorem Counters.posted_addOutcome (counters : Counters) (outcome : Outcome) :
    (counters.addOutcome outcome).posted = counters.posted := by
  unfold addOutcome
  split <;> rfl

@[simp] theorem Counters.retried_addOutcome (counters : Counters) (outcome : Outcome) :
    (counters.addOutcome outcome).retried = counters.retried := by
  unfold addOutcome
  split <;> rfl

/-- The ticket that an operation of the broker admits, if it admits one. -/
def admittedBy (broker : Broker) : Action → List Nat
  | .post now request =>
    match (broker.post now request).1 with
    | .ok reply => [reply.ticket]
    | .error _ => []
  | _ => []

/-- The tickets of the operations that a run admits, in order. -/
def admitted (routine : Routine) (broker : Broker) : List Action → List Nat
  | [] => []
  | action :: rest =>
    broker.admittedBy action ++ (broker.act routine action).admitted routine rest

/-- The completions that an operation of the broker puts off although the broker was stopped. -/
def putOffLate (routine : Routine) (broker : Broker) (action : Action) : Nat :=
  if broker.queue.stopped then
    (broker.act routine action).counters.retried - broker.counters.retried
  else 0

/-- The completions that a run puts off after the broker was stopped. -/
def unreported (routine : Routine) (broker : Broker) : List Action → Nat
  | [] => 0
  | action :: rest =>
    broker.putOffLate routine action + (broker.act routine action).unreported routine rest

/-! ### Outcomes of the operations admitted -/

/-- How many outcomes went to the tickets and are counted under an ending. -/
def outcomesTo (delivered : List Delivery) (tickets : List Nat) (ending : Ending) : Nat :=
  delivered.countP fun delivery => delivery.ticket ∈ tickets ∧ Ending.of delivery.outcome = ending

theorem outcomesTo_deliverAll (queue : Queue) {ops : List Operation} {tickets : List Nat}
    (owned : ∀ op ∈ ops, op.ticket ∈ tickets) (outcome : Outcome) (ending : Ending) :
    outcomesTo (queue.deliverAll ops outcome).delivered tickets ending
      = outcomesTo queue.delivered tickets ending
        + if Ending.of outcome = ending then ops.length else 0 := by
  have counted : outcomesTo (ops.map fun op => ⟨op.ticket, outcome⟩) tickets ending
      = if Ending.of outcome = ending then ops.length else 0 := by
    rw [outcomesTo, List.countP_map]
    split
    · next same =>
      refine List.countP_eq_length.2 fun op member => ?_
      simpa using ⟨owned op member, same⟩
    · next other =>
      refine List.countP_eq_zero.2 fun op member => ?_
      simp [other]
  rw [Queue.deliverAll_eq, ← counted]
  simp only [outcomesTo, List.countP_append, List.countP_reverse]
  omega

/-- An outcome for somebody else changes nothing. -/
theorem outcomesTo_deliver_other {queue : Queue} {op : Operation} {tickets : List Nat}
    (other : op.ticket ∉ tickets) (outcome : Outcome) (ending : Ending) :
    outcomesTo (queue.deliver op outcome).delivered tickets ending
      = outcomesTo queue.delivered tickets ending := by
  simp [outcomesTo, Queue.deliver, other]

/-- A ticket without any outcome can be added. -/
theorem outcomesTo_append_fresh {delivered : List Delivery} {tickets : List Nat} {ticket : Nat}
    (fresh : ∀ delivery ∈ delivered, delivery.ticket ≠ ticket) (ending : Ending) :
    outcomesTo delivered (tickets ++ [ticket]) ending = outcomesTo delivered tickets ending := by
  refine List.countP_congr fun delivery member => ?_
  simp [fresh delivery member]

/-! ### The ledger -/

/-- The state of a broker that admitted the `accepted` tickets, with the operations that it has just
taken out of its queue in `hand`. Of the cancelled operations, `silent` were not counted. -/
structure Ledger (accepted : List Nat) (hand : List Operation) (silent : Nat) (broker : Broker) :
    Prop where
  begun : 0 < broker.nextHint
  distinct : broker.queue.Distinct
  once : ∀ ticket, broker.queue.tally ticket + Operation.tally hand ticket
    = if 0 < ticket ∧ ticket < broker.nextHint then 1 else 0
  owned : ∀ op, op ∈ broker.queue.all ∨ op ∈ hand →
    op.ticket ∈ accepted ∧ op.hint = ⟨UInt64.ofNat op.ticket⟩
  nodup : accepted.Nodup
  created : ∀ ticket ∈ accepted, 0 < ticket ∧ ticket < broker.nextHint
  posted : broker.counters.posted = accepted.length
  settled : ∀ ending, outcomesTo broker.queue.delivered accepted ending
    = broker.counters.of ending + if ending = .cancelled then silent else 0

theorem ledger_new (config : Config) : Ledger [] [] 0 (Broker.new config) where
  begun := Nat.one_pos
  distinct := List.nodup_nil
  once ticket := by
    have empty : ¬ (0 < ticket ∧ ticket < 1) := by omega
    rw [if_neg (show ¬ (0 < ticket ∧ ticket < (Broker.new config).nextHint) from empty)]
    rfl
  owned op member := by rcases member with member | member <;> cases member
  nodup := List.nodup_nil
  created ticket member := by cases member
  posted := rfl
  settled ending := by cases ending <;> rfl

namespace Ledger

variable {routine : Routine} {broker : Broker} {accepted : List Nat} {hand : List Operation}
  {silent : Nat}

/-- Operations may change places, and pass between the queue and the hand. -/
theorem relocate (ledger : Ledger accepted hand silent broker) {queue : Queue}
    {taken : List Operation} (distinct : queue.Distinct)
    (once : ∀ ticket, queue.tally ticket + Operation.tally taken ticket
      = broker.queue.tally ticket + Operation.tally hand ticket)
    (origin : ∀ op, op ∈ queue.all ∨ op ∈ taken → ∃ other,
      (other ∈ broker.queue.all ∨ other ∈ hand) ∧ op.ticket = other.ticket ∧ op.hint = other.hint)
    (same : queue.delivered = broker.queue.delivered) :
    Ledger accepted taken silent { broker with queue } where
  begun := ledger.begun
  distinct := distinct
  once ticket := (once ticket).trans (ledger.once ticket)
  owned op member := by
    obtain ⟨other, held, ticket, hint⟩ := origin op member
    rw [ticket, hint]
    exact ledger.owned other held
  nodup := ledger.nodup
  created := ledger.created
  posted := ledger.posted
  settled ending := by
    rw [same]
    exact ledger.settled ending

/-- The operation in hand may change in all but its ticket and its hint. -/
theorem rename {op other : Operation} (ledger : Ledger accepted [op] silent broker)
    (ticket : other.ticket = op.ticket) (hint : other.hint = op.hint) :
    Ledger accepted [other] silent broker := by
  refine ledger.relocate ledger.distinct (fun number => ?_) (fun known held => ?_) rfl
  · rw [Operation.tally_singleton_congr ticket]
  · rcases held with held | held
    · exact ⟨known, .inl held, rfl, rfl⟩
    · obtain rfl := List.mem_singleton.1 held
      exact ⟨op, .inr (List.mem_singleton_self op), ticket, hint⟩

/-- The operations in hand end alike; what the counters do not take in is silent. -/
theorem deliverAll (ledger : Ledger accepted hand silent broker) (outcome : Outcome)
    (counters : Counters) (posted : counters.posted = broker.counters.posted) (missed : Nat)
    (counted : ∀ ending, counters.of ending + (if ending = .cancelled then missed else 0)
      = broker.counters.of ending + (if ending = .cancelled then silent else 0)
        + if Ending.of outcome = ending then hand.length else 0) :
    Ledger accepted [] missed
      { broker with queue := broker.queue.deliverAll hand outcome, counters } where
  begun := ledger.begun
  distinct := by
    unfold Queue.Distinct
    rw [Queue.inFlight_deliverAll]
    exact ledger.distinct
  once ticket := (Queue.tally_deliverAll broker.queue hand outcome ticket).trans
    (ledger.once ticket)
  owned op member := by
    rcases member with member | member
    · rw [Queue.deliverAll_eq] at member
      exact ledger.owned op (.inl member)
    · cases member
  nodup := ledger.nodup
  created := ledger.created
  posted := posted.trans ledger.posted
  settled ending := by
    have given := outcomesTo_deliverAll broker.queue
      (fun op member => (ledger.owned op (.inr member)).1) outcome ending
    have before := ledger.settled ending
    have after := counted ending
    dsimp only
    omega

theorem settle {op : Operation} (ledger : Ledger accepted [op] silent broker) (outcome : Outcome) :
    Ledger accepted [] silent (broker.settle op outcome) := by
  refine ledger.deliverAll outcome (broker.counters.addOutcome outcome)
    (Counters.posted_addOutcome _ _) silent fun ending => ?_
  rw [Counters.of_addOutcome, List.length_singleton]
  omega

/-- Only the counters change, and none of those that the ledger reads. -/
theorem recount (ledger : Ledger accepted hand silent broker) (counters : Counters)
    (posted : counters.posted = broker.counters.posted)
    (same : ∀ ending, counters.of ending = broker.counters.of ending) :
    Ledger accepted hand silent { broker with counters } where
  begun := ledger.begun
  distinct := ledger.distinct
  once := ledger.once
  owned := ledger.owned
  nodup := ledger.nodup
  created := ledger.created
  posted := posted.trans ledger.posted
  settled ending := by
    rw [same ending]
    exact ledger.settled ending

theorem land {queue : Queue} {hint : Hint} {op : Operation}
    (ledger : Ledger accepted [] silent broker)
    (landed : broker.queue.land hint = (some op, queue)) :
    Ledger accepted [op] silent { broker with queue } := by
  have distinct := Queue.distinct_land ledger.distinct hint
  have once := Queue.tally_land ledger.distinct landed
  rcases Queue.land_cases broker.queue hint with ⟨absent, -⟩ | ⟨found, member, -, -, present⟩
  · rw [absent] at landed
    cases landed
  · rw [present] at landed distinct
    cases landed
    refine ledger.relocate distinct once (fun other held => ?_) rfl
    refine ⟨other, .inl ?_, rfl, rfl⟩
    simp only [Queue.all, List.mem_append, List.mem_filter, List.mem_singleton] at held ⊢
    rcases held with ((waiting | flying) | parked) | rfl
    · exact .inl (.inl waiting)
    · exact .inl (.inr flying.1)
    · exact .inr parked
    · exact .inl (.inr member)

theorem takeDue {queue : Queue} {now : Instant} {op : Operation}
    (ledger : Ledger accepted [] silent broker)
    (due : broker.queue.takeDue now = (some op, queue)) :
    Ledger accepted [op] silent { broker with queue } := by
  have once := Queue.tally_takeDue due
  obtain ⟨before, rest, whole, rfl, -, -⟩ := Queue.takeDue_some due
  refine ledger.relocate ledger.distinct once (fun other held => ?_) rfl
  refine ⟨other, .inl ?_, rfl, rfl⟩
  simp only [Queue.all, whole, List.mem_append, List.mem_cons, List.not_mem_nil] at held ⊢
  tauto

theorem handBack (ledger : Ledger accepted [] silent broker) (hints : List Hint) :
    Ledger accepted [] silent { broker with queue := (broker.queue.handBack hints).2 } := by
  have distinct := Queue.distinct_handBack ledger.distinct hints
  have once := Queue.tally_handBack ledger.distinct hints
  obtain ⟨waiting, flying, same, waited, flown⟩ := Queue.handBack_spec hints broker.queue
  rw [same] at distinct once ⊢
  refine ledger.relocate distinct (fun ticket => by rw [once ticket]) (fun op held => ?_) rfl
  refine ⟨op, .inl ?_, rfl, rfl⟩
  simp only [Queue.all, List.mem_append, List.not_mem_nil, or_false] at held ⊢
  rcases held with (member | member) | member
  · exact .inl (waited op member)
  · exact .inl (.inr (flown op member).1)
  · exact .inr member

/-- As long as hints are not used twice, the operations held have hints of their own. -/
theorem nodup_hints (ledger : Ledger accepted [] silent broker)
    (unused : broker.nextHint ≤ UInt64.size) : (broker.queue.all.map Operation.hint).Nodup := by
  have tickets : (broker.queue.all.map Operation.ticket).Nodup := by
    refine List.nodup_iff_count_le_one.2 fun ticket => ?_
    have once := ledger.once ticket
    rw [← Operation.tally_eq_count]
    unfold Queue.tally at once
    split at once <;> omega
  have hints : broker.queue.all.map Operation.hint
      = (broker.queue.all.map Operation.ticket).map fun ticket => ⟨UInt64.ofNat ticket⟩ := by
    rw [List.map_map]
    exact List.map_congr_left fun op member => (ledger.owned op (.inl member)).2
  rw [hints]
  refine List.Nodup.map_on ?_ tickets
  intro first inFirst second inSecond same
  have word : ∀ ticket ∈ broker.queue.all.map Operation.ticket,
      (UInt64.ofNat ticket).toNat = ticket := by
    intro ticket member
    obtain ⟨op, held, rfl⟩ := List.mem_map.1 member
    have created := ledger.created _ (ledger.owned op (.inl held)).1
    exact UInt64.toNat_ofNat_of_lt' (by omega)
  have words := congrArg (fun hint : Hint => hint.value.toNat) same
  dsimp only at words
  rwa [word first inFirst, word second inSecond] at words

end Ledger

/-! ### Silent cancellations -/

/-- Between two states of a broker, the silent cancellations grew from `silent` to `missed`: one for
every completion put off, if the broker is stopped, and none otherwise. -/
structure Since (start : Broker) (silent missed : Nat) (broker : Broker) : Prop where
  nextHint : broker.nextHint = start.nextHint
  stopped : broker.queue.stopped = start.queue.stopped
  retried : start.counters.retried ≤ broker.counters.retried
  missed : start.nextHint ≤ UInt64.size →
    missed = silent + if start.queue.stopped then
      broker.counters.retried - start.counters.retried else 0

/-- What a ledger becomes between two posts. -/
def Books (start : Broker) (accepted : List Nat) (silent : Nat) (broker : Broker) : Prop :=
  ∃ missed, Ledger accepted [] missed broker ∧ Since start silent missed broker

theorem Since.refl (broker : Broker) (silent : Nat) : Since broker silent silent broker where
  nextHint := rfl
  stopped := rfl
  retried := Nat.le_refl _
  missed _ := by rw [Nat.sub_self]; split <;> rfl

theorem Since.quiet {start broker after : Broker} {silent missed : Nat}
    (since : Since start silent missed broker) (nextHint : after.nextHint = broker.nextHint)
    (stopped : after.queue.stopped = broker.queue.stopped)
    (retried : after.counters.retried = broker.counters.retried) :
    Since start silent missed after where
  nextHint := nextHint.trans since.nextHint
  stopped := stopped.trans since.stopped
  retried := retried ▸ since.retried
  missed unused := by
    rw [retried]
    exact since.missed unused

section Steps

variable {routine : Routine} {start broker : Broker} {accepted : List Nat} {silent missed : Nat}

theorem books_settle {op : Operation} (ledger : Ledger accepted [op] missed broker)
    (since : Since start silent missed broker) (outcome : Outcome) :
    Books start accepted silent (broker.settle op outcome) :=
  ⟨missed, ledger.settle outcome,
    since.quiet rfl rfl (Counters.retried_addOutcome broker.counters outcome)⟩

/-- The one place where an operation ends and no counter of endings moves. -/
theorem books_park {op : Operation} (ledger : Ledger accepted [op] missed broker)
    (since : Since start silent missed broker) (clock : Instant) (response : Response) :
    Books start accepted silent
      { broker with
        queue := broker.queue.park clock op response
        counters := { broker.counters with retried := broker.counters.retried + 1 } } := by
  let counters : Counters := { broker.counters with retried := broker.counters.retried + 1 }
  let parked := op.park response ((clock.after? broker.queue.retryDelay).getD clock)
  have counted : ∀ ending, counters.of ending = broker.counters.of ending := by
    intro ending
    cases ending <;> rfl
  have renamed : Ledger accepted [parked] missed broker := ledger.rename rfl rfl
  have grown : start.counters.retried ≤ counters.retried := Nat.le_succ_of_le since.retried
  unfold Queue.park
  dsimp only
  split
  · next stopped =>
    have cancelled := renamed.deliverAll (.error .cancelled) counters rfl (missed + 1) (by
      intro ending
      rw [counted ending]
      cases ending <;> simp [Ending.of]
      omega)
    refine ⟨missed + 1, cancelled, since.nextHint, since.stopped, grown, fun unused => ?_⟩
    have exactly := since.missed unused
    have before := since.retried
    rw [since.stopped] at stopped
    rw [if_pos stopped] at exactly ⊢
    dsimp only
    omega
  · next running =>
    have moved : Ledger accepted [] missed
        { broker with
          queue := { broker.queue with parked := broker.queue.parked ++ [parked] } } := by
      refine renamed.relocate ledger.distinct (fun ticket => ?_)
        (fun other held => ⟨other, ?_, rfl, rfl⟩) rfl
      · simp only [Queue.tally, Queue.all, Operation.tally_append, Operation.tally_nil]
        omega
      · simp only [Queue.all, List.mem_append, List.not_mem_nil, or_false] at held ⊢
        tauto
    refine ⟨missed, moved.recount counters rfl counted, since.nextHint, since.stopped, grown,
      fun unused => ?_⟩
    have exactly := since.missed unused
    rw [since.stopped] at running
    rw [if_neg running] at exactly ⊢
    exact exactly

theorem books_apply {op : Operation} (ledger : Ledger accepted [op] missed broker)
    (since : Since start silent missed broker) (clock : Instant) (response : Response) :
    Books start accepted silent (broker.apply routine clock op response) := by
  have noted : Ledger accepted [op] missed
      { broker with attempts := ⟨op.request, response⟩ :: broker.attempts } :=
    ⟨ledger.begun, ledger.distinct, ledger.once, ledger.owned, ledger.nodup, ledger.created,
      ledger.posted, ledger.settled⟩
  have later : Since start silent missed
      { broker with attempts := ⟨op.request, response⟩ :: broker.attempts } :=
    since.quiet rfl rfl rfl
  unfold Broker.apply
  dsimp only
  split
  · exact books_settle noted later _
  · split
    · exact books_settle noted later _
    · exact books_park noted later clock response

theorem books_receive (books : Books start accepted silent broker) (clock : Instant)
    (frame : Frame) : Books start accepted silent (broker.receive routine clock frame).2 := by
  obtain ⟨missed, ledger, since⟩ := books
  unfold Broker.receive
  split
  · next queue stale =>
    rw [Queue.land_none stale]
    refine ⟨missed, ledger.recount _ rfl fun ending => ?_, since.quiet rfl rfl rfl⟩
    cases ending <;> rfl
  · next op queue landed =>
    have taken := ledger.land landed
    have later : Since start silent missed { broker with queue } := by
      have kept := Queue.stopped_land broker.queue frame.hint
      rw [landed] at kept
      exact since.quiet rfl kept rfl
    dsimp only
    split
    · exact books_settle taken later _
    · split
      · exact books_settle taken later _
      · exact books_apply taken later clock _

theorem books_resume (books : Books start accepted silent broker) (clock now : Instant)
    (op : Operation) (queue : Queue) (due : broker.queue.takeDue now = (some op, queue)) :
    Books start accepted silent (({ broker with queue } : Broker).resume routine clock op) := by
  obtain ⟨missed, ledger, since⟩ := books
  have taken := ledger.takeDue due
  have later : Since start silent missed { broker with queue } := by
    obtain ⟨before, rest, -, rfl, -, -⟩ := Queue.takeDue_some due
    exact since.quiet rfl rfl rfl
  have emptied : Ledger accepted [op.takeResponse.2] missed { broker with queue } :=
    taken.rename rfl rfl
  unfold Broker.resume
  split
  · next response rest removed =>
    rw [removed] at emptied
    exact books_apply emptied later clock response
  · next rest removed =>
    rw [removed] at emptied
    exact books_settle emptied later _

/-- While hints are used once, nothing in flight is given up to a namesake. -/
theorem books_fetch (books : Books start accepted silent broker) {older run left : List Operation}
    (cut : broker.queue.pending = older ++ (run ++ left)) :
    Books start accepted silent
      { broker with
        queue := run.foldl Queue.launch { broker.queue with pending := older ++ left } } := by
  obtain ⟨missed, ledger, since⟩ := books
  let waiting : Queue := { broker.queue with pending := older ++ left }
  have stay : waiting.Distinct := ledger.distinct
  have distinct := Queue.distinct_foldl_launch stay run
  have once := Queue.tally_foldl_launch run waiting
  obtain ⟨flying, displaced, fetched, flown, given⟩ := Queue.foldl_launch_eq run waiting
  have alone : broker.nextHint ≤ UInt64.size → displaced = [] := by
    intro unused
    have hints := ledger.nodup_hints unused
    have some : (run ++ broker.queue.inFlight).Sublist broker.queue.all := by
      rw [Queue.all, cut, List.append_assoc, List.append_assoc, List.append_assoc]
      refine List.Sublist.trans ?_ (List.sublist_append_right older _)
      exact (List.Sublist.refl run).append ((List.sublist_append_left _ _).trans
        (List.sublist_append_right left _))
    have apart : ((waiting.inFlight ++ run).map Operation.hint).Nodup := by
      rw [List.map_append, List.nodup_append_comm, ← List.map_append]
      exact (some.map Operation.hint).nodup hints
    have nobody := congrArg (fun queue => queue.delivered.length)
      (fetched.symm.trans (Queue.foldl_launch_of_nodup apart))
    rw [Queue.deliverAll_eq] at nobody
    simpa using nobody
  rw [fetched] at distinct once ⊢
  have lifted : Ledger accepted displaced missed
      { broker with queue := { waiting with inFlight := flying } } := by
    refine ledger.relocate ?_ (fun ticket => ?_) (fun op held => ?_) rfl
    · unfold Queue.Distinct at distinct ⊢
      rwa [Queue.inFlight_deliverAll] at distinct
    · have moved := once ticket
      rw [Queue.tally_deliverAll] at moved
      rw [moved]
      simp only [waiting, Queue.tally, Queue.all, cut, Operation.tally_append, Operation.tally_nil]
      omega
    · have came : op ∈ broker.queue.inFlight ∨ op ∈ run → op ∈ broker.queue.all := by
        rw [Queue.all, cut]
        simp only [List.mem_append]
        tauto
      refine ⟨op, .inl ?_, rfl, rfl⟩
      rcases held with held | held
      · simp only [Queue.all, waiting, List.mem_append] at held
        rcases held with (member | member) | member
        · rw [Queue.all, cut]
          simp only [List.mem_append]
          tauto
        · exact came (flown op member)
        · exact List.mem_append_right _ member
      · exact came (given op held)
  have cancelled := lifted.deliverAll (.error .cancelled) broker.counters rfl
    (missed + displaced.length) (by
      intro ending
      cases ending <;> simp [Ending.of]
      omega)
  refine ⟨_, cancelled, since.nextHint, ?_, since.retried, fun unused => ?_⟩
  · rw [Queue.deliverAll_eq]
    exact since.stopped
  · rw [alone (since.nextHint ▸ unused)]
    exact since.missed unused

theorem books_loops (routine : Routine) (start : Broker) (accepted : List Nat) (silent : Nat) :
    LoopInvariant routine (Books start accepted silent) where
  receive broker clock frame books := books_receive books clock frame
  resume broker clock now op queue books due := books_resume books clock now op queue due
  write broker books := by
    obtain ⟨missed, ledger, since⟩ := books
    refine ⟨missed, ledger.recount _ rfl fun ending => ?_, since.quiet rfl rfl rfl⟩
    cases ending <;> rfl
  handBack broker hints books := by
    obtain ⟨missed, ledger, since⟩ := books
    refine ⟨missed, ledger.handBack hints, since.quiet rfl ?_ rfl⟩
    obtain ⟨waiting, flying, same, -, -⟩ := Queue.handBack_spec hints broker.queue
    rw [same]
  fetch broker older run left books cut := books_fetch books cut

end Steps

/-! ### The operations of a broker -/

namespace Ledger

variable {broker : Broker} {accepted : List Nat} {hand : List Operation} {silent : Nat}

theorem cancelled (ledger : Ledger accepted hand silent broker) :
    Ledger accepted [] silent
      { broker with
        queue := broker.queue.deliverAll hand (.error .cancelled)
        counters :=
          { broker.counters with cancelled := broker.counters.cancelled + hand.length } } := by
  refine ledger.deliverAll _ _ ?_ silent fun ending => ?_
  · rfl
  · cases ending <;> simp [Counters.of, Ending.of]
    omega

theorem expired (ledger : Ledger accepted hand silent broker) :
    Ledger accepted [] silent
      { broker with
        queue := broker.queue.deliverAll hand (.error .expired)
        counters :=
          { broker.counters with expired := broker.counters.expired + hand.length } } := by
  refine ledger.deliverAll _ _ ?_ silent fun ending => ?_
  · rfl
  · cases ending <;> simp [Counters.of, Ending.of]

theorem cancel (ledger : Ledger accepted [] silent broker) (hint : Hint) :
    Ledger accepted [] silent (broker.cancel hint).2 := by
  have once := Queue.tally_cancel broker.queue hint
  unfold Broker.cancel
  rcases Queue.cancel_cases broker.queue hint with
    ⟨absent, -⟩ | ⟨op, before, after, whole, -, -, found⟩
  · rw [absent]
    refine ledger.recount _ rfl fun ending => ?_
    cases ending <;> rfl
  · rw [found] at once ⊢
    have taken : Ledger accepted [op] silent
        { broker with queue := { broker.queue with pending := before ++ after } } := by
      refine ledger.relocate ledger.distinct (fun ticket => ?_) (fun other held => ?_) rfl
      · rw [← once ticket, Queue.tally_deliver, Operation.tally_nil, Nat.add_zero]
      · refine ⟨other, .inl ?_, rfl, rfl⟩
        simp only [Queue.all, whole, List.mem_append, List.mem_cons, List.not_mem_nil] at held ⊢
        tauto
    exact taken.cancelled

theorem removeExpired (ledger : Ledger accepted [] silent broker) (now : Instant) :
    Ledger accepted [] silent (broker.removeExpired now).2 := by
  have distinct := Queue.distinct_removeExpired ledger.distinct now
  have once := Queue.tally_removeExpired broker.queue now
  unfold Broker.removeExpired
  rw [Queue.removeExpired_eq] at distinct once ⊢
  dsimp only at distinct once ⊢
  have taken : Ledger accepted
      (broker.queue.pending.filter (·.isExpired now) ++ broker.queue.parked.filter (·.isExpired now)
        ++ broker.queue.inFlight.filter (broker.queue.canExpire now)) silent
      { broker with
        queue := { broker.queue with
          pending := broker.queue.pending.filter fun op => !op.isExpired now
          parked := broker.queue.parked.filter fun op => !op.isExpired now
          inFlight :=
            broker.queue.inFlight.filter fun op => !broker.queue.canExpire now op } } := by
    refine ledger.relocate ?_ (fun ticket => ?_) (fun op held => ⟨op, .inl ?_, rfl, rfl⟩) rfl
    · unfold Queue.Distinct at distinct
      rwa [Queue.inFlight_deliverAll] at distinct
    · rw [← once ticket, Queue.tally_deliverAll, Operation.tally_nil, Nat.add_zero]
    · simp only [Queue.all, List.mem_append, List.mem_filter] at held ⊢
      tauto
  exact taken.expired

theorem stop (ledger : Ledger accepted [] silent broker) (cancelAll : Bool) :
    Ledger accepted [] silent (broker.stop cancelAll).2 := by
  cases cancelAll with
  | false =>
    have stopped : Ledger accepted [] silent
        { broker with queue := { broker.queue with stopped := true } } :=
      ledger.relocate ledger.distinct (fun ticket => rfl) (fun op held => ⟨op, held, rfl, rfl⟩) rfl
    exact stopped.cancelled
  | true =>
    have taken : Ledger accepted broker.queue.all silent
        { broker with
          queue := { broker.queue with stopped := true, pending := [], inFlight := [],
                                       parked := [] } } := by
      refine ledger.relocate List.nodup_nil (fun ticket => ?_) (fun op held => ?_) rfl
      · simp only [Queue.tally, Queue.all, Operation.tally_append, Operation.tally_nil]
        omega
      · refine ⟨op, .inl ?_, rfl, rfl⟩
        rcases held with held | held
        · cases held
        · exact held
    exact taken.cancelled

/-- A refused post uses a ticket up, and its outcome is nobody's. -/
theorem refuse (ledger : Ledger accepted [] silent broker) {op : Operation}
    (ticket : op.ticket = broker.nextHint) :
    Ledger accepted [] silent
      { broker with
        queue := broker.queue.deliver op (.error .cancelled)
        nextHint := broker.nextHint + 1
        counters := { broker.counters with rejected := broker.counters.rejected + 1 } } where
  begun := Nat.succ_pos _
  distinct := ledger.distinct
  once other := by
    have before := ledger.once other
    have positive := ledger.begun
    dsimp only
    rw [Operation.tally_nil, Nat.add_zero] at before ⊢
    rw [Queue.tally_deliver, Operation.tally_singleton, ticket, before]
    split <;> split <;> split <;> omega
  owned other held := ledger.owned other held
  nodup := ledger.nodup
  created other member := by
    have before := ledger.created other member
    dsimp only
    omega
  posted := ledger.posted
  settled ending := by
    have stranger : op.ticket ∉ accepted := by
      intro member
      have before := ledger.created _ member
      omega
    dsimp only
    rw [outcomesTo_deliver_other stranger, ledger.settled ending]
    cases ending <;> rfl

/-- An admitted post adds a ticket that was not in use. -/
theorem accept (ledger : Ledger accepted [] silent broker) {op : Operation}
    (ticket : op.ticket = broker.nextHint) (hint : op.hint = ⟨UInt64.ofNat broker.nextHint⟩)
    (lastSeq : Nat) :
    Ledger (accepted ++ [broker.nextHint]) [] silent
      { broker with
        queue := { broker.queue with lastSeq, pending := broker.queue.pending ++ [op] }
        nextHint := broker.nextHint + 1
        counters := { broker.counters with posted := broker.counters.posted + 1 } } where
  begun := Nat.succ_pos _
  distinct := ledger.distinct
  once other := by
    have before := ledger.once other
    have positive := ledger.begun
    have single := Operation.tally_singleton op other
    rw [ticket] at single
    simp only [Queue.tally, Queue.all, Operation.tally_append, Operation.tally_nil] at before ⊢
    split at before <;> split at single <;> split <;> omega
  owned other held := by
    simp only [Queue.all, List.mem_append, List.mem_singleton, List.not_mem_nil,
      or_false] at held ⊢
    rcases held with ((waiting | rfl) | flying) | parked
    · exact (ledger.owned other (.inl (by simp [Queue.all, waiting]))).imp_left .inl
    · exact ⟨.inr ticket, by rw [hint, ticket]⟩
    · exact (ledger.owned other (.inl (by simp [Queue.all, flying]))).imp_left .inl
    · exact (ledger.owned other (.inl (by simp [Queue.all, parked]))).imp_left .inl
  nodup := by
    refine List.nodup_append.2 ⟨ledger.nodup, List.nodup_singleton _, ?_⟩
    intro before member other single
    have old := ledger.created before member
    obtain rfl := List.mem_singleton.1 single
    omega
  created other member := by
    have positive := ledger.begun
    dsimp only
    rcases List.mem_append.1 member with member | member
    · have before := ledger.created other member
      omega
    · obtain rfl := List.mem_singleton.1 member
      omega
  posted := by simp [ledger.posted]
  settled ending := by
    have fresh : ∀ delivery ∈ broker.queue.delivered, delivery.ticket ≠ broker.nextHint := by
      intro delivery member same
      have once := ledger.once broker.nextHint
      have seen : 0 < broker.queue.delivered.countP (·.ticket == broker.nextHint) :=
        List.countP_pos_iff.2 ⟨delivery, member, by simpa using same⟩
      rw [if_neg (by omega), Queue.tally] at once
      omega
    dsimp only
    rw [outcomesTo_append_fresh fresh, ledger.settled ending]
    cases ending <;> rfl

theorem post (ledger : Ledger accepted [] silent broker) (now : Instant) (request : Request) :
    Ledger (accepted ++ broker.admittedBy (.post now request)) [] silent
      (broker.post now request).2 := by
  have ticket : (broker.posted now request).ticket = broker.nextHint := rfl
  have hint : (broker.posted now request).hint = ⟨UInt64.ofNat broker.nextHint⟩ := rfl
  let op : Operation := { broker.posted now request with seq := broker.queue.lastSeq + 1 }
  unfold admittedBy
  rcases broker.post_cases now request with
    ⟨-, failure, same⟩ | ⟨-, failure, refused⟩ | ⟨-, admitted⟩
  · simpa only [same, List.append_nil] using ledger
  · simpa only [refused, List.append_nil] using ledger.refuse ticket
  · have added := @accept broker accepted silent ledger op ticket hint (broker.queue.lastSeq + 1)
    simpa only [admitted, Reply.new] using added

end Ledger

/-- One operation of the broker: what it admits is put on the ledger, and it adds one silent
cancellation for every completion it puts off after the stop. -/
theorem Ledger.act {broker : Broker} {accepted : List Nat} {silent : Nat}
    (ledger : Ledger accepted [] silent broker) (routine : Routine) (action : Action) :
    ∃ missed, Ledger (accepted ++ broker.admittedBy action) [] missed (broker.act routine action) ∧
      broker.nextHint ≤ (broker.act routine action).nextHint ∧
      ((broker.act routine action).nextHint ≤ UInt64.size →
        missed = silent + broker.putOffLate routine action) := by
  have books : Books broker accepted silent broker := ⟨silent, ledger, .refl broker silent⟩
  have loops := books_loops routine broker accepted silent
  have between : broker.admittedBy action = [] →
      Books broker accepted silent (broker.act routine action) → ∃ missed,
        Ledger (accepted ++ broker.admittedBy action) [] missed (broker.act routine action) ∧
        broker.nextHint ≤ (broker.act routine action).nextHint ∧
        ((broker.act routine action).nextHint ≤ UInt64.size →
          missed = silent + broker.putOffLate routine action) := by
    rintro nobody ⟨missed, kept, since⟩
    rw [nobody, List.append_nil]
    exact ⟨missed, kept, Nat.le_of_eq since.nextHint.symm,
      fun unused => since.missed (since.nextHint ▸ unused)⟩
  have quiet : (broker.act routine action).counters.retried = broker.counters.retried →
      silent = silent + broker.putOffLate routine action := by
    intro same
    unfold putOffLate
    rw [same, Nat.sub_self, ite_self, Nat.add_zero]
  cases action with
  | post now request =>
    exact ⟨silent, ledger.post now request, broker.nextHint_le_post now request,
      fun _ => quiet (broker.retried_post now request)⟩
  | cancel hint =>
    refine ⟨silent, ?_, Nat.le_refl _, fun _ => quiet rfl⟩
    simp only [admittedBy, List.append_nil]
    exact ledger.cancel hint
  | exchange now responses buffer wait =>
    exact between rfl (loops.exchange books now responses buffer wait)
  | ingest now responses =>
    exact between rfl (loops.ingest books now responses)
  | processRetries clock now =>
    exact between rfl (loops.processRetries books clock now)
  | removeExpired now =>
    refine ⟨silent, ?_, Nat.le_refl _, fun _ => quiet rfl⟩
    simp only [admittedBy, List.append_nil]
    exact ledger.removeExpired now
  | stop cancelAll =>
    refine ⟨silent, ?_, Nat.le_refl _, fun _ => quiet rfl⟩
    simp only [admittedBy, List.append_nil]
    exact ledger.stop cancelAll

theorem Ledger.run {broker : Broker} {accepted : List Nat} {silent : Nat}
    (ledger : Ledger accepted [] silent broker) (routine : Routine) (actions : List Action) :
    ∃ missed, Ledger (accepted ++ broker.admitted routine actions) [] missed
        (broker.run routine actions) ∧
      broker.nextHint ≤ (broker.run routine actions).nextHint ∧
      ((broker.run routine actions).nextHint ≤ UInt64.size →
        missed = silent + broker.unreported routine actions) := by
  induction actions generalizing broker accepted silent with
  | nil =>
    refine ⟨silent, ?_, Nat.le_refl _, fun _ => rfl⟩
    rwa [admitted, List.append_nil]
  | cons action rest ih =>
    obtain ⟨first, kept, grown, exactly⟩ := ledger.act routine action
    obtain ⟨missed, whole, later, altogether⟩ := ih kept
    refine ⟨missed, ?_, Nat.le_trans grown later, fun unused => ?_⟩
    · rwa [admitted, ← List.append_assoc]
    · rw [run_cons] at unused
      rw [altogether unused, exactly (Nat.le_trans later unused), unreported, Nat.add_assoc]

/-! ### Totals -/

namespace Ledger

variable {broker : Broker} {accepted : List Nat} {silent : Nat}

theorem tally_eq_one (ledger : Ledger accepted [] silent broker) {ticket : Nat}
    (member : ticket ∈ accepted) : broker.queue.tally ticket = 1 := by
  have once := ledger.once ticket
  rwa [if_pos (ledger.created ticket member), Operation.tally_nil, Nat.add_zero] at once

/-- Every admitted operation stands in one of the places or has its outcome. -/
theorem placed (ledger : Ledger accepted [] silent broker) :
    accepted.Perm (broker.queue.all.map Operation.ticket
      ++ (broker.queue.delivered.filter (·.ticket ∈ accepted)).map Delivery.ticket) := by
  have below : ∀ ticket,
      ((broker.queue.delivered.filter (·.ticket ∈ accepted)).map Delivery.ticket).count ticket
        ≤ broker.queue.delivered.countP (·.ticket == ticket) := by
    intro ticket
    rw [List.count, List.countP_map]
    exact List.filter_sublist.countP_le
  refine (List.perm_ext_iff_of_nodup ledger.nodup (List.nodup_iff_count_le_one.2 ?_)).2 ?_
  · intro ticket
    have once := ledger.once ticket
    have few := below ticket
    rw [List.count_append, ← Operation.tally_eq_count]
    rw [Queue.tally, Operation.tally_nil] at once
    split at once <;> omega
  · intro ticket
    rw [List.mem_append, List.mem_map, List.mem_map]
    refine ⟨fun member => ?_, ?_⟩
    · have once := ledger.tally_eq_one member
      rw [Queue.tally] at once
      by_cases held : Operation.tally broker.queue.all ticket = 0
      · obtain ⟨delivery, found, same⟩ := List.countP_pos_iff.1
          (show 0 < broker.queue.delivered.countP (·.ticket == ticket) by omega)
        obtain rfl : delivery.ticket = ticket := by simpa using same
        exact .inr ⟨delivery, List.mem_filter.2 ⟨found, by simpa using member⟩, rfl⟩
      · obtain ⟨op, found, same⟩ := List.countP_pos_iff.1 (Nat.pos_of_ne_zero held)
        exact .inl ⟨op, found, by simpa using same⟩
    · rintro (⟨op, held, rfl⟩ | ⟨delivery, found, rfl⟩)
      · exact (ledger.owned op (.inl held)).1
      · simpa using (List.mem_filter.1 found).2

/-- An operation that is still somewhere has no outcome. -/
theorem outcomesOf_held (ledger : Ledger accepted [] silent broker) {op : Operation}
    (held : op ∈ broker.queue.all) : broker.queue.outcomesOf op.ticket = [] := by
  have once := ledger.tally_eq_one (ledger.owned op (.inl held)).1
  have present : 0 < Operation.tally broker.queue.all op.ticket :=
    List.countP_pos_iff.2 ⟨op, held, by simp⟩
  have nothing : broker.queue.delivered.countP (·.ticket == op.ticket) = 0 := by
    rw [Queue.tally] at once
    omega
  rw [Queue.outcomesOf, List.map_eq_nil_iff, List.filter_eq_nil_iff]
  exact List.countP_eq_zero.1 nothing

theorem outcomesOf_delivered (ledger : Ledger accepted [] silent broker) {delivery : Delivery}
    (found : delivery ∈ broker.queue.delivered) (member : delivery.ticket ∈ accepted) :
    broker.queue.outcomesOf delivery.ticket = [delivery.outcome] := by
  have once := ledger.tally_eq_one member
  have single : (broker.queue.outcomesOf delivery.ticket).length ≤ 1 := by
    rw [Queue.outcomesOf, List.length_map, ← List.countP_eq_length_filter]
    rw [Queue.tally] at once
    omega
  have present : delivery.outcome ∈ broker.queue.outcomesOf delivery.ticket :=
    List.mem_map_of_mem (List.mem_filter.2 ⟨found, by simp⟩)
  cases outcomes : broker.queue.outcomesOf delivery.ticket with
  | nil =>
    rw [outcomes] at present
    cases present
  | cons outcome rest =>
    rw [outcomes, List.length_cons] at single
    obtain rfl : rest = [] := List.eq_nil_of_length_eq_zero (by omega)
    rw [outcomes, List.mem_singleton] at present
    rw [present]

theorem endedAs_eq (ledger : Ledger accepted [] silent broker) (ending : Ending) :
    broker.queue.endedAs accepted ending = outcomesTo broker.queue.delivered accepted ending := by
  let ended (ticket : Nat) : Bool :=
    (broker.queue.outcomesOf ticket).any fun outcome => Ending.of outcome = ending
  have places : (broker.queue.all.map Operation.ticket).countP ended = 0 := by
    rw [List.countP_map, List.countP_eq_zero]
    intro op held
    simp [ended, ledger.outcomesOf_held held]
  have outcomes : ((broker.queue.delivered.filter (·.ticket ∈ accepted)).map
      Delivery.ticket).countP ended = outcomesTo broker.queue.delivered accepted ending := by
    rw [List.countP_map, List.countP_filter, outcomesTo]
    refine List.countP_congr fun delivery found => ?_
    by_cases member : delivery.ticket ∈ accepted
    · simp [ended, ledger.outcomesOf_delivered found member, member]
    · simp [member]
  calc broker.queue.endedAs accepted ending
      = accepted.countP ended := rfl
    _ = _ := ledger.placed.countP_eq ended
    _ = outcomesTo broker.queue.delivered accepted ending := by
      rw [List.countP_append, places, outcomes, Nat.zero_add]

/-- The endings are all there is. -/
theorem sum_outcomesTo (delivered : List Delivery) (tickets : List Nat) :
    (delivered.filter (·.ticket ∈ tickets)).length
      = outcomesTo delivered tickets .completed + outcomesTo delivered tickets .failed
        + outcomesTo delivered tickets .expired + outcomesTo delivered tickets .cancelled
        + outcomesTo delivered tickets .protocolError := by
  induction delivered with
  | nil => rfl
  | cons delivery rest ih =>
    have split : ∀ ending, outcomesTo (delivery :: rest) tickets ending
        = outcomesTo rest tickets ending
          + if delivery.ticket ∈ tickets ∧ Ending.of delivery.outcome = ending then 1 else 0 := by
      intro ending
      simp [outcomesTo, List.countP_cons]
    by_cases member : delivery.ticket ∈ tickets
    · rw [List.filter_cons_of_pos (by simpa using member), List.length_cons, ih]
      simp only [split, member, true_and]
      cases Ending.of delivery.outcome <;> simp <;> omega
    · rw [List.filter_cons_of_neg (by simpa using member), ih]
      simp [split, member]

theorem balance (ledger : Ledger accepted [] silent broker) :
    broker.counters.posted = broker.counters.ended + broker.queue.counts.pending
      + broker.queue.counts.inFlight + broker.queue.counts.parked + silent := by
  have whole := ledger.placed.length_eq
  have endings := sum_outcomesTo broker.queue.delivered accepted
  rw [List.length_append, List.length_map, List.length_map, ← ledger.posted] at whole
  simp only [ledger.settled, Counters.of, reduceCtorEq, if_true, if_false] at endings
  simp only [Queue.all, List.length_append] at whole
  simp only [Counters.ended, Queue.counts]
  omega

end Ledger

/-- What the counters of a broker say after any run of its operations. Four of the endings are
counted once for every admitted operation that ended so. Some cancellations may be missing, and by
as many the totals are off: as long as hints are not used twice, one is missing for every completion
that was put off after the broker was stopped. -/
theorem counters_account (routine : Routine) (config : Config) (actions : List Action) :
    let start := Broker.new config
    let broker := start.run routine actions
    let accepted := start.admitted routine actions
    broker.counters.posted = accepted.length ∧
    (∀ ending, ending ≠ .cancelled →
      broker.counters.of ending = broker.queue.endedAs accepted ending) ∧
    ∃ silent,
      broker.queue.endedAs accepted .cancelled = broker.counters.cancelled + silent ∧
      broker.counters.posted = broker.counters.ended + broker.queue.counts.pending
        + broker.queue.counts.inFlight + broker.queue.counts.parked + silent ∧
      (broker.nextHint ≤ UInt64.size → silent = start.unreported routine actions) := by
  intro start broker accepted
  obtain ⟨silent, ledger, -, exactly⟩ := (ledger_new config).run routine actions
  refine ⟨ledger.posted, fun ending other => ?_, silent, ?_, ledger.balance, fun unused => ?_⟩
  · have settled := ledger.settled ending
    rw [if_neg other] at settled
    exact settled.symm.trans (ledger.endedAs_eq ending).symm
  · exact (ledger.endedAs_eq .cancelled).trans (ledger.settled .cancelled)
  · rw [exactly unused, Nat.zero_add]

end Broker
end FileBroker
