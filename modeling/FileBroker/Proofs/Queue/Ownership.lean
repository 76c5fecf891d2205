import FileBroker.Proofs.Queue.Tally
import FileBroker.Queue.Custody
import Mathlib.Data.List.Perm.Lattice
import Mathlib.Data.List.Range

/-!
Who owns an operation. A queue is dealt with by callers, who create operations and wait for their
outcomes, and by holders, who take operations out and complete them, park them or let go of them.
Whatever they do and in whatever order, an operation without an outcome is in exactly one place,
and nobody gets a second outcome.
-/
namespace FileBroker

/-- A queue with the operations held outside it, and the number of operations created so far. Each
of them has a ticket of its own, counted from zero. -/
structure Ensemble extends Custody where
  created : Nat

namespace Ensemble

def start (capacity : Nat) (retryDelay : Span) (expiresInFlight : Bool) : Ensemble :=
  ⟨.ofQueue (.new capacity retryDelay expiresInFlight), 0⟩

/-- What can happen to the operations of a queue. Held operations are named by their position. -/
inductive Move where
  /-- A caller creates an operation and holds it until it is offered to the queue. -/
  | create (request : Request) (timeout : Option Span) (now : Instant)
  | enqueue (index : Nat) (admission : Admission)
  | dequeue (now : Instant) (deadline : Option Instant) (budget : Nat) (boundary : Option Nat)
  | land (hint : Hint)
  | takeDue (now : Instant)
  | handBack (hints : List Hint)
  | cancel (hint : Hint)
  | removeExpired (now : Instant)
  | stop (cancelAll : Bool)
  | park (index : Nat) (now : Instant) (response : Response)
  | takeResponse (index : Nat)
  | complete (index : Nat) (outcome : Outcome)
  | giveUp (index : Nat)

/-- Gives a held operation away; the queue is what the receiver makes of it. -/
def release (ensemble : Ensemble) (index : Nat) (receive : Operation → Queue) : Ensemble :=
  match ensemble.held[index]? with
  | none => ensemble
  | some op => { ensemble with queue := receive op, held := ensemble.held.eraseIdx index }

/-- Holds what has been taken out of the queue, if anything has. -/
def take (ensemble : Ensemble) (taken : Option Operation × Queue) : Ensemble :=
  { ensemble with queue := taken.2, held := ensemble.held ++ taken.1.toList }

def step (ensemble : Ensemble) : Move → Ensemble
  | .create request timeout now =>
    { ensemble with
      held := ensemble.held ++ [.new ensemble.created request timeout now]
      created := ensemble.created + 1 }
  | .enqueue index admission =>
    ensemble.release index fun op => (ensemble.queue.enqueue op admission).2
  | .dequeue now deadline budget boundary =>
    { ensemble with queue := (ensemble.queue.dequeue now deadline budget boundary).2 }
  | .land hint => ensemble.take (ensemble.queue.land hint)
  | .takeDue now => ensemble.take (ensemble.queue.takeDue now)
  | .handBack hints => { ensemble with queue := (ensemble.queue.handBack hints).2 }
  | .cancel hint => { ensemble with queue := (ensemble.queue.cancel hint).2 }
  | .removeExpired now => { ensemble with queue := (ensemble.queue.removeExpired now).2 }
  | .stop cancelAll => { ensemble with queue := (ensemble.queue.stop cancelAll).2 }
  | .park index now response =>
    ensemble.release index fun op => ensemble.queue.park now op response
  | .takeResponse index =>
    { ensemble with held := ensemble.held.modify index fun op => op.takeResponse.2 }
  | .complete index outcome =>
    ensemble.release index fun op => ensemble.queue.deliver op outcome
  | .giveUp index =>
    ensemble.release index fun op => ensemble.queue.deliver op (.error .cancelled)

def run (ensemble : Ensemble) (moves : List Move) : Ensemble := moves.foldl step ensemble

/-! ### Places -/

/-- Where an operation without an outcome can be. -/
inductive Place where
  | pending
  | inFlight
  | parked
  | held

/-- The operations at a place. -/
def opsAt (ensemble : Ensemble) : Place → List Operation
  | .pending => ensemble.queue.pending
  | .inFlight => ensemble.queue.inFlight
  | .parked => ensemble.queue.parked
  | .held => ensemble.held

/-- Whether the operation with a ticket is at a place. -/
def IsAt (ensemble : Ensemble) (ticket : Nat) (place : Place) : Prop :=
  ticket ∈ (ensemble.opsAt place).map Operation.ticket

instance (ensemble : Ensemble) (ticket : Nat) (place : Place) :
    Decidable (ensemble.IsAt ticket place) :=
  inferInstanceAs (Decidable (_ ∈ _))

/-- How many of the operations created so far are at a place. -/
def countAt (ensemble : Ensemble) (place : Place) : Nat :=
  (List.range ensemble.created).countP fun ticket => ensemble.IsAt ticket place

/-! ### The invariant -/

/-- How often a ticket turns up, over the places and the outcomes handed out. -/
def tally (ensemble : Ensemble) (ticket : Nat) : Nat :=
  ensemble.queue.tally ticket + Operation.tally ensemble.held ticket

/-- Every ticket given out turns up once, and no other does. -/
structure Accounted (ensemble : Ensemble) : Prop where
  distinct : ensemble.queue.Distinct
  once : ∀ ticket, ensemble.tally ticket = if ticket < ensemble.created then 1 else 0

theorem accounted_start (capacity : Nat) (retryDelay : Span) (expiresInFlight : Bool) :
    (start capacity retryDelay expiresInFlight).Accounted :=
  ⟨Queue.distinct_new _ _ _, fun _ => rfl⟩

/-- A move that keeps the count of every ticket keeps the invariant. -/
theorem Accounted.of_tally_eq {before after : Ensemble} (accounted : before.Accounted)
    (distinct : after.queue.Distinct) (created : after.created = before.created)
    (same : ∀ ticket, after.tally ticket = before.tally ticket) : after.Accounted := by
  refine ⟨distinct, fun ticket => ?_⟩
  rw [same, accounted.once, created]

theorem tally_eraseIdx {ops : List Operation} {index : Nat} {op : Operation}
    (there : ops[index]? = some op) (ticket : Nat) :
    Operation.tally (ops.eraseIdx index) ticket + Operation.tally [op] ticket
      = Operation.tally ops ticket := by
  obtain ⟨inside, rfl⟩ := List.getElem?_eq_some_iff.1 there
  have whole := congrArg (Operation.tally · ticket) (List.take_append_drop index ops)
  rw [List.drop_eq_getElem_cons inside] at whole
  simp only [Operation.tally_append, Operation.tally_cons ops[index] (ops.drop (index + 1))]
    at whole
  rw [List.eraseIdx_eq_take_drop_succ, Operation.tally_append]
  omega

/-- Giving a held operation to the queue keeps the invariant if the queue counts it. -/
theorem Accounted.release {ensemble : Ensemble} (accounted : ensemble.Accounted) (index : Nat)
    (receive : Operation → Queue) (distinct : ∀ op, (receive op).Distinct)
    (counts : ∀ op ticket, (receive op).tally ticket
      = ensemble.queue.tally ticket + Operation.tally [op] ticket) :
    (ensemble.release index receive).Accounted := by
  unfold Ensemble.release
  split
  · exact accounted
  · rename_i op there
    refine accounted.of_tally_eq (distinct op) rfl fun ticket => ?_
    have left := tally_eraseIdx there ticket
    have received := counts op ticket
    simp only [tally]
    omega

/-- Taking an operation out keeps the invariant if the queue no longer counts it. -/
theorem Accounted.take {ensemble : Ensemble} (accounted : ensemble.Accounted)
    (taken : Option Operation × Queue) (distinct : taken.2.Distinct)
    (counts : ∀ ticket, taken.2.tally ticket + Operation.tally taken.1.toList ticket
      = ensemble.queue.tally ticket) : (ensemble.take taken).Accounted := by
  refine accounted.of_tally_eq distinct rfl fun ticket => ?_
  have parts := counts ticket
  simp only [tally, Ensemble.take, Operation.tally_append]
  omega

theorem Accounted.create {ensemble : Ensemble} (accounted : ensemble.Accounted)
    (request : Request) (timeout : Option Span) (now : Instant) :
    (ensemble.step (.create request timeout now)).Accounted := by
  refine ⟨accounted.distinct, fun ticket => ?_⟩
  have before := accounted.once ticket
  have single : Operation.tally [.new ensemble.created request timeout now] ticket
      = if ensemble.created = ticket then 1 else 0 := Operation.tally_singleton _ _
  simp only [tally, step, Operation.tally_append, single] at before ⊢
  grind

theorem tally_modify_takeResponse (ops : List Operation) (index ticket : Nat) :
    Operation.tally (ops.modify index fun op => op.takeResponse.2) ticket
      = Operation.tally ops ticket := by
  rw [Operation.tally_eq_count, Operation.tally_eq_count]
  congr 1
  induction ops generalizing index with
  | nil => simp
  | cons op rest ih =>
    cases index with
    | zero => rfl
    | succ index => exact congrArg (op.ticket :: ·) (ih index)

theorem Accounted.step {ensemble : Ensemble} (accounted : ensemble.Accounted) (move : Move) :
    (ensemble.step move).Accounted := by
  have distinct := accounted.distinct
  cases move with
  | create request timeout now => exact accounted.create request timeout now
  | enqueue index admission =>
    exact accounted.release index _ (fun op => Queue.distinct_enqueue distinct op admission)
      fun op => Queue.tally_enqueue _ op admission
  | dequeue now deadline budget boundary =>
    exact accounted.of_tally_eq (Queue.distinct_dequeue distinct _ _ _ _) rfl fun ticket =>
      congrArg (· + _) (Queue.tally_dequeue _ _ _ _ _ ticket)
  | land hint =>
    refine accounted.take _ (Queue.distinct_land distinct hint) fun ticket => ?_
    match landed : ensemble.queue.land hint with
    | (none, after) => rw [Queue.land_none landed]; rfl
    | (some op, after) => exact Queue.tally_land distinct landed ticket
  | takeDue now =>
    match due : ensemble.queue.takeDue now with
    | (none, after) =>
      refine accounted.take _ ?_ fun ticket => ?_
      · rwa [due, Queue.takeDue_none due]
      · rw [due, Queue.takeDue_none due]; rfl
    | (some op, after) =>
      refine accounted.take _ ?_ fun ticket => ?_
      · obtain ⟨_, _, -, same, -, -⟩ := Queue.takeDue_some due
        rw [due, same]
        exact distinct
      · rw [due]
        exact Queue.tally_takeDue due ticket
  | handBack hints =>
    exact accounted.of_tally_eq (Queue.distinct_handBack distinct hints) rfl fun ticket =>
      congrArg (· + _) (Queue.tally_handBack distinct hints ticket)
  | cancel hint =>
    exact accounted.of_tally_eq (Queue.distinct_cancel distinct hint) rfl fun ticket =>
      congrArg (· + _) (Queue.tally_cancel _ hint ticket)
  | removeExpired now =>
    exact accounted.of_tally_eq (Queue.distinct_removeExpired distinct now) rfl fun ticket =>
      congrArg (· + _) (Queue.tally_removeExpired _ now ticket)
  | stop cancelAll =>
    exact accounted.of_tally_eq (Queue.distinct_stop distinct cancelAll) rfl fun ticket =>
      congrArg (· + _) (Queue.tally_stop _ cancelAll ticket)
  | park index now response =>
    exact accounted.release index _ (fun op => Queue.distinct_park distinct now op response)
      fun op => Queue.tally_park _ now op response
  | takeResponse index =>
    exact accounted.of_tally_eq distinct rfl fun ticket =>
      congrArg (_ + ·) (tally_modify_takeResponse _ index ticket)
  | complete index outcome =>
    exact accounted.release index _ (fun _ => distinct) fun op => Queue.tally_deliver _ op outcome
  | giveUp index =>
    exact accounted.release index _ (fun _ => distinct) fun op => Queue.tally_deliver _ op _

theorem Accounted.run {ensemble : Ensemble} (accounted : ensemble.Accounted) (moves : List Move) :
    (ensemble.run moves).Accounted := by
  induction moves generalizing ensemble with
  | nil => exact accounted
  | cons move rest ih => exact ih (accounted.step move)

/-! ### What the invariant says -/

theorem tally_eq_places (ensemble : Ensemble) (ticket : Nat) :
    ensemble.tally ticket = Operation.tally (ensemble.opsAt .pending) ticket
      + Operation.tally (ensemble.opsAt .inFlight) ticket
      + Operation.tally (ensemble.opsAt .parked) ticket
      + Operation.tally (ensemble.opsAt .held) ticket
      + (ensemble.queue.outcomesOf ticket).length := by
  simp only [tally, Queue.tally, Queue.all, Operation.tally_append, Queue.length_outcomesOf,
    opsAt]
  omega

theorem isAt_iff_tally_pos (ensemble : Ensemble) (ticket : Nat) (place : Place) :
    ensemble.IsAt ticket place ↔ 0 < Operation.tally (ensemble.opsAt place) ticket := by
  rw [IsAt, Operation.tally_eq_count, List.count_pos_iff]

theorem Accounted.tally_opsAt_le {ensemble : Ensemble} (accounted : ensemble.Accounted)
    (ticket : Nat) (place : Place) : Operation.tally (ensemble.opsAt place) ticket ≤ 1 := by
  have once := accounted.once ticket
  rw [tally_eq_places] at once
  cases place <;> split at once <;> omega

theorem Accounted.nodup_opsAt {ensemble : Ensemble} (accounted : ensemble.Accounted)
    (place : Place) : ((ensemble.opsAt place).map Operation.ticket).Nodup := by
  rw [List.nodup_iff_count_le_one]
  intro ticket
  rw [← Operation.tally_eq_count]
  exact accounted.tally_opsAt_le ticket place

theorem Accounted.lt_of_isAt {ensemble : Ensemble} (accounted : ensemble.Accounted)
    {ticket : Nat} {place : Place} (there : ensemble.IsAt ticket place) :
    ticket < ensemble.created := by
  rw [isAt_iff_tally_pos] at there
  have once := accounted.once ticket
  rw [tally_eq_places] at once
  by_contra beyond
  rw [if_neg beyond] at once
  cases place <;> omega

/-- Counting the created operations at a place is counting the operations there. -/
theorem Accounted.countAt_eq {ensemble : Ensemble} (accounted : ensemble.Accounted)
    (place : Place) : ensemble.countAt place = (ensemble.opsAt place).length := by
  have same : ((List.range ensemble.created).filter fun ticket => ensemble.IsAt ticket place).Perm
      ((ensemble.opsAt place).map Operation.ticket) := by
    rw [List.perm_ext_iff_of_nodup (List.nodup_range.filter _) (accounted.nodup_opsAt place)]
    intro ticket
    rw [List.mem_filter, List.mem_range, decide_eq_true_eq]
    exact ⟨And.right, fun there => ⟨accounted.lt_of_isAt there, there⟩⟩
  rw [countAt, List.countP_eq_length_filter, same.length_eq, List.length_map]

theorem Accounted.place_unique {ensemble : Ensemble} (accounted : ensemble.Accounted)
    {ticket : Nat} {place other : Place} (there : ensemble.IsAt ticket place)
    (elsewhere : ensemble.IsAt ticket other) : other = place := by
  rw [isAt_iff_tally_pos] at there elsewhere
  have once := accounted.once ticket
  have atMost : ensemble.tally ticket ≤ 1 := by split at once <;> omega
  rw [tally_eq_places] at atMost
  cases place <;> cases other <;> simp only [reduceCtorEq] <;> omega

/-- An operation without an outcome is at exactly one place, an operation with one at none. -/
theorem Accounted.located {ensemble : Ensemble} (accounted : ensemble.Accounted) {ticket : Nat}
    (created : ticket < ensemble.created) :
    (ensemble.queue.outcomesOf ticket = [] ∧ ∃! place, ensemble.IsAt ticket place) ∨
      ((∃ outcome, ensemble.queue.outcomesOf ticket = [outcome]) ∧
        ∀ place, ¬ ensemble.IsAt ticket place) := by
  have once := accounted.once ticket
  rw [if_pos created, tally_eq_places] at once
  match ended : ensemble.queue.outcomesOf ticket with
  | [] =>
    left
    rw [ended, List.length_nil] at once
    have found : ∃ place, ensemble.IsAt ticket place := by
      by_contra nowhere
      simp only [not_exists, isAt_iff_tally_pos, Nat.not_lt, Nat.le_zero] at nowhere
      simp only [nowhere] at once
      omega
    obtain ⟨place, there⟩ := found
    exact ⟨rfl, place, there, fun other elsewhere => accounted.place_unique there elsewhere⟩
  | [outcome] =>
    right
    rw [ended, List.length_singleton] at once
    refine ⟨⟨outcome, rfl⟩, fun place => ?_⟩
    rw [isAt_iff_tally_pos]
    cases place <;> omega
  | _ :: _ :: _ =>
    rw [ended, List.length_cons, List.length_cons] at once
    omega

/-- When the queue and every hold have ended, only the outcomes are left to count. -/
theorem tally_drop (ensemble : Ensemble) (ticket : Nat) :
    (ensemble.drop.outcomesOf ticket).length = ensemble.tally ticket := by
  have cleared := Queue.tally_clear ensemble.queue ticket
  have dropped :=
    Queue.tally_deliverAll ensemble.queue.clear ensemble.held (.error .cancelled) ticket
  have empty : ensemble.drop.all = [] := by
    simp [Custody.drop, Queue.clear, Queue.all]
  have ended : ensemble.drop.tally ticket
      = ensemble.drop.delivered.countP fun delivery => delivery.ticket == ticket := by
    rw [Queue.tally, empty, Operation.tally_nil, Nat.zero_add]
  rw [Queue.length_outcomesOf, ← ended, tally]
  change (ensemble.queue.clear.deliverAll ensemble.held (.error .cancelled)).tally ticket = _
  omega

/-- After any moves, every operation ever created is at exactly one place if it has no outcome and
nowhere if it has its only one, the queue's counts are those of its places, and once everything is
dropped each operation has exactly one outcome. -/
theorem one_place_one_outcome (capacity : Nat) (retryDelay : Span) (expiresInFlight : Bool)
    (moves : List Move) :
    let ensemble := (start capacity retryDelay expiresInFlight).run moves
    (∀ ticket < ensemble.created,
      (ensemble.queue.outcomesOf ticket = [] ∧ ∃! place, ensemble.IsAt ticket place) ∨
        ((∃ outcome, ensemble.queue.outcomesOf ticket = [outcome]) ∧
          ∀ place, ¬ ensemble.IsAt ticket place)) ∧
    (∀ place, ((ensemble.opsAt place).map Operation.ticket).Nodup ∧
      ∀ op ∈ ensemble.opsAt place, op.ticket < ensemble.created) ∧
    ensemble.queue.counts =
      ⟨ensemble.countAt .pending, ensemble.countAt .inFlight, ensemble.countAt .parked⟩ ∧
    ∀ ticket < ensemble.created, ∃ outcome, ensemble.drop.outcomesOf ticket = [outcome] := by
  intro ensemble
  have accounted : ensemble.Accounted := (accounted_start _ _ _).run moves
  refine ⟨fun ticket created => accounted.located created, fun place => ⟨?_, ?_⟩, ?_, ?_⟩
  · exact accounted.nodup_opsAt place
  · intro op member
    have there : ensemble.IsAt op.ticket place := List.mem_map_of_mem member
    exact accounted.lt_of_isAt there
  · simp only [accounted.countAt_eq]
    rfl
  · intro ticket created
    rw [← List.length_eq_one_iff, tally_drop, accounted.once, if_pos created]

end Ensemble
end FileBroker
