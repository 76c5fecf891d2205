import FileBroker.Proofs.Broker.Retries
import FileBroker.Proofs.Queue.Arrival

/-!
The loop that attempts completions again. It takes operations from the list that it puts some of
them back onto, and where the delay is short or the instant far ahead it finds these due again; so
it is not the list that runs out, but the attempts that the operations in it have left.
-/
namespace FileBroker

namespace Operation

/-- The attempt that a parked operation waits for. -/
def attempt? (op : Operation) : Option Attempt :=
  op.response.map fun response => ⟨op.request, response⟩

/-- A parked operation as the loop expects it: there is something to attempt and an instant to do it
at, and it has not been put off more often than allowed. -/
structure Aside (maxRetries : Nat) (op : Operation) : Prop where
  response : op.response ≠ none
  wakes : op.notBefore ≠ none
  retries : op.retries ≤ maxRetries

/-- Whether the delay of an operation is over. -/
def Rested (now : Instant) (op : Operation) : Prop :=
  ∃ instant, op.notBefore = some instant ∧ instant ≤ now

variable {op : Operation} {maxRetries : Nat} {now : Instant}

theorem Aside.isDue_iff (aside : op.Aside maxRetries) : op.isDue now = true ↔ op.Rested now := by
  unfold isDue Rested
  cases wakes : op.notBefore with
  | none => exact absurd wakes aside.wakes
  | some instant => simp

end Operation

namespace Queue

variable {queue : Queue} {now : Instant} {op : Operation} {front back : List Operation}

/-- The first operation that is due is the one taken out. -/
theorem takeDue_of_first (whole : queue.parked = front ++ op :: back) (due : op.isDue now = true)
    (early : ∀ other ∈ front, other.isDue now = false) :
    queue.takeDue now = (some op, { queue with parked := front ++ back }) := by
  have early : ∀ other ∈ front, ¬ other.isDue now = true := fun other member => by
    simp [early other member]
  have found : queue.parked.find? (fun op => op.isDue now) = some op := by
    rw [whole]
    exact List.find?_eq_some_iff_append.2 ⟨due, front, back, rfl, by simpa using early⟩
  unfold takeDue
  rw [found]
  dsimp only
  rw [whole, List.eraseP_append_right _ early]
  simp [due]

theorem takeDue_eq_none_iff :
    queue.takeDue now = (none, queue) ↔ ∀ op ∈ queue.parked, op.isDue now = false := by
  have found : queue.parked.find? (fun op => op.isDue now) = none ↔
      ∀ op ∈ queue.parked, op.isDue now = false := by simp
  unfold takeDue
  rw [← found]
  cases queue.parked.find? fun op => op.isDue now <;> simp

end Queue

namespace Broker

variable {routine : Routine} {settings : Config} {now : Instant}
  {broker before middle after : Broker} {op : Operation} {ops : List Operation}
  {turns : List Turn}

/-! ### The order of parking -/

/-- The operation that a turn parks, if it does. -/
def Turn.parks? (routine : Routine) (turn : Turn) : Option Operation :=
  match turn.answer, turn.word? routine with
  | .ok response, none => some (turn.parked response)
  | _, _ => none

/-- Who is parked in a turn is parked behind all others. -/
theorem Turn.parked_after_eq (routine : Routine) (turn : Turn) :
    (turn.after routine).queue.parked
      = turn.broker.queue.parked ++ (turn.parks? routine).toList := by
  unfold parks?
  rcases turn.after_cases routine with
    ⟨outcome, said, told⟩ | ⟨response, answered, silent, -, -, put⟩
  · rw [told, said]
    cases turn.answer <;> exact (List.append_nil _).symm
  · rw [put, answered, silent]
    rfl

/-- Those who are parked stand in the order in which they were parked, last put off last. -/
def ParkedInTurn (routine : Routine) (broker : Broker) (turns : List Turn) : Prop :=
  broker.queue.parked.Sublist (turns.filterMap (Turn.parks? routine))

/-- Nobody who is taken in hand changes places with those that stay. -/
theorem Arises.parked {turn : Turn} (arises : Arises broker turn) :
    turn.broker.queue.parked.Sublist broker.queue.parked := by
  cases arises with
  | @landing clock frame op queue landed =>
    obtain ⟨-, rfl⟩ := Queue.land_some landed
    exact .refl _
  | @resumption clock now op queue due =>
    obtain ⟨front, back, whole, rfl, -⟩ := Queue.takeDue_some due
    rw [whole]
    exact (List.Sublist.refl front).append (List.sublist_cons_self op back)

theorem ParkedInTurn.concat (inTurn : ParkedInTurn routine broker turns) {turn : Turn}
    (arises : Arises broker turn) :
    ParkedInTurn routine (turn.after routine) (turns ++ [turn]) := by
  have single : [turn].filterMap (Turn.parks? routine) = (turn.parks? routine).toList := by
    rw [List.filterMap_cons]
    cases turn.parks? routine <;> rfl
  unfold ParkedInTurn
  rw [Turn.parked_after_eq, List.filterMap_append, single]
  exact (arises.parked.trans inTurn).append (.refl _)

/-- Parked operations may be given up. -/
theorem ParkedInTurn.shrink (inTurn : ParkedInTurn routine broker turns)
    (parked : after.queue.parked.Sublist broker.queue.parked) : ParkedInTurn routine after turns :=
  parked.trans inTurn

theorem invariant_parkedInTurn (routine : Routine) (settings : Config) :
    RunInvariant routine fun broker turns =>
      broker.SetUp settings ∧ ParkedInTurn routine broker turns := by
  have keeps := invariant_setUp routine settings
  refine .of_loops keeps (.of_loops keeps.toLoopInvariant ?_ ?_ ?_ ?_) ?_ ?_ ?_ ?_
  · exact fun _ _ _ inTurn => inTurn
  · exact fun _ _ _ _ inTurn arises => inTurn.concat arises
  · intro broker hints turns _ inTurn
    obtain ⟨waiting, flying, same, -, -⟩ := Queue.handBack_spec hints broker.queue
    rwa [same]
  · intro broker older run left turns _ inTurn _
    refine inTurn.shrink ?_
    rw [(Queue.kept_foldl_launch run _).2.2]
  · intro broker now request turns inTurn
    rcases post_cases broker now request with ⟨-, _, same⟩ | ⟨-, _, same⟩ | ⟨-, same⟩ <;>
      rw [same] <;> exact inTurn
  · intro broker hint turns inTurn
    refine inTurn.shrink ?_
    rcases queue_cancel broker hint with same | ⟨op, front, back, -, same⟩ <;> rw [same]
  · intro broker now turns inTurn
    refine inTurn.shrink ?_
    rw [queue_removeExpired]
    exact List.filter_sublist
  · intro broker cancelAll turns inTurn
    refine inTurn.shrink ?_
    cases cancelAll with
    | false => exact .refl _
    | true =>
      rw [queue_stop_all]
      exact List.nil_sublist _

/-- In every run, those who are parked stand in the order in which they were parked. -/
theorem parkedInTurn_run (routine : Routine) (settings : Config) (actions : List Action) :
    ParkedInTurn routine ((new settings).run routine actions)
      ((new settings).turns routine actions) := by
  have start : (new settings).SetUp settings ∧ ParkedInTurn routine (new settings) [] :=
    ⟨setUp_new settings, List.nil_sublist _⟩
  exact ((invariant_parkedInTurn routine settings).run start actions).2

/-! ### Rounds -/

/-- One round of the loop: the first parked operation that is due is taken out and attempted. The
clock, which decides how long it is put off if it is, may show anything. -/
def Round (routine : Routine) (now : Instant) (before : Broker) (op : Operation)
    (after : Broker) : Prop :=
  ∃ front back clock, before.queue.parked = front ++ op :: back ∧ op.isDue now = true ∧
    (∀ other ∈ front, other.isDue now = false) ∧
    after = ({ before with queue := { before.queue with parked := front ++ back } } :
      Broker).resume routine clock op

/-- Any number of rounds, with the operations that they are about. -/
inductive Rounds (routine : Routine) (now : Instant) : Broker → List Operation → Broker → Prop where
  | none (broker : Broker) : Rounds routine now broker [] broker
  | next {before middle after : Broker} {op : Operation} {ops : List Operation}
    (round : Round routine now before op middle) (rest : Rounds routine now middle ops after) :
    Rounds routine now before (op :: ops) after

theorem Round.of_takeDue {queue : Queue} (due : before.queue.takeDue now = (some op, queue))
    (clock : Instant) :
    Round routine now before op (({ before with queue } : Broker).resume routine clock op) := by
  obtain ⟨front, back, whole, rfl, isDue, early⟩ := Queue.takeDue_some due
  exact ⟨front, back, clock, whole, isDue, early, rfl⟩

namespace Round

variable (round : Round routine now before op after)
include round

theorem takeDue : ∃ queue clock, before.queue.takeDue now = (some op, queue) ∧
    after = ({ before with queue } : Broker).resume routine clock op := by
  obtain ⟨front, back, clock, whole, due, early, same⟩ := round
  exact ⟨_, clock, Queue.takeDue_of_first whole due early, same⟩

/-- A round is a turn of its operation. -/
theorem exists_turn : ∃ turn, Arises before turn ∧ turn.op = op.takeResponse.2 ∧
    turn.attempt? = op.attempt? ∧ after = turn.after routine := by
  obtain ⟨queue, clock, due, same⟩ := round.takeDue
  refine ⟨_, .resumption due, rfl, ?_, same.trans (resume_due routine before clock now op queue)⟩
  unfold Turn.attempt? resumption Operation.attempt?
  cases op.response <;> rfl

theorem isDue : op.isDue now = true := by
  obtain ⟨front, back, clock, -, due, -⟩ := round
  exact due

theorem mem_parked : op ∈ before.queue.parked := by
  obtain ⟨front, back, clock, whole, -⟩ := round
  rw [whole]
  exact List.mem_append_right front (List.mem_cons_self ..)

theorem unmoved : Unmoved before after := by
  obtain ⟨queue, clock, due, same⟩ := round.takeDue
  rw [same]
  exact unmoved_resume routine due

/-- A round uses up an attempt. -/
theorem attemptsLeft_lt : after.attemptsLeft < before.attemptsLeft := by
  obtain ⟨queue, clock, due, same⟩ := round.takeDue
  rw [same]
  exact attemptsLeft_resume_lt due

/-- A round is noted as the attempt that the operation waited for. -/
theorem attempts : after.attempts = op.attempt?.toList ++ before.attempts := by
  obtain ⟨turn, arises, -, asked, same⟩ := round.exists_turn
  rw [same, Turn.attempts_after, asked, arises.tookOut.attempts]

/-- Nobody else is taken off the list. -/
theorem stays {other : Operation} (parked : other ∈ before.queue.parked) :
    other = op ∨ other ∈ after.queue.parked := by
  obtain ⟨queue, clock, due, same⟩ := round.takeDue
  obtain ⟨front, back, whole, rfl, -⟩ := Queue.takeDue_some due
  rw [same, resume_due routine before clock now, Turn.parked_after_eq]
  rw [whole] at parked
  simp only [resumption, List.mem_append, List.mem_cons] at parked ⊢
  tauto

/-- Who is put back onto the list may be put off as often as it says. -/
theorem keeps_aside {maxRetries : Nat} (settings : before.config.maxRetries = maxRetries)
    (aside : ∀ other ∈ before.queue.parked, other.Aside maxRetries) :
    ∀ other ∈ after.queue.parked, other.Aside maxRetries := by
  obtain ⟨queue, clock, due, same⟩ := round.takeDue
  rw [same, resume_due routine before clock now]
  intro other parked
  rcases Turn.parked_after parked with stayed | ⟨response, -, -, room, rfl⟩
  · exact aside other ((Arises.resumption due).tookOut.parked other stayed)
  · exact ⟨Option.some_ne_none _, Option.some_ne_none _, settings ▸ room⟩

end Round

namespace Rounds

theorem unmoved (rounds : Rounds routine now before ops after) : Unmoved before after := by
  induction rounds with
  | none broker => exact .refl broker
  | next round _ ih => exact round.unmoved.trans ih

/-- There are no more rounds than there were attempts left, whatever the clock shows. -/
theorem length_le (rounds : Rounds routine now before ops after) :
    ops.length + after.attemptsLeft ≤ before.attemptsLeft := by
  induction rounds with
  | none broker => exact Nat.le_of_eq (Nat.zero_add _)
  | next round _ ih =>
    have used := round.attemptsLeft_lt
    rw [List.length_cons]
    omega

theorem attempts (rounds : Rounds routine now before ops after) :
    after.attempts = (ops.filterMap Operation.attempt?).reverse ++ before.attempts := by
  induction rounds with
  | none broker => rfl
  | @next before middle after op ops round _ ih =>
    rw [ih, round.attempts, List.filterMap_cons]
    cases op.attempt? <;> simp

theorem isDue (rounds : Rounds routine now before ops after) :
    ∀ op ∈ ops, op.isDue now = true := by
  induction rounds with
  | none broker => exact fun _ member => absurd member List.not_mem_nil
  | next round _ ih => exact List.forall_mem_cons.2 ⟨round.isDue, ih⟩

/-- Whoever was parked is attempted or stays where it is. -/
theorem stays (rounds : Rounds routine now before ops after) {other : Operation}
    (parked : other ∈ before.queue.parked) : other ∈ ops ∨ other ∈ after.queue.parked := by
  induction rounds with
  | none broker => exact .inr parked
  | next round _ ih =>
    rcases round.stays parked with rfl | left
    · exact .inl (List.mem_cons_self ..)
    · exact (ih left).imp_left (List.mem_cons_of_mem _)

theorem keeps_aside (rounds : Rounds routine now before ops after) {maxRetries : Nat}
    (settings : before.config.maxRetries = maxRetries)
    (aside : ∀ op ∈ before.queue.parked, op.Aside maxRetries) :
    (∀ op ∈ ops, op.Aside maxRetries) ∧ ∀ op ∈ after.queue.parked, op.Aside maxRetries := by
  induction rounds with
  | none broker => exact ⟨fun _ member => absurd member List.not_mem_nil, aside⟩
  | next round _ ih =>
    have kept := round.unmoved.config ▸ settings
    obtain ⟨attempted, left⟩ := ih kept (round.keeps_aside settings aside)
    exact ⟨List.forall_mem_cons.2 ⟨aside _ round.mem_parked, attempted⟩, left⟩

/-- Those who are parked stand in the order of parking throughout. -/
theorem parkedInTurn (rounds : Rounds routine now before ops after)
    (inTurn : ParkedInTurn routine before turns) :
    ∃ more, more.map (fun turn => turn.op.ticket) = ops.map Operation.ticket ∧
      ParkedInTurn routine after (turns ++ more) := by
  induction rounds generalizing turns with
  | none broker => exact ⟨[], rfl, (List.append_nil turns).symm ▸ inTurn⟩
  | next round _ ih =>
    obtain ⟨turn, arises, op, -, same⟩ := round.exists_turn
    obtain ⟨more, tickets, later⟩ := ih (same ▸ inTurn.concat arises)
    refine ⟨turn :: more, ?_, List.append_cons turns turn more ▸ later⟩
    rw [List.map_cons, tickets, op]
    rfl

end Rounds

/-- The loop can go on as long as anybody is due. -/
theorem no_round_iff :
    (∀ op after, ¬ Round routine now broker op after) ↔
      ∀ op ∈ broker.queue.parked, op.isDue now = false := by
  constructor
  · intro ended
    rw [← Queue.takeDue_eq_none_iff]
    rcases due : broker.queue.takeDue now with ⟨_ | op, queue⟩
    · rw [Queue.takeDue_none due]
    · exact absurd (Round.of_takeDue due now) (ended op _)
  · intro rested op after round
    have due := round.isDue
    rw [rested op round.mem_parked] at due
    cases due

/-! ### The loop -/

/-- The loop goes round until nobody is due, and counts the rounds. -/
theorem rounds_processRetries (routine : Routine) (broker : Broker) (clock now : Instant) :
    (∃ ops, (broker.processRetries routine clock now).1 = ops.length ∧
      Rounds routine now broker ops (broker.processRetries routine clock now).2) ∧
    ∀ op ∈ (broker.processRetries routine clock now).2.queue.parked, op.isDue now = false := by
  fun_induction Broker.processRetries routine broker clock now with
  | case1 broker queue idle =>
    obtain rfl := Queue.takeDue_none idle
    exact ⟨⟨[], rfl, .none broker⟩, Queue.takeDue_eq_none_iff.1 idle⟩
  | case2 broker op queue due count after rest ih =>
    rw [rest] at ih
    obtain ⟨⟨ops, counts, rounds⟩, rested⟩ := ih
    exact ⟨⟨op :: ops, congrArg (· + 1) counts, .next (.of_takeDue due clock) rounds⟩, rested⟩

/-- Where nobody is due there is nothing to do. -/
theorem processRetries_of_rested (routine : Routine) (clock : Instant)
    (rested : ∀ op ∈ broker.queue.parked, op.isDue now = false) :
    broker.processRetries routine clock now = (0, broker) := by
  have idle := Queue.takeDue_eq_none_iff.2 rested
  rw [processRetries]
  split
  · next found => rw [Queue.takeDue_none found]
  · next due =>
    rw [idle] at due
    cases due

/-- In every run, parked operations are as the loop expects them. -/
theorem aside_run (routine : Routine) (settings : Config) (actions : List Action) :
    ∀ op ∈ ((new settings).run routine actions).queue.parked, op.Aside settings.maxRetries := by
  obtain ⟨-, replays⟩ := (invariant_replays routine settings).run
    ⟨⟨setUp_new settings, audited_new settings⟩, replays_new routine settings⟩ actions
  intro op parked
  have waits := replays.parked op parked
  obtain ⟨response, held, putOff⟩ := waits.putOff
  obtain ⟨instant, wakes, -⟩ := waits.rests
  refine ⟨?_, ?_, ?_⟩
  · rw [held]
    exact Option.some_ne_none response
  · rw [wakes]
    exact Option.some_ne_none instant
  · rw [waits.retries]
    exact putOff.bounded

/-- The loop over the parked operations comes to an end, after no more rounds than the attempts that
they have left, whatever the clock shows while it runs. Each round is about the one that was parked
first of those whose delay is over, and is one attempt with the response that it waits with; nobody
is moved in line or in flight. The loop cannot end earlier than when nobody is due any more, and
then it does. -/
theorem retries_drain (routine : Routine) (settings : Config) (actions : List Action)
    (now : Instant) :
    let broker := (new settings).run routine actions
    let turns := (new settings).turns routine actions
    let left := total (broker.queue.parked.map fun op => settings.maxRetries - op.retries + 1)
    ParkedInTurn routine broker turns ∧
    (∀ op ∈ broker.queue.parked, op.Aside settings.maxRetries) ∧
    (∀ ops after, Rounds routine now broker ops after →
      ops.length ≤ left ∧
      (∀ op ∈ ops, op.Aside settings.maxRetries ∧ op.Rested now) ∧
      after.attempts = (ops.filterMap Operation.attempt?).reverse ++ broker.attempts ∧
      (∃ more, more.map (fun turn => turn.op.ticket) = ops.map Operation.ticket ∧
        ParkedInTurn routine after (turns ++ more)) ∧
      after.queue.pending = broker.queue.pending ∧
      after.queue.inFlight = broker.queue.inFlight ∧
      ((∀ op further, ¬ Round routine now after op further) ↔
        ∀ op ∈ after.queue.parked, ¬ op.Rested now)) ∧
    ∀ clock, let drained := broker.processRetries routine clock now
      (∃ ops, drained.1 = ops.length ∧ Rounds routine now broker ops drained.2) ∧
      ∀ op ∈ drained.2.queue.parked, ¬ op.Rested now := by
  intro broker turns left
  have setUp : broker.SetUp settings := setUp_run routine settings actions
  have aside : ∀ op ∈ broker.queue.parked, op.Aside settings.maxRetries :=
    aside_run routine settings actions
  have inTurn : ParkedInTurn routine broker turns := parkedInTurn_run routine settings actions
  have retries : broker.config.maxRetries = settings.maxRetries := by rw [setUp.config]
  have budget : broker.attemptsLeft = left := by
    rw [attemptsLeft, retries]
  refine ⟨inTurn, aside, fun ops after rounds => ?_, fun clock => ?_⟩
  · obtain ⟨attempted, put⟩ := rounds.keeps_aside retries aside
    have unmoved := rounds.unmoved
    refine ⟨?_, fun op member => ⟨attempted op member, ?_⟩, rounds.attempts,
      rounds.parkedInTurn inTurn, unmoved.pending, unmoved.inFlight, ?_⟩
    · have bound := rounds.length_le
      omega
    · exact (attempted op member).isDue_iff.1 (rounds.isDue op member)
    · rw [no_round_iff]
      refine forall₂_congr fun op parked => ?_
      rw [← (put op parked).isDue_iff, Bool.not_eq_true]
  · obtain ⟨⟨ops, counts, rounds⟩, rested⟩ := rounds_processRetries routine broker clock now
    refine ⟨⟨ops, counts, rounds⟩, fun op parked => ?_⟩
    have put := (rounds.keeps_aside retries aside).2 op parked
    rw [← put.isDue_iff, rested op parked]
    exact Bool.false_ne_true

end Broker
end FileBroker
