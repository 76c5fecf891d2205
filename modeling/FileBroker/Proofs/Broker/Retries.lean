import FileBroker.Proofs.Broker.Setup
import FileBroker.Proofs.Broker.Turns

/-!
How often an operation can be put off. Each turn of an operation but the last ended with the routine
asking to see the same response again; the operation keeps count of them while it is parked, and it
is parked no more often than the settings allow, each time for the delay that they demand.
-/
namespace FileBroker.Broker

variable {routine : Routine} {settings : Config} {broker after : Broker} {turn : Turn}
  {turns past : List Turn} {op : Operation}

/-- The turns of one operation. -/
def turnsOf (ticket : Nat) (turns : List Turn) : List Turn :=
  turns.filter fun turn => turn.op.ticket == ticket

theorem turnsOf_concat_self (turns : List Turn) (turn : Turn) :
    turnsOf turn.op.ticket (turns ++ [turn]) = turnsOf turn.op.ticket turns ++ [turn] := by
  simp [turnsOf]

theorem turnsOf_concat_of_ne {ticket : Nat} (other : turn.op.ticket ≠ ticket) :
    turnsOf ticket (turns ++ [turn]) = turnsOf ticket turns := by
  simp [turnsOf, other]

/-! ### One operation after the other -/

/-- Until when an operation rests after these turns. -/
def RestsUntil (settings : Config) (past : List Turn) (instant : Instant) : Prop :=
  ∃ last, past.getLast? = some last ∧
    instant = (last.clock.after? (min settings.retryDelay (Span.seconds 60))).getD last.clock

/-- In all these turns the routine was asked the same, and wanted to be asked again. -/
structure PutOff (routine : Routine) (settings : Config) (request : Request) (response : Response)
    (past : List Turn) : Prop where
  bounded : past.length ≤ settings.maxRetries
  same : ∀ turn ∈ past, turn.attempt? = some ⟨request, response⟩ ∧
    turn.verdict? routine = some .retry

/-- An operation that is parked after these turns. -/
structure Waits (routine : Routine) (settings : Config) (op : Operation) (past : List Turn) :
    Prop where
  retries : op.retries = past.length
  begun : past ≠ []
  putOff : ∃ response, op.response = some response ∧
    PutOff routine settings op.request response past
  rests : ∃ wake, op.notBefore = some wake ∧ RestsUntil settings past wake

/-- A turn that comes after the `past` ones of its operation. -/
structure Follows (routine : Routine) (settings : Config) (turn : Turn) (past : List Turn) :
    Prop where
  setUp : turn.broker.SetUp settings
  inHand : Audited [turn.op] turn.broker
  retries : turn.op.retries = past.length
  first : past = [] → turn.due = none
  again : past ≠ [] → ∃ response, turn.answer = .ok response ∧
    PutOff routine settings turn.op.request response past ∧
    ∃ due wake, turn.due = some due ∧ RestsUntil settings past wake ∧ wake ≤ due

theorem Follows.length_le (follows : Follows routine settings turn past) :
    past.length ≤ settings.maxRetries := by
  by_cases begun : past = []
  · rw [begun]
    exact Nat.zero_le _
  · obtain ⟨response, -, putOff, -⟩ := follows.again begun
    exact putOff.bounded

/-- An operation that is parked once more has been put off once more. -/
theorem Follows.parked (follows : Follows routine settings turn past) {response : Response}
    (answered : turn.answer = .ok response) (asked : turn.verdict? routine = some .retry)
    (room : turn.op.retries < turn.broker.config.maxRetries) :
    Waits routine settings (turn.parked response) (past ++ [turn]) where
  retries := by
    rw [List.length_append, List.length_singleton, ← follows.retries]
    rfl
  begun := List.append_ne_nil_of_right_ne_nil _ (List.cons_ne_nil _ _)
  putOff := by
    refine ⟨response, rfl, ?_, ?_⟩
    · rw [follows.retries, follows.setUp.config] at room
      rw [List.length_append]
      exact room
    · intro other member
      rcases List.mem_append.1 member with before | last
      · obtain ⟨response', answered', putOff, -⟩ := follows.again (List.ne_nil_of_mem before)
        obtain rfl : response = response' := Except.ok.inj (answered.symm.trans answered')
        exact putOff.same other before
      · obtain rfl := List.mem_singleton.1 last
        exact ⟨Turn.attempt?_ok answered, asked⟩
  rests := by
    refine ⟨_, rfl, turn, List.getLast?_concat, ?_⟩
    rw [follows.setUp.retryDelay]
    rfl

/-! ### The whole broker -/

/-- What is known of a broker after these turns. -/
structure Replays (routine : Routine) (settings : Config) (broker : Broker) (turns : List Turn) :
    Prop where
  untried : ∀ op, op ∈ broker.queue.pending ∨ op ∈ broker.queue.inFlight →
    op.retries = 0 ∧ op.response = none ∧ turnsOf op.ticket turns = []
  parked : ∀ op ∈ broker.queue.parked, Waits routine settings op (turnsOf op.ticket turns)
  course : ∀ earlier turn later, turns = earlier ++ turn :: later →
    Follows routine settings turn (turnsOf turn.op.ticket earlier)
  begun : ∀ turn ∈ turns, turn.op.ticket < broker.nextHint
  attempts : broker.attempts = (turns.filterMap Turn.attempt?).reverse
  kept : ∀ turn ∈ turns, (turn.after routine).queue.Grows broker.queue

theorem replays_new (routine : Routine) (settings : Config) :
    Replays routine settings (new settings) [] where
  untried op held := by rcases held with held | held <;> cases held
  parked op held := by cases held
  course earlier turn later whole := by
    rw [eq_comm, List.append_eq_nil_iff] at whole
    cases whole.2
  begun turn member := by cases member
  attempts := rfl
  kept turn member := by cases member

/-- What holds of every turn and those before it still holds if it holds of one more. -/
theorem forall_turn_concat (holds : List Turn → Turn → Prop)
    (before : ∀ earlier other later, turns = earlier ++ other :: later → holds earlier other)
    (last : holds turns turn) (earlier : List Turn) (other : Turn) (later : List Turn)
    (whole : turns ++ [turn] = earlier ++ other :: later) : holds earlier other := by
  rcases List.eq_nil_or_concat later with rfl | ⟨rest, final, rfl⟩
  · obtain ⟨rfl, single⟩ := List.append_inj' whole rfl
    cases single
    exact last
  · rw [List.concat_eq_append, ← List.cons_append, ← List.append_assoc] at whole
    exact before earlier other rest (List.append_inj' whole rfl).1

namespace Replays

/-- Operations may leave their places, and those that no worker has answered may change them. -/
theorem shrink (replays : Replays routine settings broker turns)
    (untried : ∀ op, op ∈ after.queue.pending ∨ op ∈ after.queue.inFlight →
      op ∈ broker.queue.pending ∨ op ∈ broker.queue.inFlight)
    (parked : ∀ op ∈ after.queue.parked, op ∈ broker.queue.parked)
    (nextHint : broker.nextHint ≤ after.nextHint) (attempts : after.attempts = broker.attempts)
    (grows : broker.queue.Grows after.queue) : Replays routine settings after turns where
  untried op held := replays.untried op (untried op held)
  parked op held := replays.parked op (parked op held)
  course := replays.course
  begun turn member := Nat.lt_of_lt_of_le (replays.begun turn member) nextHint
  attempts := attempts.trans replays.attempts
  kept turn member := (replays.kept turn member).trans grows

theorem post (replays : Replays routine settings broker turns) (now : Instant)
    (request : Request) : Replays routine settings (broker.post now request).2 turns := by
  rcases post_cases broker now request with ⟨-, _, same⟩ | ⟨-, _, refused⟩ | ⟨-, accepted⟩
  · rw [same]
    exact replays
  · rw [refused]
    exact replays.shrink (fun _ => id) (fun _ => id) (Nat.le_succ _) rfl
      (Queue.Grows.deliver broker.queue _ _)
  · rw [accepted]
    refine ⟨fun op held => ?_, replays.parked, replays.course, fun turn member => ?_,
      replays.attempts, replays.kept⟩
    · rcases held with waits | flies
      · rcases List.mem_append.1 waits with before | new
        · exact replays.untried op (.inl before)
        · obtain rfl := List.mem_singleton.1 new
          -- The ticket is new, so that there was no turn for it.
          refine ⟨rfl, rfl, List.filter_eq_nil_iff.2 fun turn member => ?_⟩
          have older : turn.op.ticket ≠ (broker.posted now request).ticket :=
            Nat.ne_of_lt (replays.begun turn member)
          simpa using older
      · exact replays.untried op (.inr flies)
    · exact Nat.lt_succ_of_lt (replays.begun turn member)

/-- A turn follows those that its operation had before. -/
theorem follows (replays : Replays routine settings broker turns) (setUp : broker.SetUp settings)
    (audited : Audited [] broker) (arises : Arises broker turn) :
    Follows routine settings turn (turnsOf turn.op.ticket turns) := by
  have inHand := arises.inHand audited
  cases arises with
  | @landing clock frame op queue landed =>
    rcases Queue.land_cases broker.queue frame.hint with ⟨absent, -⟩ | ⟨other, flies, -, -, present⟩
    · rw [absent] at landed
      cases landed
    · rw [present] at landed
      cases landed
      obtain ⟨fresh, -, nothing⟩ := replays.untried op (.inr flies)
      exact
        { setUp := setUp.later rfl ⟨rfl, rfl⟩
          inHand
          retries := fresh.trans (congrArg List.length nothing.symm)
          first := fun _ => rfl
          again := fun some' => absurd nothing some' }
  | @resumption clock now op queue due =>
    obtain ⟨before, rest, whole, rfl, isDue, -⟩ := Queue.takeDue_some due
    have waits := replays.parked op (by rw [whole]; simp)
    obtain ⟨response, held, putOff⟩ := waits.putOff
    obtain ⟨wake, rests, until'⟩ := waits.rests
    refine
      { setUp := setUp.later rfl ⟨rfl, rfl⟩
        inHand
        retries := waits.retries
        first := fun nothing => absurd nothing waits.begun
        again := fun _ => ⟨response, ?_, putOff, now, wake, rfl, until', ?_⟩ }
    · unfold resumption
      rw [held]
    · unfold Operation.isDue at isDue
      rw [rests] at isDue
      exact of_decide_eq_true isDue

/-- A turn is one more, for an operation that nobody else shares its ticket with. -/
theorem concat (replays : Replays routine settings turn.broker turns)
    (follows : Follows routine settings turn (turnsOf turn.op.ticket turns)) :
    Replays routine settings (turn.after routine) (turns ++ [turn]) := by
  have unmoved := turn.unmoved_after routine
  have stays : ∀ op ∈ turn.broker.queue.all,
      turnsOf op.ticket (turns ++ [turn]) = turnsOf op.ticket turns := fun op held =>
    turnsOf_concat_of_ne (follows.inHand.alone op held).symm
  refine ⟨fun op held => ?_, fun op held => ?_, ?_, fun other member => ?_, ?_,
    fun other member => ?_⟩
  · rw [unmoved.pending, unmoved.inFlight] at held
    rw [stays op (List.mem_append_left _ (List.mem_append.2 held))]
    exact replays.untried op held
  · rcases Turn.parked_after held with before | ⟨response, answered, asked, room, rfl⟩
    · rw [stays op (List.mem_append_right _ before)]
      exact replays.parked op before
    · have ticket : (turn.parked response).ticket = turn.op.ticket := rfl
      rw [ticket, turnsOf_concat_self]
      exact follows.parked answered asked room
  · exact forall_turn_concat
      (fun earlier turn => Follows routine settings turn (turnsOf turn.op.ticket earlier))
      replays.course follows
  · rw [unmoved.nextHint]
    rcases List.mem_append.1 member with before | last
    · exact replays.begun other before
    · obtain rfl := List.mem_singleton.1 last
      exact follows.inHand.ticket_lt (.inr (List.mem_singleton_self _))
  · rw [turn.attempts_after, replays.attempts, List.filterMap_append, List.reverse_append]
    cases asked : turn.attempt? <;> simp [asked]
  · rcases List.mem_append.1 member with before | last
    · exact (replays.kept other before).trans (turn.grows_after routine)
    · obtain rfl := List.mem_singleton.1 last
      exact .refl _

theorem advance (replays : Replays routine settings broker turns) (setUp : broker.SetUp settings)
    (audited : Audited [] broker) (arises : Arises broker turn) :
    Replays routine settings (turn.after routine) (turns ++ [turn]) := by
  have took := arises.tookOut
  have left : Replays routine settings turn.broker turns :=
    replays.shrink (fun op held => took.pending ▸ held.imp_right (took.inFlight op)) took.parked
      (Nat.le_of_eq took.nextHint.symm) took.attempts (.of_eq took.delivered)
  exact left.concat (replays.follows setUp audited arises)

end Replays

theorem invariant_replays (routine : Routine) (settings : Config) :
    RunInvariant routine fun broker turns =>
      (broker.SetUp settings ∧ Audited [] broker) ∧ Replays routine settings broker turns := by
  have keeps := (invariant_setUp routine settings).and (invariant_audited routine)
  refine .of_loops keeps (.of_loops keeps.toLoopInvariant ?_ ?_ ?_ ?_) ?_ ?_ ?_ ?_
  · intro broker counters turns replays
    exact replays.shrink (fun _ => id) (fun _ => id) (Nat.le_refl _) rfl (.refl _)
  · intro broker turn turns always replays arises
    exact replays.advance always.1 always.2 arises
  · intro broker hints turns _ replays
    obtain ⟨waiting, flying, same, -, -⟩ := Queue.handBack_spec hints broker.queue
    refine replays.shrink (fun _ => Queue.outstanding_handBack) (fun op held => ?_)
      (Nat.le_refl _) rfl (.of_eq ?_)
    · rwa [same] at held
    · rw [same]
  · intro broker older run left turns _ replays cut
    refine replays.shrink (fun _ => Queue.outstanding_fetch cut) (fun op held => ?_)
      (Nat.le_refl _) rfl (.foldl_launch { broker.queue with pending := older ++ left } run)
    rwa [(Queue.kept_foldl_launch run _).2.2] at held
  · exact fun broker now request turns replays => replays.post now request
  · intro broker hint turns replays
    have grows := ((invariant_extends routine broker).cancel broker hint (.refl _)).outcomes
    refine replays.shrink (fun op held => ?_) (fun op held => ?_) (Nat.le_refl _) rfl grows
    · rcases queue_cancel broker hint with same | ⟨other, before, rest, whole, same⟩
      · rwa [same] at held
      · rw [same] at held
        rw [whole]
        simp only [List.mem_append, List.mem_cons] at held ⊢
        tauto
    · rcases queue_cancel broker hint with same | ⟨other, before, rest, -, same⟩ <;>
        rwa [same] at held
  · intro broker now turns replays
    have grows := ((invariant_extends routine broker).removeExpired broker now (.refl _)).outcomes
    refine replays.shrink (fun op held => ?_) (fun op held => ?_) (Nat.le_refl _) rfl grows <;>
      rw [queue_removeExpired] at held
    · exact held.imp List.mem_of_mem_filter List.mem_of_mem_filter
    · exact List.mem_of_mem_filter held
  · intro broker cancelAll turns replays
    have grows := ((invariant_extends routine broker).stop broker cancelAll (.refl _)).outcomes
    cases cancelAll with
    | false => exact replays.shrink (fun _ => id) (fun _ => id) (Nat.le_refl _) rfl grows
    | true =>
      refine replays.shrink (fun op held => ?_) (fun op held => ?_) (Nat.le_refl _) rfl grows <;>
        rw [queue_stop_all] at held
      · rcases held with held | held <;> cases held
      · cases held

/-- If an operation had a turn, its last one followed all the others. -/
theorem Replays.last (replays : Replays routine settings broker turns) (ticket : Nat) :
    turnsOf ticket turns = [] ∨ ∃ past turn, turnsOf ticket turns = past ++ [turn] ∧
      Follows routine settings turn past := by
  rcases List.eq_nil_or_concat (turnsOf ticket turns) with nothing | ⟨past, turn, whole⟩
  · exact .inl nothing
  · rw [List.concat_eq_append] at whole
    obtain ⟨first, second, rfl, same, final⟩ := List.filter_eq_append_iff.1 whole
    obtain ⟨between, later, rfl, others, mine, -⟩ := List.filter_eq_cons_iff.1 final
    obtain rfl : turn.op.ticket = ticket := by simpa using mine
    have follows := replays.course (first ++ between) turn later (by simp)
    have past' : turnsOf turn.op.ticket (first ++ between) = past := by
      rw [turnsOf, List.filter_append, same, List.filter_eq_nil_iff.2 others, List.append_nil]
    exact .inr ⟨past, turn, whole, past' ▸ follows⟩

/-- The routine is asked about one operation only so often, and always the same. -/
theorem Replays.asked (replays : Replays routine settings broker turns) (ticket : Nat) :
    ((turnsOf ticket turns).filterMap Turn.attempt?).length ≤ settings.maxRetries + 1 ∧
      ∀ first ∈ (turnsOf ticket turns).filterMap Turn.attempt?,
        ∀ second ∈ (turnsOf ticket turns).filterMap Turn.attempt?, first = second := by
  rcases replays.last ticket with nothing | ⟨past, turn, whole, follows⟩
  · rw [nothing]
    exact ⟨Nat.zero_le _, fun first member => by cases member⟩
  · rw [whole]
    constructor
    · refine Nat.le_trans (List.length_filterMap_le ..) ?_
      rw [List.length_append, List.length_singleton]
      exact Nat.succ_le_succ follows.length_le
    · have alike : ∀ other ∈ past ++ [turn], other.attempt? = turn.attempt? := by
        intro other member
        rcases List.mem_append.1 member with before | last
        · obtain ⟨response, answered, putOff, -⟩ := follows.again (List.ne_nil_of_mem before)
          rw [(putOff.same other before).1, Turn.attempt?_ok answered]
        · rw [List.mem_singleton.1 last]
      intro first inFirst second inSecond
      obtain ⟨other, member, said⟩ := List.mem_filterMap.1 inFirst
      obtain ⟨other', member', said'⟩ := List.mem_filterMap.1 inSecond
      rw [alike other member] at said
      rw [alike other' member'] at said'
      exact Option.some.inj (said.symm.trans said')

/-- A failure that is said in a turn is all that its operation is ever told. -/
theorem Replays.told (replays : Replays routine settings broker turns)
    (audited : Audited [] broker) (member : turn ∈ turns) (inHand : Audited [turn.op] turn.broker)
    {failure : Failure} (said : turn.word? routine = some (.error failure)) :
    turn.broker.queue.outcomesOf turn.op.ticket = [] ∧
      (turn.after routine).queue.outcomesOf turn.op.ticket = [.error failure] ∧
      broker.queue.outcomesOf turn.op.ticket = [.error failure] := by
  have told := Turn.outcomesOf_after said
  rw [inHand.untold] at told
  refine ⟨inHand.untold, told, audited.outcomesOf_eq ((replays.kept turn member).keeps ?_)⟩
  rw [told]
  exact List.mem_singleton_self _

/-- The routine was asked once for each turn with a response, and nothing else. For one operation it
is asked at most one time more than the settings allow retries, always about the same request and
response. A turn comes after as many turns of its operation as the operation was put off, all of
which ended with the routine asking for a retry; and it comes no sooner than the retry delay, of at
most a minute, after the last of them. If the routine asks again, the operation expires at once when
its retries are used up, and is cancelled at once when the queue was stopped before; it is parked
otherwise. What waits or is in flight was never put off and holds no response; what is parked holds
one, and was put off at least once and no more often than allowed. So no operation is ever due
without a response. -/
theorem retries_bounded (routine : Routine) (settings : Config) (actions : List Action) :
    let broker := (new settings).run routine actions
    let turns := (new settings).turns routine actions
    broker.attempts = (turns.filterMap Turn.attempt?).reverse ∧
    (∀ ticket, let asked := (turnsOf ticket turns).filterMap Turn.attempt?
      asked.length ≤ settings.maxRetries + 1 ∧
        ∀ first ∈ asked, ∀ second ∈ asked, first = second) ∧
    (∀ earlier turn later, turns = earlier ++ turn :: later →
      let ticket := turn.op.ticket
      let past := turnsOf ticket earlier
      let told := fun failure => turn.broker.queue.outcomesOf ticket = [] ∧
        (turn.after routine).queue.outcomesOf ticket = [.error failure] ∧
        broker.queue.outcomesOf ticket = [.error failure]
      turn.op.retries = past.length ∧ past.length ≤ settings.maxRetries ∧
      (∀ other ∈ past, other.verdict? routine = some .retry) ∧
      (∀ last, past.getLast? = some last → ∃ due, turn.due = some due ∧
        ∀ instant, last.clock.after? (min settings.retryDelay (Span.seconds 60)) = some instant →
          instant ≤ due) ∧
      (turn.verdict? routine = some .retry →
        (past.length = settings.maxRetries → told .expired) ∧
        (past.length < settings.maxRetries → turn.broker.queue.stopped = true →
          told .cancelled) ∧
        (past.length < settings.maxRetries → turn.broker.queue.stopped = false →
          ∃ response, turn.answer = .ok response ∧ (turn.after routine).queue.parked
            = turn.broker.queue.parked ++ [turn.parked response]))) ∧
    (∀ op, op ∈ broker.queue.pending ∨ op ∈ broker.queue.inFlight →
      op.retries = 0 ∧ op.response = none) ∧
    (∀ op ∈ broker.queue.parked,
      op.response ≠ none ∧ 1 ≤ op.retries ∧ op.retries ≤ settings.maxRetries) ∧
    ∀ turn ∈ turns, turn.due ≠ none → ∃ response, turn.answer = .ok response := by
  intro broker turns
  obtain ⟨⟨-, audited⟩, replays⟩ := (invariant_replays routine settings).run
    ⟨⟨setUp_new settings, audited_new settings⟩, replays_new routine settings⟩ actions
  rw [List.nil_append] at replays
  refine ⟨replays.attempts, fun ticket => ?_, fun earlier turn later whole => ?_,
    fun op held => ?_, fun op held => ?_, fun turn member due => ?_⟩
  · exact replays.asked ticket
  · have follows := replays.course earlier turn later whole
    have member : turn ∈ turns := by rw [whole]; simp
    refine ⟨follows.retries, follows.length_le, ?_, ?_, fun asked => ?_⟩
    · intro other member
      obtain ⟨response, -, putOff, -⟩ := follows.again (List.ne_nil_of_mem member)
      exact (putOff.same other member).2
    · intro last ends
      obtain ⟨response, -, -, due, wake, same, ⟨last', ends', rests⟩, early⟩ :=
        follows.again (by rintro nothing; rw [nothing] at ends; cases ends)
      obtain rfl : last = last' := Option.some.inj (ends.symm.trans ends')
      refine ⟨due, same, fun instant later => ?_⟩
      rwa [rests, later] at early
    · have word := Turn.word?_retry asked
      rw [follows.setUp.config, follows.retries] at word
      refine ⟨fun used => ?_, fun left stopped => ?_, fun left running => ?_⟩
      · rw [if_pos (Nat.le_of_eq used.symm)] at word
        exact replays.told audited member follows.inHand word
      · rw [if_neg (Nat.not_le.2 left), if_pos stopped] at word
        exact replays.told audited member follows.inHand word
      · rw [if_neg (Nat.not_le.2 left), running, if_neg Bool.false_ne_true] at word
        exact Turn.parked_of_silent word
  · have fresh := replays.untried op held
    exact ⟨fresh.1, fresh.2.1⟩
  · have waits := replays.parked op held
    obtain ⟨response, keeps, putOff⟩ := waits.putOff
    refine ⟨by rw [keeps]; exact Option.some_ne_none _, ?_, ?_⟩
    · rw [waits.retries]
      exact List.length_pos_of_ne_nil waits.begun
    · rw [waits.retries]
      exact putOff.bounded
  · obtain ⟨earlier, later, whole⟩ := List.append_of_mem member
    have follows := replays.course earlier turn later whole
    obtain ⟨response, answered, -⟩ := follows.again fun nothing => due (follows.first nothing)
    exact ⟨response, answered⟩

end FileBroker.Broker
