import FileBroker.Proofs.Queue.Arrival
import FileBroker.Proofs.Queue.Outcomes

/-!
Sweeps for operations whose time is up. A sweep takes those and nobody else, from places where they
may stand in any order among others, and it makes no difference whether another one ran before it.
When the time of an operation is up was settled when the operation was created.
-/
namespace FileBroker

theorem Operation.isExpired_iff {op : Operation} {now : Instant} :
    op.isExpired now = true ↔ ∃ deadline, op.deadline = some deadline ∧ deadline ≤ now := by
  unfold isExpired
  cases op.deadline <;> simp

/-- Whose time was up before is up later. -/
theorem Operation.isExpired_mono {early late : Instant} (order : early ≤ late) (op : Operation)
    (old : op.isExpired early = true) : op.isExpired late = true := by
  obtain ⟨deadline, stands, passed⟩ := isExpired_iff.1 old
  exact isExpired_iff.2 ⟨deadline, stands, Nat.le_trans passed order⟩

namespace Queue

variable {queue : Queue} {now early late : Instant}

/-- Those whom a sweep takes, in the order in which they are told. -/
def expiredBy (queue : Queue) (now : Instant) : List Operation :=
  queue.pending.filter (·.isExpired now) ++ queue.parked.filter (·.isExpired now)
    ++ queue.inFlight.filter (queue.canExpire now)

theorem count_removeExpired (queue : Queue) (now : Instant) :
    (queue.removeExpired now).1 = (queue.expiredBy now).length := by
  rw [removeExpired_eq]
  rfl

theorem after_removeExpired (queue : Queue) (now : Instant) :
    (queue.removeExpired now).2 = { queue with
      pending := queue.pending.filter fun op => !op.isExpired now
      parked := queue.parked.filter fun op => !op.isExpired now
      inFlight := queue.inFlight.filter fun op => !queue.canExpire now op
      delivered := ((queue.expiredBy now).map fun op => ⟨op.ticket, .error .expired⟩).reverse
        ++ queue.delivered } := by
  rw [removeExpired_eq]
  exact deliverAll_eq _ _ _

theorem canExpire_mono (queue : Queue) (order : early ≤ late) (op : Operation)
    (old : queue.canExpire early op = true) : queue.canExpire late op = true := by
  simp only [canExpire, Bool.and_eq_true] at old ⊢
  exact ⟨old.1, op.isExpired_mono order old.2⟩

theorem mem_expiredBy_iff_isExpired {op : Operation} :
    op ∈ queue.expiredBy now ↔
      (op ∈ queue.pending ∨ op ∈ queue.parked ∨
        queue.expiresInFlight = true ∧ op ∈ queue.inFlight) ∧ op.isExpired now = true := by
  simp only [expiredBy, canExpire, List.mem_append, List.mem_filter, Bool.and_eq_true]
  tauto

theorem mem_expiredBy {op : Operation} :
    op ∈ queue.expiredBy now ↔
      (op ∈ queue.pending ∨ op ∈ queue.parked ∨
        queue.expiresInFlight = true ∧ op ∈ queue.inFlight) ∧
      ∃ deadline, op.deadline = some deadline ∧ deadline ≤ now := by
  rw [mem_expiredBy_iff_isExpired, Operation.isExpired_iff]

/-- A sweep does not change who else can expire in flight. -/
theorem canExpire_removeExpired (queue : Queue) (early late : Instant) :
    (queue.removeExpired early).2.canExpire late = queue.canExpire late := by
  rw [after_removeExpired]
  rfl

/-! ### One sweep -/

/-- What a sweep at an instant has to do: `taken` leave the queue, are told once that they have
expired and are counted; nothing else about the queue changes, and nobody else is told anything. -/
structure Swept (now : Instant) (before : Queue) (taken : List Operation) (result : Nat × Queue) :
    Prop where
  exact : ∀ op, op ∈ taken ↔
    (op ∈ before.pending ∨ op ∈ before.parked ∨
      before.expiresInFlight = true ∧ op ∈ before.inFlight) ∧
    ∃ deadline, op.deadline = some deadline ∧ deadline ≤ now
  once : (taken.map Operation.ticket).Nodup
  count : result.1 = taken.length
  told : ∀ ticket, result.2.outcomesOf ticket =
    if ticket ∈ taken.map Operation.ticket then [.error .expired] else before.outcomesOf ticket
  rest : result.2 = { before with
    pending := before.pending.filter (· ∉ taken)
    parked := before.parked.filter (· ∉ taken)
    inFlight := before.inFlight.filter (· ∉ taken)
    delivered := result.2.delivered }

theorem outcomesOf_deliverAll (queue : Queue) (ops : List Operation) (outcome : Outcome)
    (ticket : Nat) :
    (queue.deliverAll ops outcome).outcomesOf ticket
      = List.replicate (Operation.tally ops ticket) outcome ++ queue.outcomesOf ticket := by
  induction ops generalizing queue with
  | nil => rfl
  | cons op rest ih =>
    change ((queue.deliver op outcome).deliverAll rest outcome).outcomesOf ticket = _
    rw [ih, Operation.tally_cons, Operation.tally_singleton]
    by_cases same : op.ticket = ticket
    · subst same
      rw [outcomesOf_deliver, if_pos rfl, Nat.add_comm, List.replicate_succ', List.append_assoc]
      rfl
    · rw [outcomesOf_deliver_of_ne queue outcome same, if_neg same, Nat.zero_add]

theorem outcomesOf_removeExpired (queue : Queue) (now : Instant) (ticket : Nat) :
    (queue.removeExpired now).2.outcomesOf ticket
      = List.replicate (Operation.tally (queue.expiredBy now) ticket) (.error .expired)
        ++ queue.outcomesOf ticket := by
  rw [removeExpired_eq]
  exact outcomesOf_deliverAll _ _ _ _

/-- Those who were taken were somewhere in the queue, once each. -/
theorem tally_expiredBy_le (queue : Queue) (now : Instant) (ticket : Nat) :
    Operation.tally (queue.expiredBy now) ticket ≤ Operation.tally queue.all ticket := by
  have pending := Operation.tally_filter_add (·.isExpired now) queue.pending ticket
  have parked := Operation.tally_filter_add (·.isExpired now) queue.parked ticket
  have inFlight := Operation.tally_filter_add (queue.canExpire now) queue.inFlight ticket
  simp only [expiredBy, all, Operation.tally_append]
  omega

theorem mem_tickets_iff {ops : List Operation} {ticket : Nat} :
    ticket ∈ ops.map Operation.ticket ↔ 0 < Operation.tally ops ticket := by
  rw [Operation.tally_eq_count, List.count_pos_iff]

/-- Where nobody is counted twice, whoever is in flight is nowhere else. -/
theorem alone_in_flight (once : ∀ ticket, queue.tally ticket ≤ 1) {op : Operation}
    (flies : op ∈ queue.inFlight) : op ∉ queue.pending ∧ op ∉ queue.parked := by
  have counted := once op.ticket
  have there : ∀ {ops : List Operation}, op ∈ ops → 0 < Operation.tally ops op.ticket :=
    fun member => List.countP_pos_iff.2 ⟨op, member, by simp⟩
  have here := there flies
  simp only [tally, all, Operation.tally_append] at counted
  refine ⟨fun waits => ?_, fun parked => ?_⟩
  · have twice := there waits
    omega
  · have twice := there parked
    omega

/-- Leaving out the stale is leaving out those who are taken, where these are the same. -/
theorem filter_not_eq_spared {ops taken : List Operation} {stale : Operation → Bool}
    (agree : ∀ op ∈ ops, stale op = true ↔ op ∈ taken) :
    (ops.filter fun op => !stale op) = ops.filter (· ∉ taken) := by
  refine List.filter_congr fun op member => ?_
  rw [Bool.eq_iff_iff, Bool.not_eq_true', decide_eq_true_iff, ← agree op member,
    Bool.not_eq_true]

/-- Where nobody is counted twice, a sweep does what it has to do. -/
theorem swept_removeExpired (once : ∀ ticket, queue.tally ticket ≤ 1) (now : Instant) :
    Swept now queue (queue.expiredBy now) (queue.removeExpired now) where
  exact op := mem_expiredBy
  once := by
    refine List.nodup_iff_count_le_one.2 fun ticket => ?_
    have counted := once ticket
    have atMost := tally_expiredBy_le queue now ticket
    rw [← Operation.tally_eq_count]
    rw [tally] at counted
    omega
  count := count_removeExpired queue now
  told ticket := by
    have counted := once ticket
    have atMost := tally_expiredBy_le queue now ticket
    rw [tally, ← length_outcomesOf] at counted
    rw [outcomesOf_removeExpired]
    split
    · next taken =>
      -- Whoever is taken was in the queue, and so has been told nothing before.
      have present := mem_tickets_iff.1 taken
      have single : Operation.tally (queue.expiredBy now) ticket = 1 := by omega
      have untold : queue.outcomesOf ticket = [] := List.length_eq_zero_iff.1 (by omega)
      rw [single, untold]
      rfl
    · next spared =>
      have nobody : Operation.tally (queue.expiredBy now) ticket = 0 :=
        Nat.eq_zero_of_not_pos fun present => spared (mem_tickets_iff.2 present)
      rw [nobody]
      rfl
  rest := by
    have waiting : ∀ op ∈ queue.pending, op.isExpired now = true ↔ op ∈ queue.expiredBy now := by
      intro op waits
      rw [mem_expiredBy_iff_isExpired]
      tauto
    have resting : ∀ op ∈ queue.parked, op.isExpired now = true ↔ op ∈ queue.expiredBy now := by
      intro op parked
      rw [mem_expiredBy_iff_isExpired]
      tauto
    have flying : ∀ op ∈ queue.inFlight,
        queue.canExpire now op = true ↔ op ∈ queue.expiredBy now := by
      intro op flies
      obtain ⟨unqueued, unparked⟩ := alone_in_flight once flies
      rw [mem_expiredBy_iff_isExpired, canExpire, Bool.and_eq_true]
      tauto
    rw [after_removeExpired, filter_not_eq_spared waiting, filter_not_eq_spared resting,
      filter_not_eq_spared flying]

/-! ### Two sweeps -/

/-- Taking what was old early and then what of the rest is old later is taking what is old later. -/
theorem filter_then_filter_perm {old older : Operation → Bool}
    (order : ∀ op, old op = true → older op = true) (ops : List Operation) :
    (ops.filter old ++ (ops.filter fun op => !old op).filter older).Perm (ops.filter older) := by
  have first : (ops.filter older).filter old = ops.filter old := by
    rw [List.filter_filter]
    refine List.filter_congr fun op _ => ?_
    cases early : old op
    · rfl
    · simp [order op early]
  have second : (ops.filter older).filter (fun op => !old op)
      = (ops.filter fun op => !old op).filter older := by
    simp only [List.filter_filter, Bool.and_comm]
  rw [← first, ← second]
  exact List.filter_append_perm old (ops.filter older)

theorem filter_not_then_filter_not {old older : Operation → Bool}
    (order : ∀ op, old op = true → older op = true) (ops : List Operation) :
    ((ops.filter fun op => !old op).filter fun op => !older op)
      = ops.filter fun op => !older op := by
  rw [List.filter_filter]
  refine List.filter_congr fun op _ => ?_
  cases early : old op
  · simp
  · simp [order op early]

/-- A sweep before another takes those that the other one would have taken, and the other one the
rest of them. -/
theorem expiredBy_then_perm (queue : Queue) (order : early ≤ late) :
    (queue.expiredBy early ++ (queue.removeExpired early).2.expiredBy late).Perm
      (queue.expiredBy late) := by
  have pending := filter_then_filter_perm (Operation.isExpired_mono order) queue.pending
  have parked := filter_then_filter_perm (Operation.isExpired_mono order) queue.parked
  have inFlight := filter_then_filter_perm (queue.canExpire_mono order) queue.inFlight
  refine List.perm_iff_count.2 fun op => ?_
  have inPending := pending.count_eq op
  have inParked := parked.count_eq op
  have aloft := inFlight.count_eq op
  simp only [expiredBy, canExpire_removeExpired, List.count_append] at inPending inParked aloft ⊢
  simp only [after_removeExpired]
  omega

/-- After a later sweep nobody can tell that there was an earlier one, but for the order in which
different callers were told. -/
theorem removeExpired_removeExpired (queue : Queue) (order : early ≤ late) :
    let first := queue.removeExpired early
    let second := first.2.removeExpired late
    let direct := queue.removeExpired late
    first.1 + second.1 = direct.1 ∧
      second.2 = { direct.2 with delivered := second.2.delivered } ∧
      ∀ ticket, second.2.outcomesOf ticket = direct.2.outcomesOf ticket := by
  intro first second direct
  have taken := expiredBy_then_perm queue order
  refine ⟨?_, ?_, fun ticket => ?_⟩
  · have counts := taken.length_eq
    rw [List.length_append] at counts
    simpa only [first, second, direct, count_removeExpired] using counts
  · have pending := filter_not_then_filter_not (Operation.isExpired_mono order) queue.pending
    have parked := filter_not_then_filter_not (Operation.isExpired_mono order) queue.parked
    have inFlight := filter_not_then_filter_not (queue.canExpire_mono order) queue.inFlight
    simp only [first, second, direct]
    rw [after_removeExpired (queue.removeExpired early).2, after_removeExpired queue late]
    simp only [canExpire_removeExpired]
    rw [after_removeExpired queue early, pending, parked, inFlight]
  · have counts := (taken.map Operation.ticket).count_eq ticket
    rw [← Operation.tally_eq_count, ← Operation.tally_eq_count, Operation.tally_append] at counts
    simp only [first, second, direct, outcomesOf_removeExpired, ← counts]
    rw [← List.append_assoc, List.replicate_append_replicate, Nat.add_comm]

end Queue

/-! ### Deadlines -/

/-- Whether two operations were created as one: what happens to an operation later on leaves its
ticket, its request, its age and its deadline. -/
structure Operation.SameOrigin (op other : Operation) : Prop where
  ticket : op.ticket = other.ticket
  request : op.request = other.request
  enqueuedAt : op.enqueuedAt = other.enqueuedAt
  deadline : op.deadline = other.deadline

theorem Operation.SameOrigin.refl (op : Operation) : op.SameOrigin op := ⟨rfl, rfl, rfl, rfl⟩

namespace Ensemble

/-- What an operation is created from, and when. -/
structure Creation where
  request : Request
  timeout : Option Span
  now : Instant

def Move.creation? : Move → Option Creation
  | .create request timeout now => some ⟨request, timeout, now⟩
  | _ => none

/-- An operation as its creation leaves it. Its deadline is the end of its timeout, if it has one
that ends before the horizon of the clock. -/
structure Creation.Made (creation : Creation) (op : Operation) : Prop where
  request : op.request = creation.request
  enqueuedAt : op.enqueuedAt = creation.now
  deadline : ∀ deadline, op.deadline = some deadline ↔
    ∃ timeout, creation.timeout = some timeout ∧ deadline = creation.now + timeout ∧
      deadline ≤ Instant.horizon

theorem Creation.made_new (creation : Creation) (ticket : Nat) :
    creation.Made (.new ticket creation.request creation.timeout creation.now) where
  request := rfl
  enqueuedAt := rfl
  deadline deadline := by
    unfold Operation.new Instant.after?
    dsimp only
    cases creation.timeout with
    | none => simp
    | some timeout =>
      rw [Option.bind_some, Option.ite_none_right_eq_some, Option.some.injEq]
      constructor
      · rintro ⟨inside, rfl⟩
        exact ⟨timeout, rfl, rfl, inside⟩
      · rintro ⟨_, ⟨⟩, rfl, inside⟩
        exact ⟨inside, rfl⟩

theorem Creation.Made.of_sameOrigin {creation : Creation} {op other : Operation}
    (made : creation.Made other) (same : op.SameOrigin other) : creation.Made op where
  request := same.request.trans made.request
  enqueuedAt := same.enqueuedAt.trans made.enqueuedAt
  deadline deadline := same.deadline ▸ made.deadline deadline

/-- Everybody without an outcome. -/
def everybody (ensemble : Ensemble) : List Operation := ensemble.queue.all ++ ensemble.held

variable {ensemble : Ensemble}

/-- Where only the queue changes, and holds nobody new, nobody is new. -/
theorem mem_everybody_of_requeue {queue : Queue} (held : ∀ op ∈ queue.all, op ∈ ensemble.queue.all)
    {op : Operation} (there : op ∈ Ensemble.everybody { ensemble with queue }) :
    op ∈ ensemble.everybody :=
  (List.mem_append.1 there).elim (fun queued => List.mem_append_left _ (held op queued))
    fun out => List.mem_append_right _ out

theorem mem_everybody_of_take {taken : Option Operation × Queue}
    (thinned : Queue.Thinned ensemble.queue taken.2 ∧
      ∀ op ∈ taken.1.toList, op ∈ ensemble.queue.all) {op : Operation}
    (there : op ∈ (ensemble.take taken).everybody) : op ∈ ensemble.everybody := by
  rcases List.mem_append.1 there with queued | out
  · exact List.mem_append_left _ (thinned.1.held op queued)
  · rcases List.mem_append.1 out with before | new
    · exact List.mem_append_right _ before
    · exact List.mem_append_left _ (thinned.2 op new)

/-- Giving a held operation to the queue brings nobody new, if the queue holds nobody else than
before but what it makes of that operation. -/
theorem origin_of_release {index : Nat} {receive : Operation → Queue}
    (received : ∀ op, ∀ other ∈ (receive op).all,
      other ∈ ensemble.queue.all ∨ other.SameOrigin op) {op : Operation}
    (there : op ∈ (ensemble.release index receive).everybody) :
    ∃ other ∈ ensemble.everybody, op.SameOrigin other := by
  unfold Ensemble.release at there
  split at there
  · exact ⟨op, there, .refl op⟩
  · next given held =>
    rcases List.mem_append.1 there with queued | out
    · rcases received given op queued with before | same
      · exact ⟨op, List.mem_append_left _ before, .refl op⟩
      · exact ⟨given, List.mem_append_right _ (List.mem_of_getElem? held), same⟩
    · exact ⟨op, List.mem_append_right _ (List.mem_of_mem_eraseIdx out), .refl op⟩

/-- Whoever is there after a move was there before it, or is created by it. -/
theorem origin_step (ensemble : Ensemble) (move : Move) {op : Operation}
    (there : op ∈ (ensemble.step move).everybody) :
    (∃ other ∈ ensemble.everybody, op.SameOrigin other) ∨
      ∃ creation ∈ move.creation?,
        op = .new ensemble.created creation.request creation.timeout creation.now := by
  have stayed : op ∈ ensemble.everybody → ∃ other ∈ ensemble.everybody, op.SameOrigin other :=
    fun before => ⟨op, before, .refl op⟩
  cases move with
  | create request timeout now =>
    rcases List.mem_append.1 there with queued | out
    · exact .inl (stayed (List.mem_append_left _ queued))
    · rcases List.mem_append.1 out with before | new
      · exact .inl (stayed (List.mem_append_right _ before))
      · exact .inr ⟨⟨request, timeout, now⟩, rfl, List.mem_singleton.1 new⟩
  | enqueue index admission =>
    refine .inl (origin_of_release (fun given other queued => ?_) there)
    unfold Queue.enqueue at queued
    split at queued
    · exact .inl queued
    · split at queued
      · exact .inl queued
      · simp only [Queue.all, List.mem_append, List.mem_singleton] at queued ⊢
        rcases queued with ((waits | rfl) | flies) | parked
        · exact .inl (.inl (.inl waits))
        · exact .inr ⟨rfl, rfl, rfl, rfl⟩
        · exact .inl (.inl (.inr flies))
        · exact .inl (.inr parked)
  | dequeue now deadline budget boundary =>
    exact .inl (stayed (mem_everybody_of_requeue (Queue.thinned_dequeue ..).held there))
  | land hint => exact .inl (stayed (mem_everybody_of_take (Queue.thinned_land ..) there))
  | takeDue now => exact .inl (stayed (mem_everybody_of_take (Queue.thinned_takeDue ..) there))
  | handBack hints =>
    exact .inl (stayed (mem_everybody_of_requeue (fun _ => Queue.mem_all_of_handBack) there))
  | cancel hint =>
    exact .inl (stayed (mem_everybody_of_requeue (Queue.thinned_cancel ..).held there))
  | removeExpired now =>
    exact .inl (stayed (mem_everybody_of_requeue (Queue.thinned_removeExpired ..).held there))
  | stop cancelAll =>
    exact .inl (stayed (mem_everybody_of_requeue (Queue.thinned_stop ..).held there))
  | park index now response =>
    refine .inl (origin_of_release (fun given other queued => ?_) there)
    refine (Queue.held_park queued).imp_right ?_
    rintro ⟨due, rfl⟩
    exact ⟨rfl, rfl, rfl, rfl⟩
  | takeResponse index =>
    rcases List.mem_append.1 there with queued | out
    · exact .inl (stayed (List.mem_append_left _ queued))
    · obtain ⟨other, was, same⟩ := mem_modify_takeResponse out
      refine .inl ⟨other, List.mem_append_right _ was, ?_⟩
      rcases same with rfl | rfl
      · exact .refl op
      · exact ⟨rfl, rfl, rfl, rfl⟩
  | complete index outcome =>
    refine .inl (origin_of_release (fun given other queued => ?_) there)
    exact .inl queued
  | giveUp index =>
    refine .inl (origin_of_release (fun given other queued => ?_) there)
    exact .inl queued

/-- The operations are those that were created, in turn, and are as they were created. -/
structure Traced (creations : List Creation) (ensemble : Ensemble) : Prop where
  created : ensemble.created = creations.length
  made : ∀ op ∈ ensemble.everybody, ∃ creation,
    creations[op.ticket]? = some creation ∧ creation.Made op

theorem traced_start (capacity : Nat) (retryDelay : Span) (expiresInFlight : Bool) :
    Traced [] (start capacity retryDelay expiresInFlight) :=
  ⟨rfl, fun _ member => absurd member List.not_mem_nil⟩

theorem created_step (ensemble : Ensemble) (move : Move) :
    (ensemble.step move).created = ensemble.created + move.creation?.toList.length := by
  have kept : ∀ index receive, (ensemble.release index receive).created = ensemble.created := by
    intro index receive
    unfold Ensemble.release
    split <;> rfl
  cases move <;> first | rfl | exact kept _ _

theorem Traced.step {creations : List Creation} (traced : Traced creations ensemble)
    (move : Move) : Traced (creations ++ move.creation?.toList) (ensemble.step move) where
  created := by rw [created_step, traced.created, List.length_append]
  made op there := by
    rcases origin_step ensemble move there with ⟨other, before, same⟩ | ⟨creation, new, rfl⟩
    · obtain ⟨creation, known, made⟩ := traced.made other before
      refine ⟨creation, ?_, made.of_sameOrigin same⟩
      obtain ⟨inside, -⟩ := List.getElem?_eq_some_iff.1 known
      rw [same.ticket, List.getElem?_append_left inside, known]
    · refine ⟨creation, ?_, creation.made_new _⟩
      rw [Option.mem_def.1 new]
      change (creations ++ [creation])[ensemble.created]? = _
      rw [traced.created, List.getElem?_concat_length]

theorem Traced.run {creations : List Creation} (traced : Traced creations ensemble)
    (moves : List Move) :
    Traced (creations ++ moves.filterMap Move.creation?) (ensemble.run moves) := by
  induction moves generalizing ensemble creations with
  | nil => rwa [List.filterMap_nil, List.append_nil]
  | cons move rest ih =>
    have whole : creations ++ (move :: rest).filterMap Move.creation?
        = creations ++ move.creation?.toList ++ rest.filterMap Move.creation? := by
      rw [List.filterMap_cons, List.append_assoc]
      cases move.creation? <;> rfl
    rw [whole]
    exact ih (traced.step move)

end Ensemble
end FileBroker
