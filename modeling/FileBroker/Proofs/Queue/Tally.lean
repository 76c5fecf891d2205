import FileBroker.Queue.Basic
import Mathlib.Data.List.Nodup
import Mathlib.Tactic.Common

/-!
Where the operations of a queue are, counted by ticket. A ticket counts once for every operation
the queue holds under it and once for every outcome handed out under it. What the queue does to
its operations moves tickets from one place to another: the count changes only by the operations
that are given to the queue or taken from it.
-/
namespace FileBroker

/-- How many of the operations carry a ticket. -/
def Operation.tally (ops : List Operation) (ticket : Nat) : Nat :=
  ops.countP fun op => op.ticket == ticket

namespace Operation

@[simp] theorem tally_nil (ticket : Nat) : tally [] ticket = 0 := rfl

@[simp] theorem tally_append (left right : List Operation) (ticket : Nat) :
    tally (left ++ right) ticket = tally left ticket + tally right ticket :=
  List.countP_append

theorem tally_cons (op : Operation) (rest : List Operation) (ticket : Nat) :
    tally (op :: rest) ticket = tally [op] ticket + tally rest ticket :=
  tally_append [op] rest ticket

theorem tally_singleton (op : Operation) (ticket : Nat) :
    tally [op] ticket = if op.ticket = ticket then 1 else 0 := by
  simp [tally, List.countP_cons]

/-- Only the ticket of an operation counts. -/
theorem tally_singleton_congr {op other : Operation} (same : op.ticket = other.ticket)
    (ticket : Nat) : tally [op] ticket = tally [other] ticket := by
  rw [tally_singleton, tally_singleton, same]

theorem tally_filter_add (keep : Operation → Bool) (ops : List Operation) (ticket : Nat) :
    tally (ops.filter keep) ticket + tally (ops.filter fun op => !keep op) ticket
      = tally ops ticket := by
  simpa [tally] using (List.countP_eq_countP_filter_add ops (·.ticket == ticket) keep).symm

theorem tally_eq_count (ops : List Operation) (ticket : Nat) :
    tally ops ticket = (ops.map Operation.ticket).count ticket := by
  rw [List.count, List.countP_map]
  rfl

end Operation

namespace Queue

open Operation (tally_append tally_cons tally_nil)

/-- How often a ticket turns up, over the operations held and the outcomes handed out. -/
def tally (queue : Queue) (ticket : Nat) : Nat :=
  Operation.tally queue.all ticket
    + queue.delivered.countP fun delivery => delivery.ticket == ticket

/-- No two operations in flight share a hint. -/
def Distinct (queue : Queue) : Prop := (queue.inFlight.map Operation.hint).Nodup

theorem distinct_new (capacity : Nat) (retryDelay : Span) (expiresInFlight : Bool) :
    (new capacity retryDelay expiresInFlight).Distinct := List.nodup_nil

/-! ### Handing out outcomes -/

theorem deliverAll_eq (queue : Queue) (ops : List Operation) (outcome : Outcome) :
    queue.deliverAll ops outcome =
      { queue with
        delivered := (ops.map fun op => ⟨op.ticket, outcome⟩).reverse ++ queue.delivered } := by
  unfold deliverAll
  induction ops generalizing queue with
  | nil => rfl
  | cons op rest ih =>
    rw [List.foldl_cons, ih]
    simp [deliver]

theorem length_outcomesOf (queue : Queue) (ticket : Nat) :
    (queue.outcomesOf ticket).length
      = queue.delivered.countP fun delivery => delivery.ticket == ticket := by
  rw [outcomesOf, List.length_map, List.countP_eq_length_filter]

theorem tally_deliver (queue : Queue) (op : Operation) (outcome : Outcome) (ticket : Nat) :
    (queue.deliver op outcome).tally ticket = queue.tally ticket + Operation.tally [op] ticket := by
  have places : (queue.deliver op outcome).all = queue.all := rfl
  rw [tally, tally, places, Operation.tally_singleton]
  simp only [deliver, List.countP_cons, beq_iff_eq]
  omega

theorem tally_deliverAll (queue : Queue) (ops : List Operation) (outcome : Outcome)
    (ticket : Nat) :
    (queue.deliverAll ops outcome).tally ticket
      = queue.tally ticket + Operation.tally ops ticket := by
  induction ops generalizing queue with
  | nil => rfl
  | cons op rest ih =>
    have first := tally_deliver queue op outcome ticket
    have others := ih (queue.deliver op outcome)
    rw [tally_cons op rest]
    change ((queue.deliver op outcome).deliverAll rest outcome).tally ticket = _
    omega

@[simp] theorem inFlight_deliverAll (queue : Queue) (ops : List Operation) (outcome : Outcome) :
    (queue.deliverAll ops outcome).inFlight = queue.inFlight := by
  rw [deliverAll_eq]

@[simp] theorem parked_deliverAll (queue : Queue) (ops : List Operation) (outcome : Outcome) :
    (queue.deliverAll ops outcome).parked = queue.parked := by
  rw [deliverAll_eq]

/-! ### Coming in -/

theorem tally_enqueue (queue : Queue) (op : Operation) (admission : Admission) (ticket : Nat) :
    (queue.enqueue op admission).2.tally ticket
      = queue.tally ticket + Operation.tally [op] ticket := by
  unfold enqueue
  split
  · exact tally_deliver _ _ _ _
  · split
    · exact tally_deliver _ _ _ _
    · have same : Operation.tally [{ op with seq := queue.lastSeq + 1 }] ticket
          = Operation.tally [op] ticket := Operation.tally_singleton_congr rfl ticket
      simp only [tally, all, tally_append, same]
      omega

theorem distinct_enqueue {queue : Queue} (distinct : queue.Distinct) (op : Operation)
    (admission : Admission) : (queue.enqueue op admission).2.Distinct := by
  unfold enqueue
  split
  · exact distinct
  · split <;> exact distinct

/-! ### Going into flight -/

theorem launch_eq (queue : Queue) (op : Operation) :
    queue.launch op =
      { queue with
        inFlight :=
          (queue.inFlight.filter fun other : Operation => !(other.hint == op.hint)) ++ [op]
      }.deliverAll (queue.inFlight.filter fun other => other.hint == op.hint)
        (.error .cancelled) := by
  unfold launch
  rw [List.partition_eq_filter_filter]
  rfl

theorem tally_launch (queue : Queue) (op : Operation) (ticket : Nat) :
    (queue.launch op).tally ticket = queue.tally ticket + Operation.tally [op] ticket := by
  have parts :=
    Operation.tally_filter_add (fun other => other.hint == op.hint) queue.inFlight ticket
  rw [launch_eq, tally_deliverAll]
  simp only [tally, all, tally_append]
  omega

/-- Whoever was in flight under the hint has left before the operation comes in. -/
theorem distinct_launch {queue : Queue} (distinct : queue.Distinct) (op : Operation) :
    (queue.launch op).Distinct := by
  unfold Distinct
  rw [launch_eq, inFlight_deliverAll, List.map_append, List.nodup_append]
  refine ⟨(List.filter_sublist.map Operation.hint).nodup distinct, by simp, ?_⟩
  intro hint kept other single same
  obtain ⟨survivor, member, rfl⟩ := List.mem_map.1 kept
  obtain rfl : other = op.hint := by simpa using single
  simp [same] at member

theorem tally_foldl_launch (ops : List Operation) (queue : Queue) (ticket : Nat) :
    (ops.foldl launch queue).tally ticket = queue.tally ticket + Operation.tally ops ticket := by
  induction ops generalizing queue with
  | nil => rfl
  | cons op rest ih =>
    rw [List.foldl_cons, ih, tally_launch, tally_cons op rest]
    omega

theorem distinct_foldl_launch {queue : Queue} (distinct : queue.Distinct)
    (ops : List Operation) : (ops.foldl launch queue).Distinct := by
  induction ops generalizing queue with
  | nil => exact distinct
  | cons op rest ih => exact ih (distinct_launch distinct op)

/-- The pending operations, cut into those up to the boundary, the run fetched and the rest. -/
theorem pending_eq_run (queue : Queue) (budget : Nat) (boundary : Option Nat) :
    queue.pending = (splitAfter boundary queue.pending).1
      ++ ((takeRun budget (splitAfter boundary queue.pending).2).1
        ++ (takeRun budget (splitAfter boundary queue.pending).2).2) := by
  rw [takeRun_append, splitAfter_append]

/-- A fetch either leaves the queue alone and brings nothing, or moves one run of pending operations
into flight. -/
theorem dequeue_cases (queue : Queue) (now : Instant) (deadline : Option Instant) (budget : Nat)
    (boundary : Option Nat) :
    (∃ result, queue.dequeue now deadline budget boundary = (result, queue) ∧
        ∀ run, result = .ready (.ok run) → run = []) ∨
      ∃ older run left, queue.pending = older ++ (run ++ left) ∧
        queue.dequeue now deadline budget boundary =
          (.ready (.ok run), run.foldl launch { queue with pending := older ++ left }) := by
  unfold dequeue
  split
  · exact .inl ⟨_, rfl, by simp⟩
  · dsimp only
    split
    · left
      split
      · split <;> exact ⟨_, rfl, by simp⟩
      · exact ⟨_, rfl, by simp⟩
    · exact .inr ⟨_, _, _, pending_eq_run queue budget boundary, rfl⟩

theorem tally_dequeue (queue : Queue) (now : Instant) (deadline : Option Instant) (budget : Nat)
    (boundary : Option Nat) (ticket : Nat) :
    (queue.dequeue now deadline budget boundary).2.tally ticket = queue.tally ticket := by
  rcases dequeue_cases queue now deadline budget boundary with
    ⟨result, same, -⟩ | ⟨older, run, left, cut, fetched⟩
  · rw [same]
  · rw [fetched, tally_foldl_launch]
    simp only [tally, all, cut, tally_append]
    omega

theorem distinct_dequeue {queue : Queue} (distinct : queue.Distinct) (now : Instant)
    (deadline : Option Instant) (budget : Nat) (boundary : Option Nat) :
    (queue.dequeue now deadline budget boundary).2.Distinct := by
  rcases dequeue_cases queue now deadline budget boundary with
    ⟨result, same, -⟩ | ⟨older, run, left, -, fetched⟩
  · rwa [same]
  · rw [fetched]
    have kept : Distinct { queue with pending := older ++ left } := distinct
    exact distinct_foldl_launch kept run

/-! ### Leaving flight -/

/-- Among operations with distinct hints, at most one stands under a hint. -/
theorem filter_hint_eq_of_find? {ops : List Operation}
    (distinct : (ops.map Operation.hint).Nodup) {hint : Hint} {op : Operation}
    (found : ops.find? (fun other => other.hint == hint) = some op) :
    ops.filter (fun other => other.hint == hint) = [op] := by
  obtain ⟨under, before, after, rfl, early⟩ := List.find?_eq_some_iff_append.1 found
  have under : op.hint = hint := by simpa using under
  have others : ∀ other ∈ before ++ after, (other.hint == hint) = false := by
    rw [List.map_append, List.map_cons, List.nodup_middle, ← List.map_append,
      List.nodup_cons] at distinct
    intro other member
    rw [beq_eq_false_iff_ne, ← under]
    intro same
    exact distinct.1 (same ▸ List.mem_map_of_mem member)
  have earlier := List.filter_eq_nil_iff.2 fun other member =>
    Bool.not_eq_true _ ▸ others other (List.mem_append_left _ member)
  have later := List.filter_eq_nil_iff.2 fun other member =>
    Bool.not_eq_true _ ▸ others other (List.mem_append_right _ member)
  rw [List.filter_append, List.filter_cons, earlier, later, under]
  simp

theorem land_cases (queue : Queue) (hint : Hint) :
    (queue.land hint = (none, queue) ∧ ∀ op ∈ queue.inFlight, op.hint ≠ hint) ∨
      ∃ op ∈ queue.inFlight, op.hint = hint ∧
        queue.inFlight.find? (fun other => other.hint == hint) = some op ∧
        queue.land hint = (some op,
          { queue with inFlight := queue.inFlight.filter fun other => other.hint != hint }) := by
  unfold land
  cases found : queue.inFlight.find? fun op => op.hint == hint with
  | none => exact .inl ⟨rfl, by simpa using found⟩
  | some op =>
    have under : op.hint = hint := by simpa using List.find?_some found
    exact .inr ⟨op, List.mem_of_find?_eq_some found, under, rfl, rfl⟩

/-- What lands leaves the queue, and nothing else does. -/
theorem tally_land {queue after : Queue} (distinct : queue.Distinct) {hint : Hint}
    {op : Operation} (landed : queue.land hint = (some op, after)) (ticket : Nat) :
    after.tally ticket + Operation.tally [op] ticket = queue.tally ticket := by
  rcases land_cases queue hint with ⟨absent, -⟩ | ⟨other, -, -, found, present⟩
  · rw [absent] at landed
    cases landed
  · rw [present] at landed
    cases landed
    have parts := Operation.tally_filter_add (fun other => other.hint == hint) queue.inFlight ticket
    rw [filter_hint_eq_of_find? distinct found] at parts
    simp only [tally, all, tally_append, bne]
    omega

theorem land_none {queue after : Queue} {hint : Hint} (h : queue.land hint = (none, after)) :
    after = queue := by
  rcases land_cases queue hint with ⟨absent, -⟩ | ⟨op, -, -, -, present⟩
  · rw [absent] at h
    cases h
    rfl
  · rw [present] at h
    cases h

theorem distinct_land {queue : Queue} (distinct : queue.Distinct) (hint : Hint) :
    (queue.land hint).2.Distinct := by
  rcases land_cases queue hint with ⟨absent, -⟩ | ⟨op, -, -, -, present⟩
  · rwa [absent]
  · rw [present]
    exact (List.filter_sublist.map Operation.hint).nodup distinct

theorem tally_insertPending (op : Operation) (pending : List Operation) (ticket : Nat) :
    Operation.tally (insertPending op pending) ticket
      = Operation.tally pending ticket + Operation.tally [op] ticket := by
  have whole := congrArg (Operation.tally · ticket)
    (List.takeWhile_append_dropWhile (p := fun other : Operation => other.seq < op.seq)
      (l := pending))
  simp only [tally_append] at whole
  rw [insertPending, tally_append, tally_cons op]
  omega

theorem tally_handBack {queue : Queue} (distinct : queue.Distinct) (hints : List Hint)
    (ticket : Nat) : (queue.handBack hints).2.tally ticket = queue.tally ticket := by
  induction hints generalizing queue with
  | nil => rfl
  | cons hint rest ih =>
    have kept := distinct_land distinct hint
    unfold handBack
    split
    next landed =>
      rw [landed] at kept
      rw [ih kept, land_none landed]
    next op after landed =>
      rw [landed] at kept
      have taken := tally_land distinct landed ticket
      have returned := @ih { after with pending := insertPending op after.pending } kept
      simp only [tally, all, tally_append, tally_insertPending] at taken returned ⊢
      omega

theorem distinct_handBack {queue : Queue} (distinct : queue.Distinct) (hints : List Hint) :
    (queue.handBack hints).2.Distinct := by
  induction hints generalizing queue with
  | nil => exact distinct
  | cons hint rest ih =>
    have kept := distinct_land distinct hint
    unfold handBack
    split
    next landed =>
      rw [landed] at kept
      exact ih kept
    next op after landed =>
      rw [landed] at kept
      exact @ih { after with pending := insertPending op after.pending } kept

/-! ### Parking -/

theorem tally_park (queue : Queue) (now : Instant) (op : Operation) (response : Response)
    (ticket : Nat) :
    (queue.park now op response).tally ticket
      = queue.tally ticket + Operation.tally [op] ticket := by
  have same : Operation.tally [op] ticket
      = Operation.tally [op.park response ((now.after? queue.retryDelay).getD now)] ticket :=
    Operation.tally_singleton_congr rfl ticket
  unfold park
  dsimp only
  rw [same]
  split
  · exact tally_deliver _ _ _ _
  · simp only [tally, all, tally_append]
    omega

theorem distinct_park {queue : Queue} (distinct : queue.Distinct) (now : Instant)
    (op : Operation) (response : Response) : (queue.park now op response).Distinct := by
  unfold park
  dsimp only
  split <;> exact distinct

theorem takeDue_none {queue after : Queue} {now : Instant}
    (h : queue.takeDue now = (none, after)) : after = queue := by
  unfold takeDue at h
  split at h <;> cases h
  rfl

theorem takeDue_some {queue after : Queue} {now : Instant} {op : Operation}
    (h : queue.takeDue now = (some op, after)) :
    ∃ before rest, queue.parked = before ++ op :: rest ∧
      after = { queue with parked := before ++ rest } ∧ op.isDue now = true ∧
      ∀ other ∈ before, other.isDue now = false := by
  unfold takeDue at h
  split at h
  · cases h
  · rename_i found first
    cases h
    obtain ⟨due, before, rest, whole, early⟩ := List.find?_eq_some_iff_append.1 first
    have early : ∀ other ∈ before, ¬ other.isDue now = true := by simpa using early
    refine ⟨before, rest, whole, ?_, due, by simpa using early⟩
    rw [whole, List.eraseP_append_right _ early]
    simp [due]

theorem tally_takeDue {queue after : Queue} {now : Instant} {op : Operation}
    (h : queue.takeDue now = (some op, after)) (ticket : Nat) :
    after.tally ticket + Operation.tally [op] ticket = queue.tally ticket := by
  obtain ⟨before, rest, whole, rfl, -, -⟩ := takeDue_some h
  simp only [tally, all, whole, tally_append, tally_cons op rest]
  omega

/-! ### Giving up -/

theorem cancel_cases (queue : Queue) (hint : Hint) :
    (queue.cancel hint = (false, queue) ∧ ∀ op ∈ queue.pending, op.hint ≠ hint) ∨
      ∃ op before after, queue.pending = before ++ op :: after ∧ op.hint = hint ∧
        (∀ other ∈ before, other.hint ≠ hint) ∧
        queue.cancel hint =
          (true, { queue with pending := before ++ after }.deliver op (.error .cancelled)) := by
  unfold cancel
  cases found : queue.pending.find? fun op => op.hint == hint with
  | none => exact .inl ⟨rfl, by simpa using found⟩
  | some op =>
    obtain ⟨under, before, after, whole, early⟩ := List.find?_eq_some_iff_append.1 found
    have early : ∀ other ∈ before, ¬ (other.hint == hint) = true := by simpa using early
    refine .inr ⟨op, before, after, whole, by simpa using under, by simpa using early, ?_⟩
    dsimp only
    rw [whole, List.eraseP_append_right _ early]
    simp [under]

theorem tally_cancel (queue : Queue) (hint : Hint) (ticket : Nat) :
    (queue.cancel hint).2.tally ticket = queue.tally ticket := by
  rcases cancel_cases queue hint with ⟨same, -⟩ | ⟨op, before, after, whole, -, -, found⟩
  · rw [same]
  · rw [found, tally_deliver]
    simp only [tally, all, whole, tally_append, tally_cons op after]
    omega

theorem distinct_cancel {queue : Queue} (distinct : queue.Distinct) (hint : Hint) :
    (queue.cancel hint).2.Distinct := by
  rcases cancel_cases queue hint with ⟨same, -⟩ | ⟨op, before, after, -, -, -, found⟩
  · rwa [same]
  · rw [found]
    exact distinct

/-- Operations in flight expire only where the queue says so. -/
def canExpire (queue : Queue) (now : Instant) (op : Operation) : Bool :=
  queue.expiresInFlight && op.isExpired now

theorem removeExpired_eq (queue : Queue) (now : Instant) :
    queue.removeExpired now =
      let expired := queue.pending.filter (·.isExpired now)
        ++ queue.parked.filter (·.isExpired now) ++ queue.inFlight.filter (queue.canExpire now)
      (expired.length,
        { queue with
          pending := queue.pending.filter fun op => !op.isExpired now
          parked := queue.parked.filter fun op => !op.isExpired now
          inFlight := queue.inFlight.filter fun op => !queue.canExpire now op
        }.deliverAll expired (.error .expired)) := by
  unfold removeExpired
  simp only [List.partition_eq_filter_filter, extractExpired_eq, List.drop_zero, List.take_zero,
    List.nil_append]
  rfl

theorem tally_removeExpired (queue : Queue) (now : Instant) (ticket : Nat) :
    (queue.removeExpired now).2.tally ticket = queue.tally ticket := by
  have pending := Operation.tally_filter_add (·.isExpired now) queue.pending ticket
  have parked := Operation.tally_filter_add (·.isExpired now) queue.parked ticket
  have inFlight := Operation.tally_filter_add (queue.canExpire now) queue.inFlight ticket
  rw [removeExpired_eq]
  dsimp only
  rw [tally_deliverAll]
  simp only [tally, all, tally_append]
  omega

theorem distinct_removeExpired {queue : Queue} (distinct : queue.Distinct) (now : Instant) :
    (queue.removeExpired now).2.Distinct := by
  rw [removeExpired_eq]
  dsimp only
  unfold Distinct
  rw [inFlight_deliverAll]
  exact (List.filter_sublist.map Operation.hint).nodup distinct

theorem tally_clear (queue : Queue) (ticket : Nat) :
    queue.clear.tally ticket = queue.tally ticket := by
  rw [clear, tally_deliverAll]
  simp only [tally, all, List.append_nil, tally_nil]
  omega

theorem distinct_clear (queue : Queue) : queue.clear.Distinct := by
  unfold Distinct
  rw [clear, inFlight_deliverAll]
  exact List.nodup_nil

theorem tally_stop (queue : Queue) (cancelAll : Bool) (ticket : Nat) :
    (queue.stop cancelAll).2.tally ticket = queue.tally ticket := by
  cases cancelAll with
  | false => rfl
  | true => exact tally_clear { queue with stopped := true } ticket

theorem distinct_stop {queue : Queue} (distinct : queue.Distinct) (cancelAll : Bool) :
    (queue.stop cancelAll).2.Distinct := by
  cases cancelAll with
  | false => exact distinct
  | true => exact distinct_clear _

end Queue
end FileBroker
