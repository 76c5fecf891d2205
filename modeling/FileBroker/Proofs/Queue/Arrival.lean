import FileBroker.Proofs.Queue.Fetch
import FileBroker.Proofs.Queue.Ownership

/-!
The order of arrival. Whatever is done to a queue and to the operations held outside it, those that
are pending stand in the order they arrived in, and no two operations of the queue arrived at the
same place. That is what a fetch relies on when it looks for the first operation behind a boundary,
and a hand-back when it looks for the place that an operation came from.
-/
namespace FileBroker

/-- Whether an operation arrived after a boundary. -/
def Operation.Newer (boundary : Option Nat) (op : Operation) : Prop :=
  ∀ seq, boundary = some seq → seq < op.seq

namespace Queue

theorem land_some {queue after : Queue} {hint : Hint} {op : Operation}
    (landed : queue.land hint = (some op, after)) :
    op ∈ queue.inFlight ∧
      after = { queue with inFlight := queue.inFlight.filter fun other => other.hint != hint } := by
  rcases land_cases queue hint with ⟨absent, -⟩ | ⟨other, flies, -, -, present⟩
  · rw [absent] at landed
    cases landed
  · rw [present] at landed
    cases landed
    exact ⟨flies, rfl⟩

/-! ### Coming back -/

/-- An operation that arrived at a place of its own is put there. -/
theorem sorted_insertPending {op : Operation} {pending : List Operation}
    (sorted : pending.Pairwise fun older newer => older.seq < newer.seq)
    (fresh : ∀ other ∈ pending, op.seq ≠ other.seq) :
    (insertPending op pending).Pairwise fun older newer => older.seq < newer.seq := by
  induction pending with
  | nil => exact List.pairwise_singleton _ _
  | cons first rest ih =>
    obtain ⟨least, others⟩ := List.pairwise_cons.1 sorted
    obtain ⟨apart, among⟩ := List.forall_mem_cons.1 fresh
    by_cases earlier : first.seq < op.seq
    · have placed : insertPending op (first :: rest) = first :: insertPending op rest := by
        simp [insertPending, earlier]
      rw [placed, List.pairwise_cons]
      refine ⟨fun other member => ?_, ih others among⟩
      rcases mem_insertPending.1 member with rfl | later
      · exact earlier
      · exact least other later
    · have placed : insertPending op (first :: rest) = op :: first :: rest := by
        simp [insertPending, earlier]
      have later : op.seq < first.seq := by omega
      rw [placed, List.pairwise_cons]
      refine ⟨fun other member => ?_, sorted⟩
      rcases List.mem_cons.1 member with rfl | further
      · exact later
      · exact Nat.lt_trans later (least other further)

/-- Whoever is in flight arrived at a place of its own. -/
structure Apart (queue : Queue) : Prop where
  flying : ∀ op ∈ queue.inFlight, ∀ other ∈ queue.inFlight,
    op.seq = other.seq → op.hint = other.hint
  waiting : ∀ op ∈ queue.inFlight, ∀ other ∈ queue.pending, op.seq ≠ other.seq

/-- Hints may be handed back in any order, and again. -/
theorem sorted_handBack {queue : Queue}
    (sorted : queue.pending.Pairwise fun older newer => older.seq < newer.seq)
    (apart : queue.Apart) (hints : List Hint) :
    (queue.handBack hints).2.pending.Pairwise fun older newer => older.seq < newer.seq := by
  induction hints generalizing queue with
  | nil => exact sorted
  | cons hint rest ih =>
    unfold handBack
    rcases land_cases queue hint with ⟨absent, -⟩ | ⟨op, member, under, -, present⟩
    · rw [absent]
      exact ih sorted apart
    · rw [present]
      refine @ih { queue with
        pending := insertPending op queue.pending
        inFlight := queue.inFlight.filter fun other => other.hint != hint } ?_ ⟨?_, ?_⟩
      · exact sorted_insertPending sorted (apart.waiting op member)
      · intro first inFirst second inSecond
        exact apart.flying first (List.mem_of_mem_filter inFirst) second
          (List.mem_of_mem_filter inSecond)
      · intro flying inFlying other waits same
        obtain ⟨flew, elsewhere⟩ := List.mem_filter.1 inFlying
        rcases mem_insertPending.1 waits with rfl | waited
        · have clash := apart.flying flying flew other member same
          simp [clash, under] at elsewhere
        · exact apart.waiting flying flew other waited same

/-! ### Fetching -/

/-- In order of arrival, those up to the boundary stand before those after it. -/
theorem splitAfter_newer {ops : List Operation}
    (sorted : ops.Pairwise fun older newer => older.seq < newer.seq) (boundary : Option Nat) :
    (∀ op ∈ (splitAfter boundary ops).1, ¬ op.Newer boundary) ∧
      ∀ op ∈ (splitAfter boundary ops).2, op.Newer boundary := by
  cases boundary with
  | none => exact ⟨fun _ member => absurd member List.not_mem_nil, fun _ _ _ none => nomatch none⟩
  | some seq =>
    refine ⟨fun op older newer => ?_, ?_⟩
    · have early : op.seq ≤ seq := by
        simpa using List.all_eq_true.1 List.all_takeWhile op older
      exact absurd (newer seq rfl) (Nat.not_lt.2 early)
    · induction ops with
      | nil => exact fun _ member => absurd member List.not_mem_nil
      | cons first rest ih =>
        obtain ⟨least, others⟩ := List.pairwise_cons.1 sorted
        by_cases early : first.seq ≤ seq
        · have passed : (splitAfter (some seq) (first :: rest)).2
              = (splitAfter (some seq) rest).2 := by
            simp [splitAfter, early]
          rw [passed]
          exact ih others
        · have whole : (splitAfter (some seq) (first :: rest)).2 = first :: rest := by
            simp [splitAfter, early]
          rw [whole]
          rintro op member _ ⟨⟩
          rcases List.mem_cons.1 member with rfl | later
          · omega
          · have beyond := least op later
            omega

/-- A fetch brings nobody who arrived up to the boundary. -/
theorem newer_of_dequeue {queue after : Queue}
    (sorted : queue.pending.Pairwise fun older newer => older.seq < newer.seq) {now : Instant}
    {deadline : Option Instant} {budget : Nat} {boundary : Option Nat} {run : List Operation}
    (fetched : queue.dequeue now deadline budget boundary = (.ready (.ok run), after)) :
    ∀ op ∈ run, op.Newer boundary := by
  have eligible := (splitAfter_newer sorted boundary).2
  have parts := takeRun_append budget (splitAfter boundary queue.pending).2
  unfold dequeue at fetched
  split at fetched
  · cases fetched
  · dsimp only at fetched
    split at fetched
    · split at fetched
      · split at fetched
        · cases fetched
          exact fun _ member => absurd member List.not_mem_nil
        · cases fetched
      · cases fetched
    · cases fetched
      intro op member
      exact eligible op (parts ▸ List.mem_append_left _ member)

/-- If anybody pending arrived after the boundary, a fetch takes the longest run that fits from the
first of them on. -/
theorem dequeue_eligible {queue : Queue} (running : queue.stopped = false)
    (sorted : queue.pending.Pairwise fun older newer => older.seq < newer.seq)
    {boundary : Option Nat} (waits : ∃ op ∈ queue.pending, op.Newer boundary) (now : Instant)
    (deadline : Option Instant) (budget : Nat) :
    ∃ older run left, queue.pending = older ++ (run ++ left) ∧
      (∀ op ∈ older, ¬ op.Newer boundary) ∧ (∀ op ∈ run ++ left, op.Newer boundary) ∧
      total (run.map Operation.size) ≤ budget ∧
      (∀ front, front <+: run ++ left → total (front.map Operation.size) ≤ budget →
        front <+: run) ∧
      queue.dequeue now deadline budget boundary
        = (.ready (.ok run), run.foldl launch { queue with pending := older ++ left }) := by
  obtain ⟨early, late⟩ := splitAfter_newer sorted boundary
  have whole := pending_eq_run queue budget boundary
  have parts := takeRun_append budget (splitAfter boundary queue.pending).2
  obtain ⟨op, member, newer⟩ := waits
  have some' : (splitAfter boundary queue.pending).2 ≠ [] := by
    intro nothing
    rw [← splitAfter_append boundary queue.pending, nothing, List.append_nil] at member
    exact early op member newer
  refine ⟨_, _, _, whole, early, ?_, total_takeRun_le budget _, fun front start fits => ?_, ?_⟩
  · rwa [parts]
  · rw [parts] at start
    exact isPrefix_takeRun start fits
  · unfold dequeue
    rw [if_neg (by rw [running]; exact Bool.false_ne_true)]
    dsimp only
    rw [if_neg (by simpa using some')]

/-! ### Going away -/

/-- Nobody came to the queue, and those who are pending stand as they stood. -/
structure Thinned (before after : Queue) : Prop where
  lastSeq : after.lastSeq = before.lastSeq
  pending : after.pending.Sublist before.pending
  held : ∀ op ∈ after.all, op ∈ before.all

theorem Thinned.refl (queue : Queue) : Thinned queue queue := ⟨rfl, .refl _, fun _ => id⟩

theorem thinned_dequeue (queue : Queue) (now : Instant) (deadline : Option Instant) (budget : Nat)
    (boundary : Option Nat) : Thinned queue (queue.dequeue now deadline budget boundary).2 := by
  rcases dequeue_cases queue now deadline budget boundary with
    ⟨result, same, -⟩ | ⟨older, run, left, cut, fetched⟩
  · rw [same]
    exact .refl queue
  · obtain ⟨-, lastSeq, -⟩ := kept_foldl_launch run { queue with pending := older ++ left }
    rw [fetched]
    refine ⟨lastSeq, ?_, fun op => mem_all_of_fetch cut⟩
    rw [pending_foldl_launch, cut]
    exact (List.Sublist.refl older).append (List.sublist_append_right run left)

theorem thinned_land (queue : Queue) (hint : Hint) : Thinned queue (queue.land hint).2 ∧
    ∀ op ∈ (queue.land hint).1.toList, op ∈ queue.all := by
  rcases landed : queue.land hint with ⟨_ | op, after⟩
  · rw [land_none landed]
    exact ⟨.refl queue, fun _ member => absurd member List.not_mem_nil⟩
  · obtain ⟨flies, rfl⟩ := land_some landed
    refine ⟨⟨rfl, .refl _, fun other member => ?_⟩, fun other came => ?_⟩
    · simp only [all, List.mem_append, List.mem_filter] at member ⊢
      tauto
    · obtain rfl : other = op := by simpa using came
      exact List.mem_append_left _ (List.mem_append_right _ flies)

theorem thinned_takeDue (queue : Queue) (now : Instant) : Thinned queue (queue.takeDue now).2 ∧
    ∀ op ∈ (queue.takeDue now).1.toList, op ∈ queue.all := by
  rcases due : queue.takeDue now with ⟨_ | op, after⟩
  · rw [takeDue_none due]
    exact ⟨.refl queue, fun _ member => absurd member List.not_mem_nil⟩
  · obtain ⟨before, rest, whole, rfl, -, -⟩ := takeDue_some due
    refine ⟨⟨rfl, .refl _, fun other member => ?_⟩, fun other came => ?_⟩
    · simp only [all, whole, List.mem_append, List.mem_cons] at member ⊢
      tauto
    · obtain rfl : other = op := by simpa using came
      simp [all, whole]

theorem thinned_cancel (queue : Queue) (hint : Hint) : Thinned queue (queue.cancel hint).2 := by
  rcases cancel_cases queue hint with ⟨same, -⟩ | ⟨op, before, rest, whole, -, -, found⟩
  · rw [same]
    exact .refl queue
  · rw [found]
    refine ⟨rfl, ?_, fun other member => ?_⟩
    · rw [whole]
      exact (List.Sublist.refl before).append (List.sublist_cons_self op rest)
    · simp only [deliver, all, whole, List.mem_append, List.mem_cons] at member ⊢
      tauto

theorem thinned_removeExpired (queue : Queue) (now : Instant) :
    Thinned queue (queue.removeExpired now).2 := by
  rw [removeExpired_eq]
  dsimp only
  rw [deliverAll_eq]
  refine ⟨rfl, List.filter_sublist, fun op member => ?_⟩
  simp only [all, List.mem_append, List.mem_filter] at member ⊢
  tauto

theorem thinned_stop (queue : Queue) (cancelAll : Bool) :
    Thinned queue (queue.stop cancelAll).2 := by
  cases cancelAll with
  | false => exact ⟨rfl, .refl _, fun _ => id⟩
  | true =>
    have cleared : (queue.stop true).2 = clear { queue with stopped := true } := rfl
    rw [cleared, clear, deliverAll_eq]
    exact ⟨rfl, List.nil_sublist _, fun _ member => absurd member List.not_mem_nil⟩

/-- Who is parked comes to the queue with its response, or not at all. -/
theorem held_park {queue : Queue} {now : Instant} {op other : Operation} {response : Response}
    (held : other ∈ (queue.park now op response).all) :
    other ∈ queue.all ∨ ∃ due, other = op.park response due := by
  unfold park at held
  dsimp only at held
  split at held
  · exact .inl held
  · rcases List.mem_append.1 held with before | parked
    · exact .inl (List.mem_append_left _ before)
    · rcases List.mem_append.1 parked with before | new
      · exact .inl (List.mem_append_right _ before)
      · exact .inr ⟨_, List.mem_singleton.1 new⟩

end Queue

namespace Ensemble

/-! ### Runs -/

/-- The operations that a move takes out of the queue, by their tickets. -/
def takenBy (ensemble : Ensemble) : Move → List Nat
  | .land hint => (ensemble.queue.land hint).1.toList.map Operation.ticket
  | .takeDue now => (ensemble.queue.takeDue now).1.toList.map Operation.ticket
  | _ => []

/-- A move parks only operations that were taken out of the queue; the `taken` ones were. -/
def Fair (ensemble : Ensemble) (taken : List Nat) : Move → Prop
  | .park index _ _ => ∀ op ∈ ensemble.held[index]?, op.ticket ∈ taken
  | _ => True

instance (ensemble : Ensemble) (taken : List Nat) (move : Move) :
    Decidable (ensemble.Fair taken move) :=
  match move with
  | .park index _ _ => inferInstanceAs (Decidable (∀ op ∈ ensemble.held[index]?, op.ticket ∈ taken))
  | .create .. | .enqueue .. | .dequeue .. | .land _ | .takeDue _ | .handBack _ | .cancel _
  | .removeExpired _ | .stop _ | .takeResponse _ | .complete .. | .giveUp _ => .isTrue trivial

/-- Every move parks only operations that were taken out of the queue before it. -/
def ParksTaken (ensemble : Ensemble) (taken : List Nat) : List Move → Prop
  | [] => True
  | move :: rest =>
    ensemble.Fair taken move ∧ (ensemble.step move).ParksTaken (taken ++ ensemble.takenBy move) rest

def decideParksTaken : (moves : List Move) → (ensemble : Ensemble) → (taken : List Nat) →
    Decidable (ensemble.ParksTaken taken moves)
  | [], _, _ => .isTrue trivial
  | move :: rest, ensemble, taken =>
    have := decideParksTaken rest (ensemble.step move) (taken ++ ensemble.takenBy move)
    inferInstanceAs (Decidable (_ ∧ _))

instance (ensemble : Ensemble) (taken : List Nat) (moves : List Move) :
    Decidable (ensemble.ParksTaken taken moves) :=
  decideParksTaken moves ensemble taken

/-- The operations that have arrived at the queue and are not yet given up: those that it holds and
those that were taken out of it. -/
def arrived (ensemble : Ensemble) (taken : List Nat) : List Operation :=
  ensemble.queue.all ++ ensemble.held.filter fun op => op.ticket ∈ taken

/-- Pending operations stand in order of arrival, and nobody arrived at the same place twice. -/
structure Sequenced (ensemble : Ensemble) (taken : List Nat) : Prop
    extends ensemble.Accounted where
  sorted : ensemble.queue.pending.Pairwise fun older newer => older.seq < newer.seq
  bounded : ∀ op ∈ ensemble.arrived taken, op.seq ≤ ensemble.queue.lastSeq
  apart : ∀ op ∈ ensemble.arrived taken, ∀ other ∈ ensemble.arrived taken,
    op.seq = other.seq → op.ticket = other.ticket
  past : ∀ ticket ∈ taken, ticket < ensemble.created

theorem sequenced_start (capacity : Nat) (retryDelay : Span) (expiresInFlight : Bool) :
    (start capacity retryDelay expiresInFlight).Sequenced [] where
  toAccounted := accounted_start capacity retryDelay expiresInFlight
  sorted := .nil
  bounded op member := by simp [arrived, start, Custody.ofQueue, Queue.new, Queue.all] at member
  apart op member := by simp [arrived, start, Custody.ofQueue, Queue.new, Queue.all] at member
  past := nofun

namespace Accounted

variable {ensemble : Ensemble}

/-- Nobody is held that the queue holds as well. -/
theorem ticket_ne (accounted : ensemble.Accounted) {op other : Operation}
    (queued : op ∈ ensemble.queue.all) (held : other ∈ ensemble.held) :
    op.ticket ≠ other.ticket := by
  intro same
  have once := accounted.once op.ticket
  have first : 0 < Operation.tally ensemble.queue.all op.ticket :=
    List.countP_pos_iff.2 ⟨op, queued, by simp⟩
  have second : 0 < Operation.tally ensemble.held op.ticket :=
    List.countP_pos_iff.2 ⟨other, held, by simp [same]⟩
  rw [tally, Queue.tally] at once
  split at once <;> omega

theorem ticket_lt (accounted : ensemble.Accounted) {op : Operation}
    (queued : op ∈ ensemble.queue.all) : op.ticket < ensemble.created := by
  have once := accounted.once op.ticket
  have first : 0 < Operation.tally ensemble.queue.all op.ticket :=
    List.countP_pos_iff.2 ⟨op, queued, by simp⟩
  rw [tally, Queue.tally] at once
  split at once <;> omega

theorem nodup_tickets (accounted : ensemble.Accounted) :
    (ensemble.queue.all.map Operation.ticket).Nodup := by
  refine List.nodup_iff_count_le_one.2 fun ticket => ?_
  have once := accounted.once ticket
  rw [← Operation.tally_eq_count]
  rw [tally, Queue.tally] at once
  split at once <;> omega

end Accounted

/-- Taking out a response leaves everybody else alone. -/
theorem mem_modify_takeResponse {ops : List Operation} {index : Nat} {op : Operation}
    (member : op ∈ ops.modify index fun op => op.takeResponse.2) :
    ∃ other ∈ ops, op = other ∨ op = other.takeResponse.2 := by
  obtain ⟨position, there⟩ := List.mem_iff_getElem?.1 member
  rw [List.getElem?_modify] at there
  obtain ⟨other, was, rfl⟩ := Option.map_eq_some_iff.1 there
  refine ⟨other, List.mem_of_getElem? was, ?_⟩
  split
  · exact .inr rfl
  · exact .inl rfl

namespace Sequenced

variable {before after ensemble : Ensemble} {taken more : List Nat}

/-- A move that takes nothing out. -/
theorem idle (sequenced : ensemble.Sequenced taken) : ensemble.Sequenced (taken ++ []) := by
  rwa [List.append_nil]

/-- Operations that have arrived may go from place to place, and may be given up. -/
theorem relocate (sequenced : before.Sequenced taken) (accounted : after.Accounted)
    (created : after.created = before.created)
    (lastSeq : after.queue.lastSeq = before.queue.lastSeq)
    (sorted : after.queue.pending.Pairwise fun older newer => older.seq < newer.seq)
    (origin : ∀ op ∈ after.arrived (taken ++ more),
      ∃ other ∈ before.arrived taken, op.ticket = other.ticket ∧ op.seq = other.seq)
    (past : ∀ ticket ∈ more, ticket < before.created) : after.Sequenced (taken ++ more) where
  toAccounted := accounted
  sorted := sorted
  bounded op member := by
    obtain ⟨other, was, -, seq⟩ := origin op member
    rw [seq, lastSeq]
    exact sequenced.bounded other was
  apart op member op' member' same := by
    obtain ⟨other, was, ticket, seq⟩ := origin op member
    obtain ⟨other', was', ticket', seq'⟩ := origin op' member'
    rw [ticket, ticket']
    exact sequenced.apart other was other' was' (by rw [← seq, ← seq', same])
  past ticket member := by
    rw [created]
    exact (List.mem_append.1 member).elim (sequenced.past ticket) (past ticket)

/-- The queue changes, and holds nobody who had not arrived. -/
theorem requeue (sequenced : ensemble.Sequenced taken) {queue : Queue}
    (accounted : Ensemble.Accounted { ensemble with queue })
    (lastSeq : queue.lastSeq = ensemble.queue.lastSeq)
    (sorted : queue.pending.Pairwise fun older newer => older.seq < newer.seq)
    (held : ∀ op ∈ queue.all, op ∈ ensemble.queue.all) :
    Ensemble.Sequenced { ensemble with queue } (taken ++ []) := by
  refine sequenced.relocate accounted rfl lastSeq sorted (fun op member => ⟨op, ?_, rfl, rfl⟩) nofun
  rw [List.append_nil] at member
  exact (List.mem_append.1 member).elim (fun queued => List.mem_append_left _ (held op queued))
    fun out => List.mem_append_right _ out

/-- Some of those that the queue holds are given up. -/
theorem thin (sequenced : ensemble.Sequenced taken) {queue : Queue}
    (accounted : Ensemble.Accounted { ensemble with queue })
    (thinned : Queue.Thinned ensemble.queue queue) :
    Ensemble.Sequenced { ensemble with queue } (taken ++ []) :=
  sequenced.requeue accounted thinned.lastSeq (sequenced.sorted.sublist thinned.pending)
    thinned.held

/-- An operation is taken out of the queue. -/
theorem take (sequenced : ensemble.Sequenced taken) {result : Option Operation × Queue}
    (accounted : (ensemble.take result).Accounted)
    (thinned : Queue.Thinned ensemble.queue result.2 ∧
      ∀ op ∈ result.1.toList, op ∈ ensemble.queue.all) :
    (ensemble.take result).Sequenced (taken ++ result.1.toList.map Operation.ticket) := by
  obtain ⟨thinned, came⟩ := thinned
  refine sequenced.relocate accounted rfl thinned.lastSeq
    (sequenced.sorted.sublist thinned.pending) (fun op member => ⟨op, ?_, rfl, rfl⟩) ?_
  · rcases List.mem_append.1 member with queued | out
    · exact List.mem_append_left _ (thinned.held op queued)
    · obtain ⟨held, known⟩ := List.mem_filter.1 out
      rcases List.mem_append.1 held with before | new
      · rcases List.mem_append.1 (of_decide_eq_true known) with old | same
        · exact List.mem_append_right _ (List.mem_filter.2 ⟨before, decide_eq_true old⟩)
        · -- Whoever is held already cannot be the one that comes out now.
          obtain ⟨other, out, ticket⟩ := List.mem_map.1 same
          exact absurd ticket (sequenced.ticket_ne (came other out) before)
      · exact List.mem_append_left _ (came op new)
  · intro ticket member
    obtain ⟨op, out, rfl⟩ := List.mem_map.1 member
    exact sequenced.ticket_lt (came op out)

/-- A held operation is given away; the queue takes it in as it arrived, or not at all. -/
theorem release (sequenced : ensemble.Sequenced taken) {index : Nat}
    {receive : Operation → Queue} (accounted : (ensemble.release index receive).Accounted)
    (received : ∀ op, ensemble.held[index]? = some op →
      (receive op).lastSeq = ensemble.queue.lastSeq ∧
      (receive op).pending = ensemble.queue.pending ∧
      ∀ other ∈ (receive op).all, other ∈ ensemble.queue.all ∨
        op.ticket ∈ taken ∧ other.ticket = op.ticket ∧ other.seq = op.seq) :
    (ensemble.release index receive).Sequenced (taken ++ []) := by
  unfold Ensemble.release at accounted ⊢
  split
  · rwa [List.append_nil]
  · next op there =>
    rw [there] at accounted
    obtain ⟨lastSeq, pending, origin⟩ := received op there
    refine sequenced.relocate accounted rfl lastSeq ?_ (fun other member => ?_) nofun
    · have sorted := sequenced.sorted
      rwa [← pending] at sorted
    · rw [List.append_nil] at member
      rcases List.mem_append.1 member with queued | out
      · rcases origin other queued with old | ⟨known, same⟩
        · exact ⟨other, List.mem_append_left _ old, rfl, rfl⟩
        · refine ⟨op, List.mem_append_right _ (List.mem_filter.2 ⟨?_, ?_⟩), same⟩
          · exact List.mem_of_getElem? there
          · exact decide_eq_true known
      · obtain ⟨held, known⟩ := List.mem_filter.1 out
        have before := List.mem_of_mem_eraseIdx held
        exact ⟨other, List.mem_append_right _ (List.mem_filter.2 ⟨before, known⟩), rfl, rfl⟩

/-- An operation that is only created has not arrived. -/
theorem create (sequenced : ensemble.Sequenced taken) (request : Request) (timeout : Option Span)
    (now : Instant) : (ensemble.step (.create request timeout now)).Sequenced taken := by
  have fresh : (Operation.new ensemble.created request timeout now).ticket ∉ taken :=
    fun member => Nat.lt_irrefl _ (sequenced.past _ member)
  have same : (ensemble.step (.create request timeout now)).arrived taken
      = ensemble.arrived taken := by
    simp [arrived, step, List.filter_append, fresh]
  refine ⟨sequenced.toAccounted.create request timeout now, sequenced.sorted, ?_, ?_, ?_⟩
  · rw [same]
    exact sequenced.bounded
  · rw [same]
    exact sequenced.apart
  · exact fun ticket member => Nat.lt_succ_of_lt (sequenced.past ticket member)

/-- An operation that is admitted arrives behind everybody else, also if it had arrived before. -/
theorem enqueue (sequenced : ensemble.Sequenced taken) (index : Nat) (admission : Admission) :
    (ensemble.step (.enqueue index admission)).Sequenced (taken ++ []) := by
  have accounted := sequenced.toAccounted.step (.enqueue index admission)
  cases there : ensemble.held[index]? with
  | none =>
    simp only [step, Ensemble.release, there, List.append_nil]
    exact sequenced
  | some op =>
    by_cases refused : ensemble.queue.stopped = true ∨
        admission = .capacityLimited ∧ ensemble.queue.capacity ≤ ensemble.queue.pending.length
    · refine sequenced.release accounted fun other _ => ?_
      have same : (ensemble.queue.enqueue other admission).2
          = ensemble.queue.deliver other (.error .cancelled) := by
        unfold Queue.enqueue
        rcases refused with stopped | full
        · rw [if_pos stopped]
        · rw [if_pos full]
          split <;> rfl
      rw [same]
      exact ⟨rfl, rfl, fun _ => .inl⟩
    · rw [not_or] at refused
      let new : Operation := { op with seq := ensemble.queue.lastSeq + 1 }
      have admitted : ensemble.step (.enqueue index admission) =
          { ensemble with
            queue := { ensemble.queue with
              lastSeq := ensemble.queue.lastSeq + 1
              pending := ensemble.queue.pending ++ [new] }
            held := ensemble.held.eraseIdx index } := by
        simp only [step, Ensemble.release, there, Queue.enqueue, if_neg refused.1,
          if_neg refused.2, new]
      have origin : ∀ other ∈ (ensemble.step (.enqueue index admission)).arrived taken,
          other ∈ ensemble.arrived taken ∨ other = new := by
        intro other member
        simp only [admitted, arrived, Queue.all, List.mem_append, List.mem_filter,
          List.mem_singleton] at member ⊢
        rcases member with (((waits | rfl) | flies) | parked) | ⟨held, known⟩
        · exact .inl (.inl (.inl (.inl waits)))
        · exact .inr rfl
        · exact .inl (.inl (.inl (.inr flies)))
        · exact .inl (.inl (.inr parked))
        · exact .inl (.inr ⟨List.mem_of_mem_eraseIdx held, known⟩)
      rw [List.append_nil]
      refine ⟨accounted, ?_, fun other member => ?_, fun first was second was' same => ?_, ?_⟩
      · rw [admitted]
        refine List.pairwise_append.2 ⟨sequenced.sorted, List.pairwise_singleton _ _, ?_⟩
        intro other waits last single
        obtain rfl := List.mem_singleton.1 single
        refine Nat.lt_succ_of_le (sequenced.bounded other ?_)
        simp [arrived, Queue.all, waits]
      · have atMost : other.seq ≤ ensemble.queue.lastSeq + 1 := by
          rcases origin other member with old | rfl
          · exact Nat.le_succ_of_le (sequenced.bounded other old)
          · exact Nat.le_refl _
        rwa [admitted]
      · rcases origin first was with old | rfl <;> rcases origin second was' with old' | rfl
        · exact sequenced.apart first old second old' same
        · exact absurd same (Nat.ne_of_lt (Nat.lt_succ_of_le (sequenced.bounded first old)))
        · exact absurd same.symm (Nat.ne_of_lt (Nat.lt_succ_of_le (sequenced.bounded second old')))
        · rfl
      · rw [admitted]
        exact sequenced.past

/-- Whoever is in flight arrived at a place of its own. -/
theorem queue_apart (sequenced : ensemble.Sequenced taken) : ensemble.queue.Apart := by
  have unique := sequenced.nodup_tickets
  have same : ∀ op ∈ ensemble.queue.all, ∀ other ∈ ensemble.queue.all,
      op.seq = other.seq → op.ticket = other.ticket := fun op member other member' =>
    sequenced.apart op (List.mem_append_left _ member) other (List.mem_append_left _ member')
  have flies : ∀ op ∈ ensemble.queue.inFlight, op ∈ ensemble.queue.all := fun op member =>
    List.mem_append_left _ (List.mem_append_right _ member)
  refine ⟨fun op member other member' seq => ?_, fun op member other waits seq => ?_⟩
  · have twin := List.inj_on_of_nodup_map unique (flies op member) (flies other member')
      (same op (flies op member) other (flies other member') seq)
    rw [twin]
  · have queued : other ∈ ensemble.queue.all :=
      List.mem_append_left _ (List.mem_append_left _ waits)
    have ticket := same op (flies op member) other queued seq
    rw [Queue.all, List.append_assoc, List.map_append, List.nodup_append] at unique
    refine unique.2.2 _ (List.mem_map_of_mem waits) _ (List.mem_map_of_mem ?_) ticket.symm
    exact List.mem_append_left _ member

/-- No two operations of the queue arrived at the same place. -/
theorem nodup_seqs (sequenced : ensemble.Sequenced taken) :
    (ensemble.queue.all.map Operation.seq).Nodup := by
  have unique := sequenced.nodup_tickets
  refine List.Nodup.map_on (fun op member other member' same => ?_) (List.Nodup.of_map _ unique)
  exact List.inj_on_of_nodup_map unique member member' (sequenced.apart op
    (List.mem_append_left _ member) other (List.mem_append_left _ member') same)

theorem handBack (sequenced : ensemble.Sequenced taken) (hints : List Hint) :
    (ensemble.step (.handBack hints)).Sequenced (taken ++ []) := by
  obtain ⟨waiting, flying, same, -, -⟩ := Queue.handBack_spec hints ensemble.queue
  refine sequenced.requeue (sequenced.toAccounted.step (.handBack hints)) (by rw [same])
    (Queue.sorted_handBack sequenced.sorted sequenced.queue_apart hints)
    fun op => Queue.mem_all_of_handBack

theorem park (sequenced : ensemble.Sequenced taken) {index : Nat} {now : Instant}
    {response : Response} (fair : ensemble.Fair taken (.park index now response)) :
    (ensemble.step (.park index now response)).Sequenced (taken ++ []) := by
  refine sequenced.release (sequenced.toAccounted.step (.park index now response))
    fun op there => ⟨?_, ?_, fun other held => ?_⟩
  · unfold Queue.park
    dsimp only
    split <;> rfl
  · unfold Queue.park
    dsimp only
    split <;> rfl
  · refine (Queue.held_park held).imp_right ?_
    rintro ⟨due, rfl⟩
    exact ⟨fair op there, rfl, rfl⟩

theorem takeResponse (sequenced : ensemble.Sequenced taken) (index : Nat) :
    (ensemble.step (.takeResponse index)).Sequenced (taken ++ []) := by
  refine sequenced.relocate (sequenced.toAccounted.step (.takeResponse index)) rfl rfl
    sequenced.sorted (fun op member => ?_) fun _ member => absurd member List.not_mem_nil
  rw [List.append_nil] at member
  rcases List.mem_append.1 member with queued | out
  · exact ⟨op, List.mem_append_left _ queued, rfl, rfl⟩
  · obtain ⟨held, known⟩ := List.mem_filter.1 out
    obtain ⟨other, was, same⟩ := mem_modify_takeResponse held
    rcases same with rfl | rfl
    · exact ⟨op, List.mem_append_right _ (List.mem_filter.2 ⟨was, known⟩), rfl, rfl⟩
    · exact ⟨other, List.mem_append_right _ (List.mem_filter.2 ⟨was, known⟩), rfl, rfl⟩

theorem step (sequenced : ensemble.Sequenced taken) {move : Move}
    (fair : ensemble.Fair taken move) :
    (ensemble.step move).Sequenced (taken ++ ensemble.takenBy move) := by
  have accounted := sequenced.toAccounted.step move
  cases move with
  | create request timeout now => exact (sequenced.create request timeout now).idle
  | enqueue index admission => exact sequenced.enqueue index admission
  | dequeue now deadline budget boundary =>
    exact sequenced.thin accounted (Queue.thinned_dequeue ..)
  | land hint => exact sequenced.take accounted (Queue.thinned_land ..)
  | takeDue now => exact sequenced.take accounted (Queue.thinned_takeDue ..)
  | handBack hints => exact sequenced.handBack hints
  | cancel hint => exact sequenced.thin accounted (Queue.thinned_cancel ..)
  | removeExpired now => exact sequenced.thin accounted (Queue.thinned_removeExpired ..)
  | stop cancelAll => exact sequenced.thin accounted (Queue.thinned_stop ..)
  | park index now response => exact sequenced.park fair
  | takeResponse index => exact sequenced.takeResponse index
  | complete index outcome =>
    exact sequenced.release accounted fun op _ => ⟨rfl, rfl, fun _ => .inl⟩
  | giveUp index =>
    exact sequenced.release accounted fun op _ => ⟨rfl, rfl, fun _ => .inl⟩

theorem run (sequenced : ensemble.Sequenced taken) {moves : List Move}
    (fair : ensemble.ParksTaken taken moves) : ∃ all, (ensemble.run moves).Sequenced all := by
  induction moves generalizing ensemble taken with
  | nil => exact ⟨taken, sequenced⟩
  | cons move rest ih => exact ih (sequenced.step fair.1) fair.2

end Sequenced

/-- After any moves that park only what was taken out of the queue, pending operations stand in
order of arrival, and the places of arrival of all operations of the queue are distinct and at most
the last one given out. So a fetch from a running queue with an operation behind the boundary takes
exactly the longest run that fits from the first such operation on and leaves the others as they
stood; nothing it brings arrived up to the boundary. -/
theorem arrival_kept (capacity : Nat) (retryDelay : Span) (expiresInFlight : Bool)
    (moves : List Move) (fair : (start capacity retryDelay expiresInFlight).ParksTaken [] moves) :
    let queue := ((start capacity retryDelay expiresInFlight).run moves).queue
    queue.pending.Pairwise (fun older newer => older.seq < newer.seq) ∧
    (queue.all.map Operation.seq).Nodup ∧
    (∀ op ∈ queue.all, op.seq ≤ queue.lastSeq) ∧
    ∀ now deadline budget boundary,
      (queue.stopped = false → (∃ op ∈ queue.pending, op.Newer boundary) →
        ∃ older run left, queue.pending = older ++ (run ++ left) ∧
          (∀ op ∈ older, ¬ op.Newer boundary) ∧ (∀ op ∈ run ++ left, op.Newer boundary) ∧
          total (run.map fun op => op.encoded.length) ≤ budget ∧
          (∀ front, front <+: run ++ left →
            total (front.map fun op => op.encoded.length) ≤ budget → front <+: run) ∧
          queue.dequeue now deadline budget boundary
            = (.ready (.ok run), run.foldl Queue.launch { queue with pending := older ++ left }) ∧
          (queue.dequeue now deadline budget boundary).2.pending = older ++ left) ∧
      ∀ run after, queue.dequeue now deadline budget boundary = (.ready (.ok run), after) →
        ∀ op ∈ run, op.Newer boundary := by
  intro queue
  obtain ⟨all, sequenced⟩ := (sequenced_start capacity retryDelay expiresInFlight).run fair
  have sorted : queue.pending.Pairwise fun older newer => older.seq < newer.seq := sequenced.sorted
  refine ⟨sorted, sequenced.nodup_seqs, fun op member => ?_, fun now deadline budget boundary =>
    ⟨fun running waits => ?_, fun run after fetched => Queue.newer_of_dequeue sorted fetched⟩⟩
  · exact sequenced.bounded op (List.mem_append_left _ member)
  · obtain ⟨older, run, left, whole, early, late, fits, longest, fetched⟩ :=
      Queue.dequeue_eligible running sorted waits now deadline budget
    have sizes : Operation.size = fun op => op.encoded.length :=
      funext fun op => op.length_encoded.symm
    rw [sizes] at fits longest
    refine ⟨older, run, left, whole, early, late, fits, longest, fetched, ?_⟩
    rw [fetched, Queue.pending_foldl_launch]

/-- The first of two operations is fetched, put off and tried again, and at last parked for good
while the second is fetched, handed back and fetched again. -/
def roundTrip : List Move :=
  let shutdown : Request := ⟨.v1, ⟨1⟩, .shutdown, []⟩
  let acknowledged : Response := .ofStatus .v1 ⟨1⟩ .shutdown .success
  [.create shutdown none 0, .enqueue 0 .capacityLimited,
    .create (shutdown.withHint ⟨2⟩) none 0, .enqueue 0 .capacityLimited,
    .dequeue 0 none 80 none, .land ⟨1⟩, .park 0 0 acknowledged, .takeDue 0, .takeResponse 0,
    .park 0 0 acknowledged, .dequeue 0 none 80 none, .handBack [⟨2⟩, ⟨1⟩]]

theorem arrival_kept_roundTrip :
    (start 2 0 false).ParksTaken [] roundTrip ∧
      ∃ older run left,
        ((start 2 0 false).run roundTrip).queue.pending = older ++ (run ++ left) ∧
          ∀ op ∈ run ++ left, op.Newer (some 1) := by
  have fair : (start 2 0 false).ParksTaken [] roundTrip := by decide
  have waits : ∃ op ∈ ((start 2 0 false).run roundTrip).queue.pending, 1 < op.seq := by decide
  obtain ⟨op, member, late⟩ := waits
  have fetches := (arrival_kept 2 0 false roundTrip fair).2.2.2 0 none 80 (some 1)
  obtain ⟨older, run, left, whole, -, newer, -⟩ :=
    fetches.1 rfl ⟨op, member, fun seq same => Option.some.inj same ▸ late⟩
  exact ⟨fair, older, run, left, whole, newer⟩

end Ensemble
end FileBroker
