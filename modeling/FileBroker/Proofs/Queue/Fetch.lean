import FileBroker.Proofs.Queue.Contents
import FileBroker.Proofs.Request.Codec

/-!
What a fetch brings while a queue runs: the longest front of the pending operations that fits,
provided all of them arrived after the boundary.
-/
namespace FileBroker

/-- The wire form is as long as the operation was said to be. -/
theorem Operation.length_encoded (op : Operation) : op.encoded.length = op.size := by
  rw [encoded, Request.encode_eq, Layout.length_pad, Request.length_message]
  rfl

namespace Queue

/-- No operation is parked and the queue takes work. -/
structure Serving (queue : Queue) : Prop where
  running : queue.stopped = false
  unparked : queue.parked = []

theorem Serving.takeDue {queue : Queue} (serving : queue.Serving) (now : Instant) :
    queue.takeDue now = (none, queue) := by
  unfold Queue.takeDue
  rw [serving.unparked]
  rfl

/-- The pending operations stand in the order they arrived in. -/
structure Ordered (queue : Queue) : Prop where
  sorted : queue.pending.Pairwise fun older newer => older.seq < newer.seq
  bounded : ∀ op ∈ queue.pending, op.seq ≤ queue.lastSeq

/-- All that is pending arrived after a batch that was fetched before it. -/
theorem newer_of_sorted {batch pending : List Operation} {last : Operation}
    (sorted : (batch ++ pending).Pairwise fun older newer => older.seq < newer.seq)
    (ends : batch.getLast? = some last) :
    ∀ seq, some last.seq = some seq → ∀ op ∈ pending, seq < op.seq := by
  rintro seq ⟨⟩ op member
  rw [List.pairwise_append] at sorted
  exact sorted.2.2 last (List.mem_of_getLast? ends) op member

theorem splitAfter_of_newer {boundary : Option Nat} {ops : List Operation}
    (newer : ∀ seq, boundary = some seq → ∀ op ∈ ops, seq < op.seq) :
    splitAfter boundary ops = ([], ops) := by
  cases boundary with
  | none => rfl
  | some seq =>
    cases ops with
    | nil => rfl
    | cons op rest =>
      have late : ¬ op.seq ≤ seq := Nat.not_le.2 (newer seq rfl op (List.mem_cons_self ..))
      simp [splitAfter, late]

theorem total_takeRun_le (budget : Nat) (ops : List Operation) :
    total ((takeRun budget ops).1.map Operation.size) ≤ budget := by
  induction ops generalizing budget with
  | nil => exact Nat.zero_le _
  | cons op rest ih =>
    unfold takeRun
    split
    · have others := ih (budget - op.size)
      simp only [total, List.map_cons, List.sum_cons] at others ⊢
      omega
    · exact Nat.zero_le _

theorem takeRun_ne_nil {budget : Nat} {op : Operation} {rest : List Operation}
    (fits : op.size ≤ budget) : (takeRun budget (op :: rest)).1 ≠ [] := by
  unfold takeRun
  rw [if_pos fits]
  exact List.cons_ne_nil _ _

/-- The longest front of the operations whose sizes sum to at most the budget. -/
theorem isPrefix_takeRun {budget : Nat} {ops front : List Operation} (start : front <+: ops)
    (fits : total (front.map Operation.size) ≤ budget) : front <+: (takeRun budget ops).1 := by
  induction ops generalizing budget front with
  | nil =>
    obtain rfl := List.prefix_nil.1 start
    exact List.nil_prefix
  | cons op rest ih =>
    cases front with
    | nil => exact List.nil_prefix
    | cons first others =>
      obtain ⟨rfl, further⟩ := List.cons_prefix_cons.1 start
      have fits : first.size + total (others.map Operation.size) ≤ budget := by
        rwa [List.map_cons, total, List.sum_cons] at fits
      unfold takeRun
      rw [if_pos (by omega)]
      exact List.cons_prefix_cons.2 ⟨rfl, ih further (by omega)⟩

theorem earlier_le (now : Instant) (other : Option Instant) :
    ∃ instant ≤ now, Instant.earlier (some now) other = some instant := by
  cases other with
  | none => exact ⟨now, Nat.le_refl _, rfl⟩
  | some instant => exact ⟨min now instant, Nat.min_le_left .., rfl⟩

/-- Without a pending operation a fetch waits for its deadline or a retry, whichever comes first;
for ever if there is neither. -/
theorem dequeue_eq_wait {queue : Queue} (running : queue.stopped = false)
    (nothing : queue.pending = []) (now : Instant) (deadline : Option Instant) (budget : Nat)
    (boundary : Option Nat) :
    queue.dequeue now deadline budget boundary =
      match Instant.earlier deadline queue.nextRetry with
      | some wake => (if wake ≤ now then .ready (.ok []) else .asleep (some wake), queue)
      | none => (.asleep none, queue) := by
  have split : splitAfter boundary [] = ([], []) := by cases boundary <;> rfl
  unfold dequeue
  rw [if_neg (by rw [running]; exact Bool.false_ne_true), nothing, split]
  dsimp only
  rw [if_pos List.isEmpty_nil]
  cases Instant.earlier deadline queue.nextRetry with
  | none => rfl
  | some wake =>
    dsimp only
    split <;> rfl

theorem dequeue_newer {queue : Queue} (running : queue.stopped = false)
    (some' : queue.pending ≠ []) {boundary : Option Nat}
    (newer : ∀ seq, boundary = some seq → ∀ op ∈ queue.pending, seq < op.seq) (now : Instant)
    (deadline : Option Instant) (budget : Nat) :
    queue.dequeue now deadline budget boundary =
      (.ready (.ok (takeRun budget queue.pending).1),
        (takeRun budget queue.pending).1.foldl launch
          { queue with pending := (takeRun budget queue.pending).2 }) := by
  unfold dequeue
  rw [if_neg (by rw [running]; exact Bool.false_ne_true), splitAfter_of_newer newer]
  dsimp only
  rw [if_neg (by simpa using some')]
  rfl

/-- A fetch that does not wait takes the longest front of the pending operations that fits. -/
theorem dequeue_now {queue : Queue} (running : queue.stopped = false) {boundary : Option Nat}
    (newer : ∀ seq, boundary = some seq → ∀ op ∈ queue.pending, seq < op.seq) (now : Instant)
    (budget : Nat) :
    ∃ next rest, queue.pending = next ++ rest ∧ total (next.map Operation.size) ≤ budget ∧
      queue.dequeue now (some now) budget boundary =
        (.ready (.ok next), next.foldl launch { queue with pending := rest }) := by
  by_cases nothing : queue.pending = []
  · refine ⟨[], [], nothing, Nat.zero_le _, ?_⟩
    obtain ⟨wake, early, wakes⟩ := earlier_le now queue.nextRetry
    have same : { queue with pending := [] } = queue := by rw [← nothing]
    rw [dequeue_eq_wait running nothing, wakes, List.foldl_nil, same]
    dsimp only
    rw [if_pos early]
  · exact ⟨_, _, (takeRun_append budget queue.pending).symm, total_takeRun_le budget _,
      dequeue_newer running nothing newer now (some now) budget⟩

/-- A fetch brings only what was pending, and no more than its budget. -/
theorem dequeue_ok {queue after : Queue} {now : Instant} {deadline : Option Instant} {budget : Nat}
    {boundary : Option Nat} {run : List Operation}
    (fetched : queue.dequeue now deadline budget boundary = (.ready (.ok run), after)) :
    total (run.map Operation.size) ≤ budget ∧ ∀ op ∈ run ++ after.pending, op ∈ queue.pending := by
  have whole := pending_eq_run queue budget boundary
  unfold dequeue at fetched
  split at fetched
  · cases fetched
  · dsimp only at fetched
    split at fetched
    · split at fetched
      · split at fetched
        · cases fetched
          exact ⟨Nat.zero_le _, fun op => id⟩
        · cases fetched
      · cases fetched
    · cases fetched
      refine ⟨total_takeRun_le budget _, fun op member => ?_⟩
      rw [pending_foldl_launch] at member
      rw [whole]
      simp only [List.mem_append] at member ⊢
      tauto

end Queue
end FileBroker
