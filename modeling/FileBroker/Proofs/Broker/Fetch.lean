import FileBroker.Proofs.Broker.Run
import FileBroker.Proofs.Queue.Fetch
import FileBroker.Proofs.Request.Codec

/-!
How a buffer is filled: with the longest front of the pending requests that it has room for, in
order, and with nothing left out or put back.
-/
namespace FileBroker

namespace Operation

theorem length_flatMap_encoded (ops : List Operation) :
    (ops.flatMap encoded).length = total (ops.map size) := by
  simp only [List.length_flatMap, length_encoded]

theorem alignUp_size (op : Operation) : Layout.alignUp op.size = op.size :=
  Layout.alignUp_of_dvd (Layout.dvd_alignUp _)

theorem size_pos (op : Operation) : 0 < op.size := by
  have whole := Layout.le_alignUp op.request.encodedSize
  have fixed : 0 < Request.fixedSize := by decide
  unfold size
  unfold Request.encodedSize at whole ⊢
  omega

/-- A request of some revision never outgrows the bound of that revision, which is aligned. -/
theorem size_le {op : Operation} {revision : Revision} (spoken : op.request.revision = revision)
    (formed : op.request.WellFormed) : op.size ≤ revision.messageLimit := by
  have short := formed.1
  rw [spoken] at short
  exact Layout.alignUp_le short revision.dvd_messageLimit

theorem size_le_unbounded {op : Operation} (formed : op.request.WellFormed) :
    op.size ≤ Batch.unbounded := by
  have short := size_le rfl formed
  have bound := op.request.revision.messageLimit_le
  have word : Batch.unbounded = 18446744073709551615 := rfl
  omega

end Operation

namespace Broker

/-- The broker after `batch` went from the front of its pending operations into flight. -/
structure Fetched (broker : Broker) (batch rest : List Operation) (after : Broker) : Prop where
  pending : broker.queue.pending = batch ++ rest
  queue : after.queue = batch.foldl Queue.launch { broker.queue with pending := rest }
  config : after.config = broker.config
  nextHint : after.nextHint = broker.nextHint

namespace Fetched

variable {broker middle after : Broker} {first second rest left : List Operation}

/-- Nothing was fetched. -/
theorem nothing (queue : after.queue = broker.queue) (config : after.config = broker.config)
    (nextHint : after.nextHint = broker.nextHint) :
    Fetched broker [] broker.queue.pending after :=
  ⟨rfl, queue, config, nextHint⟩

/-- One fetch after the other. -/
theorem trans (before : Fetched broker first rest middle)
    (then' : Fetched middle second left after) : Fetched broker (first ++ second) left after := by
  have waiting : rest = second ++ left := by
    have same := then'.pending
    rw [before.queue, Queue.pending_foldl_launch] at same
    exact same
  refine ⟨?_, ?_, then'.config.trans before.config, then'.nextHint.trans before.nextHint⟩
  · rw [before.pending, waiting, List.append_assoc]
  · have moved := Queue.foldl_launch_with_pending first { broker.queue with pending := rest } left
    rw [then'.queue, before.queue, List.foldl_append, ← moved]

theorem stopped_eq (fetched : Fetched broker first rest after) :
    after.queue.stopped = broker.queue.stopped := by
  rw [fetched.queue]
  exact (Queue.kept_foldl_launch first _).1

/-- The queue goes on serving. -/
theorem serving (fetched : Fetched broker first rest after) (serving : broker.queue.Serving) :
    after.queue.Serving where
  running := fetched.stopped_eq.trans serving.running
  unparked := by
    rw [fetched.queue]
    exact (Queue.kept_foldl_launch first _).2.2.trans serving.unparked

theorem pending_after (fetched : Fetched broker first rest after) : after.queue.pending = rest := by
  rw [fetched.queue, Queue.pending_foldl_launch]

end Fetched

variable {broker : Broker}

theorem writeOut_ok {writer : Batch.Writer} {ops : List Operation} (bounds : writer.InBounds)
    (formed : ∀ op ∈ ops, op.request.WellFormed)
    (fits : total (ops.map Operation.size) ≤ writer.remaining) :
    ∃ written after, broker.writeOut writer ops = (true, written, after) ∧
      written.written = writer.written ++ ops.flatMap Operation.encoded ∧ written.InBounds ∧
      written.buffer.size = writer.buffer.size ∧
      after.queue = broker.queue ∧ after.config = broker.config ∧
      after.nextHint = broker.nextHint := by
  induction ops generalizing broker writer with
  | nil => exact ⟨writer, broker, rfl, by simp, bounds, rfl, rfl, rfl, rfl⟩
  | cons op rest ih =>
    have short := Operation.size_le_unbounded (formed op (List.mem_cons_self ..))
    have length := op.length_encoded
    simp only [total, List.map_cons, List.sum_cons, Batch.Writer.remaining] at fits
    unfold Batch.Writer.InBounds at bounds
    have room : writer.cursor + Layout.alignUp op.encoded.length ≤ writer.buffer.size := by
      rw [length, op.alignUp_size]
      omega
    have allowed : op.encoded.length ≤ Batch.unbounded := by omega
    obtain ⟨pushed, push⟩ := Batch.Writer.push_ok allowed room
    obtain ⟨longer, cursor, size, within⟩ := Batch.Writer.push_eq_ok bounds push
    have smaller : total (rest.map Operation.size) ≤ pushed.remaining := by
      rw [total, Batch.Writer.remaining, cursor, size, length, op.alignUp_size]
      omega
    obtain ⟨written, after, wrote, filled, end', size', queue, config, nextHint⟩ :=
      @ih { broker with
        counters := { broker.counters with dispatched := broker.counters.dispatched + 1 } }
        pushed within (fun other member => formed other (List.mem_cons_of_mem _ member)) smaller
    refine ⟨written, after, ?_, ?_, end', size'.trans size, queue, config, nextHint⟩
    · unfold writeOut Batch.Writer.pushEncoded
      rw [push]
      exact wrote
    · rw [filled, longer, List.flatMap_cons, List.append_assoc]
      exact congrArg (fun bytes => writer.written ++ (bytes ++ _)) (Layout.pad_pad _)

/-- What is fetched is written whole, and everything fetched after it as well. -/
theorem handOver_spec (now : Instant) {writer : Batch.Writer} {batch : List Operation}
    (running : broker.queue.stopped = false) (bounds : writer.InBounds)
    (formed : ∀ op ∈ batch ++ broker.queue.pending, op.request.WellFormed)
    (sorted : (batch ++ broker.queue.pending).Pairwise fun older newer => older.seq < newer.seq)
    (fits : total (batch.map Operation.size) ≤ writer.remaining) :
    ∃ more rest, Fetched broker more rest (broker.handOver now writer batch).2 ∧
      (broker.handOver now writer batch).1.written
        = writer.written ++ (batch ++ more).flatMap Operation.encoded ∧
      (broker.handOver now writer batch).1.InBounds ∧
      (broker.handOver now writer batch).1.buffer.size = writer.buffer.size := by
  fun_induction Broker.handOver broker now writer batch with
  | case1 broker writer batch empty =>
    rw [List.getLast?_eq_none_iff.1 empty]
    exact ⟨[], _, .nothing rfl rfl rfl, by simp, bounds, rfl⟩
  | case2 broker writer batch last filled writer' broker' failed =>
    obtain ⟨written, after, wrote, -⟩ := writeOut_ok bounds
      (fun op member => formed op (List.mem_append_left _ member)) fits
    rw [wrote] at failed
    cases failed
  | case3 broker writer batch last filled writer' broker' done room next queue fetched ih =>
    obtain ⟨written, after, wrote, longer, within, size, same, config, nextHint⟩ :=
      writeOut_ok bounds (fun op member => formed op (List.mem_append_left _ member)) fits
    rw [wrote] at done
    cases done
    obtain ⟨next', rest, cut, small, moved⟩ := Queue.dequeue_now running
      (Queue.newer_of_sorted sorted filled) now writer'.remaining
    rw [same, moved] at fetched
    cases fetched
    have first : Fetched broker next rest
        { broker' with queue := next.foldl Queue.launch { broker.queue with pending := rest } } :=
      ⟨cut, rfl, config, nextHint⟩
    have left := first.pending_after
    dsimp only at left ih
    rw [left, ← cut] at ih
    obtain ⟨more, rest', fetched', all, within', size'⟩ := ih (first.stopped_eq.trans running)
      within (fun op member => formed op (List.mem_append_right _ member))
      (List.pairwise_append.1 sorted).2.1 small
    refine ⟨next ++ more, rest', first.trans fetched', ?_, within', size'.trans size⟩
    rw [all, longer]
    simp only [List.flatMap_append, List.append_assoc]
  | case4 broker writer batch last filled writer' broker' done room other queue failed fetched =>
    obtain ⟨written, after, wrote, longer, within, size, same, config, nextHint⟩ :=
      writeOut_ok bounds (fun op member => formed op (List.mem_append_left _ member)) fits
    rw [wrote] at done
    cases done
    obtain ⟨next', rest, -, -, moved⟩ := Queue.dequeue_now running
      (Queue.newer_of_sorted sorted filled) now writer'.remaining
    rw [same, moved] at fetched
    cases fetched
    exact absurd rfl (failed next')
  | case5 broker writer batch last filled writer' broker' done room =>
    obtain ⟨written, after, wrote, longer, within, size, same, config, nextHint⟩ :=
      writeOut_ok bounds (fun op member => formed op (List.mem_append_left _ member)) fits
    rw [wrote] at done
    cases done
    refine ⟨[], _, .nothing same config nextHint, ?_, within, size⟩
    rw [longer, List.append_nil]

/-- Without parked operations there is nothing to attempt again. -/
theorem resumeDue_of_serving (serving : broker.queue.Serving) (routine : Routine) (now : Instant)
    (tick : Span := 1) : (broker.resumeDue routine now tick).2 = broker := by
  have none_due := serving.takeDue now
  unfold Broker.resumeDue Broker.processRetries
  split
  · next queue due =>
    rw [none_due] at due
    cases due
    rfl
  · next op queue due =>
    rw [none_due] at due
    cases due

/-- Nothing behind the place that the writer has got to is touched. -/
theorem drop_handOver (broker : Broker) (now : Instant) {writer : Batch.Writer}
    (batch : List Operation) (bounds : writer.InBounds) :
    let written := (broker.handOver now writer batch).1
    written.buffer.bytes.drop written.cursor = writer.buffer.bytes.drop written.cursor := by
  have behind : FetchInvariant fun _ written _ => written.InBounds ∧
      written.buffer.bytes.drop written.cursor = writer.buffer.bytes.drop written.cursor :=
    { write := by
        -- A write ends where the cursor stands afterwards.
        intro broker written further op rest ⟨within, same⟩ pushed
        obtain ⟨-, moved, -, within'⟩ := Batch.Writer.push_eq_ok within pushed
        refine ⟨within', ?_⟩
        rw [Batch.Writer.drop_push within pushed, moved, ← List.drop_drop, same, List.drop_drop]
      handBack := fun _ _ _ kept => kept
      fetch := fun _ _ _ _ _ kept _ => kept }
  exact (behind.handOver now writer batch ⟨bounds, rfl⟩).2

/-- What a worker gets in its buffer: in wire form the longest front of the pending operations that
there is room for, which is not empty if anything was pending. -/
structure Delivered (broker : Broker) (buffer : Buffer) (batch rest : List Operation)
    (count : Nat) (filled : Buffer) (after : Broker) : Prop
    extends Fetched broker batch rest after where
  bytes : filled.front count = batch.flatMap Operation.encoded
  count_eq : count = total (batch.map Operation.size)
  fits : count ≤ buffer.size
  longest : ∀ front, front <+: broker.queue.pending →
    total (front.map Operation.size) ≤ buffer.size → front <+: batch
  size : filled.size = buffer.size
  behind : filled.bytes.drop count = buffer.bytes.drop count
  progress : broker.queue.pending ≠ [] → batch ≠ []

theorem Delivered.count_pos {buffer filled : Buffer} {batch rest : List Operation} {count : Nat}
    {after : Broker} (delivered : Delivered broker buffer batch rest count filled after)
    (some' : broker.queue.pending ≠ []) : 0 < count := by
  obtain ⟨op, others, rfl⟩ := List.exists_cons_of_ne_nil (delivered.progress some')
  rw [delivered.count_eq, List.map_cons, total, List.sum_cons]
  exact Nat.add_pos_left op.size_pos _

/-- The worker reads the requests of the batch in its buffer. -/
theorem Delivered.frames {buffer filled : Buffer} {batch rest : List Operation} {count : Nat}
    {after : Broker} (delivered : Delivered broker buffer batch rest count filled after)
    (formed : ∀ op ∈ broker.queue.pending, op.request.WellFormed) :
    Batch.frames .request (filled.front count)
      = batch.map fun op => ⟨.request, op.request.message⟩ := by
  have sized : ∀ op ∈ batch, Frame.Sized .request op.request.message := by
    intro op member
    refine Request.sized_message (formed op ?_).1
    rw [delivered.pending]
    exact List.mem_append_left _ member
  rw [delivered.bytes]
  exact Batch.frames_padded sized

/-- An empty buffer is the answer when there is nothing to fetch. -/
theorem delivered_nothing (nothing : broker.queue.pending = []) (buffer : Buffer) :
    Delivered broker buffer [] [] 0 buffer broker := by
  have fetched : Fetched broker [] broker.queue.pending broker := .nothing rfl rfl rfl
  rw [nothing] at fetched
  exact
    { fetched with
      bytes := rfl
      count_eq := rfl
      fits := Nat.zero_le _
      longest := fun front start _ => nothing ▸ start
      size := rfl
      behind := rfl
      progress := fun some' => absurd nothing some' }

/-- A first fetch that brought the longest front that fits is written whole. -/
theorem delivered_handOver (now : Instant) {buffer : Buffer} {next rest : List Operation}
    {fetching : Broker} (first : Fetched broker next rest fetching)
    (running : broker.queue.stopped = false) (ordered : broker.queue.Ordered)
    (formed : ∀ op ∈ broker.queue.pending, op.request.WellFormed)
    (fits : total (next.map Operation.size) ≤ buffer.size)
    (longest : ∀ front, front <+: broker.queue.pending →
      total (front.map Operation.size) ≤ buffer.size → front <+: next)
    (progress : broker.queue.pending ≠ [] → next ≠ []) :
    ∃ batch left, Delivered broker buffer batch left
      (fetching.handOver now (.ofBuffer buffer) next).1.cursor
      (fetching.handOver now (.ofBuffer buffer) next).1.buffer
      (fetching.handOver now (.ofBuffer buffer) next).2 := by
  have whole : next ++ fetching.queue.pending = broker.queue.pending := by
    rw [first.pending_after, first.pending]
  have empty : (Batch.Writer.ofBuffer buffer).InBounds := Nat.zero_le _
  obtain ⟨more, left, fetched, all, within, size⟩ := handOver_spec now
    (first.stopped_eq.trans running) empty (by rwa [whole]) (by rw [whole]; exact ordered.sorted)
    fits
  have counted := Batch.Writer.length_written within
  rw [all, Batch.Writer.ofBuffer, Batch.Writer.written, Buffer.front, List.take_zero,
    List.nil_append, Operation.length_flatMap_encoded] at counted
  have within' : (fetching.handOver now (.ofBuffer buffer) next).1.cursor ≤ buffer.size :=
    size ▸ within
  exact ⟨next ++ more, left,
    { first.trans fetched with
      bytes := all
      count_eq := counted.symm
      fits := within'
      longest := fun front start fits =>
        (longest front start fits).trans (List.prefix_append next more)
      size := size
      behind := fetching.drop_handOver now next empty
      progress := fun pending => List.append_ne_nil_of_left_ne_nil (progress pending) more }⟩

/-- Where nothing is pending, an attempt to fill a buffer sleeps until it is woken. Then it leaves
the buffer as it was, and attempts what is due. -/
theorem pollExchange_idle (running : broker.queue.stopped = false)
    (nothing : broker.queue.pending = []) {deadline : Option Instant} {wake : Instant}
    (wakes : Instant.earlier deadline broker.queue.nextRetry = some wake) (routine : Routine)
    (now : Instant) (buffer : Buffer) (tick : Span) :
    broker.pollExchange routine now deadline buffer tick =
      if wake ≤ now then
        (.ready (.ok (0, buffer)), (broker.resumeDue routine (now + tick) tick).2)
      else (.asleep (some wake), broker) := by
  unfold pollExchange
  rw [Queue.dequeue_eq_wait running nothing, wakes]
  dsimp only
  by_cases awake : wake ≤ now
  · rw [if_pos awake, if_pos awake]
    dsimp only
    rw [handOver]
    rfl
  · rw [if_neg awake, if_neg awake]

/-- Where nothing is there to wake it, it sleeps for ever. -/
theorem pollExchange_endless (running : broker.queue.stopped = false)
    (nothing : broker.queue.pending = []) {deadline : Option Instant}
    (endless : Instant.earlier deadline broker.queue.nextRetry = none) (routine : Routine)
    (now : Instant) (buffer : Buffer) (tick : Span) :
    broker.pollExchange routine now deadline buffer tick = (.asleep none, broker) := by
  unfold pollExchange
  rw [Queue.dequeue_eq_wait running nothing, endless]

/-- Where something is pending, the buffer is filled at once, and no retry is attempted. -/
theorem pollExchange_some (some' : broker.queue.pending ≠ [])
    (running : broker.queue.stopped = false) (ordered : broker.queue.Ordered)
    (formed : ∀ op ∈ broker.queue.pending, op.request.WellFormed) {buffer : Buffer}
    (small : ∀ op ∈ broker.queue.pending, op.size ≤ buffer.size) (routine : Routine)
    (now : Instant) (deadline : Option Instant) (tick : Span) :
    ∃ batch rest count filled after,
      broker.pollExchange routine now deadline buffer tick
        = (.ready (.ok (count, filled)), after) ∧
      Delivered broker buffer batch rest count filled after := by
  obtain ⟨next, rest, cut⟩ : ∃ next rest, Queue.takeRun buffer.size broker.queue.pending
      = (next, rest) := ⟨_, _, rfl⟩
  have older : ∀ seq, none = some seq → ∀ op ∈ broker.queue.pending, seq < op.seq := nofun
  have moved := Queue.dequeue_newer running some' older now deadline buffer.size
  have whole := Queue.takeRun_append buffer.size broker.queue.pending
  have fits := Queue.total_takeRun_le buffer.size broker.queue.pending
  have longest := @Queue.isPrefix_takeRun buffer.size broker.queue.pending
  have progress : (Queue.takeRun buffer.size broker.queue.pending).1 ≠ [] := by
    obtain ⟨op, others, first⟩ := List.exists_cons_of_ne_nil some'
    have room := small op (by rw [first]; exact List.mem_cons_self ..)
    rw [first]
    exact Queue.takeRun_ne_nil room
  rw [cut] at moved whole fits longest progress
  have first : Fetched broker next rest
      { broker with queue := next.foldl Queue.launch { broker.queue with pending := rest } } :=
    ⟨whole.symm, rfl, rfl, rfl⟩
  obtain ⟨batch, left, delivered⟩ := delivered_handOver now first running ordered formed fits
    (fun _ => longest) fun _ => progress
  refine ⟨batch, left, _, _, _, ?_, delivered⟩
  have filled := delivered.count_pos some'
  unfold pollExchange
  rw [moved]
  dsimp only
  rw [if_neg]
  simpa [Batch.Writer.isEmpty] using Nat.ne_of_gt filled

/-- While there are no retries, filling a buffer waits for want of requests, or succeeds. -/
theorem pollExchange_spec (routine : Routine) (now : Instant) (deadline : Option Instant)
    (buffer : Buffer) (serving : broker.queue.Serving) (ordered : broker.queue.Ordered)
    (formed : ∀ op ∈ broker.queue.pending, op.request.WellFormed)
    (small : ∀ op ∈ broker.queue.pending, op.size ≤ buffer.size) :
    (broker.queue.pending = [] ∧
      ∃ wake, broker.pollExchange routine now deadline buffer = (.asleep wake, broker)) ∨
    ∃ batch rest count filled after,
      broker.pollExchange routine now deadline buffer = (.ready (.ok (count, filled)), after) ∧
      Delivered broker buffer batch rest count filled after := by
  by_cases nothing : broker.queue.pending = []
  · cases wakes : Instant.earlier deadline broker.queue.nextRetry with
    | none => exact .inl ⟨nothing, _, pollExchange_endless serving.running nothing wakes ..⟩
    | some wake =>
      have polls := pollExchange_idle serving.running nothing wakes routine now buffer 1
      by_cases awake : wake ≤ now
      · rw [if_pos awake, resumeDue_of_serving serving] at polls
        exact .inr ⟨[], [], 0, buffer, broker, polls, delivered_nothing nothing buffer⟩
      · rw [if_neg awake] at polls
        exact .inl ⟨nothing, _, polls⟩
  · exact .inr (pollExchange_some nothing serving.running ordered formed small routine now
      deadline 1)

theorem beginExchange_of_serving (routine : Routine) (now : Instant) (responses : Bytes)
    {room : Nat} (serving : (broker.ingest routine now responses).2.queue.Serving)
    (fits : (broker.ingest routine now responses).2.config.revision.messageLimit ≤ room) :
    broker.beginExchange routine now responses room
      = (.ok true, (broker.ingest routine now responses).2) := by
  have bound := (broker.ingest routine now responses).2.config.revision.messageLimit_ge
  have idle := resumeDue_of_serving serving routine now
  unfold beginExchange
  dsimp only
  rw [if_neg (by omega), idle, if_pos]
  simpa [Layout.fits] using fits

/-- An exchange returns at once if there is something to fetch. -/
theorem exchange_spec (routine : Routine) {now : Instant} {responses : Bytes} {buffer : Buffer}
    (wait : Bool) {middle : Broker}
    (ingested : (broker.ingest routine now responses).2 = middle)
    (serving : middle.queue.Serving) (ordered : middle.queue.Ordered)
    (formed : ∀ op ∈ middle.queue.pending, op.request.WellFormed)
    (small : ∀ op ∈ middle.queue.pending, op.size ≤ buffer.size)
    (fits : middle.config.revision.messageLimit ≤ buffer.size)
    (pending : middle.queue.pending ≠ []) :
    ∃ batch rest count filled,
      (broker.exchange routine now responses buffer wait).1 = some (.ok (count, filled), now) ∧
      middle.Delivered buffer batch rest count filled
        (broker.exchange routine now responses buffer wait).2 := by
  subst ingested
  unfold exchange
  rw [beginExchange_of_serving routine now responses serving fits]
  dsimp only
  obtain ⟨batch, rest, count, filled, after, ready, delivered⟩ := pollExchange_some pending
    serving.running ordered formed small routine now
    ((broker.ingest routine now responses).2.exchangeDeadline now wait) 1
  rw [ready]
  exact ⟨batch, rest, count, filled, rfl, delivered⟩

end Broker
end FileBroker
