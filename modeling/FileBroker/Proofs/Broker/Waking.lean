import FileBroker.Proofs.Broker.Attempts
import FileBroker.Proofs.Broker.Draining

/-!
How long a worker that finds nothing pending sleeps. It wakes when its own time is over or when a
parked operation falls due, whichever comes first, and does not return before it has attempted what
is due then. This is so on every clock, whether it shows a later instant when it is read again or
stands still but for the sleep.
-/
namespace FileBroker

namespace Operation

/-- Who is due stays due. -/
theorem isDue_mono {op : Operation} {early late : Instant} (order : early ≤ late)
    (due : op.isDue early = true) : op.isDue late = true := by
  unfold isDue at due ⊢
  cases wakes : op.notBefore with
  | none => rfl
  | some instant =>
    rw [wakes] at due
    exact decide_eq_true (Nat.le_trans (of_decide_eq_true due) order)

/-- Who is not due yet was not due before. -/
theorem not_isDue_of_le {op : Operation} {early late : Instant} (order : early ≤ late)
    (waits : op.isDue late = false) : op.isDue early = false :=
  Bool.eq_false_iff.2 fun due => Bool.eq_false_iff.1 waits (isDue_mono order due)

/-- Who is not due has an instant to wait for. -/
theorem isDue_eq_false_iff {op : Operation} {now : Instant} :
    op.isDue now = false ↔ ∃ instant, op.notBefore = some instant ∧ now < instant := by
  unfold isDue
  cases op.notBefore <;> simp

end Operation

namespace Queue

variable {queue : Queue} {now : Instant} {budget : Nat} {boundary : Option Nat}

/-- The instants that operations are parked until. -/
theorem foldl_earlier (ops : List Operation) (first : Option Instant) :
    ops.foldl (fun first op => Instant.earlier first op.notBefore) first
      = (first.toList ++ ops.filterMap Operation.notBefore).min? := by
  induction ops generalizing first with
  | nil => cases first <;> rfl
  | cons op rest ih =>
    rw [List.foldl_cons, ih, List.filterMap_cons]
    cases first <;> cases op.notBefore <;> rfl

/-- A fetch that finds nothing sleeps until the first of all the instants that it waits for. -/
theorem earlier_nextRetry (queue : Queue) (deadline : Option Instant) :
    Instant.earlier deadline queue.nextRetry
      = (deadline.toList ++ queue.parked.filterMap Operation.notBefore).min? := by
  rw [nextRetry, foldl_earlier]
  cases deadline with
  | none => rfl
  | some instant =>
    rw [Option.toList_none, List.nil_append, Option.toList_some, List.singleton_append,
      List.min?_cons]
    cases (queue.parked.filterMap Operation.notBefore).min? <;> rfl

end Queue

namespace Broker

variable {routine : Routine} {broker : Broker} {now : Instant} {tick : Span}

/-! ### One sleep -/

/-- How long a worker that starts to wait at `now` may sleep: until its own time is over, if the
clock gets that far, and until each of the parked operations falls due. -/
def sleeps (broker : Broker) (now : Instant) : List Span :=
  let timeout := broker.config.exchangeTimeout
  (if now + timeout ≤ Instant.horizon then [timeout] else [])
    ++ broker.queue.parked.filterMap fun op => op.notBefore.map (· - now)

/-- Where nobody is due any more, the wake is the end of the shortest sleep. -/
theorem wake_of_sleeps {sleep : Span}
    (rested : ∀ op ∈ broker.queue.parked, op.isDue now = false)
    (shortest : (broker.sleeps now).min? = some sleep) :
    Instant.earlier (broker.exchangeDeadline now true) broker.queue.nextRetry
      = some (now + sleep) := by
  have parked : broker.queue.parked.filterMap Operation.notBefore
      = (broker.queue.parked.filterMap fun op => op.notBefore.map (· - now)).map (now + ·) := by
    rw [List.map_filterMap]
    refine List.filterMap_congr fun op member => ?_
    obtain ⟨instant, wakes, later⟩ := Operation.isDue_eq_false_iff.1 (rested op member)
    rw [wakes, Option.map_some, Option.map_some, Nat.add_sub_of_le (Nat.le_of_lt later)]
  have deadline : (broker.exchangeDeadline now true).toList
      = (if now + broker.config.exchangeTimeout ≤ Instant.horizon
          then [broker.config.exchangeTimeout] else []).map (now + ·) := by
    unfold exchangeDeadline Instant.after?
    rw [if_pos rfl]
    split <;> rfl
  rw [Queue.earlier_nextRetry, deadline, parked, ← List.map_append, List.min?_eq_some_iff]
  obtain ⟨member, least⟩ := List.min?_eq_some_iff.1 shortest
  refine ⟨List.mem_map_of_mem member, fun instant other => ?_⟩
  obtain ⟨span, among, rfl⟩ := List.mem_map.1 other
  exact Nat.add_le_add_left (least span among) now

/-- What is due when the loop is entered is attempted in it. -/
theorem attempted_of_due {ops : List Operation} {before after : Broker} {early late : Instant}
    (rounds : Rounds routine late before ops after)
    (rested : ∀ op ∈ after.queue.parked, op.isDue late = false) (order : early ≤ late)
    {op : Operation} (parked : op ∈ before.queue.parked) (due : op.isDue early = true) :
    op ∈ ops := by
  refine (rounds.stays parked).resolve_right fun left => ?_
  exact Bool.eq_false_iff.1 (Operation.not_isDue_of_le order (rested op left)) due

/-- Nobody sleeps past a retry. A worker that finds nothing pending, and whom nobody disturbs,
sleeps until its own time is over or the first of the operations that are still parked falls due,
and no longer. It gets nothing, and its buffer is as it was; nobody is moved in line or in flight
after the responses were taken in. When it returns nobody is due, and everybody who was due by the
end of the sleep has been attempted in this exchange. Its clock may tick by any span, or stand still
but for the sleep. -/
theorem wakes_in_time (tick : Span) (routine : Routine) (broker : Broker) (now : Instant)
    (responses : Bytes) (buffer : Buffer) (sleep : Span) (running : broker.queue.stopped = false)
    (idle : (broker.ingest routine now responses).2.queue.pending = [])
    (roomy : broker.config.revision.messageLimit ≤ buffer.size)
    (shortest : (((broker.ingest routine now responses).2.resumeDue routine now tick).2.sleeps
      now).min? = some sleep) :
    let ingested := (broker.ingest routine now responses).2
    let begun := (ingested.resumeDue routine now tick).2
    let ended := broker.exchange routine now responses buffer true tick
    ended.1 = some (.ok (0, buffer), now + sleep) ∧
    ended.2.queue.pending = ingested.queue.pending ∧
    ended.2.queue.inFlight = ingested.queue.inFlight ∧
    (∀ op ∈ ended.2.queue.parked, op.isDue (now + sleep) = false) ∧
    ∃ first second, Rounds routine now ingested first begun ∧
      Rounds routine (now + sleep + tick) begun second ended.2 ∧
      ∀ op, op ∈ ingested.queue.parked ∨ op ∈ begun.queue.parked →
        op.isDue (now + sleep) = true → op ∈ first ++ second := by
  intro ingested begun ended
  obtain ⟨⟨first, -, rounds⟩, rested⟩ := rounds_processRetries routine ingested (now + tick) now
  obtain ⟨⟨second, -, rounds'⟩, rested'⟩ :=
    rounds_processRetries routine begun (now + sleep + tick + tick) (now + sleep + tick)
  have stopped : ingested.queue.stopped = broker.queue.stopped :=
    (sameLine_ingest broker routine now responses).stopped
  have ends : ended = (some (.ok (0, buffer), now + sleep),
      (begun.resumeDue routine (now + sleep + tick) tick).2) := by
    have idles := exchange_idle rfl (stopped.trans running) idle roomy rfl
      (wake_of_sleeps rested shortest)
    rwa [Nat.max_eq_right (Nat.le_add_right now sleep)] at idles
  have unmoved := rounds.unmoved
  have unmoved' := rounds'.unmoved
  rw [ends]
  refine ⟨rfl, unmoved'.pending.trans unmoved.pending, unmoved'.inFlight.trans unmoved.inFlight,
    fun op parked => ?_, first, second, rounds, rounds', fun op parked due => ?_⟩
  · exact Operation.not_isDue_of_le (Nat.le_add_right (now + sleep) tick) (rested' op parked)
  · have later : ∀ op ∈ begun.queue.parked, op.isDue (now + sleep) = true → op ∈ second :=
      fun op => attempted_of_due rounds' rested' (Nat.le_add_right (now + sleep) tick)
    rcases parked with before | left
    · rcases rounds.stays before with early | left
      · exact List.mem_append_left second early
      · exact List.mem_append_right first (later op left due)
    · exact List.mem_append_right first (later op left due)

/-- An operation that is parked for the standard delay, after which the worker still has time. -/
def restingRead : Broker :=
  { new .standard with
    queue := { (new .standard).queue with
      parked := [readOperation.park threeBytes (Span.milliseconds 300)] } }

theorem wakes_in_time_restingRead :
    restingRead.queue.stopped = false ∧
      (restingRead.exchange .standard 0 [] (.filled 16320 0) true 0).1
        = some (.ok (0, .filled 16320 0), Span.milliseconds 300) := by
  have ingested : (restingRead.ingest .standard 0 []).2 = restingRead := by
    unfold ingest
    rw [Batch.frames_nil]
    rfl
  have begun : (restingRead.resumeDue .standard 0 0).2 = restingRead :=
    congrArg Prod.snd (processRetries_of_rested .standard 0 (by decide))
  have woken := wakes_in_time 0 .standard restingRead 0 [] (.filled 16320 0)
    (Span.milliseconds 300) rfl (by rw [ingested]; rfl) (by decide)
    (by rw [ingested, begun]; decide)
  exact ⟨rfl, woken.1⟩

end Broker
end FileBroker
