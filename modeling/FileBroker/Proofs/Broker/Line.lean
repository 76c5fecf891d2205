import FileBroker.Proofs.Broker.Flow

/-!
The line of pending operations. They stand in the order they were posted in, each under the hint
that it was given; posts join the line at its end, and nobody ever gets back into it.
-/
namespace FileBroker.Broker

/-- Nobody joined the line or left it, and the next post will be treated alike. -/
structure SameLine (before after : Broker) : Prop where
  pending : after.queue.pending = before.queue.pending
  lastSeq : after.queue.lastSeq = before.queue.lastSeq
  stopped : after.queue.stopped = before.queue.stopped
  nextHint : after.nextHint = before.nextHint
  config : after.config = before.config

namespace SameLine

variable {before middle after : Broker}

theorem refl (broker : Broker) : SameLine broker broker := ⟨rfl, rfl, rfl, rfl, rfl⟩

theorem symm (same : SameLine before after) : SameLine after before :=
  ⟨same.pending.symm, same.lastSeq.symm, same.stopped.symm, same.nextHint.symm, same.config.symm⟩

theorem trans (first : SameLine before middle) (second : SameLine middle after) :
    SameLine before after where
  pending := second.pending.trans first.pending
  lastSeq := second.lastSeq.trans first.lastSeq
  stopped := second.stopped.trans first.stopped
  nextHint := second.nextHint.trans first.nextHint
  config := second.config.trans first.config

end SameLine

/-- Nobody went into flight or came back either. -/
structure Unmoved (before after : Broker) : Prop extends SameLine before after where
  inFlight : after.queue.inFlight = before.queue.inFlight

namespace Unmoved

variable {before middle after : Broker}

theorem refl (broker : Broker) : Unmoved broker broker := ⟨.refl broker, rfl⟩

theorem trans (first : Unmoved before middle) (second : Unmoved middle after) :
    Unmoved before after :=
  ⟨first.toSameLine.trans second.toSameLine, second.inFlight.trans first.inFlight⟩

end Unmoved

/-- The `batch` left from the front of the line. -/
structure Served (before : Broker) (batch : List Operation) (after : Broker) : Prop where
  pending : before.queue.pending = batch ++ after.queue.pending
  lastSeq : after.queue.lastSeq = before.queue.lastSeq
  stopped : after.queue.stopped = before.queue.stopped
  nextHint : after.nextHint = before.nextHint
  config : after.config = before.config

theorem SameLine.served {before after : Broker} (line : SameLine before after) :
    Served before [] after :=
  ⟨line.pending.symm, line.lastSeq, line.stopped, line.nextHint, line.config⟩

theorem Fetched.served {before after : Broker} {batch rest : List Operation}
    (fetched : Fetched before batch rest after) : Served before batch after where
  pending := by rw [fetched.pending, fetched.pending_after]
  lastSeq := by
    rw [fetched.queue]
    exact (Queue.kept_foldl_launch batch _).2.1
  stopped := fetched.stopped_eq
  nextHint := fetched.nextHint
  config := fetched.config

theorem Served.trans {before middle after : Broker} {first second : List Operation}
    (served : Served before first middle) (served' : Served middle second after) :
    Served before (first ++ second) after where
  pending := by rw [served.pending, served'.pending, List.append_assoc]
  lastSeq := served'.lastSeq.trans served.lastSeq
  stopped := served'.stopped.trans served.stopped
  nextHint := served'.nextHint.trans served.nextHint
  config := served'.config.trans served.config

section Attempts

variable (broker : Broker) (routine : Routine)

/-- An attempt is made for an operation that stands in no line. -/
theorem unmoved_apply (clock : Instant) (op : Operation) (response : Response) :
    Unmoved broker (broker.apply routine clock op response) := by
  unfold Broker.apply
  dsimp only
  split
  · exact ⟨⟨rfl, rfl, rfl, rfl, rfl⟩, rfl⟩
  · split
    · exact ⟨⟨rfl, rfl, rfl, rfl, rfl⟩, rfl⟩
    · unfold Queue.park
      dsimp only
      split <;> exact ⟨⟨rfl, rfl, rfl, rfl, rfl⟩, rfl⟩

theorem sameLine_receive (clock : Instant) (frame : Frame) :
    SameLine broker (broker.receive routine clock frame).2 := by
  unfold Broker.receive
  rcases Queue.land_cases broker.queue frame.hint with ⟨absent, -⟩ | ⟨op, -, -, -, present⟩
  · rw [absent]
    exact ⟨rfl, rfl, rfl, rfl, rfl⟩
  · rw [present]
    have landed : SameLine broker { broker with queue := { broker.queue with
        inFlight := broker.queue.inFlight.filter fun other => other.hint != frame.hint } } :=
      ⟨rfl, rfl, rfl, rfl, rfl⟩
    dsimp only
    split
    · exact landed.trans ⟨rfl, rfl, rfl, rfl, rfl⟩
    · split
      · exact landed.trans ⟨rfl, rfl, rfl, rfl, rfl⟩
      · exact landed.trans (unmoved_apply _ routine clock op _).toSameLine

variable {broker} in
theorem unmoved_resume {clock now : Instant} {op : Operation} {queue : Queue}
    (due : broker.queue.takeDue now = (some op, queue)) :
    Unmoved broker (({ broker with queue } : Broker).resume routine clock op) := by
  obtain ⟨before, rest, -, rfl, -, -⟩ := Queue.takeDue_some due
  have taken : Unmoved broker
      { broker with queue := { broker.queue with parked := before ++ rest } } :=
    ⟨⟨rfl, rfl, rfl, rfl, rfl⟩, rfl⟩
  unfold Broker.resume
  split
  · exact taken.trans (unmoved_apply _ routine clock _ _)
  · exact taken.trans ⟨⟨rfl, rfl, rfl, rfl, rfl⟩, rfl⟩

theorem sameLine_ingest (clock : Instant) (responses : Bytes) :
    SameLine broker (broker.ingest routine clock responses).2 :=
  ingest_induction (fun _ frame _ line => line.trans (sameLine_receive _ routine clock frame))
    (.refl broker)

theorem unmoved_processRetries (clock now : Instant) :
    Unmoved broker (broker.processRetries routine clock now).2 :=
  processRetries_induction (fun _ _ _ kept due => kept.trans (unmoved_resume routine due))
    (.refl broker)

theorem unmoved_resumeDue (now : Instant) (tick : Span := 1) :
    Unmoved broker (broker.resumeDue routine now tick).2 :=
  unmoved_processRetries broker routine (now + tick) now

end Attempts

/-- The line is in order, and everybody in it was admitted. -/
structure InLine (broker : Broker) : Prop where
  ordered : broker.queue.Ordered
  numbered : broker.queue.pending.Pairwise fun older newer => older.ticket < newer.ticket
  admitted : ∀ op ∈ broker.queue.pending, broker.Admitted op.posting

theorem inLine_new (config : Config) : (new config).InLine where
  ordered := ⟨.nil, fun _ member => absurd member List.not_mem_nil⟩
  numbered := .nil
  admitted _ member := absurd member List.not_mem_nil

namespace InLine

variable {broker after : Broker}

/-- Whoever leaves the line leaves the others in order. -/
theorem shrink (inLine : broker.InLine)
    (pending : after.queue.pending.Sublist broker.queue.pending)
    (lastSeq : after.queue.lastSeq = broker.queue.lastSeq)
    (nextHint : after.nextHint = broker.nextHint) (config : after.config = broker.config) :
    after.InLine where
  ordered := by
    refine ⟨inLine.ordered.sorted.sublist pending, fun op member => ?_⟩
    rw [lastSeq]
    exact inLine.ordered.bounded op (pending.subset member)
  numbered := inLine.numbered.sublist pending
  admitted op member :=
    (inLine.admitted op (pending.subset member)).later config (Nat.le_of_eq nextHint.symm)

/-- Those who are served leave the others in order. -/
theorem served (inLine : broker.InLine) {batch : List Operation}
    (served : Served broker batch after) : after.InLine := by
  refine inLine.shrink ?_ served.lastSeq served.nextHint served.config
  rw [served.pending]
  exact List.sublist_append_right batch _

theorem sameLine (inLine : broker.InLine) (line : SameLine broker after) : after.InLine :=
  inLine.served line.served

/-- A post joins the line behind everybody else, or not at all. -/
theorem post (inLine : broker.InLine) (now : Instant) {request : Request}
    (formed : request.WellFormed) : (broker.post now request).2.InLine := by
  rcases post_cases broker now request with ⟨-, _, same⟩ | ⟨-, _, refused⟩ | ⟨spoken, accepted⟩
  · rw [same]
    exact inLine
  · rw [refused]
    refine ⟨⟨inLine.ordered.sorted, inLine.ordered.bounded⟩, inLine.numbered, ?_⟩
    exact fun op member => (inLine.admitted op member).later rfl (Nat.le_succ _)
  · rw [accepted]
    refine ⟨⟨?_, ?_⟩, ?_, ?_⟩
    · refine List.pairwise_append.2 ⟨inLine.ordered.sorted, List.pairwise_singleton _ _, ?_⟩
      intro op member last single
      obtain rfl := List.mem_singleton.1 single
      exact Nat.lt_succ_of_le (inLine.ordered.bounded op member)
    · intro op member
      rcases List.mem_append.1 member with before | last
      · exact Nat.le_succ_of_le (inLine.ordered.bounded op before)
      · obtain rfl := List.mem_singleton.1 last
        exact Nat.le_refl _
    · refine List.pairwise_append.2 ⟨inLine.numbered, List.pairwise_singleton _ _, ?_⟩
      intro op member last single
      obtain rfl := List.mem_singleton.1 single
      exact (inLine.admitted op member).past
    · intro op member
      rcases List.mem_append.1 member with before | last
      · exact (inLine.admitted op before).later rfl (Nat.le_succ _)
      · obtain rfl := List.mem_singleton.1 last
        exact ⟨Nat.lt_succ_self _, rfl, Request.wellFormed_withHint formed _, spoken⟩

theorem cancel (inLine : broker.InLine) (hint : Hint) : (broker.cancel hint).2.InLine := by
  rcases queue_cancel broker hint with same | ⟨op, before, rest, whole, same⟩
  · refine inLine.shrink ?_ ?_ rfl rfl <;> rw [same]
  · refine inLine.shrink ?_ ?_ rfl rfl <;> rw [same]
    rw [whole]
    exact (List.Sublist.refl before).append (List.sublist_cons_self op rest)

theorem removeExpired (inLine : broker.InLine) (now : Instant) :
    (broker.removeExpired now).2.InLine := by
  refine inLine.shrink ?_ ?_ rfl rfl <;> rw [queue_removeExpired]
  exact List.filter_sublist

theorem stop (inLine : broker.InLine) (cancelAll : Bool) : (broker.stop cancelAll).2.InLine := by
  cases cancelAll with
  | false => exact inLine.shrink (List.Sublist.refl _) rfl rfl rfl
  | true =>
    refine inLine.shrink ?_ ?_ rfl rfl <;> rw [queue_stop_all]
    exact List.nil_sublist _

end InLine

end FileBroker.Broker
