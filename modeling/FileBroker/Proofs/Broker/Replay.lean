import FileBroker.Proofs.Broker.Turns
import FileBroker.Proofs.Wire.Format

/-!
Responses that come twice, too late or for nobody. A batch deals with the operations in flight that
its responses name, and with nobody else. So it finds nobody left when it is brought in again.
-/
namespace FileBroker.Broker

/-- A response among these names the operation. -/
def namedIn (frames : List Frame) (op : Operation) : Bool :=
  frames.any fun frame => frame.hint == op.hint

/-- Whom the responses take out of flight. -/
def landedBy (broker : Broker) (frames : List Frame) : List Operation :=
  broker.queue.inFlight.filter (namedIn frames)

/-- Nobody was dealt with but those who `landed`: everybody else stands where they stood, and their
callers were told nothing. -/
structure Spares (landed : List Operation) (before after : Broker) : Prop where
  pending : after.queue.pending = before.queue.pending
  inFlight : after.queue.inFlight.Sublist before.queue.inFlight
  parked : before.queue.parked <+: after.queue.parked
  outcomes : ∀ ticket ∉ landed.map Operation.ticket,
    after.queue.outcomesOf ticket = before.queue.outcomesOf ticket

variable {routine : Routine} {broker : Broker} {clock : Instant} {frames : List Frame}

theorem namedIn_iff {op : Operation} :
    namedIn frames op = true ↔ ∃ frame ∈ frames, frame.hint = op.hint := by
  unfold namedIn
  simp only [List.any_eq_true, beq_iff_eq]

theorem mem_landedBy {op : Operation} :
    op ∈ broker.landedBy frames ↔
      op ∈ broker.queue.inFlight ∧ ∃ frame ∈ frames, frame.hint = op.hint := by
  unfold landedBy
  rw [List.mem_filter, namedIn_iff]

namespace Spares

variable {landed : List Operation} {before middle after : Broker}

theorem refl (landed : List Operation) (broker : Broker) : Spares landed broker broker :=
  ⟨rfl, .refl _, List.prefix_refl _, fun _ _ => rfl⟩

theorem trans (first : Spares landed before middle) (second : Spares landed middle after) :
    Spares landed before after where
  pending := second.pending.trans first.pending
  inFlight := second.inFlight.trans first.inFlight
  parked := first.parked.trans second.parked
  outcomes ticket other := (second.outcomes ticket other).trans (first.outcomes ticket other)

end Spares

/-- A response deals with the operation that it lands, and with nobody if it lands none. -/
theorem spares_receive (routine : Routine) (clock : Instant) {frame : Frame}
    {landed : List Operation}
    (mine : ∀ op ∈ broker.queue.inFlight, op.hint = frame.hint → op ∈ landed) :
    Spares landed broker (broker.receive routine clock frame).2 := by
  rcases Queue.land_cases broker.queue frame.hint with
    ⟨absent, -⟩ | ⟨op, flying, under, -, present⟩
  · unfold receive
    rw [absent]
    exact ⟨rfl, .refl _, List.prefix_refl _, fun _ _ => rfl⟩
  · have moved : (broker.receive routine clock frame).2.queue.inFlight = _ :=
      inFlight_receive frame
    refine ⟨(sameLine_receive broker routine clock frame).pending, ?_, ?_, ?_⟩
    · rw [moved]
      exact List.filter_sublist
    · rw [receive_landed routine clock present]
      rcases (broker.landing clock frame op _).after_cases routine with
        ⟨outcome, -, told⟩ | ⟨response, -, -, -, -, put⟩
      · rw [told]
        exact List.prefix_refl _
      · rw [put]
        exact List.prefix_append _ _
    · intro ticket other
      rw [receive_landed routine clock present]
      refine Turn.outcomesOf_after_of_ne routine fun same => other ?_
      exact same ▸ List.mem_map_of_mem (mine op flying under)

theorem spares_receiveAll (routine : Routine) (broker : Broker) (clock : Instant)
    (frames : List Frame) :
    Spares (broker.landedBy frames) broker (broker.receiveAll routine clock frames).2 := by
  refine receiveAll_induction (fun middle frame member spared => ?_) (.refl _ broker)
  refine spared.trans (spares_receive routine clock fun op flying under => ?_)
  exact mem_landedBy.2 ⟨spared.inFlight.subset flying, frame, member, under.symm⟩

theorem receiveAll_cons (frame : Frame) (rest : List Frame) :
    broker.receiveAll routine clock (frame :: rest)
      = (((broker.receive routine clock frame).2.receiveAll routine clock rest).1
          + (broker.receive routine clock frame).1.toNat,
        ((broker.receive routine clock frame).2.receiveAll routine clock rest).2) := rfl

/-- Responses that name nobody in flight are counted as stale, and that is all. -/
theorem receiveAll_stale (routine : Routine) (clock : Instant)
    (free : ∀ frame ∈ frames, ∀ op ∈ broker.queue.inFlight, op.hint ≠ frame.hint) :
    broker.receiveAll routine clock frames = (0, { broker with
      counters := { broker.counters with
        staleResponses := broker.counters.staleResponses + frames.length } }) := by
  induction frames generalizing broker with
  | nil => rfl
  | cons frame rest ih =>
    have first : broker.receive routine clock frame = (false, { broker with
        counters := { broker.counters with
          staleResponses := broker.counters.staleResponses + 1 } }) := by
      unfold receive
      rcases Queue.land_cases broker.queue frame.hint with ⟨absent, -⟩ | ⟨op, flying, under, -⟩
      · rw [absent]
      · exact absurd under (free frame (List.mem_cons_self ..) op flying)
    have absent : ∀ other ∈ rest, ∀ op ∈ (broker.receive routine clock frame).2.queue.inFlight,
        op.hint ≠ other.hint := by
      rw [first]
      exact fun other member => free other (List.mem_cons_of_mem _ member)
    rw [receiveAll_cons, ih absent, first, List.length_cons, Nat.add_comm rest.length,
      ← Nat.add_assoc]
    rfl

/-- Each response that is counted takes one operation out of flight. -/
theorem matched_add_length (routine : Routine) (clock : Instant)
    (distinct : broker.queue.Distinct) (frames : List Frame) :
    (broker.receiveAll routine clock frames).1
      + (broker.receiveAll routine clock frames).2.queue.inFlight.length
      = broker.queue.inFlight.length := by
  induction frames generalizing broker with
  | nil => exact Nat.zero_add _
  | cons frame rest ih =>
    have left : (broker.receive routine clock frame).2.queue.inFlight = _ :=
      inFlight_receive frame
    have kept : (broker.receive routine clock frame).2.queue.Distinct := by
      unfold Queue.Distinct
      rw [left]
      exact (List.filter_sublist.map Operation.hint).nodup distinct
    have later := ih kept
    have one : (broker.receive routine clock frame).1.toNat
        + (broker.receive routine clock frame).2.queue.inFlight.length
        = broker.queue.inFlight.length := by
      have parts := List.length_eq_length_filter_add (l := broker.queue.inFlight)
        (fun other => other.hint == frame.hint)
      rw [left, parts]
      congr 1
      unfold receive
      rcases Queue.land_cases broker.queue frame.hint with
        ⟨absent, free⟩ | ⟨op, -, -, found, present⟩
      · rw [absent, List.filter_eq_nil_iff.2 (by simpa using free)]
        rfl
      · rw [present, Queue.filter_hint_eq_of_find? distinct found]
        rfl
    rw [receiveAll_cons]
    dsimp only
    omega

/-- Who stays in flight: everybody whom no response names. -/
theorem inFlight_of_unnamed (frames : List Frame) :
    (broker.receiveAll routine clock frames).2.queue.inFlight
      = broker.queue.inFlight.filter fun op => !namedIn frames op := by
  rw [inFlight_receiveAll]
  refine List.filter_congr fun op _ => ?_
  rw [Bool.eq_iff_iff, decide_eq_true_eq]
  simp [namedIn]

theorem matched_eq (distinct : broker.queue.Distinct) (frames : List Frame) :
    (broker.receiveAll routine clock frames).1 = (broker.landedBy frames).length := by
  have all := matched_add_length routine clock distinct frames
  have parts := List.length_eq_length_filter_add (l := broker.queue.inFlight) (namedIn frames)
  rw [inFlight_of_unnamed] at all
  unfold landedBy
  omega

/-- Whatever a batch consists of, every message in it can be read; it deals with the operations in
flight that it names, each of them once, and with nobody else; and when it is brought in again, it
finds nobody and is only counted. -/
theorem replay_without_effect (routine : Routine) (config : Config) (actions : List Action)
    (clock again : Instant) (responses : Bytes) :
    let broker := (new config).run routine actions
    let frames := Batch.frames .response responses
    let landed := broker.landedBy frames
    let first := broker.ingest routine clock responses
    (∀ frame ∈ frames, frame.bytes <:+: responses ∧ Response.fixedSize ≤ frame.size ∧
      Header.read frame.bytes = .ok frame.header) ∧
    first.1 = landed.length ∧
    first.2.queue.inFlight = broker.queue.inFlight.filter (fun op => !namedIn frames op) ∧
    Spares landed broker first.2 ∧
    (∀ op ∈ broker.queue.all, op ∉ landed → first.2.queue.outcomesOf op.ticket = []) ∧
    first.2.ingest routine again responses = (0, { first.2 with
      counters := { first.2.counters with
        staleResponses := first.2.counters.staleResponses + frames.length } }) := by
  intro broker frames landed first
  have audited : Audited [] broker := (invariant_audited routine).run (audited_new config) actions
  have distinct : broker.queue.Distinct := by
    obtain ⟨accepted, silent, ledger⟩ := audited
    exact ledger.distinct
  have spared : Spares landed broker first.2 := spares_receiveAll routine broker clock frames
  have left : first.2.queue.inFlight = broker.queue.inFlight.filter _ := inFlight_of_unnamed frames
  refine ⟨?_, matched_eq distinct frames, left, spared, ?_, ?_⟩
  · intro frame member
    obtain ⟨turned, sized, piece⟩ := Batch.sized_of_mem_frames member
    exact ⟨piece, sized.1, Frame.read_of_sized (turned ▸ sized)⟩
  · intro op held missed
    rw [spared.outcomes op.ticket ?_, audited.outcomesOf_held held]
    intro member
    obtain ⟨other, named, same⟩ := List.mem_map.1 member
    have flying : other ∈ broker.queue.all := by
      simp [Queue.all, (mem_landedBy.1 named).1]
    exact missed (List.inj_on_of_nodup_map audited.nodup_tickets flying held same ▸ named)
  · refine receiveAll_stale routine again fun frame member op flying under => ?_
    rw [left] at flying
    have unnamed := (List.mem_filter.1 flying).2
    rw [namedIn_iff.2 ⟨frame, member, under.symm⟩] at unnamed
    cases unnamed

end FileBroker.Broker
