import FileBroker.Proofs.Broker.Replay

/-!
How a worker cuts its responses into batches, and in which order it sends them. A batch that is read
to its end may as well be two batches, whatever the routine. Under the standard routine an operation
is told the same whenever its response comes; so responses to different operations can change
places, and nobody can tell.
-/
namespace FileBroker

namespace Batch

variable {direction : Direction}

/-- Messages that are framed each by itself are framed all the same in a row. -/
theorem frames_flatten {messages : List Bytes}
    (framed : ∀ message ∈ messages, ∃ frame, Frame.split? direction message = some (frame, [])) :
    frames direction messages.flatten = messages.flatMap (frames direction) := by
  induction messages with
  | nil => exact frames_nil direction
  | cons message rest ih =>
    obtain ⟨frame, cut⟩ := framed message (List.mem_cons_self ..)
    rw [List.flatten_cons, List.flatMap_cons, ← ih fun other member =>
      framed other (List.mem_cons_of_mem _ member)]
    rw [frames_of_split?_eq_some (Frame.split?_append cut rest.flatten),
      frames_of_split?_eq_some cut, frames_nil, List.nil_append, List.singleton_append]

end Batch

namespace Broker

variable {routine : Routine} {broker : Broker} {clock : Instant}

theorem matched_append (first second : List Frame) :
    (broker.receiveAll routine clock (first ++ second)).1
      = (broker.receiveAll routine clock first).1
        + ((broker.receiveAll routine clock first).2.receiveAll routine clock second).1 := by
  induction first generalizing broker with
  | nil => exact (Nat.zero_add _).symm
  | cons frame rest ih =>
    rw [List.cons_append, receiveAll_cons, receiveAll_cons, ih]
    exact Nat.add_right_comm _ _ _

/-- A batch that is read to its end may as well be brought in before what follows it. -/
theorem ingest_append (routine : Routine) (broker : Broker) (clock : Instant) {first : Bytes}
    (whole : Batch.readTo .response first = first.length) (second : Bytes) :
    broker.ingest routine clock (first ++ second)
      = ((broker.ingest routine clock first).1
          + ((broker.ingest routine clock first).2.ingest routine clock second).1,
        ((broker.ingest routine clock first).2.ingest routine clock second).2) := by
  unfold ingest
  rw [Batch.frames_append whole, ← receiveAll_append, ← matched_append]

/-- One batch after the other, each at its own instant; counts over all of them. -/
def ingestAll (routine : Routine) (broker : Broker) : List (Instant × Bytes) → Nat × Broker
  | [] => (0, broker)
  | (clock, responses) :: rest =>
    let (matched, broker) := broker.ingest routine clock responses
    let (count, broker) := broker.ingestAll routine rest
    (matched + count, broker)

/-! ### What a response comes to -/

/-- What an operation is told for a response by the standard routine. -/
def standardWord (revision : Revision) (request : Request) (frame : Frame) : Outcome :=
  match answerOf revision request frame with
  | .ok response =>
    if response.status.isSuccess then .ok response
    else .error (.refused response.status response.io.information)
  | .error reason => .error (.protocolViolation reason)

/-- What a response hands out, and to whom; nothing if it is stale. -/
def delivery? (broker : Broker) (frame : Frame) : Option Delivery :=
  (broker.queue.inFlight.find? fun op => op.hint == frame.hint).map fun op =>
    ⟨op.ticket, standardWord broker.config.revision op.request frame⟩

namespace Counters

/-- Counts a response by what it hands out. -/
def countDelivery (counters : Counters) : Option Delivery → Counters
  | some delivery => counters.addOutcome delivery.outcome
  | none => { counters with staleResponses := counters.staleResponses + 1 }

/-- The order of counting does not matter. -/
theorem addOutcome_comm (counters : Counters) (first second : Outcome) :
    (counters.addOutcome first).addOutcome second
      = (counters.addOutcome second).addOutcome first := by
  unfold addOutcome
  rcases first with (_ | _ | _ | _ | _) | _ <;> rcases second with (_ | _ | _ | _ | _) | _ <;> rfl

theorem addOutcome_stale (counters : Counters) (outcome : Outcome) (stale : Nat) :
    ({ counters with staleResponses := stale } : Counters).addOutcome outcome
      = { counters.addOutcome outcome with staleResponses := stale } := by
  unfold addOutcome
  rcases outcome with (_ | _ | _ | _ | _) | _ <;> rfl

theorem staleResponses_addOutcome (counters : Counters) (outcome : Outcome) :
    (counters.addOutcome outcome).staleResponses = counters.staleResponses := by
  unfold addOutcome
  split <;> rfl

theorem countDelivery_comm (counters : Counters) (first second : Option Delivery) :
    (counters.countDelivery first).countDelivery second
      = (counters.countDelivery second).countDelivery first := by
  have apart (delivery : Delivery) :
      (counters.countDelivery none).countDelivery (some delivery)
        = (counters.countDelivery (some delivery)).countDelivery none := by
    dsimp only [countDelivery]
    rw [addOutcome_stale, staleResponses_addOutcome]
  cases first with
  | none =>
    cases second with
    | none => rfl
    | some delivery => exact apart delivery
  | some delivery =>
    cases second with
    | none => exact (apart delivery).symm
    | some other => exact addOutcome_comm counters delivery.outcome other.outcome

end Counters

/-- What taking in these responses comes to under the standard routine, if they name different
operations. -/
structure Settled (frames : List Frame) (before : Broker) (matched : Nat) (after : Broker) :
    Prop where
  line : SameLine before after
  inFlight : after.queue.inFlight = before.queue.inFlight.filter fun op => !namedIn frames op
  parked : after.queue.parked = before.queue.parked
  delivered : after.queue.delivered
    = (frames.filterMap before.delivery?).reverse ++ before.queue.delivered
  matched : matched = (frames.filterMap before.delivery?).length
  counters : after.counters
    = (frames.map before.delivery?).foldl Counters.countDelivery before.counters

/-- Whoever a response lands is told at once, and is not parked. -/
theorem landing_standard (broker : Broker) (clock : Instant) (frame : Frame) (op : Operation)
    (queue : Queue) : ∃ attempts, (broker.landing clock frame op queue).after .standard
      = ({ broker with queue, attempts } : Broker).settle op
          (standardWord broker.config.revision op.request frame) := by
  unfold Turn.after landing standardWord
  dsimp only
  cases answerOf broker.config.revision op.request frame with
  | error reason => exact ⟨_, rfl⟩
  | ok response =>
    dsimp only
    rw [apply_standard]
    exact ⟨_, rfl⟩

theorem settled_receive (broker : Broker) (clock : Instant) (frame : Frame) :
    Settled [frame] broker (broker.receive .standard clock frame).1.toNat
      (broker.receive .standard clock frame).2 := by
  have line := sameLine_receive broker .standard clock frame
  have left : (broker.receive .standard clock frame).2.queue.inFlight
      = broker.queue.inFlight.filter fun op => !namedIn [frame] op := by
    rw [inFlight_receive]
    refine List.filter_congr fun op _ => ?_
    simp [namedIn, bne, eq_comm]
  rcases Queue.land_cases broker.queue frame.hint with
    ⟨absent, free⟩ | ⟨op, flying, under, found, present⟩
  · have nothing : broker.delivery? frame = none := by
      unfold delivery?
      rw [List.find?_eq_none.2 (by simpa using free)]
      rfl
    refine ⟨line, left, ?_, ?_, ?_, ?_⟩ <;>
      simp [receive, absent, nothing, Counters.countDelivery]
  · have told : broker.delivery? frame
        = some ⟨op.ticket, standardWord broker.config.revision op.request frame⟩ := by
      unfold delivery?
      rw [found]
      rfl
    have noted : (broker.receive .standard clock frame).1 = true := by
      unfold receive
      rw [present]
    obtain ⟨attempts, done⟩ := landing_standard broker clock frame op
      { broker.queue with inFlight := broker.queue.inFlight.filter fun op => op.hint != frame.hint }
    rw [← receive_landed .standard clock present] at done
    refine ⟨line, left, ?_, ?_, ?_, ?_⟩
    · rw [done]
      rfl
    · rw [done]
      simp [told, settle, Queue.deliver]
    · simp [told, noted]
    · rw [done]
      simp [told, settle, Counters.countDelivery]

namespace Settled

variable {first second frames : List Frame} {before middle after : Broker} {n m : Nat}

theorem nil (broker : Broker) : Settled [] broker 0 broker :=
  ⟨.refl broker, by simp [namedIn], rfl, rfl, rfl, rfl⟩

/-- A response to somebody else means the same afterwards. -/
theorem delivery?_eq (settled : Settled first before n middle) {frame : Frame}
    (other : ∀ earlier ∈ first, earlier.hint ≠ frame.hint) :
    middle.delivery? frame = before.delivery? frame := by
  unfold delivery?
  rw [settled.line.config, settled.inFlight, List.find?_filter]
  congr 2
  funext op
  rw [Bool.eq_iff_iff, decide_eq_true_eq, Bool.not_eq_true']
  refine and_iff_right_of_imp fun under => Bool.eq_false_iff.2 fun named => ?_
  obtain ⟨earlier, member, same⟩ := namedIn_iff.1 named
  exact other earlier member (same.trans (by simpa using under))

theorem append (settled : Settled first before n middle) (settled' : Settled second middle m after)
    (apart : ∀ earlier ∈ first, ∀ later ∈ second, earlier.hint ≠ later.hint) :
    Settled (first ++ second) before (n + m) after := by
  have same : ∀ frame ∈ second, middle.delivery? frame = before.delivery? frame :=
    fun frame member => settled.delivery?_eq fun earlier old => apart earlier old frame member
  have handed : second.filterMap middle.delivery? = second.filterMap before.delivery? :=
    List.filterMap_congr same
  refine ⟨settled.line.trans settled'.line, ?_, settled'.parked.trans settled.parked, ?_, ?_, ?_⟩
  · rw [settled'.inFlight, settled.inFlight, List.filter_filter]
    refine List.filter_congr fun op _ => ?_
    simp [namedIn, Bool.and_comm]
  · rw [settled'.delivered, settled.delivered, handed, List.filterMap_append, List.reverse_append,
      List.append_assoc]
  · rw [settled.matched, settled'.matched, handed, List.filterMap_append, List.length_append]
  · rw [settled'.counters, settled.counters, List.map_append, List.foldl_append,
      List.map_congr_left same]

end Settled

theorem settled_receiveAll (broker : Broker) (clock : Instant) {frames : List Frame}
    (distinct : (frames.map Frame.hint).Nodup) :
    Settled frames broker (broker.receiveAll .standard clock frames).1
      (broker.receiveAll .standard clock frames).2 := by
  induction frames generalizing broker with
  | nil => exact .nil broker
  | cons frame rest ih =>
    rw [List.map_cons, List.nodup_cons] at distinct
    rw [receiveAll_cons, Nat.add_comm]
    refine (settled_receive broker clock frame).append (ih _ distinct.2) ?_
    intro earlier one later member same
    rw [List.mem_singleton.1 one] at same
    exact distinct.1 (same ▸ List.mem_map_of_mem member)

theorem settled_ingestAll (broker : Broker) {batches : List (Instant × Bytes)}
    (distinct : ((batches.flatMap fun batch => Batch.frames .response batch.2).map
      Frame.hint).Nodup) :
    Settled (batches.flatMap fun batch => Batch.frames .response batch.2) broker
      (broker.ingestAll .standard batches).1 (broker.ingestAll .standard batches).2 := by
  induction batches generalizing broker with
  | nil => exact .nil broker
  | cons batch rest ih =>
    rw [List.flatMap_cons, List.map_append, List.nodup_append] at distinct
    obtain ⟨here, there, apart⟩ := distinct
    rw [List.flatMap_cons]
    refine (settled_receiveAll broker batch.1 here).append (ih _ there) ?_
    intro earlier old later new
    exact apart _ (List.mem_map_of_mem old) _ (List.mem_map_of_mem new)

/-! ### Changing places -/

/-- The same to everybody: the places, the counters, and what each caller is told. -/
structure Alike (first second : Broker) : Prop where
  line : SameLine first second
  inFlight : second.queue.inFlight = first.queue.inFlight
  parked : second.queue.parked = first.queue.parked
  counters : second.counters = first.counters
  outcomes : ∀ ticket, second.queue.outcomesOf ticket = first.queue.outcomesOf ticket

/-- Responses in another order hand out the same, in another order. -/
theorem Settled.perm {frames others : List Frame} {before after after' : Broker} {n m : Nat}
    (settled : Settled frames before n after) (settled' : Settled others before m after')
    (perm : frames.Perm others) (audited : Audited [] after) : n = m ∧ Alike after after' := by
  have handed : (frames.filterMap before.delivery?).Perm (others.filterMap before.delivery?) :=
    perm.filterMap _
  have commutes : RightCommutative Counters.countDelivery := ⟨Counters.countDelivery_comm⟩
  refine ⟨?_, ⟨settled.line.symm.trans settled'.line, ?_, ?_, ?_, ?_⟩⟩
  · rw [settled.matched, settled'.matched, handed.length_eq]
  · rw [settled.inFlight, settled'.inFlight]
    refine List.filter_congr fun op _ => ?_
    rw [namedIn, namedIn, perm.any_eq]
  · rw [settled.parked, settled'.parked]
  · rw [settled.counters, settled'.counters]
    exact ((perm.map before.delivery?).foldl_eq before.counters).symm
  · intro ticket
    have told : (after'.queue.outcomesOf ticket).Perm (after.queue.outcomesOf ticket) := by
      unfold Queue.outcomesOf
      rw [settled.delivered, settled'.delivered]
      refine (List.Perm.filter _ (List.Perm.append_right _ ?_)).map _
      exact (List.reverse_perm _).trans (handed.symm.trans (List.reverse_perm _).symm)
    -- A caller is told one thing at most, so that there is no order to change.
    have once := audited.once ticket
    have short : (after.queue.outcomesOf ticket).length ≤ 1 := by omega
    cases listed : after.queue.outcomesOf ticket with
    | nil => exact (listed ▸ told).eq_nil
    | cons outcome others =>
      rw [listed, List.length_cons] at short
      obtain rfl : others = [] := List.eq_nil_of_length_eq_zero (by omega)
      exact List.perm_singleton.1 (listed ▸ told)

theorem ingestAll_eq_run (routine : Routine) (broker : Broker) (batches : List (Instant × Bytes)) :
    (broker.ingestAll routine batches).2
      = broker.run routine (batches.map fun batch => .ingest batch.1 batch.2) := by
  induction batches generalizing broker with
  | nil => rfl
  | cons batch rest ih => exact ih _

/-- The messages of a batch, one behind the other. -/
def joined (batch : Instant × List Bytes) : Instant × Bytes := (batch.1, batch.2.flatten)

theorem frames_joined {batches : List (Instant × List Bytes)}
    (framed : ∀ message ∈ batches.flatMap Prod.snd,
      ∃ frame, Frame.split? .response message = some (frame, [])) :
    ((batches.map joined).flatMap fun batch => Batch.frames .response batch.2)
      = (batches.flatMap Prod.snd).flatMap (Batch.frames .response) := by
  rw [List.flatMap_map, List.flatMap_assoc]
  refine List.flatMap_congr fun batch member => Batch.frames_flatten fun message sent => ?_
  exact framed message (List.mem_flatMap.2 ⟨batch, member, sent⟩)

/-- A batch that is read to its end may be cut there. Under the standard routine it does not matter
how responses to different operations are ordered, how they are distributed over batches, and when
these come. -/
theorem batching_immaterial (routine : Routine) :
    (∀ (broker : Broker) (clock : Instant) (first second : Bytes),
      Batch.readTo .response first = first.length →
      broker.ingest routine clock (first ++ second)
        = ((broker.ingest routine clock first).1
            + ((broker.ingest routine clock first).2.ingest routine clock second).1,
          ((broker.ingest routine clock first).2.ingest routine clock second).2)) ∧
    ∀ (config : Config) (actions : List Action) (batches others : List (Instant × List Bytes)),
      (∀ message ∈ batches.flatMap Prod.snd,
        ∃ frame, Frame.split? .response message = some (frame, [])) →
      (((batches.flatMap Prod.snd).flatMap (Batch.frames .response)).map Frame.hint).Nodup →
      (batches.flatMap Prod.snd).Perm (others.flatMap Prod.snd) →
      let broker := (new config).run routine actions
      let one := broker.ingestAll .standard (batches.map joined)
      let other := broker.ingestAll .standard (others.map joined)
      one.1 = other.1 ∧ Alike one.2 other.2 := by
  refine ⟨fun broker clock first second whole => ingest_append routine broker clock whole second,
    fun config actions batches others framed distinct perm => ?_⟩
  intro broker one other
  have framed' : ∀ message ∈ others.flatMap Prod.snd,
      ∃ frame, Frame.split? .response message = some (frame, []) :=
    fun message member => framed message (perm.mem_iff.2 member)
  have frames := frames_joined framed
  have frames' := frames_joined framed'
  have reordered := perm.flatMap_right (Batch.frames .response)
  have audited : Audited [] one.2 := by
    have past := (invariant_audited routine).run (audited_new config) actions
    have later := (invariant_audited .standard).run past
      ((batches.map joined).map fun batch => .ingest batch.1 batch.2)
    rwa [← ingestAll_eq_run] at later
  have settled : Settled _ broker one.1 one.2 := settled_ingestAll broker (by rwa [frames])
  have settled' : Settled _ broker other.1 other.2 := settled_ingestAll broker (by
    rw [frames']
    exact (reordered.map Frame.hint).nodup_iff.1 distinct)
  refine settled.perm settled' ?_ audited
  rwa [frames, frames']

/-- Nothing was posted under this hint yet. -/
def premature : Response := .ofStatus .v1 ⟨2⟩ .read .endOfFile

/-- An answer and a response to nobody come together, or the other way round and apart. -/
theorem batching_immaterial_twoResponses :
    let together : List (Instant × List Bytes) := [(0, [threeBytes.encode, premature.encode])]
    let apart : List (Instant × List Bytes) :=
      [(1, [premature.encode]), (2, [threeBytes.encode])]
    let broker := (new .standard).run .standard (oneRead.take 2)
    Batch.readTo .response threeBytes.encode = threeBytes.encode.length ∧
    (let first := broker.ingest .standard 0 threeBytes.encode
    let second := first.2.ingest .standard 0 premature.encode
    broker.ingest .standard 0 (threeBytes.encode ++ premature.encode)
      = (first.1 + second.1, second.2)) ∧
    (∀ message ∈ together.flatMap Prod.snd,
      ∃ frame, Frame.split? .response message = some (frame, [])) ∧
    (((together.flatMap Prod.snd).flatMap (Batch.frames .response)).map Frame.hint).Nodup ∧
    (together.flatMap Prod.snd).Perm (apart.flatMap Prod.snd) ∧
    Alike (broker.ingestAll .standard (together.map joined)).2
      (broker.ingestAll .standard (apart.map joined)).2 := by
  intro together apart broker
  have formed : threeBytes.WellFormed := threeBytes_matches.formed
  have formed' : premature.WellFormed := Response.wellFormed_ofStatus _ _ _ _
  have messages : together.flatMap Prod.snd = [threeBytes.encode, premature.encode] := rfl
  have framed : ∀ message ∈ together.flatMap Prod.snd,
      ∃ frame, Frame.split? .response message = some (frame, []) := by
    simp only [messages, List.forall_mem_cons]
    exact ⟨⟨_, Response.split?_encode formed⟩, ⟨_, Response.split?_encode formed'⟩, by simp⟩
  have distinct : (((together.flatMap Prod.snd).flatMap (Batch.frames .response)).map
      Frame.hint).Nodup := by
    simp only [messages, List.flatMap_cons, List.flatMap_nil, Response.frames_encode formed,
      Response.frames_encode formed', List.append_nil, List.cons_append, List.nil_append,
      List.map_cons, List.map_nil, Frame.hint, Response.frame_header]
    decide
  have whole := Response.readTo_encode formed
  have swapped : (together.flatMap Prod.snd).Perm (apart.flatMap Prod.snd) := List.Perm.swap ..
  obtain ⟨cuts, reorders⟩ := batching_immaterial .standard
  refine ⟨whole, ?_, framed, distinct, swapped, ?_⟩
  · exact cuts broker 0 threeBytes.encode premature.encode whole
  · exact (reorders .standard (oneRead.take 2) together apart framed distinct swapped).2

end Broker
end FileBroker
