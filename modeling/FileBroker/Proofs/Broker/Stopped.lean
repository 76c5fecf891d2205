import FileBroker.Proofs.Broker.Landing

/-!
Stopping in good order. A stopped broker takes on nothing new. Who is in flight stays there until it
is answered or expires, and is then told the last word on it; a second stop, which gives up whatever
is left, leaves nobody waiting.
-/
namespace FileBroker

/-- What an operation that was never put off is told for a verdict after the stop. -/
def Verdict.afterStop (maxRetries : Nat) : Verdict → Outcome
  | .done outcome => outcome
  | .retry => .error (if maxRetries = 0 then .expired else .cancelled)

namespace Broker

/-- Whether one of the responses that an action brings in names an operation. -/
def Action.names (action : Action) (op : Operation) : Prop :=
  ∃ frame ∈ Batch.frames .response action.responses, frame.hint = op.hint

/-- Whether an action is a sweep by which an operation expires in flight. -/
def Action.expires (config : Config) (op : Operation) : Action → Bool
  | .removeExpired now => config.expiresInFlight && op.isExpired now
  | _ => false

variable {routine : Routine} {broker : Broker} {config : Config} {op : Operation}

/-! ### What a stop is for -/

/-- A stopped broker stays so. -/
theorem invariant_stopped (routine : Routine) :
    Invariant routine fun broker => broker.queue.stopped = true where
  receive broker clock frame stopped :=
    (sameLine_receive broker routine clock frame).stopped.trans stopped
  resume broker clock now op queue stopped due := (unmoved_resume routine due).stopped.trans stopped
  write broker stopped := stopped
  handBack broker hints stopped := by
    obtain ⟨waiting, flying, same, -, -⟩ := Queue.handBack_spec hints broker.queue
    rw [same]
    exact stopped
  fetch broker older run left stopped cut := (Queue.kept_foldl_launch run _).1.trans stopped
  post broker now request stopped := by
    rcases post_cases broker now request with ⟨-, _, same⟩ | ⟨-, _, same⟩ | ⟨-, same⟩ <;>
      rw [same] <;> exact stopped
  cancel broker hint stopped := by
    rcases queue_cancel broker hint with same | ⟨op, before, rest, -, same⟩ <;> rw [same] <;>
      exact stopped
  removeExpired broker now stopped := by
    rw [queue_removeExpired]
    exact stopped
  stop broker cancelAll stopped := by
    cases cancelAll with
    | false => rfl
    | true => rw [queue_stop_all]

/-- No post is accepted after the stop; at most it is told so. -/
theorem post_stopped (stopped : broker.queue.stopped = true) (now : Instant) (request : Request) :
    ∃ failure, (broker.post now request).1 = .error failure ∧
      (broker.post now request).2.queue.all = broker.queue.all := by
  rcases post_cases broker now request with ⟨-, failure, same⟩ | ⟨-, failure, same⟩ | ⟨spoken, -⟩
  · exact ⟨failure, by rw [same], by rw [same]⟩
  · exact ⟨failure, by rw [same], by rw [same]; rfl⟩
  · refine ⟨.cancelled, ?_, ?_⟩ <;> simp [post, Queue.enqueue, spoken, stopped]
    rfl

/-- A worker gets not a single byte after the stop; its responses are taken in all the same. -/
theorem exchange_after_stop (stopped : broker.queue.stopped = true) (routine : Routine)
    (now : Instant) (responses : Bytes) (buffer : Buffer) (wait : Bool) :
    Unmoved (broker.ingest routine now responses).2
        (broker.exchange routine now responses buffer wait).2 ∧
      ∃ result, (broker.exchange routine now responses buffer wait).1 = some (result, now) ∧
        ∀ count filled, result = .ok (count, filled) → count = 0 :=
  exchange_refused routine now responses wait rfl
    (.inr ((sameLine_ingest broker routine now responses).stopped.trans stopped))

/-! ### Nobody left -/

/-- A stopped broker that holds no operation. -/
structure Emptied (broker : Broker) : Prop where
  stopped : broker.queue.stopped = true
  pending : broker.queue.pending = []
  inFlight : broker.queue.inFlight = []
  parked : broker.queue.parked = []

theorem emptied_stop (broker : Broker) : (broker.stop true).2.Emptied := by
  constructor <;> rw [queue_stop_all]

/-- Nobody ever comes to a broker that was stopped and emptied. -/
theorem invariant_emptied (routine : Routine) : Invariant routine Emptied where
  receive broker clock frame emptied := by
    unfold receive
    rcases Queue.land_cases broker.queue frame.hint with ⟨absent, -⟩ | ⟨op, member, -⟩
    · rw [absent]
      exact ⟨emptied.stopped, emptied.pending, emptied.inFlight, emptied.parked⟩
    · simp [emptied.inFlight] at member
  resume broker clock now op queue emptied due := by
    obtain ⟨before, rest, whole, -⟩ := Queue.takeDue_some due
    simp [emptied.parked] at whole
  write broker emptied := ⟨emptied.stopped, emptied.pending, emptied.inFlight, emptied.parked⟩
  handBack broker hints emptied := by
    obtain ⟨waiting, flying, same, waited, flown⟩ := Queue.handBack_spec hints broker.queue
    rw [same]
    refine ⟨emptied.stopped, List.eq_nil_iff_forall_not_mem.2 fun op member => ?_,
      List.eq_nil_iff_forall_not_mem.2 fun op member => ?_, emptied.parked⟩
    · simpa [emptied.pending, emptied.inFlight] using waited op member
    · simpa [emptied.inFlight] using (flown op member).1
  fetch broker older run left emptied cut := by
    rw [emptied.pending, eq_comm, List.append_eq_nil_iff, List.append_eq_nil_iff] at cut
    obtain ⟨rfl, rfl, rfl⟩ := cut
    exact ⟨emptied.stopped, rfl, emptied.inFlight, emptied.parked⟩
  post broker now request emptied := by
    obtain ⟨failure, -, same⟩ := post_stopped emptied.stopped now request
    have nobody : (broker.post now request).2.queue.all = [] := by
      rw [same, Queue.all, emptied.pending, emptied.inFlight, emptied.parked]
      rfl
    simp only [Queue.all, List.append_eq_nil_iff] at nobody
    exact ⟨(invariant_stopped routine).post broker now request emptied.stopped, nobody.1.1,
      nobody.1.2, nobody.2⟩
  cancel broker hint emptied := by
    rcases queue_cancel broker hint with same | ⟨op, before, rest, whole, -⟩
    · exact ⟨same ▸ emptied.stopped, same ▸ emptied.pending, same ▸ emptied.inFlight,
        same ▸ emptied.parked⟩
    · simp [emptied.pending] at whole
  removeExpired broker now emptied := by
    constructor <;> rw [queue_removeExpired]
    · exact emptied.stopped
    · simp [emptied.pending]
    · simp [emptied.inFlight]
    · simp [emptied.parked]
  stop broker cancelAll emptied := by
    cases cancelAll with
    | false => exact ⟨rfl, emptied.pending, emptied.inFlight, emptied.parked⟩
    | true => exact emptied_stop broker

/-- Where nobody is left, everybody who was admitted has been told, once. -/
theorem Emptied.told (emptied : broker.Emptied) {accepted : List Nat} {silent : Nat}
    (ledger : Ledger accepted [] silent broker) {ticket : Nat} (member : ticket ∈ accepted) :
    (broker.queue.outcomesOf ticket).length = 1 := by
  have once := ledger.tally_eq_one member
  have nobody : broker.queue.all = [] := by
    rw [Queue.all, emptied.pending, emptied.inFlight, emptied.parked]
    rfl
  rw [Queue.tally, nobody, Operation.tally_nil, Nat.zero_add] at once
  rw [Queue.outcomesOf, List.length_map, ← List.countP_eq_length_filter]
  exact once

/-! ### In flight -/

/-- What a broker never changes: its settings, and that nobody was put off who is pending or in
flight. -/
structure Steady (settings : Config) (broker : Broker) : Prop where
  config : broker.config = settings
  expires : broker.queue.expiresInFlight = settings.expiresInFlight
  untried : ∀ op, op ∈ broker.queue.pending ∨ op ∈ broker.queue.inFlight → op.retries = 0

namespace Steady

theorem shrink (steady : Steady config broker) {after : Broker}
    (same : after.config = broker.config)
    (expires : after.queue.expiresInFlight = broker.queue.expiresInFlight)
    (held : ∀ op, op ∈ after.queue.pending ∨ op ∈ after.queue.inFlight →
      op ∈ broker.queue.pending ∨ op ∈ broker.queue.inFlight) : Steady config after where
  config := same.trans steady.config
  expires := expires.trans steady.expires
  untried op member := steady.untried op (held op member)

end Steady

theorem expiresInFlight_apply (broker : Broker) (routine : Routine) (clock : Instant)
    (op : Operation) (response : Response) :
    (broker.apply routine clock op response).queue.expiresInFlight
      = broker.queue.expiresInFlight := by
  unfold apply
  dsimp only
  split
  · rfl
  · split
    · rfl
    · unfold Queue.park
      dsimp only
      split <;> rfl

theorem invariant_steady (routine : Routine) (config : Config) :
    Invariant routine (Steady config) where
  receive broker clock frame steady := by
    have line := sameLine_receive broker routine clock frame
    refine steady.shrink line.config ?_ fun op held => ?_
    · unfold receive
      rcases Queue.land_cases broker.queue frame.hint with ⟨absent, -⟩ | ⟨op, -, -, -, present⟩
      · rw [absent]
      · rw [present]
        dsimp only
        split
        · rfl
        · split
          · rfl
          · exact expiresInFlight_apply ..
    · rw [line.pending, inFlight_receive] at held
      exact held.imp_right List.mem_of_mem_filter
  resume broker clock now op queue steady due := by
    have line : Unmoved broker (({ broker with queue } : Broker).resume routine clock op) :=
      unmoved_resume routine due
    refine steady.shrink line.config ?_ fun other held => ?_
    · obtain ⟨before, rest, -, rfl, -⟩ := Queue.takeDue_some due
      unfold resume
      split
      · exact expiresInFlight_apply ..
      · rfl
    · rwa [line.pending, line.inFlight] at held
  write broker steady := steady.shrink rfl rfl fun _ => id
  handBack broker hints steady := by
    obtain ⟨waiting, flying, same, waited, flown⟩ := Queue.handBack_spec hints broker.queue
    rw [same]
    exact steady.shrink rfl rfl fun op held =>
      held.elim (waited op) fun member => .inr (flown op member).1
  fetch broker older run left steady cut := by
    obtain ⟨flying, displaced, same, flown, -⟩ :=
      Queue.foldl_launch_eq run { broker.queue with pending := older ++ left }
    rw [same, Queue.deliverAll_eq]
    refine steady.shrink rfl rfl fun op held => ?_
    rw [cut]
    simp only [List.mem_append]
    rcases held with waits | flies
    · rcases List.mem_append.1 waits with first | last
      · exact .inl (.inl first)
      · exact .inl (.inr (.inr last))
    · rcases flown op flies with flew | fetched
      · exact .inr flew
      · exact .inl (.inr (.inl fetched))
  post broker now request steady := by
    rcases post_cases broker now request with ⟨-, _, same⟩ | ⟨-, _, same⟩ | ⟨-, same⟩ <;> rw [same]
    · exact steady
    · exact steady.shrink rfl rfl fun _ => id
    · refine ⟨steady.config, steady.expires, fun op held => ?_⟩
      rcases held with waits | flies
      · rcases List.mem_append.1 waits with before | new
        · exact steady.untried op (.inl before)
        · obtain rfl := List.mem_singleton.1 new
          rfl
      · exact steady.untried op (.inr flies)
  cancel broker hint steady := by
    rcases queue_cancel broker hint with same | ⟨op, before, rest, whole, same⟩
    · refine steady.shrink rfl ?_ ?_ <;> rw [same]
      exact fun _ => id
    · refine steady.shrink rfl ?_ ?_ <;> rw [same]
      intro other held
      rw [whole]
      simp only [List.mem_append, List.mem_cons] at held ⊢
      tauto
  removeExpired broker now steady := by
    refine steady.shrink rfl ?_ fun op held => ?_
    · rw [queue_removeExpired]
    · rw [queue_removeExpired] at held
      exact held.imp List.mem_of_mem_filter List.mem_of_mem_filter
  stop broker cancelAll steady := by
    cases cancelAll with
    | false => exact steady.shrink rfl rfl fun _ => id
    | true =>
      refine steady.shrink rfl ?_ ?_ <;> rw [queue_stop_all]
      simp

theorem steady_new (config : Config) : Steady config (.new config) where
  config := rfl
  expires := rfl
  untried op held := by simp [Broker.new, Queue.new] at held

/-- On its way through a stopped broker an operation in flight is met by the responses that name it
and by the sweeps. -/
theorem mem_inFlight_act (steady : Steady config broker) (stopped : broker.queue.stopped = true)
    {action : Action} (goesOn : action ≠ .stop true) :
    op ∈ (broker.act routine action).queue.inFlight ↔
      op ∈ broker.queue.inFlight ∧ ¬ action.names op ∧ action.expires config op = false := by
  have silent : action.responses = [] → ¬ action.names op := by
    rintro nothing ⟨frame, framed, -⟩
    rw [nothing, Batch.frames_nil] at framed
    cases framed
  have ingested : ∀ now responses,
      op ∈ (broker.ingest routine now responses).2.queue.inFlight ↔ op ∈ broker.queue.inFlight ∧
        ¬ ∃ frame ∈ Batch.frames .response responses, frame.hint = op.hint := by
    intro now responses
    rw [ingest, inFlight_receiveAll, List.mem_filter]
    simp
  cases action with
  | post now request =>
    simp [act, inFlight_post, silent rfl, Action.expires]
  | cancel hint =>
    have same : (broker.cancel hint).2.queue.inFlight = broker.queue.inFlight := by
      rcases queue_cancel broker hint with same | ⟨_, _, _, -, same⟩ <;> rw [same]
    simp [act, same, silent rfl, Action.expires]
  | exchange now responses buffer wait =>
    have same := (exchange_after_stop stopped routine now responses buffer wait).1.inFlight
    simp [act, same, ingested, Action.names, Action.responses, Action.expires]
  | ingest now responses =>
    simp [act, ingested, Action.names, Action.responses, Action.expires]
  | processRetries clock now =>
    have same := (unmoved_processRetries broker routine clock now).inFlight
    simp [act, same, silent rfl, Action.expires]
  | removeExpired now =>
    have expires : (broker.removeExpired now).2.queue.inFlight
        = broker.queue.inFlight.filter fun op => !(config.expiresInFlight && op.isExpired now) := by
      rw [queue_removeExpired, ← steady.expires]
      rfl
    simp only [act, expires, List.mem_filter, Action.expires, silent rfl, Bool.not_eq_true',
      not_false_eq_true, true_and]
  | stop cancelAll =>
    cases cancelAll with
    | false => simp [act, stop, Queue.stop, silent rfl, Action.expires]
    | true => exact absurd rfl goesOn

/-- Who expires in flight is told so. -/
theorem told_of_expires (routine : Routine) (steady : Steady config broker)
    (flying : op ∈ broker.queue.inFlight) {action : Action}
    (expires : action.expires config op = true) :
    (⟨op.ticket, .error .expired⟩ : Delivery) ∈ (broker.act routine action).queue.delivered := by
  cases action with
  | removeExpired now =>
    have leaves : broker.queue.canExpire now op = true := by
      rw [Queue.canExpire, steady.expires]
      exact expires
    rw [act, queue_removeExpired]
    refine List.mem_append_left _ (List.mem_reverse.2 (List.mem_map.2 ⟨op, ?_, rfl⟩))
    exact List.mem_append_right _ (List.mem_filter.2 ⟨flying, leaves⟩)
  | _ => cases expires

/-- An operation that no response names stays in flight, until a sweep comes by which it expires. -/
theorem flying_run (routine : Routine) (steady : Steady config broker)
    (stopped : broker.queue.stopped = true) (flying : op ∈ broker.queue.inFlight)
    {actions : List Action} (goesOn : .stop true ∉ actions)
    (unnamed : ∀ action ∈ actions, ¬ action.names op) :
    (∀ action ∈ actions, action.expires config op = false) ∧
        op ∈ (broker.run routine actions).queue.inFlight ∨
      (∃ action ∈ actions, action.expires config op = true) ∧
        (⟨op.ticket, .error .expired⟩ : Delivery)
          ∈ (broker.run routine actions).queue.delivered := by
  induction actions generalizing broker with
  | nil => exact .inl ⟨nofun, flying⟩
  | cons action rest ih =>
    rw [List.mem_cons, not_or] at goesOn
    rw [List.forall_mem_cons] at unnamed
    by_cases expires : action.expires config op = true
    · have told := told_of_expires routine steady flying expires
      refine .inr ⟨⟨action, List.mem_cons_self .., expires⟩, ?_⟩
      exact (extends_run routine _ rest).outcomes.subset told
    · have spared := Bool.eq_false_iff.2 expires
      have still : op ∈ (broker.act routine action).queue.inFlight :=
        (mem_inFlight_act steady stopped (Ne.symm goesOn.1)).2 ⟨flying, unnamed.1, spared⟩
      rcases ih ((invariant_steady routine config).act steady action)
          ((invariant_stopped routine).act stopped action) still goesOn.2 unnamed.2 with
        ⟨never, flies⟩ | ⟨⟨sweep, member, due⟩, told⟩
      · exact .inl ⟨List.forall_mem_cons.2 ⟨spared, never⟩, flies⟩
      · exact .inr ⟨⟨sweep, List.mem_cons_of_mem _ member, due⟩, told⟩

/-- After the stop nothing is put off: every verdict is the last word. -/
theorem lastWord_afterStop (steady : Steady config broker) (stopped : broker.queue.stopped = true)
    (flying : op ∈ broker.queue.inFlight) (attempts : List Attempt) (response : Response) :
    broker.lastWord routine attempts op response
      = some ((routine attempts op.request response).afterStop config.maxRetries) := by
  have untried := steady.untried op (.inr flying)
  unfold lastWord Verdict.afterStop
  rw [steady.config, stopped, untried]
  cases routine attempts op.request response with
  | done outcome => rfl
  | retry => by_cases never : config.maxRetries = 0 <;> simp [never]

/-! ### Stopping twice -/

/-- A broker that has served anybody in any way is told to stop, goes on, and is told to give up
what is left.

From the first stop on no post is accepted, and every exchange ends at once and hands out nothing.
An operation in flight stays there as long as no response names it, unless a sweep comes by which it
expires; the first response that names it, if it passes the checks, ends it at once with the last
word of the routine. From the second stop on nobody is left, and everybody who was ever accepted has
been told exactly one outcome. -/
theorem graceful_stop (routine : Routine) (config : Config) (before : List Action) :
    let stopped := ((Broker.new config).run routine before).act routine (.stop false)
    (∀ later now request, ∃ failure,
      ((stopped.run routine later).post now request).1 = .error failure) ∧
    (∀ later now responses buffer wait, ∃ result,
      ((stopped.run routine later).exchange routine now responses buffer wait).1
        = some (result, now) ∧ ∀ count filled, result = .ok (count, filled) → count = 0) ∧
    (∀ op ∈ stopped.queue.inFlight, ∀ between : List Action, .stop true ∉ between →
      (∀ action ∈ between, ¬ action.names op) →
      let going := stopped.run routine between
      ((∃ sweep ∈ between, sweep.expires config op = true) →
        op ∉ going.queue.all ∧ going.queue.outcomesOf op.ticket = [.error .expired]) ∧
      ((∀ sweep ∈ between, sweep.expires config op = false) →
        op ∈ going.queue.inFlight ∧ going.queue.outcomesOf op.ticket = [] ∧
        ∀ (action : Action) early frame rest response,
          Batch.frames .response action.responses = early ++ frame :: rest →
          (∀ other ∈ early, other.hint ≠ op.hint) → frame.hint = op.hint →
          Response.decode frame config.revision = .ok response →
          response.validate op.request = .ok () → response.status.isPending = false →
          ∃ attempts, going.attempts <:+ attempts ∧
            ⟨op.request, response⟩ :: attempts <:+ (going.act routine action).attempts ∧
            ∀ later, let after := (going.act routine action).run routine later
              op ∉ after.queue.all ∧ after.queue.outcomesOf op.ticket
                = [(routine attempts op.request response).afterStop config.maxRetries])) ∧
    ∀ between rest,
      let ended := ((stopped.run routine between).act routine (.stop true)).run routine rest
      ended.queue.pending = [] ∧ ended.queue.inFlight = [] ∧ ended.queue.parked = [] ∧
      ∀ ticket ∈ (Broker.new config).admitted routine
          (before ++ .stop false :: between ++ .stop true :: rest),
        (ended.queue.outcomesOf ticket).length = 1 := by
  intro stopped
  have stops : stopped.queue.stopped = true := rfl
  have whole : stopped = (Broker.new config).run routine (before ++ [.stop false]) := by
    rw [run_append]
    rfl
  have steady : Steady config stopped :=
    whole ▸ (invariant_steady routine config).run (steady_new config) _
  have stays := fun later => (invariant_stopped routine).run stops later
  obtain ⟨missed, ledger, -, -⟩ := (ledger_new config).run routine (before ++ [.stop false])
  rw [← whole] at ledger
  refine ⟨fun later now request => ?_, fun later now responses buffer wait => ?_,
    fun op flying between goesOn unnamed => ?_, fun between rest => ?_⟩
  · obtain ⟨failure, refused, -⟩ := post_stopped (stays later) now request
    exact ⟨failure, refused⟩
  · exact (exchange_after_stop (stays later) routine now responses buffer wait).2
  · intro going
    obtain ⟨missed', kept, -, -⟩ := ledger.run routine between
    have held : op ∈ stopped.queue.all := by simp [Queue.all, flying]
    have member := (ledger.owned op (.inl held)).1
    have steady' : Steady config going := (invariant_steady routine config).run steady between
    rcases flying_run routine steady stops flying goesOn unnamed with
      ⟨never, flies⟩ | ⟨⟨sweep, swept, due⟩, told⟩
    · refine ⟨?_, fun _ => ⟨flies, ?_, ?_⟩⟩
      · rintro ⟨sweep, swept, due⟩
        rw [never sweep swept] at due
        cases due
      · exact kept.outcomesOf_held (by simp [Queue.all, flies])
      · intro action early frame rest response framed first under decoded valid final
        obtain ⟨attempts, grown, noted, ends⟩ := answered_of_framed routine kept flies
          framed first under (steady'.config ▸ decoded) valid final
        refine ⟨attempts, grown, noted, fun later => ?_⟩
        obtain ⟨gone, outcomes⟩ :=
          ends _ (lastWord_afterStop steady' (stays between) flies attempts response) later
        exact ⟨fun held => gone op held rfl, outcomes⟩
    · refine ⟨fun _ => ?_, fun never => ?_⟩
      · obtain ⟨gone, outcomes⟩ := kept.told (List.mem_append_left _ member) told
        exact ⟨fun held => gone op held rfl, outcomes⟩
      · rw [never sweep swept] at due
        cases due
  · intro ended
    have emptied : ended.Emptied := (invariant_emptied routine).run (emptied_stop _) rest
    refine ⟨emptied.pending, emptied.inFlight, emptied.parked, fun ticket member => ?_⟩
    obtain ⟨missed', kept, -, -⟩ := (ledger_new config).run routine
      (before ++ .stop false :: between ++ .stop true :: rest)
    have same : ended = (Broker.new config).run routine
        (before ++ .stop false :: between ++ .stop true :: rest) := by
      simp only [run_append, run_cons]
      rfl
    rw [← same, List.nil_append] at kept
    exact emptied.told kept member

/-- A read that is in flight at the first stop is answered after it. -/
theorem graceful_stop_oneRead :
    let stopped := ((Broker.new .standard).run .standard (oneRead.take 2)).act .standard
      (.stop false)
    let after := stopped.act .standard (.ingest 0 threeBytes.encode)
    readOperation ∈ stopped.queue.inFlight ∧ readOperation ∉ after.queue.inFlight ∧
      after.queue.outcomesOf 1 = [.ok threeBytes] ∧
      ((after.act .standard (.stop true)).queue.outcomesOf 1).length = 1 := by
  intro stopped after
  obtain ⟨-, -, flight, ends⟩ := graceful_stop .standard .standard (oneRead.take 2)
  have flying : readOperation ∈ stopped.queue.inFlight := by
    change _ ∈ ((Broker.new .standard).run .standard (oneRead.take 2)).queue.inFlight
    rw [fetched_oneRead.1]
    exact List.mem_singleton_self _
  have mine := threeBytes_matches
  obtain ⟨-, stays⟩ := flight _ flying [] List.not_mem_nil nofun
  obtain ⟨-, -, lands⟩ := stays nofun
  obtain ⟨attempts, -, -, told⟩ := lands (.ingest 0 threeBytes.encode) [] _ [] threeBytes
    (Response.frames_encode mine.formed) nofun (hint_message mine)
    (Response.decode_message mine.formed) rfl rfl
  obtain ⟨gone, outcomes⟩ := told []
  obtain ⟨-, -, -, everybody⟩ := ends [.ingest 0 threeBytes.encode] []
  refine ⟨flying, fun held => gone ?_, outcomes, everybody 1 ?_⟩
  · exact List.mem_append_left _ (List.mem_append_right _ held)
  · exact List.mem_append_left _ (List.mem_singleton_self 1)

end Broker
end FileBroker
