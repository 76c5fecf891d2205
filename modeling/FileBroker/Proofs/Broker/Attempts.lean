import FileBroker.Proofs.Broker.Fetch
import FileBroker.Proofs.Broker.Receive
import FileBroker.Proofs.Queue.Contents
import Mathlib.Data.List.Induction

/-!
What a completion routine gets to see. The responses come from a worker that is not trusted, and an
attempt may be made long after its response came in; still every attempt pairs a request that was
handed out with a response that was framed later, read without fault, and may answer it.
-/
namespace FileBroker.Broker

/-- The responses that an operation of the broker brings in. -/
def Action.responses : Action → Bytes
  | .exchange _ responses _ _ | .ingest _ responses => responses
  | _ => []

/-- The request was posted in the past, and admitted with the hint it carries. -/
def Posted (routine : Routine) (start : Broker) (past : List Action) (request : Request) : Prop :=
  ∃ before now draft rest reply, past = before ++ .post now draft :: rest ∧
    ((start.run routine before).post now draft).1 = .ok reply ∧
    request = draft.withHint reply.hint

/-- What an exchange returned to the worker is requests in their wire form, this one among them. -/
def Written (result : Except ChannelError (Nat × Buffer)) (request : Request) : Prop :=
  ∃ count filled, ∃ batch : List Request, result = .ok (count, filled) ∧
    filled.front count = batch.flatMap Request.encode ∧ request ∈ batch

/-- The request was posted, and a later exchange of the past handed it out. -/
def HandedOut (routine : Routine) (start : Broker) (past : List Action) (request : Request) :
    Prop :=
  ∃ before now responses buffer wait rest ended,
    past = before ++ .exchange now responses buffer wait :: rest ∧
    ((start.run routine before).exchange routine now responses buffer wait).1 = some ended ∧
    Written ended.1 request ∧
    Posted routine start before request

/-- After the request was handed out, a message came in that reads as the response. -/
def Answered (routine : Routine) (start : Broker) (past : List Action) (request : Request)
    (response : Response) : Prop :=
  ∃ before rest, past = before ++ rest ∧ HandedOut routine start before request ∧
    ∃ action ∈ rest, ∃ frame ∈ Batch.frames .response action.responses,
      Response.decode frame start.config.revision = .ok response

section Later

variable {routine : Routine} {start : Broker} {past : List Action} {request : Request}
  {response : Response}

theorem Posted.later (posted : Posted routine start past request) (more : List Action) :
    Posted routine start (past ++ more) request := by
  obtain ⟨before, now, draft, rest, reply, rfl, accepted, same⟩ := posted
  exact ⟨before, now, draft, rest ++ more, reply, by simp, accepted, same⟩

theorem HandedOut.later (handed : HandedOut routine start past request) (more : List Action) :
    HandedOut routine start (past ++ more) request := by
  obtain ⟨before, now, responses, buffer, wait, rest, ended, rfl, ends, written, posted⟩ := handed
  exact ⟨before, now, responses, buffer, wait, rest ++ more, ended, by simp, ends, written, posted⟩

theorem HandedOut.posted (handed : HandedOut routine start past request) :
    Posted routine start past request := by
  obtain ⟨before, now, responses, buffer, wait, rest, ended, rfl, -, -, posted⟩ := handed
  exact posted.later _

theorem Answered.later (answered : Answered routine start past request response)
    (more : List Action) : Answered routine start (past ++ more) request response := by
  obtain ⟨before, rest, rfl, handed, action, member, framed⟩ := answered
  exact ⟨before, rest ++ more, by simp, handed, action, List.mem_append_left _ member, framed⟩

end Later

/-! ### Requests and responses kept -/

/-- What is known of the requests in each place, and of each pair that an attempt is or will be
made for. -/
structure Traced (waiting flying : Request → Prop) (lawful : Request → Response → Prop)
    (revision : Revision) (broker : Broker) : Prop where
  revision : broker.config.revision = revision
  pending : ∀ op ∈ broker.queue.pending, waiting op.request
  inFlight : ∀ op ∈ broker.queue.inFlight, flying op.request
  parked : ∀ op ∈ broker.queue.parked, ∀ response, op.response = some response →
    lawful op.request response
  attempts : ∀ attempt ∈ broker.attempts, lawful attempt.request attempt.response

theorem traced_new {waiting flying : Request → Prop} {lawful : Request → Response → Prop}
    (config : Config) : Traced waiting flying lawful config.revision (.new config) where
  revision := rfl
  pending _ member := absurd member List.not_mem_nil
  inFlight _ member := absurd member List.not_mem_nil
  parked _ member := absurd member List.not_mem_nil
  attempts _ member := absurd member List.not_mem_nil

namespace Traced

variable {waiting flying : Request → Prop} {lawful : Request → Response → Prop}
  {revision : Revision} {broker : Broker} {routine : Routine}

theorem weaken (traced : Traced waiting flying lawful revision broker)
    {waiting' flying' : Request → Prop} {lawful' : Request → Response → Prop}
    (stillWaiting : ∀ request, waiting request → waiting' request)
    (stillFlying : ∀ request, flying request → flying' request)
    (stillLawful : ∀ request response, lawful request response → lawful' request response) :
    Traced waiting' flying' lawful' revision broker where
  revision := traced.revision
  pending op member := stillWaiting _ (traced.pending op member)
  inFlight op member := stillFlying _ (traced.inFlight op member)
  parked op member response held := stillLawful _ _ (traced.parked op member response held)
  attempts attempt member := stillLawful _ _ (traced.attempts attempt member)

/-- Operations may leave. -/
theorem shrink (traced : Traced waiting flying lawful revision broker) {after : Broker}
    (config : after.config = broker.config)
    (pending : ∀ op ∈ after.queue.pending, op ∈ broker.queue.pending)
    (inFlight : ∀ op ∈ after.queue.inFlight, op ∈ broker.queue.inFlight)
    (parked : ∀ op ∈ after.queue.parked, op ∈ broker.queue.parked)
    (attempts : after.attempts = broker.attempts) :
    Traced waiting flying lawful revision after where
  revision := config ▸ traced.revision
  pending op member := traced.pending op (pending op member)
  inFlight op member := traced.inFlight op (inFlight op member)
  parked op member := traced.parked op (parked op member)
  attempts attempt member := traced.attempts attempt (attempts ▸ member)

theorem settle (traced : Traced waiting flying lawful revision broker) (op : Operation)
    (outcome : Outcome) : Traced waiting flying lawful revision (broker.settle op outcome) :=
  traced.shrink rfl (fun _ => id) (fun _ => id) (fun _ => id) rfl

theorem apply (traced : Traced waiting flying lawful revision broker) {op : Operation}
    {response : Response} (allowed : lawful op.request response) (clock : Instant) :
    Traced waiting flying lawful revision (broker.apply routine clock op response) := by
  have noted : Traced waiting flying lawful revision
      { broker with attempts := ⟨op.request, response⟩ :: broker.attempts } := by
    refine ⟨traced.revision, traced.pending, traced.inFlight, traced.parked, ?_⟩
    intro attempt member
    rcases List.mem_cons.1 member with rfl | earlier
    · exact allowed
    · exact traced.attempts attempt earlier
  unfold Broker.apply
  dsimp only
  split
  · exact noted.settle op _
  · split
    · exact noted.settle op _
    · unfold Queue.park
      dsimp only
      split
      · exact noted.shrink rfl (fun _ => id) (fun _ => id) (fun _ => id) rfl
      · refine ⟨noted.revision, noted.pending, noted.inFlight, ?_, noted.attempts⟩
        intro other member held same
        rcases List.mem_append.1 member with before | new
        · exact noted.parked other before held same
        · obtain rfl := List.mem_singleton.1 new
          cases same
          exact allowed

/-- A response is applied only after every check. -/
theorem receive (traced : Traced waiting flying lawful revision broker) (clock : Instant)
    {frame : Frame} (checked : ∀ request response, flying request → request.hint = frame.hint →
      Response.decode frame revision = .ok response → response.validate request = .ok () →
      response.status.isPending = false → lawful request response) :
    Traced waiting flying lawful revision (broker.receive routine clock frame).2 := by
  unfold Broker.receive
  rcases Queue.land_cases broker.queue frame.hint with
    ⟨absent, -⟩ | ⟨op, member, under, -, present⟩
  · rw [absent]
    exact traced.shrink rfl (fun _ => id) (fun _ => id) (fun _ => id) rfl
  · rw [present]
    have landed : Traced waiting flying lawful revision
        { broker with
          queue := { broker.queue with
            inFlight := broker.queue.inFlight.filter fun other => other.hint != frame.hint } } :=
      traced.shrink rfl (fun _ => id) (fun _ => List.mem_of_mem_filter) (fun _ => id) rfl
    dsimp only
    split
    · exact landed.settle op _
    · next response read =>
      split
      · exact landed.settle op _
      · next final =>
        obtain ⟨found, decoded, valid⟩ := bind_eq_ok.1 read
        obtain ⟨⟨⟩, passed, same⟩ := bind_eq_ok.1 valid
        rw [pure_eq_ok] at same
        subst same
        rw [traced.revision] at decoded
        have allowed := checked op.request found (traced.inFlight op member) under decoded passed
          (Bool.eq_false_iff.2 final)
        exact landed.apply allowed clock

/-- What was lawful when an operation was parked is lawful when it is tried again. -/
theorem resume (traced : Traced waiting flying lawful revision broker) (clock now : Instant)
    (op : Operation) (queue : Queue) (due : broker.queue.takeDue now = (some op, queue)) :
    Traced waiting flying lawful revision
      (({ broker with queue } : Broker).resume routine clock op) := by
  obtain ⟨before, rest, whole, rfl, -, -⟩ := Queue.takeDue_some due
  have present : op ∈ broker.queue.parked := by rw [whole]; simp
  have taken : Traced waiting flying lawful revision
      { broker with queue := { broker.queue with parked := before ++ rest } } := by
    refine traced.shrink rfl (fun _ => id) (fun _ => id) (fun other member => ?_) rfl
    rw [whole]
    simp only [List.mem_append, List.mem_cons] at member ⊢
    tauto
  unfold Broker.resume
  split
  · next response emptied removed =>
    rw [Operation.takeResponse, Prod.mk.injEq] at removed
    obtain ⟨held, rfl⟩ := removed
    have allowed := traced.parked op present response held
    exact taken.apply allowed clock
  · exact taken.settle _ _

theorem resumeDue (traced : Traced waiting flying lawful revision broker) (now : Instant) :
    Traced waiting flying lawful revision (broker.resumeDue routine now).2 :=
  processRetries_induction (fun _ op queue kept => kept.resume _ _ op queue) traced

theorem cancel (traced : Traced waiting flying lawful revision broker) (hint : Hint) :
    Traced waiting flying lawful revision (broker.cancel hint).2 := by
  rcases queue_cancel broker hint with same | ⟨op, before, after, whole, same⟩
  · refine traced.shrink rfl ?_ ?_ ?_ rfl <;> rw [same] <;> exact fun _ => id
  · refine traced.shrink rfl (fun other member => ?_) ?_ ?_ rfl
    · rw [same] at member
      rw [whole]
      simp only [List.mem_append, List.mem_cons] at member ⊢
      tauto
    · rw [same]
      exact fun _ => id
    · rw [same]
      exact fun _ => id

theorem removeExpired (traced : Traced waiting flying lawful revision broker) (now : Instant) :
    Traced waiting flying lawful revision (broker.removeExpired now).2 := by
  refine traced.shrink rfl ?_ ?_ ?_ rfl <;> rw [queue_removeExpired] <;>
    exact fun _ => List.mem_of_mem_filter

theorem stop (traced : Traced waiting flying lawful revision broker) (cancelAll : Bool) :
    Traced waiting flying lawful revision (broker.stop cancelAll).2 := by
  cases cancelAll with
  | false => exact traced.shrink rfl (fun _ => id) (fun _ => id) (fun _ => id) rfl
  | true =>
    refine traced.shrink rfl ?_ ?_ ?_ rfl <;>
      · rw [queue_stop_all]
        intro op member
        cases member

end Traced

/-! ### Handing out -/

/-- While a buffer is filled: what was written so far is whole requests, and what went into flight
meanwhile is either written or yet to be. -/
def Fetching (waiting flying : Request → Prop) (lawful : Request → Response → Prop)
    (revision : Revision) (broker : Broker) (writer : Batch.Writer) (batch : List Operation) :
    Prop :=
  ∃ out : List Request, writer.InBounds ∧ writer.written = out.flatMap Request.encode ∧
    Traced waiting (fun request => flying request ∨
      waiting request ∧ (request ∈ out ∨ request ∈ batch.map Operation.request))
      lawful revision broker

section Exchanges

variable {waiting flying : Request → Prop} {lawful : Request → Response → Prop}
  {revision : Revision} {broker : Broker} {routine : Routine}

theorem fetchInvariant_fetching (known : ∀ request, flying request → waiting request) :
    FetchInvariant (Fetching waiting flying lawful revision) where
  write broker writer written op rest start pushed := by
    obtain ⟨out, bounds, filled, traced⟩ := start
    obtain ⟨longer, -, -, within⟩ := Batch.Writer.push_eq_ok bounds pushed
    refine ⟨out ++ [op.request], within, ?_, ?_⟩
    · rw [longer, filled, List.flatMap_append, List.flatMap_singleton]
      exact congrArg (_ ++ ·) (Layout.pad_pad _)
    · have kept : Traced waiting (fun request => flying request ∨ waiting request ∧
          (request ∈ out ++ [op.request] ∨ request ∈ rest.map Operation.request))
          lawful revision broker := by
        refine traced.weaken (fun _ => id) (fun request flown => ?_) (fun _ _ => id)
        simp only [List.map_cons, List.mem_cons, List.mem_append, List.not_mem_nil] at flown ⊢
        tauto
      exact kept.shrink rfl (fun _ => id) (fun _ => id) (fun _ => id) rfl
  handBack broker writer ops start := by
    obtain ⟨out, bounds, filled, traced⟩ := start
    obtain ⟨waiting', flying', same, waited, flown⟩ :=
      Queue.handBack_spec (ops.map Operation.hint) broker.queue
    rw [same]
    refine ⟨out, bounds, filled, traced.revision, ?_, ?_, traced.parked, traced.attempts⟩
    · intro op member
      rcases waited op member with pending | flew
      · exact traced.pending op pending
      · rcases traced.inFlight op flew with old | new
        · exact known op.request old
        · exact new.1
    · intro op member
      obtain ⟨flew, apart⟩ := flown op member
      rcases traced.inFlight op flew with old | ⟨posted, written | unwritten⟩
      · exact .inl old
      · exact .inr ⟨posted, .inl written⟩
      · obtain ⟨other, found, twin⟩ := List.mem_map.1 unwritten
        have hint : other.hint = op.hint := congrArg Request.hint twin
        exact absurd (hint ▸ List.mem_map_of_mem found) apart
  fetch broker writer older run left start cut := by
    obtain ⟨out, bounds, filled, traced⟩ := start
    obtain ⟨flying', displaced, same, flown, -⟩ :=
      Queue.foldl_launch_eq run { broker.queue with pending := older ++ left }
    have pending := traced.pending
    rw [cut] at pending
    rw [same, Queue.deliverAll_eq]
    refine ⟨out, bounds, filled, traced.revision, ?_, ?_, traced.parked, traced.attempts⟩
    · intro op member
      refine pending op ?_
      simp only [List.mem_append] at member ⊢
      tauto
    · intro op member
      rcases flown op member with flew | fetched
      · refine (traced.inFlight op flew).imp_right fun new => ⟨new.1, new.2.imp_right ?_⟩
        exact fun nothing => absurd nothing List.not_mem_nil
      · refine .inr ⟨pending op ?_, .inr (List.mem_map_of_mem fetched)⟩
        simp only [List.mem_append]
        tauto

/-- Filling a buffer: what is in flight afterwards was before, or stands in the result. -/
theorem traced_pollExchange (known : ∀ request, flying request → waiting request)
    (traced : Traced waiting flying lawful revision broker) {now : Instant}
    {deadline : Option Instant} {buffer : Buffer} {after : Broker}
    {polled : Wait (Except ChannelError (Nat × Buffer))}
    (result : broker.pollExchange routine now deadline buffer = (polled, after)) :
    (∃ returned, polled = .ready returned ∧
      Traced waiting (fun request => flying request ∨ waiting request ∧ Written returned request)
        lawful revision after) ∨
    (∃ wake, polled = .asleep wake) ∧ Traced waiting flying lawful revision after := by
  have invariant : FetchInvariant (Fetching waiting flying lawful revision) :=
    fetchInvariant_fetching known
  have start : Fetching waiting flying lawful revision broker (.ofBuffer buffer) [] := by
    refine ⟨[], Nat.zero_le _, rfl, traced.weaken (fun _ => id) (fun _ => .inl) (fun _ _ => id)⟩
  unfold pollExchange at result
  split at result
  · next wake queue asleep =>
    cases result
    rcases invariant.dequeue (.ofBuffer buffer) start asleep with ⟨_, same, _⟩ | ⟨rfl, -⟩
    · cases same
    · exact .inr ⟨⟨wake, rfl⟩, traced⟩
  · next error queue failed =>
    cases result
    rcases invariant.dequeue (.ofBuffer buffer) start failed with ⟨_, same, _⟩ | ⟨rfl, -⟩
    · cases same
    · exact .inl ⟨_, rfl, traced.weaken (fun _ => id) (fun _ => .inl) (fun _ _ => id)⟩
  · next batch queue fetched =>
    have taken : Fetching waiting flying lawful revision { broker with queue } (.ofBuffer buffer)
        batch := by
      rcases invariant.dequeue (.ofBuffer buffer) start fetched with
        ⟨_, same, moved⟩ | ⟨rfl, nothing⟩
      · cases same
        exact moved
      · rw [nothing batch rfl]
        exact start
    obtain ⟨out, -, filled, handed⟩ := invariant.handOver now (.ofBuffer buffer) batch taken
    dsimp only at result
    have written : ∀ request,
        (flying request ∨ waiting request ∧ (request ∈ out ∨ request ∈ [].map Operation.request)) →
        flying request ∨ waiting request ∧ Written
          (.ok ((Broker.handOver { broker with queue } now (.ofBuffer buffer) batch).1.cursor,
            (Broker.handOver { broker with queue } now (.ofBuffer buffer) batch).1.buffer))
          request := by
      intro request flown
      refine flown.imp_right fun new => ⟨new.1, _, _, out, rfl, filled, ?_⟩
      exact new.2.resolve_right List.not_mem_nil
    have kept := handed.weaken (fun _ => id) written (fun _ _ => id)
    rw [Prod.mk.injEq] at result
    obtain ⟨rfl, rfl⟩ := result
    refine .inl ⟨_, rfl, ?_⟩
    split
    · exact kept.resumeDue _
    · exact kept

/-- A pair is lawful once its response has passed every check on the way in. -/
def Admits (flying : Request → Prop) (lawful : Request → Response → Prop) (revision : Revision)
    (responses : Bytes) : Prop :=
  ∀ frame ∈ Batch.frames .response responses, ∀ request response, flying request →
    request.hint = frame.hint → Response.decode frame revision = .ok response →
    response.validate request = .ok () → response.status.isPending = false →
    lawful request response

theorem traced_ingest (traced : Traced waiting flying lawful revision broker) {responses : Bytes}
    (admits : Admits flying lawful revision responses) (clock : Instant) :
    Traced waiting flying lawful revision (broker.ingest routine clock responses).2 :=
  ingest_induction (fun _ frame member kept => kept.receive clock (admits frame member)) traced

theorem traced_exchange (routine : Routine) (known : ∀ request, flying request → waiting request)
    (traced : Traced waiting flying lawful revision broker) {responses : Bytes}
    (admits : Admits flying lawful revision responses) (now : Instant) (buffer : Buffer)
    (wait : Bool) :
    Traced waiting
      (fun request => flying request ∨
        waiting request ∧ ∃ ended,
          (broker.exchange routine now responses buffer wait).1 = some ended ∧
          Written ended.1 request)
      lawful revision (broker.exchange routine now responses buffer wait).2 := by
  have begun : Traced waiting flying lawful revision
      (broker.beginExchange routine now responses buffer.size).2 := by
    have ingested : Traced waiting flying lawful revision
        (broker.ingest routine now responses).2 := traced_ingest traced admits now
    unfold beginExchange
    dsimp only
    split
    · exact ingested
    · split <;> exact ingested.resumeDue now
  -- What a poll returned is what the exchange returns, at whatever instant.
  have returns : ∀ (result : Except ChannelError (Nat × Buffer)) (instant : Instant) request,
      (flying request ∨ waiting request ∧ Written result request) →
      flying request ∨ waiting request ∧ ∃ ended, some (result, instant) = some ended ∧
        Written ended.1 request :=
    fun result instant request flew =>
      flew.imp_right fun ⟨waited, written⟩ => ⟨waited, (result, instant), rfl, written⟩
  unfold exchange
  split
  · next begins =>
    rw [begins] at begun
    exact begun.weaken (fun _ => id) (fun _ => .inl) (fun _ _ => id)
  · next begins =>
    rw [begins] at begun
    exact begun.weaken (fun _ => id) (fun _ => .inl) (fun _ _ => id)
  · next after begins =>
    rw [begins] at begun
    dsimp only
    split
    · next result polled polls =>
      rcases traced_pollExchange known begun polls with ⟨returned, same, kept⟩ | ⟨⟨_, same⟩, -⟩
      · cases same
        exact kept.weaken (fun _ => id) (returns result now) (fun _ _ => id)
      · cases same
    · next polled polls =>
      rcases traced_pollExchange known begun polls with ⟨returned, same, -⟩ | ⟨-, kept⟩
      · cases same
      · exact kept.weaken (fun _ => id) (fun _ => .inl) (fun _ _ => id)
    · next wake polled polls =>
      rcases traced_pollExchange known begun polls with ⟨returned, same, -⟩ | ⟨-, slept⟩
      · cases same
      · split
        · next result second again =>
          rcases traced_pollExchange known slept again with
            ⟨returned, same, kept⟩ | ⟨⟨_, same⟩, -⟩
          · cases same
            exact kept.weaken (fun _ => id) (returns result wake) (fun _ _ => id)
          · cases same
        · next later second again =>
          rcases traced_pollExchange known slept again with ⟨returned, same, -⟩ | ⟨-, kept⟩
          · cases same
          · exact kept.weaken (fun _ => id) (fun _ => .inl) (fun _ _ => id)

end Exchanges

/-! ### Runs -/

/-- An attempt that the past accounts for. -/
def Lawful (routine : Routine) (start : Broker) (past : List Action) (request : Request)
    (response : Response) : Prop :=
  Answered routine start past request response ∧ response.Answers request

/-- What the past of a run says about its state. -/
def Recorded (routine : Routine) (start : Broker) (past : List Action) (broker : Broker) : Prop :=
  Traced (Posted routine start past) (HandedOut routine start past) (Lawful routine start past)
    start.config.revision broker

theorem recorded_act {routine : Routine} {start : Broker} {past : List Action}
    (recorded : Recorded routine start past (start.run routine past)) (action : Action) :
    Recorded routine start (past ++ [action]) ((start.run routine past).act routine action) := by
  have later : ∀ {broker : Broker},
      Traced (Posted routine start past) (HandedOut routine start past)
        (Lawful routine start (past ++ [action])) start.config.revision broker →
      Recorded routine start (past ++ [action]) broker := fun kept =>
    kept.weaken (fun _ posted => posted.later _) (fun _ handed => handed.later _) (fun _ _ => id)
  have begun : Traced (Posted routine start past) (HandedOut routine start past)
      (Lawful routine start (past ++ [action])) start.config.revision (start.run routine past) :=
    recorded.weaken (fun _ => id) (fun _ => id) fun _ _ lawful => ⟨lawful.1.later _, lawful.2⟩
  have admits : Admits (HandedOut routine start past) (Lawful routine start (past ++ [action]))
      start.config.revision action.responses := by
    intro frame framed request response handed hint decoded valid final
    refine ⟨⟨past, [action], rfl, handed, action, List.mem_singleton_self _, frame, framed,
      decoded⟩, ?_⟩
    exact Response.answers_of_checks decoded valid hint final
  cases action with
  | post now draft =>
    rcases (start.run routine past).post_cases now draft with
      ⟨-, failure, same⟩ | ⟨-, failure, refused⟩ | ⟨-, admitted⟩
    · refine later ?_
      simpa only [act, same] using begun
    · refine later ?_
      simp only [act, refused]
      exact begun.shrink rfl (fun _ => id) (fun _ => id) (fun _ => id) rfl
    · have kept := later begun
      simp only [act, admitted]
      refine ⟨kept.revision, ?_, kept.inFlight, kept.parked, kept.attempts⟩
      intro op member
      rcases List.mem_append.1 member with before | new
      · exact kept.pending op before
      · obtain rfl := List.mem_singleton.1 new
        exact ⟨past, now, draft, [], _, rfl, by rw [admitted], rfl⟩
  | cancel hint => exact later (begun.cancel hint)
  | exchange now responses buffer wait =>
    have exchanged := traced_exchange routine (fun _ handed => handed.posted) begun admits now
      buffer wait
    refine exchanged.weaken (fun _ posted => posted.later _) ?_ (fun _ _ => id)
    rintro request (handed | ⟨posted, ended, ends, written⟩)
    · exact handed.later _
    · exact ⟨past, now, responses, buffer, wait, [], ended, rfl, ends, written, posted⟩
  | ingest now responses => exact later (traced_ingest begun admits now)
  | processRetries clock now =>
    exact later
      (processRetries_induction (fun _ op queue kept => kept.resume clock now op queue) begun)
  | removeExpired now => exact later (begun.removeExpired now)
  | stop cancelAll => exact later (begun.stop cancelAll)

theorem recorded_run (routine : Routine) (config : Config) (actions : List Action) :
    Recorded routine (.new config) actions ((Broker.new config).run routine actions) := by
  induction actions using List.reverseRecOn with
  | nil => exact traced_new config
  | append_singleton past action ih =>
    rw [run_append]
    exact recorded_act ih action

/-- Whatever bytes a worker sends and whatever the routine decides, each of its attempts, first or
repeated, is for a posted request that was handed out whole, with a response that came in after
that and is safe to complete the request with. -/
theorem attempts_lawful (routine : Routine) (config : Config) (actions : List Action) :
    ∀ attempt ∈ ((Broker.new config).run routine actions).attempts,
      Answered routine (.new config) actions attempt.request attempt.response ∧
      attempt.response.Answers attempt.request :=
  (recorded_run routine config actions).attempts

/-! A read is posted and fetched, and answered with less than it asks for. -/

def reading : Request := ⟨.v1, ⟨0⟩, .read ⟨1, 1⟩ 0 5 0, []⟩

/-- The file that is read ends after three bytes. -/
def threeBytes : Response := ⟨.v1, ⟨1⟩, ⟨.success, 3⟩, .read ⟨120, 3⟩, [10, 20, 30]⟩

def oneRead : List Action :=
  [.post 0 reading, .exchange 0 [] (.filled 16320 0) false, .ingest 0 threeBytes.encode]

/-- The operation that the request becomes. -/
def readOperation : Operation :=
  { (Broker.new .standard).posted 0 reading with seq := 1 }

theorem threeBytes_matches : threeBytes.Matches readOperation.request where
  revision := rfl
  hint := rfl
  kind := rfl
  formed := ⟨by decide, rfl⟩

theorem fetched_oneRead :
    ((Broker.new .standard).run .standard (oneRead.take 2)).queue.inFlight
        = [readOperation] ∧
      ((Broker.new .standard).run .standard (oneRead.take 2)).config = .standard := by
  let posted := (Broker.new .standard).act .standard (.post 0 reading)
  have ingested : (posted.ingest .standard 0 []).2 = posted := by
    unfold ingest
    rw [Batch.frames_nil]
    rfl
  have pending : posted.queue.pending = [readOperation] := rfl
  have waits : posted.queue.pending ≠ [] := List.cons_ne_nil _ _
  have ordered : posted.queue.Ordered := by
    constructor
    · rw [pending]
      exact List.pairwise_singleton _ _
    · rw [pending]
      exact fun op member => List.mem_singleton.1 member ▸ Nat.le_refl 1
  have formed : ∀ op ∈ posted.queue.pending, op.request.WellFormed := by
    rw [pending]
    exact fun op member => List.mem_singleton.1 member ▸ ⟨by decide, rfl⟩
  have small : ∀ op ∈ posted.queue.pending, op.size ≤ (Buffer.filled 16320 0).size := by
    intro op member
    have spoken : op.request.revision = .v1 := by
      rw [pending] at member
      rw [List.mem_singleton.1 member]
      rfl
    exact Operation.size_le spoken (formed op member)
  obtain ⟨batch, rest, count, filled, -, delivered⟩ :=
    exchange_spec .standard false ingested ⟨rfl, rfl⟩ ordered formed small (Nat.le_refl 16320) waits
  have cut := delivered.pending
  rw [pending] at cut
  obtain ⟨op, others, rfl⟩ := List.exists_cons_of_ne_nil (delivered.progress waits)
  rw [List.cons_append, List.cons.injEq, eq_comm (a := []), List.append_eq_nil_iff] at cut
  obtain ⟨rfl, rfl, rfl⟩ := cut
  refine ⟨?_, delivered.config⟩
  change (posted.exchange .standard 0 [] (.filled 16320 0) false).2.queue.inFlight = _
  rw [delivered.queue]
  rfl

theorem attempts_lawful_oneRead :
    Answered .standard (.new .standard) oneRead (reading.withHint ⟨1⟩) threeBytes ∧
      threeBytes.Answers (reading.withHint ⟨1⟩) := by
  let fetched := (Broker.new .standard).run .standard (oneRead.take 2)
  obtain ⟨flying, config⟩ := fetched_oneRead
  have mine := threeBytes_matches
  have distinct : fetched.queue.Distinct := by
    unfold Queue.Distinct
    rw [flying]
    exact List.nodup_singleton _
  have present : readOperation ∈ fetched.queue.inFlight := by
    rw [flying]
    exact List.mem_singleton_self _
  have spoken : readOperation.request.revision = fetched.config.revision := by
    rw [config]
    rfl
  have shown := attempts_receive .standard 0 distinct present mine spoken rfl rfl
  have member : ⟨reading.withHint ⟨1⟩, threeBytes⟩
      ∈ ((Broker.new .standard).run .standard oneRead).attempts := by
    change _ ∈ (fetched.ingest .standard 0 threeBytes.encode).2.attempts
    rw [ingest_encode .standard 0 mine.formed, shown]
    exact List.mem_cons_self
  exact attempts_lawful .standard .standard oneRead _ member

end FileBroker.Broker
