import FileBroker.Proofs.Session.Lasting
import FileBroker.Proofs.Worker.Turn

/-!
A session between its callers and one worker. Callers post, time passes, the worker makes its turns,
and the handler answers what it deferred, in any order. As long as nobody's operation is given up,
every caller gets what it would have got from calling the handler itself.
-/
namespace FileBroker

variable {τ : Type}

structure Service (τ : Type) where
  worker : Worker Session.Live τ
  /-- The accepted requests, each under the hint it was given, in the order of posting. -/
  posted : List Posting
  /-- The responses to deferred requests, by ticket. -/
  sent : List (Nat × Response)
  /-- How the worker ended, if it has. -/
  ended : Option (Except WorkerError Unit)

namespace Service

def start (name : String) (config : Broker.Config) (thread : String) (now : Instant) (state : τ) :
    Service τ where
  worker := .new config.revision config.mode thread ⟨now, .start name config now⟩ state
  posted := []
  sent := []
  ended := none

def broker (service : Service τ) : Broker := service.worker.channel.session.broker

def withLive (service : Service τ) (live : Session.Live) : Service τ :=
  { service with worker := { service.worker with channel := live } }

/-- A caller posts a request. -/
def post (service : Service τ) (request : Request) : Service τ :=
  let live := service.worker.channel
  match live.session.post live.now request with
  | (.ok reply, session) =>
    { service.withLive ⟨live.now, session⟩ with
      posted := service.posted ++ [⟨reply.ticket, request.withHint reply.hint⟩] }
  | (.error _, session) => service.withLive ⟨live.now, session⟩

/-- Time passes, and the session sweeps as often as it falls due. -/
def pause (service : Service τ) (span : Span) : Service τ :=
  let live := service.worker.channel
  let now := live.now + span
  service.withLive ⟨now, live.session.catchUp .standard now⟩

/-- The worker makes up to so many turns, unless it has ended. -/
def run (handler : Handler τ) (service : Service τ) (turns : Nat) : Service τ :=
  match service.ended with
  | some _ => service
  | none =>
    let (ended, worker) := service.worker.run (Session.channel .standard) handler turns
    { service with worker, ended }

/-- The handler sends the response to a request that it deferred. -/
def reply (service : Service τ) (ticket : Nat) (response : Response) : Service τ :=
  match service.worker.sendResponse (Session.channel .standard) response with
  | (.ok _, worker) => { service with worker, sent := service.sent ++ [(ticket, response)] }
  | (.error _, worker) => { service with worker }

/-- What direct calls come to for the requests that the worker has taken up. -/
def calls (handler : Handler τ) (state : τ) (service : Service τ) : List Call :=
  (Handler.serve handler state (service.posted.take service.worker.desk.requests)).1

/-- Everything that can come of a service. A deferred request is answered once, with a response
built for it. -/
inductive Reached (handler : Handler τ) (state : τ) (start : Service τ) : Service τ → Prop where
  | start : Reached handler state start start
  | post {service : Service τ} (reached : Reached handler state start service) (request : Request)
      (formed : request.WellFormed) : Reached handler state start (service.post request)
  | pause {service : Service τ} (reached : Reached handler state start service) (span : Span) :
      Reached handler state start (service.pause span)
  | run {service : Service τ} (reached : Reached handler state start service) (turns : Nat) :
      Reached handler state start (service.run handler turns)
  | reply {service : Service τ} (reached : Reached handler state start service) {call : Call}
      (called : call ∈ service.calls handler state) (deferred : call.reaction = .deferred)
      (open' : service.sent.lookup call.ticket = none) {draft : Response.Draft}
      (made : draft.MadeFor call.posting.request) {response : Response}
      (built : draft.build = .ok response) :
      Reached handler state start (service.reply call.ticket response)

/-! ### Nothing is taken back -/

variable {handler : Handler τ} {state : τ} {service : Service τ}

theorem post_of_ok {request : Request} {reply : Reply} {broker : Broker}
    (accepted : service.broker.post service.worker.channel.now request = (.ok reply, broker)) :
    service.post request =
      { service.withLive { service.worker.channel with
          session := { service.worker.channel.session with broker } } with
        posted := service.posted ++ [⟨reply.ticket, request.withHint reply.hint⟩] } := by
  unfold Service.broker at accepted
  unfold Service.post Session.post
  dsimp only
  rw [accepted]

theorem post_of_error {request : Request} {failure : Failure} {broker : Broker}
    (refused : service.broker.post service.worker.channel.now request = (.error failure, broker)) :
    service.post request = service.withLive { service.worker.channel with
      session := { service.worker.channel.session with broker } } := by
  unfold Service.broker at refused
  unfold Service.post Session.post
  dsimp only
  rw [refused]

theorem broker_post (service : Service τ) (request : Request) :
    (service.post request).broker
      = (service.broker.post service.worker.channel.now request).2 := by
  cases posts : service.broker.post service.worker.channel.now request with
  | mk result broker =>
    cases result with
    | ok reply =>
      rw [post_of_ok posts]
      rfl
    | error failure =>
      rw [post_of_error posts]
      rfl

theorem posted_subset_post (service : Service τ) (request : Request) :
    service.posted ⊆ (service.post request).posted := by
  cases posts : service.broker.post service.worker.channel.now request with
  | mk result broker =>
    cases result with
    | ok reply =>
      rw [post_of_ok posts]
      exact List.subset_append_left _ _
    | error failure =>
      rw [post_of_error posts]
      exact List.Subset.refl _

section Kept

variable {holds : Broker → Prop} (invariant : Session.SweepInvariant .standard holds)
include invariant

theorem kept_pause (start : holds service.broker) (span : Span) :
    holds (service.pause span).broker :=
  invariant.catchUp start _

theorem kept_run (start : holds service.broker) (handler : Handler τ) (turns : Nat) :
    holds (service.run handler turns).broker := by
  unfold Service.run
  split
  · exact start
  · exact invariant.keeps.run start handler turns

theorem kept_reply (start : holds service.broker) (ticket : Nat) (response : Response) :
    holds (service.reply ticket response).broker := by
  have sent := invariant.keeps.sendResponse start response
  unfold Service.reply
  split <;> next done => rwa [done] at sent

end Kept

theorem posted_run (handler : Handler τ) (service : Service τ) (turns : Nat) :
    (service.run handler turns).posted = service.posted := by
  unfold Service.run
  split <;> rfl

theorem posted_reply (service : Service τ) (ticket : Nat) (response : Response) :
    (service.reply ticket response).posted = service.posted := by
  unfold Service.reply
  split <;> rfl

/-! ### Every step keeps the order -/

/-- The worker is at work, and has done nothing but what direct calls would have done. -/
def InOrder (handler : Handler τ) (state : τ) (service : Service τ) : Prop :=
  service.ended = none ∧ ∃ old new waiting,
    Sound handler state service.posted service.sent old new [] waiting service.worker

theorem inOrder_start (handler : Handler τ) (name : String) (config : Broker.Config)
    (thread : String) (now : Instant) (state : τ) :
    InOrder handler state (start name config thread now state) := by
  refine ⟨rfl, [], [], [], ?_⟩
  exact
    { progress := ⟨_, Progress.start config⟩
      posted := rfl
      served := rfl
      requests := rfl
      outbox := rfl
      bounds := Nat.zero_le _
      outboxRoom := config.mode.messageLimit_le_bufferSize config.revision
      inboxRoom := config.mode.messageLimit_le_bufferSize config.revision
      spoken := rfl }

theorem InOrder.post (order : InOrder handler state service) {request : Request}
    (formed : request.WellFormed) : InOrder handler state (service.post request) := by
  obtain ⟨running, old, new, waiting, sound⟩ := order
  obtain ⟨answer, progress⟩ := sound.progress
  have spoken : (service.post request).broker.config.revision = service.worker.revision := by
    rw [broker_post, Broker.config_post]
    exact sound.spoken
  cases posts : service.broker.post service.worker.channel.now request with
  | mk result broker =>
    cases result with
    | ok reply =>
      have accepted := progress.post_ok formed posts
      rw [post_of_ok posts] at spoken ⊢
      refine ⟨running, old, new, _,
        { sound with progress := ⟨answer, accepted⟩, posted := ?_, spoken := spoken }⟩
      change _ = service.posted ++ _
      rw [← sound.posted, List.append_assoc _ waiting]
    | error failure =>
      have refused := progress.post_error posts
      rw [post_of_error posts] at spoken ⊢
      exact ⟨running, old, new, waiting,
        { sound with progress := ⟨answer, refused⟩, spoken := spoken }⟩

/-- Sweeps that give nobody up leave everything as it is. -/
theorem InOrder.pause (order : InOrder handler state service) {span : Span}
    (spared : (service.pause span).broker.Spared service.posted) :
    InOrder handler state (service.pause span) := by
  obtain ⟨running, old, new, waiting, sound⟩ := order
  obtain ⟨answer, progress⟩ := sound.progress
  have idle : (service.pause span).broker = service.broker := by
    refine Session.catchUp_of_spared progress.flow.serving fun op held => ?_
    exact spared.expired op.posting (sound.posted ▸ progress.flow.held op held)
  refine ⟨running, old, new, waiting, { sound with progress := ⟨answer, ?_⟩, spoken := ?_ }⟩
  · change Progress (service.pause span).broker _ _ _ _ _ _
    rw [idle]
    exact progress
  · change (service.pause span).broker.config.revision = _
    rw [idle]
    exact sound.spoken

theorem InOrder.run (proper : Handler.Proper handler) (order : InOrder handler state service)
    {turns : Nat} (spared : (service.run handler turns).broker.Spared service.posted) :
    InOrder handler state (service.run handler turns) := by
  obtain ⟨running, old, new, waiting, sound⟩ := order
  unfold Service.run at spared ⊢
  rw [running] at spared ⊢
  obtain ⟨after, returned, unsent, left, ran, sound', -⟩ := sound.run proper spared
  dsimp only
  rw [ran]
  exact ⟨rfl, returned, unsent, left, sound'⟩

/-- What direct calls come to is what was called. -/
theorem calls_of_sound {sent : List (Nat × Response)} {old new : List Call}
    {waiting : List Posting}
    (sound : Sound handler state service.posted sent old new [] waiting service.worker) :
    service.posted.take service.worker.desk.requests = (old ++ new).map Call.posting ∧
      service.posted.drop service.worker.desk.requests = waiting ∧
      service.calls handler state = old ++ new := by
  have cut := sound.posted
  have length : service.worker.desk.requests = ((old ++ new).map Call.posting).length := by
    rw [sound.requests, List.length_map]
  rw [List.append_nil] at cut
  have taken : service.posted.take service.worker.desk.requests
      = (old ++ new).map Call.posting := by
    rw [← cut, length, List.take_left]
  refine ⟨taken, ?_, ?_⟩
  · rw [← cut, length, List.drop_left]
  · rw [calls, taken, sound.served]

theorem InOrder.reply (order : InOrder handler state service) {call : Call}
    (called : call ∈ service.calls handler state) (deferred : call.reaction = .deferred)
    (open' : service.sent.lookup call.ticket = none) {response : Response}
    (mine : response.Matches call.posting.request) :
    InOrder handler state (service.reply call.ticket response) := by
  obtain ⟨running, old, new, waiting, sound⟩ := order
  rw [(calls_of_sound sound).2.2] at called
  obtain ⟨after, sent, sound'⟩ := sound.sendResponse called deferred open' mine
  unfold Service.reply
  rw [sent]
  exact ⟨running, old, new, waiting, sound'⟩

/-- However a service got where it is, it is in order if nobody was given up on the way. -/
theorem inOrder_of_reached (proper : Handler.Proper handler) {name : String}
    {config : Broker.Config} {thread : String} {now : Instant}
    (reached : Reached handler state (start name config thread now state) service)
    (spared : service.broker.Spared service.posted) : InOrder handler state service := by
  have invariant := Session.sweepInvariant_continues .standard
  induction reached with
  | start => exact inOrder_start handler name config thread now state
  | @post earlier reached request formed ih =>
    rw [broker_post] at spared
    exact (ih (spared.before_post (posted_subset_post earlier request))).post formed
  | @pause earlier reached span ih =>
    exact (ih (spared.before (kept_pause (invariant _) (.refl _) span))).pause spared
  | @run earlier reached turns ih =>
    rw [posted_run] at spared
    exact (ih (spared.before (kept_run (invariant _) (.refl _) handler turns))).run proper spared
  | @reply earlier reached call called deferred open' draft made response built ih =>
    rw [posted_reply] at spared
    have spared' := spared.before (kept_reply (invariant _) (.refl _) call.ticket response)
    exact (ih spared').reply called deferred open' (made.build built)

/-! ### Best-effort requests -/

/-- A service of best-effort requests never expires any. -/
theorem lasting_of_reached {name : String} {config : Broker.Config} {thread : String}
    {now : Instant} (reached : Reached handler state (start name config thread now state) service)
    (lasting : ∀ posting ∈ service.posted, posting.request.kind.admission = .bestEffort) :
    service.broker.Lasting := by
  induction reached with
  | start => exact Broker.lasting_new config
  | @post earlier reached request formed ih =>
    have before := ih fun posting member =>
      lasting posting (posted_subset_post earlier request member)
    rw [broker_post]
    refine before.post _ request fun reply after accepted => ?_
    rw [post_of_ok accepted] at lasting
    exact lasting _ (List.mem_append_right _ (List.mem_singleton_self _))
  | @pause earlier reached span ih =>
    exact kept_pause Session.sweepInvariant_lasting (ih lasting) span
  | @run earlier reached turns ih =>
    rw [posted_run] at lasting
    exact kept_run Session.sweepInvariant_lasting (ih lasting) handler turns
  | @reply earlier reached call called deferred open' draft made response built ih =>
    rw [posted_reply] at lasting
    exact kept_reply Session.sweepInvariant_lasting (ih lasting) call.ticket response

theorem spared_of_lasting (lasting : service.broker.Lasting)
    (unused : service.broker.nextHint ≤ UInt64.size) : service.broker.Spared service.posted where
  expired _ _ found := lasting.outcomes _ (Queue.mem_outcomesOf.1 found) rfl
  cancelled := .inl unused

/-! ### Relaying is calling -/

/-- The worker has called the handler for a front of the postings, each once and in order, and no
caller has any outcome but that of its direct call. -/
structure Faithful (handler : Handler τ) (state : τ) (service : Service τ) : Prop where
  running : service.ended = none
  invoked : service.worker.desk.requests ≤ service.posted.length
  direct : service.worker.desk.state
    = (Handler.serve handler state (service.posted.take service.worker.desk.requests)).2
  called : ∀ call ∈ service.calls handler state,
    service.broker.queue.outcomesOf call.ticket = [] ∨
      service.broker.queue.outcomesOf call.ticket = (call.outcome? service.sent).toList
  waiting : ∀ posting ∈ service.posted.drop service.worker.desk.requests,
    service.broker.queue.outcomesOf posting.ticket = []

/-- The worker has called the handler for every posting, and every caller has the outcome of its
direct call, unless the handler still owes the response. -/
structure Settled (handler : Handler τ) (state : τ) (service : Service τ) : Prop where
  running : service.ended = none
  direct : service.worker.desk.state = (Handler.serve handler state service.posted).2
  requests : service.worker.desk.requests = service.posted.length
  outcomes : ∀ call ∈ (Handler.serve handler state service.posted).1,
    service.broker.queue.outcomesOf call.ticket = (call.outcome? service.sent).toList

theorem InOrder.faithful (order : InOrder handler state service) :
    Faithful handler state service := by
  obtain ⟨running, old, new, waiting, sound⟩ := order
  obtain ⟨answer, progress⟩ := sound.progress
  obtain ⟨taken, dropped, calls⟩ := calls_of_sound sound
  refine ⟨running, ?_, ?_, ?_, ?_⟩
  · rw [sound.requests, ← sound.posted]
    simp only [List.length_append, List.length_map]
    omega
  · rw [taken, sound.served]
  · rw [calls]
    exact fun call member => progress.outcomesOf_called member
  · rw [dropped]
    exact fun posting member => progress.outcomesOf_left member

theorem InOrder.settled (proper : Handler.Proper handler) (order : InOrder handler state service)
    {turns : Nat} (enough : service.posted.length < turns)
    (spared : (service.run handler turns).broker.Spared service.posted) :
    Settled handler state (service.run handler turns) := by
  obtain ⟨running, old, new, waiting, sound⟩ := order
  unfold Service.run at spared ⊢
  rw [running] at spared ⊢
  obtain ⟨after, returned, unsent, left, ran, sound', done⟩ := sound.run proper spared
  have short : waiting.length < turns := by
    have length := congrArg List.length sound.posted
    rw [List.length_append] at length
    omega
  obtain ⟨rfl, rfl⟩ := done (.inl short)
  obtain ⟨answer, progress⟩ := sound'.progress
  have whole := sound'.posted
  have served := sound'.served
  simp only [List.append_nil] at whole served
  rw [whole] at served
  dsimp only
  rw [ran]
  refine ⟨rfl, ?_, ?_, ?_⟩
  · exact (congrArg Prod.snd served).symm
  · have requests := sound'.requests
    rw [List.append_nil, ← List.length_map Call.posting, whole] at requests
    exact requests
  · intro call member
    change call ∈ (Handler.serve handler state service.posted).1 at member
    rw [served] at member
    exact progress.outcomesOf_returned member

/-- Relaying calls is calling the handler: at any time, in any order of posts, pauses, turns and
late responses, callers have at most what direct calls would have given them, and with enough turns
all of them have it. -/
theorem relaying_is_calling (proper : Handler.Proper handler) {name : String}
    {config : Broker.Config} {thread : String} {now : Instant}
    (reached : Reached handler state (start name config thread now state) service)
    (spared : service.broker.Spared service.posted) :
    service.Faithful handler state ∧
      ∀ turns, service.posted.length < turns →
        (service.run handler turns).broker.Spared service.posted →
        (service.run handler turns).Settled handler state := by
  have order := inOrder_of_reached proper reached spared
  exact ⟨order.faithful, fun turns enough kept => order.settled proper enough kept⟩

/-- Writes down every request it gets, and grants it. -/
def granting : Handler (List Request) := fun seen request draft =>
  (.complete .success 0 draft, seen ++ [request])

theorem proper_granting : Handler.Proper granting where
  finishes _ _ same := by cases same
  made state request status information draft same := by
    cases same
    exact .start

def closing : Request := ⟨.v1, ⟨0⟩, .close ⟨7, 0⟩, []⟩

def twoClosing : Service (List Request) :=
  ((start "volume" .standard "worker" 0 []).post closing).post closing

theorem settled_twoClosing :
    (twoClosing.run granting 3).Settled granting [] ∧
      (twoClosing.run granting 3).broker.queue.outcomesOf 2
        = [.ok (.ofStatus .v1 ⟨2⟩ .close .success)] := by
  have posted : twoClosing.posted
      = [⟨1, closing.withHint ⟨1⟩⟩, ⟨2, closing.withHint ⟨2⟩⟩] := rfl
  have formed : closing.WellFormed := ⟨by decide, rfl⟩
  have reached : Reached granting [] (start "volume" .standard "worker" 0 []) twoClosing :=
    .post (.post .start closing formed) closing formed
  have lasting : twoClosing.broker.Lasting := by
    refine lasting_of_reached reached ?_
    rw [posted]
    decide
  have unused : twoClosing.broker.nextHint ≤ UInt64.size := by decide
  have continues := kept_run (Session.sweepInvariant_continues .standard twoClosing.broker)
    (.refl _) granting 3
  have lasting' := kept_run Session.sweepInvariant_lasting lasting granting 3
  have spared := spared_of_lasting lasting' (continues.nextHint ▸ unused)
  rw [posted_run] at spared
  have settled := (relaying_is_calling proper_granting reached
    (spared_of_lasting lasting unused)).2 3 (by rw [posted]; decide) spared
  refine ⟨settled, ?_⟩
  have called := settled.outcomes
  rw [posted_run, posted] at called
  exact called _ (List.mem_cons_of_mem _ (List.mem_cons_self ..))

end Service
end FileBroker
