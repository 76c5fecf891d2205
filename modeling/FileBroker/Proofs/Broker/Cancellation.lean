import FileBroker.Proofs.Broker.Backpressure
import FileBroker.Proofs.Broker.Outstanding
import FileBroker.Proofs.Broker.Stopped

/-!
Why operations are cancelled. An operation is never given up in passing: it is cancelled because its
caller withdrew it in time, because everything was given up, because its routine said so, or because
it was to be put off when that could not be done any more. Only when hints are used twice can an
operation also lose its place to a namesake.
-/
namespace FileBroker.Broker

variable {routine : Routine} {settings : Config} {start broker : Broker} {turn : Turn}
  {turns : List Turn} {ticket : Nat} {lost : Nat → Prop}

/-! ### Causes -/

/-- How an action can cancel an operation. -/
inductive Cancels (routine : Routine) (broker : Broker) (ticket : Nat) : Action → Prop where
  /-- It is the pending operation that a caller withdraws. -/
  | withdrawn {hint : Hint} {op : Operation}
      (found : broker.queue.pending.find? (fun op => op.hint == hint) = some op)
      (mine : op.ticket = ticket) : Cancels routine broker ticket (.cancel hint)
  /-- It is in some place when all there is is given up. -/
  | cleared {op : Operation} (held : op ∈ broker.queue.all) (mine : op.ticket = ticket) :
      Cancels routine broker ticket (.stop true)
  /-- The routine asks for a retry that would be granted if the queue had not been stopped. -/
  | late {action : Action} {turn : Turn} (member : turn ∈ broker.turnsBy routine action)
      (mine : turn.op.ticket = ticket) (asked : turn.verdict? routine = some .retry)
      (permitted : turn.op.retries < turn.broker.config.maxRetries)
      (stopped : turn.broker.queue.stopped = true) : Cancels routine broker ticket action
  /-- The routine says so. -/
  | said {action : Action} {turn : Turn} (member : turn ∈ broker.turnsBy routine action)
      (mine : turn.op.ticket = ticket)
      (verdict : turn.verdict? routine = some (.done (.error .cancelled))) :
      Cancels routine broker ticket action

/-- An exchange loses an operation that waits or is with a worker: afterwards it does neither,
although it had no turn. That can only be if another one was put in flight under its hint. -/
def Displaces (routine : Routine) (broker : Broker) (ticket : Nat) : Action → Prop
  | .exchange now responses buffer wait =>
    broker.Outstanding ticket ∧
    (∀ turn ∈ broker.turnsOfExchange routine now responses buffer wait,
      turn.op.ticket ≠ ticket) ∧
    ¬ (broker.exchange routine now responses buffer wait).2.Outstanding ticket
  | _ => False

/-! ### What an action tells -/

theorem Audited.nextHint_le (audited : Audited [] broker) (routine : Routine) (action : Action) :
    broker.nextHint ≤ (broker.act routine action).nextHint := by
  obtain ⟨accepted, silent, ledger⟩ := audited
  obtain ⟨-, -, grown, -⟩ := ledger.act routine action
  exact grown

theorem cancels_of_turn {action : Action} (member : turn ∈ broker.turnsBy routine action)
    (said : turn.word? routine = some (.error .cancelled)) :
    Cancels routine broker turn.op.ticket action := by
  rcases Turn.word?_cancelled_iff.1 said with verdict | ⟨asked, permitted, stopped⟩
  · exact .said member rfl verdict
  · exact .late member rfl asked permitted stopped

/-- Whether an action gives operations up that have no turn. -/
def Action.givesUp : Action → Bool
  | .cancel _ | .stop true => true
  | _ => false

/-- Where nothing is withdrawn or cleared, the causes are in the turns. -/
theorem Cancels.has_turn {action : Action} (cancels : Cancels routine broker ticket action)
    (kept : action.givesUp = false) :
    ∃ turn ∈ broker.turnsBy routine action, turn.op.ticket = ticket ∧
      turn.word? routine = some (.error .cancelled) := by
  cases cancels with
  | withdrawn => cases kept
  | cleared => cases kept
  | late member mine asked permitted stopped =>
    exact ⟨_, member, mine, Turn.word?_cancelled_iff.2 (.inr ⟨asked, permitted, stopped⟩)⟩
  | said member mine verdict =>
    exact ⟨_, member, mine, Turn.word?_cancelled_iff.2 (.inl verdict)⟩

/-- An action without turns that withdraws and clears nothing has no part in it. -/
theorem not_cancels {action : Action} (none' : broker.turnsBy routine action = [])
    (kept : action.givesUp = false) : ¬ Cancels routine broker ticket action := by
  intro cancels
  obtain ⟨turn, member, -⟩ := cancels.has_turn kept
  rw [none'] at member
  cases member

/-- A post tells nobody who was or will be admitted. -/
theorem outcomesOf_post {accepted : List Nat} {silent : Nat}
    (ledger : Ledger accepted [] silent broker) (now : Instant) (request : Request)
    (known : ticket ∈ accepted ++ broker.admittedBy (.post now request) ∨
      (broker.post now request).2.nextHint ≤ ticket) :
    (broker.post now request).2.queue.outcomesOf ticket = broker.queue.outcomesOf ticket := by
  rcases post_cases broker now request with ⟨-, _, same⟩ | ⟨-, _, refused⟩ | ⟨-, accepts⟩
  · rw [same]
  · rw [admittedBy, refused, List.append_nil] at known
    rw [refused]
    refine Queue.outcomesOf_deliver_of_ne _ _ fun mine => ?_
    have mine : broker.nextHint = ticket := mine
    rcases known with old | later
    · have created := ledger.created ticket old
      omega
    · dsimp only at later
      omega
  · rw [accepts]
    rfl

/-- A caller's withdrawal cancels the operation that it finds, and no other. -/
theorem cancelled_cancel (routine : Routine) (broker : Broker) (hint : Hint) (ticket : Nat) :
    .error .cancelled ∈ (broker.cancel hint).2.queue.outcomesOf ticket ↔
      .error .cancelled ∈ broker.queue.outcomesOf ticket ∨
        Cancels routine broker ticket (.cancel hint) := by
  have causes : Cancels routine broker ticket (.cancel hint) ↔
      ∃ op, broker.queue.pending.find? (fun op => op.hint == hint) = some op ∧
        op.ticket = ticket := by
    constructor
    · rintro (⟨found, mine⟩ | _ | ⟨member, -⟩ | ⟨member, -⟩)
      · exact ⟨_, found, mine⟩
      · cases member
      · cases member
    · rintro ⟨op, found, mine⟩
      exact .withdrawn found mine
  have queue : (broker.cancel hint).2.queue = (broker.queue.cancel hint).2 := rfl
  rw [causes, queue]
  unfold Queue.cancel
  cases found : broker.queue.pending.find? fun op => op.hint == hint with
  | none => simp
  | some op =>
    rw [Queue.mem_outcomesOf, Queue.mem_outcomesOf]
    simp only [Queue.deliver, List.mem_cons, Delivery.mk.injEq, and_true, Option.some.injEq,
      exists_eq_left']
    rw [or_comm, eq_comm]

theorem cancelled_removeExpired (broker : Broker) (now : Instant) (ticket : Nat) :
    .error .cancelled ∈ (broker.removeExpired now).2.queue.outcomesOf ticket ↔
      .error .cancelled ∈ broker.queue.outcomesOf ticket := by
  rw [queue_removeExpired, Queue.mem_outcomesOf, Queue.mem_outcomesOf, List.mem_append,
    or_iff_right]
  simp

theorem cancelled_stop (routine : Routine) (broker : Broker) (cancelAll : Bool) (ticket : Nat) :
    .error .cancelled ∈ (broker.stop cancelAll).2.queue.outcomesOf ticket ↔
      .error .cancelled ∈ broker.queue.outcomesOf ticket ∨
        Cancels routine broker ticket (.stop cancelAll) := by
  cases cancelAll with
  | false => exact (or_iff_left (not_cancels rfl rfl)).symm
  | true =>
    have causes : Cancels routine broker ticket (.stop true) ↔
        ∃ op ∈ broker.queue.all, op.ticket = ticket := by
      constructor
      · rintro (_ | ⟨held, mine⟩ | ⟨member, -⟩ | ⟨member, -⟩)
        · exact ⟨_, held, mine⟩
        · cases member
        · cases member
      · rintro ⟨op, held, mine⟩
        exact .cleared held mine
    rw [causes]
    exact Queue.mem_outcomesOf_clear { broker.queue with stopped := true } ticket

/-- What comes of turns, and possibly fetches. -/
theorem cancelled_turns (audited : Audited [] broker) (action : Action) (ticket : Nat)
    (kept : action.givesUp = false)
    (loses : ∀ ticket, lost ticket → broker.Outstanding ticket)
    (told : Audited [] (broker.act routine action) ∧
      Told routine lost broker (broker.act routine action) (broker.turnsBy routine action)) :
    .error .cancelled ∈ (broker.act routine action).queue.outcomesOf ticket ↔
      .error .cancelled ∈ broker.queue.outcomesOf ticket ∨
        Cancels routine broker ticket action ∨
        (lost ticket ∧ (∀ turn ∈ broker.turnsBy routine action, turn.op.ticket ≠ ticket) ∧
          ¬ (broker.act routine action).Outstanding ticket) := by
  rw [told.2.cancelled_iff loses audited told.1 (audited.nextHint_le routine action)]
  refine or_congr_right (or_congr_left ⟨?_, fun cancels => cancels.has_turn kept⟩)
  rintro ⟨turn, member, rfl, said⟩
  exact cancels_of_turn member said

/-- An operation that is admitted is cancelled by an action, or was before. -/
theorem cancelled_act {accepted : List Nat} {silent : Nat}
    (ledger : Ledger accepted [] silent broker) (action : Action)
    (known : ticket ∈ accepted ++ broker.admittedBy action ∨
      (broker.act routine action).nextHint ≤ ticket) :
    .error .cancelled ∈ (broker.act routine action).queue.outcomesOf ticket ↔
      .error .cancelled ∈ broker.queue.outcomesOf ticket ∨
        Cancels routine broker ticket action ∨ Displaces routine broker ticket action := by
  have audited : Audited [] broker := ⟨accepted, silent, ledger⟩
  have unmoved : ∀ action, broker.turnsBy routine action = [] → action.givesUp = false →
      ¬ Displaces routine broker ticket action →
      ¬ (Cancels routine broker ticket action ∨ Displaces routine broker ticket action) :=
    fun action none' kept stays => not_or.2 ⟨not_cancels none' kept, stays⟩
  cases action with
  | post now request =>
    rw [or_iff_left (unmoved (.post now request) rfl rfl id), act,
      outcomesOf_post ledger now request known]
  | cancel hint =>
    exact (cancelled_cancel routine broker hint ticket).trans
      (or_congr_right (or_iff_left id).symm)
  | exchange now responses buffer wait =>
    have told := (turnInvariant_told routine broker).exchange
      ⟨audited, told_refl routine broker.Outstanding broker⟩ now responses buffer wait
    exact cancelled_turns audited (.exchange now responses buffer wait) ticket rfl
      (fun _ => id) told
  | ingest now responses =>
    have told := (answerInvariant_told routine (fun _ => False) broker).ingest
      ⟨audited, told_refl routine _ broker⟩ now responses
    have iff := cancelled_turns audited (.ingest now responses) ticket rfl
      (fun _ => False.elim) told
    rwa [false_and] at iff
  | processRetries clock now =>
    have told := (answerInvariant_told routine (fun _ => False) broker).processRetries
      ⟨audited, told_refl routine _ broker⟩ clock now
    have iff := cancelled_turns audited (.processRetries clock now) ticket rfl
      (fun _ => False.elim) told
    rwa [false_and] at iff
  | removeExpired now =>
    rw [or_iff_left (unmoved (.removeExpired now) rfl rfl id)]
    exact cancelled_removeExpired broker now ticket
  | stop cancelAll =>
    exact (cancelled_stop routine broker cancelAll ticket).trans
      (or_congr_right (or_iff_left id).symm)

/-- As long as hints are not used twice, nobody loses its place to a namesake. -/
theorem not_displaces (audited : Audited [] broker) (unused : broker.nextHint ≤ UInt64.size)
    (action : Action) : ¬ Displaces routine broker ticket action := by
  cases action with
  | exchange now responses buffer wait =>
    rintro ⟨waited, none', gone⟩
    have begins : Kept broker broker [] := ⟨rfl, fun _ => .inl⟩
    obtain ⟨-, kept⟩ := (turnInvariant_kept routine unused).exchange
      ⟨audited, begins⟩ now responses buffer wait
    rcases kept.outstanding ticket waited with still | ⟨turn, member, mine⟩
    · exact gone still
    · exact none' turn member mine
  | _ => exact id

/-! ### Runs -/

/-- Whether something happens in the course of a run. -/
def Happens (routine : Routine) (event : Broker → Action → Prop) (start : Broker)
    (actions : List Action) : Prop :=
  ∃ before action rest, actions = before ++ action :: rest ∧
    event (start.run routine before) action

theorem happens_nil {event : Broker → Action → Prop} : ¬ Happens routine event broker [] := by
  rintro ⟨before, action, rest, whole, -⟩
  simp at whole

theorem happens_cons {event : Broker → Action → Prop} {action : Action} {rest : List Action} :
    Happens routine event broker (action :: rest) ↔
      event broker action ∨ Happens routine event (broker.act routine action) rest := by
  constructor
  · rintro ⟨before, other, later, whole, happens⟩
    cases before with
    | nil =>
      cases whole
      exact .inl happens
    | cons first before =>
      cases whole
      exact .inr ⟨before, other, later, rfl, happens⟩
  · rintro (happens | ⟨before, other, later, rfl, happens⟩)
    · exact ⟨[], action, rest, rfl, happens⟩
    · exact ⟨action :: before, other, later, rfl, happens⟩

/-- Whoever is admitted later gets a later ticket. -/
theorem Ledger.le_of_admitted {accepted : List Nat} {silent : Nat}
    (ledger : Ledger accepted [] silent broker) {actions : List Action}
    (member : ticket ∈ broker.admitted routine actions) : broker.nextHint ≤ ticket := by
  induction actions generalizing broker accepted silent with
  | nil => cases member
  | cons action rest ih =>
    obtain ⟨missed, kept, grown, -⟩ := ledger.act routine action
    rcases List.mem_append.1 member with first | later
    · cases action with
      | post now request =>
        dsimp only [admittedBy] at first
        cases accepts : (broker.post now request).1 with
        | error error =>
          rw [accepts] at first
          cases first
        | ok reply =>
          rw [accepts] at first
          obtain ⟨-, same, -⟩ := post_eq_ok (Prod.ext accepts rfl)
          rw [List.mem_singleton.1 first, same]
          exact Nat.le_refl _
      | _ => cases first
    · exact Nat.le_trans grown (ih kept later)

/-- An operation that is admitted is cancelled in the course of a run, or was before. -/
theorem cancelled_run {accepted : List Nat} {silent : Nat} {actions : List Action}
    (ledger : Ledger accepted [] silent broker)
    (member : ticket ∈ accepted ++ broker.admitted routine actions) :
    .error .cancelled ∈ (broker.run routine actions).queue.outcomesOf ticket ↔
      .error .cancelled ∈ broker.queue.outcomesOf ticket ∨
        Happens routine (fun broker action => Cancels routine broker ticket action ∨
          Displaces routine broker ticket action) broker actions := by
  induction actions generalizing broker accepted silent with
  | nil => exact (or_iff_left happens_nil).symm
  | cons action rest ih =>
    obtain ⟨missed, kept, -, -⟩ := ledger.act routine action
    rw [admitted, ← List.append_assoc] at member
    have known := (List.mem_append.1 member).imp_right kept.le_of_admitted
    rw [run_cons, ih kept member, cancelled_act ledger action known, happens_cons, or_assoc]

/-! ### Safe from cancellation -/

/-- Who was dispatched, and is not told anything yet, does not stand in line. -/
theorem Audited.not_pending (audited : Audited [] broker) {op : Operation}
    (held : op ∈ broker.queue.inFlight ∨ op ∈ broker.queue.parked) :
    ∀ other ∈ broker.queue.pending, other.ticket ≠ op.ticket := by
  have unique := audited.nodup_tickets
  rw [Queue.all, List.append_assoc, List.map_append, List.nodup_append] at unique
  exact fun other waits => unique.2.2 _ (List.mem_map_of_mem waits) _
    (List.mem_map_of_mem (List.mem_append.2 held))

/-- Whoever does not stand in line any more never gets back into it. -/
theorem not_pending_run (inLine : broker.InLine) (audited : Audited [] broker)
    {actions : List Action}
    (formed : ∀ now request, .post now request ∈ actions → request.WellFormed)
    (known : ticket < broker.nextHint) (left : ∀ op ∈ broker.queue.pending, op.ticket ≠ ticket) :
    ∀ op ∈ (broker.run routine actions).queue.pending, op.ticket ≠ ticket := by
  induction actions generalizing broker with
  | nil => exact left
  | cons action rest ih =>
    have line : (broker.act routine action).InLine := inLine.act routine fun now request same =>
      formed now request (same ▸ List.mem_cons_self ..)
    refine ih line ((invariant_audited routine).act audited action)
      (fun now request member => formed now request (List.mem_cons_of_mem _ member))
      (Nat.lt_of_lt_of_le known (audited.nextHint_le routine action)) fun op waits => ?_
    by_cases posts : action.isPost
    · cases action <;> cases posts
      rcases post_cases broker _ _ with ⟨-, _, same⟩ | ⟨-, _, same⟩ | ⟨-, same⟩ <;>
        rw [act, same] at waits
      · exact left op waits
      · exact left op waits
      · rcases List.mem_append.1 waits with before | new
        · exact left op before
        · rw [List.mem_singleton.1 new]
          exact (Nat.ne_of_lt known).symm
    · exact left op ((inLine.pending_act routine posts).subset waits)

/-- Turns that came after a stop are not forgotten: the broker is stopped still. -/
theorem runInvariant_stopped (routine : Routine) : RunInvariant routine fun broker turns =>
    ∀ turn ∈ turns, turn.broker.queue.stopped = true → broker.queue.stopped = true where
  stale broker clock frame queue turns start nobody turn member late :=
    (invariant_stopped routine).receive broker clock frame (start turn member late)
  turn broker turn turns start arises other member late := by
    rw [(turn.unmoved_after routine).stopped]
    rcases List.mem_append.1 member with before | last
    · exact arises.tookOut.stopped.trans (start other before late)
    · rwa [← List.mem_singleton.1 last]
  write broker turns start := start
  handBack broker hints turns start turn member late :=
    (invariant_stopped routine).handBack broker hints (start turn member late)
  fetch broker older run left turns start cut turn member late :=
    (invariant_stopped routine).fetch broker older run left (start turn member late) cut
  post broker now request turns start turn member late :=
    (invariant_stopped routine).post broker now request (start turn member late)
  cancel broker hint turns start turn member late :=
    (invariant_stopped routine).cancel broker hint (start turn member late)
  removeExpired broker now turns start turn member late :=
    (invariant_stopped routine).removeExpired broker now (start turn member late)
  stop broker cancelAll turns start turn member late :=
    (invariant_stopped routine).stop broker cancelAll (start turn member late)

theorem stopped_of_turn {action : Action} (member : turn ∈ broker.turnsBy routine action)
    (stopped : turn.broker.queue.stopped = true) :
    (broker.act routine action).queue.stopped = true := by
  have none' : ∀ turn ∈ ([] : List Turn), turn.broker.queue.stopped = true →
      broker.queue.stopped = true := fun turn member => absurd member List.not_mem_nil
  have still := (runInvariant_stopped routine).act none' action
  rw [List.nil_append] at still
  exact still turn member stopped

/-- An action of a broker that is not stopped by it cancels whom a caller withdraws, or whom the
routine wants to be cancelled. -/
theorem Cancels.running {action : Action} (cancels : Cancels routine broker ticket action)
    (running : (broker.act routine action).queue.stopped = false) :
    (∃ op ∈ broker.queue.pending, op.ticket = ticket) ∨
      ∃ turn ∈ broker.turnsBy routine action, turn.op.ticket = ticket ∧
        turn.verdict? routine = some (.done (.error .cancelled)) := by
  cases cancels with
  | withdrawn found mine => exact .inl ⟨_, List.mem_of_find?_eq_some found, mine⟩
  | cleared held mine =>
    rw [act, queue_stop_all] at running
    cases running
  | late member mine asked permitted stopped =>
    rw [stopped_of_turn member stopped] at running
    cases running
  | said member mine verdict => exact .inr ⟨_, member, mine, verdict⟩

/-- Over a run that leaves the broker running, nobody who was dispatched before is cancelled unless
the routine says so. -/
theorem Ledger.spared {accepted : List Nat} {silent : Nat}
    (ledger : Ledger accepted [] silent broker) (inLine : broker.InLine) {actions : List Action}
    (formed : ∀ now request, .post now request ∈ actions → request.WellFormed)
    (unused : (broker.run routine actions).nextHint ≤ UInt64.size)
    (running : (broker.run routine actions).queue.stopped = false) {op : Operation}
    (held : op ∈ broker.queue.inFlight ∨ op ∈ broker.queue.parked)
    (unsaid : ∀ turn ∈ broker.turns routine actions, turn.op.ticket = op.ticket →
      turn.verdict? routine ≠ some (.done (.error .cancelled))) :
    .error .cancelled ∉ (broker.run routine actions).queue.outcomesOf op.ticket := by
  have audited : Audited [] broker := ⟨accepted, silent, ledger⟩
  have somewhere : op ∈ broker.queue.all := by
    rw [Queue.all, List.append_assoc]
    exact List.mem_append_right _ (List.mem_append.2 held)
  have known : op.ticket ∈ accepted := (ledger.owned op (.inl somewhere)).1
  rw [cancelled_run ledger (List.mem_append_left _ known)]
  rintro (told | ⟨before, action, rest, rfl, cause⟩)
  · rw [audited.outcomesOf_held somewhere] at told
    cases told
  · -- The state in which the action comes is as good as the last one.
    obtain ⟨missed, kept, -, -⟩ := ledger.run routine before
    obtain ⟨later, whole, grown, -⟩ := kept.run routine (action :: rest)
    rw [run_append] at unused running
    have unstopped : ((broker.run routine before).act routine action).queue.stopped = false := by
      refine Bool.eq_false_iff.2 fun stopped => ?_
      have last := (invariant_stopped routine).run stopped rest
      rw [run_cons, last] at running
      cases running
    rcases cause with cancels | displaces
    · rcases cancels.running unstopped with ⟨other, waits, same⟩ | ⟨turn, member, same, verdict⟩
      · refine not_pending_run inLine audited (fun now request posted => ?_)
          (audited.ticket_lt (.inl somewhere)) (audited.not_pending held) other waits same
        exact formed now request (List.mem_append_left _ posted)
      · refine unsaid turn ?_ same verdict
        rw [turns, along_append]
        exact List.mem_append_right _ (List.mem_append_left _ member)
    · exact not_displaces ⟨_, _, kept⟩ (Nat.le_trans grown unused) action displaces

/-- Who is admitted has one outcome at most, and keeps to it when everything is given up. -/
theorem Ledger.outcomesOf_clear {accepted : List Nat} {silent : Nat}
    (ledger : Ledger accepted [] silent broker) (member : ticket ∈ accepted) :
    broker.queue.clear.outcomesOf ticket = [.error .cancelled] ↔
      broker.queue.outcomesOf ticket = [.error .cancelled] ∨
        ∃ op ∈ broker.queue.all, op.ticket = ticket := by
  have once := Nat.le_of_eq (ledger.tally_eq_one member)
  rw [Queue.outcomesOf_eq_singleton_iff once, ← Queue.mem_outcomesOf_clear]
  exact Queue.outcomesOf_eq_singleton_iff (Queue.tally_clear broker.queue ticket ▸ once)

theorem cancel_found (broker : Broker) (hint : Hint) :
    ((broker.cancel hint).1 = true ↔ ∃ op ∈ broker.queue.pending, op.hint = hint) ∧
      ((broker.cancel hint).1 = false → (broker.cancel hint).2 = broker) := by
  have found : (broker.cancel hint).1 = (broker.queue.cancel hint).1 := rfl
  rw [found]
  unfold cancel
  rcases Queue.cancel_cases broker.queue hint with
    ⟨same, nobody⟩ | ⟨op, before, after, whole, mine, -, same⟩
  · rw [same]
    exact ⟨⟨nofun, fun ⟨op, waits, mine⟩ => absurd mine (nobody op waits)⟩, fun _ => rfl⟩
  · rw [same]
    refine ⟨iff_of_true rfl ⟨op, ?_, mine⟩, nofun⟩
    rw [whole]
    exact List.mem_append_right _ (List.mem_cons_self ..)

/-- As long as hints are not used twice, a caller withdraws the operation that it asks for. -/
theorem Ledger.withdrawn {accepted : List Nat} {silent : Nat}
    (ledger : Ledger accepted [] silent broker) (unused : broker.nextHint ≤ UInt64.size)
    {op : Operation} (waits : op ∈ broker.queue.pending) :
    Cancels routine broker op.ticket (.cancel op.hint) := by
  have hints := ledger.nodup_hints unused
  rw [Queue.all, List.append_assoc, List.map_append, List.nodup_append] at hints
  cases found : broker.queue.pending.find? fun other => other.hint == op.hint with
  | none =>
    have absent := List.find?_eq_none.1 found op waits
    simp at absent
  | some other =>
    have same : other.hint = op.hint := by simpa using List.find?_some found
    obtain rfl := List.inj_on_of_nodup_map hints.1 (List.mem_of_find?_eq_some found) waits same
    exact .withdrawn found rfl

theorem happens_or {event other : Broker → Action → Prop} {actions : List Action} :
    Happens routine (fun broker action => event broker action ∨ other broker action) broker actions
      ↔ Happens routine event broker actions ∨ Happens routine other broker actions := by
  constructor
  · rintro ⟨before, action, rest, whole, happens | happens⟩
    · exact .inl ⟨before, action, rest, whole, happens⟩
    · exact .inr ⟨before, action, rest, whole, happens⟩
  · rintro (⟨before, action, rest, whole, happens⟩ | ⟨before, action, rest, whole, happens⟩)
    · exact ⟨before, action, rest, whole, .inl happens⟩
    · exact ⟨before, action, rest, whole, .inr happens⟩

/-- Operations are cancelled for a reason. Over any run, whoever was admitted is told that it was
cancelled exactly if it was the pending operation that a caller withdrew; or was in some place when
all was given up; or its routine asked for a retry, which it was still allowed, after the stop; or
the routine said so; or it lost its place in flight to a namesake, which cannot be as long as hints
are not used twice. When the broker goes away, those that are in some place are cancelled as well,
and nobody else. A caller's withdrawal is granted exactly if there is a pending operation under the
hint, and changes nothing otherwise. While the broker runs, nobody who was dispatched is cancelled,
whatever a worker sends, unless the routine says so. -/
theorem cancelled_iff_caused (routine : Routine) (settings : Config) (actions : List Action)
    (made : ∀ now request, .post now request ∈ actions → request.Made) :
    let start := new settings
    let broker := start.run routine actions
    (∀ ticket ∈ start.admitted routine actions,
      (broker.queue.outcomesOf ticket = [.error .cancelled] ↔
        Happens routine (fun broker => Cancels routine broker ticket) start actions ∨
        Happens routine (fun broker => Displaces routine broker ticket) start actions) ∧
      (broker.queue.clear.outcomesOf ticket = [.error .cancelled] ↔
        broker.queue.outcomesOf ticket = [.error .cancelled] ∨
          ∃ op ∈ broker.queue.all, op.ticket = ticket)) ∧
    (∀ hint,
      ((broker.cancel hint).1 = true ↔ ∃ op ∈ broker.queue.pending, op.hint = hint) ∧
      ((broker.cancel hint).1 = false → (broker.cancel hint).2 = broker)) ∧
    (broker.nextHint ≤ UInt64.size →
      (∀ ticket, ¬ Happens routine (fun broker => Displaces routine broker ticket) start actions) ∧
      (∀ op ∈ broker.queue.pending, Cancels routine broker op.ticket (.cancel op.hint)) ∧
      (broker.queue.stopped = false → ∀ before rest, actions = before ++ rest → ∀ op,
        op ∈ (start.run routine before).queue.inFlight ∨
          op ∈ (start.run routine before).queue.parked →
        (∀ turn ∈ start.turns routine actions, turn.op.ticket = op.ticket →
          turn.verdict? routine ≠ some (.done (.error .cancelled))) →
        .error .cancelled ∉ broker.queue.outcomesOf op.ticket)) := by
  intro start broker
  have began := ledger_new settings
  obtain ⟨silent, ledger, -, -⟩ := began.run routine actions
  refine ⟨fun ticket member => ⟨?_, ledger.outcomesOf_clear member⟩, cancel_found broker,
    fun unused => ⟨fun ticket => ?_, fun op waits => ledger.withdrawn unused waits, ?_⟩⟩
  · have once := Nat.le_of_eq (ledger.tally_eq_one member)
    have nothing : .error .cancelled ∉ start.queue.outcomesOf ticket := List.not_mem_nil
    rw [Queue.outcomesOf_eq_singleton_iff once, cancelled_run began member, or_iff_right nothing,
      happens_or]
  · rintro ⟨before, action, rest, rfl, displaces⟩
    obtain ⟨missed, kept, -, -⟩ := began.run routine before
    obtain ⟨later, -, grown, -⟩ := kept.run routine (action :: rest)
    rw [← run_append] at grown
    exact not_displaces ⟨_, _, kept⟩ (Nat.le_trans grown unused) action displaces
  · rintro running before rest rfl op held unsaid
    obtain ⟨missed, kept, -, -⟩ := began.run routine before
    have formed : ∀ now request, .post now request ∈ before ++ rest → request.WellFormed :=
      fun now request member => (made now request member).wellFormed
    have line : (start.run routine before).InLine := (inLine_new settings).run routine
      fun now request member => formed now request (List.mem_append_left _ member)
    have split : broker = (start.run routine before).run routine rest := run_append ..
    rw [split] at unused running ⊢
    refine kept.spared line (fun now request member => formed now request ?_) unused running held
      fun turn member => unsaid turn ?_
    · exact List.mem_append_right _ member
    · rw [turns, along_append]
      exact List.mem_append_right _ member

/-- Of the two requests the first is withdrawn before a worker asks for any. -/
theorem cancelled_iff_oneCancelled :
    (∀ now request, .post now request ∈ oneCancelled → request.Made) ∧
      ((new .standard).run .standard oneCancelled).queue.outcomesOf 1 = [.error .cancelled] := by
  have made : ∀ now request, .post now request ∈ oneCancelled → request.Made := by
    intro now request member
    obtain ⟨-, rfl⟩ : now = 0 ∧ request = reading := by simpa [oneCancelled] using member
    exact reading_made
  have admits : 1 ∈ (new .standard).admitted .standard oneCancelled :=
    List.mem_append_left _ (List.mem_singleton_self 1)
  have cancels : Cancels .standard ((new .standard).run .standard (oneCancelled.take 2)) 1
      (.cancel ⟨1⟩) := .withdrawn rfl rfl
  obtain ⟨caused, -, -⟩ := cancelled_iff_caused .standard .standard oneCancelled made
  exact ⟨made, (caused 1 admits).1.2
    (.inl ⟨oneCancelled.take 2, .cancel ⟨1⟩, oneCancelled.drop 3, rfl, cancels⟩)⟩

end FileBroker.Broker
