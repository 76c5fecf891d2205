import FileBroker.Proofs.Broker.Packing
import Mathlib.Data.List.Range

/-!
Whole runs of a broker, seen from the hints: which are assigned, which are handed to a worker and
which are withdrawn before that. Hints go up with the tickets, tickets stand in line in the order
they were given out in, and who has left the line never gets back. So everything is handed out at
most once, and in the order of posting.
-/
namespace FileBroker

/-- The hint that goes with a ticket. -/
def Hint.ofTicket (ticket : Nat) : Hint := ⟨UInt64.ofNat ticket⟩

theorem Hint.toNat_ofTicket {ticket : Nat} (unused : ticket < UInt64.size) :
    (ofTicket ticket).value.toNat = ticket :=
  UInt64.toNat_ofNat_of_lt' unused

namespace Broker

/-- What the operations of a run bring, one after the other. -/
def along {α : Type} (routine : Routine) (brings : Broker → Action → List α) (broker : Broker) :
    List Action → List α
  | [] => []
  | action :: rest =>
    brings broker action ++ along routine brings (broker.act routine action) rest

theorem along_append {α : Type} (routine : Routine) (brings : Broker → Action → List α)
    (broker : Broker) (first second : List Action) :
    along routine brings broker (first ++ second)
      = along routine brings broker first
        ++ along routine brings (broker.run routine first) second := by
  induction first generalizing broker with
  | nil => rfl
  | cons action rest ih => simp only [List.cons_append, along, ih, run_cons, List.append_assoc]

theorem along_singleton {α : Type} (routine : Routine) (brings : Broker → Action → List α)
    (broker : Broker) (action : Action) :
    along routine brings broker [action] = brings broker action :=
  List.append_nil _

def Action.isPost : Action → Bool
  | .post _ _ => true
  | _ => false

/-- The hints that are assigned: one for every post in the revision of the broker, whether it is
admitted or not. -/
def assignedBy (broker : Broker) : Action → List Hint
  | .post now request =>
    if request.revision = broker.config.revision then [(broker.posted now request).hint] else []
  | _ => []

/-- The requests that a worker reads. -/
def handedBy (routine : Routine) (broker : Broker) : Action → List Frame
  | .exchange now responses buffer wait =>
    requestsRead (broker.exchange routine now responses buffer wait).1
  | _ => []

/-- The hints of requests that are refused, and of those that are cancelled or expire while they are
pending. -/
def withdrawnBy (broker : Broker) : Action → List Hint
  | .post now request =>
    match (broker.post now request).1 with
    | .ok _ => []
    | .error _ => broker.assignedBy (.post now request)
  | .cancel hint => if (broker.cancel hint).1 then [hint] else []
  | .removeExpired now => (broker.queue.pending.filter (·.isExpired now)).map Operation.hint
  | .stop cancelAll => if cancelAll then broker.queue.pending.map Operation.hint else []
  | _ => []

/-! ### Tickets -/

/-- The tickets of those in line. -/
def tickets (broker : Broker) : List Nat := broker.queue.pending.map Operation.ticket

section Line

variable {broker : Broker}

theorem InLine.hint_eq (inLine : broker.InLine) {op : Operation}
    (member : op ∈ broker.queue.pending) : op.hint = Hint.ofTicket op.ticket :=
  (inLine.admitted op member).hint

theorem InLine.hints_eq (inLine : broker.InLine) {ops : List Operation}
    (some' : ops ⊆ broker.queue.pending) :
    ops.map Operation.hint = (ops.map Operation.ticket).map Hint.ofTicket := by
  rw [List.map_map]
  exact List.map_congr_left fun op member => inLine.hint_eq (some' member)

theorem InLine.ticket_lt (inLine : broker.InLine) {ticket : Nat}
    (member : ticket ∈ broker.tickets) : ticket < broker.nextHint := by
  obtain ⟨op, waits, rfl⟩ := List.mem_map.1 member
  exact (inLine.admitted op waits).past

/-- The tickets in line go up, and those given out next go on from there. -/
theorem InLine.increasing (inLine : broker.InLine) (count : Nat) :
    (broker.tickets ++ List.range' broker.nextHint count).Pairwise (· < ·) := by
  refine List.pairwise_append.2
    ⟨inLine.numbered.map _ fun _ _ => id, List.pairwise_lt_range', ?_⟩
  intro ticket waits new given
  exact Nat.lt_of_lt_of_le (inLine.ticket_lt waits) (List.mem_range'_1.1 given).1

theorem InLine.nodup_tickets (inLine : broker.InLine) : broker.tickets.Nodup :=
  (List.pairwise_append.1 (inLine.increasing 0)).1.imp Nat.ne_of_lt

end Line

/-- What became of the tickets between two states: `given` were given out, `sent` left the line in
its order, and `gone` left it otherwise or never joined it. -/
structure Passage (before after : Broker) (given sent gone : List Nat) : Prop where
  given_eq : given = List.range' before.nextHint given.length
  nextHint : after.nextHint = before.nextHint + given.length
  line : (sent ++ after.tickets).Sublist (before.tickets ++ given)
  apart : ∀ ticket ∈ gone, ticket ∈ before.tickets ++ given ∧ ticket ∉ sent ++ after.tickets

namespace Passage

variable {before middle after : Broker} {given sent gone given' sent' gone' : List Nat}

theorem refl (broker : Broker) : Passage broker broker [] [] [] :=
  ⟨rfl, rfl, by simp, fun _ member => absurd member List.not_mem_nil⟩

/-- Whoever went in the first passage is not met again in the second. -/
theorem trans (first : Passage before middle given sent gone)
    (second : Passage middle after given' sent' gone') (inLine : before.InLine) :
    Passage before after (given ++ given') (sent ++ sent') (gone ++ gone') := by
  have numbers : given ++ given' = List.range' before.nextHint (given ++ given').length := by
    rw [List.length_append, ← List.range'_append_1, ← first.given_eq, ← first.nextHint,
      ← second.given_eq]
  -- All tickets that ever come up are distinct; one that was met twice would break that.
  have unique : (before.tickets ++ given ++ given').Nodup := by
    rw [List.append_assoc, numbers]
    exact (inLine.increasing _).imp Nat.ne_of_lt
  have further :
      (sent ++ (middle.tickets ++ given')).Sublist (before.tickets ++ given ++ given') := by
    rw [← List.append_assoc]
    exact first.line.append_right given'
  refine ⟨numbers, ?_, ?_, fun ticket member => ?_⟩
  · rw [second.nextHint, first.nextHint, List.length_append, Nat.add_assoc]
  · rw [List.append_assoc, ← List.append_assoc before.tickets]
    exact (second.line.append_left sent).trans further
  · rw [← List.append_assoc before.tickets, List.append_assoc sent]
    rcases List.mem_append.1 member with early | late
    · obtain ⟨known, absent⟩ := first.apart ticket early
      refine ⟨List.mem_append_left _ known, fun met => ?_⟩
      rcases List.mem_append.1 met with before' | after'
      · exact absent (List.mem_append_left _ before')
      · rcases List.mem_append.1 (second.line.subset after') with waits | new
        · exact absent (List.mem_append_right _ waits)
        · exact (List.nodup_append.1 unique).2.2 ticket known ticket new rfl
    · obtain ⟨known, absent⟩ := second.apart ticket late
      refine ⟨further.subset (List.mem_append_right _ known), fun met => ?_⟩
      rcases List.mem_append.1 met with before' | after'
      · have apart := List.nodup_append.1 (unique.sublist further)
        exact apart.2.2 ticket before' ticket known rfl
      · exact absent after'

/-- Those who leave the line otherwise than by its front. -/
theorem removal (inLine : before.InLine) (removed : List Operation)
    (parts : (removed ++ after.queue.pending).Perm before.queue.pending)
    (kept : after.queue.pending.Sublist before.queue.pending)
    (nextHint : after.nextHint = before.nextHint) :
    Passage before after [] [] (removed.map Operation.ticket) where
  given_eq := rfl
  nextHint := nextHint
  line := by
    rw [List.append_nil]
    exact kept.map Operation.ticket
  apart := by
    have unique : ((removed ++ after.queue.pending).map Operation.ticket).Nodup :=
      (parts.map Operation.ticket).nodup_iff.2 inLine.nodup_tickets
    rw [List.map_append, List.nodup_append] at unique
    intro ticket member
    refine ⟨?_, fun waits => unique.2.2 ticket member ticket waits rfl⟩
    obtain ⟨op, left, rfl⟩ := List.mem_map.1 member
    rw [List.append_nil]
    exact List.mem_map_of_mem (parts.subset (List.mem_append_left _ left))

theorem served {batch : List Operation} (served : Served before batch after) :
    Passage before after [] (batch.map Operation.ticket) [] where
  given_eq := rfl
  nextHint := served.nextHint
  line := by
    rw [List.append_nil, tickets, tickets, served.pending, List.map_append]
  apart _ member := absurd member List.not_mem_nil

end Passage

/-- The hints that the operations of a run bring belong to the tickets of a passage. -/
structure Chronicle (routine : Routine) (broker : Broker) (actions : List Action)
    (given sent gone : List Nat) : Prop
    extends Passage broker (broker.run routine actions) given sent gone where
  assigned : along routine assignedBy broker actions = given.map Hint.ofTicket
  handed : (along routine (handedBy routine) broker actions).map Frame.hint
    = sent.map Hint.ofTicket
  withdrawn : along routine withdrawnBy broker actions = gone.map Hint.ofTicket
  few : given.length ≤ actions.countP Action.isPost

theorem chronicle_nil (routine : Routine) (broker : Broker) :
    Chronicle routine broker [] [] [] [] :=
  { Passage.refl broker with
    assigned := rfl, handed := rfl, withdrawn := rfl, few := Nat.le_refl 0 }

theorem Chronicle.append {routine : Routine} {broker : Broker} {first second : List Action}
    {given sent gone given' sent' gone' : List Nat}
    (early : Chronicle routine broker first given sent gone)
    (late : Chronicle routine (broker.run routine first) second given' sent' gone')
    (inLine : broker.InLine) :
    Chronicle routine broker (first ++ second) (given ++ given') (sent ++ sent')
      (gone ++ gone') where
  toPassage := by
    rw [run_append]
    exact early.toPassage.trans late.toPassage inLine
  assigned := by rw [along_append, early.assigned, late.assigned, List.map_append]
  handed := by rw [along_append, List.map_append, early.handed, late.handed, List.map_append]
  withdrawn := by rw [along_append, early.withdrawn, late.withdrawn, List.map_append]
  few := by
    rw [List.length_append, List.countP_append]
    exact Nat.add_le_add early.few late.few

section Steps

variable {broker : Broker} (routine : Routine)

/-- A post that is refused still uses a ticket up. -/
theorem chronicle_post (inLine : broker.InLine) (now : Instant) (request : Request) :
    ∃ given gone, Chronicle routine broker [.post now request] given [] gone := by
  have labels (given gone : List Nat)
      (passage : Passage broker (broker.post now request).2 given [] gone)
      (assigned : broker.assignedBy (.post now request) = given.map Hint.ofTicket)
      (withdrawn : broker.withdrawnBy (.post now request) = gone.map Hint.ofTicket)
      (few : given.length ≤ 1) : Chronicle routine broker [.post now request] given [] gone :=
    { passage with
      assigned := (along_singleton ..).trans assigned
      handed := rfl
      withdrawn := (along_singleton ..).trans withdrawn
      few := few }
  rcases post_cases broker now request with
    ⟨foreign, failure, same⟩ | ⟨⟨spoken, -⟩, failure, refused⟩ | ⟨spoken, accepted⟩
  · have nothing : broker.assignedBy (.post now request) = [] := if_neg foreign
    refine ⟨[], [], labels [] [] (by rw [same]; exact .refl broker) nothing ?_ (Nat.zero_le _)⟩
    simp only [withdrawnBy, same]
    exact nothing
  · have assigned : broker.assignedBy (.post now request) = [Hint.ofTicket broker.nextHint] :=
      if_pos spoken
    refine ⟨[broker.nextHint], [broker.nextHint], labels _ _ ?_ assigned ?_ (Nat.le_refl 1)⟩
    · rw [refused]
      refine ⟨rfl, rfl, List.sublist_append_left _ _, fun ticket member => ?_⟩
      refine ⟨List.mem_append_right _ member, fun waits => ?_⟩
      obtain rfl := List.mem_singleton.1 member
      exact absurd (inLine.ticket_lt waits) (Nat.lt_irrefl _)
    · simp only [withdrawnBy, refused]
      exact assigned
  · refine ⟨[broker.nextHint], [], labels _ _ ?_ (if_pos spoken) ?_ (Nat.le_refl 1)⟩
    · rw [accepted]
      refine ⟨rfl, rfl, ?_, fun ticket member => absurd member List.not_mem_nil⟩
      rw [tickets, tickets, List.map_append]
      exact List.Sublist.refl _
    · simp only [withdrawnBy, accepted]
      rfl

/-- All other operations give no tickets out. -/
theorem chronicle_quiet {action : Action} {sent gone : List Nat}
    (passage : Passage broker (broker.act routine action) [] sent gone)
    (assigned : broker.assignedBy action = [])
    (handed : (broker.handedBy routine action).map Frame.hint = sent.map Hint.ofTicket)
    (withdrawn : broker.withdrawnBy action = gone.map Hint.ofTicket) :
    Chronicle routine broker [action] [] sent gone :=
  { passage with
    assigned := (along_singleton ..).trans assigned
    handed := by rw [along_singleton, handed]
    withdrawn := (along_singleton ..).trans withdrawn
    few := Nat.zero_le _ }

theorem chronicle_cancel (inLine : broker.InLine) (hint : Hint) :
    ∃ gone, Chronicle routine broker [.cancel hint] [] [] gone := by
  rcases Queue.cancel_cases broker.queue hint with
    ⟨absent, -⟩ | ⟨op, before, rest, whole, under, -, found⟩
  · have left : (broker.cancel hint).2.queue.pending = broker.queue.pending := by
      simp only [Broker.cancel, absent]
    refine ⟨[], chronicle_quiet routine (.removal inLine [] ?_ ?_ rfl) rfl rfl ?_⟩
    · rw [act, left, List.nil_append]
    · rw [act, left]
    · simp only [withdrawnBy, Broker.cancel, absent]
      rfl
  · have left : (broker.cancel hint).2.queue.pending = before ++ rest := by
      simp only [Broker.cancel, found]
      rfl
    have member : op ∈ broker.queue.pending := by
      rw [whole]
      exact List.mem_append_right _ (List.mem_cons_self ..)
    refine ⟨[op.ticket], chronicle_quiet routine (.removal inLine [op] ?_ ?_ rfl) rfl
      rfl ?_⟩
    · rw [act, left, whole, List.singleton_append]
      exact List.perm_middle.symm
    · rw [act, left, whole]
      exact (List.Sublist.refl before).append (List.sublist_cons_self op rest)
    · simp only [withdrawnBy, Broker.cancel, found]
      rw [← under, inLine.hint_eq member]
      rfl

theorem chronicle_removeExpired (inLine : broker.InLine) (now : Instant) :
    ∃ gone, Chronicle routine broker [.removeExpired now] [] [] gone := by
  have left : (broker.removeExpired now).2.queue.pending
      = broker.queue.pending.filter fun op => !op.isExpired now := by
    rw [queue_removeExpired]
  refine ⟨_, chronicle_quiet routine (.removal inLine
    (broker.queue.pending.filter (·.isExpired now)) ?_ ?_ rfl) rfl rfl
    (inLine.hints_eq List.filter_sublist.subset)⟩
  · rw [act, left]
    exact List.filter_append_perm _ _
  · rw [act, left]
    exact List.filter_sublist

theorem chronicle_stop (inLine : broker.InLine) (cancelAll : Bool) :
    ∃ gone, Chronicle routine broker [.stop cancelAll] [] [] gone := by
  cases cancelAll with
  | false =>
    refine ⟨[], chronicle_quiet routine (.removal inLine [] ?_ ?_ rfl) rfl rfl rfl⟩
    · exact .refl _
    · exact .refl _
  | true =>
    have left : (broker.stop true).2.queue.pending = [] := by rw [queue_stop_all]
    refine ⟨_, chronicle_quiet routine (.removal inLine broker.queue.pending ?_ ?_
      rfl) rfl rfl (inLine.hints_eq (List.Subset.refl _))⟩
    · rw [act, left, List.append_nil]
    · rw [act, left]
      exact List.nil_sublist _

theorem chronicle_exchange (inLine : broker.InLine) (now : Instant) (responses : Bytes)
    (buffer : Buffer) (wait : Bool) :
    ∃ sent, Chronicle routine broker [.exchange now responses buffer wait] [] sent [] := by
  obtain ⟨batch, served, frames⟩ := exchange_serves inLine routine now responses buffer wait
  have waited : batch ⊆ broker.queue.pending := by
    rw [served.pending]
    exact List.subset_append_left _ _
  have hints : (batch.map fun op => Frame.mk .request op.request.message).map Frame.hint
      = batch.map Operation.hint := by
    rw [List.map_map]
    exact List.map_congr_left fun op _ => op.request.hint_frame
  refine ⟨_, chronicle_quiet routine (.served served) rfl ?_ rfl⟩
  rw [handedBy, frames, hints, inLine.hints_eq waited]

theorem chronicle_act (inLine : broker.InLine) (action : Action) :
    ∃ given sent gone, Chronicle routine broker [action] given sent gone := by
  cases action with
  | post now request =>
    obtain ⟨given, gone, chronicle⟩ := chronicle_post routine inLine now request
    exact ⟨given, [], gone, chronicle⟩
  | cancel hint =>
    obtain ⟨gone, chronicle⟩ := chronicle_cancel routine inLine hint
    exact ⟨[], [], gone, chronicle⟩
  | exchange now responses buffer wait =>
    obtain ⟨sent, chronicle⟩ := chronicle_exchange routine inLine now responses buffer wait
    exact ⟨[], sent, [], chronicle⟩
  | ingest now responses =>
    have line := sameLine_ingest broker routine now responses
    exact ⟨[], [], [], chronicle_quiet routine (.served line.served) rfl rfl rfl⟩
  | processRetries clock now =>
    have line := (unmoved_processRetries broker routine clock now).toSameLine
    exact ⟨[], [], [], chronicle_quiet routine (.served line.served) rfl rfl rfl⟩
  | removeExpired now =>
    obtain ⟨gone, chronicle⟩ := chronicle_removeExpired routine inLine now
    exact ⟨[], [], gone, chronicle⟩
  | stop cancelAll =>
    obtain ⟨gone, chronicle⟩ := chronicle_stop routine inLine cancelAll
    exact ⟨[], [], gone, chronicle⟩

end Steps

theorem chronicle_run {broker : Broker} (routine : Routine) (inLine : broker.InLine)
    {actions : List Action}
    (formed : ∀ now request, .post now request ∈ actions → request.WellFormed) :
    ∃ given sent gone, Chronicle routine broker actions given sent gone := by
  induction actions generalizing broker with
  | nil => exact ⟨[], [], [], chronicle_nil routine broker⟩
  | cons action rest ih =>
    obtain ⟨given, sent, gone, first⟩ := chronicle_act routine inLine action
    have line : (broker.act routine action).InLine := inLine.act routine fun now request same =>
      formed now request (same ▸ List.mem_cons_self ..)
    obtain ⟨given', sent', gone', later⟩ :=
      ih line fun now request member => formed now request (List.mem_cons_of_mem _ member)
    exact ⟨given ++ given', sent ++ sent', gone ++ gone', first.append later inLine⟩

/-! ### Hints -/

/-- As long as no hint is used twice, hints go up with the tickets. -/
theorem pairwise_ofTicket {tickets : List Nat} (increasing : tickets.Pairwise (· < ·))
    (unused : ∀ ticket ∈ tickets, ticket < UInt64.size) :
    (tickets.map Hint.ofTicket).Pairwise fun earlier later => earlier.value < later.value := by
  refine List.pairwise_map.2 (increasing.imp_of_mem fun first second less => ?_)
  rw [UInt64.lt_iff_toNat_lt, Hint.toNat_ofTicket (unused _ first),
    Hint.toNat_ofTicket (unused _ second)]
  exact less

theorem mem_ofTicket {tickets : List Nat} {ticket : Nat}
    (unused : ∀ other ∈ ticket :: tickets, other < UInt64.size)
    (member : Hint.ofTicket ticket ∈ tickets.map Hint.ofTicket) : ticket ∈ tickets := by
  obtain ⟨other, found, same⟩ := List.mem_map.1 member
  have words := congrArg (fun hint : Hint => hint.value.toNat) same
  rw [Hint.toNat_ofTicket (unused other (List.mem_cons_of_mem _ found)),
    Hint.toNat_ofTicket (unused ticket (List.mem_cons_self ..))] at words
  exact words ▸ found

/-! ### Requests -/

/-- What a worker reads in the course of a run decodes to requests that were posted before it. -/
theorem handedBy_posted (routine : Routine) (config : Config) {before : List Action}
    (formed : ∀ now request, .post now request ∈ before → request.WellFormed) (action : Action)
    {frame : Frame} (read : frame ∈ ((new config).run routine before).handedBy routine action) :
    ∃ request, Request.decode frame config.revision = .ok request ∧ request.hint = frame.hint ∧
      Posted routine (new config) before request := by
  have line := (inLine_new config).run routine formed
  have recorded := recorded_run routine config before
  cases action with
  | exchange now responses buffer wait =>
    obtain ⟨batch, served, frames⟩ := exchange_serves line routine now responses buffer wait
    rw [handedBy, frames] at read
    obtain ⟨op, taken, rfl⟩ := List.mem_map.1 read
    have waited : op ∈ ((new config).run routine before).queue.pending := by
      rw [served.pending]
      exact List.mem_append_left _ taken
    have whole : op.request.WellFormed := (line.admitted op waited).formed
    have decoded := Request.decode_message whole
    have spoken : op.request.revision = config.revision :=
      (line.admitted op waited).spoken.trans recorded.revision
    rw [spoken] at decoded
    exact ⟨op.request, decoded, op.request.hint_frame.symm, recorded.pending op waited⟩
  | _ => exact absurd read List.not_mem_nil

/-- Over any run with fewer posts than there are hints, hints are assigned in rising order, and the
requests that workers read carry hints in rising order, so that none is handed out twice. Each of
them decodes to a request that was posted before, under the hint it was given; and none of them was
refused, or cancelled or expired while it was pending. -/
theorem handed_out_once (routine : Routine) (config : Config) (actions : List Action)
    (made : ∀ now request, .post now request ∈ actions → request.Made)
    (few : actions.countP Action.isPost < UInt64.size) :
    let start := new config
    let handed := along routine (handedBy routine) start actions
    (along routine assignedBy start actions).Pairwise
      (fun earlier later => earlier.value < later.value) ∧
    (handed.map Frame.hint).Pairwise (fun earlier later => earlier.value < later.value) ∧
    (∀ before action rest, actions = before ++ action :: rest →
      ∀ frame ∈ (start.run routine before).handedBy routine action, ∃ request,
        Request.decode frame config.revision = .ok request ∧ request.hint = frame.hint ∧
        Posted routine start before request) ∧
    ∀ hint ∈ along routine withdrawnBy start actions, hint ∉ handed.map Frame.hint := by
  intro start handed
  have formed : ∀ now request, .post now request ∈ actions → request.WellFormed :=
    fun now request member => (made now request member).wellFormed
  obtain ⟨given, sent, gone, chronicle⟩ := chronicle_run routine (inLine_new config) formed
  have increasing : given.Pairwise (· < ·) := by
    rw [chronicle.given_eq]
    exact List.pairwise_lt_range'
  have unused : ∀ ticket ∈ given, ticket < UInt64.size := by
    intro ticket member
    have number := chronicle.few
    rw [chronicle.given_eq] at member
    have below : ticket < 1 + given.length := (List.mem_range'_1.1 member).2
    omega
  have taken : sent.Sublist given := (List.sublist_append_left sent _).trans chronicle.line
  refine ⟨?_, ?_, fun before action rest same => ?_, fun hint withdrawn read => ?_⟩
  · rw [chronicle.assigned]
    exact pairwise_ofTicket increasing unused
  · rw [chronicle.handed]
    exact pairwise_ofTicket (increasing.sublist taken) fun ticket member =>
      unused ticket (taken.subset member)
  · intro frame
    refine handedBy_posted routine config (fun now request member => ?_) action
    exact formed now request (same ▸ List.mem_append_left _ member)
  · rw [chronicle.withdrawn] at withdrawn
    obtain ⟨ticket, member, rfl⟩ := List.mem_map.1 withdrawn
    obtain ⟨known, absent⟩ := chronicle.apart ticket member
    rw [chronicle.handed] at read
    refine absent (List.mem_append_left _ (mem_ofTicket (fun other among => ?_) read))
    rcases List.mem_cons.1 among with rfl | left
    · exact unused _ known
    · exact unused other (taken.subset left)

/-- Of two requests the first is cancelled before a worker asks for any. -/
def oneCancelled : List Action :=
  [.post 0 reading, .post 0 reading, .cancel ⟨1⟩, .exchange 0 [] (.filled 16320 0) false]

theorem handed_out_oneCancelled :
    (∀ now request, .post now request ∈ oneCancelled → request.Made) ∧
      oneCancelled.countP Action.isPost < UInt64.size ∧
      ⟨1⟩ ∉ (along .standard (handedBy .standard) (new .standard) oneCancelled).map Frame.hint := by
  have made : ∀ now request, .post now request ∈ oneCancelled → request.Made := by
    intro now request member
    obtain ⟨-, rfl⟩ : now = 0 ∧ request = reading := by simpa [oneCancelled] using member
    exact reading_made
  have few : oneCancelled.countP Action.isPost < UInt64.size := by decide
  have found : (((new .standard).run .standard (oneCancelled.take 2)).cancel ⟨1⟩).1 = true := rfl
  have withdrawn : ⟨1⟩ ∈ along .standard withdrawnBy (new .standard) oneCancelled := by
    have whole : oneCancelled = oneCancelled.take 2 ++ oneCancelled.drop 2 := rfl
    rw [whole, along_append]
    refine List.mem_append_right _ (List.mem_append_left _ ?_)
    rw [withdrawnBy, if_pos found]
    exact List.mem_singleton_self _
  obtain ⟨-, -, -, apart⟩ := handed_out_once .standard .standard oneCancelled made few
  exact ⟨made, few, apart ⟨1⟩ withdrawn⟩

end Broker
end FileBroker
