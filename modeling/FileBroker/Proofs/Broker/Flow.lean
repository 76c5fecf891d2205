import FileBroker.Proofs.Broker.Fetch
import FileBroker.Proofs.Broker.Receive
import FileBroker.Proofs.Session.Run
import Mathlib.Logic.Function.Basic

/-!
A broker whose operations all go the same way: posted, fetched in order, answered once. For each
posting it is known where the operation stands and which outcome its caller has, as a function of
the responses that came back.
-/
namespace FileBroker

/-- An accepted request, under the hint it was given. -/
structure Posting where
  ticket : Nat
  request : Request
  deriving DecidableEq

def Operation.posting (op : Operation) : Posting := ⟨op.ticket, op.request⟩

namespace Broker

/-- What posting a request makes sure of. -/
structure Admitted (broker : Broker) (posting : Posting) : Prop where
  past : posting.ticket < broker.nextHint
  hint : posting.request.hint = ⟨UInt64.ofNat posting.ticket⟩
  formed : posting.request.WellFormed
  spoken : posting.request.revision = broker.config.revision

/-- The operations that were taken and those that still wait, in the order they were posted in, and
for each ticket the response that came back under it. -/
structure Flow (broker : Broker) (taken waiting : List Posting)
    (answer : Nat → Option Response) : Prop where
  serving : broker.queue.Serving
  ordered : broker.queue.Ordered
  distinct : broker.queue.Distinct
  pending : broker.queue.pending.map Operation.posting = waiting
  flying : ∀ op ∈ broker.queue.inFlight, op.posting ∈ taken
  unanswered : ∀ posting ∈ taken, answer posting.ticket = none →
    ∃ op ∈ broker.queue.inFlight, op.posting = posting
  outcomes : ∀ posting ∈ taken ++ waiting, broker.queue.outcomesOf posting.ticket
    = ((answer posting.ticket).map fun response => response.judge posting.request).toList
  unique : ((taken ++ waiting).map Posting.ticket).Nodup
  admitted : ∀ posting ∈ taken ++ waiting, broker.Admitted posting
  past : ∀ delivery ∈ broker.queue.delivered, delivery.ticket < broker.nextHint
  future : ∀ ticket, broker.nextHint ≤ ticket → answer ticket = none

/-- Nobody who posted was given up: no operation expired, and none was displaced by a namesake. The
latter takes more posts than there are hints. -/
structure Spared (broker : Broker) (postings : List Posting) : Prop where
  expired : ∀ posting ∈ postings, .error .expired ∉ broker.queue.outcomesOf posting.ticket
  cancelled : broker.nextHint ≤ UInt64.size ∨
    ∀ posting ∈ postings, .error .cancelled ∉ broker.queue.outcomesOf posting.ticket

theorem Spared.earlier {before after : Broker} {early late : List Posting}
    (spared : after.Spared late) (grows : before.queue.Grows after.queue)
    (nextHint : before.nextHint ≤ after.nextHint) (some' : early ⊆ late) :
    before.Spared early where
  expired posting member found := spared.expired posting (some' member) (grows.keeps found)
  cancelled := spared.cancelled.imp (Nat.le_trans nextHint) fun kept posting member found =>
    kept posting (some' member) (grows.keeps found)

theorem Spared.before {before after : Broker} {postings : List Posting}
    (spared : after.Spared postings) (continues : before.Continues after) :
    before.Spared postings :=
  spared.earlier continues.outcomes (Nat.le_of_eq continues.nextHint.symm)
    (List.Subset.refl postings)

theorem grows_post (broker : Broker) (now : Instant) (request : Request) :
    broker.queue.Grows (broker.post now request).2.queue := by
  rcases post_cases broker now request with ⟨-, _, same⟩ | ⟨-, _, same⟩ | ⟨-, same⟩ <;> rw [same]
  · exact .refl _
  · exact .deliver _ _ _
  · exact .of_eq rfl

theorem Spared.before_post {broker : Broker} {now : Instant} {request : Request}
    {early late : List Posting} (spared : (broker.post now request).2.Spared late)
    (some' : early ⊆ late) : broker.Spared early :=
  spared.earlier (grows_post broker now request) (nextHint_le_post broker now request) some'

namespace Admitted

variable {broker after : Broker} {posting other : Posting}

theorem later (admitted : broker.Admitted posting) (config : after.config = broker.config)
    (nextHint : broker.nextHint ≤ after.nextHint) : after.Admitted posting where
  past := Nat.lt_of_lt_of_le admitted.past nextHint
  hint := admitted.hint
  formed := admitted.formed
  spoken := config ▸ admitted.spoken

/-- While no hint was given out twice, hints tell postings apart. -/
theorem ticket_eq (admitted : broker.Admitted posting) (admitted' : broker.Admitted other)
    (unused : broker.nextHint ≤ UInt64.size) (same : posting.request.hint = other.request.hint) :
    posting.ticket = other.ticket := by
  have past := admitted.past
  have past' := admitted'.past
  rw [admitted.hint, admitted'.hint] at same
  have words := congrArg (fun hint : Hint => hint.value.toNat) same
  dsimp only at words
  rwa [UInt64.toNat_ofNat_of_lt' (by omega), UInt64.toNat_ofNat_of_lt' (by omega)] at words

end Admitted

theorem flow_new (config : Config) : Flow (.new config) [] [] fun _ => none where
  serving := ⟨rfl, rfl⟩
  ordered := ⟨.nil, fun _ member => absurd member List.not_mem_nil⟩
  distinct := List.nodup_nil
  pending := rfl
  flying _ member := absurd member List.not_mem_nil
  unanswered _ member := absurd member List.not_mem_nil
  outcomes _ member := absurd member List.not_mem_nil
  unique := List.nodup_nil
  admitted _ member := absurd member List.not_mem_nil
  past _ member := absurd member List.not_mem_nil
  future _ _ := rfl

namespace Flow

variable {broker after : Broker} {taken waiting : List Posting} {answer : Nat → Option Response}

theorem held (flow : Flow broker taken waiting answer) :
    ∀ op ∈ broker.queue.all, op.posting ∈ taken ++ waiting := by
  intro op member
  rw [Queue.all, flow.serving.unparked, List.append_nil] at member
  rcases List.mem_append.1 member with pending | flying
  · rw [← flow.pending]
    exact List.mem_append_right _ (List.mem_map_of_mem pending)
  · exact List.mem_append_left _ (flow.flying op flying)

theorem admitted_pending (flow : Flow broker taken waiting answer) :
    ∀ op ∈ broker.queue.pending, broker.Admitted op.posting := by
  intro op member
  refine flow.admitted op.posting (List.mem_append_right _ ?_)
  rw [← flow.pending]
  exact List.mem_map_of_mem member

/-! ### Posting -/

/-- A post that is refused leaves every posting as it was. -/
theorem post_error (flow : Flow broker taken waiting answer) {now : Instant} {request : Request}
    {failure : Failure} (refused : broker.post now request = (.error failure, after)) :
    Flow after taken waiting answer := by
  rcases post_eq_error refused with rfl | rfl
  · exact flow
  · refine
      { serving := ⟨flow.serving.running, flow.serving.unparked⟩
        ordered := ⟨flow.ordered.sorted, flow.ordered.bounded⟩
        distinct := flow.distinct
        pending := flow.pending
        flying := flow.flying
        unanswered := flow.unanswered
        outcomes := ?_
        unique := flow.unique
        admitted := fun posting member => (flow.admitted posting member).later rfl (Nat.le_succ _)
        past := ?_
        future := fun ticket late => flow.future ticket (Nat.le_of_succ_le late) }
    · intro posting member
      have other : (broker.posted now request).ticket ≠ posting.ticket :=
        Nat.ne_of_gt (flow.admitted posting member).past
      exact (Queue.outcomesOf_deliver_of_ne broker.queue _ other).trans
        (flow.outcomes posting member)
    · intro delivery member
      rcases List.mem_cons.1 member with rfl | before
      · exact Nat.lt_succ_self _
      · exact Nat.lt_succ_of_lt (flow.past delivery before)

/-- A post that is accepted waits behind the others. -/
theorem post_ok (flow : Flow broker taken waiting answer) {now : Instant} {request : Request}
    (formed : request.WellFormed) {reply : Reply}
    (accepted : broker.post now request = (.ok reply, after)) :
    Flow after taken (waiting ++ [⟨reply.ticket, request.withHint reply.hint⟩]) answer := by
  obtain ⟨spoken, rfl, rfl⟩ := post_eq_ok accepted
  have fresh : ∀ posting ∈ taken ++ waiting, posting.ticket ≠ broker.nextHint :=
    fun posting member => Nat.ne_of_lt (flow.admitted posting member).past
  refine
    { serving := ⟨flow.serving.running, flow.serving.unparked⟩
      ordered := ⟨?_, ?_⟩
      distinct := flow.distinct
      pending := ?_
      flying := flow.flying
      unanswered := flow.unanswered
      outcomes := ?_
      unique := ?_
      admitted := ?_
      past := fun delivery member => Nat.lt_succ_of_lt (flow.past delivery member)
      future := fun ticket late => flow.future ticket (Nat.le_of_succ_le late) }
  · refine List.pairwise_append.2 ⟨flow.ordered.sorted, List.pairwise_singleton _ _, ?_⟩
    intro op member last single
    obtain rfl := List.mem_singleton.1 single
    exact Nat.lt_succ_of_le (flow.ordered.bounded op member)
  · intro op member
    rcases List.mem_append.1 member with before | last
    · exact Nat.le_succ_of_le (flow.ordered.bounded op before)
    · obtain rfl := List.mem_singleton.1 last
      exact Nat.le_refl _
  · rw [List.map_append, flow.pending]
    rfl
  · intro posting member
    rw [← List.append_assoc] at member
    rcases List.mem_append.1 member with before | last
    · exact flow.outcomes posting before
    · obtain rfl := List.mem_singleton.1 last
      have nothing := flow.future broker.nextHint (Nat.le_refl _)
      change broker.queue.outcomesOf broker.nextHint = _
      rw [Queue.outcomesOf_eq_nil fun delivery member => Nat.ne_of_lt (flow.past delivery member)]
      change [] = ((answer broker.nextHint).map _).toList
      rw [nothing]
      rfl
  · rw [← List.append_assoc, List.map_append]
    refine List.nodup_append.2 ⟨flow.unique, List.nodup_singleton _, ?_⟩
    intro ticket member last single
    obtain ⟨posting, before, rfl⟩ := List.mem_map.1 member
    obtain rfl := List.mem_singleton.1 single
    exact fresh posting before
  · intro posting member
    rw [← List.append_assoc] at member
    rcases List.mem_append.1 member with before | last
    · exact (flow.admitted posting before).later rfl (Nat.le_succ _)
    · obtain rfl := List.mem_singleton.1 last
      exact ⟨Nat.lt_succ_self _, rfl, Request.wellFormed_withHint formed _, spoken⟩

/-! ### Fetching -/

theorem cut (flow : Flow broker taken waiting answer) {batch rest : List Operation}
    (cut : broker.queue.pending = batch ++ rest) :
    batch.map Operation.posting ++ rest.map Operation.posting = waiting := by
  rw [← flow.pending, cut, List.map_append]

theorem nodup_hints (flow : Flow broker taken waiting answer)
    (unused : broker.nextHint ≤ UInt64.size) {batch rest : List Operation}
    (cut : broker.queue.pending = batch ++ rest) :
    ((broker.queue.inFlight ++ batch).map Operation.hint).Nodup := by
  have postings := flow.cut cut
  have unique := flow.unique
  rw [← postings, List.map_append, List.map_append, List.nodup_append] at unique
  obtain ⟨-, among, between⟩ := unique
  have known : ∀ op ∈ batch, op.posting ∈ taken ++ waiting := by
    intro op member
    rw [← postings]
    exact List.mem_append_right _ (List.mem_append_left _ (List.mem_map_of_mem member))
  rw [List.map_append, List.nodup_append]
  refine ⟨flow.distinct, ?_, ?_⟩
  · have tickets := (List.nodup_append.1 among).1
    rw [List.map_map] at tickets
    have whole := List.Nodup.of_map _ tickets
    refine List.Nodup.map_on (fun op member op' member' same => ?_) whole
    have ticket := (flow.admitted _ (known op member)).ticket_eq
      (flow.admitted _ (known op' member')) unused same
    exact List.inj_on_of_nodup_map tickets member member' ticket
  · intro hint flying hint' fetched same
    obtain ⟨op, member, rfl⟩ := List.mem_map.1 flying
    obtain ⟨op', member', rfl⟩ := List.mem_map.1 fetched
    have mine := flow.flying op member
    have ticket := (flow.admitted _ (List.mem_append_left _ mine)).ticket_eq
      (flow.admitted _ (known op' member')) unused same
    refine between _ (List.mem_map_of_mem mine) _ ?_ ticket
    exact List.mem_append_left _ (List.mem_map_of_mem (List.mem_map_of_mem member'))

/-- What is fetched is taken, and nobody is displaced by it. -/
theorem fetched (flow : Flow broker taken waiting answer) {batch rest : List Operation}
    (fetched : Fetched broker batch rest after) (spared : after.Spared (taken ++ waiting)) :
    Flow after (taken ++ batch.map Operation.posting) (rest.map Operation.posting) answer := by
  have postings := flow.cut fetched.pending
  have whole : (taken ++ batch.map Operation.posting) ++ rest.map Operation.posting
      = taken ++ waiting := by
    rw [List.append_assoc, postings]
  have queue : after.queue = { broker.queue with
      pending := rest, inFlight := broker.queue.inFlight ++ batch } := by
    rw [fetched.queue]
    rcases spared.cancelled with unused | kept
    · rw [fetched.nextHint] at unused
      exact Queue.foldl_launch_of_nodup (flow.nodup_hints unused fetched.pending)
    · refine Queue.foldl_launch_of_spared fun op member found => ?_
      refine kept op.posting ?_ (fetched.queue ▸ found)
      rcases List.mem_append.1 member with flying | new
      · exact List.mem_append_left _ (flow.flying op flying)
      · rw [← postings]
        exact List.mem_append_right _ (List.mem_append_left _ (List.mem_map_of_mem new))
  have left : rest.Sublist broker.queue.pending := by
    rw [fetched.pending]
    exact List.sublist_append_right _ _
  refine
    { serving := fetched.serving flow.serving
      ordered := ?_
      distinct := ?_
      pending := ?_
      flying := ?_
      unanswered := ?_
      outcomes := ?_
      unique := whole ▸ flow.unique
      admitted := ?_
      past := ?_
      future := ?_ }
  · rw [queue]
    exact ⟨flow.ordered.sorted.sublist left,
      fun op member => flow.ordered.bounded op (left.subset member)⟩
  · have before : Queue.Distinct { broker.queue with pending := rest } := flow.distinct
    rw [fetched.queue]
    exact Queue.distinct_foldl_launch before batch
  · rw [fetched.pending_after]
  · intro op member
    rw [queue] at member
    rcases List.mem_append.1 member with before | new
    · exact List.mem_append_left _ (flow.flying op before)
    · exact List.mem_append_right _ (List.mem_map_of_mem new)
  · intro posting member unanswered
    rw [queue]
    rcases List.mem_append.1 member with before | new
    · obtain ⟨op, flying, same⟩ := flow.unanswered posting before unanswered
      exact ⟨op, List.mem_append_left _ flying, same⟩
    · obtain ⟨op, flying, same⟩ := List.mem_map.1 new
      exact ⟨op, List.mem_append_right _ flying, same⟩
  · rw [whole, queue]
    exact flow.outcomes
  · rw [whole]
    exact fun posting member =>
      (flow.admitted posting member).later fetched.config (Nat.le_of_eq fetched.nextHint.symm)
  · rw [queue, fetched.nextHint]
    exact flow.past
  · rw [fetched.nextHint]
    exact flow.future

/-! ### Answering -/

/-- A first response to what was taken settles it, and concerns nobody else. -/
theorem receive (flow : Flow broker taken waiting answer) {posting : Posting}
    (member : posting ∈ taken) (unanswered : answer posting.ticket = none) {response : Response}
    (mine : response.Matches posting.request) (clock : Instant) :
    Flow (broker.receive .standard clock ⟨.response, response.message⟩).2 taken waiting
      (Function.update answer posting.ticket (some response)) := by
  obtain ⟨op, flying, rfl⟩ := flow.unanswered posting member unanswered
  have admitted := flow.admitted op.posting (List.mem_append_left _ member)
  obtain ⟨attempts, counters, received⟩ :=
    receive_standard clock flow.distinct flying mine admitted.spoken
  rw [received]
  refine
    { serving := ⟨flow.serving.running, flow.serving.unparked⟩
      ordered := ⟨flow.ordered.sorted, flow.ordered.bounded⟩
      distinct := (List.filter_sublist.map Operation.hint).nodup flow.distinct
      pending := flow.pending
      flying := fun other found => flow.flying other (List.mem_of_mem_filter found)
      unanswered := ?_
      outcomes := ?_
      unique := flow.unique
      admitted := fun other found => (flow.admitted other found).later rfl (Nat.le_refl _)
      past := ?_
      future := ?_ }
  · intro other found nothing
    have apart : other.ticket ≠ op.posting.ticket := by
      intro same
      rw [same, Function.update_self] at nothing
      cases nothing
    rw [Function.update_of_ne apart] at nothing
    obtain ⟨op', flying', rfl⟩ := flow.unanswered other found nothing
    refine ⟨op', List.mem_filter.2 ⟨flying', ?_⟩, rfl⟩
    rw [bne_iff_ne]
    intro same
    have twin := List.inj_on_of_nodup_map flow.distinct flying' flying same
    exact apart (congrArg Operation.ticket twin)
  · intro other found
    by_cases same : other.ticket = op.posting.ticket
    · have twin : other = op.posting :=
        List.inj_on_of_nodup_map flow.unique found (List.mem_append_left _ member) same
      have before := flow.outcomes other found
      rw [same, unanswered] at before
      rw [twin, Function.update_self]
      change (Queue.deliver _ op _).outcomesOf op.ticket = _
      rw [Queue.outcomesOf_deliver]
      exact congrArg (_ :: ·) before
    · rw [Function.update_of_ne same]
      change (Queue.deliver _ op _).outcomesOf other.ticket = _
      rw [Queue.outcomesOf_deliver_of_ne _ _ (Ne.symm same)]
      exact flow.outcomes other found
  · intro delivery found
    rcases List.mem_cons.1 found with rfl | before
    · exact admitted.past
    · exact flow.past delivery before
  · intro ticket late
    have apart : ticket ≠ op.posting.ticket := Nat.ne_of_gt (Nat.lt_of_lt_of_le admitted.past late)
    rw [Function.update_of_ne apart]
    exact flow.future ticket late

end Flow
end Broker
end FileBroker
