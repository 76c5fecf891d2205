import FileBroker.Proofs.Broker.Flow
import FileBroker.Worker.Basic

/-!
How far calls have come: fetched, given to the handler, answered, the answer returned. Each of these
steps moves one call on and leaves the others where they are.
-/
namespace FileBroker

/-- A posting and what the handler did with it. -/
structure Call where
  posting : Posting
  reaction : Reaction

namespace Call

def ticket (call : Call) : Nat := call.posting.ticket

/-- What is sent for a call at once. -/
def response? (call : Call) : Option Response :=
  match call.reaction with
  | .complete status information draft =>
    match (draft.setStatus status information).build with
    | .ok response => some response
    | .error _ =>
      let request := call.posting.request
      some (.ofStatus request.revision request.hint request.kind .invalidDeviceRequest)
  | .deferred | .crashed => none

/-- The outcome of a call, as far as the handler has decided on it. For calls that it deferred, the
responses it sent later count. -/
def outcome? (sent : List (Nat × Response)) (call : Call) : Option Outcome :=
  match call.reaction with
  | .complete status information draft =>
    match (draft.setStatus status information).build with
    | .ok response => some (response.judge call.posting.request)
    | .error _ => some (.error (.refused .invalidDeviceRequest 0))
  | .deferred =>
    (sent.lookup call.posting.ticket).map fun response => response.judge call.posting.request
  | .crashed => none

/-- The handler came to an end, with nothing but a draft for this request. -/
structure Proper (call : Call) : Prop where
  finished : call.reaction ≠ .crashed
  made : ∀ status information draft, call.reaction = .complete status information draft →
    draft.MadeFor call.posting.request

variable {call : Call} {response : Response}

theorem Proper.mine (proper : call.Proper) (sends : call.response? = some response) :
    response.Matches call.posting.request := by
  unfold response? at sends
  split at sends
  · next status information draft complete =>
    have made := (proper.made status information draft complete).setStatus status information
    split at sends
    · next built =>
      cases sends
      exact made.build built
    · cases sends
      exact Response.matches_ofStatus _ _
  · cases sends
  · cases sends

theorem outcome?_of_some (sent : List (Nat × Response)) (sends : call.response? = some response) :
    call.outcome? sent = some (response.judge call.posting.request) := by
  unfold response? at sends
  unfold outcome?
  split at sends
  · next status information draft complete =>
    split at sends
    · cases sends
      rfl
    · cases sends
      rw [Response.judge_ofStatus _ .invalidDeviceRequest rfl rfl]
  · cases sends
  · cases sends

theorem Proper.outcome?_of_none (proper : call.Proper) (sent : List (Nat × Response))
    (sends : call.response? = none) :
    call.outcome? sent
      = (sent.lookup call.ticket).map fun response => response.judge call.posting.request := by
  unfold response? at sends
  unfold outcome?
  split at sends
  · split at sends <;> cases sends
  · next deferred => simp only [ticket]
  · next crashed => exact absurd crashed proper.finished

end Call

/-- The answers of `old` calls are with the broker, those of `new` calls still with the worker. The
worker has fetched what is to do, and has yet to fetch what is waiting. -/
structure Progress (broker : Broker) (sent : List (Nat × Response)) (old new : List Call)
    (todo waiting : List Posting) (answer : Nat → Option Response) : Prop where
  flow : broker.Flow ((old ++ new).map Call.posting ++ todo) waiting answer
  proper : ∀ call ∈ old ++ new, call.Proper
  returned : ∀ call ∈ old, ∀ response, call.response? = some response →
    answer call.ticket = some response
  unsent : ∀ call ∈ new, ∀ response, call.response? = some response → answer call.ticket = none
  later : ∀ call ∈ old ++ new, call.response? = none →
    answer call.ticket = sent.lookup call.ticket
  untouched : ∀ posting ∈ todo ++ waiting, answer posting.ticket = none
  addressed : ∀ entry ∈ sent, ∃ call ∈ old ++ new, call.ticket = entry.1

namespace Progress

variable {broker after : Broker} {sent : List (Nat × Response)} {old new : List Call}
  {todo waiting : List Posting} {answer : Nat → Option Response} {call : Call}

theorem start (config : Broker.Config) :
    Progress (.new config) [] [] [] [] [] fun _ => none where
  flow := Broker.flow_new config
  proper _ member := absurd member List.not_mem_nil
  returned _ member := absurd member List.not_mem_nil
  unsent _ member := absurd member List.not_mem_nil
  later _ member := absurd member List.not_mem_nil
  untouched _ member := absurd member List.not_mem_nil
  addressed _ member := absurd member List.not_mem_nil

theorem unique (progress : Progress broker sent old new todo waiting answer) :
    ((old ++ new).map Call.ticket).Nodup := by
  have unique := progress.flow.unique
  rw [List.append_assoc, List.map_append, List.map_map] at unique
  exact (List.nodup_append.1 unique).1

theorem ticket_ne (progress : Progress broker sent old new todo waiting answer) {other : Call}
    (called : call ∈ old ++ new) (called' : other ∈ old ++ new)
    (different : other.response? ≠ call.response?) : other.ticket ≠ call.ticket := by
  intro same
  have twin := List.inj_on_of_nodup_map progress.unique called' called same
  exact different (congrArg Call.response? twin)

/-- What was called is neither to do nor waiting. -/
theorem apart (progress : Progress broker sent old new todo waiting answer)
    (called : call ∈ old ++ new) {posting : Posting} (left : posting ∈ todo ++ waiting) :
    call.ticket ≠ posting.ticket := by
  have unique := progress.flow.unique
  rw [List.append_assoc, List.map_append, List.map_map] at unique
  exact (List.nodup_append.1 unique).2.2 _ (List.mem_map_of_mem called) _
    (List.mem_map_of_mem left)

/-- Nothing was sent for what has not been called. -/
theorem lookup_left (progress : Progress broker sent old new todo waiting answer)
    {posting : Posting} (left : posting ∈ todo ++ waiting) : sent.lookup posting.ticket = none := by
  refine List.lookup_eq_none_iff.2 fun entry member => ?_
  obtain ⟨call, called, same⟩ := progress.addressed entry member
  have other := progress.apart called left
  rw [same] at other
  simpa using Ne.symm other

/-! ### Outcomes -/

theorem outcomesOf_call (progress : Progress broker sent old new todo waiting answer)
    (called : call ∈ old ++ new) : broker.queue.outcomesOf call.ticket
      = ((answer call.ticket).map fun response => response.judge call.posting.request).toList :=
  progress.flow.outcomes call.posting
    (List.mem_append_left _ (List.mem_append_left _ (List.mem_map_of_mem called)))

/-- The caller of a call whose answer was returned has its outcome, if there is one yet. -/
theorem outcomesOf_returned (progress : Progress broker sent old new todo waiting answer)
    (called : call ∈ old) :
    broker.queue.outcomesOf call.ticket = (call.outcome? sent).toList := by
  have member : call ∈ old ++ new := List.mem_append_left _ called
  rw [progress.outcomesOf_call member]
  cases sends : call.response? with
  | none =>
    rw [progress.later call member sends, (progress.proper call member).outcome?_of_none sent sends]
  | some response =>
    rw [progress.returned call called response sends, Call.outcome?_of_some sent sends]
    rfl

/-- No caller has any outcome but the one of its call. -/
theorem outcomesOf_called (progress : Progress broker sent old new todo waiting answer)
    (called : call ∈ old ++ new) :
    broker.queue.outcomesOf call.ticket = [] ∨
      broker.queue.outcomesOf call.ticket = (call.outcome? sent).toList := by
  rcases List.mem_append.1 called with returned | unsent
  · exact .inr (progress.outcomesOf_returned returned)
  · rw [progress.outcomesOf_call called]
    cases sends : call.response? with
    | none =>
      rw [progress.later call called sends,
        (progress.proper call called).outcome?_of_none sent sends]
      exact .inr rfl
    | some response =>
      rw [progress.unsent call unsent response sends]
      exact .inl rfl

theorem outcomesOf_left (progress : Progress broker sent old new todo waiting answer)
    {posting : Posting} (left : posting ∈ todo ++ waiting) :
    broker.queue.outcomesOf posting.ticket = [] := by
  have member : posting ∈ ((old ++ new).map Call.posting ++ todo) ++ waiting := by
    rw [List.append_assoc]
    exact List.mem_append_right _ left
  rw [progress.flow.outcomes posting member, progress.untouched posting left]
  rfl

/-! ### Steps -/

theorem post_error (progress : Progress broker sent old new todo waiting answer) {now : Instant}
    {request : Request} {failure : Failure}
    (refused : broker.post now request = (.error failure, after)) :
    Progress after sent old new todo waiting answer :=
  { progress with flow := progress.flow.post_error refused }

theorem post_ok (progress : Progress broker sent old new todo waiting answer) {now : Instant}
    {request : Request} (formed : request.WellFormed) {reply : Reply}
    (accepted : broker.post now request = (.ok reply, after)) :
    Progress after sent old new todo
      (waiting ++ [⟨reply.ticket, request.withHint reply.hint⟩]) answer := by
  refine { progress with flow := progress.flow.post_ok formed accepted, untouched := ?_ }
  intro posting member
  rw [← List.append_assoc] at member
  rcases List.mem_append.1 member with before | last
  · exact progress.untouched posting before
  · obtain rfl := List.mem_singleton.1 last
    obtain ⟨-, rfl, -⟩ := Broker.post_eq_ok accepted
    exact progress.flow.future _ (Nat.le_refl _)

/-- Waiting requests are fetched. -/
theorem fetched (progress : Progress broker sent old new todo waiting answer)
    {batch rest : List Operation} (fetched : broker.Fetched batch rest after)
    (spared : after.Spared ((old ++ new).map Call.posting ++ todo ++ waiting)) :
    Progress after sent old new (todo ++ batch.map Operation.posting)
      (rest.map Operation.posting) answer := by
  have postings := progress.flow.cut fetched.pending
  refine { progress with flow := ?_, untouched := ?_ }
  · rw [← List.append_assoc]
    exact progress.flow.fetched fetched spared
  · rw [List.append_assoc, postings]
    exact progress.untouched

/-- A request is given to the handler. -/
theorem called {posting : Posting} {reaction : Reaction}
    (progress : Progress broker sent old new (posting :: todo) waiting answer)
    (proper : Call.Proper ⟨posting, reaction⟩) :
    Progress broker sent old (new ++ [⟨posting, reaction⟩]) todo waiting answer := by
  have first : posting ∈ posting :: todo ++ waiting := List.mem_cons_self ..
  have whole : old ++ (new ++ [⟨posting, reaction⟩]) = (old ++ new) ++ [⟨posting, reaction⟩] :=
    (List.append_assoc ..).symm
  refine
    { flow := ?_
      proper := ?_
      returned := progress.returned
      unsent := ?_
      later := ?_
      untouched := fun other left => progress.untouched other (List.mem_cons_of_mem _ left)
      addressed := ?_ }
  · rw [whole, List.map_append, List.append_assoc]
    exact progress.flow
  · rw [whole]
    intro call member
    rcases List.mem_append.1 member with before | last
    · exact progress.proper call before
    · obtain rfl := List.mem_singleton.1 last
      exact proper
  · intro call member response sends
    rcases List.mem_append.1 member with before | last
    · exact progress.unsent call before response sends
    · obtain rfl := List.mem_singleton.1 last
      exact progress.untouched posting first
  · rw [whole]
    intro call member sends
    rcases List.mem_append.1 member with before | last
    · exact progress.later call before sends
    · obtain rfl := List.mem_singleton.1 last
      exact (progress.untouched posting first).trans (progress.lookup_left first).symm
  · rw [whole]
    intro entry member
    obtain ⟨call, found, same⟩ := progress.addressed entry member
    exact ⟨call, List.mem_append_left _ found, same⟩

/-- A call that sends nothing at once has nothing to return. -/
theorem pass (progress : Progress broker sent old (call :: new) todo waiting answer)
    (silent : call.response? = none) :
    Progress broker sent (old ++ [call]) new todo waiting answer := by
  have whole : (old ++ [call]) ++ new = old ++ call :: new := List.append_assoc ..
  refine
    { flow := by rw [whole]; exact progress.flow
      proper := by rw [whole]; exact progress.proper
      returned := ?_
      unsent := fun other member => progress.unsent other (List.mem_cons_of_mem _ member)
      later := by rw [whole]; exact progress.later
      untouched := progress.untouched
      addressed := by rw [whole]; exact progress.addressed }
  intro other member response sends
  rcases List.mem_append.1 member with before | last
  · exact progress.returned other before response sends
  · obtain rfl := List.mem_singleton.1 last
    rw [silent] at sends
    cases sends

/-- The answer of a call is returned. -/
theorem land (progress : Progress broker sent old (call :: new) todo waiting answer)
    {response : Response} (sends : call.response? = some response) (clock : Instant) :
    Progress (broker.receive .standard clock ⟨.response, response.message⟩).2 sent (old ++ [call])
      new todo waiting (Function.update answer call.ticket (some response)) := by
  have whole : (old ++ [call]) ++ new = old ++ call :: new := List.append_assoc ..
  have first : call ∈ old ++ call :: new := List.mem_append_right _ (List.mem_cons_self ..)
  have others : call.ticket ∉ (old ++ new).map Call.ticket := by
    have unique := progress.unique
    rw [List.map_append, List.map_cons, List.nodup_middle, ← List.map_append] at unique
    exact (List.nodup_cons.1 unique).1
  have different : ∀ other ∈ old ++ new, other.ticket ≠ call.ticket :=
    fun other member same => others (same ▸ List.mem_map_of_mem member)
  refine
    { flow := ?_
      proper := by rw [whole]; exact progress.proper
      returned := ?_
      unsent := ?_
      later := ?_
      untouched := ?_
      addressed := by rw [whole]; exact progress.addressed }
  · rw [whole]
    have taken : call.posting ∈ (old ++ call :: new).map Call.posting ++ todo :=
      List.mem_append_left _ (List.mem_map_of_mem first)
    have unanswered := progress.unsent call (List.mem_cons_self ..) response sends
    exact progress.flow.receive taken unanswered ((progress.proper call first).mine sends) clock
  · intro other member answer' sends'
    rcases List.mem_append.1 member with before | last
    · rw [Function.update_of_ne (different other (List.mem_append_left _ before))]
      exact progress.returned other before answer' sends'
    · obtain rfl := List.mem_singleton.1 last
      rw [Function.update_self, ← sends, sends']
  · intro other member answer' sends'
    rw [Function.update_of_ne (different other (List.mem_append_right _ member))]
    exact progress.unsent other (List.mem_cons_of_mem _ member) answer' sends'
  · rw [whole]
    intro other member silent
    have apart := progress.ticket_ne first member (by simp [silent, sends])
    rw [Function.update_of_ne apart]
    exact progress.later other member silent
  · intro posting left
    rw [Function.update_of_ne (progress.apart first left).symm]
    exact progress.untouched posting left

/-- All answers the worker has are returned, in order. -/
theorem returnAll (progress : Progress broker sent old new todo waiting answer) (clock : Instant) :
    ∃ answer', Progress
      (broker.receiveAll .standard clock ((new.filterMap Call.response?).map fun response =>
        ⟨.response, response.message⟩)).2 sent (old ++ new) [] todo waiting answer' := by
  induction new generalizing broker old answer with
  | nil =>
    rw [List.append_nil]
    exact ⟨answer, progress⟩
  | cons call rest ih =>
    cases sends : call.response? with
    | none =>
      obtain ⟨answer', done⟩ := ih (progress.pass sends)
      rw [List.append_assoc] at done
      rw [List.filterMap_cons_none sends]
      exact ⟨answer', done⟩
    | some response =>
      obtain ⟨answer', done⟩ := ih (progress.land sends clock)
      rw [List.append_assoc] at done
      rw [List.filterMap_cons_some sends, List.map_cons]
      exact ⟨answer', done⟩

theorem ingest (progress : Progress broker sent old new todo waiting answer) (clock : Instant) :
    ∃ answer', Progress
      (broker.ingest .standard clock ((new.filterMap Call.response?).flatMap Response.encode)).2
      sent (old ++ new) [] todo waiting answer' := by
  have formed : ∀ response ∈ new.filterMap Call.response?, response.WellFormed := by
    intro response member
    obtain ⟨call, found, sends⟩ := List.mem_filterMap.1 member
    exact ((progress.proper call (List.mem_append_right _ found)).mine sends).formed
  rw [Broker.ingest, Response.frames_flatMap_encode formed]
  exact progress.returnAll clock

/-- A deferred call is answered. -/
theorem reply (progress : Progress broker sent old new todo waiting answer)
    (called : call ∈ old ++ new) (deferred : call.reaction = .deferred)
    (open' : sent.lookup call.ticket = none) {response : Response}
    (mine : response.Matches call.posting.request) (clock : Instant) :
    Progress (broker.receive .standard clock ⟨.response, response.message⟩).2
      (sent ++ [(call.ticket, response)]) old new todo waiting
      (Function.update answer call.ticket (some response)) := by
  have silent : call.response? = none := by
    unfold Call.response?
    rw [deferred]
  have different : ∀ other ∈ old ++ new, ∀ answer', other.response? = some answer' →
      other.ticket ≠ call.ticket :=
    fun other member answer' sends => progress.ticket_ne called member (by simp [silent, sends])
  refine
    { flow := ?_
      proper := progress.proper
      returned := ?_
      unsent := ?_
      later := ?_
      untouched := ?_
      addressed := ?_ }
  · have taken : call.posting ∈ (old ++ new).map Call.posting ++ todo :=
      List.mem_append_left _ (List.mem_map_of_mem called)
    have unanswered := (progress.later call called silent).trans open'
    exact progress.flow.receive taken unanswered mine clock
  · intro other member answer' sends
    rw [Function.update_of_ne (different other (List.mem_append_left _ member) answer' sends)]
    exact progress.returned other member answer' sends
  · intro other member answer' sends
    rw [Function.update_of_ne (different other (List.mem_append_right _ member) answer' sends)]
    exact progress.unsent other member answer' sends
  · intro other member silent'
    rw [List.lookup_append]
    by_cases same : other.ticket = call.ticket
    · rw [same, Function.update_self, open', Option.none_or, List.lookup_cons_self]
    · have nothing : [(call.ticket, response)].lookup other.ticket = none := by
        rw [List.lookup_cons, beq_eq_false_iff_ne.2 same]
        rfl
      rw [Function.update_of_ne same, progress.later other member silent', nothing, Option.or_none]
  · intro posting left
    rw [Function.update_of_ne (progress.apart called left).symm]
    exact progress.untouched posting left
  · intro entry member
    rcases List.mem_append.1 member with before | last
    · exact progress.addressed entry before
    · obtain rfl := List.mem_singleton.1 last
      exact ⟨call, called, rfl⟩

end Progress
end FileBroker
