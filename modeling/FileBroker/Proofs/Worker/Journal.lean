import FileBroker.Proofs.Worker.Replies

/-!
The exchanges of a worker, written down. From the journal of a run alone it can be told which
requests were delivered and which responses were sent, and whether the channel has stopped.
-/
namespace FileBroker

/-- One exchange as the worker made it. -/
structure Exchange where
  responses : Bytes
  /-- The size of the buffer for requests. An exchange without one only sends. -/
  room : Nat
  result : Except ChannelError (Nat × Buffer)

namespace Exchange

def sent (exchange : Exchange) : List Frame := Batch.frames .response exchange.responses

def delivered (exchange : Exchange) : List Frame :=
  match exchange.result with
  | .ok (count, filled) => Batch.frames .request (filled.front count)
  | .error _ => []

/-- Requests were asked for, and the channel reports that there will be no more. -/
def Stops (exchange : Exchange) : Prop :=
  exchange.room ≠ 0 ∧ exchange.result = .error .stopped

end Exchange

namespace Channel

variable {σ : Type}

/-- The same channel, with a journal of what passes through it. -/
def journaled (channel : Channel σ) : Channel (σ × List Exchange) where
  exchange state responses buffer :=
    let exchanged := channel.exchange state.1 responses buffer
    (exchanged.1, exchanged.2, state.2 ++ [⟨responses, buffer.size, exchanged.1⟩])

/-- An exchange fills a part of the buffer that it is given. -/
def Lawful (channel : Channel σ) : Prop :=
  ∀ state responses buffer count filled,
    (channel.exchange state responses buffer).1 = .ok (count, filled) →
      count ≤ buffer.size ∧ filled.size = buffer.size

theorem journaled_exchange {channel : Channel σ} {state after : σ} {journal : List Exchange}
    {responses : Bytes} {buffer : Buffer} {result : Except ChannelError (Nat × Buffer)}
    (exchanged : channel.exchange state responses buffer = (result, after)) :
    channel.journaled.exchange (state, journal) responses buffer
      = (result, after, journal ++ [⟨responses, buffer.size, result⟩]) := by
  simp only [journaled, exchanged]

end Channel

/-! ### The journal only looks on -/

namespace Worker

variable {σ τ : Type} {channel : Channel σ} {handler : Handler τ}
  {worker after : Worker (σ × List Exchange) τ} {ending : Except WorkerError Unit}

/-- The worker without the journal. -/
def unjournaled (worker : Worker (σ × List Exchange) τ) : Worker σ τ :=
  { worker with channel := worker.channel.1 }

/-- The exchanges that a worker makes in so many turns. -/
def exchanges (channel : Channel σ) (handler : Handler τ) (fuel : Nat) (worker : Worker σ τ) :
    List Exchange :=
  ({ worker with channel := (worker.channel, []) } : Worker (σ × List Exchange) τ).run
    channel.journaled handler fuel |>.2.channel.2

theorem flush_unjournaled (flushed : worker.flush channel.journaled = (ending, after)) :
    worker.unjournaled.flush channel = (ending, after.unjournaled) := by
  unfold flush Channel.journaled at flushed
  unfold flush unjournaled
  dsimp only at flushed ⊢
  cases result : (channel.exchange worker.channel.1 worker.outbox.written .empty).1 with
  | ok given =>
    rw [result] at flushed
    cases flushed
    rfl
  | error fault =>
    rw [result] at flushed
    cases fault <;> cases flushed <;> rfl

theorem makeRoom_unjournaled (made : worker.makeRoom channel.journaled = (ending, after)) :
    worker.unjournaled.makeRoom channel = (ending, after.unjournaled) := by
  unfold makeRoom at made ⊢
  by_cases fits : worker.outbox.fits worker.revision.messageLimit = true
  · rw [if_pos fits] at made
    cases made
    exact if_pos fits
  · rw [if_neg fits] at made
    exact (if_neg fits).trans (flush_unjournaled made)

theorem answer_unjournaled {request : Frame}
    (answered : worker.answer handler request = (ending, after)) :
    worker.unjournaled.answer handler request = (ending, after.unjournaled) := by
  unfold answer at answered ⊢
  unfold unjournaled
  dsimp only
  split at answered <;> next =>
    cases answered
    rfl

theorem answerAll_unjournaled {requests : List Frame}
    (answered : answerAll channel.journaled handler requests worker = (ending, after)) :
    answerAll channel handler requests worker.unjournaled = (ending, after.unjournaled) := by
  induction requests generalizing worker with
  | nil =>
    cases answered
    rfl
  | cons request rest ih =>
    unfold answerAll at answered ⊢
    split at answered
    · next failed =>
      cases answered
      rw [makeRoom_unjournaled failed]
    · next roomy =>
      rw [makeRoom_unjournaled roomy]
      dsimp only
      split at answered
      · next failed =>
        cases answered
        rw [answer_unjournaled failed]
      · next done =>
        rw [answer_unjournaled done]
        exact ih answered

theorem turn_unjournaled {goes : Except WorkerError Bool}
    (turned : worker.turn channel.journaled handler = (goes, after)) :
    worker.unjournaled.turn channel handler = (goes, after.unjournaled) := by
  unfold turn Channel.journaled at turned
  unfold turn unjournaled
  dsimp only at turned ⊢
  cases result : (channel.exchange worker.channel.1 worker.outbox.written worker.inbox).1 with
  | ok given =>
    rw [result] at turned
    dsimp only at turned ⊢
    split at turned <;> next same =>
      cases turned
      have plain := answerAll_unjournaled same
      unfold unjournaled at plain
      dsimp only at plain
      rw [plain]
  | error fault =>
    rw [result] at turned
    cases fault <;> cases turned <;> rfl

theorem run_unjournaled {fuel : Nat} {ending : Option (Except WorkerError Unit)}
    (ran : worker.run channel.journaled handler fuel = (ending, after)) :
    worker.unjournaled.run channel handler fuel = (ending, after.unjournaled) := by
  induction fuel generalizing worker with
  | zero =>
    cases ran
    rfl
  | succ fuel ih =>
    unfold run at ran ⊢
    split at ran
    · next turned =>
      rw [turn_unjournaled turned]
      exact ih ran
    · next turned =>
      cases ran
      rw [turn_unjournaled turned]
    · next turned =>
      cases ran
      rw [turn_unjournaled turned]

end Worker

/-! ### Replies and exchanges -/

/-- An exchange without a buffer brings nothing. -/
theorem Exchange.delivered_empty {σ : Type} {channel : Channel σ} (lawful : channel.Lawful)
    {state next : σ} {responses : Bytes} {result : Except ChannelError (Nat × Buffer)}
    (made : channel.exchange state responses .empty = (result, next)) :
    (⟨responses, 0, result⟩ : Exchange).delivered = [] := by
  cases result with
  | error fault => rfl
  | ok given =>
    obtain ⟨count, filled⟩ := given
    obtain ⟨-, size⟩ := lawful _ _ _ _ _ (congrArg Prod.fst made)
    have bare : filled.bytes = [] := by
      rw [← List.length_eq_zero_iff, ← filled.size_eq, size]
      rfl
    unfold delivered Buffer.front
    dsimp only
    rw [bare, List.take_nil, Batch.frames_nil]

/-- Where a worker stands: `done` has been answered, `todo` has been delivered and waits, and of the
replies some have been sent. The channel has not stopped. -/
structure Journal {σ τ : Type} (handler : Handler τ) (revision : Revision) (state : τ)
    (worker : Worker (σ × List Exchange) τ) (done todo : List Frame)
    (sent unsent : List (Frame × Worker.Reply)) : Prop where
  spoken : worker.revision = revision
  delivered : worker.channel.2.flatMap Exchange.delivered = done ++ todo
  served : handler.replies revision state done = (sent ++ unsent, worker.desk.state)
  returned : worker.channel.2.flatMap Exchange.sent
    = sent.map fun pair => pair.2.frame revision
  outbox : worker.outbox.written
    = unsent.flatMap fun pair => Layout.pad (pair.2.message revision)
  bounds : worker.outbox.InBounds
  outboxRoom : revision.messageLimit ≤ worker.outbox.buffer.size
  inboxRoom : worker.inbox.size ≠ 0
  running : ∀ exchange ∈ worker.channel.2, ¬ exchange.Stops

namespace Journal

variable {σ τ : Type} {channel : Channel σ} {handler : Handler τ} {revision : Revision} {state : τ}
  {worker : Worker (σ × List Exchange) τ} {done todo : List Frame}
  {sent unsent : List (Frame × Worker.Reply)}

theorem start (handler : Handler τ) (revision : Revision) (mode : ExchangeMode) (thread : String)
    (first : σ) (state : τ) :
    Journal handler revision state (.new revision mode thread (first, []) state) [] [] [] [] where
  spoken := rfl
  delivered := rfl
  served := rfl
  returned := rfl
  outbox := rfl
  bounds := Nat.zero_le _
  outboxRoom := mode.messageLimit_le_bufferSize revision
  inboxRoom := by
    have room := mode.messageLimit_le_bufferSize revision
    have limit := revision.messageLimit_ge
    change mode.bufferSize revision ≠ 0
    omega
  running := nofun

/-- What is ready to be sent comes apart into the replies again. -/
theorem frames_outbox (proper : handler.Proper)
    (journal : Journal handler revision state worker done todo sent unsent) :
    Batch.frames .response worker.outbox.written
      = unsent.map fun pair => pair.2.frame revision := by
  have sized : ∀ pair ∈ unsent, Frame.Sized .response (pair.2.message revision) := by
    intro pair member
    have replied : pair ∈ (handler.replies revision state done).1 := by
      rw [journal.served]
      exact List.mem_append_right _ member
    exact (proper.sendable_replies pair replied).sized
  rw [journal.outbox]
  exact Batch.frames_padded sized

variable {entry : Exchange}

/-- With every exchange the replies that were ready go out. -/
theorem returned_entry (proper : handler.Proper)
    (journal : Journal handler revision state worker done todo sent unsent)
    (same : entry.responses = worker.outbox.written) :
    (worker.channel.2 ++ [entry]).flatMap Exchange.sent
      = (sent ++ unsent).map fun pair => pair.2.frame revision := by
  rw [List.flatMap_append, journal.returned, List.flatMap_singleton, Exchange.sent, same,
    journal.frames_outbox proper, List.map_append]

theorem running_entry (journal : Journal handler revision state worker done todo sent unsent)
    (goes : ¬ entry.Stops) : ∀ exchange ∈ worker.channel.2 ++ [entry], ¬ exchange.Stops := by
  intro exchange member
  rcases List.mem_append.1 member with before | last
  · exact journal.running exchange before
  · rwa [List.mem_singleton.1 last]

/-- After an exchange nothing is ready to be sent, and what was delivered waits behind the rest. -/
theorem exchanged (proper : handler.Proper)
    (journal : Journal handler revision state worker done todo sent unsent)
    (same : entry.responses = worker.outbox.written) (goes : ¬ entry.Stops) (next : σ)
    {inbox : Buffer} (room : inbox.size ≠ 0) :
    Journal handler revision state
      { worker with
        channel := (next, worker.channel.2 ++ [entry])
        inbox
        outbox := { worker.outbox with cursor := 0 } }
      done (todo ++ entry.delivered) (sent ++ unsent) [] where
  spoken := journal.spoken
  delivered := by
    rw [List.flatMap_append, journal.delivered, List.flatMap_singleton, List.append_assoc]
  served := by
    rw [List.append_nil]
    exact journal.served
  returned := journal.returned_entry proper same
  outbox := rfl
  bounds := Nat.zero_le _
  outboxRoom := journal.outboxRoom
  inboxRoom := room
  running := journal.running_entry goes

/-- The replies go out, and no request comes in. Even if the channel has stopped, the worker goes
on with the requests that it has. -/
theorem flush (proper : handler.Proper) (lawful : channel.Lawful)
    (journal : Journal handler revision state worker done todo sent unsent) :
    (∃ after, worker.flush channel.journaled = (.ok (), after) ∧ after.outbox.cursor = 0 ∧
      Journal handler revision state after done todo (sent ++ unsent) []) ∨
    ∃ fault after, worker.flush channel.journaled = (.error (.channel fault), after) ∧
      ∀ exchange ∈ after.channel.2, ¬ exchange.Stops := by
  cases made : channel.exchange worker.channel.1 worker.outbox.written .empty with
  | mk result next =>
    let entry : Exchange := ⟨worker.outbox.written, 0, result⟩
    have same : entry.responses = worker.outbox.written := rfl
    have goes : ¬ entry.Stops := fun stops => stops.1 rfl
    have nothing : entry.delivered = [] := Exchange.delivered_empty lawful made
    have after := journal.exchanged proper same goes next journal.inboxRoom
    rw [nothing, List.append_nil] at after
    have journaled : channel.journaled.exchange worker.channel worker.outbox.written .empty
        = (result, next, worker.channel.2 ++ [entry]) := Channel.journaled_exchange made
    unfold Worker.flush
    rw [journaled]
    dsimp only
    split
    · exact .inl ⟨_, rfl, rfl, after⟩
    · exact .inl ⟨_, rfl, rfl, after⟩
    · exact .inr ⟨_, _, rfl, journal.running_entry goes⟩

/-- Before a request is answered there is room for a reply of any size. -/
theorem makeRoom (proper : handler.Proper) (lawful : channel.Lawful)
    (journal : Journal handler revision state worker done todo sent unsent) :
    (∃ after sent' unsent', worker.makeRoom channel.journaled = (.ok (), after) ∧
      after.outbox.cursor + revision.messageLimit ≤ after.outbox.buffer.size ∧
      Journal handler revision state after done todo sent' unsent') ∨
    ∃ fault after, worker.makeRoom channel.journaled = (.error (.channel fault), after) ∧
      ∀ exchange ∈ after.channel.2, ¬ exchange.Stops := by
  unfold Worker.makeRoom
  by_cases fits : worker.outbox.fits worker.revision.messageLimit = true
  · rw [if_pos fits]
    refine .inl ⟨worker, sent, unsent, rfl, ?_, journal⟩
    rw [← journal.spoken]
    simpa [Batch.Writer.fits, Layout.fits] using fits
  · rw [if_neg fits]
    rcases journal.flush proper lawful with ⟨after, flushed, empty, kept⟩ | failed
    · refine .inl ⟨after, _, _, flushed, ?_, kept⟩
      rw [empty, Nat.zero_add]
      exact kept.outboxRoom
    · exact .inr failed

/-- The next request is answered, if it is to be answered at once. -/
theorem answer (proper : handler.Proper) {request : Frame}
    (journal : Journal handler revision state worker done (request :: todo) sent unsent)
    (fits : worker.outbox.cursor + revision.messageLimit ≤ worker.outbox.buffer.size) :
    ∃ after unsent', worker.answer handler request = (.ok (), after) ∧
      Journal handler revision state after (done ++ [request]) todo sent unsent' := by
  obtain ⟨written, desk, answered, state', within, size, longer⟩ :=
    worker.desk.answer_reply proper worker.thread request journal.bounds fits
  refine ⟨{ worker with desk, outbox := written },
    unsent ++ ((handler.reply? revision worker.desk.state request).1.map (request, ·)).toList,
    ?_, ?_⟩
  · unfold Worker.answer
    rw [journal.spoken, answered]
  · refine
      { spoken := journal.spoken
        delivered := ?_
        served := ?_
        returned := journal.returned
        outbox := ?_
        bounds := within
        outboxRoom := size ▸ journal.outboxRoom
        inboxRoom := journal.inboxRoom
        running := journal.running }
    · rw [journal.delivered, List.append_assoc, List.singleton_append]
    · rw [Handler.replies_append, journal.served]
      simp [Handler.replies, state']
    · rw [longer, journal.outbox, List.flatMap_append]
      cases (handler.reply? revision worker.desk.state request).1 <;> rfl

/-- All requests that were delivered are answered, in order. -/
theorem answerAll (proper : handler.Proper) (lawful : channel.Lawful)
    (journal : Journal handler revision state worker done todo sent unsent) :
    (∃ after sent' unsent',
      Worker.answerAll channel.journaled handler todo worker = (.ok (), after) ∧
      Journal handler revision state after (done ++ todo) [] sent' unsent') ∨
    ∃ fault after,
      Worker.answerAll channel.journaled handler todo worker = (.error (.channel fault), after) ∧
      ∀ exchange ∈ after.channel.2, ¬ exchange.Stops := by
  induction todo generalizing worker done sent unsent with
  | nil =>
    refine .inl ⟨worker, sent, unsent, rfl, ?_⟩
    rwa [List.append_nil]
  | cons request rest ih =>
    unfold Worker.answerAll
    rcases journal.makeRoom proper lawful with ⟨roomy, _, _, made, fits, kept⟩ | failed
    · obtain ⟨middle, _, answered, next⟩ := kept.answer proper fits
      have later := ih next
      rw [List.append_assoc, List.singleton_append] at later
      rw [made]
      dsimp only
      rw [answered]
      exact later
    · obtain ⟨fault, after, made, running⟩ := failed
      rw [made]
      exact .inr ⟨fault, after, rfl, running⟩

/-- What is left of a run that ended in good order: everything delivered has been answered, every
reply has been sent, and it was the last exchange that reported the channel stopped. -/
structure Closed (handler : Handler τ) (revision : Revision) (state : τ)
    (worker : Worker (σ × List Exchange) τ) : Prop where
  last : ∃ before last, worker.channel.2 = before ++ [last] ∧ last.Stops ∧
    ∀ exchange ∈ before, ¬ exchange.Stops
  served : (handler.replies revision state (worker.channel.2.flatMap Exchange.delivered)).2
    = worker.desk.state
  returned : worker.channel.2.flatMap Exchange.sent
    = (handler.replies revision state (worker.channel.2.flatMap Exchange.delivered)).1.map
      fun pair => pair.2.frame revision

/-- The channel reports that it has stopped while nothing waits. -/
theorem close (proper : handler.Proper)
    (journal : Journal handler revision state worker done [] sent unsent)
    (same : entry.responses = worker.outbox.written) (stops : entry.Stops) (next : σ) :
    Closed handler revision state
      { worker with channel := (next, worker.channel.2 ++ [entry]) } := by
  have delivered : (worker.channel.2 ++ [entry]).flatMap Exchange.delivered = done := by
    have nothing : entry.delivered = [] := by
      unfold Exchange.delivered
      rw [stops.2]
    rw [List.flatMap_append, journal.delivered, List.flatMap_singleton, nothing, List.append_nil,
      List.append_nil]
  refine ⟨⟨_, _, rfl, stops, journal.running⟩, ?_, ?_⟩
  · rw [delivered, journal.served]
  · rw [delivered, journal.served]
    exact journal.returned_entry proper same

/-- A turn answers everything that it brings, closes the run, or fails with the channel. -/
theorem turn (proper : handler.Proper) (lawful : channel.Lawful)
    (journal : Journal handler revision state worker done [] sent unsent) :
    (∃ after done' sent' unsent', worker.turn channel.journaled handler = (.ok true, after) ∧
      Journal handler revision state after done' [] sent' unsent') ∨
    (∃ after, worker.turn channel.journaled handler = (.ok false, after) ∧
      Closed handler revision state after) ∨
    ∃ fault after, worker.turn channel.journaled handler = (.error (.channel fault), after) ∧
      ∀ exchange ∈ after.channel.2, ¬ exchange.Stops := by
  cases made : channel.exchange worker.channel.1 worker.outbox.written worker.inbox with
  | mk result next =>
    let entry : Exchange := ⟨worker.outbox.written, worker.inbox.size, result⟩
    have same : entry.responses = worker.outbox.written := rfl
    have journaled : channel.journaled.exchange worker.channel worker.outbox.written worker.inbox
        = (result, next, worker.channel.2 ++ [entry]) := Channel.journaled_exchange made
    unfold Worker.turn
    rw [journaled]
    cases result with
    | ok given =>
      obtain ⟨count, filled⟩ := given
      obtain ⟨-, size⟩ := lawful _ _ _ _ _ (congrArg Prod.fst made)
      have goes : ¬ entry.Stops := fun stops => nomatch stops.2
      have room : filled.size ≠ 0 := size ▸ journal.inboxRoom
      have after := journal.exchanged proper same goes next room
      rw [List.nil_append] at after
      rcases after.answerAll proper lawful with
        ⟨answered, sent', unsent', answers, kept⟩ | ⟨fault, answered, failed, running⟩
      · change Worker.answerAll channel.journaled handler
          (Batch.frames .request (filled.front count)) _ = _ at answers
        dsimp only
        rw [answers]
        exact .inl ⟨answered, _, sent', unsent', rfl, kept⟩
      · change Worker.answerAll channel.journaled handler
          (Batch.frames .request (filled.front count)) _ = _ at failed
        dsimp only
        rw [failed]
        exact .inr (.inr ⟨fault, answered, rfl, running⟩)
    | error fault =>
      cases fault with
      | stopped =>
        have stops : entry.Stops := ⟨journal.inboxRoom, rfl⟩
        exact .inr (.inl ⟨_, rfl, journal.close proper same stops next⟩)
      | _ =>
        have goes : ¬ entry.Stops := fun stops => nomatch stops.2
        exact .inr (.inr ⟨_, _, rfl, journal.running_entry goes⟩)

/-- A run goes on as long as the channel does, closes in good order, or fails with the channel. -/
theorem run (proper : handler.Proper) (lawful : channel.Lawful) (fuel : Nat)
    (journal : Journal handler revision state worker done [] sent unsent) :
    (∃ after, worker.run channel.journaled handler fuel = (none, after) ∧
      ∀ exchange ∈ after.channel.2, ¬ exchange.Stops) ∨
    (∃ after, worker.run channel.journaled handler fuel = (some (.ok ()), after) ∧
      Closed handler revision state after) ∨
    ∃ fault after,
      worker.run channel.journaled handler fuel = (some (.error (.channel fault)), after) ∧
      ∀ exchange ∈ after.channel.2, ¬ exchange.Stops := by
  induction fuel generalizing worker done sent unsent with
  | zero => exact .inl ⟨worker, rfl, journal.running⟩
  | succ fuel ih =>
    unfold Worker.run
    rcases journal.turn proper lawful with
      ⟨after, _, _, _, turned, kept⟩ | ⟨after, turned, closed⟩ | ⟨fault, after, turned, running⟩
    · rw [turned]
      exact ih kept
    · rw [turned]
      exact .inr (.inl ⟨after, rfl, closed⟩)
    · rw [turned]
      exact .inr (.inr ⟨fault, after, rfl, running⟩)

end Journal

/-- A worker never fails to write a reply. It ends in good order exactly if the channel stops while
requests are asked for, and until then it has sent a reply for every request that was delivered and
that the handler did not keep, once and in order, under the hint and the kind number of the
request; the handler has been given the requests that can be read, and no other. -/
theorem Worker.run_replies {σ τ : Type} {channel : Channel σ} {handler : Handler τ}
    (lawful : channel.Lawful) (proper : handler.Proper) (revision : Revision) (mode : ExchangeMode)
    (thread : String) (first : σ) (state : τ) (fuel : Nat) :
    let worker := Worker.new revision mode thread first state
    let ran := worker.run channel handler fuel
    let exchanges := worker.exchanges channel handler fuel
    let replies := handler.replies revision state (exchanges.flatMap Exchange.delivered)
    (∀ fault, ran.1 ≠ some (.error (.format fault))) ∧
    (ran.1 = some (.ok ()) ↔ ∃ exchange ∈ exchanges, exchange.Stops) ∧
    (ran.1 = some (.ok ()) →
      ran.2.desk.state = replies.2 ∧
      List.Forall₂ (fun reply frame => reply.2.Answers revision reply.1 frame) replies.1
        (exchanges.flatMap Exchange.sent)) := by
  have spec := (Journal.start handler revision mode thread first state).run proper lawful fuel
  intro worker ran exchanges replies
  rcases spec with
    ⟨after, going, running⟩ | ⟨after, ended, closed⟩ | ⟨fault, after, failed, running⟩
  · have plain : ran = _ := run_unjournaled going
    have made : exchanges = after.channel.2 := congrArg (·.2.channel.2) going
    rw [plain, made]
    exact ⟨nofun, iff_of_false nofun fun ⟨exchange, member, stops⟩ =>
      running exchange member stops, nofun⟩
  · have plain : ran = _ := run_unjournaled ended
    have made : exchanges = after.channel.2 := congrArg (·.2.channel.2) ended
    rw [plain]
    clear_value exchanges
    subst made
    obtain ⟨before, last, whole, stops, -⟩ := closed.last
    have member : last ∈ after.channel.2 := by
      rw [whole]
      exact List.mem_append_right _ (List.mem_singleton_self last)
    refine ⟨nofun, iff_of_true rfl ⟨last, member, stops⟩, fun _ => ⟨closed.served.symm, ?_⟩⟩
    rw [closed.returned, List.forall₂_map_right_iff, List.forall₂_same]
    exact fun reply member => (proper.sendable_replies reply member).answers
  · have plain : ran = _ := run_unjournaled failed
    have made : exchanges = after.channel.2 := congrArg (·.2.channel.2) failed
    rw [plain, made]
    exact ⟨nofun, iff_of_false nofun fun ⟨exchange, member, stops⟩ =>
      running exchange member stops, nofun⟩

/-- Delivers one batch after the other, and stops behind the last. -/
def reel : Channel (List Bytes) where
  exchange batches _ buffer :=
    match batches with
    | [] => (.error .stopped, [])
    | batch :: rest =>
      if fits : 0 + batch.length ≤ buffer.size then
        (.ok (batch.length, buffer.overwrite 0 batch fits), rest)
      else (.ok (0, buffer), batch :: rest)

theorem lawful_reel : reel.Lawful := by
  intro batches responses buffer count filled given
  unfold reel at given
  dsimp only at given
  split at given
  · cases given
  · split at given <;> cases given
    · next fits =>
      rw [Nat.zero_add] at fits
      exact ⟨fits, rfl⟩
    · exact ⟨Nat.zero_le _, rfl⟩

/-- Grants a request, keeps the next, and so on by turns. -/
def alternating : Handler Bool := fun keeps _ draft =>
  (if keeps then .deferred else .complete .success 0 draft, !keeps)

theorem proper_alternating : Handler.Proper alternating where
  finishes keeps _ := by cases keeps <;> nofun
  made keeps request status information draft same := by
    cases keeps <;> cases same
    exact .start

/-- Three requests that can be read, and between them one of a kind that nobody knows. -/
def mixedBatch : Bytes :=
  let closing : Request := ⟨.v1, ⟨5⟩, .close ⟨7, 0⟩, []⟩
  closing.encode ++ (⟨1, 80, 77, ⟨6⟩⟩ : Header).put ++ List.replicate 64 0 ++ closing.encode
    ++ closing.encode

theorem Worker.run_replies_mixedBatch :
    let worker := Worker.new .v1 .single "worker" [mixedBatch] false
    let exchanges := worker.exchanges reel alternating 2
    let replies := alternating.replies .v1 false (exchanges.flatMap Exchange.delivered)
    (worker.run reel alternating 2).1 = some (.ok ()) ∧ replies.1.length = 3 ∧
      List.Forall₂ (fun reply frame => reply.2.Answers .v1 reply.1 frame) replies.1
        (exchanges.flatMap Exchange.sent) := by
  intro worker exchanges replies
  have spec := run_replies lawful_reel proper_alternating .v1 .single "worker" [mixedBatch] false 2
  have ended : (worker.run reel alternating 2).1 = some (.ok ()) := by decide +kernel
  have three : replies.1.length = 3 := by decide +kernel
  exact ⟨ended, three, (spec.2.2 ended).2⟩

end FileBroker
