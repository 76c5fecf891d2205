import FileBroker.Proofs.Worker.Journal

/-!
What the counters of a worker say. Every request leaves the worker in one of four ways, and each way
is counted; but a request that cannot be read is answered without a response being counted, so that
the counters balance only as long as every request can be read.
-/
namespace FileBroker

/-! ### What is counted -/

/-- How a request leaves the worker. -/
inductive Worker.Exit where
  /-- It could not be read, and was refused. -/
  | unread
  /-- The handler kept it for later. -/
  | kept
  /-- What the handler completed was sent. -/
  | built
  /-- What the handler completed could not be built, and the request was refused. -/
  | unbuilt
  deriving DecidableEq

open Worker (Exit)

theorem Worker.Exit.counts (exit : Exit) :
    [exit].count .unread + [exit].count .kept + [exit].count .built + [exit].count .unbuilt
      = 1 := by
  cases exit <;> rfl

/-- The way a request is bound to leave. -/
def Handler.exit {τ : Type} (handler : Handler τ) (revision : Revision) (state : τ)
    (request : Frame) : Exit :=
  match Request.decode request revision with
  | .error _ => .unread
  | .ok asked =>
    match (handler state asked (.ofRequest asked)).1 with
    | .complete status information draft =>
      match (draft.setStatus status information).build with
      | .ok _ => .built
      | .error _ => .unbuilt
    | _ => .kept

namespace Worker

/-- What a worker has been seen to do. -/
structure Record where
  /-- The requests that were taken up, each with the way it left. -/
  taken : List (Frame × Exit)
  /-- The requests that were delivered and have not been taken up. -/
  waiting : List Frame
  /-- The messages that were produced, by the loop and for deferred requests. -/
  produced : List Frame
  /-- The responses that were sent for deferred requests. -/
  sent : List Response

namespace Record

def blank : Record := ⟨[], [], [], []⟩

/-- How many requests left in one way. -/
def count (record : Record) (exit : Exit) : Nat := (record.taken.map Prod.snd).count exit

theorem count_concat (record : Record) (request : Frame) (exit way : Exit) (waiting : List Frame)
    (produced : List Frame) :
    count { record with taken := record.taken ++ [(request, exit)], waiting, produced } way
      = record.count way + [exit].count way := by
  unfold count
  rw [List.map_append, List.count_append]
  rfl

/-- Every request that was taken up left in one of the four ways. -/
theorem length_taken (record : Record) :
    record.taken.length = record.count .unread + record.count .kept + record.count .built
      + record.count .unbuilt := by
  unfold count
  induction record.taken with
  | nil => rfl
  | cons pair rest ih =>
    obtain ⟨request, exit⟩ := pair
    cases exit <;> simp at ih ⊢ <;> omega

end Record

variable {σ τ : Type}

/-- The bytes that a response to a deferred request is sent as. -/
def letter (response : Response) : Bytes :=
  let room := Buffer.filled (Layout.alignUp response.encodedSize) 0
  match (Batch.Writer.ofBuffer room).pushResponse response with
  | .error _ => []
  | .ok writer => writer.written

/-- The points between two requests of a worker that was begun as `start`. At each of them responses
to deferred requests may be sent. -/
inductive Underway (channel : Channel σ) (handler : Handler τ) (start : Worker σ τ) :
    Worker σ τ → Record → Prop where
  | start : Underway channel handler start start .blank
  | fetch {worker record count inbox next} : Underway channel handler start worker record →
    record.waiting = [] →
    channel.exchange worker.channel worker.outbox.written worker.inbox
      = (.ok (count, inbox), next) →
    Underway channel handler start
      { worker with
        channel := next
        inbox
        outbox := { worker.outbox with cursor := 0 } }
      { record with waiting := Batch.frames .request (inbox.front count) }
  | answer {worker record request rest roomy after} :
    Underway channel handler start worker record → record.waiting = request :: rest →
    worker.makeRoom channel = (.ok (), roomy) → roomy.answer handler request = (.ok (), after) →
    Underway channel handler start after
      { record with
        taken := record.taken ++
          [(request, handler.exit worker.revision worker.desk.state request)]
        waiting := rest
        produced := record.produced ++
          Batch.frames .response (after.outbox.written.drop roomy.outbox.written.length) }
  | send {worker record response after} : Underway channel handler start worker record →
    worker.sendResponse channel response = (.ok (), after) →
    Underway channel handler start after
      { record with
        produced := record.produced ++ Batch.frames .response (letter response)
        sent := record.sent ++ [response] }

end Worker

open Worker (Exit Record Underway)

/-- What the counters say of what was done. -/
structure Desk.Balances {τ : Type} (desk : Desk τ) (record : Record) : Prop where
  requests : desk.requests = record.taken.length
  deferred : desk.deferred = record.count .kept
  responses : desk.responses = record.count .built + record.count .unbuilt + record.sent.length
  invalid : desk.invalid = record.count .unread + record.count .unbuilt
  produced : record.produced.length
    = record.count .unread + record.count .built + record.count .unbuilt + record.sent.length

/-! ### One request -/

section Answer

variable {τ : Type} {handler : Handler τ}

/-- The four ways, and what is replied on each. -/
theorem Handler.exit_cases (proper : handler.Proper) (revision : Revision) (state : τ)
    (request : Frame) :
    (∃ fault, Request.decode request revision = .error fault ∧
      handler.exit revision state request = .unread ∧
      (handler.reply? revision state request).1.isSome) ∨
    ∃ asked, Request.decode request revision = .ok asked ∧
      ((∃ after, handler state asked (.ofRequest asked) = (.deferred, after) ∧
          handler.exit revision state request = .kept ∧
          (handler.reply? revision state request).1 = none) ∨
        ∃ status information draft after,
          handler state asked (.ofRequest asked) = (.complete status information draft, after) ∧
          (handler.reply? revision state request).1.isSome ∧
          ((∃ response, Desk.completed revision draft status information = .ok response ∧
              handler.exit revision state request = .built) ∨
            ∃ fault, Desk.completed revision draft status information = .error fault ∧
              handler.exit revision state request = .unbuilt)) := by
  unfold exit reply?
  cases decoded : Request.decode request revision with
  | error fault => exact .inl ⟨fault, rfl, rfl, rfl⟩
  | ok asked =>
    obtain ⟨spoken, -, -⟩ := Request.header_of_decode decoded
    refine .inr ⟨asked, rfl, ?_⟩
    dsimp only
    cases reacts : handler state asked (.ofRequest asked) with
    | mk reaction after =>
      cases reaction with
      | crashed => exact absurd (congrArg Prod.fst reacts) (proper.finishes state asked)
      | deferred => exact .inl ⟨after, rfl, rfl, rfl⟩
      | complete status information draft =>
        have made := proper.made _ _ _ _ _ (congrArg Prod.fst reacts)
        have completed := Response.completed_of_made made status information
        rw [spoken] at completed
        refine .inr ⟨status, information, draft, after, rfl, ?_⟩
        rw [completed]
        dsimp only
        cases built : (draft.setStatus status information).build with
        | ok response => exact ⟨rfl, .inl ⟨response, rfl, rfl⟩⟩
        | error fault => exact ⟨rfl, .inr ⟨fault, rfl, rfl⟩⟩

theorem Desk.wrote_ok {desk after : Desk τ} {pushed : Except FormatError Batch.Writer}
    {written : Batch.Writer} (wrote : desk.wrote pushed = (.ok written, after)) :
    after = { desk with responses := desk.responses + 1 } := by
  unfold Desk.wrote at wrote
  split at wrote <;> cases wrote
  rfl

/-- Each way to leave is counted in its own way. -/
theorem Desk.counts_answer (proper : handler.Proper) {revision : Revision} {thread : String}
    {desk after : Desk τ} {writer written : Batch.Writer} {request : Frame}
    (answered : desk.answer handler revision thread writer request = (.ok written, after)) :
    let exits := [handler.exit revision desk.state request]
    after.requests = desk.requests + 1 ∧
    after.deferred = desk.deferred + exits.count .kept ∧
    after.responses = desk.responses + exits.count .built + exits.count .unbuilt ∧
    after.invalid = desk.invalid + exits.count .unread + exits.count .unbuilt := by
  unfold answer at answered
  rcases handler.exit_cases proper revision desk.state request with
    ⟨fault, unread, exit, -⟩ | ⟨asked, decoded, kept | completed⟩
  · rw [exit]
    rw [unread] at answered
    obtain ⟨-, rfl⟩ := Prod.mk.inj answered
    exact ⟨rfl, rfl, rfl, rfl⟩
  · obtain ⟨state, reacts, exit, -⟩ := kept
    rw [exit]
    rw [decoded] at answered
    dsimp only at answered
    rw [reacts] at answered
    cases answered
    exact ⟨rfl, rfl, rfl, rfl⟩
  · obtain ⟨status, information, draft, state, reacts, -, how⟩ := completed
    rw [decoded] at answered
    dsimp only at answered
    rw [reacts] at answered
    dsimp only at answered
    rcases how with ⟨response, built, exit⟩ | ⟨fault, unbuilt, exit⟩
    · rw [built] at answered
      rw [exit, wrote_ok answered]
      exact ⟨rfl, rfl, rfl, rfl⟩
    · rw [unbuilt] at answered
      rw [exit, wrote_ok answered]
      exact ⟨rfl, rfl, rfl, rfl⟩

/-- One message is written for a request, unless the handler keeps it. -/
theorem Desk.frames_answer (proper : handler.Proper) {revision : Revision} (thread : String)
    (desk : Desk τ) (request : Frame) {writer : Batch.Writer} (bounds : writer.InBounds)
    (fits : writer.cursor + revision.messageLimit ≤ writer.buffer.size) :
    ∃ written after, desk.answer handler revision thread writer request = (.ok written, after) ∧
      written.InBounds ∧ written.buffer.size = writer.buffer.size ∧
      (Batch.frames .response (written.written.drop writer.written.length)).length
        + [handler.exit revision desk.state request].count .kept = 1 := by
  obtain ⟨written, after, answered, -, within, size, longer⟩ :=
    desk.answer_reply proper thread request bounds fits
  refine ⟨written, after, answered, within, size, ?_⟩
  have sized : ∀ reply ∈ (handler.reply? revision desk.state request).1.toList,
      Frame.Sized .response (reply.message revision) := fun reply given =>
    (proper.sendable (Option.mem_toList.1 given)).sized
  rw [longer, List.drop_left, Batch.frames_padded sized, List.length_map]
  rcases handler.exit_cases proper revision desk.state request with
    ⟨_, -, exit, replied⟩ | ⟨_, -, ⟨_, -, exit, none⟩ | ⟨_, _, _, _, -, replied, how⟩⟩
  · obtain ⟨reply, some⟩ := Option.isSome_iff_exists.1 replied
    rw [exit, some]
    rfl
  · rw [exit, none]
    rfl
  · obtain ⟨reply, some⟩ := Option.isSome_iff_exists.1 replied
    rw [some]
    rcases how with ⟨_, -, exit⟩ | ⟨_, -, exit⟩ <;>
      · rw [exit]
        rfl

end Answer

/-- A response that can be sent for a deferred request is one message. -/
theorem Worker.length_frames_letter {response : Response} {writer : Batch.Writer}
    (pushed : (Batch.Writer.ofBuffer (.filled (Layout.alignUp response.encodedSize) 0)).pushResponse
      response = .ok writer) : (Batch.frames .response (letter response)).length = 1 := by
  have short := Batch.Writer.length_le_of_push pushed
  obtain ⟨alone, -⟩ := Batch.Writer.push_eq_ok (Nat.zero_le _) pushed
  rw [response.length_message] at short
  have cut := Batch.frames_of_split?_eq_some
    (Frame.split?_pad (Response.sized_message short) [])
  rw [List.append_nil, Batch.frames_nil] at cut
  unfold letter
  dsimp only
  rw [pushed]
  dsimp only
  rw [alone]
  exact congrArg List.length cut

/-! ### Any number of requests -/

namespace Worker

variable {σ τ : Type} {channel : Channel σ} {handler : Handler τ} {revision : Revision}
  {worker roomy after : Worker σ τ} {record : Record}

/-- Making room is no answer. -/
theorem desk_makeRoom (channel : Channel σ) (worker : Worker σ τ) :
    (worker.makeRoom channel).2.desk = worker.desk := by
  unfold makeRoom
  split
  · rfl
  · unfold flush
    dsimp only
    split <;> rfl

/-- A worker between two requests: it has a buffer for a response of any size, and its counters
balance with what it has done. -/
structure Settled (revision : Revision) (worker : Worker σ τ) (record : Record) : Prop where
  spoken : worker.revision = revision
  bounds : worker.outbox.InBounds
  room : revision.messageLimit ≤ worker.outbox.buffer.size
  balances : worker.desk.Balances record

namespace Settled

theorem new (mode : ExchangeMode) (thread : String) (first : σ) (state : τ) :
    Settled revision (.new revision mode thread first state) .blank where
  spoken := rfl
  bounds := Nat.zero_le _
  room := mode.messageLimit_le_bufferSize revision
  balances := ⟨rfl, rfl, rfl, rfl, rfl⟩

theorem makeRoom (settled : Settled revision worker record)
    (made : worker.makeRoom channel = (.ok (), roomy)) :
    Settled revision roomy record ∧
      roomy.outbox.cursor + revision.messageLimit ≤ roomy.outbox.buffer.size := by
  unfold Worker.makeRoom at made
  split at made
  · next fits =>
    cases made
    refine ⟨settled, ?_⟩
    rw [settled.spoken] at fits
    simpa [Batch.Writer.fits, Layout.fits] using fits
  · unfold flush at made
    dsimp only at made
    split at made <;> cases made <;>
      exact ⟨⟨settled.spoken, Nat.zero_le _, settled.room, settled.balances⟩,
        Nat.le_trans (Nat.le_of_eq (Nat.zero_add _)) settled.room⟩

theorem answer (proper : handler.Proper) (settled : Settled revision roomy record)
    (fits : roomy.outbox.cursor + revision.messageLimit ≤ roomy.outbox.buffer.size)
    (request : Frame) (waiting : List Frame) :
    ∃ after, roomy.answer handler request = (.ok (), after) ∧
      Settled revision after { record with
        taken := record.taken ++ [(request, handler.exit revision roomy.desk.state request)]
        waiting
        produced := record.produced ++
          Batch.frames .response (after.outbox.written.drop roomy.outbox.written.length) } := by
  obtain ⟨written, desk, answered, within, size, one⟩ :=
    roomy.desk.frames_answer proper roomy.thread request settled.bounds fits
  obtain ⟨requests, deferred, responses, invalid⟩ := Desk.counts_answer proper answered
  have before := settled.balances
  refine ⟨{ roomy with desk, outbox := written }, ?_, settled.spoken, within,
    size ▸ settled.room, ?_⟩
  · unfold Worker.answer
    rw [settled.spoken, answered]
  · constructor <;> simp only [Record.count_concat, List.length_append, List.length_singleton]
    · rw [requests, before.requests]
    · rw [deferred, before.deferred]
    · rw [responses, before.responses]
      omega
    · rw [invalid, before.invalid]
      omega
    · have way := (handler.exit revision roomy.desk.state request).counts
      have produced := before.produced
      omega

/-- A response to a deferred request is counted when it has been sent. -/
theorem send (settled : Settled revision worker record) {response : Response}
    (sent : worker.sendResponse channel response = (.ok (), after)) :
    Settled revision after { record with
      produced := record.produced ++ Batch.frames .response (letter response)
      sent := record.sent ++ [response] } := by
  have before := settled.balances
  unfold sendResponse at sent
  dsimp only at sent
  split at sent
  · cases sent
  · next writer pushed =>
    have one := length_frames_letter pushed
    split at sent
    · cases sent
    · cases sent
      refine ⟨settled.spoken, settled.bounds, settled.room, before.requests, before.deferred, ?_,
        before.invalid, ?_⟩
      · rw [List.length_append, List.length_singleton, ← Nat.add_assoc]
        exact congrArg (· + 1) before.responses
      · rw [List.length_append, List.length_append, List.length_singleton, one, before.produced]
        exact Nat.add_assoc ..

end Settled

/-- The counters balance at every point between two requests. -/
theorem Underway.settled (proper : handler.Proper) {start : Worker σ τ}
    (fresh : Settled revision start .blank)
    (underway : Underway channel handler start worker record) :
    Settled revision worker record := by
  induction underway with
  | start => exact fresh
  | fetch _ _ _ before =>
    exact ⟨before.spoken, Nat.zero_le _, before.room, before.balances.requests,
      before.balances.deferred, before.balances.responses, before.balances.invalid,
      before.balances.produced⟩
  | @answer worker record request rest roomy after _ _ made answered before =>
    obtain ⟨ready, fits⟩ := before.makeRoom made
    have desk := desk_makeRoom channel worker
    rw [made] at desk
    obtain ⟨after', same, settled⟩ := ready.answer proper fits request rest
    rw [answered] at same
    cases same
    rw [before.spoken, ← desk]
    exact settled
  | send _ sent before => exact before.send sent

/-! ### Whole runs -/

/-- All that was delivered is answered, or room for the next answer cannot be made. -/
theorem Underway.answerAll (proper : handler.Proper) {start : Worker σ τ}
    (fresh : Settled revision start .blank)
    (underway : Underway channel handler start worker record) (alone : record.sent = []) :
    ∃ last ended, Underway channel handler start last ended ∧ ended.sent = [] ∧
      (Worker.answerAll channel handler record.waiting worker).2.desk = last.desk ∧
      ((Worker.answerAll channel handler record.waiting worker).1 = .ok () →
        (Worker.answerAll channel handler record.waiting worker).2 = last ∧
          ended.waiting = []) := by
  generalize delivered : record.waiting = requests
  induction requests generalizing worker record with
  | nil => exact ⟨worker, record, underway, alone, rfl, fun _ => ⟨rfl, delivered⟩⟩
  | cons request rest ih =>
    have settled := underway.settled proper fresh
    have kept := desk_makeRoom channel worker
    unfold Worker.answerAll
    cases made : worker.makeRoom channel with
    | mk result roomy =>
      rw [made] at kept
      cases result with
      | error fault =>
        refine ⟨worker, record, underway, alone, kept, fun finished => ?_⟩
        cases finished
      | ok =>
        obtain ⟨ready, fits⟩ := settled.makeRoom made
        obtain ⟨after, answered, -⟩ := ready.answer proper fits request rest
        have next := underway.answer delivered made answered
        dsimp only
        rw [answered]
        exact ih next alone rfl

/-- A turn that goes on comes to a point where all that was delivered has been answered; at the end
of any turn the counters are those of such a point. -/
theorem Underway.turn (proper : handler.Proper) {start : Worker σ τ}
    (fresh : Settled revision start .blank)
    (underway : Underway channel handler start worker record) (alone : record.sent = [])
    (done : record.waiting = []) :
    ∃ last ended, Underway channel handler start last ended ∧ ended.sent = [] ∧
      (worker.turn channel handler).2.desk = last.desk ∧
      ((worker.turn channel handler).1 = .ok true →
        (worker.turn channel handler).2 = last ∧ ended.waiting = []) := by
  unfold Worker.turn
  cases made : channel.exchange worker.channel worker.outbox.written worker.inbox with
  | mk result next =>
    cases result with
    | error fault => cases fault <;> exact ⟨worker, record, underway, alone, rfl, nofun⟩
    | ok given =>
      obtain ⟨count, inbox⟩ := given
      obtain ⟨last, ended, point, still, desk, whole⟩ :=
        (underway.fetch done made).answerAll proper fresh alone
      refine ⟨last, ended, point, still, ?_⟩
      dsimp only at desk whole ⊢
      split
      · next answered =>
        rw [answered] at desk whole
        exact ⟨desk, fun _ => whole rfl⟩
      · next failed =>
        rw [failed] at desk
        exact ⟨desk, nofun⟩

/-- Whenever a run is looked at, the counters are those of a point between two requests. -/
theorem Underway.run (proper : handler.Proper) {start : Worker σ τ}
    (fresh : Settled revision start .blank)
    (underway : Underway channel handler start worker record) (alone : record.sent = [])
    (done : record.waiting = []) (fuel : Nat) :
    ∃ last ended, Underway channel handler start last ended ∧ ended.sent = [] ∧
      (worker.run channel handler fuel).2.desk = last.desk := by
  induction fuel generalizing worker record with
  | zero => exact ⟨worker, record, underway, alone, rfl⟩
  | succ fuel ih =>
    obtain ⟨last, ended, point, still, desk, whole⟩ := underway.turn proper fresh alone done
    unfold Worker.run
    split
    · next turned =>
      rw [turned] at whole
      obtain ⟨rfl, nothing⟩ := whole rfl
      exact ih point still nothing
    · next turned =>
      rw [turned] at desk
      exact ⟨last, ended, point, still, desk⟩
    · next turned =>
      rw [turned] at desk
      exact ⟨last, ended, point, still, desk⟩

/-- Over any channel and with any handler that never gives up and completes requests with drafts
made for them, at every point between two requests: as many requests are counted as were taken up,
as many deferred as the handler kept, and every message that was produced is counted as a response,
save for the refusals of requests that could not be read. Those are what the requests and the
responses that were sent for deferred requests differ by from the responses and the deferrals, so
that the counters balance exactly as long as every request could be read. A run that is looked at
after any number of turns is at such a point. -/
theorem counters_balance_but_unread (channel : Channel σ) (proper : handler.Proper)
    (revision : Revision) (mode : ExchangeMode) (thread : String) (first : σ) (state : τ) :
    let start := Worker.new revision mode thread first state
    (∀ worker record, Underway channel handler start worker record →
      worker.desk.requests = record.taken.length ∧
      worker.desk.deferred = record.count .kept ∧
      worker.desk.invalid = record.count .unread + record.count .unbuilt ∧
      worker.desk.responses + record.count .unread = record.produced.length ∧
      worker.desk.requests + record.sent.length
        = worker.desk.responses + worker.desk.deferred + record.count .unread ∧
      (worker.desk.requests + record.sent.length = worker.desk.responses + worker.desk.deferred ↔
        ∀ pair ∈ record.taken, pair.2 ≠ .unread)) ∧
    ∀ fuel, ∃ worker record, Underway channel handler start worker record ∧ record.sent = [] ∧
      (start.run channel handler fuel).2.desk = worker.desk := by
  intro start
  have fresh : Settled revision start .blank := .new mode thread first state
  refine ⟨fun worker record underway => ?_, Underway.start.run proper fresh rfl rfl⟩
  obtain ⟨requests, deferred, responses, invalid, produced⟩ :=
    (underway.settled proper fresh).balances
  have whole := record.length_taken
  have read : record.count .unread = 0 ↔ ∀ pair ∈ record.taken, pair.2 ≠ .unread := by
    rw [Record.count, List.count_eq_zero, List.mem_map, not_exists]
    simp
  rw [← read]
  refine ⟨requests, deferred, invalid, ?_, ?_, ?_⟩ <;> omega

/-- Of four requests one cannot be read. It is answered like two others, and not counted. -/
theorem counters_balance_but_unread_mixedBatch :
    ∃ last record,
      Underway reel alternating (.new .v1 .single "worker" [mixedBatch] false) last record ∧
      last.desk.toList
        = [("requests", 4), ("responses", 2), ("deferred", 1), ("invalid", 1)] ∧
      record.sent = [] ∧ record.produced.length = 3 := by
  have counted :
      ((Worker.new .v1 .single "worker" [mixedBatch] false).run reel alternating 2).2.desk.toList
        = [("requests", 4), ("responses", 2), ("deferred", 1), ("invalid", 1)] := by
    decide +kernel
  obtain ⟨points, ends⟩ :=
    counters_balance_but_unread reel proper_alternating .v1 .single "worker" [mixedBatch] false
  obtain ⟨last, record, underway, alone, same⟩ := ends 2
  obtain ⟨-, -, -, produced, balance, -⟩ := points last record underway
  rw [same] at counted
  refine ⟨last, record, underway, counted, alone, ?_⟩
  simp only [Desk.toList, List.cons.injEq, Prod.mk.injEq, true_and, and_true] at counted
  rw [alone, List.length_nil] at balance
  omega

end Worker
end FileBroker
