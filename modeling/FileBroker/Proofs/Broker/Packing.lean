import FileBroker.Proofs.Broker.Accounts
import FileBroker.Proofs.Broker.Attempts
import FileBroker.Proofs.Broker.Line
import FileBroker.Proofs.Request.Draft

/-!
What an exchange takes from the line: the longest front that fits the buffer of the worker, or
nothing when it is refused. An operation that is taken is written, so that none is ever handed back.
-/
namespace FileBroker

namespace Broker

variable {broker : Broker}

/-- The requests that a worker reads in the result of an exchange. -/
def requestsOf : Except ChannelError (Nat × Buffer) → List Frame
  | .ok (count, filled) => Batch.frames .request (filled.front count)
  | .error _ => []

/-- The requests that a worker reads once its exchange has ended; none if that never happens. -/
def requestsRead (ended : Option (Except ChannelError (Nat × Buffer) × Instant)) : List Frame :=
  ended.elim [] fun ended => requestsOf ended.1

/-! ### The course of an exchange -/

/-- The responses are taken in before anything else is done. -/
theorem exchange_ingests_first (routine : Routine) (now : Instant) (responses : Bytes)
    (buffer : Buffer) (wait : Bool) :
    broker.exchange routine now responses buffer wait
      = (broker.ingest routine now responses).2.exchange routine now [] buffer wait := by
  have nothing : ((broker.ingest routine now responses).2.ingest routine now []).2
      = (broker.ingest routine now responses).2 := by
    unfold ingest
    rw [Batch.frames_nil]
    rfl
  have begins : (broker.ingest routine now responses).2.beginExchange routine now [] buffer.size
      = broker.beginExchange routine now responses buffer.size := by
    unfold beginExchange
    dsimp only
    rw [nothing]
  unfold exchange
  rw [begins]

section Course

variable (routine : Routine) (now : Instant) (responses : Bytes) {buffer : Buffer} (wait : Bool)

variable (broker) in
theorem unmoved_beginExchange (room : Nat) : Unmoved (broker.ingest routine now responses).2
    (broker.beginExchange routine now responses room).2 := by
  unfold beginExchange
  dsimp only
  split
  · exact .refl _
  · split <;> exact unmoved_resumeDue _ routine now

/-- An empty buffer asks for no requests. -/
theorem exchange_empty (empty : buffer.size = 0) :
    broker.exchange routine now responses buffer wait
      = (some (.ok (0, buffer), now), (broker.ingest routine now responses).2) := by
  unfold exchange beginExchange
  dsimp only
  rw [if_pos empty]

theorem config_begun {tick : Span} :
    ((broker.ingest routine now responses).2.resumeDue routine now tick).2.config
      = broker.config :=
  ((sameLine_ingest broker routine now responses).trans
    (unmoved_resumeDue _ routine now tick).toSameLine).config

theorem beginExchange_cramped {room : Nat} (some' : 0 < room)
    (small : room < broker.config.revision.messageLimit) :
    broker.beginExchange routine now responses room
      = (.error (.bufferTooSmall broker.config.revision.messageLimit room),
        ((broker.ingest routine now responses).2.resumeDue routine now).2) := by
  unfold beginExchange
  dsimp only
  rw [if_neg (by omega), config_begun, if_neg]
  simpa [Layout.fits] using small

theorem beginExchange_roomy {room : Nat} (roomy : broker.config.revision.messageLimit ≤ room)
    {tick : Span} :
    broker.beginExchange routine now responses room tick
      = (.ok true, ((broker.ingest routine now responses).2.resumeDue routine now tick).2) := by
  have bound := broker.config.revision.messageLimit_ge
  unfold beginExchange
  dsimp only
  rw [if_neg (by omega), config_begun, if_pos]
  simpa [Layout.fits] using roomy

/-- A buffer that some request would not fit into is refused. -/
theorem exchange_cramped (some' : 0 < buffer.size)
    (small : buffer.size < broker.config.revision.messageLimit) :
    broker.exchange routine now responses buffer wait
      = (some (.error (.bufferTooSmall broker.config.revision.messageLimit buffer.size), now),
        ((broker.ingest routine now responses).2.resumeDue routine now).2) := by
  unfold exchange
  rw [beginExchange_cramped routine now responses some' small]

/-- Nothing is fetched from a stopped queue. -/
theorem exchange_stopped {ingested : Broker}
    (takes : (broker.ingest routine now responses).2 = ingested)
    (stopped : ingested.queue.stopped = true)
    (roomy : broker.config.revision.messageLimit ≤ buffer.size) :
    broker.exchange routine now responses buffer wait
      = (some (.error .stopped, now), (ingested.resumeDue routine now).2) := by
  subst takes
  have still := (unmoved_resumeDue _ routine now).stopped.trans stopped
  unfold exchange pollExchange Queue.dequeue
  rw [beginExchange_roomy routine now responses roomy]
  dsimp only
  rw [if_pos still]

/-- A worker that is refused gets not a single byte, and gets it at once; nobody moves. -/
theorem exchange_refused {ingested : Broker}
    (takes : (broker.ingest routine now responses).2 = ingested)
    (refused : buffer.size < broker.config.revision.messageLimit ∨ ingested.queue.stopped = true) :
    Unmoved ingested (broker.exchange routine now responses buffer wait).2 ∧
      ∃ result, (broker.exchange routine now responses buffer wait).1 = some (result, now) ∧
        ∀ count filled, result = .ok (count, filled) → count = 0 := by
  by_cases roomy : broker.config.revision.messageLimit ≤ buffer.size
  · have stopped := refused.resolve_left (Nat.not_lt.2 roomy)
    rw [exchange_stopped routine now responses wait takes stopped roomy]
    exact ⟨unmoved_resumeDue _ routine now, _, rfl, by simp⟩
  · subst takes
    rcases Nat.eq_zero_or_pos buffer.size with empty | some'
    · rw [exchange_empty routine now responses wait empty]
      exact ⟨.refl _, _, rfl, by simp [eq_comm]⟩
    · rw [exchange_cramped routine now responses wait some' (Nat.lt_of_not_le roomy)]
      exact ⟨unmoved_resumeDue _ routine now, _, rfl, by simp⟩

/-- Without a byte there is no request. -/
theorem requestsOf_of_count {result : Except ChannelError (Nat × Buffer)}
    (nothing : ∀ count filled, result = .ok (count, filled) → count = 0) :
    requestsOf result = [] := by
  rcases result with error | ⟨count, filled⟩
  · rfl
  · obtain rfl := nothing count filled rfl
    exact Batch.frames_nil .request

section Waiting

variable {routine now responses wait} {ingested : Broker} {tick : Span}
  (takes : (broker.ingest routine now responses).2 = ingested)
  (running : ingested.queue.stopped = false) (nothing : ingested.queue.pending = [])
  (roomy : broker.config.revision.messageLimit ≤ buffer.size)

include takes running nothing roomy

/-- A worker that finds nothing pending attempts what is due, sleeps until it is woken, and attempts
what is due then. Whether it sleeps at all or not, the attempts at the end come when its sleep is
over. -/
theorem exchange_idle {begun : Broker} (begins : (ingested.resumeDue routine now tick).2 = begun)
    {wake : Instant}
    (wakes : Instant.earlier (begun.exchangeDeadline now wait) begun.queue.nextRetry = some wake) :
    broker.exchange routine now responses buffer wait tick
      = (some (.ok (0, buffer), max now wake),
        (begun.resumeDue routine (max now wake + tick) tick).2) := by
  subst takes begins
  have unmoved := unmoved_resumeDue (broker.ingest routine now responses).2 routine now tick
  have polls := fun clock => pollExchange_idle (unmoved.stopped.trans running)
    (unmoved.pending.trans nothing) wakes routine clock buffer tick
  unfold exchange
  rw [beginExchange_roomy routine now responses roomy]
  dsimp only
  rw [polls now]
  by_cases awake : wake ≤ now
  · rw [if_pos awake, Nat.max_eq_left awake]
  · rw [if_neg awake, Nat.max_eq_right (Nat.le_of_not_le awake)]
    dsimp only
    rw [polls wake, if_pos (Nat.le_refl wake)]

/-- Where nothing wakes it, it gets no result at all. -/
theorem exchange_endless {begun : Broker} (begins : (ingested.resumeDue routine now tick).2 = begun)
    (endless : Instant.earlier (begun.exchangeDeadline now wait) begun.queue.nextRetry = none) :
    broker.exchange routine now responses buffer wait tick = (none, begun) := by
  subst takes begins
  have unmoved := unmoved_resumeDue (broker.ingest routine now responses).2 routine now tick
  unfold exchange
  rw [beginExchange_roomy routine now responses roomy]
  dsimp only
  rw [pollExchange_endless (unmoved.stopped.trans running) (unmoved.pending.trans nothing) endless]

end Waiting

/-- Nothing ends the wait of a worker: it has all the time that there is, no operation is pending,
and none is left that could be attempted again. -/
structure WaitsForever (routine : Routine) (ingested : Broker) (now : Instant) (wait : Bool) :
    Prop where
  waits : wait = true
  untimed : now.after? ingested.config.exchangeTimeout = none
  nothing : ingested.queue.pending = []
  unparked : (ingested.resumeDue routine now).2.queue.nextRetry = none

/-- Nothing is pending, and the clock or a retry wakes whoever waits, or nothing ever does. -/
theorem waitsForever_iff {ingested begun : Broker}
    (begins : (ingested.resumeDue routine now).2 = begun) (nothing : ingested.queue.pending = []) :
    ingested.WaitsForever routine now wait ↔
      Instant.earlier (begun.exchangeDeadline now wait) begun.queue.nextRetry = none := by
  subst begins
  have config := (unmoved_resumeDue ingested routine now).config
  have either : ∀ deadline retry, Instant.earlier deadline retry = none ↔
      deadline = none ∧ retry = none := by
    intro deadline retry
    cases deadline <;> cases retry <;> simp [Instant.earlier]
  rw [either, exchangeDeadline, config]
  constructor
  · rintro ⟨rfl, untimed, -, unparked⟩
    exact ⟨untimed, unparked⟩
  · rintro ⟨untimed, unparked⟩
    cases wait with
    | false => cases untimed
    | true => exact ⟨rfl, untimed, nothing, unparked⟩

/-- A worker whose wait has no end gets nothing, and nobody moves. -/
theorem exchange_forever {ingested : Broker}
    (takes : (broker.ingest routine now responses).2 = ingested)
    (running : ingested.queue.stopped = false)
    (roomy : broker.config.revision.messageLimit ≤ buffer.size)
    (forever : ingested.WaitsForever routine now wait) :
    broker.exchange routine now responses buffer wait
      = (none, (ingested.resumeDue routine now).2) :=
  exchange_endless takes running forever.nothing roomy rfl
    ((waitsForever_iff routine now wait rfl forever.nothing).1 forever)

/-- With room for a request of any size a running queue is fetched from, unless the worker waits for
ever. Retries may be attempted before and after; they move nobody. -/
theorem exchange_delivers {ingested : Broker}
    (takes : (broker.ingest routine now responses).2 = ingested) (inLine : ingested.InLine)
    (running : ingested.queue.stopped = false)
    (roomy : broker.config.revision.messageLimit ≤ buffer.size)
    (ends : ¬ ingested.WaitsForever routine now wait) :
    ∃ begun batch rest count filled instant handed,
      (broker.exchange routine now responses buffer wait).1 = some (.ok (count, filled), instant) ∧
      Unmoved ingested begun ∧ begun.Delivered buffer batch rest count filled handed ∧
      Unmoved handed (broker.exchange routine now responses buffer wait).2 := by
  obtain ⟨begun, begins⟩ : ∃ begun, (ingested.resumeDue routine now).2 = begun := ⟨_, rfl⟩
  have unmoved : Unmoved ingested begun := begins ▸ unmoved_resumeDue ingested routine now
  by_cases nothing : ingested.queue.pending = []
  · rw [waitsForever_iff routine now wait begins nothing] at ends
    obtain ⟨wake, wakes⟩ := Option.ne_none_iff_exists'.1 ends
    rw [exchange_idle takes running nothing roomy begins wakes]
    exact ⟨begun, [], [], 0, buffer, _, begun, rfl, unmoved,
      delivered_nothing (unmoved.pending.trans nothing) buffer, unmoved_resumeDue begun routine _⟩
  · have line : begun.InLine := inLine.sameLine unmoved.toSameLine
    have limit : begun.config = broker.config := by
      rw [← begins, ← takes]
      exact config_begun routine now responses
    have small : ∀ op ∈ begun.queue.pending, op.size ≤ buffer.size := by
      intro op member
      have admitted := line.admitted op member
      exact Nat.le_trans (Operation.size_le admitted.spoken admitted.formed) (by rwa [limit])
    unfold exchange
    rw [beginExchange_roomy routine now responses roomy, takes, begins]
    dsimp only
    obtain ⟨batch, rest, count, filled, handed, ready, delivered⟩ :=
      pollExchange_some (unmoved.pending ▸ nothing) (unmoved.stopped.trans running) line.ordered
        (fun op member => (line.admitted op member).formed) small routine now
        (begun.exchangeDeadline now wait) 1
    rw [ready]
    exact ⟨begun, batch, rest, count, filled, now, handed, rfl, unmoved, delivered, .refl handed⟩

end Course

/-! ### What the worker gets -/

/-- What an exchange makes of the state `before` it: the worker gets `batch`, the longest front of
the pending operations that there is room for, and these go into flight. -/
structure Packed (before : Broker) (buffer : Buffer) (batch rest : List Operation) (count : Nat)
    (filled : Buffer) (after : Broker) : Prop where
  cut : before.queue.pending = batch ++ rest
  pending : after.queue.pending = rest
  inFlight : after.queue.inFlight = (batch.foldl Queue.launch before.queue).inFlight
  bytes : filled.front count = batch.flatMap Operation.encoded
  count_eq : count = total (batch.map Operation.size)
  fits : count ≤ buffer.size
  longest : ∀ front, front <+: before.queue.pending →
    total (front.map Operation.size) ≤ buffer.size → front <+: batch
  size : filled.size = buffer.size
  behind : filled.bytes.drop count = buffer.bytes.drop count
  progress : before.queue.pending ≠ [] → 0 < count

/-- What happens to nobody before and after does not show. -/
theorem packed_of_delivered {before begun handed after : Broker} {buffer filled : Buffer}
    {batch rest : List Operation} {count : Nat} (unmoved : Unmoved before begun)
    (delivered : begun.Delivered buffer batch rest count filled handed)
    (unmoved' : Unmoved handed after) : Packed before buffer batch rest count filled after where
  cut := unmoved.pending.symm.trans delivered.pending
  pending := unmoved'.pending.trans delivered.pending_after
  inFlight := by
    rw [unmoved'.inFlight, delivered.queue]
    exact Queue.inFlight_foldl_launch batch unmoved.inFlight
  bytes := delivered.bytes
  count_eq := delivered.count_eq
  fits := delivered.fits
  longest := unmoved.pending ▸ delivered.longest
  size := delivered.size
  behind := delivered.behind
  progress some' := delivered.count_pos (unmoved.pending ▸ some')

/-- Where everybody has a hint of its own, nobody in flight makes room for those who join. -/
theorem Packed.joins {before after : Broker} {buffer filled : Buffer} {batch rest : List Operation}
    {count : Nat} (packed : Packed before buffer batch rest count filled after)
    (distinct : (before.queue.all.map Operation.hint).Nodup) :
    after.queue.inFlight = before.queue.inFlight ++ batch := by
  have some' : (batch ++ before.queue.inFlight).Sublist before.queue.all := by
    rw [Queue.all, packed.cut]
    exact ((List.sublist_append_left batch rest).append_right _).trans
      (List.sublist_append_left _ _)
  have apart := distinct.sublist (some'.map Operation.hint)
  rw [List.map_append, List.nodup_append_comm, ← List.map_append] at apart
  rw [packed.inFlight, Queue.foldl_launch_of_nodup apart]

/-! ### Nothing is handed back -/

/-- The batches that an exchange writes out: `fetching` and `writer` are the state in which `batch`
is written. The first was fetched once the responses were in; each further one was fetched after
the one before it had been written whole. At which instants, and how long that took, is open. -/
inductive Writes (routine : Routine) (broker : Broker) (now : Instant) (responses : Bytes)
    (buffer : Buffer) : Broker → Batch.Writer → List Operation → Prop where
  | first {begun : Broker} {clock : Instant} {deadline : Option Instant} {batch : List Operation}
      {queue : Queue}
      (begins : broker.beginExchange routine now responses buffer.size = (.ok true, begun))
      (fetches : begun.queue.dequeue clock deadline buffer.size none
        = (.ready (.ok batch), queue)) :
      Writes routine broker now responses buffer { begun with queue } (.ofBuffer buffer) batch
  | next {fetching after : Broker} {writer written : Batch.Writer} {batch more : List Operation}
      {last : Operation} {clock : Instant} {queue : Queue}
      (earlier : Writes routine broker now responses buffer fetching writer batch)
      (ends : batch.getLast? = some last)
      (wrote : fetching.writeOut writer batch = (true, written, after))
      (room : written.fits after.config.revision.messageLimit)
      (fetches : after.queue.dequeue clock (some clock) written.remaining (some last.seq)
        = (.ready (.ok more), queue)) :
      Writes routine broker now responses buffer { after with queue } written more

/-- A batch that can be written whole. -/
structure Writable (broker : Broker) (writer : Batch.Writer) (batch : List Operation) : Prop where
  bounds : writer.InBounds
  formed : ∀ op ∈ batch ++ broker.queue.pending, op.request.WellFormed
  fits : total (batch.map Operation.size) ≤ writer.remaining

theorem Writable.writeOut {writer : Batch.Writer} {batch : List Operation}
    (writable : broker.Writable writer batch) :
    ∃ written after, broker.writeOut writer batch = (true, written, after) ∧
      written.InBounds ∧ after.queue = broker.queue := by
  obtain ⟨written, after, wrote, -, within, -, queue, -, -⟩ := writeOut_ok writable.bounds
    (fun op member => writable.formed op (List.mem_append_left _ member)) writable.fits
  exact ⟨written, after, wrote, within, queue⟩

section Refusals

variable {routine : Routine} {now : Instant} {responses : Bytes} {buffer : Buffer}
  {fetching : Broker} {writer : Batch.Writer} {batch : List Operation}

/-- What was fetched fits what is left of the buffer, so that all of it is written. -/
theorem Writes.writable (writes : Writes routine broker now responses buffer fetching writer batch)
    (inLine : (broker.ingest routine now responses).2.InLine) : fetching.Writable writer batch := by
  induction writes with
  | first begins fetches =>
    have unmoved := unmoved_beginExchange broker routine now responses buffer.size
    rw [begins] at unmoved
    have line := inLine.sameLine unmoved.toSameLine
    obtain ⟨fits, waited⟩ := Queue.dequeue_ok fetches
    exact ⟨Nat.zero_le _, fun op member => (line.admitted op (waited op member)).formed, fits⟩
  | next _ _ wrote _ fetches writable =>
    obtain ⟨written, after, wrote', within, queue⟩ := writable.writeOut
    rw [wrote'] at wrote
    cases wrote
    -- Writing leaves the queue alone, so this batch comes from what the last fetch left pending.
    obtain ⟨fits, waited⟩ := Queue.dequeue_ok fetches
    rw [queue] at waited
    exact ⟨within,
      fun op member => writable.formed op (List.mem_append_right _ (waited op member)), fits⟩

/-- Where an exchange is refused, nothing is written at all. -/
theorem Writes.allowed (writes : Writes routine broker now responses buffer fetching writer batch) :
    broker.config.revision.messageLimit ≤ buffer.size ∧
      (broker.ingest routine now responses).2.queue.stopped = false := by
  induction writes with
  | first begins fetches =>
    have unmoved := unmoved_beginExchange broker routine now responses buffer.size
    refine ⟨Nat.le_of_not_lt fun small => ?_, Bool.eq_false_iff.2 fun stopped => ?_⟩
    · rcases Nat.eq_zero_or_pos buffer.size with empty | some'
      · unfold beginExchange at begins
        dsimp only at begins
        rw [if_pos empty] at begins
        cases begins
      · rw [beginExchange_cramped routine now responses some' small] at begins
        cases begins
    · rw [begins] at unmoved
      unfold Queue.dequeue at fetches
      rw [if_pos (unmoved.stopped.trans stopped)] at fetches
      cases fetches
  | next _ _ _ _ _ allowed => exact allowed

end Refusals

/-! ### Runs -/

/-- Whatever an exchange comes to, the requests that the worker reads are those that left the line,
and they stood at its front. -/
theorem exchange_serves (inLine : broker.InLine) (routine : Routine) (now : Instant)
    (responses : Bytes) (buffer : Buffer) (wait : Bool) :
    ∃ batch, Served broker batch (broker.exchange routine now responses buffer wait).2 ∧
      requestsRead (broker.exchange routine now responses buffer wait).1
        = batch.map fun op => ⟨.request, op.request.message⟩ := by
  have taken := sameLine_ingest broker routine now responses
  have line := inLine.sameLine taken
  by_cases refused : buffer.size < broker.config.revision.messageLimit ∨
      (broker.ingest routine now responses).2.queue.stopped = true
  · obtain ⟨unmoved, result, ended, nothing⟩ :=
      exchange_refused routine now responses wait rfl refused
    refine ⟨[], (taken.trans unmoved.toSameLine).served, ?_⟩
    rw [ended]
    exact requestsOf_of_count nothing
  rw [not_or, Nat.not_lt, Bool.not_eq_true] at refused
  by_cases forever : (broker.ingest routine now responses).2.WaitsForever routine now wait
  · rw [exchange_forever routine now responses wait rfl refused.2 refused.1 forever]
    exact ⟨[], (taken.trans (unmoved_resumeDue _ routine now).toSameLine).served, rfl⟩
  · obtain ⟨begun, batch, rest, count, filled, instant, handed, ended, unmoved, delivered,
      unmoved'⟩ := exchange_delivers routine now responses wait rfl line refused.2 refused.1 forever
    have served := ((taken.trans unmoved.toSameLine).served.trans
      delivered.toFetched.served).trans unmoved'.toSameLine.served
    rw [List.nil_append, List.append_nil] at served
    refine ⟨batch, served, ?_⟩
    rw [ended]
    exact delivered.frames fun op member =>
      ((line.sameLine unmoved.toSameLine).admitted op member).formed

theorem InLine.exchange (inLine : broker.InLine) (routine : Routine) (now : Instant)
    (responses : Bytes) (buffer : Buffer) (wait : Bool) :
    (broker.exchange routine now responses buffer wait).2.InLine := by
  obtain ⟨batch, served, -⟩ := exchange_serves inLine routine now responses buffer wait
  exact inLine.served served

theorem InLine.act (inLine : broker.InLine) (routine : Routine) {action : Action}
    (formed : ∀ now request, action = .post now request → request.WellFormed) :
    (broker.act routine action).InLine := by
  cases action with
  | post now request => exact inLine.post now (formed now request rfl)
  | cancel hint => exact inLine.cancel hint
  | exchange now responses buffer wait => exact inLine.exchange routine now responses buffer wait
  | ingest now responses => exact inLine.sameLine (sameLine_ingest _ routine now responses)
  | processRetries clock now =>
    exact inLine.sameLine (unmoved_processRetries _ routine clock now).toSameLine
  | removeExpired now => exact inLine.removeExpired now
  | stop cancelAll => exact inLine.stop cancelAll

theorem InLine.run (inLine : broker.InLine) (routine : Routine) {actions : List Action}
    (formed : ∀ now request, .post now request ∈ actions → request.WellFormed) :
    (broker.run routine actions).InLine := by
  induction actions generalizing broker with
  | nil => exact inLine
  | cons action rest ih =>
    refine ih (inLine.act routine fun now request same => ?_) fun now request member => ?_
    · exact formed now request (same ▸ List.mem_cons_self ..)
    · exact formed now request (List.mem_cons_of_mem _ member)

/-- As long as hints are not used twice, everybody that a broker holds has a hint of its own once
responses were taken in. -/
theorem nodup_hints_ingest (routine : Routine) (config : Config) (actions : List Action)
    (now : Instant) (responses : Bytes)
    (unused : ((new config).run routine actions).nextHint ≤ UInt64.size) :
    ((((new config).run routine actions).ingest routine now responses).2.queue.all.map
      Operation.hint).Nodup := by
  obtain ⟨silent, ledger, -, -⟩ := (ledger_new config).run routine actions
  obtain ⟨missed, kept, since⟩ := (books_loops routine _ _ silent).ingest
    ⟨silent, ledger, .refl _ silent⟩ now responses
  exact kept.nodup_hints (since.nextHint ▸ unused)

/-- What an exchange does in any state that a broker can get into. The responses are taken in first.
Then an empty buffer gives no requests, a buffer that is too small is refused, and so is everybody
once the broker was stopped; in these cases nobody goes into flight and nothing is written. In all
others an exchange ends unless the worker waits for something that nothing can bring, in which case
nobody moves either. If it ends, the longest front of the pending operations that fits is written to
the front of the buffer, and goes into flight. Every batch that is taken from the pending operations
is written whole, so that nothing is ever handed back. -/
theorem exchange_packs_longest (routine : Routine) (config : Config) (actions : List Action)
    (made : ∀ now request, .post now request ∈ actions → request.Made) (now : Instant)
    (responses : Bytes) (buffer : Buffer) (wait : Bool) :
    let broker := (new config).run routine actions
    let ingested := (broker.ingest routine now responses).2
    let limit := broker.config.revision.messageLimit
    let ended := (broker.exchange routine now responses buffer wait).1
    let after := (broker.exchange routine now responses buffer wait).2
    broker.exchange routine now responses buffer wait
      = ingested.exchange routine now [] buffer wait ∧
    (buffer.size = 0 → ended = some (.ok (0, buffer), now)) ∧
    (0 < buffer.size → buffer.size < limit →
      ended = some (.error (.bufferTooSmall limit buffer.size), now)) ∧
    (limit ≤ buffer.size → ingested.queue.stopped = true → ended = some (.error .stopped, now)) ∧
    (buffer.size < limit ∨ ingested.queue.stopped = true →
      Unmoved ingested after ∧ ∀ fetching writer batch,
        ¬ Writes routine broker now responses buffer fetching writer batch) ∧
    (limit ≤ buffer.size → ingested.queue.stopped = false →
      (ended = none ↔ ingested.WaitsForever routine now wait) ∧
      (ended = none → Unmoved ingested after) ∧
      (ended ≠ none → ∃ batch rest count filled instant,
        ended = some (.ok (count, filled), instant) ∧
        Packed ingested buffer batch rest count filled after ∧
        (broker.nextHint ≤ UInt64.size →
          after.queue.inFlight = ingested.queue.inFlight ++ batch))) ∧
    ∀ fetching writer batch, Writes routine broker now responses buffer fetching writer batch →
      (fetching.writeOut writer batch).1 = true := by
  intro broker ingested limit ended after
  have line : broker.InLine := (inLine_new config).run routine fun now request member =>
    (made now request member).wellFormed
  have taken : ingested.InLine := line.sameLine (sameLine_ingest _ routine now responses)
  refine ⟨exchange_ingests_first routine now responses buffer wait, ?_, ?_, ?_, ?_, ?_, ?_⟩
  · intro empty
    exact congrArg Prod.fst (exchange_empty routine now responses wait empty)
  · intro some' small
    exact congrArg Prod.fst (exchange_cramped routine now responses wait some' small)
  · intro roomy stopped
    exact congrArg Prod.fst (exchange_stopped routine now responses wait rfl stopped roomy)
  · intro refused
    refine ⟨(exchange_refused routine now responses wait rfl refused).1, ?_⟩
    intro fetching writer batch writes
    obtain ⟨roomy, running⟩ := writes.allowed
    rcases refused with small | stopped
    · exact absurd roomy (Nat.not_le.2 small)
    · exact absurd (running.symm.trans stopped) Bool.false_ne_true
  · intro roomy running
    by_cases forever : ingested.WaitsForever routine now wait
    · have endless := exchange_forever routine now responses wait rfl running roomy forever
      have never : ended = none := congrArg Prod.fst endless
      refine ⟨iff_of_true never forever, fun _ => ?_, fun some' => absurd never some'⟩
      rw [show after = _ from congrArg Prod.snd endless]
      exact unmoved_resumeDue ingested routine now
    · obtain ⟨begun, batch, rest, count, filled, instant, handed, result, unmoved, delivered,
        unmoved'⟩ := exchange_delivers routine now responses wait rfl taken running roomy forever
      have some' : ended ≠ none := by
        rw [show ended = _ from result]
        exact Option.some_ne_none _
      refine ⟨iff_of_false some' forever, fun never => absurd never some', fun _ => ?_⟩
      have packed := packed_of_delivered unmoved delivered unmoved'
      exact ⟨batch, rest, count, filled, instant, result, packed, fun unused =>
        packed.joins (nodup_hints_ingest routine config actions now responses unused)⟩
  · intro fetching writer batch writes
    obtain ⟨written, after, wrote, -, -⟩ := (writes.writable taken).writeOut
    exact congrArg Prod.fst wrote

theorem reading_made : reading.Made := Request.made_of_wellFormed ⟨by decide, rfl⟩

/-- A worker gets the request that was posted before. -/
theorem packs_reading :
    (∀ now request, .post now request ∈ oneRead.take 1 → request.Made) ∧
      ∃ count filled instant, 0 < count ∧
        (((new .standard).run .standard (oneRead.take 1)).exchange .standard 0 []
          (.filled 16320 0) true).1 = some (.ok (count, filled), instant) := by
  let posted := (new .standard).run .standard (oneRead.take 1)
  have made : ∀ now request, .post now request ∈ oneRead.take 1 → request.Made := by
    intro now request member
    cases List.mem_singleton.1 member
    exact reading_made
  have ingested : (posted.ingest .standard 0 []).2 = posted := by
    unfold ingest
    rw [Batch.frames_nil]
    rfl
  have waits : posted.queue.pending ≠ [] := List.cons_ne_nil _ _
  obtain ⟨-, -, -, -, -, packs, -⟩ := exchange_packs_longest .standard .standard
    (oneRead.take 1) made 0 [] (.filled 16320 0) true
  rw [ingested] at packs
  obtain ⟨forever, -, gives⟩ := packs (Nat.le_refl 16320) rfl
  obtain ⟨batch, rest, count, filled, instant, result, packed, -⟩ :=
    gives fun never => waits (forever.1 never).nothing
  exact ⟨made, count, filled, instant, packed.progress waits, result⟩

end Broker
end FileBroker
