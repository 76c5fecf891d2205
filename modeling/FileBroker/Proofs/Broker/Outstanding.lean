import FileBroker.Proofs.Broker.Turns

/-!
Operations that wait or are with a worker, in the loops inside an operation of the broker. They are
told nothing except in their turns; only a fetch can take the place of one in flight from it, and
that only if hints are used twice.
-/
namespace FileBroker.Broker

variable {routine : Routine} {start broker : Broker} {turn : Turn} {turns : List Turn}
  {ticket : Nat} {lost : Nat → Prop}

/-- The operation with a ticket waits, or is with a worker. -/
def Outstanding (broker : Broker) (ticket : Nat) : Prop :=
  ∃ op, (op ∈ broker.queue.pending ∨ op ∈ broker.queue.inFlight) ∧ op.ticket = ticket

/-! ### What is told -/

/-- Where the outcomes come from that were told since `start`: from the turns, or from losing an
operation. -/
structure Told (routine : Routine) (lost : Nat → Prop) (start broker : Broker)
    (turns : List Turn) : Prop where
  grows : start.queue.Grows broker.queue
  spoken : ∀ turn ∈ turns, ∀ outcome, turn.word? routine = some outcome →
    outcome ∈ broker.queue.outcomesOf turn.op.ticket
  origin : ∀ ticket outcome, outcome ∈ broker.queue.outcomesOf ticket →
    outcome ∈ start.queue.outcomesOf ticket ∨
    (∃ turn ∈ turns, turn.op.ticket = ticket ∧ turn.word? routine = some outcome) ∨
    (outcome = .error .cancelled ∧ lost ticket ∧ ∀ turn ∈ turns, turn.op.ticket ≠ ticket)
  outstanding : ∀ op, op ∈ broker.queue.pending ∨ op ∈ broker.queue.inFlight →
    start.Outstanding op.ticket ∧ ∀ turn ∈ turns, turn.op.ticket ≠ op.ticket
  parked : ∀ op ∈ broker.queue.parked,
    (∃ other ∈ start.queue.parked, other.ticket = op.ticket) ∨
      ∃ turn ∈ turns, turn.op.ticket = op.ticket

theorem told_refl (routine : Routine) (lost : Nat → Prop) (broker : Broker) :
    Told routine lost broker broker [] where
  grows := .refl _
  spoken turn member := by cases member
  origin ticket outcome told := .inl told
  outstanding op held := ⟨⟨op, held, rfl⟩, fun turn member => by cases member⟩
  parked op held := .inl ⟨op, held, rfl⟩

namespace Told

/-- A turn tells its own operation, and nobody else. -/
theorem advance (told : Told routine lost start broker turns) (audited : Audited [] broker)
    (arises : Arises broker turn) :
    Told routine lost start (turn.after routine) (turns ++ [turn]) := by
  have took := arises.tookOut
  have inHand := arises.inHand audited
  have unmoved := turn.unmoved_after routine
  have latest : turn ∈ turns ++ [turn] := List.mem_append_right _ (List.mem_singleton_self turn)
  have same : ∀ ticket, turn.broker.queue.outcomesOf ticket = broker.queue.outcomesOf ticket := by
    intro ticket
    unfold Queue.outcomesOf
    rw [took.delivered]
  have grown : broker.queue.Grows (turn.after routine).queue :=
    .trans (.of_eq took.delivered) (turn.grows_after routine)
  refine ⟨told.grows.trans grown, fun other member outcome said => ?_,
    fun ticket outcome tells => ?_, fun op held => ?_, fun op held => ?_⟩
  · rcases List.mem_append.1 member with before | last
    · exact grown.keeps (told.spoken other before outcome said)
    · obtain rfl := List.mem_singleton.1 last
      rw [Turn.outcomesOf_after said]
      exact List.mem_cons_self
  · by_cases mine : turn.op.ticket = ticket
    · subst mine
      exact .inr (.inl ⟨turn, latest, rfl, Turn.word?_of_untold inHand.untold tells⟩)
    · rw [turn.outcomesOf_after_of_ne routine mine, same] at tells
      rcases told.origin ticket outcome tells with
        old | ⟨other, member, spoken⟩ | ⟨given, loses, none'⟩
      · exact .inl old
      · exact .inr (.inl ⟨other, List.mem_append_left _ member, spoken⟩)
      · refine .inr (.inr ⟨given, loses, fun other member => ?_⟩)
        rcases List.mem_append.1 member with before | last
        · exact none' other before
        · rwa [List.mem_singleton.1 last]
  · rw [unmoved.pending, unmoved.inFlight] at held
    have alone := inHand.alone op (List.mem_append_left _ (List.mem_append.2 held))
    rw [took.pending] at held
    obtain ⟨waits, none'⟩ := told.outstanding op (held.imp_right (took.inFlight op))
    refine ⟨waits, fun other member => ?_⟩
    rcases List.mem_append.1 member with before | last
    · exact none' other before
    · rw [List.mem_singleton.1 last]
      exact alone.symm
  · rcases Turn.parked_after held with before | ⟨response, -, -, -, rfl⟩
    · refine (told.parked op (took.parked op before)).imp_right ?_
      rintro ⟨other, member, spoken⟩
      exact ⟨other, List.mem_append_left _ member, spoken⟩
    · exact .inr ⟨turn, latest, rfl⟩

/-- Only counters, or places among those that are outstanding, have changed. -/
theorem still (told : Told routine lost start broker turns) {after : Broker}
    (delivered : after.queue.delivered = broker.queue.delivered)
    (outstanding : ∀ op, op ∈ after.queue.pending ∨ op ∈ after.queue.inFlight →
      op ∈ broker.queue.pending ∨ op ∈ broker.queue.inFlight)
    (parked : after.queue.parked = broker.queue.parked) :
    Told routine lost start after turns := by
  have same : ∀ ticket, after.queue.outcomesOf ticket = broker.queue.outcomesOf ticket := by
    intro ticket
    unfold Queue.outcomesOf
    rw [delivered]
  refine ⟨told.grows.trans (.of_eq delivered), fun turn member outcome said => ?_,
    fun ticket outcome tells => ?_, fun op held => told.outstanding op (outstanding op held),
    fun op held => told.parked op (parked ▸ held)⟩
  · rw [same]
    exact told.spoken turn member outcome said
  · rw [same] at tells
    exact told.origin ticket outcome tells

/-- A fetch may lose operations that were outstanding. -/
theorem fetch (told : Told routine lost start broker turns)
    (loses : ∀ ticket, start.Outstanding ticket → lost ticket) {older run left : List Operation}
    (cut : broker.queue.pending = older ++ (run ++ left)) :
    Told routine lost start { broker with
      queue := run.foldl Queue.launch { broker.queue with pending := older ++ left } } turns := by
  obtain ⟨flying, displaced, same, -, given⟩ :=
    Queue.foldl_launch_eq run { broker.queue with pending := older ++ left }
  have grown : broker.queue.Grows
      (run.foldl Queue.launch { broker.queue with pending := older ++ left }) :=
    .foldl_launch { broker.queue with pending := older ++ left } run
  refine ⟨told.grows.trans grown, fun turn member outcome said => ?_,
    fun ticket outcome tells => ?_,
    fun op held => told.outstanding op (Queue.outstanding_fetch cut held), fun op held => ?_⟩
  · exact grown.keeps (told.spoken turn member outcome said)
  · rw [Queue.mem_outcomesOf, same, Queue.deliverAll_eq] at tells
    rcases List.mem_append.1 tells with new | old
    · obtain ⟨op, member, same⟩ := List.mem_map.1 (List.mem_reverse.1 new)
      cases same
      have origin : op ∈ broker.queue.pending ∨ op ∈ broker.queue.inFlight := by
        refine (given op member).symm.imp_left fun fetched => ?_
        rw [cut]
        exact List.mem_append_right _ (List.mem_append_left _ fetched)
      obtain ⟨outstanding, none'⟩ := told.outstanding op origin
      exact .inr (.inr ⟨rfl, loses op.ticket outstanding, none'⟩)
    · exact told.origin ticket outcome (Queue.mem_outcomesOf.2 old)
  · rw [(Queue.kept_foldl_launch run _).2.2] at held
    exact told.parked op held

end Told

theorem answerInvariant_told (routine : Routine) (lost : Nat → Prop) (start : Broker) :
    AnswerInvariant routine fun broker turns =>
      Audited [] broker ∧ Told routine lost start broker turns :=
  .of_loops (invariant_audited routine).toLoopInvariant
    (fun _ _ _ told => told.still rfl (fun _ => id) rfl)
    fun _ _ _ audited told arises => told.advance audited arises

theorem turnInvariant_told (routine : Routine) (start : Broker) :
    TurnInvariant routine fun broker turns =>
      Audited [] broker ∧ Told routine start.Outstanding start broker turns := by
  refine .of_loops (invariant_audited routine).toLoopInvariant
    (fun _ _ _ told => told.still rfl (fun _ => id) rfl)
    (fun _ _ _ audited told arises => told.advance audited arises) ?_
    (fun _ _ _ _ _ _ told cut => told.fetch (fun _ => id) cut)
  intro broker hints turns _ told
  obtain ⟨waiting, flying, same, -, -⟩ := Queue.handBack_spec hints broker.queue
  exact told.still (by rw [same]) (fun op => Queue.outstanding_handBack) (by rw [same])

/-- Who is outstanding was told nothing. -/
theorem Outstanding.untold (outstanding : broker.Outstanding ticket)
    (audited : Audited [] broker) : broker.queue.outcomesOf ticket = [] := by
  obtain ⟨op, held, rfl⟩ := outstanding
  exact audited.outcomesOf_held (List.mem_append_left _ (List.mem_append.2 held))

/-- Who is outstanding is not parked. -/
theorem Outstanding.not_parked (outstanding : broker.Outstanding ticket)
    (audited : Audited [] broker) : ∀ op ∈ broker.queue.parked, op.ticket ≠ ticket := by
  obtain ⟨other, held, rfl⟩ := outstanding
  intro op parked same
  have unique := audited.nodup_tickets
  rw [Queue.all, List.map_append, List.nodup_append] at unique
  exact unique.2.2 _ (List.mem_map_of_mem (List.mem_append.2 held)) _ (List.mem_map_of_mem parked)
    same.symm

/-- A broker without anything in hand either holds an operation that it created, or has told it
something. -/
theorem Audited.held_or_told (audited : Audited [] broker)
    (created : 0 < ticket ∧ ticket < broker.nextHint) :
    (∃ op ∈ broker.queue.all, op.ticket = ticket) ∨ broker.queue.outcomesOf ticket ≠ [] := by
  obtain ⟨accepted, silent, ledger⟩ := audited
  have once := ledger.once ticket
  rw [if_pos created, Operation.tally_nil, Queue.tally] at once
  by_cases nowhere : Operation.tally broker.queue.all ticket = 0
  · refine .inr fun nothing => ?_
    have length := congrArg List.length nothing
    rw [Queue.length_outcomesOf, List.length_nil] at length
    omega
  · obtain ⟨op, held, same⟩ := List.countP_pos_iff.1 (Nat.pos_of_ne_zero nowhere)
    exact .inl ⟨op, held, by simpa using same⟩

/-- Who is outstanding no more, although it had no turn, was cancelled. -/
theorem Told.of_gone (told : Told routine lost start broker turns) (began : Audited [] start)
    (audited : Audited [] broker) (grown : start.nextHint ≤ broker.nextHint)
    (waited : start.Outstanding ticket) (none' : ∀ turn ∈ turns, turn.op.ticket ≠ ticket)
    (gone : ¬ broker.Outstanding ticket) : .error .cancelled ∈ broker.queue.outcomesOf ticket := by
  have silent := waited.untold began
  have alone := waited.not_parked began
  have created : 0 < ticket ∧ ticket < broker.nextHint := by
    obtain ⟨accepted, missed, ledger⟩ := began
    obtain ⟨op, held, rfl⟩ := waited
    have member : op ∈ start.queue.all := List.mem_append_left _ (List.mem_append.2 held)
    have created := ledger.created _ (ledger.owned op (.inl member)).1
    exact ⟨created.1, Nat.lt_of_lt_of_le created.2 grown⟩
  -- It is in no place any more: not among the parked either, as it had no turn.
  have ended : broker.queue.outcomesOf ticket ≠ [] := by
    refine (audited.held_or_told created).resolve_left ?_
    rintro ⟨other, held', same⟩
    rcases List.mem_append.1 held' with out | parked
    · exact gone ⟨other, List.mem_append.1 out, same⟩
    · rcases told.parked other parked with ⟨before, was, same'⟩ | ⟨turn, member, same'⟩
      · exact alone before was (same'.trans same)
      · exact none' turn member (same'.trans same)
  obtain ⟨outcome, tells⟩ := List.exists_mem_of_ne_nil _ ended
  rcases told.origin ticket outcome tells with old | ⟨turn, member, same, -⟩ | ⟨rfl, -, -⟩
  · rw [silent] at old
    cases old
  · exact absurd same (none' turn member)
  · exact tells

/-- After turns, and possibly fetches, an operation is cancelled if it was so before, or was told so
in its turn, or if it is outstanding no more although it had none. -/
theorem Told.cancelled_iff (told : Told routine lost start broker turns)
    (loses : ∀ ticket, lost ticket → start.Outstanding ticket) (began : Audited [] start)
    (audited : Audited [] broker) (grown : start.nextHint ≤ broker.nextHint) :
    .error .cancelled ∈ broker.queue.outcomesOf ticket ↔
      .error .cancelled ∈ start.queue.outcomesOf ticket ∨
      (∃ turn ∈ turns, turn.op.ticket = ticket ∧
        turn.word? routine = some (.error .cancelled)) ∨
      (lost ticket ∧ (∀ turn ∈ turns, turn.op.ticket ≠ ticket) ∧ ¬ broker.Outstanding ticket) := by
  constructor
  · intro tells
    rcases told.origin ticket _ tells with old | spoken | ⟨-, loses, none'⟩
    · exact .inl old
    · exact .inr (.inl spoken)
    · refine .inr (.inr ⟨loses, none', fun outstanding => ?_⟩)
      rw [outstanding.untold audited] at tells
      cases tells
  · rintro (old | ⟨turn, member, rfl, said⟩ | ⟨lost', none', gone⟩)
    · exact told.grows.keeps old
    · exact told.spoken turn member _ said
    · exact told.of_gone began audited grown (loses ticket lost') none' gone

/-! ### Nobody is lost -/

theorem outstanding_iff : broker.Outstanding ticket ↔
    0 < Operation.tally (broker.queue.pending ++ broker.queue.inFlight) ticket := by
  rw [Operation.tally, List.countP_pos_iff]
  simp [Outstanding]

/-- Who is outstanding stays so, unless it is taken in hand. -/
theorem Arises.outstanding (arises : Arises broker turn) (audited : Audited [] broker)
    (outstanding : broker.Outstanding ticket) :
    turn.broker.Outstanding ticket ∨ turn.op.ticket = ticket := by
  rw [outstanding_iff] at outstanding ⊢
  cases arises with
  | @landing clock frame op queue landed =>
    obtain ⟨accepted, silent, ledger⟩ := audited
    have taken := Queue.tally_land ledger.distinct landed ticket
    rcases Queue.land_cases broker.queue frame.hint with ⟨absent, -⟩ | ⟨other, -, -, -, present⟩
    · rw [absent] at landed
      cases landed
    · rw [present] at landed
      cases landed
      rw [Operation.tally_singleton] at taken
      simp only [Queue.tally, Queue.all, Operation.tally_append] at taken
      simp only [Operation.tally_append, Broker.landing] at outstanding ⊢
      by_cases mine : op.ticket = ticket
      · exact .inr mine
      · rw [if_neg mine] at taken
        exact .inl (by omega)
  | @resumption clock now op queue due =>
    obtain ⟨before, rest, -, rfl, -⟩ := Queue.takeDue_some due
    exact .inl outstanding

/-- Whoever was outstanding is so still, or had a turn; and no hint was assigned. -/
structure Kept (start broker : Broker) (turns : List Turn) : Prop where
  nextHint : broker.nextHint = start.nextHint
  outstanding : ∀ ticket, start.Outstanding ticket →
    broker.Outstanding ticket ∨ ∃ turn ∈ turns, turn.op.ticket = ticket

namespace Kept

theorem advance (kept : Kept start broker turns) (audited : Audited [] broker)
    (arises : Arises broker turn) : Kept start (turn.after routine) (turns ++ [turn]) where
  nextHint := (turn.unmoved_after routine).nextHint.trans
    (arises.tookOut.nextHint.trans kept.nextHint)
  outstanding ticket waited := by
    have unmoved := turn.unmoved_after routine
    rcases kept.outstanding ticket waited with still | ⟨other, member, same⟩
    · rcases arises.outstanding audited still with still | mine
      · refine .inl ?_
        unfold Outstanding at still ⊢
        rwa [unmoved.pending, unmoved.inFlight]
      · exact .inr ⟨turn, List.mem_append_right _ (List.mem_singleton_self _), mine⟩
    · exact .inr ⟨other, List.mem_append_left _ member, same⟩

theorem handBack (kept : Kept start broker turns) (audited : Audited [] broker)
    (hints : List Hint) :
    Kept start { broker with queue := (broker.queue.handBack hints).2 } turns := by
  refine ⟨kept.nextHint, fun ticket waited => (kept.outstanding ticket waited).imp_left ?_⟩
  obtain ⟨accepted, silent, ledger⟩ := audited
  have once := Queue.tally_handBack ledger.distinct hints ticket
  obtain ⟨waiting, flying, same, -, -⟩ := Queue.handBack_spec hints broker.queue
  rw [same] at once ⊢
  rw [outstanding_iff, outstanding_iff]
  simp only [Queue.tally, Queue.all, Operation.tally_append] at once ⊢
  omega

/-- Where hints are used once, whoever is fetched joins the others in flight. -/
theorem fetch (kept : Kept start broker turns) (audited : Audited [] broker)
    (unused : start.nextHint ≤ UInt64.size) {older run left : List Operation}
    (cut : broker.queue.pending = older ++ (run ++ left)) :
    Kept start { broker with
      queue := run.foldl Queue.launch { broker.queue with pending := older ++ left } } turns := by
  obtain ⟨accepted, silent, ledger⟩ := audited
  have some' : (run ++ broker.queue.inFlight).Sublist broker.queue.all := by
    rw [Queue.all, cut]
    exact (((List.sublist_append_left run left).trans
      (List.sublist_append_right older _)).append_right _).trans (List.sublist_append_left _ _)
  have apart := (ledger.nodup_hints (kept.nextHint ▸ unused)).sublist (some'.map Operation.hint)
  rw [List.map_append, List.nodup_append_comm, ← List.map_append] at apart
  have joined :=
    @Queue.foldl_launch_of_nodup run { broker.queue with pending := older ++ left } apart
  refine ⟨kept.nextHint, fun ticket waited => (kept.outstanding ticket waited).imp_left ?_⟩
  rw [joined, outstanding_iff, outstanding_iff, cut]
  simp only [Operation.tally_append]
  omega

end Kept

theorem turnInvariant_kept (routine : Routine) (unused : start.nextHint ≤ UInt64.size) :
    TurnInvariant routine fun broker turns => Audited [] broker ∧ Kept start broker turns :=
  .of_loops (invariant_audited routine).toLoopInvariant
    (fun _ _ _ kept => ⟨kept.nextHint, kept.outstanding⟩)
    (fun _ _ _ audited kept arises => kept.advance audited arises)
    (fun _ hints _ audited kept => kept.handBack audited hints)
    (fun _ _ _ _ _ audited kept cut => kept.fetch audited unused cut)

end FileBroker.Broker
