import FileBroker.Proofs.Queue.Tally

/-! Which operations stand where after the changes that move several of them at once. -/
namespace FileBroker.Queue

theorem deliverAll_append (queue : Queue) (first second : List Operation) (outcome : Outcome) :
    queue.deliverAll (first ++ second) outcome
      = (queue.deliverAll first outcome).deliverAll second outcome :=
  List.foldl_append

/-! ### Going into flight -/

theorem mem_launch {queue : Queue} {op other : Operation}
    (member : other ∈ (queue.launch op).inFlight) : other ∈ queue.inFlight ∨ other = op := by
  rw [launch_eq, inFlight_deliverAll, List.mem_append, List.mem_filter,
    List.mem_singleton] at member
  exact member.imp_left And.left

/-- Nobody is given up for an operation whose hint is new in flight. -/
theorem launch_of_fresh {queue : Queue} {op : Operation}
    (fresh : ∀ other ∈ queue.inFlight, other.hint ≠ op.hint) :
    queue.launch op = { queue with inFlight := queue.inFlight ++ [op] } := by
  have displaced : queue.inFlight.filter (fun other => other.hint == op.hint) = [] :=
    List.filter_eq_nil_iff.2 fun other member => by simpa using fresh other member
  have kept : queue.inFlight.filter (fun other => !(other.hint == op.hint)) = queue.inFlight :=
    List.filter_eq_self.2 fun other member => by simpa using fresh other member
  rw [launch_eq, displaced, kept]
  rfl

/-- What a run of operations does when it goes into flight: it joins what is in flight, save for
operations that are given up to a namesake. -/
theorem foldl_launch_eq (ops : List Operation) (queue : Queue) :
    ∃ flying displaced,
      ops.foldl launch queue
        = { queue with inFlight := flying }.deliverAll displaced (.error .cancelled) ∧
      (∀ op ∈ flying, op ∈ queue.inFlight ∨ op ∈ ops) ∧
      (∀ op ∈ displaced, op ∈ queue.inFlight ∨ op ∈ ops) := by
  induction ops generalizing queue with
  | nil => exact ⟨queue.inFlight, [], rfl, by simp, by simp⟩
  | cons op rest ih =>
    obtain ⟨flying, displaced, same, flown, given⟩ := ih (queue.launch op)
    have came : ∀ other, other ∈ (queue.launch op).inFlight ∨ other ∈ rest →
        other ∈ queue.inFlight ∨ other ∈ op :: rest := by
      intro other origin
      rcases origin with member | member
      · rcases mem_launch member with flying | rfl
        · exact .inl flying
        · exact .inr (List.mem_cons_self ..)
      · exact .inr (List.mem_cons_of_mem _ member)
    refine ⟨flying, (queue.inFlight.filter fun other => other.hint == op.hint) ++ displaced,
      ?_, fun other member => came other (flown other member), ?_⟩
    · rw [List.foldl_cons, same, launch_eq, deliverAll_append]
      simp only [deliverAll_eq]
    · intro other member
      rcases List.mem_append.1 member with member | member
      · exact .inl (List.mem_of_mem_filter member)
      · exact came other (given other member)

/-- The rest of the queue takes no part in it. -/
theorem kept_foldl_launch (ops : List Operation) (queue : Queue) :
    (ops.foldl launch queue).stopped = queue.stopped ∧
      (ops.foldl launch queue).lastSeq = queue.lastSeq ∧
      (ops.foldl launch queue).parked = queue.parked := by
  obtain ⟨flying, displaced, same, -, -⟩ := foldl_launch_eq ops queue
  rw [same, deliverAll_eq]
  exact ⟨rfl, rfl, rfl⟩

theorem foldl_launch_of_nodup {ops : List Operation} {queue : Queue}
    (distinct : ((queue.inFlight ++ ops).map Operation.hint).Nodup) :
    ops.foldl launch queue = { queue with inFlight := queue.inFlight ++ ops } := by
  induction ops generalizing queue with
  | nil => simp
  | cons op rest ih =>
    have fresh : ∀ other ∈ queue.inFlight, other.hint ≠ op.hint := by
      intro other member same
      rw [List.map_append, List.nodup_append] at distinct
      exact distinct.2.2 other.hint (List.mem_map_of_mem member) op.hint
        (List.mem_map_of_mem (List.mem_cons_self ..)) same
    rw [List.append_cons] at distinct
    rw [List.foldl_cons, launch_of_fresh fresh, ih distinct]
    simp only [List.append_cons queue.inFlight op rest]

/-- Whoever is pending or in flight after a fetch was so before. -/
theorem outstanding_fetch {queue : Queue} {older run left : List Operation}
    (cut : queue.pending = older ++ (run ++ left)) {op : Operation}
    (held : op ∈ (run.foldl launch { queue with pending := older ++ left }).pending ∨
      op ∈ (run.foldl launch { queue with pending := older ++ left }).inFlight) :
    op ∈ queue.pending ∨ op ∈ queue.inFlight := by
  obtain ⟨flying, displaced, same, flown, -⟩ :=
    foldl_launch_eq run { queue with pending := older ++ left }
  rw [same, deliverAll_eq] at held
  rw [cut]
  simp only [List.mem_append]
  rcases held with waits | flies
  · rcases List.mem_append.1 waits with first | last
    · exact .inl (.inl first)
    · exact .inl (.inr (.inr last))
  · rcases flown op flies with flew | fetched
    · exact .inr flew
    · exact .inl (.inr (.inl fetched))

theorem mem_all_of_fetch {queue : Queue} {older run left : List Operation}
    (cut : queue.pending = older ++ (run ++ left)) {op : Operation}
    (held : op ∈ (run.foldl launch { queue with pending := older ++ left }).all) :
    op ∈ queue.all := by
  obtain ⟨-, -, parked⟩ := kept_foldl_launch run { queue with pending := older ++ left }
  rcases List.mem_append.1 held with out | stays
  · exact List.mem_append_left _ (List.mem_append.2 (outstanding_fetch cut (List.mem_append.1 out)))
  · exact List.mem_append_right _ (parked ▸ stays)

/-- Going into flight has nothing to do with who else is pending. -/
theorem foldl_launch_with_pending (ops : List Operation) (queue : Queue)
    (pending : List Operation) :
    ops.foldl launch { queue with pending } = { ops.foldl launch queue with pending } := by
  induction ops generalizing queue with
  | nil => rfl
  | cons op rest ih =>
    have first : launch { queue with pending } op = { launch queue op with pending } := by
      simp only [launch_eq, deliverAll_eq]
    rw [List.foldl_cons, first, ih, List.foldl_cons]

/-- Who is in flight afterwards depends only on who was before. -/
theorem inFlight_foldl_launch (ops : List Operation) {queue other : Queue}
    (same : queue.inFlight = other.inFlight) :
    (ops.foldl launch queue).inFlight = (ops.foldl launch other).inFlight := by
  induction ops generalizing queue other with
  | nil => exact same
  | cons op rest ih =>
    refine ih ?_
    rw [launch_eq, launch_eq, inFlight_deliverAll, inFlight_deliverAll, same]

/-! ### Coming back -/

theorem stopped_land (queue : Queue) (hint : Hint) :
    (queue.land hint).2.stopped = queue.stopped := by
  unfold land
  split <;> rfl

theorem mem_insertPending {op other : Operation} {pending : List Operation} :
    other ∈ insertPending op pending ↔ other = op ∨ other ∈ pending := by
  have whole := List.takeWhile_append_dropWhile (p := fun other : Operation => other.seq < op.seq)
    (l := pending)
  rw [insertPending, List.mem_append, List.mem_cons]
  conv_rhs => rw [← whole, List.mem_append]
  tauto

/-- Operations handed back wait again; they were in flight, and nothing under their hints still
is. -/
theorem handBack_spec (hints : List Hint) (queue : Queue) :
    ∃ waiting flying,
      (queue.handBack hints).2 = { queue with pending := waiting, inFlight := flying } ∧
      (∀ op ∈ waiting, op ∈ queue.pending ∨ op ∈ queue.inFlight) ∧
      (∀ op ∈ flying, op ∈ queue.inFlight ∧ op.hint ∉ hints) := by
  induction hints generalizing queue with
  | nil =>
    exact ⟨queue.pending, queue.inFlight, rfl, fun op => .inl,
      fun op member => ⟨member, List.not_mem_nil⟩⟩
  | cons hint rest ih =>
    unfold handBack
    rcases land_cases queue hint with ⟨absent, free⟩ | ⟨op, member, under, -, present⟩
    · obtain ⟨waiting, flying, same, waited, flown⟩ := ih queue
      rw [absent]
      refine ⟨waiting, flying, same, waited, fun other found => ?_⟩
      have kept := flown other found
      exact ⟨kept.1, List.not_mem_cons_of_ne_of_not_mem (free other kept.1) kept.2⟩
    · rw [present]
      dsimp only
      obtain ⟨waiting, flying, same, waited, flown⟩ := ih
        { queue with
          pending := insertPending op queue.pending
          inFlight := queue.inFlight.filter fun other => other.hint != hint }
      refine ⟨waiting, flying, same, fun other found => ?_, fun other found => ?_⟩
      · rcases waited other found with origin | origin
        · rcases mem_insertPending.1 origin with rfl | origin
          · exact .inr member
          · exact .inl origin
        · exact .inr (List.mem_of_mem_filter origin)
      · have kept := flown other found
        obtain ⟨origin, apart⟩ := List.mem_filter.1 kept.1
        exact ⟨origin, List.not_mem_cons_of_ne_of_not_mem (by simpa using apart) kept.2⟩

theorem outstanding_handBack {queue : Queue} {hints : List Hint} {op : Operation}
    (held : op ∈ (queue.handBack hints).2.pending ∨ op ∈ (queue.handBack hints).2.inFlight) :
    op ∈ queue.pending ∨ op ∈ queue.inFlight := by
  obtain ⟨waiting, flying, same, waited, flown⟩ := handBack_spec hints queue
  rw [same] at held
  exact held.elim (waited op) fun flies => .inr (flown op flies).1

theorem mem_all_of_handBack {queue : Queue} {hints : List Hint} {op : Operation}
    (held : op ∈ (queue.handBack hints).2.all) : op ∈ queue.all := by
  obtain ⟨waiting, flying, same, -, -⟩ := handBack_spec hints queue
  rcases List.mem_append.1 held with out | parked
  · exact List.mem_append_left _ (List.mem_append.2 (outstanding_handBack (List.mem_append.1 out)))
  · rw [same] at parked
    exact List.mem_append_right _ parked

end FileBroker.Queue
