import FileBroker.Proofs.Queue.Contents
import FileBroker.Queue.Reply

/-!
Outcomes stay handed out. So whatever may give operations up, such as a sweep or a clash of hints,
is known to have given up none of them if none of their callers has been told so in the end.
-/
namespace FileBroker.Queue

variable {queue before middle after : Queue} {ticket : Nat} {outcome : Outcome}

theorem mem_outcomesOf :
    outcome ∈ queue.outcomesOf ticket ↔ ⟨ticket, outcome⟩ ∈ queue.delivered := by
  unfold outcomesOf
  simp only [List.mem_map, List.mem_filter, beq_iff_eq]
  constructor
  · rintro ⟨delivery, ⟨member, rfl⟩, rfl⟩
    exact member
  · intro member
    exact ⟨_, ⟨member, rfl⟩, rfl⟩

/-- What counts once is told once. -/
theorem outcomesOf_eq_singleton_iff (once : queue.tally ticket ≤ 1) :
    queue.outcomesOf ticket = [outcome] ↔ outcome ∈ queue.outcomesOf ticket := by
  refine ⟨fun same => same ▸ List.mem_singleton_self _, fun told => ?_⟩
  rw [tally, ← length_outcomesOf] at once
  obtain ⟨other, single⟩ := List.length_eq_one_iff.1
    (Nat.le_antisymm (by omega) (List.length_pos_of_mem told))
  rw [single] at told ⊢
  rw [List.mem_singleton.1 told]

theorem outcomesOf_eq_nil (absent : ∀ delivery ∈ queue.delivered, delivery.ticket ≠ ticket) :
    queue.outcomesOf ticket = [] := by
  refine List.eq_nil_iff_forall_not_mem.2 fun outcome member => ?_
  exact absent _ (mem_outcomesOf.1 member) rfl

theorem outcomesOf_deliver (queue : Queue) (op : Operation) (outcome : Outcome) :
    (queue.deliver op outcome).outcomesOf op.ticket = outcome :: queue.outcomesOf op.ticket := by
  simp [outcomesOf, deliver]

theorem outcomesOf_deliver_of_ne (queue : Queue) {op : Operation} (outcome : Outcome)
    (other : op.ticket ≠ ticket) :
    (queue.deliver op outcome).outcomesOf ticket = queue.outcomesOf ticket := by
  simp [outcomesOf, deliver, other]

/-- Every outcome handed out before is handed out still. -/
def Grows (before after : Queue) : Prop := before.delivered <:+ after.delivered

namespace Grows

theorem refl (queue : Queue) : Grows queue queue := List.suffix_refl _

theorem of_eq (same : after.delivered = before.delivered) : Grows before after :=
  ⟨[], same.symm⟩

theorem trans (first : Grows before middle) (second : Grows middle after) : Grows before after :=
  List.IsSuffix.trans first second

theorem keeps (grows : Grows before after) (member : outcome ∈ before.outcomesOf ticket) :
    outcome ∈ after.outcomesOf ticket :=
  mem_outcomesOf.2 (grows.subset (mem_outcomesOf.1 member))

theorem deliver (queue : Queue) (op : Operation) (outcome : Outcome) :
    Grows queue (queue.deliver op outcome) :=
  List.suffix_cons _ _

theorem deliverAll (queue : Queue) (ops : List Operation) (outcome : Outcome) :
    Grows queue (queue.deliverAll ops outcome) := by
  rw [deliverAll_eq]
  exact List.suffix_append _ _

theorem launch (queue : Queue) (op : Operation) : Grows queue (queue.launch op) := by
  rw [launch_eq]
  refine .trans ?_ (deliverAll _ _ _)
  exact of_eq rfl

theorem foldl_launch (queue : Queue) (ops : List Operation) :
    Grows queue (ops.foldl Queue.launch queue) := by
  induction ops generalizing queue with
  | nil => exact .refl queue
  | cons op rest ih => exact (launch queue op).trans (ih _)

theorem removeExpired (queue : Queue) (now : Instant) :
    Grows queue (queue.removeExpired now).2 := by
  rw [removeExpired_eq]
  refine .trans ?_ (deliverAll _ _ _)
  exact of_eq rfl

end Grows

theorem mem_outcomesOf_deliverAll {ops : List Operation} {op : Operation} (member : op ∈ ops) :
    outcome ∈ (queue.deliverAll ops outcome).outcomesOf op.ticket := by
  rw [mem_outcomesOf, deliverAll_eq]
  exact List.mem_append_left _ (List.mem_reverse.2 (List.mem_map_of_mem member))

/-- Giving everything up cancels all there is. -/
theorem mem_outcomesOf_clear (queue : Queue) (ticket : Nat) :
    .error .cancelled ∈ queue.clear.outcomesOf ticket ↔
      .error .cancelled ∈ queue.outcomesOf ticket ∨ ∃ op ∈ queue.all, op.ticket = ticket := by
  unfold clear
  rw [mem_outcomesOf, mem_outcomesOf, deliverAll_eq, List.mem_append, or_comm]
  simp

theorem filters_of_none {stale : Operation → Bool} {ops : List Operation}
    (nobody : ∀ op ∈ ops, stale op = false) :
    ops.filter stale = [] ∧ ops.filter (fun op => !stale op) = ops :=
  ⟨List.filter_eq_nil_iff.2 fun op member => by simp [nobody op member],
    List.filter_eq_self.2 fun op member => by simp [nobody op member]⟩

/-- A sweep that expired nobody has done nothing. -/
theorem removeExpired_of_spared {now : Instant}
    (spared : ∀ op ∈ queue.all,
      .error .expired ∉ (queue.removeExpired now).2.outcomesOf op.ticket) :
    queue.removeExpired now = (0, queue) := by
  rw [removeExpired_eq] at spared ⊢
  dsimp only at spared ⊢
  have nobody : ∀ op ∈ queue.pending.filter (·.isExpired now)
      ++ queue.parked.filter (·.isExpired now) ++ queue.inFlight.filter (queue.canExpire now),
      op ∉ queue.all :=
    fun op old held => spared op held (mem_outcomesOf_deliverAll old)
  simp only [List.mem_append, List.mem_filter, all, not_or] at nobody
  obtain ⟨no_pending, pending⟩ := filters_of_none fun op member => by_contra fun old =>
    (nobody op (.inl (.inl ⟨member, eq_true_of_ne_false old⟩))).1.1 member
  obtain ⟨no_parked, parked⟩ := filters_of_none fun op member => by_contra fun old =>
    (nobody op (.inl (.inr ⟨member, eq_true_of_ne_false old⟩))).2 member
  obtain ⟨no_inFlight, inFlight⟩ := filters_of_none fun op member => by_contra fun old =>
    (nobody op (.inr ⟨member, eq_true_of_ne_false old⟩)).1.2 member
  rw [no_pending, no_parked, no_inFlight, pending, parked, inFlight]
  rfl

/-- Operations that all went into flight without displacing anybody are simply in flight. -/
theorem foldl_launch_of_spared {ops : List Operation}
    (spared : ∀ op ∈ queue.inFlight ++ ops,
      .error .cancelled ∉ (ops.foldl launch queue).outcomesOf op.ticket) :
    ops.foldl launch queue = { queue with inFlight := queue.inFlight ++ ops } := by
  induction ops generalizing queue with
  | nil => simp
  | cons op rest ih =>
    have fresh : ∀ other ∈ queue.inFlight, other.hint ≠ op.hint := by
      intro other member same
      refine spared other (List.mem_append_left _ member) ?_
      rw [List.foldl_cons]
      refine Grows.keeps (Grows.foldl_launch _ rest) ?_
      rw [launch_eq]
      exact mem_outcomesOf_deliverAll (List.mem_filter.2 ⟨member, by simpa using same⟩)
    rw [List.foldl_cons, launch_of_fresh fresh] at spared ⊢
    rw [ih]
    · simp only [List.append_cons queue.inFlight op rest]
    · intro other member
      rw [← List.append_cons] at member
      exact spared other member

end FileBroker.Queue
