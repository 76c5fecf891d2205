import Mathlib.Data.List.Perm.Subperm
import Mathlib.Data.List.Sort
import FileBroker.Proofs.Queue.Arrival

/-!
Handing a batch back. Whoever comes back goes to the place it arrived at, whatever order the hints
come in and whoever has arrived meanwhile, so that a batch that comes back whole leaves no trace.
-/
namespace FileBroker

/-- What may be done to a queue while a fetched batch is out. -/
inductive Interim where
  | offer (op : Operation) (admission : Admission)
  | handBack (hints : List Hint)

def Interim.hints : Interim → List Hint
  | .offer _ _ => []
  | .handBack hints => hints

theorem Interim.flatMap_hints_handBack (calls : List (List Hint)) :
    (calls.map Interim.handBack).flatMap Interim.hints = calls.flatten := by
  rw [List.flatMap_map, List.flatten_eq_flatMap]
  rfl

namespace Queue

/-- One thing after the other is done; counts the operations that come back. -/
def interim (queue : Queue) : List Interim → Nat × Queue
  | [] => (0, queue)
  | .offer op admission :: rest => (queue.enqueue op admission).2.interim rest
  | .handBack hints :: rest =>
    let (count, after) := queue.handBack hints
    let (others, ended) := after.interim rest
    (count + others, ended)

/-- The operations that are admitted on the way, each at the place where it arrives. -/
def arrivals (queue : Queue) : List Interim → List Operation
  | [] => []
  | .offer op admission :: rest =>
    let (result, after) := queue.enqueue op admission
    match result with
    | .ok () => { op with seq := queue.lastSeq + 1 } :: after.arrivals rest
    | .error _ => after.arrivals rest
  | .handBack hints :: rest => (queue.handBack hints).2.arrivals rest

/-! ### Places of arrival -/

/-- Pending operations stand in the order they arrived in, and with those in flight each of them
arrived at a place of its own. -/
structure Arrayed (queue : Queue) : Prop where
  sorted : queue.pending.Pairwise fun older newer => older.seq < newer.seq
  unique : ((queue.pending ++ queue.inFlight).map Operation.seq).Nodup
  bounded : ∀ op ∈ queue.pending ++ queue.inFlight, op.seq ≤ queue.lastSeq

theorem nodup_of_sorted {ops : List Operation}
    (sorted : ops.Pairwise fun older newer => older.seq < newer.seq) : ops.Nodup :=
  sorted.imp fun earlier same => absurd (congrArg Operation.seq same) (Nat.ne_of_lt earlier)

/-- An operation goes among the others, and they stay. -/
theorem insertPending_perm (op : Operation) (pending : List Operation) :
    (insertPending op pending).Perm (op :: pending) := by
  have whole := List.takeWhile_append_dropWhile (p := fun other : Operation => other.seq < op.seq)
    (l := pending)
  conv_rhs => rw [← whole]
  exact List.perm_middle

/-- Whoever is in flight after a run joined was so before, or is of the run. -/
theorem inFlight_foldl_launch_sublist (run : List Operation) (queue : Queue) :
    (run.foldl launch queue).inFlight.Sublist (queue.inFlight ++ run) := by
  induction run generalizing queue with
  | nil => simp
  | cons op rest ih =>
    have first : (queue.launch op).inFlight.Sublist (queue.inFlight ++ [op]) := by
      rw [launch_eq, inFlight_deliverAll]
      exact List.filter_sublist.append_right [op]
    rw [List.foldl_cons, List.append_cons queue.inFlight op rest]
    exact (ih (queue.launch op)).trans (first.append_right rest)

/-- What an offer comes to: a refusal, which moves nobody, or one more operation at the end. -/
theorem enqueue_cases (queue : Queue) (op : Operation) (admission : Admission) :
    (∃ error, queue.enqueue op admission = (.error error, queue.deliver op (.error .cancelled))) ∨
      queue.enqueue op admission = (.ok (), { queue with
        lastSeq := queue.lastSeq + 1
        pending := queue.pending ++ [{ op with seq := queue.lastSeq + 1 }] }) := by
  unfold enqueue
  split
  · exact .inl ⟨_, rfl⟩
  · split
    · exact .inl ⟨_, rfl⟩
    · exact .inr rfl

namespace Arrayed

variable {queue after : Queue}

/-- Operations may leave, and change sides between those pending and those in flight. -/
theorem relocate (arrayed : queue.Arrayed)
    (sorted : after.pending.Pairwise fun older newer => older.seq < newer.seq)
    (moved : (after.pending ++ after.inFlight).Subperm (queue.pending ++ queue.inFlight))
    (lastSeq : after.lastSeq = queue.lastSeq) : after.Arrayed where
  sorted := sorted
  unique := by
    obtain ⟨same, perm, sublist⟩ := moved
    exact (perm.map Operation.seq).nodup_iff.1 (arrayed.unique.sublist (sublist.map Operation.seq))
  bounded op member := lastSeq ▸ arrayed.bounded op (moved.subset member)

theorem nodup_pending (arrayed : queue.Arrayed) : queue.pending.Nodup :=
  nodup_of_sorted arrayed.sorted

theorem shrink (arrayed : queue.Arrayed) (pending : after.pending.Sublist queue.pending)
    (inFlight : after.inFlight.Sublist queue.inFlight) (lastSeq : after.lastSeq = queue.lastSeq) :
    after.Arrayed :=
  arrayed.relocate (arrayed.sorted.sublist pending) (pending.append inFlight).subperm lastSeq

theorem enqueue (arrayed : queue.Arrayed) (op : Operation) (admission : Admission) :
    (queue.enqueue op admission).2.Arrayed := by
  rcases enqueue_cases queue op admission with ⟨error, refused⟩ | admitted
  · rw [refused]
    exact arrayed.shrink (.refl _) (.refl _) rfl
  · -- The new operation is alone beyond the last place that was given out.
    have later : ∀ other ∈ queue.pending ++ queue.inFlight, other.seq < queue.lastSeq + 1 :=
      fun other member => Nat.lt_succ_of_le (arrayed.bounded other member)
    rw [admitted]
    refine ⟨?_, ?_, fun other member => ?_⟩
    · refine List.pairwise_append.2 ⟨arrayed.sorted, List.pairwise_singleton _ _, ?_⟩
      intro other waits last single
      obtain rfl := List.mem_singleton.1 single
      exact later other (List.mem_append_left _ waits)
    · rw [List.append_assoc, List.map_append, List.singleton_append, List.map_cons,
        List.nodup_middle, ← List.map_append, List.nodup_cons]
      refine ⟨fun taken => ?_, arrayed.unique⟩
      obtain ⟨other, member, same⟩ := List.mem_map.1 taken
      exact absurd same (Nat.ne_of_lt (later other member))
    · rw [List.append_assoc, List.mem_append, List.singleton_append, List.mem_cons] at member
      rcases member with waits | rfl | flies
      · exact Nat.le_of_lt (later other (List.mem_append_left _ waits))
      · exact Nat.le_refl _
      · exact Nat.le_of_lt (later other (List.mem_append_right _ flies))

theorem dequeue (arrayed : queue.Arrayed) (now : Instant) (deadline : Option Instant)
    (budget : Nat) (boundary : Option Nat) :
    (queue.dequeue now deadline budget boundary).2.Arrayed := by
  rcases dequeue_cases queue now deadline budget boundary with
    ⟨result, same, -⟩ | ⟨older, run, left, cut, fetched⟩
  · rw [same]
    exact arrayed
  · obtain ⟨-, lastSeq, -⟩ := kept_foldl_launch run { queue with pending := older ++ left }
    have flying := inFlight_foldl_launch_sublist run { queue with pending := older ++ left }
    rw [fetched]
    refine arrayed.relocate ?_ ?_ lastSeq <;> rw [pending_foldl_launch]
    · refine arrayed.sorted.sublist ?_
      rw [cut]
      exact (List.Sublist.refl older).append (List.sublist_append_right run left)
    · refine (flying.append_left _).subperm.trans (List.Perm.subperm ?_)
      rw [cut, List.append_assoc older, List.append_assoc older, List.append_assoc run]
      refine List.Perm.append_left older ?_
      rw [← List.append_assoc left]
      exact List.perm_append_comm

/-- Nobody in flight arrived where a pending operation did. -/
theorem fresh (arrayed : queue.Arrayed) {op : Operation} (flies : op ∈ queue.inFlight) :
    ∀ other ∈ queue.pending, op.seq ≠ other.seq := by
  have unique := arrayed.unique
  rw [List.map_append, List.nodup_append] at unique
  exact fun other waits same =>
    unique.2.2 _ (List.mem_map_of_mem waits) _ (List.mem_map_of_mem flies) same.symm

theorem handBack (arrayed : queue.Arrayed) (hints : List Hint) :
    (queue.handBack hints).2.Arrayed := by
  induction hints generalizing queue with
  | nil => exact arrayed
  | cons hint rest ih =>
    unfold Queue.handBack
    rcases land_cases queue hint with ⟨absent, -⟩ | ⟨op, flies, under, -, present⟩
    · rw [absent]
      exact ih arrayed
    · rw [present]
      have sorted := sorted_insertPending arrayed.sorted (arrayed.fresh flies)
      refine ih (arrayed.relocate sorted ?_ rfl)
      have gone : op ∉ queue.inFlight.filter fun other => other.hint != hint := by simp [under]
      have joined := List.cons_subperm_of_not_mem_of_mem gone flies List.filter_sublist.subperm
      refine List.Subperm.trans (List.Perm.subperm ?_)
        ((List.subperm_append_left queue.pending).2 joined)
      exact ((insertPending_perm op queue.pending).append_right _).trans List.perm_middle.symm

/-- Operations that leave without coming back leave the others where they arrived. -/
theorem thin (arrayed : queue.Arrayed) (thinned : Thinned queue after)
    (inFlight : after.inFlight.Sublist queue.inFlight) : after.Arrayed :=
  arrayed.shrink thinned.pending inFlight thinned.lastSeq

theorem land (arrayed : queue.Arrayed) (hint : Hint) : (queue.land hint).2.Arrayed := by
  refine arrayed.thin (thinned_land queue hint).1 ?_
  rcases land_cases queue hint with ⟨absent, -⟩ | ⟨op, -, -, -, present⟩
  · rw [absent]
  · rw [present]
    exact List.filter_sublist

theorem takeDue (arrayed : queue.Arrayed) (now : Instant) : (queue.takeDue now).2.Arrayed := by
  refine arrayed.thin (thinned_takeDue queue now).1 ?_
  unfold Queue.takeDue
  split <;> exact .refl _

theorem cancel (arrayed : queue.Arrayed) (hint : Hint) : (queue.cancel hint).2.Arrayed := by
  refine arrayed.thin (thinned_cancel queue hint) ?_
  unfold Queue.cancel
  split <;> exact .refl _

theorem removeExpired (arrayed : queue.Arrayed) (now : Instant) :
    (queue.removeExpired now).2.Arrayed := by
  refine arrayed.thin (thinned_removeExpired queue now) ?_
  rw [removeExpired_eq, inFlight_deliverAll]
  exact List.filter_sublist

theorem stop (arrayed : queue.Arrayed) (cancelAll : Bool) :
    (queue.stop cancelAll).2.Arrayed := by
  refine arrayed.thin (thinned_stop queue cancelAll) ?_
  cases cancelAll with
  | false => exact .refl _
  | true =>
    have emptied : (queue.stop true).2.inFlight = [] := inFlight_deliverAll ..
    rw [emptied]
    exact List.nil_sublist _

theorem park (arrayed : queue.Arrayed) (now : Instant) (op : Operation) (response : Response) :
    (queue.park now op response).Arrayed := by
  unfold Queue.park
  dsimp only
  split <;> exact arrayed.shrink (.refl _) (.refl _) rfl

end Arrayed

/-! ### A batch that is out -/

theorem handBack_cons (queue : Queue) (hint : Hint) (rest : List Hint) :
    (queue.handBack (hint :: rest)).2 = ((queue.handBack [hint]).2.handBack rest).2 := by
  cases landed : queue.land hint with
  | mk found after => cases found <;> simp only [handBack, landed]

/-- Every operation in flight is counted when it comes back. -/
theorem length_handBack {queue : Queue} (distinct : queue.Distinct) (hints : List Hint) :
    (queue.handBack hints).1 + (queue.handBack hints).2.inFlight.length
      = queue.inFlight.length := by
  induction hints generalizing queue with
  | nil => exact Nat.zero_add _
  | cons hint rest ih =>
    unfold handBack
    rcases land_cases queue hint with ⟨absent, -⟩ | ⟨op, -, -, found, present⟩
    · rw [absent]
      exact ih distinct
    · have landed := distinct_land distinct hint
      have parts := List.length_eq_length_filter_add (l := queue.inFlight)
        fun other => other.hint == hint
      rw [filter_hint_eq_of_find? distinct found, List.length_singleton] at parts
      rw [present] at landed ⊢
      have others := @ih { queue with
        pending := insertPending op queue.pending
        inFlight := queue.inFlight.filter fun other => other.hint != hint } landed
      dsimp only [bne] at others ⊢
      omega

/-- Offers and hand-backs touch nothing else than who is pending and who is in flight, and without
offers nobody arrives. -/
theorem interim_handBack (calls : List (List Hint)) (queue : Queue) :
    queue.arrivals (calls.map .handBack) = [] ∧
      ∃ pending inFlight, (queue.interim (calls.map .handBack)).2
        = { queue with pending, inFlight } := by
  induction calls generalizing queue with
  | nil => exact ⟨rfl, queue.pending, queue.inFlight, rfl⟩
  | cons hints rest ih =>
    obtain ⟨waiting, flying, same, -, -⟩ := handBack_spec hints queue
    obtain ⟨nobody, pending, inFlight, others⟩ := ih (queue.handBack hints).2
    refine ⟨nobody, pending, inFlight, others.trans ?_⟩
    rw [same]

/-- Where the operations are when a batch was fetched from a queue, some of it has come back, and
others have arrived since. -/
structure Returning (queue : Queue) (batch : List Operation) (came : List Hint)
    (newcomers : List Operation) (after : Queue) : Prop where
  arrayed : after.Arrayed
  inFlight : after.inFlight = queue.inFlight ++ batch.filter fun op => op.hint ∉ came
  pending : ∀ op, op ∈ after.pending ↔
    (op ∈ queue.pending ∧ (op ∉ batch ∨ op.hint ∈ came)) ∨ op ∈ newcomers
  lastSeq : queue.lastSeq ≤ after.lastSeq
  later : ∀ op ∈ newcomers, queue.lastSeq < op.seq
  inLine : newcomers.Pairwise fun older newer => older.seq < newer.seq

/-- A batch goes into flight whole and behind the others, and nobody has come yet. -/
theorem returning_dequeue {queue after : Queue} (arrayed : queue.Arrayed)
    (distinct : ((queue.pending ++ queue.inFlight).map Operation.hint).Nodup) {now : Instant}
    {deadline : Option Instant} {budget : Nat} {boundary : Option Nat} {batch : List Operation}
    (fetched : queue.dequeue now deadline budget boundary = (.ready (.ok batch), after)) :
    batch.Sublist queue.pending ∧
      (∃ pending, after = { queue with pending, inFlight := queue.inFlight ++ batch }) ∧
      Returning queue batch [] [] after := by
  have kept := arrayed.dequeue now deadline budget boundary
  rcases dequeue_cases queue now deadline budget boundary with
    ⟨result, same, nothing⟩ | ⟨older, run, left, cut, brought⟩
  · rw [same] at fetched kept
    cases fetched
    rw [nothing batch rfl, List.append_nil]
    exact ⟨List.nil_sublist _, ⟨_, rfl⟩, kept, by simp, by simp, Nat.le_refl _, by simp, .nil⟩
  · rw [brought] at fetched kept
    cases fetched
    have part : batch.Sublist queue.pending := by
      rw [cut]
      exact (List.sublist_append_left batch left).trans (List.sublist_append_right older _)
    have flying : ((queue.inFlight ++ batch).map Operation.hint).Nodup := by
      refine (List.perm_append_comm.map _).nodup_iff.1 (distinct.sublist ?_)
      exact (part.append_right _).map _
    have joined := @foldl_launch_of_nodup batch { queue with pending := older ++ left } flying
    rw [joined] at kept ⊢
    refine ⟨part, ⟨_, rfl⟩, kept, by simp, fun op => ?_, Nat.le_refl _, by simp, .nil⟩
    -- Nobody is pending twice, so whoever is not of the batch stood before or behind it.
    have unique := arrayed.nodup_pending
    rw [cut, List.nodup_append, List.nodup_append] at unique
    have apart : op ∈ older ++ left → op ∉ batch := by
      rw [List.mem_append]
      rintro (before | behind) brought
      · exact unique.2.2 op before op (List.mem_append_left _ brought) rfl
      · exact unique.2.1.2.2 op brought op behind rfl
    rw [cut]
    simp only [List.mem_append, List.not_mem_nil, or_false] at apart ⊢
    tauto

namespace Returning

variable {queue after : Queue} {batch newcomers : List Operation} {came hints : List Hint}

theorem distinct (returning : Returning queue batch came newcomers after)
    (distinct : ((queue.pending ++ queue.inFlight).map Operation.hint).Nodup)
    (part : batch.Sublist queue.pending) : after.Distinct := by
  unfold Distinct
  rw [returning.inFlight]
  refine (List.perm_append_comm.map _).nodup_iff.1 (distinct.sublist ?_)
  exact ((List.filter_sublist.trans part).append_right _).map _

/-- Whoever comes to the queue comes behind those who came before. -/
theorem enqueue (returning : Returning queue batch came newcomers after) (op : Operation)
    (admission : Admission) :
    ∃ more, (∀ rest, after.arrivals (.offer op admission :: rest)
        = more ++ (after.enqueue op admission).2.arrivals rest) ∧
      Returning queue batch came (newcomers ++ more) (after.enqueue op admission).2 ∧
      (after.enqueue op admission).2.inFlight = after.inFlight := by
  have kept := returning.arrayed.enqueue op admission
  rcases enqueue_cases after op admission with ⟨error, refused⟩ | admitted
  · rw [refused] at kept ⊢
    refine ⟨[], fun rest => by rw [arrivals, refused]; rfl, ?_, rfl⟩
    rw [List.append_nil]
    exact ⟨kept, returning.inFlight, returning.pending, returning.lastSeq, returning.later,
      returning.inLine⟩
  · rw [admitted] at kept ⊢
    refine ⟨[{ op with seq := after.lastSeq + 1 }], fun rest => by rw [arrivals, admitted]; rfl,
      ⟨kept, returning.inFlight, fun other => ?_, ?_, ?_, ?_⟩, rfl⟩
    · rw [List.mem_append, List.mem_append, returning.pending]
      tauto
    · exact Nat.le_succ_of_le returning.lastSeq
    · intro other member
      rcases List.mem_append.1 member with old | new
      · exact returning.later other old
      · obtain rfl := List.mem_singleton.1 new
        exact Nat.lt_succ_of_le returning.lastSeq
    · refine List.pairwise_append.2 ⟨returning.inLine, List.pairwise_singleton _ _, ?_⟩
      intro other old new single
      obtain rfl := List.mem_singleton.1 single
      refine Nat.lt_succ_of_le (returning.arrayed.bounded other (List.mem_append_left _ ?_))
      exact (returning.pending other).2 (.inr old)

/-- Of the batch, those under a hint are no longer out once it is handed back. -/
theorem inFlight_land (returning : Returning queue batch came newcomers after) {hint : Hint}
    (others : ∀ op ∈ queue.inFlight, op.hint ≠ hint) :
    (after.inFlight.filter fun op => op.hint != hint)
      = queue.inFlight ++ batch.filter fun op => op.hint ∉ came ++ [hint] := by
  have stay : (queue.inFlight.filter fun op => op.hint != hint) = queue.inFlight :=
    List.filter_eq_self.2 fun op flies => by simpa using others op flies
  rw [returning.inFlight, List.filter_append, stay, List.filter_filter]
  congr 2
  funext op
  rw [Bool.eq_iff_iff]
  simp [and_comm]

/-- Whoever of the batch has not come back is in flight. -/
theorem out (returning : Returning queue batch came newcomers after) {op : Operation}
    (member : op ∈ batch) : op.hint ∈ came ∨ op ∈ after.inFlight := by
  by_cases back : op.hint ∈ came
  · exact .inl back
  · rw [returning.inFlight]
    exact .inr (List.mem_append_right _ (List.mem_filter.2 ⟨member, by simpa using back⟩))

/-- A hint is handed back that nobody had who was in flight before the batch: whoever of the batch
is under it waits again. -/
theorem handBack_single (returning : Returning queue batch came newcomers after)
    (distinct : ((queue.pending ++ queue.inFlight).map Operation.hint).Nodup)
    (part : batch.Sublist queue.pending) {hint : Hint}
    (others : ∀ op ∈ queue.inFlight, op.hint ≠ hint) :
    Returning queue batch (came ++ [hint]) newcomers (after.handBack [hint]).2 := by
  have kept := returning.arrayed.handBack [hint]
  have flying := returning.inFlight_land others
  unfold Queue.handBack at kept ⊢
  rcases land_cases after hint with ⟨absent, free⟩ | ⟨op, flies, under, -, present⟩
  · rw [absent] at kept ⊢
    rw [List.filter_eq_self.2 fun op flies => by simpa using free op flies] at flying
    refine ⟨kept, flying, fun op => ?_, returning.lastSeq, returning.later, returning.inLine⟩
    have back : op ∈ batch → op.hint = hint → op.hint ∈ came := fun member under =>
      (returning.out member).resolve_right fun flies => free op flies under
    change op ∈ after.pending ↔ _
    rw [returning.pending, List.mem_append, List.mem_singleton]
    tauto
  · rw [present] at kept ⊢
    refine ⟨kept, flying, fun other => ?_, returning.lastSeq, returning.later, returning.inLine⟩
    have ours : op ∈ batch := by
      rw [returning.inFlight] at flies
      rcases List.mem_append.1 flies with before | ofBatch
      · exact absurd under (others op before)
      · exact List.mem_of_mem_filter ofBatch
    have alone := List.inj_on_of_nodup_map (returning.distinct distinct part) flies
    have back : other ∈ batch → other.hint = hint → other.hint ∈ came ∨ other = op := by
      intro member same
      refine (returning.out member).imp_right fun flew => ?_
      exact (alone flew (under.trans same.symm)).symm
    have waited := part.subset ours
    change other ∈ insertPending op after.pending ↔ _
    rw [mem_insertPending, returning.pending, List.mem_append, List.mem_singleton]
    constructor
    · rintro (rfl | old)
      · exact .inl ⟨waited, .inr (.inr under)⟩
      · tauto
    · tauto

/-- One hint after the other is handed back. -/
theorem handBack (returning : Returning queue batch came newcomers after)
    (distinct : ((queue.pending ++ queue.inFlight).map Operation.hint).Nodup)
    (part : batch.Sublist queue.pending)
    (others : ∀ op ∈ queue.inFlight, op.hint ∉ hints) :
    Returning queue batch (came ++ hints) newcomers (after.handBack hints).2 := by
  induction hints generalizing came after with
  | nil => rwa [List.append_nil]
  | cons hint rest ih =>
    have first : ∀ op ∈ queue.inFlight, op.hint ≠ hint := fun op flies =>
      List.ne_of_not_mem_cons (others op flies)
    have further : ∀ op ∈ queue.inFlight, op.hint ∉ rest := fun op flies =>
      List.not_mem_of_not_mem_cons (others op flies)
    rw [List.append_cons, handBack_cons]
    exact ih (returning.handBack_single distinct part first) further

/-- One thing after the other is done, and those of the batch who come back are counted. -/
theorem interim (returning : Returning queue batch came newcomers after)
    (distinct : ((queue.pending ++ queue.inFlight).map Operation.hint).Nodup)
    (part : batch.Sublist queue.pending) (steps : List Interim)
    (others : ∀ op ∈ queue.inFlight, op.hint ∉ steps.flatMap Interim.hints) :
    Returning queue batch (came ++ steps.flatMap Interim.hints)
        (newcomers ++ after.arrivals steps) (after.interim steps).2 ∧
      (after.interim steps).1 + (after.interim steps).2.inFlight.length
        = after.inFlight.length := by
  induction steps generalizing after came newcomers with
  | nil =>
    refine ⟨?_, Nat.zero_add _⟩
    rwa [List.flatMap_nil, List.append_nil, arrivals, List.append_nil]
  | cons step rest ih =>
    rw [List.flatMap_cons] at others ⊢
    cases step with
    | offer op admission =>
      have nothing : (Interim.offer op admission).hints = [] := rfl
      rw [nothing, List.nil_append] at others ⊢
      obtain ⟨more, arrive, next, same⟩ := returning.enqueue op admission
      obtain ⟨last, count⟩ := ih next others
      rw [arrive, ← List.append_assoc]
      exact ⟨last, count.trans (congrArg List.length same)⟩
    | handBack hints =>
      have here : ∀ op ∈ queue.inFlight, op.hint ∉ hints := fun op flies named =>
        others op flies (List.mem_append_left _ named)
      have further : ∀ op ∈ queue.inFlight, op.hint ∉ rest.flatMap Interim.hints :=
        fun op flies named => others op flies (List.mem_append_right _ named)
      obtain ⟨last, count⟩ := ih (returning.handBack distinct part here) further
      have first := length_handBack (returning.distinct distinct part) hints
      refine ⟨?_, ?_⟩
      · rw [← List.append_assoc]
        exact last
      · unfold Queue.interim
        dsimp only
        omega

/-- Who is pending stands in order of arrival: those who stood there before, save for those of the
batch that are still out, and behind them those who came. -/
theorem pending_eq (returning : Returning queue batch came newcomers after)
    (arrayed : queue.Arrayed) :
    after.pending
      = (queue.pending.filter fun op => op ∉ batch ∨ op.hint ∈ came) ++ newcomers := by
  have sorted : ((queue.pending.filter fun op => op ∉ batch ∨ op.hint ∈ came)
      ++ newcomers).Pairwise fun older newer => older.seq < newer.seq := by
    refine List.pairwise_append.2 ⟨arrayed.sorted.sublist List.filter_sublist, returning.inLine, ?_⟩
    intro op stays other new
    refine Nat.lt_of_le_of_lt (arrayed.bounded op ?_) (returning.later other new)
    exact List.mem_append_left _ (List.mem_of_mem_filter stays)
  refine List.Perm.eq_of_pairwise (fun op other _ _ before behind => ?_) returning.arrayed.sorted
    sorted ((List.perm_ext_iff_of_nodup returning.arrayed.nodup_pending
      (nodup_of_sorted sorted)).2 fun op => ?_)
  · exact absurd behind (Nat.lt_asymm before)
  · rw [returning.pending, List.mem_append, List.mem_filter, decide_eq_true_iff]

end Returning

section Fetched

variable {queue fetching : Queue} {now : Instant} {deadline : Option Instant} {budget : Nat}
  {boundary : Option Nat} {batch : List Operation}

/-- What comes of a batch that is fetched, when hints are handed back that are of the batch or
nobody's in flight. -/
theorem interim_fetched (arrayed : queue.Arrayed)
    (distinct : ((queue.pending ++ queue.inFlight).map Operation.hint).Nodup)
    (fetched : queue.dequeue now deadline budget boundary = (.ready (.ok batch), fetching))
    {steps : List Interim}
    (foreign : ∀ hint ∈ steps.flatMap Interim.hints, hint ∉ batch.map Operation.hint →
      hint ∉ fetching.inFlight.map Operation.hint) :
    Returning queue batch (steps.flatMap Interim.hints) (fetching.arrivals steps)
        (fetching.interim steps).2 ∧
      (fetching.interim steps).1
        = (batch.filter fun op => op.hint ∈ steps.flatMap Interim.hints).length := by
  obtain ⟨part, ⟨pending, whole⟩, returning⟩ := returning_dequeue arrayed distinct fetched
  have flying : fetching.inFlight = queue.inFlight ++ batch := by rw [whole]
  -- A hint of the batch is nobody else's.
  have others : ∀ op ∈ queue.inFlight, op.hint ∉ steps.flatMap Interim.hints := by
    intro op flies named
    have out : op.hint ∈ fetching.inFlight.map Operation.hint :=
      List.mem_map_of_mem (flying ▸ List.mem_append_left _ flies)
    obtain ⟨other, member, same⟩ := List.mem_map.1 (not_imp_comm.1 (foreign op.hint named)
      (not_not_intro out))
    rw [List.map_append, List.nodup_append] at distinct
    exact distinct.2.2 _ (List.mem_map_of_mem (part.subset member)) _ (List.mem_map_of_mem flies)
      same
  obtain ⟨ended, count⟩ := returning.interim distinct part steps others
  rw [List.nil_append, List.nil_append] at ended
  refine ⟨ended, ?_⟩
  have parts := List.length_eq_length_filter_add (l := batch)
    fun op => op.hint ∈ steps.flatMap Interim.hints
  rw [ended.inFlight, flying, List.length_append, List.length_append] at count
  simp only [decide_not] at count
  omega

/-- A batch that comes back whole leaves no trace. -/
theorem interim_whole (arrayed : queue.Arrayed)
    (distinct : ((queue.pending ++ queue.inFlight).map Operation.hint).Nodup)
    (fetched : queue.dequeue now deadline budget boundary = (.ready (.ok batch), fetching))
    {calls : List (List Hint)} (covered : ∀ op ∈ batch, op.hint ∈ calls.flatten)
    (foreign : ∀ hint ∈ calls.flatten, hint ∉ batch.map Operation.hint →
      hint ∉ fetching.inFlight.map Operation.hint) :
    fetching.interim (calls.map .handBack) = (batch.length, queue) := by
  obtain ⟨-, ⟨pending, whole⟩, -⟩ := returning_dequeue arrayed distinct fetched
  obtain ⟨nobody, waiting, flying, kept⟩ := interim_handBack calls fetching
  have came := Interim.flatMap_hints_handBack calls
  rw [← came] at foreign
  obtain ⟨ended, count⟩ := interim_fetched arrayed distinct fetched foreign
  have inFlight := ended.inFlight
  have pending := ended.pending_eq arrayed
  rw [came] at inFlight pending count
  rw [kept] at inFlight pending
  have all : (batch.filter fun op => op.hint ∈ calls.flatten) = batch :=
    List.filter_eq_self.2 fun op member => decide_eq_true (covered op member)
  have none : (batch.filter fun op => op.hint ∉ calls.flatten) = [] :=
    List.filter_eq_nil_iff.2 fun op member => by simpa using covered op member
  have restored : (queue.pending.filter fun op => op ∉ batch ∨ op.hint ∈ calls.flatten)
      = queue.pending :=
    List.filter_eq_self.2 fun op _ =>
      decide_eq_true ((Decidable.em (op ∈ batch)).symm.imp_right (covered op))
  rw [none, List.append_nil] at inFlight
  rw [restored, nobody, List.append_nil] at pending
  refine Prod.ext (count.trans (congrArg List.length all)) ?_
  dsimp only at inFlight pending
  rw [kept, inFlight, pending, whole]

end Fetched

end Queue

namespace Ensemble

open Queue (Arrayed)

variable {ensemble : Ensemble}

theorem arrayed_release (arrayed : ensemble.queue.Arrayed) {index : Nat}
    {receive : Operation → Queue} (received : ∀ op, (receive op).Arrayed) :
    (ensemble.release index receive).queue.Arrayed := by
  unfold release
  split
  · exact arrayed
  · exact received _

/-- Whatever is done, each operation keeps the place it arrived at. -/
theorem arrayed_step (arrayed : ensemble.queue.Arrayed) (move : Move) :
    (ensemble.step move).queue.Arrayed := by
  cases move with
  | create request timeout now => exact arrayed
  | enqueue index admission => exact arrayed_release arrayed fun op => arrayed.enqueue op admission
  | dequeue now deadline budget boundary => exact arrayed.dequeue now deadline budget boundary
  | land hint => exact arrayed.land hint
  | takeDue now => exact arrayed.takeDue now
  | handBack hints => exact arrayed.handBack hints
  | cancel hint => exact arrayed.cancel hint
  | removeExpired now => exact arrayed.removeExpired now
  | stop cancelAll => exact arrayed.stop cancelAll
  | park index now response => exact arrayed_release arrayed fun op => arrayed.park now op response
  | takeResponse index => exact arrayed
  | complete index outcome =>
    exact arrayed_release arrayed fun op => arrayed.shrink (.refl _) (.refl _) rfl
  | giveUp index =>
    exact arrayed_release arrayed fun op => arrayed.shrink (.refl _) (.refl _) rfl

theorem arrayed_run (arrayed : ensemble.queue.Arrayed) (moves : List Move) :
    (ensemble.run moves).queue.Arrayed := by
  induction moves generalizing ensemble with
  | nil => exact arrayed
  | cons move rest ih => exact ih (arrayed_step arrayed move)

theorem arrayed_start (capacity : Nat) (retryDelay : Span) (expiresInFlight : Bool) :
    (start capacity retryDelay expiresInFlight).queue.Arrayed :=
  ⟨.nil, .nil, fun _ member => absurd member List.not_mem_nil⟩

/-- A hand-back undoes a fetch. Take any queue that moves lead to and whose outstanding hints are
distinct, and a batch fetched from it. If all its hints are handed back, in any order, in one call
or several, again or together with hints that nobody in flight has, then as many operations come
back as were fetched, and the queue is what it was. If some are handed back while others arrive,
then just these are counted and wait again, the rest of the batch stays in flight, and everybody who
is pending stands in order of arrival: those who were pending before, save for those still out, and
the newcomers behind them. -/
theorem hand_back_undoes_fetch (capacity : Nat) (retryDelay : Span) (expiresInFlight : Bool)
    (moves : List Move) (now : Instant) (deadline : Option Instant) (budget : Nat)
    (boundary : Option Nat) (batch : List Operation) (fetching : Queue) :
    let queue := ((start capacity retryDelay expiresInFlight).run moves).queue
    ((queue.pending ++ queue.inFlight).map Operation.hint).Nodup →
    queue.dequeue now deadline budget boundary = (.ready (.ok batch), fetching) →
    (∀ calls : List (List Hint),
      (∀ op ∈ batch, op.hint ∈ calls.flatten) →
      (∀ hint ∈ calls.flatten, hint ∉ batch.map Operation.hint →
        hint ∉ fetching.inFlight.map Operation.hint) →
      fetching.interim (calls.map .handBack) = (batch.length, queue)) ∧
    ∀ steps : List Interim,
      (∀ hint ∈ steps.flatMap Interim.hints, hint ∉ batch.map Operation.hint →
        hint ∉ fetching.inFlight.map Operation.hint) →
      let came := steps.flatMap Interim.hints
      let after := (fetching.interim steps).2
      (fetching.interim steps).1 = (batch.filter fun op => op.hint ∈ came).length ∧
      after.inFlight = queue.inFlight ++ batch.filter (fun op => op.hint ∉ came) ∧
      after.pending = queue.pending.filter (fun op => op ∉ batch ∨ op.hint ∈ came)
        ++ fetching.arrivals steps ∧
      after.pending.Pairwise fun older newer => older.seq < newer.seq := by
  intro queue distinct fetched
  have arrayed : queue.Arrayed :=
    arrayed_run (arrayed_start capacity retryDelay expiresInFlight) moves
  refine ⟨fun calls covered foreign => ?_, fun steps foreign => ?_⟩
  · exact Queue.interim_whole arrayed distinct fetched covered foreign
  · obtain ⟨ended, count⟩ := Queue.interim_fetched arrayed distinct fetched foreign
    exact ⟨count, ended.inFlight, ended.pending_eq arrayed, ended.arrayed.sorted⟩

/-- Three operations arrive. -/
def arrivalOfThree : List Move :=
  let shutdown : Request := ⟨.v1, ⟨1⟩, .shutdown, []⟩
  [.create shutdown none 0, .enqueue 0 .capacityLimited,
    .create (shutdown.withHint ⟨2⟩) none 0, .enqueue 0 .capacityLimited,
    .create (shutdown.withHint ⟨3⟩) none 0, .enqueue 0 .capacityLimited]

/-- The first two of three are fetched, and come back in turn, a stranger's hint among theirs. -/
theorem hand_back_undoes_fetch_arrivalOfThree :
    let queue := ((start 4 0 false).run arrivalOfThree).queue
    let fetching := (queue.dequeue 0 none 160 none).2
    fetching.inFlight = queue.pending.take 2 ∧
      fetching.interim [.handBack [⟨2⟩, ⟨7⟩], .handBack [⟨1⟩, ⟨2⟩]] = (2, queue) ∧
      ∀ op admission,
        (fetching.interim [.offer op admission, .handBack [⟨2⟩]]).2.inFlight
          = queue.pending.take 1 := by
  intro queue fetching
  obtain ⟨whole, partly⟩ := hand_back_undoes_fetch 4 0 false arrivalOfThree 0 none 160 none
    (queue.pending.take 2) fetching (by decide) rfl
  refine ⟨rfl, whole [[⟨2⟩, ⟨7⟩], [⟨1⟩, ⟨2⟩]] (by decide) (by decide), fun op admission => ?_⟩
  have ours : ∀ hint ∈ [⟨2⟩], hint ∉ (queue.pending.take 2).map Operation.hint →
      hint ∉ fetching.inFlight.map Operation.hint := by decide
  exact (partly [.offer op admission, .handBack [⟨2⟩]] ours).2.1

end Ensemble
end FileBroker
