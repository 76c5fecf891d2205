import FileBroker.Proofs.Volume.History

/-!
Requests that fail. A volume makes a file, gives out a handle, writes or adds to a draft only when
nothing that comes after it can fail. So a failure leaves the volume and the draft as they were, and
what a run of requests leaves behind is what the successful ones among them leave behind.
-/
namespace FileBroker.Volume

variable {volume after : Volume} {now : UInt64} {request : Request} {status : Status}
  {information : UInt64} {draft : Response.Draft}

/-- What does not succeed is refused, for a reason that was there before anything was done. -/
theorem refuses_of_failed
    (handled : handle now volume request (.ofRequest request)
      = (.complete status information draft, after))
    (failed : status ≠ .success) :
    volume.Refuses request status ∧ after = volume ∧ information = 0 ∧
      draft = .ofRequest request := by
  unfold handle at handled
  split at handled
  · cases handled
  · cases handled
    exact absurd rfl failed
  · next refused left unchanged done =>
    cases handled
    -- An answer of the wrong kind would be refused after the fact: there is none.
    cases step_leads done with
    | refused refuses => exact ⟨refuses, rfl, rfl, rfl⟩

/-- A request that fails changes nothing: the volume is what it was, nothing is counted, and the
draft for its response has neither fields nor data. -/
theorem failure_changes_nothing (volume : Volume) (now : UInt64) (request : Request)
    (handled : handle now volume request (.ofRequest request)
      = (.complete status information draft, after))
    (failed : status ≠ .success) :
    after = volume ∧ information = 0 ∧ draft = .ofRequest request ∧
      draft.answer = .empty request.kind ∧ draft.trailing = [] ∧ status.isSuccess = false := by
  obtain ⟨refuses, rfl, rfl, rfl⟩ := refuses_of_failed handled failed
  exact ⟨rfl, rfl, rfl, rfl, rfl, refuses.failed.1⟩

/-- One byte more than a volume of sixteen has room for. -/
def overfull : Request := ⟨.v1, ⟨1⟩, .write ⟨1, 1⟩ 16 ⟨80, 1⟩ 0 false, [7]⟩

/-- The file is not filled up to where the byte was to go. -/
theorem failure_changes_nothing_overfull :
    ∃ information draft after,
      handle 0 (openedA 1 1).after overfull (.ofRequest overfull)
        = (.complete .insufficientResources information draft, after) ∧
      after = (openedA 1 1).after ∧ information = 0 ∧ draft.answer = .empty .write ∧
      draft.trailing = [] := by
  have handled : handle 0 (openedA 1 1).after overfull (.ofRequest overfull)
      = (.complete .insufficientResources 0 (.ofRequest overfull), (openedA 1 1).after) := by rfl
  obtain ⟨same, count, -, answer, trailing, -⟩ :=
    failure_changes_nothing _ 0 overfull handled (by decide)
  exact ⟨_, _, _, handled, same, count, answer, trailing⟩

/-! ### Runs -/

/-- Whether the request was granted. -/
def Turn.succeeded (turn : Turn) : Bool := turn.response.status.isSuccess

/-- A request that was answered was granted, or has left the volume alone. -/
theorem success_or_unchanged {response : Response}
    (sends : volume.Sends now request response after) :
    response.status.isSuccess = true ∨ response.status.isSuccess = false ∧ after = volume := by
  cases course_of_sends sends with
  | refused refuses => exact .inr ⟨refuses.failed.1, rfl⟩
  | granted fulfils =>
    left
    rw [fulfils.valid.1]
    decide

/-- Leaving out the requests that failed changes neither the answers to the others nor what the
volume holds in the end. -/
theorem runs_filter_succeeded {turns : List Turn} (runs : volume.Runs turns) :
    volume.Runs (turns.filter Turn.succeeded) ∧
      volume.ends (turns.filter Turn.succeeded) = volume.ends turns := by
  induction turns generalizing volume with
  | nil => exact ⟨trivial, rfl⟩
  | cons turn rest ih =>
    obtain ⟨⟨now, sends⟩, onward⟩ := runs
    obtain ⟨further, same⟩ := ih onward
    rcases success_or_unchanged sends with success | ⟨failed, unchanged⟩
    · have kept : turn.succeeded = true := success
      rw [List.filter_cons_of_pos kept]
      exact ⟨⟨⟨now, sends⟩, further⟩, same⟩
    · have left : ¬ turn.succeeded = true := Bool.eq_false_iff.1 failed
      rw [List.filter_cons_of_neg left]
      rw [unchanged] at further same
      exact ⟨further, same.trans (congrArg (ends · rest) unchanged.symm)⟩

end FileBroker.Volume
