import FileBroker.Proofs.Response.Draft

/-!
Whatever a handler does to a draft, in any order and with any of its calls refused, the response
that is built from it is read back from the wire as it was built. No region of an answer that was
set before a reset is left to point into data that is gone.
-/
namespace FileBroker.Response

namespace Draft

/-- A call of one of the methods of a draft. -/
inductive Step where
  | append (bytes : Bytes)
  | setAnswer (answer : Answer)
  | setStatus (status : Status) (information : UInt64)
  | resetToStatus (status : Status)

/-- A call that is refused leaves the draft as it was. -/
def perform (draft : Draft) : Step → Draft
  | .append bytes =>
    match draft.append bytes with
    | .ok (_, after) => after
    | .error _ => draft
  | .setAnswer answer =>
    match draft.setAnswer answer with
    | .ok after => after
    | .error _ => draft
  | .setStatus status information => draft.setStatus status information
  | .resetToStatus status => draft.resetToStatus status

def performAll (draft : Draft) (steps : List Step) : Draft := steps.foldl perform draft

variable {revision : Revision} {hint : Hint} {kind : Kind} {draft : Draft}

theorem Belongs.perform (belongs : draft.Belongs revision hint kind) (step : Step) :
    (draft.perform step).Belongs revision hint kind := by
  unfold Draft.perform
  cases step with
  | append bytes =>
    dsimp only
    split
    · next appended => exact belongs.append appended
    · exact belongs
  | setAnswer answer =>
    dsimp only
    split
    · next set => exact belongs.setAnswer set
    · exact belongs
  | setStatus status information => exact belongs.setStatus status information
  | resetToStatus status => exact belongs.resetToStatus status

theorem Belongs.performAll (belongs : draft.Belongs revision hint kind) (steps : List Step) :
    (draft.performAll steps).Belongs revision hint kind := by
  induction steps generalizing draft with
  | nil => exact belongs
  | cons step rest ih => exact ih (belongs.perform step)

/-- A reset takes the region of the answer away together with the data. -/
theorem build_resetToStatus (belongs : draft.Belongs revision hint kind) (status : Status) :
    (draft.resetToStatus status).build = .ok (ofStatus revision hint kind status) := by
  refine build_eq_ok.2 ⟨?_, ?_⟩
  · exact (wellFormed_ofStatus draft.revision draft.hint draft.kind status).2
  · rw [← belongs.revision, ← belongs.hint, ← belongs.kind]
    rfl

end Draft

/-- However a draft was made, it still answers under the hint and for the kind that it was started
with, keeps its bound, and can be reset and built. What is built from it carries what the draft
held, and is read back so from the front of any batch, with data that can be had. -/
theorem drafted_read_back (revision : Revision) (hint : Hint) (kind : Kind)
    (steps : List Draft.Step) :
    let draft := (Draft.new revision hint kind).performAll steps
    draft.hint = hint ∧ draft.kind = kind ∧ draft.encodedSize ≤ revision.messageLimit ∧
    (∀ status, (draft.resetToStatus status).build = .ok (ofStatus revision hint kind status)) ∧
    ∀ response, draft.build = .ok response →
      response = ⟨revision, hint, draft.io, draft.answer, draft.trailing⟩ ∧
      response.kind = kind ∧ response.encodedSize ≤ revision.messageLimit ∧
      (∃ data, response.data = .ok data) ∧
      ∀ rest, ∃ frame,
        Frame.at? .response (response.encode ++ rest) 0
          = some (frame, Layout.alignUp response.encodedSize) ∧
        frame.size = response.encodedSize ∧ decode frame revision = .ok response := by
  intro draft
  have belongs : draft.Belongs revision hint kind :=
    (Draft.Belongs.new revision hint kind).performAll steps
  refine ⟨belongs.hint, belongs.kind, belongs.short, Draft.build_resetToStatus belongs, ?_⟩
  intro response built
  obtain ⟨same, mine, formed⟩ := belongs.build built
  have spoken : response.revision = revision := by rw [same]
  have length := response.length_message
  obtain ⟨data, held, -⟩ := data_of_wellFormed formed
  refine ⟨same, mine, spoken ▸ formed.1, ⟨data, held⟩, fun rest => ?_⟩
  refine ⟨⟨.response, response.message⟩, ?_, length, spoken ▸ decode_message formed⟩
  rw [encode, Frame.at?_pad (sized_message formed.1), length]

/-- Data from before a reset is gone, and so is a region that named it. -/
def secondThoughts : List Draft.Step :=
  [.append [1, 2, 3], .setAnswer (.read ⟨120, 3⟩), .setStatus .success 3,
   .resetToStatus .unsuccessful, .setAnswer .cleanup, .append [4, 5],
   .setAnswer (.read ⟨121, 1⟩), .setStatus .success 1]

theorem secondThoughts_read_back :
    let response : Response := ⟨.v1, ⟨9⟩, ⟨.success, 1⟩, .read ⟨121, 1⟩, [4, 5]⟩
    ((Draft.new .v1 ⟨9⟩ .read).performAll secondThoughts).build = .ok response ∧
      ∀ rest, ∃ frame,
        Frame.at? .response (response.encode ++ rest) 0 = some (frame, 128) ∧
        decode frame .v1 = .ok response := by
  intro response
  have built : ((Draft.new .v1 ⟨9⟩ .read).performAll secondThoughts).build = .ok response := rfl
  have size : Layout.alignUp response.encodedSize = 128 := by decide
  obtain ⟨-, -, -, -, read⟩ := drafted_read_back .v1 ⟨9⟩ .read secondThoughts
  refine ⟨built, fun rest => ?_⟩
  obtain ⟨-, -, -, -, framed⟩ := read response built
  obtain ⟨frame, cut, -, decoded⟩ := framed rest
  exact ⟨frame, size ▸ cut, decoded⟩

end FileBroker.Response
