import FileBroker.Proofs.Response.Codec
import FileBroker.Worker.Desk

/-!
What a handler can send. With the methods of a draft it can change the answer, the data and the
status, but never the request that is answered nor the bound on the message.
-/
namespace FileBroker.Response

theorem wellFormed_ofStatus (revision : Revision) (hint : Hint) (kind : Kind) (status : Status) :
    (ofStatus revision hint kind status).WellFormed := by
  constructor
  · have bound := revision.messageLimit_ge
    have small : (ofStatus revision hint kind status).encodedSize = 120 := rfl
    have same : (ofStatus revision hint kind status).revision = revision := rfl
    rw [small, same]
    omega
  · cases kind <;> rfl

/-- The response belongs to the request: it would be sent under its hint, and answers its kind. -/
structure Matches (response : Response) (request : Request) : Prop where
  revision : response.revision = request.revision
  hint : response.hint = request.hint
  kind : response.kind = request.kind
  formed : response.WellFormed

theorem matches_ofStatus (request : Request) (status : Status) :
    (ofStatus request.revision request.hint request.kind status).Matches request where
  revision := rfl
  hint := rfl
  kind := Answer.kind_empty request.kind
  formed := wellFormed_ofStatus ..

namespace Draft

/-- The drafts that a handler can make for a request. -/
inductive MadeFor (request : Request) : Draft → Prop where
  | start : MadeFor request (.ofRequest request)
  | append {draft after : Draft} {bytes : Bytes} {region : Region} (made : MadeFor request draft)
      (appended : draft.append bytes = .ok (region, after)) : MadeFor request after
  | setAnswer {draft after : Draft} {answer : Answer} (made : MadeFor request draft)
      (set : draft.setAnswer answer = .ok after) : MadeFor request after
  | setStatus {draft : Draft} (made : MadeFor request draft) (status : Status)
      (information : UInt64) : MadeFor request (draft.setStatus status information)
  | resetToStatus {draft : Draft} (made : MadeFor request draft) (status : Status) :
      MadeFor request (draft.resetToStatus status)

variable {draft after : Draft} {request : Request} {response : Response}

/-- The region says where the bytes come to stand. -/
theorem append_of_short {bytes : Bytes}
    (short : draft.encodedSize + bytes.length ≤ draft.revision.messageLimit) :
    draft.append bytes = .ok
      (⟨UInt16.ofNat draft.encodedSize, UInt16.ofNat bytes.length⟩,
        { draft with trailing := draft.trailing ++ bytes }) :=
  if_neg (Nat.not_lt.2 short)

theorem append_of_long {bytes : Bytes}
    (long : draft.revision.messageLimit < draft.encodedSize + bytes.length) :
    draft.append bytes = .error
      (.tooLarge (draft.encodedSize + bytes.length) draft.revision.messageLimit) :=
  if_pos long

theorem append_eq_ok {bytes : Bytes} {region : Region}
    (appended : draft.append bytes = .ok (region, after)) :
    draft.encodedSize + bytes.length ≤ draft.revision.messageLimit ∧
      after = { draft with trailing := draft.trailing ++ bytes } := by
  by_cases short : draft.encodedSize + bytes.length ≤ draft.revision.messageLimit
  · rw [append_of_short short] at appended
    cases appended
    exact ⟨short, rfl⟩
  · rw [append_of_long (Nat.not_le.1 short)] at appended
    cases appended

theorem setAnswer_eq_ok {answer : Answer} (set : draft.setAnswer answer = .ok after) :
    answer.kind = draft.kind ∧ after = { draft with answer } := by
  unfold setAnswer at set
  split at set
  · cases set
  · next same =>
    cases set
    exact ⟨Decidable.not_not.1 same, rfl⟩

theorem build_eq_ok : draft.build = .ok response ↔
    checkRegion draft.answer draft.encodedSize = .ok () ∧
      response = ⟨draft.revision, draft.hint, draft.io, draft.answer, draft.trailing⟩ := by
  unfold build
  simp only [bind_eq_ok, pure_eq_ok]
  constructor
  · rintro ⟨⟨⟩, checked, same⟩
    exact ⟨checked, same.symm⟩
  · rintro ⟨checked, same⟩
    exact ⟨_, checked, same.symm⟩

/-- What no method changes: whom the draft answers, and that its message keeps the bound. -/
structure Belongs (revision : Revision) (hint : Hint) (kind : Kind) (draft : Draft) : Prop where
  short : draft.encodedSize ≤ revision.messageLimit
  revision : draft.revision = revision
  hint : draft.hint = hint
  kind : draft.kind = kind

namespace Belongs

variable {revision : Revision} {hint : Hint} {kind : Kind}

theorem new (revision : Revision) (hint : Hint) (kind : Kind) :
    (new revision hint kind).Belongs revision hint kind where
  short := by
    have bare := revision.messageLimit_ge
    change 120 ≤ revision.messageLimit
    omega
  revision := rfl
  hint := rfl
  kind := Answer.kind_empty kind

theorem append (belongs : draft.Belongs revision hint kind) {bytes : Bytes} {region : Region}
    (appended : draft.append bytes = .ok (region, after)) :
    after.Belongs revision hint kind := by
  obtain ⟨short, rfl⟩ := append_eq_ok appended
  refine { belongs with short := ?_ }
  rw [belongs.revision] at short
  simp only [encodedSize, List.length_append] at short ⊢
  omega

theorem setAnswer (belongs : draft.Belongs revision hint kind) {answer : Answer}
    (set : draft.setAnswer answer = .ok after) : after.Belongs revision hint kind := by
  obtain ⟨same, rfl⟩ := setAnswer_eq_ok set
  exact { belongs with kind := same.trans belongs.kind }

theorem setStatus (belongs : draft.Belongs revision hint kind) (status : Status)
    (information : UInt64) : (draft.setStatus status information).Belongs revision hint kind :=
  { belongs with }

theorem resetToStatus (belongs : draft.Belongs revision hint kind) (status : Status) :
    (draft.resetToStatus status).Belongs revision hint kind where
  short := (new revision hint kind).short
  revision := belongs.revision
  hint := belongs.hint
  kind := (Answer.kind_empty draft.kind).trans belongs.kind

theorem build (belongs : draft.Belongs revision hint kind)
    (built : draft.build = .ok response) :
    response = ⟨revision, hint, draft.io, draft.answer, draft.trailing⟩ ∧
      response.kind = kind ∧ response.WellFormed := by
  obtain ⟨checked, rfl⟩ := build_eq_ok.1 built
  refine ⟨?_, belongs.kind, belongs.revision ▸ belongs.short, checked⟩
  rw [belongs.revision, belongs.hint]

end Belongs

theorem MadeFor.belongs (made : MadeFor request draft) :
    draft.Belongs request.revision request.hint request.kind := by
  induction made with
  | start => exact .new request.revision request.hint request.kind
  | append made appended ih => exact ih.append appended
  | setAnswer made set ih => exact ih.setAnswer set
  | setStatus made status information ih => exact ih.setStatus status information
  | resetToStatus made status ih => exact ih.resetToStatus status

theorem MadeFor.build (made : MadeFor request draft) (built : draft.build = .ok response) :
    response.Matches request := by
  obtain ⟨same, kind, formed⟩ := made.belongs.build built
  exact ⟨by rw [same], by rw [same], kind, formed⟩

end Draft

/-- A draft that was made with these methods has not grown too long for its status. -/
theorem completed_of_made {draft : Draft} {request : Request} (made : draft.MadeFor request)
    (status : Status) (information : UInt64) :
    Desk.completed request.revision draft status information
      = (draft.setStatus status information).build := by
  have short := (made.setStatus status information).belongs.short
  unfold Desk.completed
  dsimp only
  rw [if_neg (Nat.not_lt.2 short)]

end FileBroker.Response
