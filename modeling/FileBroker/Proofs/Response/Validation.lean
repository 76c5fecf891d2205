import FileBroker.Proofs.Response.Codec

/-!
What the checks on a response are worth: a response that was decoded and may answer a request can be
handed to whoever posted the request.
-/
namespace FileBroker.Response

/-- The size of the region that holds the data of an answer. -/
def dataSize (response : Response) : Nat :=
  (response.answer.dataRegion.map fun region => region.size.toNat).getD 0

theorem validate_eq_ok {response : Response} {request : Request} :
    response.validate request = .ok () ↔
      response.kind = request.kind ∧
      (response.status.isSuccess = true ∨ response.trailing = []) ∧
      (∀ limit, limitFor request.command = some limit →
        response.dataSize ≤ limit ∧ response.io.information.toNat ≤ limit) ∧
      (request.command.requestedLength.isSome = true → response.status.isSuccess = true →
        response.io.information.toNat = response.dataSize) := by
  unfold validate
  simp only [throw_bind, throw_if_eq_ok, Decidable.not_not]
  refine and_congr_right fun _ => and_congr ?_ ?_
  · cases response.status.isSuccess <;> simp
  · cases bounded : limitFor request.command with
    | none =>
      simp only [throw_if_eq_ok, pure_eq_ok]
      simp [dataSize]
    | some limit =>
      simp only [throw_if_eq_ok, pure_eq_ok]
      simp [dataSize, and_assoc]

/-- A bare status may answer any request of its kind, whatever its revision and hint. -/
theorem validate_ofStatus {revision : Revision} {hint : Hint} (request : Request)
    (status : Status) : (ofStatus revision hint request.kind status).validate request = .ok () := by
  have nothing : (ofStatus revision hint request.kind status).dataSize = 0 := by
    unfold dataSize ofStatus
    cases request.kind <;> rfl
  refine validate_eq_ok.2 ⟨Answer.kind_empty request.kind, .inr rfl, fun limit bounded => ?_,
    fun _ _ => nothing.symm⟩
  rw [nothing]
  exact ⟨Nat.zero_le _, Nat.zero_le _⟩

/-- A response that is safe to complete a request with. -/
structure Answers (response : Response) (request : Request) : Prop where
  hint : response.hint = request.hint
  kind : response.kind = request.kind
  final : response.status.isPending = false
  /-- The data can be had, and keeps every bound that the request sets. -/
  data : ∃ data, response.data = .ok data ∧
    (response.status.isSuccess = false → response.trailing = [] ∧ data = []) ∧
    ∀ length, request.command.requestedLength = some length →
      data.length ≤ length.toNat ∧ response.io.information.toNat ≤ length.toNat ∧
      (response.status.isSuccess = true → response.io.information.toNat = data.length)
  /-- A write never claims more bytes than it was given. -/
  written : ∀ file offset region key constrained,
    request.command = .write file offset region key constrained →
    response.io.information.toNat ≤ region.size.toNat

/-- Nothing can be cut from a message without a trailing buffer. -/
theorem dataSize_of_trailing_nil {response : Response} (formed : response.WellFormed)
    (bare : response.trailing = []) : response.dataSize = 0 := by
  have checked := formed.2
  unfold checkRegion at checked
  unfold dataSize
  split at checked
  · next region named =>
    rw [named, Option.map_some, Option.getD_some]
    rcases Region.check_eq_ok.1 checked with nothing | ⟨after, within⟩
    · rw [nothing]
      rfl
    · rw [encodedSize, bare, List.length_nil, Nat.add_zero, Region.stop] at within
      omega
  · next unnamed =>
    rw [unnamed]
    rfl

/-- The checks together: decoding, the check against the request, the check for a final status. -/
theorem answers_of_checks {frame : Frame} {revision : Revision} {response : Response}
    {request : Request} (decoded : decode frame revision = .ok response)
    (valid : response.validate request = .ok ()) (hint : request.hint = frame.hint)
    (final : response.status.isPending = false) : response.Answers request := by
  have formed := wellFormed_of_decode decoded
  obtain ⟨kind, bare, bounded, exact'⟩ := validate_eq_ok.1 valid
  obtain ⟨data, held, length⟩ := data_of_wellFormed formed
  change data.length = response.dataSize at length
  refine ⟨?_, kind, final, ⟨data, held, ?_, ?_⟩, ?_⟩
  · obtain ⟨-, -, -, -, -, -, -, -, -, -, rfl⟩ := decode_eq_ok.1 decoded
    exact hint.symm
  · intro failed
    rw [failed] at bare
    have empty := bare.resolve_left Bool.false_ne_true
    rw [dataSize_of_trailing_nil formed empty] at length
    exact ⟨empty, List.eq_nil_of_length_eq_zero length⟩
  · intro limit asked
    have allowed : limitFor request.command = some limit.toNat := by
      unfold limitFor
      split
      · next write =>
        rw [write] at asked
        cases asked
      · rw [asked, Option.map_some]
    obtain ⟨data', information⟩ := bounded _ allowed
    refine ⟨length ▸ data', information, fun success => ?_⟩
    rw [length]
    exact exact' (by rw [asked]; rfl) success
  · intro file offset region key constrained write
    have allowed : limitFor request.command = some region.size.toNat := by rw [write]; rfl
    exact (bounded _ allowed).2

end FileBroker.Response
