import FileBroker.Proofs.Request.Codec

/-!
What can be asked for. A draft takes bytes in only while its message keeps the bound, so whatever
request is built from it fits the wire: in front of any rest it is framed whole and read back as it
was built. Requests that fit the wire are also the only ones there can be.
-/
namespace FileBroker

namespace Request

/-! ### Drafts -/

namespace Draft

/-- Appends bytes, or leaves the draft as it was if they are refused. -/
def offer (draft : Draft) (bytes : Bytes) : Draft :=
  match draft.append bytes with
  | .ok (_, after) => after
  | .error _ => draft

/-- Offers one piece after the other. -/
def offerAll (draft : Draft) (pieces : List Bytes) : Draft := pieces.foldl offer draft

/-- The message so far keeps the bound of its revision. -/
def Bounded (draft : Draft) : Prop :=
  fixedSize + draft.trailing.length ≤ draft.revision.messageLimit

theorem bounded_new (revision : Revision) : (new revision).Bounded := by
  have bound := revision.messageLimit_ge
  change 80 + 0 ≤ revision.messageLimit
  omega

/-- The region says where the bytes come to stand. -/
theorem append_of_short {draft : Draft} {bytes : Bytes}
    (short : fixedSize + draft.trailing.length + bytes.length ≤ draft.revision.messageLimit) :
    draft.append bytes = .ok
      (⟨UInt16.ofNat (fixedSize + draft.trailing.length), UInt16.ofNat bytes.length⟩,
        { draft with trailing := draft.trailing ++ bytes }) :=
  if_neg (Nat.not_lt.2 short)

theorem append_of_long {draft : Draft} {bytes : Bytes}
    (long : draft.revision.messageLimit < fixedSize + draft.trailing.length + bytes.length) :
    draft.append bytes = .error
      (.tooLarge (fixedSize + draft.trailing.length + bytes.length)
        draft.revision.messageLimit) :=
  if_pos long

theorem offer_of_short {draft : Draft} {bytes : Bytes}
    (short : fixedSize + draft.trailing.length + bytes.length ≤ draft.revision.messageLimit) :
    draft.offer bytes = { draft with trailing := draft.trailing ++ bytes } := by
  rw [offer, append_of_short short]

theorem offer_of_long {draft : Draft} {bytes : Bytes}
    (long : draft.revision.messageLimit < fixedSize + draft.trailing.length + bytes.length) :
    draft.offer bytes = draft := by
  rw [offer, append_of_long long]

/-- A piece is appended if the message keeps its bound, and has no effect otherwise. -/
theorem offer_keeps {draft : Draft} (bounded : draft.Bounded) (bytes : Bytes) :
    (draft.offer bytes).revision = draft.revision ∧ (draft.offer bytes).Bounded := by
  by_cases short : fixedSize + draft.trailing.length + bytes.length ≤ draft.revision.messageLimit
  · rw [offer_of_short short]
    refine ⟨rfl, ?_⟩
    simp only [Bounded, List.length_append]
    omega
  · rw [offer_of_long (Nat.not_le.1 short)]
    exact ⟨rfl, bounded⟩

theorem offerAll_keeps {draft : Draft} (bounded : draft.Bounded) (pieces : List Bytes) :
    (draft.offerAll pieces).revision = draft.revision ∧ (draft.offerAll pieces).Bounded := by
  induction pieces generalizing draft with
  | nil => exact ⟨rfl, bounded⟩
  | cons bytes rest ih =>
    obtain ⟨revision, kept⟩ := offer_keeps bounded bytes
    obtain ⟨revision', kept'⟩ := ih kept
    exact ⟨revision'.trans revision, kept'⟩

theorem build_eq_ok {draft : Draft} {command : Command} {request : Request} :
    draft.build command = .ok request ↔
      checkRegions command (fixedSize + draft.trailing.length) = .ok () ∧
        request = ⟨draft.revision, ⟨0⟩, command, draft.trailing⟩ := by
  unfold build
  simp only [bind_eq_ok, pure_eq_ok]
  constructor
  · rintro ⟨⟨⟩, checked, same⟩
    exact ⟨checked, same.symm⟩
  · rintro ⟨checked, same⟩
    exact ⟨_, checked, same.symm⟩

theorem wellFormed_of_build {draft : Draft} (bounded : draft.Bounded) {command : Command}
    {request : Request} (built : draft.build command = .ok request) : request.WellFormed := by
  obtain ⟨checked, rfl⟩ := build_eq_ok.1 built
  exact ⟨bounded, checked⟩

end Draft

theorem wellFormed_of_decode {frame : Frame} {revision : Revision} {request : Request}
    (decoded : decode frame revision = .ok request) : request.WellFormed := by
  obtain ⟨long, -, short, kind, command, -, -, checked, rfl⟩ := decode_eq_ok.1 decoded
  have size : fixedSize + (frame.bytes.drop fixedSize).length = frame.bytes.length := by
    rw [List.length_drop]
    omega
  unfold WellFormed encodedSize
  dsimp only
  rw [size]
  exact ⟨short, checked⟩

/-- Every way to come by a request: it is built from a draft, read from a frame, or another request
under a new hint. -/
inductive Made : Request → Prop where
  | built {revision : Revision} {pieces : List Bytes} {command : Command} {request : Request}
      (built : ((Draft.new revision).offerAll pieces).build command = .ok request) : Made request
  | decoded {frame : Frame} {revision : Revision} {request : Request}
      (decoded : decode frame revision = .ok request) : Made request
  | withHint {request : Request} (made : Made request) (hint : Hint) : Made (request.withHint hint)

theorem Made.wellFormed {request : Request} (made : request.Made) : request.WellFormed := by
  induction made with
  | @built revision pieces command request built =>
    exact Draft.wellFormed_of_build
      (Draft.offerAll_keeps (Draft.bounded_new revision) pieces).2 built
  | decoded decoded => exact wellFormed_of_decode decoded
  | withHint made hint ih => exact wellFormed_withHint ih hint

/-- A request that fits the wire can be built from a draft that takes in its data at once. -/
theorem made_of_wellFormed {request : Request} (formed : request.WellFormed) : request.Made := by
  obtain ⟨short, checked⟩ := formed
  have offered : (Draft.new request.revision).offerAll [request.trailing]
      = ⟨request.revision, request.trailing⟩ := Draft.offer_of_short short
  have built : ((Draft.new request.revision).offerAll [request.trailing]).build request.command
      = .ok ⟨request.revision, ⟨0⟩, request.command, request.trailing⟩ := by
    rw [offered]
    exact Draft.build_eq_ok.2 ⟨checked, rfl⟩
  exact .withHint (.built built) request.hint

theorem made_iff_wellFormed {request : Request} : request.Made ↔ request.WellFormed :=
  ⟨Made.wellFormed, made_of_wellFormed⟩

/-! ### On the wire -/

theorem header_encode (request : Request) : Header.read request.encode = .ok request.header := by
  unfold encode Layout.pad message
  rw [List.append_assoc, List.append_assoc]
  exact request.header.reads.runOn _

/-- The size field holds the size, although it has only two bytes. -/
theorem size_header {request : Request} (formed : request.WellFormed) :
    request.header.size.toNat = request.encodedSize :=
  UInt16.toNat_ofNat_of_lt' (Revision.lt_word formed.1)

/-- A request that is built from a draft takes up its size and the padding on the wire, states its
size, and is read back from the front of any batch with the command, the data and the hint that went
into it. -/
theorem built_read_back {revision : Revision} {pieces : List Bytes} {command : Command}
    {request : Request}
    (built : ((Draft.new revision).offerAll pieces).build command = .ok request) (hint : Hint) :
    let sent := request.withHint hint
    sent = ⟨revision, hint, command, ((Draft.new revision).offerAll pieces).trailing⟩ ∧
    sent.encode.length = Layout.alignUp sent.encodedSize ∧
    (∃ header, Header.read sent.encode = .ok header ∧ header.size.toNat = sent.encodedSize) ∧
    sent.encode.drop sent.encodedSize
      = List.replicate (Layout.alignUp sent.encodedSize - sent.encodedSize) 0 ∧
    ∀ rest, ∃ frame,
      Frame.at? .request (sent.encode ++ rest) 0
        = some (frame, Layout.alignUp sent.encodedSize) ∧
      frame.size = sent.encodedSize ∧ decode frame revision = .ok sent := by
  intro sent
  obtain ⟨spoken, bounded⟩ := Draft.offerAll_keeps (Draft.bounded_new revision) pieces
  have formed : sent.WellFormed :=
    wellFormed_withHint (Draft.wellFormed_of_build bounded built) hint
  have same : sent
      = ⟨revision, hint, command, ((Draft.new revision).offerAll pieces).trailing⟩ := by
    obtain ⟨-, rfl⟩ := Draft.build_eq_ok.1 built
    change (⟨((Draft.new revision).offerAll pieces).revision, hint, _, _⟩ : Request) = _
    rw [spoken]
    rfl
  have length := sent.length_message
  refine ⟨same, ?_, ⟨sent.header, sent.header_encode, size_header formed⟩, ?_, fun rest => ?_⟩
  · rw [encode, Layout.length_pad, length]
  · rw [encode, Layout.pad, ← length, List.drop_left]
  · refine ⟨⟨.request, sent.message⟩, ?_, length, ?_⟩
    · rw [encode, Frame.at?_pad (sized_message formed.1), length]
    · have decoded := decode_message formed
      rwa [same] at decoded ⊢

/-- An empty region may point anywhere, and regions may overlap. -/
def opening : OpenOptions :=
  { (default : OpenOptions) with
    securityDescriptor := ⟨65535, 0⟩
    extendedAttributes := ⟨81, 2⟩
    fileName := ⟨80, 3⟩
    userMode := true
    caseSensitive := true }

theorem opening_read_back :
    ((Draft.new .legacy).offerAll [[97], [98, 99]]).build (.create opening)
        = .ok ⟨.legacy, ⟨0⟩, .create opening, [97, 98, 99]⟩ ∧
      ∀ rest, ∃ frame,
        Frame.at? .request (encode ⟨.legacy, ⟨7⟩, .create opening, [97, 98, 99]⟩ ++ rest) 0
          = some (frame, 88) ∧
        decode frame .legacy = .ok ⟨.legacy, ⟨7⟩, .create opening, [97, 98, 99]⟩ := by
  have built : ((Draft.new .legacy).offerAll [[97], [98, 99]]).build (.create opening)
      = .ok ⟨.legacy, ⟨0⟩, .create opening, [97, 98, 99]⟩ := rfl
  obtain ⟨-, -, -, -, framed⟩ := built_read_back built ⟨7⟩
  refine ⟨built, fun rest => ?_⟩
  obtain ⟨frame, cut, -, decoded⟩ := framed rest
  exact ⟨frame, cut, decoded⟩

end Request
end FileBroker
