import FileBroker.Proofs.Response.Format
import FileBroker.Proofs.Response.RoundTrip
import FileBroker.Proofs.Wire.Regions

/-!
Regions in messages of both directions. Whatever a message says about its regions, none of them
reaches out of it, and it does not matter whether a region is looked up in the frame or in what was
read from the frame. A region that was handed out for appended bytes finds them on either side of
the wire, whatever else was appended.
-/
namespace FileBroker

/-! ### Regions of what was read -/

/-- Behind the fixed part of a request, but not behind that of a response. -/
def Frame.Disputed (frame : Frame) (region : Region) : Prop :=
  region.Between Request.fixedSize Response.fixedSize frame.size

/-- In what was read as a message of this direction, a region is looked up as it is in the frame,
unless the frame was cut in the other direction and the region is disputed. Those in `regions` are
found in any case. -/
structure Frame.CutBy (frame : Frame) (direction : Direction)
    (resolve : Region → Except FormatError Bytes) (regions : List Region) : Prop where
  agrees : ∀ region, resolve region = frame.resolve region ↔
    frame.direction = direction ∨ ¬ frame.Disputed region
  inside : ∀ region ∈ regions, ∃ bytes, resolve region = .ok bytes

section Cut

variable {direction : Direction} {frame : Frame}

theorem Frame.resolve_agrees (long : direction.fixedSize ≤ frame.size)
    (framed : frame.direction.fixedSize ≤ frame.size) (region : Region) :
    region.resolve frame.bytes direction.fixedSize = frame.resolve region ↔
      frame.direction = direction ∨ ¬ frame.Disputed region := by
  have order : Direction.request.fixedSize ≤ Direction.response.fixedSize := by decide
  obtain ⟨cut, bytes⟩ := frame
  cases cut <;> cases direction
  · exact iff_of_true rfl (.inl rfl)
  · exact (eq_comm.trans (Region.resolve_eq_resolve order long)).trans (or_iff_right nofun).symm
  · exact (Region.resolve_eq_resolve order framed).trans (or_iff_right nofun).symm
  · exact iff_of_true rfl (.inl rfl)

/-- A region that passed its check is found in the trailing buffer. -/
theorem Frame.cutBy {regions : List Region} (long : direction.fixedSize ≤ frame.size)
    (framed : frame.direction.fixedSize ≤ frame.size)
    (checked : ∀ region ∈ regions, region.check frame.size direction.fixedSize = .ok ()) :
    frame.CutBy direction
      (·.resolveTrailing (frame.bytes.drop direction.fixedSize) direction.fixedSize) regions where
  agrees := frame.resolve_agrees long framed
  inside region member :=
    ⟨_, (Region.resolve_eq_ok long).2 ⟨checked region member, rfl⟩⟩

variable {buffer : Bytes} {cursor next : Nat} {revision : Revision}

theorem Frame.fixedSize_le_of_at? (framed : at? direction buffer cursor = some (frame, next)) :
    frame.direction.fixedSize ≤ frame.size := by
  obtain ⟨rfl, long, -⟩ := sized_of_at? framed
  exact long

theorem Request.cutBy_of_decode {request : Request}
    (framed : frame.direction.fixedSize ≤ frame.size)
    (decoded : decode frame revision = .ok request) :
    frame.CutBy .request request.resolve request.command.regions := by
  obtain ⟨long, -, -, kind, command, -, -, checked, rfl⟩ := decode_eq_ok.1 decoded
  exact Frame.cutBy long framed (checkRegions_eq_ok.1 checked)

theorem Response.cutBy_of_decode {response : Response}
    (framed : frame.direction.fixedSize ≤ frame.size)
    (decoded : decode frame revision = .ok response) :
    frame.CutBy .response response.resolve response.answer.dataRegion.toList := by
  obtain ⟨long, -, -, kind, io, answer, -, -, -, checked, rfl⟩ := decode_eq_ok.1 decoded
  exact Frame.cutBy long framed (checkRegion_eq_ok.1 checked)

end Cut

/-- A region is checked and cut out with the same result on every message that has a fixed part, and
what is cut out stands between the fixed part and the end. What is read from a frame finds every
region where the frame does, unless the frame was cut in the other direction, and finds all of its
own. -/
theorem Frame.regions_stay_inside :
    (∀ (region : Region) (message : Bytes) (start : Nat), start ≤ message.length →
      let checked := region.check message.length start
      let resolved := region.resolve message start
      region.resolveTrailing (message.drop start) start = resolved ∧
      (checked = .ok () ↔ ∃ bytes, resolved = .ok bytes) ∧
      (∀ fault, checked = .error fault ↔ resolved = .error fault) ∧
      ∀ bytes, resolved = .ok bytes →
        region.size = 0 ∧ bytes = [] ∨
        region.size ≠ 0 ∧ start ≤ region.offset.toNat ∧ region.stop ≤ message.length ∧
          bytes = region.slice message) ∧
    ∀ direction buffer cursor frame next revision,
      at? direction buffer cursor = some (frame, next) →
      (∀ request, Request.decode frame revision = .ok request →
        frame.CutBy .request request.resolve request.command.regions) ∧
      ∀ response, Response.decode frame revision = .ok response →
        frame.CutBy .response response.resolve response.answer.dataRegion.toList ∧
          ∃ data, response.data = .ok data := by
  refine ⟨fun region message start whole => ?_, ?_⟩
  · intro checked resolved
    refine ⟨rfl, ?_, fun fault => (Region.resolve_eq_error whole).symm, fun bytes cut => ?_⟩
    · constructor
      · intro passed
        exact ⟨_, (Region.resolve_eq_ok whole).2 ⟨passed, rfl⟩⟩
      · rintro ⟨bytes, cut⟩
        exact ((Region.resolve_eq_ok whole).1 cut).1
    · obtain ⟨passed, rfl⟩ := (Region.resolve_eq_ok whole).1 cut
      by_cases nothing : region.size = 0
      · left
        simp [nothing, Region.slice]
      · right
        have inside := (Region.check_eq_ok.1 passed).resolve_left nothing
        exact ⟨nothing, inside.1, inside.2, rfl⟩
  · intro direction buffer cursor frame next revision cut
    have framed := fixedSize_le_of_at? cut
    constructor
    · intro request decoded
      exact Request.cutBy_of_decode framed decoded
    · intro response decoded
      obtain ⟨data, held, -⟩ := Response.data_of_wellFormed (Response.wellFormed_of_decode decoded)
      exact ⟨Response.cutBy_of_decode framed decoded, data, held⟩

/-- A request with two regions that overlap, an empty one that points nowhere, and an answer. -/
theorem Frame.regions_stay_inside_opening :
    let asked : Request := ⟨.legacy, ⟨7⟩, .create Request.opening, [97, 98, 99]⟩
    let reply : Response := ⟨.v1, ⟨9⟩, ⟨.success, 1⟩, .read ⟨121, 1⟩, [4, 5]⟩
    (at? .request asked.encode 0 = some (⟨.request, asked.message⟩, 88) ∧
      (Frame.mk .request asked.message).CutBy .request asked.resolve
        [⟨65535, 0⟩, ⟨81, 2⟩, ⟨80, 3⟩]) ∧
    (at? .response reply.encode 0 = some (⟨.response, reply.message⟩, 128) ∧
      (Frame.mk .response reply.message).CutBy .response reply.resolve [⟨121, 1⟩]) ∧
    Region.resolve ⟨82, 1⟩ asked.message 80 = .ok [99] ∧
    Region.resolve ⟨82, 2⟩ asked.message 80 = .error (.regionOutOfBounds 82 2 83) := by
  intro asked reply
  obtain ⟨cutting, reading⟩ := regions_stay_inside
  have asked_formed : asked.WellFormed := ⟨by decide, rfl⟩
  have reply_formed : reply.WellFormed := ⟨by decide, rfl⟩
  have asked_framed := at?_pad (Request.sized_message asked_formed.1) []
  have reply_framed := at?_pad (Response.sized_message reply_formed.1) []
  have asked_end : Layout.alignUp asked.message.length = 88 := by
    rw [asked.length_message]
    decide
  have reply_end : Layout.alignUp reply.message.length = 128 := by
    rw [reply.length_message]
    decide
  rw [List.append_nil, asked_end] at asked_framed
  rw [List.append_nil, reply_end] at reply_framed
  have length : asked.message.length = 83 := asked.length_message
  have whole : 80 ≤ asked.message.length := by omega
  refine ⟨⟨asked_framed, ?_⟩, ⟨reply_framed, ?_⟩, ?_, ?_⟩
  · exact (reading _ _ _ _ _ _ asked_framed).1 _ (Request.decode_message asked_formed)
  · exact ((reading _ _ _ _ _ _ reply_framed).2 _ (Response.decode_message reply_formed)).1
  · obtain ⟨-, accepts, -, cut⟩ := cutting ⟨82, 1⟩ asked.message 80 whole
    obtain ⟨bytes, found⟩ := accepts.1 (by rw [length]; rfl)
    obtain ⟨nothing, -⟩ | ⟨-, -, -, rfl⟩ := cut bytes found
    · cases nothing
    · exact found
  · obtain ⟨-, -, refuses, -⟩ := cutting ⟨82, 2⟩ asked.message 80 whole
    refine (refuses _).1 ?_
    rw [length]
    rfl

/-- A request that is cut as if it were a response is read all the same, and finds the name that it
begins with; its frame does not. -/
theorem Frame.region_of_misread_request :
    let asked : Request := ⟨.v1, ⟨7⟩, .create Request.opening, List.replicate 40 97⟩
    let frame : Frame := ⟨.response, asked.message⟩
    at? .response asked.encode 0 = some (frame, 120) ∧
    Request.decode frame .v1 = .ok asked ∧
    Region.mk 80 3 ∈ asked.command.regions ∧
    asked.resolve ⟨80, 3⟩ = .ok [97, 97, 97] ∧
    frame.resolve ⟨80, 3⟩ = .error (.regionOutOfBounds 80 3 120) := by
  intro asked frame
  have formed : asked.WellFormed := ⟨by decide, rfl⟩
  have length : asked.message.length = 120 := asked.length_message
  have long : Direction.response.fixedSize ≤ asked.message.length := by rw [length]; decide
  have framed := at?_pad ⟨long, (Request.sized_message formed.1).2⟩ []
  rw [List.append_nil, length] at framed
  refine ⟨framed, Request.decode_message formed, by decide, rfl, ?_⟩
  refine (Region.resolve_eq_error long).2 ?_
  rw [length]
  rfl

/-! ### Regions of what is appended -/

/-- How a draft whose message has `size` bytes takes more of them: never past `limit`, and under a
region that says where they come to stand. -/
structure Appends {δ : Type} (draft : δ) (append : Bytes → Except FormatError (Region × δ))
    (offer : Bytes → δ) (size limit : Nat) : Prop where
  refuses : ∀ bytes, limit < size + bytes.length →
    append bytes = .error (.tooLarge (size + bytes.length) limit) ∧ offer bytes = draft
  takes : ∀ bytes, size + bytes.length ≤ limit →
    ∃ region, append bytes = .ok (region, offer bytes) ∧
      region.offset.toNat = size ∧ region.size.toNat = bytes.length

theorem Appends.of_words {δ : Type} {draft : δ}
    {append : Bytes → Except FormatError (Region × δ)} {offer : Bytes → δ} {size : Nat}
    {revision : Revision}
    (long : ∀ bytes, revision.messageLimit < size + bytes.length →
      append bytes = .error (.tooLarge (size + bytes.length) revision.messageLimit) ∧
        offer bytes = draft)
    (short : ∀ bytes, size + bytes.length ≤ revision.messageLimit →
      append bytes = .ok (⟨UInt16.ofNat size, UInt16.ofNat bytes.length⟩, offer bytes)) :
    Appends draft append offer size revision.messageLimit where
  refuses := long
  takes bytes kept := by
    have word := Revision.lt_word kept
    refine ⟨_, short bytes kept, ?_, ?_⟩
    · exact UInt16.toNat_ofNat_of_lt' (by omega)
    · exact UInt16.toNat_ofNat_of_lt' (by omega)

namespace Request.Draft

/-- The pieces of a draft that holds `pieces` after more bytes were offered to it, one after the
other. Bytes that are refused are no piece. -/
def pieces (draft : Draft) (held : List Piece) : List Bytes → List Piece
  | [] => held
  | bytes :: rest =>
    match draft.append bytes with
    | .ok (region, after) => after.pieces (held ++ [⟨region, bytes⟩]) rest
    | .error _ => draft.pieces held rest

variable {draft : Draft} {held : List Piece}

theorem appends (draft : Draft) :
    Appends draft draft.append draft.offer (fixedSize + draft.trailing.length)
      draft.revision.messageLimit := by
  apply Appends.of_words
  · intro bytes long
    exact ⟨append_of_long long, offer_of_long long⟩
  · intro bytes short
    rw [offer_of_short short]
    exact append_of_short short

/-- A draft holds the pieces that it took in, and nothing else. -/
theorem fill_pieces (fill : Piece.Fill fixedSize held draft.trailing) (offered : List Bytes) :
    Piece.Fill fixedSize (draft.pieces held offered) (draft.offerAll offered).trailing := by
  induction offered generalizing draft held with
  | nil => exact fill
  | cons bytes rest ih =>
    change Piece.Fill fixedSize (draft.pieces held (bytes :: rest))
      ((draft.offer bytes).offerAll rest).trailing
    unfold pieces
    by_cases short :
        fixedSize + draft.trailing.length + bytes.length ≤ draft.revision.messageLimit
    · rw [append_of_short short, offer_of_short short]
      exact ih (fill.append (Revision.lt_word short))
    · have long := Nat.not_le.1 short
      rw [append_of_long long, offer_of_long long]
      exact ih fill

end Request.Draft

namespace Response.Draft

/-- The pieces of a draft that holds `held` after these calls. A reset lets go of all of them. -/
def pieces (draft : Draft) (held : List Piece) : List Step → List Piece
  | [] => held
  | .append bytes :: rest =>
    match draft.append bytes with
    | .ok (region, after) => after.pieces (held ++ [⟨region, bytes⟩]) rest
    | .error _ => draft.pieces held rest
  | .resetToStatus status :: rest => (draft.resetToStatus status).pieces [] rest
  | step :: rest => (draft.perform step).pieces held rest

variable {draft : Draft} {held : List Piece}

theorem perform_append_of_short {bytes : Bytes}
    (short : draft.encodedSize + bytes.length ≤ draft.revision.messageLimit) :
    draft.perform (.append bytes) = { draft with trailing := draft.trailing ++ bytes } := by
  simp only [perform, append_of_short short]

theorem perform_append_of_long {bytes : Bytes}
    (long : draft.revision.messageLimit < draft.encodedSize + bytes.length) :
    draft.perform (.append bytes) = draft := by
  simp only [perform, append_of_long long]

theorem appends (draft : Draft) :
    Appends draft draft.append (fun bytes => draft.perform (.append bytes)) draft.encodedSize
      draft.revision.messageLimit := by
  apply Appends.of_words
  · intro bytes long
    exact ⟨append_of_long long, perform_append_of_long long⟩
  · intro bytes short
    rw [perform_append_of_short short]
    exact append_of_short short

theorem trailing_setAnswer (draft : Draft) (answer : Answer) :
    (draft.perform (.setAnswer answer)).trailing = draft.trailing := by
  unfold perform
  dsimp only
  split
  · next set =>
    obtain ⟨-, rfl⟩ := setAnswer_eq_ok set
    rfl
  · rfl

/-- A draft holds the pieces that it took in since it was last reset, and nothing else. -/
theorem fill_pieces (fill : Piece.Fill fixedSize held draft.trailing) (steps : List Step) :
    Piece.Fill fixedSize (draft.pieces held steps) (draft.performAll steps).trailing := by
  induction steps generalizing draft held with
  | nil => exact fill
  | cons step rest ih =>
    change Piece.Fill fixedSize (draft.pieces held (step :: rest))
      ((draft.perform step).performAll rest).trailing
    unfold pieces
    cases step with
    | append bytes =>
      by_cases short : draft.encodedSize + bytes.length ≤ draft.revision.messageLimit
      · rw [perform_append_of_short short]
        dsimp only
        rw [append_of_short short]
        exact ih (fill.append (Revision.lt_word short))
      · have long := Nat.not_le.1 short
        rw [perform_append_of_long long]
        dsimp only
        rw [append_of_long long]
        exact ih fill
    | setAnswer answer =>
      apply ih
      rw [trailing_setAnswer]
      exact fill
    | setStatus status information => exact ih fill
    | resetToStatus status => exact ih (.nothing fixedSize)

end Response.Draft

/-! ### On either side of the wire -/

namespace Piece

/-- The pieces lie side by side in the trailing buffer. -/
structure Placed (start : Nat) (pieces : List Piece) (trailing : Bytes) : Prop where
  fill : Fill start pieces trailing
  apart : pieces.Pairwise fun first second => first.region.stop ≤ second.region.offset.toNat
  inside : ∀ piece ∈ pieces,
    start ≤ piece.region.offset.toNat ∧ piece.region.stop ≤ start + trailing.length

theorem Fill.placed {start : Nat} {pieces : List Piece} {trailing : Bytes}
    (fill : Fill start pieces trailing) : Placed start pieces trailing where
  fill := fill
  apart := fill.laid.apart
  inside piece member := by
    rw [← fill.whole]
    exact fill.laid.bounds member

/-- In front of any rest, a message of this encoding is framed and read, and the region of every
piece finds its bytes in the frame and in what is read from it. -/
def Carried {α : Type} (direction : Direction) (encoded : Bytes)
    (decode : Frame → Except FormatError α) (resolve : α → Region → Except FormatError Bytes)
    (pieces : List Piece) : Prop :=
  ∀ rest, ∃ frame next value,
    Frame.at? direction (encoded ++ rest) 0 = some (frame, next) ∧ decode frame = .ok value ∧
    ∀ piece ∈ pieces, frame.resolve piece.region = .ok piece.bytes ∧
      resolve value piece.region = .ok piece.bytes

theorem Carried.of_sized {α : Type} {direction : Direction} {message : Bytes}
    {decode : Frame → Except FormatError α} {resolve : α → Region → Except FormatError Bytes}
    {value : α} {pieces : List Piece} (sized : Frame.Sized direction message)
    (decoded : decode ⟨direction, message⟩ = .ok value)
    (agrees : ∀ region, resolve value region = (Frame.mk direction message).resolve region)
    (found : ∀ piece ∈ pieces, resolve value piece.region = .ok piece.bytes) :
    Carried direction (Layout.pad message) decode resolve pieces := by
  intro rest
  refine ⟨_, _, value, Frame.at?_pad sized rest, decoded, ?_⟩
  intro piece member
  rw [← agrees]
  exact ⟨found piece member, found piece member⟩

end Piece

theorem Request.carried {request : Request} {revision : Revision} {pieces : List Piece}
    (formed : request.WellFormed) (spoken : request.revision = revision)
    (found : ∀ piece ∈ pieces, request.resolve piece.region = .ok piece.bytes) :
    Piece.Carried .request request.encode (decode · revision) resolve pieces := by
  subst spoken
  have sized := sized_message formed.1
  have decoded := decode_message formed
  refine .of_sized sized decoded (fun region => ?_) found
  exact ((cutBy_of_decode sized.1 decoded).agrees region).2 (.inl rfl)

theorem Response.carried {response : Response} {revision : Revision} {pieces : List Piece}
    (formed : response.WellFormed) (spoken : response.revision = revision)
    (found : ∀ piece ∈ pieces, response.resolve piece.region = .ok piece.bytes) :
    Piece.Carried .response response.encode (decode · revision) resolve pieces := by
  subst spoken
  have sized := sized_message formed.1
  have decoded := decode_message formed
  refine .of_sized sized decoded (fun region => ?_) found
  exact ((cutBy_of_decode sized.1 decoded).agrees region).2 (.inl rfl)

/-- A draft of either direction takes bytes as long as its message keeps the bound, and is left
alone by those that it refuses. It hands out regions that lie side by side in its trailing buffer.
Each of them finds the bytes it was handed out for in the message that is built, and again where
the message is read, whatever was appended before and after. -/
theorem Piece.appended_are_found (revision : Revision) :
    (∀ offered,
      let draft := (Request.Draft.new revision).offerAll offered
      let pieces := (Request.Draft.new revision).pieces [] offered
      Appends draft draft.append draft.offer (Request.fixedSize + draft.trailing.length)
        revision.messageLimit ∧
      Placed Request.fixedSize pieces draft.trailing ∧
      ∀ command request, draft.build command = .ok request →
        (∀ piece ∈ pieces, request.resolve piece.region = .ok piece.bytes) ∧
        ∀ hint, Carried .request (request.withHint hint).encode (Request.decode · revision)
          Request.resolve pieces) ∧
    (∀ hint kind steps,
      let draft := (Response.Draft.new revision hint kind).performAll steps
      let pieces := (Response.Draft.new revision hint kind).pieces [] steps
      Appends draft draft.append (fun bytes => draft.perform (.append bytes)) draft.encodedSize
        revision.messageLimit ∧
      Placed Response.fixedSize pieces draft.trailing ∧
      ∀ response, draft.build = .ok response →
        (∀ piece ∈ pieces, response.resolve piece.region = .ok piece.bytes) ∧
        Carried .response response.encode (Response.decode · revision)
          Response.resolve pieces) := by
  constructor
  · intro offered draft pieces
    obtain ⟨kept, bounded⟩ :=
      Request.Draft.offerAll_keeps (Request.Draft.bounded_new revision) offered
    have spoken : draft.revision = revision := kept
    have fill : Fill Request.fixedSize pieces draft.trailing :=
      Request.Draft.fill_pieces (.nothing Request.fixedSize) offered
    refine ⟨spoken ▸ draft.appends, fill.placed, fun command request built => ?_⟩
    have formed := Request.Draft.wellFormed_of_build bounded built
    obtain ⟨-, rfl⟩ := Request.Draft.build_eq_ok.1 built
    have found : ∀ piece ∈ pieces,
        piece.region.resolveTrailing draft.trailing Request.fixedSize = .ok piece.bytes :=
      fun piece member => fill.resolves member
    refine ⟨found, fun hint => ?_⟩
    exact Request.carried (Request.wellFormed_withHint formed hint) spoken found
  · intro hint kind steps draft pieces
    have belongs : draft.Belongs revision hint kind :=
      (Response.Draft.Belongs.new revision hint kind).performAll steps
    have fill : Fill Response.fixedSize pieces draft.trailing :=
      Response.Draft.fill_pieces (.nothing Response.fixedSize) steps
    refine ⟨belongs.revision ▸ draft.appends, fill.placed, fun response built => ?_⟩
    obtain ⟨same, -, formed⟩ := belongs.build built
    have found : ∀ piece ∈ pieces, response.resolve piece.region = .ok piece.bytes := by
      intro piece member
      rw [same]
      exact fill.resolves member
    exact ⟨found, Response.carried formed (by rw [same]) found⟩

/-- Two pieces of a request; and the one piece of a response that was appended after a reset. -/
theorem Piece.appended_are_found_opening :
    ((Request.Draft.new .legacy).offerAll [[97], [98, 99]]).build (.create Request.opening)
      = .ok ⟨.legacy, ⟨0⟩, .create Request.opening, [97, 98, 99]⟩ ∧
    Carried .request (Request.encode ⟨.legacy, ⟨7⟩, .create Request.opening, [97, 98, 99]⟩)
      (Request.decode · .legacy) Request.resolve [⟨⟨80, 1⟩, [97]⟩, ⟨⟨81, 2⟩, [98, 99]⟩] ∧
    ((Response.Draft.new .v1 ⟨9⟩ .read).performAll Response.secondThoughts).build
      = .ok ⟨.v1, ⟨9⟩, ⟨.success, 1⟩, .read ⟨121, 1⟩, [4, 5]⟩ ∧
    Carried .response (Response.encode ⟨.v1, ⟨9⟩, ⟨.success, 1⟩, .read ⟨121, 1⟩, [4, 5]⟩)
      (Response.decode · .v1) Response.resolve [⟨⟨120, 2⟩, [4, 5]⟩] := by
  have asked : ((Request.Draft.new .legacy).offerAll [[97], [98, 99]]).build
      (.create Request.opening) = .ok ⟨.legacy, ⟨0⟩, .create Request.opening, [97, 98, 99]⟩ := rfl
  have reply : ((Response.Draft.new .v1 ⟨9⟩ .read).performAll Response.secondThoughts).build
      = .ok ⟨.v1, ⟨9⟩, ⟨.success, 1⟩, .read ⟨121, 1⟩, [4, 5]⟩ := rfl
  obtain ⟨-, -, asking⟩ := (appended_are_found .legacy).1 [[97], [98, 99]]
  obtain ⟨-, -, answering⟩ := (appended_are_found .v1).2 ⟨9⟩ .read Response.secondThoughts
  exact ⟨asked, (asking _ _ asked).2 ⟨7⟩, reply, (answering _ reply).2⟩

end FileBroker
