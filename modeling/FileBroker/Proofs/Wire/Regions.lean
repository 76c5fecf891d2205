import FileBroker.Proofs.Wire.Checks
import FileBroker.Wire.Buffer

/-!
What a region names. It is checked in one place and cut out in another; both come to the same on
every message. Pieces that were appended to a trailing buffer one by one are cut out again by the
regions that were handed out for them.
-/
namespace FileBroker

namespace Region

variable {region : Region} {message : Bytes} {start : Nat}

/-- The bytes that a region names, counted from the start of a message. -/
def slice (region : Region) (message : Bytes) : Bytes :=
  (message.drop region.offset.toNat).take region.size.toNat

/-- Cutting a region out succeeds where its check does, and otherwise fails as the check does. The
check compares ends; cutting counts from the trailing buffer. -/
theorem resolve_eq_check (whole : start ≤ message.length) :
    region.resolve message start
      = (region.check message.length start).map fun _ => region.slice message := by
  have length : start + (message.drop start).length = message.length := by
    rw [List.length_drop]
    omega
  unfold resolve resolveTrailing check slice
  by_cases nothing : region.size = 0
  · simp [nothing, Except.map]
  · rw [if_neg nothing, if_neg nothing, length]
    dsimp only
    by_cases before : region.offset.toNat < start
    · rw [if_pos before, if_pos (Or.inl before)]
      rfl
    · have place : start + (region.offset.toNat - start) = region.offset.toNat := by omega
      rw [if_neg before, List.drop_drop, place, List.length_drop]
      unfold stop
      by_cases inside : region.offset.toNat + region.size.toNat ≤ message.length
      · rw [if_pos (by omega), if_neg (by omega)]
        rfl
      · rw [if_neg (by omega), if_pos (by omega)]
        rfl

theorem resolve_eq_ok (whole : start ≤ message.length) {bytes : Bytes} :
    region.resolve message start = .ok bytes ↔
      region.check message.length start = .ok () ∧ region.slice message = bytes := by
  rw [resolve_eq_check whole]
  cases region.check message.length start <;> simp [Except.map]

theorem resolve_eq_error (whole : start ≤ message.length) {fault : FormatError} :
    region.resolve message start = .error fault ↔
      region.check message.length start = .error fault := by
  rw [resolve_eq_check whole]
  cases region.check message.length start <;> simp [Except.map]

/-- A region of at least one byte that lies in a message of `size` bytes and begins at or behind
`early`, but in front of `late`. -/
def Between (region : Region) (early late size : Nat) : Prop :=
  region.size ≠ 0 ∧ early ≤ region.offset.toNat ∧ region.offset.toNat < late ∧ region.stop ≤ size

/-- Where the trailing buffer begins matters to no other regions. -/
theorem resolve_eq_resolve {early late : Nat} (order : early ≤ late)
    (whole : late ≤ message.length) :
    region.resolve message early = region.resolve message late ↔
      ¬ region.Between early late message.length := by
  rw [resolve_eq_check whole, resolve_eq_check (Nat.le_trans order whole)]
  unfold check Between
  by_cases nothing : region.size = 0
  · simp [nothing]
  · rw [if_neg nothing, if_neg nothing]
    by_cases inside : region.offset.toNat < early ∨ message.length < region.stop
    · rw [if_pos inside, if_pos (by omega)]
      exact iff_of_true rfl (by omega)
    · rw [if_neg inside]
      by_cases before : region.offset.toNat < late ∨ message.length < region.stop
      · rw [if_pos before]
        refine iff_of_false nofun ?_
        push Not
        exact ⟨nothing, by omega⟩
      · rw [if_neg before]
        exact iff_of_true rfl (by omega)

end Region

/-! ### Pieces -/

/-- Bytes of a trailing buffer, with the region that was handed out for them. -/
structure Piece where
  region : Region
  bytes : Bytes
  deriving DecidableEq, Repr

namespace Piece

/-- The bytes of all pieces, one behind the other. -/
def joined (pieces : List Piece) : Bytes := pieces.flatMap bytes

@[simp] theorem joined_nil : joined [] = [] := rfl

@[simp] theorem joined_cons (piece : Piece) (rest : List Piece) :
    joined (piece :: rest) = piece.bytes ++ joined rest := rfl

@[simp] theorem joined_append (left right : List Piece) :
    joined (left ++ right) = joined left ++ joined right := List.flatMap_append

/-- No region was cut short by its two bytes for offset and size: the first begins at `start`, each
of the others where the one before it stops, and each is as long as its piece. -/
def Consecutive (start : Nat) : List Piece → Prop
  | [] => True
  | piece :: rest =>
    piece.region.offset.toNat = start ∧ piece.region.size.toNat = piece.bytes.length ∧
      Consecutive piece.region.stop rest

namespace Consecutive

variable {start : Nat} {pieces : List Piece} {piece : Piece}

theorem concat (laid : Consecutive start pieces)
    (offset : piece.region.offset.toNat = start + (joined pieces).length)
    (size : piece.region.size.toNat = piece.bytes.length) :
    Consecutive start (pieces ++ [piece]) := by
  induction pieces generalizing start with
  | nil => exact ⟨by simpa using offset, size, trivial⟩
  | cons first rest ih =>
    obtain ⟨first_offset, first_size, later⟩ := laid
    refine ⟨first_offset, first_size, ih later ?_⟩
    simp only [joined_cons, List.length_append] at offset
    unfold Region.stop
    omega

/-- Every region lies in the bytes of all pieces together. -/
theorem bounds (laid : Consecutive start pieces) (member : piece ∈ pieces) :
    start ≤ piece.region.offset.toNat ∧
      piece.region.stop ≤ start + (joined pieces).length := by
  induction pieces generalizing start with
  | nil => simp at member
  | cons first rest ih =>
    obtain ⟨offset, size, later⟩ := laid
    have stop : first.region.stop = start + first.bytes.length := by
      unfold Region.stop
      omega
    simp only [joined_cons, List.length_append]
    rcases List.mem_cons.1 member with rfl | behind
    · omega
    · have inside := ih later behind
      omega

/-- No two regions overlap. -/
theorem apart (laid : Consecutive start pieces) :
    pieces.Pairwise fun first second => first.region.stop ≤ second.region.offset.toNat := by
  induction pieces generalizing start with
  | nil => exact List.Pairwise.nil
  | cons first rest ih =>
    obtain ⟨-, -, later⟩ := laid
    constructor
    · intro second behind
      exact (later.bounds behind).1
    · exact ih later

theorem cut (laid : Consecutive start pieces) (member : piece ∈ pieces) :
    ((joined pieces).drop (piece.region.offset.toNat - start)).take piece.region.size.toNat
      = piece.bytes := by
  induction pieces generalizing start with
  | nil => simp at member
  | cons first rest ih =>
    obtain ⟨offset, size, later⟩ := laid
    rcases List.mem_cons.1 member with rfl | behind
    · simp [offset, size]
    · have after := (later.bounds behind).1
      have place : piece.region.offset.toNat - start
          = first.bytes.length + (piece.region.offset.toNat - first.region.stop) := by
        unfold Region.stop at after ⊢
        omega
      rw [joined_cons, place, ← List.drop_drop, List.drop_left]
      exact ih later behind

/-- A region cuts out the bytes that it was handed out for. -/
theorem resolves (laid : Consecutive start pieces) (member : piece ∈ pieces) :
    piece.region.resolveTrailing (joined pieces) start = .ok piece.bytes := by
  obtain ⟨behind, within⟩ := laid.bounds member
  have cut := laid.cut member
  unfold Region.resolveTrailing
  by_cases nothing : piece.region.size = 0
  · simp only [nothing, UInt16.toNat_zero, List.take_zero] at cut
    rw [if_pos nothing, cut]
  · unfold Region.stop at within
    rw [if_neg nothing, if_neg (by omega)]
    dsimp only
    rw [if_pos (by omega), cut]

end Consecutive

/-- A trailing buffer from `start` on that holds these pieces and nothing else. -/
structure Fill (start : Nat) (pieces : List Piece) (trailing : Bytes) : Prop where
  laid : Consecutive start pieces
  whole : joined pieces = trailing

namespace Fill

variable {start : Nat} {pieces : List Piece} {trailing bytes : Bytes}

theorem nothing (start : Nat) : Fill start [] [] where
  laid := trivial
  whole := rfl

/-- What is appended is named by the place where it comes to stand, as long as words can hold it. -/
theorem append (fill : Fill start pieces trailing)
    (short : start + trailing.length + bytes.length < UInt16.size) :
    Fill start
      (pieces ++ [⟨⟨UInt16.ofNat (start + trailing.length), UInt16.ofNat bytes.length⟩, bytes⟩])
      (trailing ++ bytes) where
  laid := by
    apply fill.laid.concat
    · rw [fill.whole]
      exact UInt16.toNat_ofNat_of_lt' (by omega)
    · exact UInt16.toNat_ofNat_of_lt' (by omega)
  whole := by simp [fill.whole]

theorem resolves (fill : Fill start pieces trailing) {piece : Piece} (member : piece ∈ pieces) :
    piece.region.resolveTrailing trailing start = .ok piece.bytes :=
  fill.whole ▸ fill.laid.resolves member

end Fill
end Piece
end FileBroker
