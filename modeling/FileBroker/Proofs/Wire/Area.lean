import FileBroker.Proofs.Wire.Reader
import FileBroker.Wire.Frame

/-!
The field area of a message, addressed by position. A reader that walks through an area finds the
words that stand there one after the other; the only thing it can hold against them is that they say
something that is not allowed.
-/
namespace FileBroker

namespace Bytes

def u16At (bytes : Bytes) (start : Nat) : UInt16 :=
  UInt16.ofNat (LittleEndian.decode ((bytes.drop start).take 2))

def u32At (bytes : Bytes) (start : Nat) : UInt32 :=
  UInt32.ofNat (LittleEndian.decode ((bytes.drop start).take 4))

def u64At (bytes : Bytes) (start : Nat) : UInt64 :=
  UInt64.ofNat (LittleEndian.decode ((bytes.drop start).take 8))

def regionAt (bytes : Bytes) (start : Nat) : Region :=
  ⟨bytes.u16At start, bytes.u16At (start + 2)⟩

theorem length_field {area : Bytes} {start width : Nat} (fits : start + width ≤ area.length) :
    ((area.drop start).take width).length = width := by
  rw [List.length_take, List.length_drop]
  omega

end Bytes

/-! ### Words -/

namespace LittleEndian

theorem u16_decode {bytes : Bytes} (length : bytes.length = 2) :
    u16 (UInt16.ofNat (decode bytes)) = bytes := by
  have word := length ▸ decode_lt bytes
  rw [u16, UInt16.toNat_ofNat_of_lt' word, ← length, encode_decode]

theorem u32_decode {bytes : Bytes} (length : bytes.length = 4) :
    u32 (UInt32.ofNat (decode bytes)) = bytes := by
  have word := length ▸ decode_lt bytes
  rw [u32, UInt32.toNat_ofNat_of_lt' word, ← length, encode_decode]

theorem u64_decode {bytes : Bytes} (length : bytes.length = 8) :
    u64 (UInt64.ofNat (decode bytes)) = bytes := by
  have word := length ▸ decode_lt bytes
  rw [u64, UInt64.toNat_ofNat_of_lt' word, ← length, encode_decode]

end LittleEndian

theorem and_of_known {bits known : UInt32} (allowed : bits &&& ~~~known = 0) :
    bits &&& known = bits := by
  apply UInt32.eq_of_toBitVec_eq
  have none' := congrArg UInt32.toBitVec allowed
  ext i inside
  have bit := congrArg (fun word => word[i]) none'
  simpa using bit

/-- Small words are few. -/
theorem forall_small {bound : UInt32} {holds : UInt32 → Prop}
    (few : ∀ n : Fin (bound.toNat + 1), holds (UInt32.ofNat n)) (word : UInt32)
    (small : word ≤ bound) : holds word := by
  have found := few ⟨word.toNat, Nat.lt_succ_of_le (UInt32.le_iff_toNat_le.1 small)⟩
  rwa [UInt32.ofNat_toNat] at found

/-- A word without unknown bits is no larger than all known bits together. -/
theorem forall_known {known : UInt32} {holds : UInt32 → Prop}
    (few : ∀ n : Fin (known.toNat + 1), holds (UInt32.ofNat n)) (bits : UInt32)
    (allowed : bits &&& ~~~known = 0) : holds bits := by
  refine forall_small few bits (UInt32.le_iff_toNat_le.2 ?_)
  rw [← and_of_known allowed, UInt32.toNat_and]
  exact Nat.and_le_right

theorem oneFlag {bits : UInt32} (allowed : bits &&& ~~~1 = 0) : flagBit (bits != 0) 1 = bits := by
  revert bits
  apply forall_known
  decide

/-! ### Walking -/

/-- The reader refuses what stands in `area` from `start` on, without having run out of bytes. -/
def Refuses {α : Type} (area : Bytes) (start : Nat) (reader : Reader α) : Prop :=
  ∃ what, reader.run (area.drop start) = .error (.invalidPayload what)

/-- Walking through `area` from `start` to `stop`, the reader finds `value`, whose wire form is
`bytes`, unless what stands there is not valid. -/
structure Finds {α : Type} (area : Bytes) (start stop : Nat) (valid : Prop) (reader : Reader α)
    (bytes : Bytes) (value : α) : Prop where
  le : start ≤ stop
  takes : stop ≤ area.length → valid →
    reader.run (area.drop start) = .ok (value, area.drop stop)
  wire : stop ≤ area.length → valid → area.drop start = bytes ++ area.drop stop
  refuses : stop ≤ area.length → ¬ valid → Refuses area start reader

section

variable {α β : Type} {area bytes more : Bytes} {start middle stop : Nat} {valid valid' : Prop}
  {reader : Reader α} {next : α → Reader β} {value : α} {result : β}

theorem Refuses.bind (refuses : Refuses area start reader) :
    Refuses area start (reader >>= next) := by
  obtain ⟨what, refused⟩ := refuses
  refine ⟨what, ?_⟩
  rw [StateT.run_bind, refused]
  rfl

namespace Finds

theorem refuses_next (first : Finds area start middle valid reader bytes value)
    (fits : middle ≤ area.length) (allowed : valid) (refuses : Refuses area middle (next value)) :
    Refuses area start (reader >>= next) := by
  obtain ⟨what, refused⟩ := refuses
  refine ⟨what, ?_⟩
  rw [StateT.run_bind, first.takes fits allowed]
  exact refused

theorem pure (area : Bytes) (start : Nat) (value : α) :
    Finds area start start True (Pure.pure value) [] value where
  le := Nat.le_refl _
  takes _ _ := rfl
  wire _ _ := rfl
  refuses _ invalid := absurd trivial invalid

theorem bind (first : Finds area start middle valid reader bytes value)
    (second : Finds area middle stop valid' (next value) more result) :
    Finds area start stop (valid ∧ valid') (reader >>= next) (bytes ++ more) result where
  le := Nat.le_trans first.le second.le
  takes fits both := by
    have took := first.takes (Nat.le_trans second.le fits) both.1
    rw [StateT.run_bind, took]
    exact second.takes fits both.2
  wire fits both := by
    rw [List.append_assoc, ← second.wire fits both.2]
    exact first.wire (Nat.le_trans second.le fits) both.1
  refuses fits invalid := by
    have room := Nat.le_trans second.le fits
    by_cases allowed : valid
    · exact first.refuses_next room allowed
        (second.refuses fits fun allowed' => invalid ⟨allowed, allowed'⟩)
    · exact (first.refuses room allowed).bind

theorem congr (finds : Finds area start stop valid reader bytes value) (same : valid ↔ valid') :
    Finds area start stop valid' reader bytes value := propext same ▸ finds

/-- A field that may say anything, and those after it. -/
theorem step (first : Finds area start middle True reader bytes value)
    (second : Finds area middle stop valid (next value) more result) :
    Finds area start stop valid (reader >>= next) (bytes ++ more) result :=
  (first.bind second).congr (.of_eq (true_and valid))

/-- The last field of a record. -/
theorem map (finds : Finds area start stop valid reader bytes value) (make : α → β) :
    Finds area start stop valid (reader >>= fun found => Pure.pure (make found)) bytes
      (make value) := by
  have last : Finds area stop stop True (Pure.pure (make value)) [] (make value) := pure ..
  have whole : Finds area start stop (valid ∧ True)
      (reader >>= fun found => Pure.pure (make found)) (bytes ++ []) (make value) :=
    finds.bind last
  rwa [List.append_nil, and_true] at whole

theorem rewire (finds : Finds area start stop valid reader bytes value)
    (same : stop ≤ area.length → valid → bytes = more) :
    Finds area start stop valid reader more value :=
  { finds with wire := fun fits allowed => same fits allowed ▸ finds.wire fits allowed }

theorem number (area : Bytes) (start width : Nat) (field : String) :
    Finds area start (start + width) True (Reader.number width field)
      ((area.drop start).take width) (LittleEndian.decode ((area.drop start).take width)) where
  le := Nat.le_add_right _ _
  takes fits _ := by
    have length := Bytes.length_field fits
    change Reader.number width field (area.drop start) = _
    unfold Reader.number
    dsimp only
    rw [length, if_neg (Nat.lt_irrefl width), List.drop_drop]
  wire _ _ := by rw [← List.drop_drop, List.take_append_drop]
  refuses _ invalid := absurd trivial invalid

theorem u16 (area : Bytes) (start : Nat) (field : String) :
    Finds area start (start + 2) True (Reader.u16 field) (LittleEndian.u16 (area.u16At start))
      (area.u16At start) := by
  refine ((number area start 2 field).map UInt16.ofNat).rewire fun fits _ => ?_
  exact (LittleEndian.u16_decode (Bytes.length_field fits)).symm

theorem u32 (area : Bytes) (start : Nat) (field : String) :
    Finds area start (start + 4) True (Reader.u32 field) (LittleEndian.u32 (area.u32At start))
      (area.u32At start) := by
  refine ((number area start 4 field).map UInt32.ofNat).rewire fun fits _ => ?_
  exact (LittleEndian.u32_decode (Bytes.length_field fits)).symm

theorem u64 (area : Bytes) (start : Nat) (field : String) :
    Finds area start (start + 8) True (Reader.u64 field) (LittleEndian.u64 (area.u64At start))
      (area.u64At start) := by
  refine ((number area start 8 field).map UInt64.ofNat).rewire fun fits _ => ?_
  exact (LittleEndian.u64_decode (Bytes.length_field fits)).symm

theorem region (area : Bytes) (start : Nat) (field : String) :
    Finds area start (start + 4) True (Reader.region field) (area.regionAt start).put
      (area.regionAt start) :=
  (u16 area start field).step ((u16 area (start + 2) field).map _)

/-- Flag words may have any of the known bits, and no other. -/
theorem flags (area : Bytes) (start : Nat) (known : UInt32) (field : String) :
    Finds area start (start + 4) (area.u32At start &&& ~~~known = 0) (Reader.flags known field)
      (LittleEndian.u32 (area.u32At start)) (area.u32At start) := by
  have word := u32 area start field
  refine ⟨word.le, fun fits allowed => ?_, fun fits _ => word.wire fits trivial,
    fun fits unknown => ⟨field, ?_⟩⟩
  · rw [Reader.flags, StateT.run_bind, word.takes fits trivial]
    exact congrArg (fun rest => StateT.run rest _) (if_pos allowed)
  · rw [Reader.flags, StateT.run_bind, word.takes fits trivial]
    exact congrArg (fun rest => StateT.run rest _) (if_neg unknown)

theorem flag (area : Bytes) (start : Nat) (field : String) :
    Finds area start (start + 4) (area.u32At start &&& ~~~1 = 0) (Reader.flag field)
      (LittleEndian.u32 (flagBit (area.u32At start != 0) 1)) (area.u32At start != 0) := by
  refine ((flags area start 1 field).map fun bits => bits != 0).rewire fun _ allowed => ?_
  rw [oneFlag allowed]

end Finds
end
end FileBroker
