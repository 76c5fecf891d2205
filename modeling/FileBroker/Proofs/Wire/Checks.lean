import FileBroker.Wire.Region
import Mathlib.Tactic.Common

/-! What a success says about the checks on the way to it, and about regions that passed theirs. -/
namespace FileBroker

theorem bind_eq_ok {ε α β : Type} {step : Except ε α} {next : α → Except ε β} {value : β} :
    (step >>= next) = .ok value ↔ ∃ found, step = .ok found ∧ next found = .ok value := by
  cases step with
  | error fault =>
    constructor
    · intro h
      cases h
    · rintro ⟨found, h, -⟩
      cases h
  | ok found =>
    constructor
    · intro h
      exact ⟨found, rfl, h⟩
    · rintro ⟨other, h, rest⟩
      cases h
      exact rest

theorem pure_eq_ok {ε α : Type} {found value : α} :
    (pure found : Except ε α) = .ok value ↔ found = value := by
  constructor
  · intro h
    cases h
    rfl
  · rintro rfl
    rfl

/-- A check that throws has passed. -/
theorem throw_if_eq_ok {ε β : Type} {fails : Prop} [Decidable fails] {fault : ε}
    {rest : Except ε β} {value : β} :
    (if fails then throw fault else rest) = .ok value ↔ ¬ fails ∧ rest = .ok value := by
  by_cases failed : fails
  · rw [if_pos failed]
    constructor
    · intro h
      cases h
    · rintro ⟨passed, -⟩
      exact absurd failed passed
  · rw [if_neg failed]
    exact (and_iff_right failed).symm

@[simp] theorem throw_bind {ε α β : Type} (fault : ε) (next : α → Except ε β) :
    ((throw fault : Except ε α) >>= next) = throw fault := rfl

namespace Region

theorem check_eq_ok {region : Region} {messageSize start : Nat} :
    region.check messageSize start = .ok () ↔
      region.size = 0 ∨ start ≤ region.offset.toNat ∧ region.stop ≤ messageSize := by
  unfold check
  by_cases nothing : region.size = 0
  · simp [nothing]
  · rw [if_neg nothing]
    by_cases outside : region.offset.toNat < start ∨ messageSize < region.stop
    · rw [if_pos outside]
      simp only [nothing, false_or, reduceCtorEq, false_iff]
      omega
    · rw [if_neg outside]
      simp only [nothing, false_or, true_iff]
      omega

theorem length_resolveTrailing {region : Region} {trailing bytes : Bytes} {start : Nat}
    (resolved : region.resolveTrailing trailing start = .ok bytes) :
    bytes.length = region.size.toNat := by
  unfold resolveTrailing at resolved
  split at resolved
  · next nothing =>
    cases resolved
    rw [nothing]
    rfl
  · dsimp only at resolved
    split at resolved
    · cases resolved
    · split at resolved
      · cases resolved
        rw [List.length_take, List.length_drop]
        omega
      · cases resolved

/-- A region that was checked against the size of its message can be resolved. -/
theorem resolveTrailing_of_check {region : Region} {trailing : Bytes} {start : Nat}
    (checked : region.check (start + trailing.length) start = .ok ()) :
    ∃ bytes, region.resolveTrailing trailing start = .ok bytes := by
  unfold resolveTrailing
  rcases check_eq_ok.1 checked with nothing | ⟨after, within⟩
  · exact ⟨[], if_pos nothing⟩
  · unfold stop at within
    by_cases nothing : region.size = 0
    · exact ⟨[], if_pos nothing⟩
    · rw [if_neg nothing, if_neg (by omega)]
      dsimp only
      rw [if_pos (by omega)]
      exact ⟨_, rfl⟩

/-- The region of bytes that are a whole trailing buffer passes its check. -/
theorem check_whole {start : Nat} {bytes : Bytes} (short : start + bytes.length < UInt16.size) :
    check ⟨UInt16.ofNat start, UInt16.ofNat bytes.length⟩ (start + bytes.length) start
      = .ok () := by
  refine check_eq_ok.2 (.inr ?_)
  unfold stop
  dsimp only
  rw [UInt16.toNat_ofNat_of_lt' (by omega), UInt16.toNat_ofNat_of_lt' (by omega)]
  exact ⟨Nat.le_refl _, Nat.le_refl _⟩

/-- And it names all of them. -/
theorem resolveTrailing_whole {start : Nat} {bytes : Bytes}
    (short : start + bytes.length < UInt16.size) :
    resolveTrailing ⟨UInt16.ofNat start, UInt16.ofNat bytes.length⟩ bytes start = .ok bytes := by
  have offset : (UInt16.ofNat start).toNat = start := UInt16.toNat_ofNat_of_lt' (by omega)
  have size : (UInt16.ofNat bytes.length).toNat = bytes.length :=
    UInt16.toNat_ofNat_of_lt' (by omega)
  unfold resolveTrailing
  dsimp only
  rw [offset, size, Nat.sub_self, Nat.zero_add, if_neg (Nat.lt_irrefl _), if_pos (Nat.le_refl _),
    List.drop_zero, List.take_length]
  by_cases nothing : UInt16.ofNat bytes.length = 0
  · rw [nothing] at size
    rw [if_pos nothing, List.eq_nil_of_length_eq_zero size.symm]
  · rw [if_neg nothing]

end Region
end FileBroker
