/-! Arithmetic of 64-bit words on unbounded numbers: what leaves the range is no result. -/
namespace FileBroker.Word

/-- One past the largest word. -/
def limit : Nat := UInt64.size

/-- One past the largest signed word. -/
def signedLimit : Nat := limit / 2

def check? (n : Nat) : Option Nat := if n < limit then some n else none

/-- A sum, unless it is too large for a word. -/
def add? (a b : Nat) : Option Nat := check? (a + b)

/-- A difference, unless it is negative. -/
def sub? (a b : Nat) : Option Nat := if b ≤ a then some (a - b) else none

def isSigned (n : Int) : Bool := decide (-(signedLimit : Int) ≤ n ∧ n < signedLimit)

theorem check?_eq_some_iff {n m : Nat} : check? n = some m ↔ n < limit ∧ n = m := by
  unfold check?
  split
  · simp [*]
  · simp; omega

end FileBroker.Word
