import FileBroker.Word

/-!
Instants and spans of time, in nanoseconds. Instants end at a horizon, and spans do not reach far
past it.
-/
namespace FileBroker

/-- Nanoseconds since the clock's origin. -/
abbrev Instant := Nat

/-- A length of time in nanoseconds. -/
abbrev Span := Nat

namespace Span

def milliseconds (n : Nat) : Span := n * 1000000
def seconds (n : Nat) : Span := n * 1000000000

/-- The longest span that can be written down. -/
def longest : Span := seconds (Word.limit - 1) + 999999999

end Span

namespace Instant

/-- The last instant of the clock. -/
def horizon : Instant := Span.seconds (Word.signedLimit - 1) + 999999999

/-- The instant `span` after `now`, unless it lies beyond the horizon. -/
def after? (now : Instant) (span : Span) : Option Instant :=
  if now + span ≤ horizon then some (now + span) else none

/-- The earlier of two instants, either of which may never come. -/
def earlier : Option Instant → Option Instant → Option Instant
  | some a, some b => some (min a b)
  | some a, none => some a
  | none, b => b

end Instant

/-- What asking for something that may take time gives at once. -/
inductive Wait (α : Type) where
  | ready (value : α)
  /-- Not before something else changes, or the clock reaches `wake` if there is one. -/
  | asleep (wake : Option Instant)
  deriving Repr

end FileBroker
