import FileBroker.Queue.Basic

/-! The caller's side of a posted operation: a handle from which the outcome can be taken once. -/
namespace FileBroker

structure Reply where
  ticket : Nat
  hint : Hint
  /-- The outcome has been taken; from then on the handle reports a cancellation. -/
  taken : Bool
  deriving DecidableEq, Repr

namespace Reply

def new (ticket : Nat) (hint : Hint) : Reply := ⟨ticket, hint, false⟩

/-- The outcome, if there is one yet. -/
def take? (reply : Reply) (queue : Queue) : Option Outcome × Reply :=
  if reply.taken then (some (.error .cancelled), reply)
  else match queue.outcome? reply.ticket with
  | some outcome => (some outcome, { reply with taken := true })
  | none => (none, reply)

end Reply
end FileBroker
