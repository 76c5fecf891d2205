import FileBroker.Queue.Basic

/-!
A queue together with the operations that were taken out of it and are still held. At most one
operation is held under a hint; holding another gives up the first.
-/
namespace FileBroker

structure Custody where
  queue : Queue
  held : List Operation
  deriving DecidableEq

namespace Custody

def ofQueue (queue : Queue) : Custody := ⟨queue, []⟩

def find? (custody : Custody) (hint : Hint) : Option Operation :=
  custody.held.find? fun op => op.hint == hint

def without (custody : Custody) (hint : Hint) : List Operation :=
  custody.held.filter fun op => op.hint != hint

/-- Holds an operation that has just left the queue. -/
def hold (custody : Custody) (queue : Queue) (op : Operation) : Custody :=
  let displaced := custody.held.filter fun other => other.hint == op.hint
  ⟨queue.deliverAll displaced (.error .cancelled), custody.without op.hint ++ [op]⟩

def land (custody : Custody) (hint : Hint) : Option Operation × Custody :=
  match custody.queue.land hint with
  | (none, queue) => (none, { custody with queue })
  | (some op, queue) => (some op, custody.hold queue op)

def takeDue (custody : Custody) (now : Instant) : Option Operation × Custody :=
  match custody.queue.takeDue now with
  | (none, queue) => (none, { custody with queue })
  | (some op, queue) => (some op, custody.hold queue op)

/-- Hands a held operation its outcome. -/
def complete (custody : Custody) (hint : Hint) (outcome : Outcome) : Option Operation × Custody :=
  match custody.find? hint with
  | none => (none, custody)
  | some op => (some op, ⟨custody.queue.deliver op outcome, custody.without hint⟩)

/-- Lets go of a held operation without an outcome of its own. -/
def giveUp (custody : Custody) (hint : Hint) : Option Operation × Custody :=
  custody.complete hint (.error .cancelled)

/-- Parks a held operation with the response it is to be completed with. -/
def retry (custody : Custody) (now : Instant) (hint : Hint) (response : Response) :
    Option Operation × Custody :=
  match custody.find? hint with
  | none => (none, custody)
  | some op => (some op, ⟨custody.queue.park now op response, custody.without hint⟩)

/-- Takes out the response a held operation was parked with. -/
def takeResponse (custody : Custody) (hint : Hint) : Option Response × Custody :=
  match custody.find? hint with
  | none => (none, custody)
  | some op =>
    let (response, _) := op.takeResponse
    (response, { custody with
      held := custody.held.map fun other =>
        if other.hint == hint then other.takeResponse.2 else other })

/-- The end of the queue and of every hold: all that is left is given up. -/
def drop (custody : Custody) : Queue :=
  custody.queue.clear.deliverAll custody.held (.error .cancelled)

end Custody
end FileBroker
