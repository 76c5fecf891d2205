/-! What a pool of workers is set up with. -/
namespace FileBroker.Worker

structure Config where
  /-- Threads to start; 0 leaves their number to the machine. -/
  threads : Nat
  /-- Threads are named after it, and numbered. -/
  threadName : String
  deriving DecidableEq, Repr

namespace Config

def standard : Config := ⟨0, "fsrelay-dispatch"⟩

/-- Threads to start where `available` can run at once; there are at least two unless fewer are
asked for. -/
def effectiveThreads (config : Config) (available : Nat) : Nat :=
  if 0 < config.threads then config.threads else max 2 available

/-- The name of a thread. -/
def nameOf (config : Config) (index : Nat) : String := s!"{config.threadName}-{index}"

theorem effectiveThreads_pos (config : Config) (available : Nat) :
    0 < config.effectiveThreads available := by
  unfold effectiveThreads
  split <;> omega

end Config
end FileBroker.Worker
