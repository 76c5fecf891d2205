import FileBroker.Session.Basic

/-! Sessions that were started, by number, and those of them registered under their names. -/
namespace FileBroker

inductive SessionError where
  | alreadyRegistered (name : String)
  deriving DecidableEq, Repr

def SessionError.message : SessionError → String
  | .alreadyRegistered name => s!"volume {name} is already registered"

structure Registry where
  sessions : List Session
  /-- Names in use, each with the number of its session. -/
  entries : List (String × Nat)

namespace Registry

def empty : Registry := ⟨[], []⟩

/-- Takes in a started session without registering it, and gives its number. -/
def add (registry : Registry) (session : Session) : Nat × Registry :=
  (registry.sessions.length, { registry with sessions := registry.sessions ++ [session] })

def session? (registry : Registry) (index : Nat) : Option Session := registry.sessions[index]?

/-- Registers a session under its name, unless the name is taken. -/
def register (registry : Registry) (index : Nat) : Except SessionError Unit × Registry :=
  match registry.session? index with
  | none => (.ok (), registry)
  | some session =>
    if (registry.entries.lookup session.name).isSome then
      (.error (.alreadyRegistered session.name), registry)
    else (.ok (), { registry with entries := registry.entries ++ [(session.name, index)] })

def get? (registry : Registry) (name : String) : Option Session :=
  (registry.entries.lookup name).bind registry.session?

def unregister (registry : Registry) (name : String) : Option Session × Registry :=
  (registry.get? name,
    { registry with entries := registry.entries.filter fun entry => entry.1 != name })

/-- Names in use, in the order of their characters. -/
def names (registry : Registry) : List String :=
  (registry.entries.map Prod.fst).mergeSort

def size (registry : Registry) : Nat := registry.entries.length

/-- Stops one session; gives the instant at which it has stopped. -/
def stop (routine : Routine) (registry : Registry) (now : Instant) (index : Nat)
    (mode : StopMode) : Instant × Registry :=
  match registry.session? index with
  | none => (now, registry)
  | some session =>
    let (now, session) := session.stop routine now mode
    (now, { registry with sessions := registry.sessions.set index session })

/-- Unregisters every session and stops each; gives their number. -/
def stopAll (routine : Routine) (registry : Registry) (now : Instant) (mode : StopMode) :
    (Nat × Instant) × Registry :=
  let (now, stopped) := registry.entries.foldl (fun (now, registry) entry =>
    registry.stop routine now entry.2 mode) (now, { registry with entries := [] })
  ((registry.size, now), stopped)

end Registry
end FileBroker
