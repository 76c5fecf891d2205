import FileBroker.Session.Basic

/-! A session as the channel of a worker: the clock moves on while the worker waits. -/
namespace FileBroker

/-- A session at an instant. -/
structure Session.Live where
  now : Instant
  session : Session

def Session.channel (routine : Routine) : Channel Session.Live where
  exchange live responses buffer :=
    let ((result, now), session) := live.session.exchange routine live.now responses buffer
    (result, ⟨now, session⟩)

end FileBroker
