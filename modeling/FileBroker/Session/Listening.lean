import FileBroker.Session.Basic

/-!
Listening to the notifications of a session. Only the newest are kept for listeners: who falls
further behind is told how many were missed, and goes on with the oldest one kept.
-/
namespace FileBroker.Session

/-- What listening gives. -/
inductive Heard where
  | notification (notification : Notification)
  | nothing
  | missed (count : Nat)
  deriving DecidableEq, Repr

/-- How many notifications are kept for listeners. -/
def keptNotifications : Nat := 256

/-- Where a new listener starts: behind everything sent so far. -/
def subscribe (session : Session) : Nat := session.notifications.length

/-- Position of the oldest notification that is kept. -/
def oldestKept (session : Session) : Nat := session.notifications.length - keptNotifications

/-- The next notification for a listener, and its new position. -/
def listen (session : Session) (position : Nat) : Heard × Nat :=
  if position < session.oldestKept then
    (.missed (session.oldestKept - position), session.oldestKept)
  else match session.notifications[position]? with
  | some notification => (.notification notification, position + 1)
  | none => (.nothing, position)

end FileBroker.Session
