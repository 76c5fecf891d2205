import FileBroker.Text

/-!
Wire revisions, the message bound each one sets, and the tokens that pair requests with
responses.
-/
namespace FileBroker

/-- Ties a response to the request it answers; unique among the outstanding operations of a
session. -/
structure Hint where
  value : UInt64
  deriving DecidableEq, Repr, Inhabited

def Hint.text (hint : Hint) : String := Text.hex hint.value.toNat

inductive Revision where
  | legacy
  | v1
  deriving DecidableEq, Repr, Inhabited

namespace Revision

def current : Revision := .v1

def all : List Revision := [.legacy, .v1]

def number : Revision → UInt16
  | .legacy => 0
  | .v1 => 1

def ofNumber? : UInt16 → Option Revision
  | 0 => some .legacy
  | 1 => some .v1
  | _ => none

/-- The spelling used in messages. -/
def label : Revision → String
  | .legacy => "Legacy"
  | .v1 => "V1"

/-- The spelling used in settings. -/
def keyword : Revision → String
  | .legacy => "legacy"
  | .v1 => "v1"

/-- The newest revision that both sides speak. -/
def negotiate (ours theirs : Revision) : Revision :=
  if ours.number ≤ theirs.number then ours else theirs

/-- Longest message, in either direction, without alignment padding. -/
def messageLimit : Revision → Nat
  | .legacy => 4096 - 64
  | .v1 => 16 * 1024 - 64

theorem ofNumber?_number (revision : Revision) : ofNumber? revision.number = some revision := by
  cases revision <;> rfl

theorem messageLimit_le (revision : Revision) : revision.messageLimit ≤ 16320 := by
  cases revision <;> decide

theorem messageLimit_ge (revision : Revision) : 4032 ≤ revision.messageLimit := by
  cases revision <;> decide

end Revision
end FileBroker
