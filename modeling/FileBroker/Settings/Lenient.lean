import FileBroker.Data.Decimal
import FileBroker.Settings.Basic

/-!
Settings out of a table. Sources differ in what they can write, so a value is taken for what it can
be read as: numbers as text, text as numbers, and names in any case.
-/
namespace FileBroker

open Data

inductive SettingsError where
  | missingFile (path : String)
  | unknownFormat (path : String)
  | malformedFile (path : String)
  /-- A setting has a value that cannot be read as its type. -/
  | invalid (setting : String)
  deriving DecidableEq, Repr

def SettingsError.message : SettingsError → String
  | .missingFile path => s!"settings file {path} not found"
  | .unknownFormat path => s!"settings file {path} is of no known format"
  | .malformedFile path => s!"settings file {path} cannot be read"
  | .invalid setting => s!"invalid value for setting {setting}"

namespace Settings

/-- Reading a value as it was meant. -/
structure Lenient (α : Type) where
  read? : Value → Option α

namespace Lenient

/-- Words for yes and no count as 1 and 0. -/
def size (text : String) : Option Nat :=
  let lower := Text.lower text
  if ["true", "on", "yes"].contains lower then some 1
  else if ["false", "off", "no"].contains lower then some 0
  else match text.toList with
  | '+' :: digits => (Decimal.natural? digits).bind Word.check?
  | digits => (Decimal.natural? digits).bind Word.check?

/-- Numbers that are not whole go to the nearest that is, within 64 bits. -/
def natural : Lenient Nat where
  read?
    | .int n => if 0 ≤ n then some n.toNat else none
    | .bool set => some (if set then 1 else 0)
    | .real x => some x.round.toUInt64.toNat
    | .text written => size written
    | .null | .list _ | .table _ => none

def text : Lenient String where
  read?
    | .text written => some written
    | .int n => some (toString n)
    | .bool set => some (if set then "true" else "false")
    | .real x => some (Decimal.text x)
    | .null | .list _ | .table _ => none

def span : Lenient Span where
  read? value := (text.read? value).bind Span.ofText?

/-- A name, which may also be the only key of a table. -/
def choice {α : Type} (all : List α) (name : α → String) : Lenient α where
  read?
    | .text written | .table [(written, _)] =>
      all.find? fun a => name a == Text.lower written
    | _ => none

def optional {α : Type} (lenient : Lenient α) : Lenient (Option α) where
  read?
    | .null => some none
    | value => (lenient.read? value).map some

end Lenient

/-- A setting of a table, as it was meant. -/
def get {α : Type} (table : Value) (setting : String) (lenient : Lenient α) :
    Except SettingsError α :=
  match (table.field? setting).bind lenient.read? with
  | some a => .ok a
  | none => .error (.invalid setting)

open Lenient in
/-- The settings that a table holds; it has to hold all of them. -/
def ofTable (table : Value) : Except SettingsError Settings := do
  return {
    volume := ← get table "volume" text
    capacity := ← get table "capacity" natural
    operationTimeout := ← get table "operation_timeout" span
    exchangeTimeout := ← get table "transact_timeout" span
    retryDelay := ← get table "retry_delay" span
    stopGrace := ← get table "stop_grace" span
    revision := ← get table "wire_version" (choice Revision.all Revision.keyword)
    mode := ← get table "transact_mode" (choice ExchangeMode.all ExchangeMode.keyword)
    threads := ← get table "dispatcher_threads" natural
    producers := ← get table "producers" natural
    cycles := ← get table "operations" natural
    maxWrite := ← get table "max_write" natural
    volumeSize := ← get table "volume_size" natural
    logFilter := ← get table "log_filter" text
    reportPath := ← get table "report_path" (optional text) }

end Settings
end FileBroker
