import FileBroker.CommandLine.Arguments
import FileBroker.Relay.Workload
import FileBroker.Settings.Source

/-! What the program is to do, from its arguments, its environment and the files it can read. -/
namespace FileBroker

/-! ### Running a workload -/

namespace Settings

/-- The session, its worker and an empty volume, as they are before the workload. -/
def relay (settings : Settings) : Relay :=
  .start (.start settings.volume settings.brokerConfig 0)
    (.new settings.volume settings.volumeSize 0)
    (settings.workerConfig.nameOf 0)

/-- The longest payload: it is written, and its read fits one response. There is always a byte. -/
def payloadLimit (settings : Settings) : Nat :=
  max 1 (Workload.payloadLimit settings.revision settings.maxWrite)

/-- Runs the producers, each writing payloads of its own, and stops the session. -/
def run (settings : Settings) (clock : (ticket : Nat) → UInt64)
    (payload : (producer round : Nat) → Bytes) : Workload.State :=
  let state := Workload.run settings.relay clock settings.producers settings.cycles payload
  { state with relay := state.relay.stop.2 }

end Settings

namespace CommandLine

/-! ### Plans -/

inductive Plan where
  | help
  | version
  | showSettings (settings : Settings)
  | run (settings : Settings)
  deriving DecidableEq, Repr

inductive Refusal where
  | misuse (cause : Misuse)
  | settings (cause : SettingsError)
  /-- Threads are named after the volume, and a name ends at a null character. -/
  | threadName
  deriving DecidableEq, Repr

namespace Refusal

def message : Refusal → String
  | .misuse cause => "error: " ++ cause.message
  | .settings cause => "Error: failed to load configuration: " ++ cause.message
  | .threadName => "thread name may not contain interior null bytes"

/-- Arguments that are out of place are told apart from everything else that can fail. -/
def exitCode : Refusal → Nat
  | .misuse _ => 2
  | .settings _ => 1
  | .threadName => 101

end Refusal

/-- Options given to a command count more than any setting. -/
def Overrides.apply (overrides : Overrides) (settings : Settings) : Settings :=
  { settings with
    producers := overrides.producers.getD settings.producers
    cycles := overrides.cycles.getD settings.cycles
    threads := overrides.threads.getD settings.threads }

theorem Overrides.apply_empty (settings : Settings) :
    Overrides.empty.apply settings = settings := rfl

/-- Settings are loaded before the command is looked at. -/
def plan (arguments : List String) (environment : List (String × String))
    (fileText : String → Option String) : Except Refusal Plan :=
  match read none arguments with
  | .error .help => .ok .help
  | .error .version => .ok .version
  | .error (.misuse cause) => .error (.misuse cause)
  | .ok invocation =>
    match Settings.load fileText invocation.settingsPath environment with
    | .error cause => .error (.settings cause)
    | .ok settings => match invocation.command with
      | .showSettings => .ok (.showSettings settings)
      | .run overrides =>
        if settings.volume.toList.contains '\x00' then .error .threadName
        else .ok (.run (overrides.apply settings))

end CommandLine
end FileBroker
