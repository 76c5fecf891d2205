import FileBroker.CommandLine.Plan

/-!
The program: reads its surroundings, carries out what is asked for, and prints what comes of it.
-/
namespace FileBroker.CommandLine

open Data

def usage : String :=
  "\n".intercalate
    ["Usage: [OPTIONS] [COMMAND]",
     "",
     "Commands:",
     "  run     Run a session, its worker and producers (default)",
     "  config  Print the effective settings as JSON",
     "  help    Print this message",
     "",
     "Options of run:",
     "      --producers <N>   Producers",
     "      --operations <N>  Rounds of each producer",
     "      --threads <N>     Worker threads (0 leaves their number to the machine)",
     "",
     "Options:",
     "  -c, --config <PATH>  Settings file",
     "  -h, --help           Print this message",
     "  -V, --version        Print the version"]

/-- The variables of the environment that are settings. -/
def environment : IO (List (String × String)) := do
  let names := (Settings.standard.toValue.keys).map fun setting =>
    (Settings.variableStart ++ setting).map Char.toUpper
  names.filterMapM fun name => return (← IO.getEnv name).map fun text => (name, text)

/-- The files that settings may be read from, as far as they are there. -/
def files (arguments : List String) : IO (List (String × String)) := do
  let paths : List String := match read none arguments with
    | .ok ⟨some path, _⟩ => Settings.candidates path
    | _ => []
  paths.filterMapM fun (path : String) => do
    try
      return some (path, ← IO.FS.readFile path)
    catch _ => return none

/-- Runs a workload and reports on it. The report tells nothing of when files were written, so the
clock of the volume stands still. -/
def runWorkload (settings : Settings) : IO Unit := do
  let seed := UInt64.ofNat (← IO.rand 0 UInt32.size)
  let before ← IO.monoMsNow
  let payload := Workload.payload seed settings.payloadLimit
  let state ← IO.lazyPure fun _ => settings.run (fun _ => 0) payload
  let elapsed := (← IO.monoMsNow) - before
  let report := Json.pretty 0 (Describe.report state elapsed)
  match settings.reportPath with
  | some path => IO.FS.writeFile path report
  | none => IO.println report

end FileBroker.CommandLine

open FileBroker FileBroker.CommandLine in
def main (arguments : List String) : IO UInt32 := do
  let files ← files arguments
  match plan arguments (← environment) (fun path => files.lookup path) with
  | .error refusal =>
    IO.eprintln refusal.message
    return UInt32.ofNat refusal.exitCode
  | .ok .help => IO.println usage; return 0
  | .ok .version => IO.println "0.1.0"; return 0
  | .ok (.showSettings settings) =>
    IO.println (Data.Json.pretty 0 settings.toValue)
    return 0
  | .ok (.run settings) =>
    try
      runWorkload settings
      return 0
    catch error =>
      IO.eprintln s!"Error: {error}"
      return 1
