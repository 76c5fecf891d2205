import FileBroker.Data.Decimal
import FileBroker.Word

/-!
The command line: options of the program, then a command with options of its own. Arguments are
read from left to right, and the first one that asks for help or is out of place ends the reading.
-/
namespace FileBroker.CommandLine

/-- What a workload changes in the settings. -/
structure Overrides where
  producers : Option Nat
  cycles : Option Nat
  threads : Option Nat
  deriving DecidableEq, Repr

def Overrides.empty : Overrides := ⟨none, none, none⟩

inductive Command where
  | run (overrides : Overrides)
  | showSettings
  deriving DecidableEq, Repr

structure Invocation where
  settingsPath : Option String
  command : Command
  deriving DecidableEq, Repr

/-- Why an argument is refused. -/
inductive Misuse where
  | unknownArgument (argument : String)
  | unknownCommand (name : String)
  | valueMissing (option : String)
  | valueUnexpected (option : String)
  | valueInvalid (option value : String)
  | repeated (option : String)
  deriving DecidableEq, Repr

def Misuse.message : Misuse → String
  | .unknownArgument argument => s!"unexpected argument {argument}"
  | .unknownCommand name => s!"unrecognized subcommand {name}"
  | .valueMissing option => s!"a value is required for {option}"
  | .valueUnexpected option => s!"unexpected value for {option}"
  | .valueInvalid option value => s!"invalid value {value} for {option}"
  | .repeated option => s!"the argument {option} cannot be used multiple times"

/-- What ends the reading of arguments early. -/
inductive Interruption where
  | help
  | version
  | misuse (cause : Misuse)
  deriving DecidableEq, Repr

abbrev Reading := Except Interruption

def refuse {α : Type} (cause : Misuse) : Reading α := .error (.misuse cause)

/-! ### Single arguments -/

/-- An argument as it is spelled; an option may have a value attached. -/
inductive Argument where
  | plain (text : String)
  | long (name : String) (attached : Option String)
  | short (letter : Char) (attached : String)
  /-- Two dashes, after which nothing is an option. -/
  | divider
  deriving DecidableEq, Repr

def Argument.ofText (text : String) : Argument :=
  match text.toList with
  | ['-', '-'] => .divider
  | '-' :: '-' :: rest =>
    match rest.dropWhile (· != '=') with
    | _ :: value => .long (String.ofList (rest.takeWhile (· != '='))) (some (String.ofList value))
    | [] => .long (String.ofList rest) none
  | '-' :: letter :: rest => .short letter (String.ofList rest)
  | _ => .plain text

/-- Values stand after an option, unless they look like options themselves. -/
def isValue (text : String) : Bool := (Argument.ofText text) matches .plain _

/-- A path has at least one character. -/
def pathValue (earlier : Option String) (path : String) : Reading (Option String) :=
  if earlier.isSome then refuse (.repeated "--config")
  else if path.isEmpty then refuse (.valueMissing "--config")
  else .ok (some path)

/-- A number of 64 bits. -/
def sizeValue (option : String) (earlier : Option Nat) (text : String) : Reading (Option Nat) :=
  let digits := match text.toList with
    | '+' :: rest => rest
    | input => input
  match (Data.Decimal.natural? digits).bind Word.check? with
  | none => refuse (.valueInvalid option text)
  | some n => if earlier.isSome then refuse (.repeated option) else .ok (some n)

def Overrides.set? (overrides : Overrides) (option : String) :
    Option (String → Reading Overrides) :=
  match option with
  | "producers" => some fun text =>
    (sizeValue option overrides.producers text).map fun producers => { overrides with producers }
  | "operations" => some fun text =>
    (sizeValue option overrides.cycles text).map fun cycles => { overrides with cycles }
  | "threads" => some fun text =>
    (sizeValue option overrides.threads text).map fun threads => { overrides with threads }
  | _ => none

/-! ### Lines of arguments -/

/-- The option that asks for help, alone. -/
def helpOption (attached : Option String) : Interruption :=
  if attached.isSome then .misuse (.valueUnexpected "--help") else .help

/-- After two dashes there is nothing that could be given. -/
def nothingMore {α : Type} (result : α) : List String → Reading α
  | [] => .ok result
  | argument :: _ => refuse (.unknownArgument argument)

/-- The options of a workload. -/
def readOverrides (overrides : Overrides) : List String → Reading Overrides
  | [] => .ok overrides
  | argument :: rest =>
    match Argument.ofText argument with
    | .divider => nothingMore overrides rest
    | .short 'h' _ => .error .help
    | .long "help" attached => .error (helpOption attached)
    | .long option attached =>
      match overrides.set? option, attached with
      | none, _ => refuse (.unknownArgument argument)
      | some set, some text => do readOverrides (← set text) rest
      | some set, none =>
        match rest with
        | [] => refuse (.valueMissing option)
        | text :: rest =>
          if isValue text then do readOverrides (← set text) rest
          else refuse (.valueMissing option)
    | _ => refuse (.unknownArgument argument)

/-- Showing the settings takes no options. -/
def readNothing : List String → Reading Unit
  | [] => .ok ()
  | argument :: rest =>
    match Argument.ofText argument with
    | .divider => nothingMore () rest
    | .short 'h' _ => .error .help
    | .long "help" attached => .error (helpOption attached)
    | _ => refuse (.unknownArgument argument)

/-- What help is asked about: nothing in particular, or one command. -/
def readTopic : List String → Interruption
  | [] | ["run"] | ["config"] | ["help"] => .help
  | "run" :: name :: _ | "config" :: name :: _ | "help" :: name :: _ | name :: _ =>
    .misuse (.unknownCommand name)

/-- The arguments after the program's name, given a path that they have already set. -/
def read (path : Option String) : List String → Reading Invocation
  | [] => .ok ⟨path, .run .empty⟩
  | argument :: rest =>
    match Argument.ofText argument with
    | .plain "run" => do return ⟨path, .run (← readOverrides .empty rest)⟩
    | .plain "config" => do
      readNothing rest
      return ⟨path, .showSettings⟩
    | .plain "help" => .error (readTopic rest)
    | .plain name => refuse (.unknownCommand name)
    | .divider => nothingMore ⟨path, .run .empty⟩ rest
    | .short 'h' _ => .error .help
    | .short 'V' _ => .error .version
    | .long "help" attached => .error (helpOption attached)
    | .long "version" none => .error .version
    | .long "version" (some _) => refuse (.valueUnexpected "--version")
    | .long "config" (some text) => do read (← pathValue path text) rest
    | .short 'c' attached =>
      if attached.isEmpty then valueAfter path rest
      else
        let text := if attached.startsWith "=" then (attached.drop 1).toString else attached
        do read (← pathValue path text) rest
    | .long "config" none => valueAfter path rest
    | .long _ _ | .short _ _ => refuse (.unknownArgument argument)
where
  /-- The path that follows as an argument of its own, and the arguments after it. -/
  valueAfter (path : Option String) : List String → Reading Invocation
    | [] => refuse (.valueMissing "--config")
    | text :: rest =>
      if isValue text then do read (← pathValue path text) rest
      else refuse (.valueMissing "--config")

end FileBroker.CommandLine
