import FileBroker.Data.Ini
import FileBroker.Data.Json5
import FileBroker.Data.Ron
import FileBroker.Data.Toml.Document
import FileBroker.Data.Yaml.Document
import FileBroker.Settings.Lenient
import FileBroker.Settings.Overlay

/-! Where settings come from: a file, and over it the variables of the environment. -/
namespace FileBroker.Settings

open Data

/-! ### The environment -/

/-- How the names of variables begin. -/
def variableStart : String := "fsrelay_"

/-- The setting that a variable is for, whose name is written in any case. -/
def settingOf? (name : String) : Option String :=
  let lower := (Text.lower name).toList
  if variableStart.toList.isPrefixOf lower then
    some (String.ofList (lower.drop variableStart.length))
  else none

/-- What a variable's text stands for: a truth value, else a number, else itself. -/
def variableValue (text : String) : Value :=
  match Text.lower text with
  | "true" => .bool true
  | "false" => .bool false
  | _ =>
    match Decimal.integer? text.toList with
    | some n => if Word.isSigned n then .int n else ofReal text
    | none => ofReal text
where
  ofReal (text : String) : Value :=
    match Decimal.real? text.toList with
    | some x => .real x
    | none => .text text

def Layer.ofEnvironment (environment : List (String × String)) : Layer :=
  environment.filterMap fun (name, text) =>
    (settingOf? name).map fun setting => (setting, variableValue text)

/-! ### Files -/

inductive Format where
  | toml
  | json
  | yaml
  | ini
  | ron
  | json5
  deriving DecidableEq, Repr

namespace Format

def all : List Format := [.toml, .json, .yaml, .ini, .ron, .json5]

def extensions : Format → List String
  | .toml => ["toml"]
  | .json => ["json"]
  | .yaml => ["yaml", "yml"]
  | .ini => ["ini"]
  | .ron => ["ron"]
  | .json5 => ["json5"]

/-- The format that the end of a path tells. -/
def ofPath? (path : String) : Option Format :=
  match (path.splitOn "/").getLast?.map fun file => file.splitOn "." with
  | some (stem :: parts) =>
    if stem.isEmpty && parts.length < 2 then none
    else parts.getLast?.bind fun last => all.find? fun format => format.extensions.contains last
  | _ => none

/-- Whole numbers beyond a signed 64-bit word are real. -/
def narrowed (entry : String × Value) : String × Value :=
  match entry with
  | (key, .int n) =>
    (key, if Word.isSigned n then .int n else .real (Decimal.ofDigits (n < 0) n.natAbs 0))
  | entry => entry

/-- The settings of a file, which has to be a table. -/
def layer? (format : Format) (text : String) : Option Layer :=
  let read := match format with
    | .toml => Toml.read? text
    | .json => Json.read? text
    | .yaml => Yaml.read? text
    | .ini => Ini.read? text
    | .ron => Ron.read? text
    | .json5 => Json5.read? text
  match read with
  | some (.table entries) => some (entries.map narrowed)
  | _ => none

end Format

/-- Where the file that a path names can be: the path may leave out the extension. -/
def candidates (path : String) : List String :=
  path :: (Format.all.flatMap Format.extensions).map fun extension => path ++ "." ++ extension

/-- The first file that is there, with its format. -/
def locate? (fileText : String → Option String) (path : String) :
    Except SettingsError (Format × String) :=
  match (candidates path).findSome? fun file => (fileText file).map fun text => (file, text) with
  | none => .error (.missingFile path)
  | some (file, text) => match Format.ofPath? file with
    | some format => .ok (format, text)
    | none => .error (.unknownFormat path)

def Layer.ofFile (fileText : String → Option String) (path : String) :
    Except SettingsError Layer := do
  let (format, text) ← locate? fileText path
  match format.layer? text with
  | some layer => return layer
  | none => .error (.malformedFile path)

/-- Standard settings, over them those of the file, if there is one, and over these the
environment. -/
def load (fileText : String → Option String) (path : Option String)
    (environment : List (String × String)) : Except SettingsError Settings := do
  let file ← match path with
    | none => pure []
    | some path => Layer.ofFile fileText path
  ofTable (Layer.putOver (file ++ Layer.ofEnvironment environment) standard.toValue)

end FileBroker.Settings
