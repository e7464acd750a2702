import CellScript.Number.Shortest
import CellScript.Settings.Assignments
import CellScript.Settings.Basic
import CellScript.Settings.Json
import CellScript.Settings.Machine
import CellScript.Settings.Toml
import CellScript.Settings.Yaml

/-! Loading the defaults of runs from a file and the environment. -/
namespace CellScript.Settings

inductive LoadError where
  | unsupported (extension : Text)
  | missing (path : Text)
  /-- The file is no document of its format. -/
  | malformed
  /-- A value does not fit its field. -/
  | undecodable
  deriving DecidableEq

def LoadError.message : LoadError → Text
  | unsupported extension =>
    "failed to read config: Unsupported Config Type " ++ extension.quote
  | missing path =>
    "failed to read config: open " ++ path ++ ": file does not exist"
  | malformed => "failed to read config: While parsing config"
  | undecodable => "failed to decode config"

/-- The directories that are searched, in order. -/
def searchPaths (m : Machine) : List Text :=
  [m.directory, m.home, m.home ++ "/.config/csv-eval"].map m.resolve

def candidates (directory : Text) : List Text :=
  let named (name : Text) : Text := absolute directory name
  (extensions.map fun e => named (fileName ++ "." ++ e)) ++ [named fileName]

def search? (m : Machine) : Option Text :=
  ((searchPaths m).flatMap candidates).find? fun path => (m.file? path).isSome

/-- The entries of a document. One without content has none; anything but a map is no settings
file. -/
def entriesOf : Option Tree → Except LoadError Tree
  | some (.map entries) => .ok (.map entries)
  | some (.leaf .null) => .ok (.map [])
  | _ => .error .malformed

/-- Read a document in the format that an extension names. Assignments refer to the environment. -/
def readAs (env : Dotenv.Vars) (extension content : Text) : Except LoadError Tree :=
  if extension == Text.ofString "yaml" || extension == Text.ofString "yml" then
    entriesOf (Yaml.read? content)
  else if extension == Text.ofString "json" then entriesOf (Json.read? content)
  else if extension == Text.ofString "toml" then entriesOf (Toml.read? content)
  else if extension == Text.ofString "env" || extension == Text.ofString "dotenv" then
    match Assignments.read? env content with
    | some vars => .ok (.map (vars.map fun v => (v.1, .leaf (.text v.2))))
    | none => .error .malformed
  else .error .malformed

/-- The entries of the settings file and its path. A file that is asked for must exist and have a
known extension; a file that is found is read as YAML whatever its extension. -/
def readFile (m : Machine) (file : Text) : Except LoadError (Tree × Text) :=
  if file.isEmpty then
    match search? m with
    | none => .ok (.map [], [])
    | some path => do
      return (← entriesOf (Yaml.read? ((m.file? path).getD [])), path)
  else
    let extension := (extension? file).getD []
    if !extensions.contains extension then .error (.unsupported extension)
    else match m.file? file with
      | none => .error (.missing (m.resolve file))
      | some content => do return (← readAs m.env extension content, file)

/-- A truth value from whatever stands for one: numbers other than zero, the usual words, and no
text at all. -/
def toBool? : Scalar → Option Bool
  | .bool b => some b
  | .int n => some (n != 0)
  | .float x => some (x != 0)
  | .text t => if t.isEmpty then some false else readBool? t
  | .null | .moment => none

def toText? : Scalar → Option Text
  | .bool b => some (if b then "1" else "0")
  | .int n => some (Text.ofInt n)
  | .float x => some (Number.ofFloat x)
  | .text t => some t
  | .null | .moment => none

/-- The name of the variable that overrides a setting. -/
def variableName (name : Text) : Text := "CSV_EVAL_" ++ name.map Text.upperByte

/-- What is set for a name: by a variable that is not empty, or else by the file. -/
def setting? (m : Machine) (entries : Tree) (name : Text) : Option Tree :=
  match m.env.get? (variableName name) with
  | some (b :: rest) => some (.leaf (.text (b :: rest)))
  | _ =>
    match entries.entry? name with
    | some (.leaf .null) => none
    | found => found

/-- Decode a setting, or take the default when nothing is set. -/
def decode {α : Type} (read? : Scalar → Option α) (default : α) :
    Option Tree → Except LoadError α
  | none => .ok default
  | some (.leaf s) =>
    match read? s with
    | some a => .ok a
    | none => .error .undecodable
  | some _ => .error .undecodable

/-- Load the defaults on a machine whose environment is complete. -/
def load (m : Machine) (file : Text) : Except LoadError Config := do
  let (entries, path) ← readFile m file
  let bool (name : Text) (default : Bool) := decode toBool? default (setting? m entries name)
  let text (name : Text) (default : Text) := decode toText? default (setting? m entries name)
  let default : Config := {}
  return {
    autoQuote := ← bool "auto_quote" default.autoQuote
    hasHeader := ← bool "has_header" default.hasHeader
    printHeader := ← bool "print_header" default.printHeader
    delimiter := ← text "delimiter" default.delimiter
    debug := ← bool "debug" default.debug
    requiredVersion := ← text "required_version" default.requiredVersion
    file := path }

end CellScript.Settings
