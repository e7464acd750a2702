import CellScript.Settings.Basic
import CellScript.Settings.Load
import CellScript.Settings.Yaml.Printer

/-! Writing the defaults of runs to a file. -/
namespace CellScript.Settings

inductive SaveError where
  | noExtension (path : Text)
  | unsupported (extension : Text)
  | noWriter
  deriving DecidableEq

def SaveError.message : SaveError → Text
  | noExtension path => "config type could not be determined for " ++ path
  | unsupported extension => "Unsupported Config Type " ++ extension.quote
  | noWriter => "While marshaling config: encoder not found for this format"

inductive Setting where
  | bool (b : Bool)
  | text (t : Text)

/-- The settings that are written, sorted by name. -/
def settings (c : Config) : List (Text × Setting) :=
  [("auto_quote", .bool c.autoQuote), ("debug", .bool c.debug), ("delimiter", .text c.delimiter),
    ("has_header", .bool c.hasHeader), ("print_header", .bool c.printHeader),
    ("required_version", .text c.requiredVersion)]

/-- A line of YAML for each setting. -/
def writeYaml (c : Config) : Text :=
  (settings c).flatMap fun (name, value) =>
    let written : Text := match value with
      | .bool b => Text.ofBool b
      | .text t => Yaml.writeText t
    name ++ ": " ++ written ++ "\n"

def writeJson (c : Config) : Text :=
  let line : Text × Setting → Text
    | (name, .bool b) => "  " ++ Json.writeString name ++ ": " ++ Text.ofBool b
    | (name, .text t) => "  " ++ Json.writeString name ++ ": " ++ Json.writeString t
  "\x7b\n" ++ Text.join ",\n" ((settings c).map line) ++ "\n\x7d"

def writeToml (c : Config) : Text :=
  (settings c).flatMap fun (name, value) =>
    let written : Text := match value with
      | .bool b => Text.ofBool b
      | .text t => Toml.writeString t
    name ++ " = " ++ written ++ "\n"

def writeDotenv (c : Config) : Text :=
  (settings c).flatMap fun (name, value) =>
    let written : Text := match value with
      | .bool b => Text.ofBool b
      | .text t => t
    name.map Text.upperByte ++ "=" ++ written ++ "\n"

/-- The content of a settings file in the format that an extension names. -/
def writeAs (extension : Text) (c : Config) : Except SaveError Text :=
  if extension == Text.ofString "yaml" || extension == Text.ofString "yml" then .ok (writeYaml c)
  else if extension == Text.ofString "json" then .ok (writeJson c)
  else if extension == Text.ofString "toml" then .ok (writeToml c)
  else if extension == Text.ofString "env" || extension == Text.ofString "dotenv" then
    .ok (writeDotenv c)
  else .error .noWriter

/-- The machine after the defaults have been written to a file. A format that can be read but not
written leaves an empty file. -/
def save (m : Machine) (c : Config) (path : Text) : Machine × Except SaveError Unit :=
  match extension? path with
  | none | some [] => (m, .error (.noExtension path))
  | some extension =>
    if !extensions.contains extension then (m, .error (.unsupported extension))
    else match writeAs extension c with
      | .ok content => (m.write path content, .ok ())
      | .error error => (m.write path [], .error error)

end CellScript.Settings
