import CellScript.Text.Basic

/-! The defaults of runs. -/
namespace CellScript

/-- The defaults of runs, and the file they come from. -/
structure Config where
  autoQuote : Bool := true
  hasHeader : Bool := true
  printHeader : Bool := true
  delimiter : Text := ","
  debug : Bool := false
  requiredVersion : Text := []
  /-- The file that was read; empty when there was none. -/
  file : Text := []
  deriving DecidableEq, Inhabited

namespace Settings

def fileName : Text := ".csv-eval"

/-- The names of the formats, in the order in which files are searched for. -/
def extensions : List Text :=
  ["json", "toml", "yaml", "yml", "properties", "props", "prop", "hcl", "tfvars", "dotenv", "env",
    "ini"]

/-- The part of a path after its last dot, if that stands in its last component. -/
def extension? (path : Text) : Option Text :=
  let name := (path.reverse.takeWhile (· != Text.ascii '/'))
  let ending := name.takeWhile (· != Text.ascii '.')
  if ending.length < name.length then some ending.reverse else none

end Settings
end CellScript
