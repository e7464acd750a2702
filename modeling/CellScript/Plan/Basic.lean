import CellScript.Row.Layout
import CellScript.Script.Error
import CellScript.Shorthand.Expansion

/-! A run as it is asked for, and the script code of its stages. -/
namespace CellScript

/-- The parts of the work on one line. -/
inductive Stage where
  | header
  | filter
  | statement
  | afterFilter
  | select
  deriving DecidableEq

def Stage.name : Stage → Text
  | header => "header"
  | filter => "filter"
  | statement => "statement"
  | afterFilter => "after-filter"
  | select => "select"

/-- A run as it is asked for. Blank texts ask for nothing. -/
structure Options where
  statement : Text := []
  /-- Lines that do not meet it are dropped before the statement runs. -/
  filter : Text := []
  /-- Lines that do not meet it are dropped after the statement has run. -/
  afterFilter : Text := []
  /-- The fields to print, separated by commas. -/
  select : Text := []
  autoQuote : Bool := true
  hasHeader : Bool := true
  printHeader : Bool := true
  delimiter : Text := Layout.defaultDelimiter
  deriving DecidableEq, Inhabited

/-- The delimiter in force. -/
def Options.separator (o : Options) : Text :=
  if o.delimiter.isEmpty then Layout.defaultDelimiter else o.delimiter

/-- The script code of every stage of a run. -/
structure Plan where
  options : Options
  filter : Option Text
  body : Option Text
  afterFilter : Option Text
  /-- One expression for each selected field; without any the whole row is printed. -/
  projection : List Text
  /-- The columns that the statement appends. -/
  newHeaders : List Text
  deriving DecidableEq, Inhabited

namespace Plan

inductive Error where
  | shorthand (stage : Stage) (error : Shorthand.Error)
  | script (stage : Stage) (error : Script.Error)
  deriving DecidableEq

def Error.message : Error → Text
  | shorthand stage error => stage.name ++ ": " ++ error.message
  | script stage error => stage.name ++ ": " ++ error.message

/-- The code of one stage, if it asks for anything. -/
def stage? (stage : Stage) (mode : Shorthand.Mode) (quoting : Bool) (src : Text) :
    Except Error (Option Shorthand.Expansion) :=
  if Text.blankOnly src then .ok none
  else match Shorthand.expand mode quoting src with
    | .ok expansion => .ok (some expansion)
    | .error error => .error (.shorthand stage error)

/-- The expressions of a comma separated list of fields. Blank fields are left out. -/
def selectors (quoting : Bool) (select : Text) : List Text :=
  ((Text.splitOn "," select).map Text.trim |>.filter (!·.isEmpty)).map fun s =>
    Shorthand.rowName ++ "[" ++ (if quoting then Shorthand.quoteSelector s else s) ++ "]"

/-- The plan of a run: filter, statement and after-filter are compiled in this order. -/
def ofOptions (o : Options) : Except Error Plan := do
  let filter ← stage? .filter .filter o.autoQuote o.filter
  let body ← stage? .statement .statement o.autoQuote o.statement
  let afterFilter ← stage? .afterFilter .filter o.autoQuote o.afterFilter
  return {
    options := o
    filter := filter.map (·.code)
    body := body.map (·.code)
    afterFilter := afterFilter.map (·.code)
    projection := selectors o.autoQuote o.select
    newHeaders := (body.map (·.newHeaders)).getD [] }

end Plan
end CellScript
