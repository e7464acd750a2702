import CellScript.Plan.Basic

/-! Plans as text: the program that is run for every line, and a document that explains it. -/
namespace CellScript.Plan

def bracketed (items : List Text) : Text := "[" ++ Text.join ", " items ++ "]"

/-- What is printed for a line. -/
def output (p : Plan) : Text :=
  if p.projection.isEmpty then Shorthand.rowName else Text.join ", " p.projection

/-- A line that skips the rows which do not meet a condition. -/
def guardLine : Option Text → Text
  | some code => "if not (" ++ code ++ "): continue\n"
  | none => []

def program (p : Plan) : Text :=
  let header : Text :=
    if p.options.hasHeader then
      "# line 1: register header, extra columns " ++ bracketed p.newHeaders ++ "\n" ++
        (if p.options.printHeader then "# line 1: emit " ++ p.output ++ "\n" else [])
    else []
  header ++
    Shorthand.rowName ++ " = split(line, " ++ p.options.separator.quote ++ ")\n" ++
    guardLine p.filter ++
    (match p.body with | some code => code ++ "\n" | none => []) ++
    guardLine p.afterFilter ++
    "emit " ++ p.output ++ "\n"

def tableCell (t : Text) : Text := Text.replace "|" "\\|" t

/-- A row of the table of stages. A stage without code has none. -/
def tableRow (stage : Stage) (input : Text) : Option Text → Text
  | some code =>
    "| " ++ stage.name ++ " | `" ++ tableCell input ++ "` | `" ++ tableCell code ++ "` |\n"
  | none => []

def document (p : Plan) : Text :=
  let select := if p.projection.isEmpty then none else some (Text.join ", " p.projection)
  let columns : Text :=
    if p.newHeaders.isEmpty then [] else "\nNew columns: " ++ bracketed p.newHeaders ++ "\n"
  "# csv-eval plan\n\n| stage | input | generated |\n|---|---|---|\n" ++
    tableRow .filter p.options.filter p.filter ++
    tableRow .statement p.options.statement p.body ++
    tableRow .afterFilter p.options.afterFilter p.afterFilter ++
    tableRow .select p.options.select select ++
    columns ++
    "\n## Program\n\n```text\n" ++ p.program ++ "```\n"

end CellScript.Plan
