import CellScript.Command.Record
import CellScript.Settings.Load
import CellScript.Stream.Basic

/-! What is recorded about a run, from the settings to the single lines. -/
namespace CellScript.Command.Trace

/-- The files of variables that could not be read. -/
def envFiles (m : Settings.Machine) : List Record :=
  m.envFaults.map fun (name, error) =>
    { level := .warning
      event := "Ignoring unreadable env file"
      fields := [("file", name), ("error", error.message)] }

def loaded (c : Config) : Record :=
  { event := "Loaded config"
    fields := [("file", c.file), ("delimiter", c.delimiter),
      ("has_header", Text.ofBool c.hasHeader), ("auto_quote", Text.ofBool c.autoQuote)] }

def asked (o : Options) : Record :=
  { event := "Input statement"
    fields := [("statement", o.statement), ("filter", o.filter), ("after_filter", o.afterFilter),
      ("select", o.select)] }

def scanned (src : Text) : Record :=
  { event := "Tokenized dialect source"
    fields := [("input_length", Text.ofNat src.length),
      ("tokens", Text.ofNat (Shorthand.scan src).length)] }

def visit (t : Shorthand.Token) : Record :=
  { event := "Visit token"
    fields := [("kind", t.kind.name), ("lexeme", t.lexeme), ("pos", Text.ofNat t.pos)] }

def expanded (mode : Shorthand.Mode) (src : Text) (x : Shorthand.Expansion) : Record :=
  { event := "Compiled statement"
    fields := [("mode", mode.name), ("source", src), ("code", x.code),
      ("new_headers", Record.listed x.newHeaders)] }

/-- The tokens that an expansion takes in, up to the first that is refused. -/
def visited (mode : Shorthand.Mode) (quoting : Bool) (d : Shorthand.Draft) :
    List Shorthand.Token → List Shorthand.Token
  | [] => []
  | t :: rest =>
    t :: match d.visit mode quoting t with
      | .ok d => visited mode quoting d rest
      | .error _ => []

def expansion (mode : Shorthand.Mode) (quoting : Bool) (src : Text) : List Record :=
  scanned src :: (visited mode quoting {} (Shorthand.scan src)).map visit ++
    match Shorthand.expand mode quoting src with
    | .ok x => [expanded mode src x]
    | .error _ => []

/-- The expansion of stages in order, up to the first that fails. Blank stages are left out. -/
def stages (quoting : Bool) : List (Shorthand.Mode × Text) → List Record
  | [] => []
  | (mode, src) :: rest =>
    if Text.blankOnly src then stages quoting rest
    else expansion mode quoting src ++
      match Shorthand.expand mode quoting src with
      | .ok _ => stages quoting rest
      | .error _ => []

def planning (o : Options) : List Record :=
  stages o.autoQuote [(.filter, o.filter), (.statement, o.statement), (.filter, o.afterFilter)] ++
    match Plan.ofOptions o with
    | .error _ => []
    | .ok p =>
      [{ event := "Transpiled plan"
         fields := [("pre_filter", p.filter.getD []), ("body", p.body.getD []),
          ("post_filter", p.afterFilter.getD []), ("projection", Record.listed p.projection),
          ("new_headers", Record.listed p.newHeaders)] }]

/-- The compilation of the statement of a plan, which comes after that of the filter. -/
def compilation (p : Plan) : List Record :=
  match Pipeline.formula? .filter p.filter, Pipeline.program? .statement p.body with
  | .ok _, .ok (some program) =>
    [{ event := "Compiled host script"
       fields := [("source", program.source),
        ("statements", Text.ofNat program.statements.length)] }]
  | _, _ => []

def line (p : Pipeline) (s : Stream) (raw : Text) : List Record :=
  if p.plan.options.hasHeader && s.line == 0 then
    match Stream.registerHeader p.plan s.layout (Stream.rowOf s.layout raw) with
    | .ok (_, row) =>
      [{ event := "Registered header", fields := [("columns", Record.listed row.cells)] }]
    | .error _ => []
  else match Stream.process p s raw with
    | (s, .ok (.dropped stage)) =>
      [{ event := "Line dropped", fields := [("line", Text.ofNat s.line), ("stage", stage.name)] }]
    | _ => []

/-- The work on lines in order, up to the first failure. -/
def lines (p : Pipeline) (s : Stream) : List Text → List Record
  | [] => []
  | raw :: rest =>
    line p s raw ++
      match Stream.process p s raw with
      | (s, .ok _) => lines p s rest
      | (_, .error _) => []

/-- The work on an input. A cancelled run does none. -/
def input (p : Pipeline) (cancelled : Bool) (s : Stream) (input : Text) : List Record :=
  if cancelled then [] else lines p s (Stream.inputLines input)

end CellScript.Command.Trace
