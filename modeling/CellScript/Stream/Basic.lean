import CellScript.Stream.Pipeline

/-! A pipeline at work on a stream of lines. Line 1 is the header in header mode; every later line
is filtered, changed, filtered again and printed on its own. -/
namespace CellScript

/-- Where a pipeline stands in a stream. -/
structure Stream where
  layout : Layout
  line : Nat := 0
  /-- Whether the header stays unprinted, as in every stream after the first. -/
  quiet : Bool := false
  deriving DecidableEq, Inhabited

namespace Stream

structure Error where
  line : Nat
  stage : Stage
  cause : Script.Error
  deriving DecidableEq

def Error.message (e : Error) : Text :=
  "line " ++ Text.ofNat e.line ++ ": " ++ e.stage.name ++ ": " ++ e.cause.message

inductive Outcome where
  /-- The header was read and not printed. -/
  | hidden
  /-- The line did not meet the condition of a stage. -/
  | dropped (stage : Stage)
  | printed (text : Text)
  deriving DecidableEq

def Outcome.text? : Outcome → Option Text
  | printed text => some text
  | _ => none

/-- A stream of which nothing has been read. -/
def fresh (p : Plan) : Stream := { layout := Layout.new p.newHeaders p.options.separator }

/-- A stream of which nothing has been read, after another one. -/
def next (p : Plan) : Stream := { fresh p with quiet := true }

/-- The items of a list, or a single value. -/
def spread : Value → List Value
  | .list _ items => items
  | v => [v]

def fieldsOf (v : Value) : Except Script.Error (List Text) :=
  (spread v).mapM fun v =>
    match v.text? with
    | some t => .ok t
    | none => .error (.unprintable v.shown)

/-- The selected fields of a row; slices are laid out in place. -/
def project (projection : List Script.Formula) (layout : Layout) (row : Row) :
    Except Script.Error (List Text) := do
  let fields ← projection.mapM fun f => do fieldsOf (← f.value layout row)
  return fields.flatten

def output (p : Pipeline) (layout : Layout) (row : Row) : Except Script.Error Text := do
  if p.projection.isEmpty then return row.text layout
  else return Text.join layout.delimiter (← project p.projection layout row)

/-- The row of a line, without a carriage return at its end. -/
def rowOf (layout : Layout) (raw : Text) : Row :=
  Row.parse layout (Text.dropEnding [Text.ascii '\r'] raw)

/-- Write the names of the appended columns into the header row. -/
def nameColumns (layout : Layout) (row : Row) (names : List Text) : Except Row.Error Row :=
  names.foldlM (fun row name => row.set layout (.name name) (.str name)) row

/-- Take a row as the header: the layout with its names, and the row with the appended ones. -/
def registerHeader (p : Plan) (layout : Layout) (row : Row) : Except Row.Error (Layout × Row) := do
  let (layout, row) ← row.register layout
  return (layout, ← nameColumns layout row p.newHeaders)

def processHeader (p : Pipeline) (s : Stream) (raw : Text) : Stream × Except Error Outcome :=
  match registerHeader p.plan s.layout (rowOf s.layout raw) with
  | .error error => (s, .error ⟨s.line, .header, .row error⟩)
  | .ok (layout, row) =>
    let s := { s with layout }
    if !p.plan.options.printHeader || s.quiet then (s, .ok .hidden)
    else match output p layout row with
      | .ok text => (s, .ok (.printed text))
      | .error error => (s, .error ⟨s.line, .select, error⟩)

/-- Whether a row meets the condition of a stage. Without a condition it does. -/
def meets (f : Option Script.Formula) (layout : Layout) (row : Row) : Except Script.Error Bool :=
  match f with
  | none => .ok true
  | some f => f.holds layout row

def change (body : Option Script.Program) (layout : Layout) (row : Row) :
    Except Script.Error Row :=
  match body with
  | none => .ok row
  | some program =>
    match program.run layout row with
    | (row, .ok ()) => .ok row
    | (_, .error error) => .error error

/-- Name the stage that fails. -/
def inStage {α : Type} (stage : Stage) : Except Script.Error α → Except (Stage × Script.Error) α
  | .ok a => .ok a
  | .error error => .error (stage, error)

def processRow (p : Pipeline) (layout : Layout) (row : Row) :
    Except (Stage × Script.Error) Outcome := do
  if !(← inStage .filter (meets p.filter layout row)) then return .dropped .filter
  let row ← inStage .statement (change p.body layout row)
  if !(← inStage .afterFilter (meets p.afterFilter layout row)) then return .dropped .afterFilter
  return .printed (← inStage .select (output p layout row))

def process (p : Pipeline) (s : Stream) (raw : Text) : Stream × Except Error Outcome :=
  let s := { s with line := s.line + 1 }
  if p.plan.options.hasHeader && s.line == 1 then processHeader p s raw
  else match processRow p s.layout (rowOf s.layout raw) with
    | .ok outcome => (s, .ok outcome)
    | .error (stage, cause) => (s, .error ⟨s.line, stage, cause⟩)

/-- Why a run over a stream ends before its last line. -/
inductive Stop where
  | line (error : Error)
  | cancelled
  /-- The next line is too long to be read. That is no failure of a line: it is not counted. -/
  | tooLong
  deriving DecidableEq

def Stop.message : Stop → Text
  | line error => error.message
  | cancelled => "context canceled"
  | tooLong => "bufio.Scanner: token too long"

/-- What a run has done: the state reached, what it printed, and why it stopped if it did. -/
structure Run where
  stream : Stream
  printed : Text
  stop : Option Stop

def Outcome.print (o : Outcome) : Text :=
  match o.text? with
  | some text => text ++ [Text.ascii '\n']
  | none => []

/-- Work on lines in order up to the first failure. -/
def runLines (p : Pipeline) (s : Stream) : List Text → Run
  | [] => ⟨s, [], none⟩
  | raw :: rest =>
    match process p s raw with
    | (s, .error error) => ⟨s, [], some (.line error)⟩
    | (s, .ok outcome) =>
      let run := runLines p s rest
      { run with printed := outcome.print ++ run.printed }

/-- The length from which on a line is too long to be read. The carriage return at its end counts, and
the line feed does not. -/
def lineLimit : Nat := 16 * 1024 * 1024

def isShort (raw : Text) : Bool := raw.length < lineLimit

/-- The lines that are read of an input, those in front of the first one that is too long, each without
a carriage return at its end. -/
def inputLines (input : Text) : List Text :=
  (input.lines.takeWhile isShort).map (Text.dropEnding [Text.ascii '\r'])

/-- Why an input is not read to its end. -/
def readStop (input : Text) : Option Stop :=
  if input.lines.all isShort then none else some .tooLong

/-- Work on an input. A cancelled run stops when it has read its first line. -/
def run (p : Pipeline) (cancelled : Bool) (s : Stream) (input : Text) : Run :=
  match inputLines input with
  | [] => ⟨s, [], readStop input⟩
  | lines =>
    if cancelled then ⟨s, [], some .cancelled⟩
    else
      let run := runLines p s lines
      { run with stop := run.stop.or (readStop input) }

end Stream
end CellScript
