import CellScript.Command.Report
import CellScript.Command.Trace
import CellScript.Display.Table
import CellScript.Plan.Document
import CellScript.Release.Build

/-! Commands at work. A command sees the machine it runs on and a command line with its input; it
changes the machine and gives a report. -/
namespace CellScript.Command

structure Call where
  args : List Text
  stdin : Text := []
  /-- Whether the standard input is a terminal, from which nothing is read. -/
  terminal : Bool := false
  /-- Whether the call was cancelled before it started. -/
  cancelled : Bool := false
  build : Release.Build := {}

def usage : Text :=
  "csv-eval runs a small statement language over each line of a\n" ++
    "delimited text stream and prints the updated lines.\n\n" ++
    "Usage:\n" ++
    "  csv-eval [statement]\n" ++
    "  csv-eval tokens <statement>\n" ++
    "  csv-eval config init\n" ++
    "  csv-eval config show\n" ++
    "  csv-eval version\n"

/-- The delimiter that a text on the command line or in the settings stands for. -/
def delimiterOf (t : Text) : Text :=
  if t == Text.ofString "\\t" || t == Text.ofString "tab" then [Text.ascii '\t']
  else if t.isEmpty then Layout.defaultDelimiter
  else t

/-- The run that settings and a command line ask for together. Flags only switch things off. -/
def optionsOf (c : Config) (r : RunRequest) : Options where
  statement := r.statement
  filter := r.filter
  afterFilter := r.afterFilter
  select := r.select
  autoQuote := c.autoQuote && !r.noAutoQuote
  hasHeader := c.hasHeader && !r.noHeader
  printHeader := c.printHeader && !r.noPrintHeader
  delimiter := delimiterOf (r.delimiter.getD c.delimiter)

def prepare (o : Options) : Except Failure Pipeline :=
  match Plan.ofOptions o with
  | .error error => .error (.plan error)
  | .ok p =>
    match Pipeline.compile p with
    | .error error => .error (.plan error)
    | .ok pipeline => .ok pipeline

/-- What is recorded while a run is planned and compiled. -/
def prepareTrace (o : Options) : List Record :=
  Trace.asked o :: Trace.planning o ++
    match Plan.ofOptions o with
    | .error _ => []
    | .ok p => Trace.compilation p

def runContent (debug cancelled : Bool) (p : Pipeline) (s : Stream) (content : Text)
    (failure : Stream.Stop → Failure) : Report :=
  let run := Stream.run p cancelled s content
  { stdout := run.printed
    stderr := Record.lines debug fun _ => Trace.input p cancelled s content
    failure := run.stop.map failure }

def runFile (m : Settings.Machine) (debug cancelled : Bool) (p : Pipeline) (s : Stream)
    (path : Text) : Report :=
  match m.read? path with
  | none => .failed (.missingInput (m.resolve path))
  | some content => runContent debug cancelled p s content (.stoppedAt path)

/-- Run over files in order. Each after the first is a stream of its own whose header stays
unprinted. -/
def runFiles (m : Settings.Machine) (debug cancelled : Bool) (p : Pipeline) (s : Stream) :
    List Text → Report
  | [] => {}
  | path :: rest =>
    (runFile m debug cancelled p s path).andThen fun _ =>
      runFiles m debug cancelled p (Stream.next p.plan) rest

/-- Run over a watched file, from its start. -/
def Watch.run (w : Watch) (m : Settings.Machine) (cancelled : Bool) : Report :=
  runFile m w.debug cancelled w.pipeline (Stream.fresh w.pipeline.plan) w.path

def Watch.start (w : Watch) (m : Settings.Machine) (cancelled : Bool) : Report :=
  let note := "Watching " ++ w.path ++ " for changes... (Press Ctrl+C to stop)"
  (Report.noted (Display.message .note note)).andThen fun _ =>
    let first := (w.run m cancelled).mapFailure .firstRun
    if first.failure.isNone && !cancelled then { first with watch := some w } else first

def runPipeline (m : Settings.Machine) (c : Call) (debug : Bool) (p : Pipeline) (r : RunRequest) :
    Report :=
  if r.explain then .printed p.plan.document
  else if r.watch then
    match r.inputs with
    | [path] => Watch.start { pipeline := p, path, debug } m c.cancelled
    | _ => .failed .watchedInput
  else if r.inputs.isEmpty && c.terminal then
    (Report.noted usage).andThen fun _ => .failed .noInput
  else if r.inputs.isEmpty then
    runContent debug c.cancelled p (Stream.fresh p.plan) c.stdin .stopped
  else runFiles m debug c.cancelled p (Stream.fresh p.plan) r.inputs

def runRequest (m : Settings.Machine) (c : Call) (debug : Bool) (config : Config) (r : RunRequest) :
    Report :=
  let o := optionsOf config r
  (Report.noted (Record.lines debug fun _ => prepareTrace o)).andThen fun _ =>
    match prepare o with
    | .error failure => .failed failure
    | .ok p => runPipeline m c debug p r

/-- What an accessor reads, or why it is refused. Other tokens read nothing. -/
def tokenReading (quoting : Bool) (t : Shorthand.Token) : Text :=
  match t.kind with
  | .accessor | .ambiguous =>
    match t.field quoting with
    | .ok f => f.read
    | .error error => error.message
  | _ => []

def showTokens (debug : Bool) (config : Config) (src : Text) : Report :=
  let row (t : Shorthand.Token) : List Text :=
    [Text.ofNat t.pos, t.kind.name, t.lexeme, tokenReading config.autoQuote t]
  let tokens := Shorthand.scan src
  { stdout :=
      if tokens.isEmpty then Display.message .note "no tokens"
      else Display.table (["Pos", "Kind", "Lexeme", "Read"] :: tokens.map row)
    stderr := Record.lines debug fun _ => [Trace.scanned src] }

def showConfig (c : Config) : Report :=
  let file : Text := if c.file.isEmpty then "(none)" else c.file
  .printed (Display.heading ("Config: " ++ file) ++
    Display.table [
      ["Key", "Value"],
      ["auto_quote", Text.ofBool c.autoQuote],
      ["has_header", Text.ofBool c.hasHeader],
      ["print_header", Text.ofBool c.printHeader],
      ["delimiter", c.delimiter.quote],
      ["debug", Text.ofBool c.debug],
      ["required_version", c.requiredVersion]])

def userFile (m : Settings.Machine) : Text :=
  m.resolve (m.home ++ "/.config/csv-eval/" ++ Settings.fileName ++ ".yaml")

/-- The file that a request to create settings is about. -/
def initTarget (m : Settings.Machine) (r : InitRequest) : Text :=
  if !r.path.isEmpty then r.path
  else if r.everywhere then userFile m
  else Settings.fileName ++ ".yaml"

def initConfig (m : Settings.Machine) (r : InitRequest) : Settings.Machine × Report :=
  let path := initTarget m r
  if (m.read? path).isSome && !r.force then (m, .failed (.settingsExist path))
  else match Settings.save m {} path with
    | (m, .error error) => (m, .failed (.unsavedSettings error))
    | (m, .ok ()) => (m, .printed (Display.message .success ("Wrote " ++ path)))

/-- Load the settings and check that the version does for them. -/
def setUp (m : Settings.Machine) (build : Release.Build) (file : Text) : Except Failure Config :=
  match Settings.load m file with
  | .error error => .error (.settings error)
  | .ok config =>
    match Release.check build.version config.requiredVersion with
    | .error error => .error (.version config.file error)
    | .ok () => .ok config

/-- What is recorded while the settings are loaded. -/
def setUpTrace (m : Settings.Machine) (file : Text) : List Record :=
  Trace.envFiles m ++
    match Settings.load m.loadEnv file with
    | .ok config => [Trace.loaded config]
    | .error _ => []

/-- The files that a command may read once its environment is complete. -/
def paths (m : Settings.Machine) (args : List Text) : List Text :=
  match Line.read args with
  | .ok (.task file _ task) =>
    (if file.isEmpty then (Settings.searchPaths m).flatMap Settings.candidates else [file]) ++
      match task with
      | .run request => request.inputs
      | .initConfig request => [initTarget m request]
      | _ => []
  | _ => []

def readsInput (args : List Text) : Bool :=
  match Line.read args with
  | .ok (.task _ _ (.run request)) => request.inputs.isEmpty && !request.explain && !request.watch
  | _ => false

def perform (m : Settings.Machine) (c : Call) (debug : Bool) (config : Config) :
    Task → Settings.Machine × Report
  | .run request => (m, runRequest m c debug config request)
  | .showVersion => (m, .printed c.build.details)
  | .showTokens src => (m, showTokens debug config src)
  | .initConfig request => initConfig m request
  | .showConfig => (m, showConfig config)

/-- Run a command: read its line, load the settings, and perform its task. -/
def run (m : Settings.Machine) (c : Call) : Settings.Machine × Report :=
  match Line.read c.args with
  | .error error => (m, .failed (.line error))
  | .ok .help => (m, .printed usage)
  | .ok .versionLine => (m, .printed c.build.line)
  | .ok (.task file debug task) =>
    let loading := Report.noted (Record.lines debug fun _ => setUpTrace m file)
    let m := m.loadEnv
    match setUp m c.build file with
    | .error failure => (m, loading.andThen fun _ => .failed failure)
    | .ok config =>
      let (m, report) := perform m c (debug || config.debug) config task
      (m, loading.andThen fun _ => report)

end CellScript.Command
