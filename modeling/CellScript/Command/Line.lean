import CellScript.Command.Flag

/-! Command lines: a verb, its flags and its words. -/
namespace CellScript.Command

/-- What can be asked for. -/
inductive Verb where
  /-- Run a statement over lines; the verb of a line that names no other. -/
  | run
  | version
  | tokens
  | help
  /-- Asks for nothing on its own. -/
  | config
  | configInit
  | configShow
  deriving DecidableEq

namespace Verb

/-- The program and the words that lead to a verb. -/
def path : Verb → Text
  | run => "csv-eval"
  | version => "csv-eval version"
  | tokens => "csv-eval tokens"
  | help => "csv-eval help"
  | config => "csv-eval config"
  | configInit => "csv-eval config init"
  | configShow => "csv-eval config show"

/-- The verbs that a word may lead to. -/
def children : Verb → List (Text × Verb)
  | run => [("version", version), ("tokens", tokens), ("help", help), ("config", config)]
  | config => [("init", configInit), ("show", configShow)]
  | _ => []

def sharedFlags : List Flag := [⟨"config", none, .text⟩, ⟨"debug", none, .switch⟩]

def flags : Verb → List Flag
  | run =>
    [⟨"select", 's', .text⟩, ⟨"no-header", 'n', .switch⟩, ⟨"filter", 'f', .text⟩,
      ⟨"after-filter", none, .text⟩, ⟨"explain", 'e', .switch⟩, ⟨"no-auto-quote", none, .switch⟩,
      ⟨"no-print-header", none, .switch⟩, ⟨"delimiter", 'd', .text⟩, ⟨"input", 'i', .paths⟩,
      ⟨"watch", none, .switch⟩] ++ sharedFlags
  | configInit =>
    [⟨"yes", 'y', .switch⟩, ⟨"global", none, .switch⟩, ⟨"force", none, .switch⟩,
      ⟨"path", none, .text⟩] ++ sharedFlags
  | _ => sharedFlags

/-- The flags that are read once the verb is known: also those that ask for help and, without a verb,
for the version. -/
def allFlags (v : Verb) : List Flag :=
  v.flags ++ [⟨"help", 'h', .switch⟩] ++ (if v == run then [⟨"version", 'v', .switch⟩] else [])

/-- Whether an argument looks like a flag with its value in the next argument. Flags that are not
known are taken to have one. -/
def takesNext (flags : List Flag) (arg : Text) : Bool :=
  let isSwitch (p : Flag → Bool) : Bool := (flags.find? p).any fun f => f.kind == .switch
  !arg.contains (Text.ascii '=') &&
    if Flag.endMark.isPrefixOf arg then !isSwitch fun f => f.name == arg.drop 2
    else match arg with
      | [dash, letter] =>
        dash == Text.ascii '-' && !isSwitch fun f => f.letter.map Text.ascii == some letter
      | _ => false

/-- The words between the flags. A flag that takes the last argument ends them. -/
def words (flags : List Flag) : List Text → List Text
  | [] => []
  | arg :: rest =>
    if arg == Flag.endMark then []
    else if takesNext flags arg then
      match rest with
      | _ :: next :: rest => words flags (next :: rest)
      | _ => []
    else if arg.isEmpty || arg.head? == some (Text.ascii '-') then words flags rest
    else arg :: words flags rest

/-- The arguments without the first that is a word, if it stands there as one. -/
def dropWord (flags : List Flag) (word : Text) : List Text → List Text
  | [] => []
  | arg :: rest =>
    if arg == Flag.endMark then arg :: rest
    else if takesNext flags arg then
      match rest with
      | [] => [arg]
      | value :: rest => arg :: value :: dropWord flags word rest
    else if arg == word then rest
    else arg :: dropWord flags word rest

/-- Follow the first word to a verb, if it leads to one. -/
def descend (v : Verb) (args : List Text) : Verb × List Text :=
  match words v.flags args with
  | [] => (v, args)
  | word :: _ =>
    match v.children.find? fun c => c.1 == word with
    | some (_, child) => (child, dropWord v.flags word args)
    | none => (v, args)

/-- The verb of a command line, and its arguments. No verb stands more than two words deep. -/
def find (args : List Text) : Verb × List Text :=
  let (v, args) := descend run args
  descend v args

end Verb

structure RunRequest where
  statement : Text := []
  select : Text := []
  filter : Text := []
  afterFilter : Text := []
  /-- The delimiter, if it is set. -/
  delimiter : Option Text := none
  inputs : List Text := []
  noHeader : Bool := false
  noAutoQuote : Bool := false
  noPrintHeader : Bool := false
  explain : Bool := false
  watch : Bool := false

structure InitRequest where
  path : Text := []
  everywhere : Bool := false
  force : Bool := false

/-- Work that needs the settings. -/
inductive Task where
  | run (request : RunRequest)
  | showVersion
  | showTokens (src : Text)
  | initConfig (request : InitRequest)
  | showConfig

inductive Request where
  | help
  | versionLine
  | task (configFile : Text) (debug : Bool) (task : Task)

namespace Line

inductive Error where
  | flag (error : Flag.Error)
  | tooManyWords (count : Nat)
  | notOneWord (count : Nat)
  | unknownWord (verb : Verb) (word : Text)
  deriving DecidableEq

def Error.message : Error → Text
  | flag error => error.message
  | tooManyWords count => "accepts at most 1 arg(s), received " ++ Text.ofNat count
  | notOneWord count => "accepts 1 arg(s), received " ++ Text.ofNat count
  | unknownWord verb word => "unknown command " ++ word.quote ++ " for " ++ verb.path.quote

def wordless (verb : Verb) (words : List Text) (task : Task) : Except Error (Option Task) :=
  match words with
  | [] => .ok (some task)
  | word :: _ => .error (.unknownWord verb word)

def task? (verb : Verb) (given : Flag.Given) (words : List Text) : Except Error (Option Task) :=
  match verb with
  | .run =>
    if 1 < words.length then .error (.tooManyWords words.length)
    else .ok (some (.run {
      statement := words.headD []
      select := (given.text? "select").getD []
      filter := (given.text? "filter").getD []
      afterFilter := (given.text? "after-filter").getD []
      delimiter := given.text? "delimiter"
      inputs := given.paths "input"
      noHeader := given.isOn "no-header"
      noAutoQuote := given.isOn "no-auto-quote"
      noPrintHeader := given.isOn "no-print-header"
      explain := given.isOn "explain"
      watch := given.isOn "watch" }))
  | .tokens =>
    match words with
    | [src] => .ok (some (.showTokens src))
    | _ => .error (.notOneWord words.length)
  | .version => wordless verb words .showVersion
  | .configInit =>
    wordless verb words (.initConfig {
      path := (given.text? "path").getD []
      everywhere := given.isOn "global"
      force := given.isOn "force" })
  | .configShow => wordless verb words .showConfig
  | .help | .config => .ok none

/-- Read a command line. Its flags are read first; then a wish for help or for the version goes
before everything else. -/
def read (args : List Text) : Except Error Request :=
  let (verb, args) := Verb.find args
  match Flag.readArgs verb.allFlags args with
  | .error error => .error (.flag error)
  | .ok (given, words) =>
    if given.isOn "help" then .ok .help
    else if given.isOn "version" then .ok .versionLine
    else match task? verb given words with
      | .error error => .error error
      | .ok none => .ok .help
      | .ok (some task) =>
        .ok (.task ((given.text? "config").getD []) (given.isOn "debug") task)

end Line
end CellScript.Command
