import CellScript.Command.PathList
import CellScript.Settings.Tree
import CellScript.Text.Quoted

/-! Flags, which start with dashes on a command line. Letters may stand in a group after one dash;
names stand alone after two. -/
namespace CellScript.Command

inductive Flag.Kind where
  /-- Nothing, or a truth value after an equals sign. -/
  | switch
  | text
  /-- A list of paths; several lists add up. -/
  | paths
  deriving DecidableEq

/-- A flag with its name and perhaps a letter. -/
structure Flag where
  name : Text
  letter : Option Char
  kind : Flag.Kind
  deriving DecidableEq

namespace Flag

def shown (f : Flag) : Text :=
  match f.letter with
  | some c => "-" ++ [Text.ascii c] ++ ", --" ++ f.name
  | none => "--" ++ f.name

/-- What a flag was set to. -/
inductive Value where
  | switch (on : Bool)
  | text (t : Text)
  | paths (ps : List Text)
  deriving DecidableEq

inductive ValueError where
  | notTruth (t : Text)
  | paths (error : PathList.Error)
  deriving DecidableEq

def ValueError.message : ValueError → Text
  | notTruth t => "strconv.ParseBool: parsing " ++ t.quote ++ ": invalid syntax"
  | paths error => error.message

inductive Error where
  | badForm (arg : Text)
  | unknownName (name : Text)
  | unknownLetter (letter : UInt8) (group : Text)
  | missingValue (name : Text)
  | missingLetterValue (letter : UInt8)
  | badValue (flag : Flag) (value : Text) (error : ValueError)
  deriving DecidableEq

/-- The character shown for a letter. Outside ASCII it is that of the first byte that encodes the
letter's own byte. -/
def letterShown (b : UInt8) : Char :=
  if b < 0x80 then Char.ofNat b.toNat else if b < 0xC0 then 'Â' else 'Ã'

def Error.message : Error → Text
  | badForm arg => "bad flag syntax: " ++ arg
  | unknownName name => "unknown flag: --" ++ name
  | unknownLetter letter group =>
    "unknown shorthand flag: " ++ Text.quoteSingle (letterShown letter) ++ " in -" ++ group
  | missingValue name => "flag needs an argument: --" ++ name
  | missingLetterValue letter =>
    "flag needs an argument: " ++ Text.quoteSingle (letterShown letter) ++ " in -" ++ [letter]
  | badValue flag value error =>
    "invalid argument " ++ value.quote ++ " for " ++ flag.shown.quote ++ " flag: " ++ error.message

def readValue (f : Flag) (t : Text) : Except ValueError Value :=
  match f.kind with
  | .switch =>
    match Settings.readBool? t with
    | some on => .ok (.switch on)
    | none => .error (.notTruth t)
  | .text => .ok (.text t)
  | .paths =>
    match PathList.read t with
    | .ok ps => .ok (.paths ps)
    | .error error => .error (.paths error)

/-- Flags that were given, with their values in order. -/
abbrev Given := List (Text × Value)

def set (f : Flag) (t : Text) : Except Error Given :=
  match f.readValue t with
  | .ok v => .ok [(f.name, v)]
  | .error error => .error (.badValue f t error)

/-- The flags that one argument sets, and the flag that takes the next argument as its value, with
the error in case there is none. -/
abbrev Reading := Given × Option (Flag × Error)

/-- Read a group of letters. A flag that takes a value ends it, with what follows as the value. A
group that goes on with "test." is left at that. -/
def readGroup (flags : List Flag) : Text → Except Error Reading
  | [] => .ok ([], none)
  | b :: rest =>
    if (Text.ofString "test.").isPrefixOf (b :: rest) then .ok ([], none)
    else match flags.find? fun f => f.letter.map Text.ascii == some b with
      | none => .error (.unknownLetter b (b :: rest))
      | some f =>
        if rest.head? == some (Text.ascii '=') && 1 < rest.length then do
          return (← f.set (rest.drop 1), none)
        else if f.kind == .switch then do
          let (more, pending) ← readGroup flags rest
          return ((f.name, .switch true) :: more, pending)
        else if rest.isEmpty then .ok ([], some (f, .missingLetterValue b))
        else do return (← f.set rest, none)

def readName (flags : List Flag) (arg : Text) : Except Error Reading :=
  let whole := arg.drop 2
  let name := whole.takeWhile (· != Text.ascii '=')
  if name.isEmpty || name.head? == some (Text.ascii '-') then .error (.badForm arg)
  else match flags.find? fun f => f.name == name with
    | none => .error (.unknownName name)
    | some f =>
      if name.length < whole.length then do return (← f.set (whole.drop (name.length + 1)), none)
      else if f.kind == .switch then .ok ([(f.name, .switch true)], none)
      else .ok ([], some (f, .missingValue name))

/-- Whether an argument is no flag: it does not start with a dash, or is a dash alone. -/
def isWord (arg : Text) : Bool := arg.head? != some (Text.ascii '-') || arg.length == 1

/-- Two dashes end the flags. -/
def endMark : Text := "--"

def readArg (flags : List Flag) (arg : Text) : Except Error Reading :=
  if endMark.isPrefixOf arg then readName flags arg else readGroup flags (arg.drop 1)

/-- Read the arguments of a command: the flags that are set, and the words between them. -/
def readArgs (flags : List Flag) : List Text → Except Error (Given × List Text)
  | [] => .ok ([], [])
  | arg :: rest =>
    if isWord arg then do
      let (given, words) ← readArgs flags rest
      return (given, arg :: words)
    else if arg == endMark then .ok ([], rest)
    else match readArg flags arg with
      | .error error => .error error
      | .ok (set, none) => do
        let (given, words) ← readArgs flags rest
        return (set ++ given, words)
      | .ok (set, some (f, missing)) =>
        match rest with
        | [] => .error missing
        | value :: rest => do
          let last ← f.set value
          let (given, words) ← readArgs flags rest
          return (set ++ last ++ given, words)

namespace Given

/-- Whether a switch is on; the last setting counts. -/
def isOn (g : Given) (name : Text) : Bool :=
  g.foldl (fun on (n, v) => match v with
    | .switch b => if n == name then b else on
    | _ => on) false

def text? (g : Given) (name : Text) : Option Text :=
  g.foldl (fun found (n, v) => match v with
    | .text t => if n == name then some t else found
    | _ => found) none

def paths (g : Given) (name : Text) : List Text :=
  g.flatMap fun (n, v) => match v with
    | .paths ps => if n == name then ps else []
    | _ => []

end Given
end Flag
end CellScript.Command
