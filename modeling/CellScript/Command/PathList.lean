import CellScript.Text.Basic

/-! Lists of paths with commas between them. A path in double quotes may hold commas and line feeds,
and a quote written twice stands for itself. Lines after the first that holds anything count for
nothing. -/
namespace CellScript.Command.PathList

/-- A place in a list: line and column from one, in bytes. -/
structure Place where
  line : Nat
  column : Nat
  deriving DecidableEq

inductive Fault where
  /-- A quote inside a path that does not start with one. -/
  | bareQuote
  /-- Text after a closing quote, or no closing quote at all. -/
  | quoting
  deriving DecidableEq

def Fault.text : Fault → Text
  | bareQuote => "bare \" in non-quoted-field"
  | quoting => "extraneous or missing \" in quoted-field"

inductive Error where
  /-- There is nothing but empty lines. -/
  | empty
  /-- A fault at a place in the list that starts on a line. -/
  | malformed (start : Nat) (place : Place) (fault : Fault)
  deriving DecidableEq

def Error.message : Error → Text
  | empty => "EOF"
  | malformed start place fault =>
    let lead : Text :=
      if start == place.line then [] else "record on line " ++ Text.ofNat start ++ "; "
    lead ++ "parse error on line " ++ Text.ofNat place.line ++
      ", column " ++ Text.ofNat place.column ++ ": " ++ fault.text

/-- Every line end becomes a single line feed, and a carriage return at the very end goes. -/
def unifyBreaks : Text → Text
  | [] => []
  | b :: rest =>
    if b == Text.ascii '\r' && (rest.isEmpty || rest.head? == some (Text.ascii '\n'))
    then unifyBreaks rest else b :: unifyBreaks rest

/-- Where in a path a scan stands. -/
inductive State where
  | start
  | bare
  | quoted
  /-- After a quote that closes the path, unless another one follows. -/
  | closed

/-- The place after a byte. A line feed at the very end starts no new line. -/
def Place.after (place : Place) (b : UInt8) (rest : Text) : Place :=
  if b == Text.ascii '\n' && !rest.isEmpty then ⟨place.line + 1, 1⟩
  else ⟨place.line, place.column + 1⟩

/-- Scan the paths of a list that starts on a line: those that are complete, and the bytes of the
one that is being read. -/
def scan (start : Nat) (state : State) (place : Place) (done : List Text) (path : Text) :
    Text → Except Error (List Text)
  | [] =>
    match state with
    | .quoted => .error (.malformed start place .quoting)
    | _ => .ok (done ++ [path])
  | b :: rest =>
    let next := place.after b rest
    let quote := Text.ascii '"'
    let comma := Text.ascii ','
    match state with
    | .start =>
      if b == quote then scan start .quoted next done path rest
      else if b == comma then scan start .start next (done ++ [path]) [] rest
      else if b == Text.ascii '\n' then .ok (done ++ [path])
      else scan start .bare next done (path ++ [b]) rest
    | .bare =>
      if b == quote then .error (.malformed start place .bareQuote)
      else if b == comma then scan start .start next (done ++ [path]) [] rest
      else if b == Text.ascii '\n' then .ok (done ++ [path])
      else scan start .bare next done (path ++ [b]) rest
    | .quoted =>
      if b == quote then scan start .closed next done path rest
      else scan start .quoted next done (path ++ [b]) rest
    | .closed =>
      if b == quote then scan start .quoted next done (path ++ [b]) rest
      else if b == comma then scan start .start next (done ++ [path]) [] rest
      else if b == Text.ascii '\n' then .ok (done ++ [path])
      else .error (.malformed start ⟨place.line, place.column - 1⟩ .quoting)

/-- Read the first line that holds anything. -/
def readFrom (line : Nat) : Text → Except Error (List Text)
  | [] => .error .empty
  | b :: rest =>
    if b == Text.ascii '\n' then readFrom (line + 1) rest
    else scan line .start ⟨line, 1⟩ [] [] (b :: rest)

def read (t : Text) : Except Error (List Text) :=
  if t.isEmpty then .ok [] else readFrom 1 (unifyBreaks t)

end CellScript.Command.PathList
