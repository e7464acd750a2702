import CellScript.Shorthand.Token
import CellScript.Text.Blank

/-! Accessors as fields: a conversion and the reference that stands in the brackets. -/
namespace CellScript.Shorthand

/-- How a field is converted when it is read. -/
inductive Cast where
  | asIs
  | toText
  | toFloat
  | toInt
  deriving DecidableEq

def Cast.name : Cast → Text
  | asIs => "NoOp"
  | toText => "AsString"
  | toFloat => "AsFloat"
  | toInt => "AsInteger"

/-- The view that a script reads the field through; empty when there is no conversion. -/
def Cast.view : Cast → Text
  | asIs => ""
  | toText => "str"
  | toFloat => "float"
  | toInt => "int"

/-- The conversion a letter asks for. -/
def Cast.ofLetter? (b : UInt8) : Option Cast :=
  if b == Text.ascii 's' then some .toText
  else if b == Text.ascii 'f' then some .toFloat
  else if b == Text.ascii 'i' then some .toInt
  else if b == Text.ascii 'x' then some .asIs
  else none

structure Field where
  cast : Cast
  ref : Text
  deriving DecidableEq

def rowName : Text := "row"

def Field.target (f : Field) : Text := rowName ++ "[" ++ f.ref ++ "]"

def Field.read (f : Field) : Text :=
  if f.cast.view.isEmpty then f.target
  else rowName ++ "." ++ f.cast.view ++ "[" ++ f.ref ++ "]"

inductive Reason where
  | empty
  | unknownCast (letter : UInt8)
  | malformedBracket
  | emptyBracket
  | malformedAppend
  | quotedLabel
  | appendInFilter
  deriving DecidableEq

def Reason.text : Reason → Text
  | empty => "empty accessor"
  | unknownCast b => "unknown cast prefix " ++ Text.quoteSingle (Char.ofNat b.toNat)
  | malformedBracket => "malformed bracket"
  | emptyBracket => "empty bracket"
  | malformedAppend => "malformed append accessor"
  | quotedLabel => "column label must not contain quotes"
  | appendInFilter => "append accessor is not allowed in a filter"

/-- A refused accessor and where it stands. -/
structure Error where
  lexeme : Text
  pos : Nat
  reason : Reason
  deriving DecidableEq

def Error.message (e : Error) : Text :=
  "unsupported accessor " ++ e.lexeme.quote ++ " at offset " ++ Text.ofNat e.pos ++ ": " ++
    e.reason.text

def Token.refuse (t : Token) (reason : Reason) : Error := ⟨t.lexeme, t.pos, reason⟩

/-- A name in double quotes; positions and slices stay bare. -/
def autoQuote (body : Text) : Text := if isPositional body then body else "\"" ++ body ++ "\""

/-- An output selector with a bare name in quotes; one that has quotes of its own stays as it is. -/
def quoteSelector (selector : Text) : Text :=
  if isBare selector then autoQuote selector else selector

/-- The conversion and the bracket content of an accessor. -/
def Token.split (t : Token) : Except Error (Cast × Text) :=
  match t.lexeme with
  | [] => .error (t.refuse .empty)
  | letter :: rest =>
    match Cast.ofLetter? letter with
    | none => .error (t.refuse (.unknownCast letter))
    | some cast =>
      if rest.length < 2 || rest.head? != some (Text.ascii '[') ||
          rest.getLast? != some (Text.ascii ']') then
        .error (t.refuse .malformedBracket)
      else
        let body := (rest.drop 1).dropLast
        if Text.blankOnly body then .error (t.refuse .emptyBracket) else .ok (cast, body)

/-- The field of an accessor. With quoting on, a bare word is taken as a column name. -/
def Token.field (quoting : Bool) (t : Token) : Except Error Field := do
  let (cast, body) ← t.split
  return ⟨cast, if t.kind == .ambiguous && quoting then autoQuote body else body⟩

/-- The conversion and the label of a new column. The label may be empty. -/
def Token.newColumn (t : Token) : Except Error (Cast × Text) := do
  let (cast, body) ← t.split
  match appended? body with
  | none => .error (t.refuse .malformedAppend)
  | some rest =>
    let label := rest.trim
    if label.any Text.isQuote then .error (t.refuse .quotedLabel) else .ok (cast, label)

end CellScript.Shorthand
