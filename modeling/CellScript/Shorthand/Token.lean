import CellScript.Text.Quoted

/-! The shorthand that statements are written in: field accessors such as s[name] between pieces of
script, cut into tokens. Tokens are found from left to right; blanks between them are dropped. -/
namespace CellScript.Shorthand

inductive Kind where
  /-- A cell by position, slice or quoted name. -/
  | accessor
  /-- A cell by a bare word, which is a name or an expression. -/
  | ambiguous
  /-- A new column, such as s[+] or s[+label]. -/
  | append
  | assignment
  | separator
  /-- Script text that stays as it is. -/
  | passthrough
  deriving DecidableEq

def Kind.name : Kind → Text
  | accessor => "Accessor"
  | ambiguous => "AccessorAmbiguous"
  | append => "AccessorAppend"
  | assignment => "AssignmentOperator"
  | separator => "StatementSep"
  | passthrough => "Passthrough"

def Kind.isAccessor : Kind → Bool
  | accessor | ambiguous | append => true
  | _ => false

/-- A piece of the source with its kind and the offset of its first byte. -/
structure Token where
  kind : Kind
  lexeme : Text
  pos : Nat
  deriving DecidableEq

def describe (kind lexeme : Text) (pos : Int) : Text :=
  kind ++ "(" ++ lexeme.quote ++ ")@" ++ Text.ofInt pos

def isCastLetter (b : UInt8) : Bool :=
  b == Text.ascii 's' || b == Text.ascii 'f' || b == Text.ascii 'i' || b == Text.ascii 'x'

def isPositionByte (b : UInt8) : Bool :=
  Text.isDigit b || b == Text.ascii ':' || b == Text.ascii '-'

/-- An integer position or a slice, or at least something made of the same bytes. -/
def isPositional (body : Text) : Bool := !body.isEmpty && body.all isPositionByte

def isBareByte (b : UInt8) : Bool := !Text.isQuote b && b != Text.ascii ']'

def isBare (body : Text) : Bool := !body.isEmpty && body.all isBareByte

/-- A body with nothing but spaces and tabs before a plus sign: what stands after it. -/
def appended? (body : Text) : Option Text :=
  match body.dropWhile fun b => b == Text.ascii ' ' || b == Text.ascii '\t' with
  | [] => none
  | b :: rest => if b == Text.ascii '+' then some rest else none

/-- The kind of an accessor by what its brackets hold. Empty brackets are none. -/
def bodyKind? (body : Text) : Option Kind :=
  if (appended? body).isSome then some .append
  else if isPositional body then some .accessor
  else if isBare body then some .ambiguous
  else if body.isEmpty then none
  else some .accessor

/-- An accessor at the front of a text, up to the first closing bracket. -/
def accessor? : Text → Option (Kind × Nat)
  | c :: b :: rest =>
    if isCastLetter c && b == Text.ascii '[' then
      let body := rest.takeWhile (· != Text.ascii ']')
      if body.length < rest.length then (bodyKind? body).map (·, body.length + 3) else none
    else none
  | _ => none

/-- An operator or a separator at the front of a text. Comparisons pass through. -/
def operator? : Text → Option (Kind × Nat)
  | [] => none
  | a :: rest =>
    let equals := rest.head? == some (Text.ascii '=')
    if a == Text.ascii ';' then some (.separator, 1)
    else if equals &&
        (a == Text.ascii '=' || a == Text.ascii '!' || a == Text.ascii '<' || a == Text.ascii '>')
    then some (.passthrough, 2)
    else if a == Text.ascii '=' then some (.assignment, 1)
    else if equals &&
        (a == Text.ascii '+' || a == Text.ascii '-' || a == Text.ascii '*' || a == Text.ascii '/')
    then some (.assignment, 2)
    else none

/-- Whether an accessor may start after a byte: not inside a word, and not after a dot. -/
def opensAfter : Option UInt8 → Bool
  | some b => !(Text.isWord b || b == Text.ascii '.')
  | none => true

/-- The token other than script text at the front of a text, by its kind and length. -/
def token? (before : Option UInt8) (t : Text) : Option (Kind × Nat) :=
  match if opensAfter before then accessor? t else none with
  | some found => some found
  | none => operator? t

/-- The bytes from inside a quoted literal to its end. A backslash hides the byte after it; a literal
without an end goes to the end of the text. -/
def literalRest (quote : UInt8) : Text → Nat
  | [] => 0
  | b :: rest =>
    if b == Text.ascii '\\' then
      match rest with
      | [] => 1
      | _ :: rest => literalRest quote rest + 2
    else if b == quote then 1
    else literalRest quote rest + 1

/-- The length of a run of script text: up to a blank or another token, with literals taken whole.
The first skip bytes belong to the run whatever they are, and at the start no token is looked for. -/
def runLength (start : Bool) (before : Option UInt8) : (skip : Nat) → Text → Nat
  | _, [] => 0
  | skip + 1, b :: rest => runLength false (some b) skip rest + 1
  | 0, b :: rest =>
    if Text.isBlank b || (!start && (token? before (b :: rest)).isSome) then 0
    else if Text.isQuote b then runLength false (some b) (literalRest b rest) rest + 1
    else runLength false (some b) 0 rest + 1

/-- The token at the front of a text that starts with no blank. -/
def nextToken (before : Option UInt8) (t : Text) : Kind × Nat :=
  (token? before t).getD (.passthrough, runLength true before 0 t)

/-- The tokens of a text that stands at an offset, after passing over its first skip bytes. -/
def scanFrom (pos : Nat) (before : Option UInt8) : (skip : Nat) → Text → List Token
  | _, [] => []
  | skip + 1, b :: rest => scanFrom (pos + 1) (some b) skip rest
  | 0, b :: rest =>
    if Text.isBlank b then scanFrom (pos + 1) (some b) 0 rest
    else
      let (kind, length) := nextToken before (b :: rest)
      ⟨kind, (b :: rest).take length, pos⟩ :: scanFrom (pos + 1) (some b) (length - 1) rest

def scan (src : Text) : List Token := scanFrom 0 none 0 src

end CellScript.Shorthand
