import CellScript.Text.Blank
import CellScript.Text.Quoted

/-! Records of what the program does, on a line each. -/
namespace CellScript.Command

/-- How much a record matters. -/
inductive Level where
  | debug
  | warning
  deriving DecidableEq

def Level.name : Level → Text
  | debug => "DEBUG"
  | warning => "WARN"

/-- A record: what happened, and the values that tell more. -/
structure Record where
  level : Level := .debug
  event : Text
  fields : List (Text × Text)
  deriving DecidableEq

namespace Record

/-- Whether a rune cannot stand in a bare value. -/
def isMark : Rune → Bool
  | .stray _ => true
  | .char c =>
    if c.toNat < 0x80 then c.toNat ≤ 0x20 || c == '=' || c == '"'
    else c == Rune.replacement || Rune.isSpace (.char c) || !Text.isPrintable c.toNat

/-- A value as it is written: bare if it can be, and otherwise in quotes. -/
def written (value : Text) : Text :=
  if value.isEmpty || value.runes.any isMark then value.quote else value

def listed (items : List Text) : Text := "[" ++ Text.join " " items ++ "]"

/-- A field as it is written after others. -/
def field (f : Text × Text) : Text := " " ++ f.1 ++ "=" ++ written f.2

def line (r : Record) : Text :=
  "level=" ++ r.level.name ++ " msg=" ++ written r.event ++ r.fields.flatMap field ++ "\n"

/-- The lines of records, if they are asked for. -/
def lines (debug : Bool) (rs : Unit → List Record) : Text :=
  if debug then (rs ()).flatMap line else []

end Record
end CellScript.Command
