import CellScript.Settings.Yaml.Moment
import CellScript.Settings.Yaml.Node
import CellScript.Text.Base64

/-! The values of scalars: plain words stand for truth values, numbers and moments, and a tag says
what a scalar has to be. -/
namespace CellScript.Settings.Yaml

/-- The words with a value of their own. -/
def words : List (Text × Scalar) :=
  [("", .null), ("~", .null), ("null", .null), ("Null", .null), ("NULL", .null),
    ("true", .bool true), ("True", .bool true), ("TRUE", .bool true),
    ("false", .bool false), ("False", .bool false), ("FALSE", .bool false),
    (".nan", .float Number.notANumber), (".NaN", .float Number.notANumber),
    (".NAN", .float Number.notANumber),
    (".inf", .float (Number.infinity false)), (".Inf", .float (Number.infinity false)),
    (".INF", .float (Number.infinity false)), ("+.inf", .float (Number.infinity false)),
    ("+.Inf", .float (Number.infinity false)), ("+.INF", .float (Number.infinity false)),
    ("-.inf", .float (Number.infinity true)), ("-.Inf", .float (Number.infinity true)),
    ("-.INF", .float (Number.infinity true))]

/-- Whether only digits, points, exponents and signs stand in a text. -/
def looksDecimal (t : Text) : Bool :=
  t.all fun b =>
    Text.isDigit b || b == Text.ascii '.' || b == Text.ascii 'e' || b == Text.ascii 'E' ||
      b == Text.ascii '-' || b == Text.ascii '+'

/-- A whole number in base two or eight with its sign behind the letter of the base. -/
def readLateSign? : Text → Option Int
  | z :: m :: s :: rest =>
    let base := if m == Text.ascii 'b' then some 2 else if m == Text.ascii 'o' then some 8 else none
    let signed := s == Text.ascii '-' || s == Text.ascii '+'
    if z == Text.ascii '0' && signed then do
      let n : Int ← readBase? (← base) rest
      inWord? (if s == Text.ascii '-' then -n else n)
    else none
  | _ => none

/-- The value of a word that starts like a number. Underscores do not count. -/
def readNumber (t : Text) : Scalar :=
  let plain := t.filter (· != Text.ascii '_')
  match readWhole? plain with
  | some n => .int n
  | none =>
    match if looksDecimal plain then (Number.readFloat plain).toOption else none with
    | some x => .float x
    | none =>
      match readLateSign? plain with
      | some n => .int n
      | none => .text t

/-- The value of a plain word, where dates and times may count as moments. -/
def valueOf (moments : Bool) (t : Text) : Scalar :=
  match words.find? fun w => w.1 == t with
  | some w => w.2
  | none =>
    match t with
    | b :: _ =>
      if Text.isDigit b || b == Text.ascii '-' || b == Text.ascii '+' then
        if moments && isMoment t then .moment else readNumber t
      else if b == Text.ascii '.' then
        match Number.readFloat t with
        | .ok x => .float x
        | .error _ => .text t
      else .text t
    | [] => .null

/-- The value of a plain word without a tag. -/
def resolve (t : Text) : Scalar := valueOf true t

/-- The name of the entry that takes over the entries of other mappings. -/
def mergeName : Text := "<<"

def mergeTag : Text := "!!merge"

namespace Written

/-- Whether a scalar is the name under which other mappings are taken over. -/
def isMerge (s : Written) : Bool :=
  s.text == mergeName && ((s.tag.isEmpty && s.plain) || s.tag == mergeTag)

/-- The value of a scalar. A tag that does not fit it is a fault; a whole number is a floating point
number too if its tag says so. -/
def value? (s : Written) : Option Scalar :=
  if s.isMerge || s.tag == Text.ofString "!!str" then some (.text s.text)
  else if s.tag.isEmpty then some (if s.plain then resolve s.text else .text s.text)
  else if s.tag == Text.ofString "!!binary" then s.text.ofBase64?.map .text
  else if s.tag == Text.ofString "!!timestamp" then if isMoment s.text then some .moment else none
  else match valueOf false s.text with
    | .null => if s.tag == Text.ofString "!!null" then some .null else none
    | .bool b => if s.tag == Text.ofString "!!bool" then some (.bool b) else none
    | .int n =>
      if s.tag == Text.ofString "!!int" then some (.int n)
      else if s.tag == Text.ofString "!!float" then (inWord? n).map fun n => .float (Float.ofInt n)
      else none
    | .float x => if s.tag == Text.ofString "!!float" then some (.float x) else none
    | .text _ | .moment => none

/-- The text of a scalar as the name of an entry. -/
def name (s : Written) : Text :=
  if s.tag == Text.ofString "!!binary" then s.text.ofBase64?.getD [] else s.text

end Written
end CellScript.Settings.Yaml
