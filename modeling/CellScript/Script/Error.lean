import CellScript.Row.Error
import CellScript.Value.Operator

/-! What can go wrong when scripts are compiled and run. -/
namespace CellScript.Script

inductive ArgumentFault where
  | count (expected given : Nat)
  | roundCount (given : Nat)
  | noLength (kind : Value.Kind)
  | noText (v : Text)
  | literal (t : Text)
  | notInt (kind : Value.Kind)
  | notFloat (kind : Value.Kind)
  | noMagnitude (kind : Value.Kind)
  | places (kind : Value.Kind)
  | notRounded (kind : Value.Kind)
  | emptySequence (function : Text)
  | notText (function : Text) (kind : Value.Kind)
  | operands (fault : Value.Fault)
  deriving DecidableEq

inductive Error where
  /-- The source is no script. -/
  | malformed
  | emptyExpression
  | missingIndex
  | notAssignable (pos : Text.Position)
  | sliceAssigned (pos : Text.Position)
  | unboundName (name : Text) (pos : Text.Position)
  | unknownFunction (name : Text)
  | unknownView (name : Text)
  | operands (fault : Value.Fault)
  | badIndex (kind : Value.Kind)
  | badBound (kind : Value.Kind)
  | arguments (function : Text) (fault : ArgumentFault)
  /-- A value without a text is to be printed. -/
  | unprintable (shown : Text)
  | row (error : Row.Error)
  deriving DecidableEq

/-- The text of a value fault after the word for its sort. -/
def operandText : Value.Fault → Text
  | .sign op kind => "type error: bad operand type for unary " ++ op.symbol ++ ": " ++ kind.name
  | .arith op left right =>
    "type error: unsupported operand types for " ++ op.symbol ++ ": " ++ left.name ++ " and " ++
      right.name
  | .compare op left right =>
    "type error: " ++ op.symbol ++ " not supported between " ++ left.name ++ " and " ++ right.name
  | .zeroDivisor => "division by zero"

def noTextMessage (shown : Text) : Text :=
  "type error: unable to cast " ++ shown ++ " of type []interface \x7b\x7d to string"

def ArgumentFault.text : ArgumentFault → Text
  | count expected given =>
    "type error: takes " ++ Text.ofNat expected ++ " argument(s), " ++ Text.ofNat given ++ " given"
  | roundCount given => "type error: takes 1 or 2 arguments, " ++ Text.ofNat given ++ " given"
  | noLength kind => "type error: " ++ kind.name ++ " has no len"
  | noText v => noTextMessage v
  | literal t => "type error: invalid literal " ++ t.quote
  | notInt kind => "type error: cannot convert " ++ kind.name ++ " to int"
  | notFloat kind => "type error: cannot convert " ++ kind.name ++ " to float"
  | noMagnitude kind => "type error: bad operand type for abs: " ++ kind.name
  | places kind => "type error: digits must be int, not " ++ kind.name
  | notRounded kind => "type error: cannot round " ++ kind.name
  | emptySequence function => "type error: " ++ function ++ " of an empty sequence"
  | notText function kind => "type error: " ++ function ++ " expects str, not " ++ kind.name
  | operands fault => operandText fault

def Error.message : Error → Text
  | malformed => "syntax error"
  | emptyExpression => "syntax error: empty expression"
  | missingIndex => "syntax error: missing row index"
  | notAssignable pos => "invalid assignment target at " ++ pos.text
  | sliceAssigned pos =>
    "invalid assignment target at " ++ pos.text ++ ": cannot assign to a slice"
  | unboundName name pos => "undefined name: " ++ name ++ " at " ++ pos.text
  | unknownFunction name => "undefined name: function " ++ name
  | unknownView name => "undefined name: row view " ++ name.quote
  | operands fault => operandText fault
  | badIndex kind => "type error: row index must be int or str, not " ++ kind.name
  | badBound kind => "type error: slice bound must be int, not " ++ kind.name
  | arguments function fault => function ++ "(): " ++ fault.text
  | unprintable shown => noTextMessage shown
  | row error => error.message

end CellScript.Script
