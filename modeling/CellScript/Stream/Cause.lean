import CellScript.Stream.Basic

/-! The sorts of failures, whatever their details and wherever they arise. -/
namespace CellScript

inductive Cause where
  | accessor
  | malformedScript
  | type
  | undefinedName
  | zeroDivisor
  | assignment
  | unknownHeader
  | outOfRange
  | cast
  | namesDisabled
  | headerRegistered
  | cancelled
  | noInput
  | watchedInput
  | incompatible
  | other
  deriving DecidableEq

def Row.Error.cause : Row.Error → Cause
  | unknownHeader _ => .unknownHeader
  | namesDisabled _ => .namesDisabled
  | missingCell _ _ _ | outOfRange _ _ | notNext _ _ => .outOfRange
  | unreadable _ _ _ _ | unstorable _ => .cast
  | headerRegistered => .headerRegistered

def Value.Fault.cause : Value.Fault → Cause
  | sign _ _ | arith _ _ _ | compare _ _ _ => .type
  | zeroDivisor => .zeroDivisor

def Script.Error.cause : Script.Error → Cause
  | malformed | emptyExpression | missingIndex => .malformedScript
  | notAssignable _ | sliceAssigned _ => .assignment
  | unboundName _ _ | unknownFunction _ | unknownView _ => .undefinedName
  | operands fault => fault.cause
  | arguments _ (.operands fault) => fault.cause
  | badIndex _ | badBound _ | arguments _ _ | unprintable _ => .type
  | row error => error.cause

def Plan.Error.cause : Plan.Error → Cause
  | shorthand _ _ => .accessor
  | script _ error => error.cause

def Stream.Stop.cause : Stream.Stop → Cause
  | line error => error.cause.cause
  | cancelled => .cancelled
  | tooLong => .other

end CellScript
