import CellScript.Settings.Tree

/-! The parts of written dates and times that formats share. -/
namespace CellScript.Settings

def isLeapYear (year : Nat) : Bool := year % 4 == 0 && (year % 100 != 0 || year % 400 == 0)

def daysIn (year month : Nat) : Nat :=
  if month == 2 then if isLeapYear year then 29 else 28
  else if month == 4 || month == 6 || month == 9 || month == 11 then 30
  else 31

def isDay (year month day : Nat) : Bool :=
  1 ≤ month && month ≤ 12 && 1 ≤ day && day ≤ daysIn year month

/-- What follows a character, if it stands there. -/
def after? (c : Char) : Text → Option Text
  | [] => none
  | b :: rest => if b == Text.ascii c then some rest else none

/-- A number of some digits, and the rest. -/
def fixedNumber? (count : Nat) (t : Text) : Option (Nat × Text) := do
  let digits := t.take count
  if digits.length < count || !digits.all Text.isDigit then none
  return (← readBase? 10 digits, t.drop count)

/-- A number of one or two digits, and the rest. -/
def shortNumber? (t : Text) : Option (Nat × Text) := (fixedNumber? 2 t).or (fixedNumber? 1 t)

end CellScript.Settings
