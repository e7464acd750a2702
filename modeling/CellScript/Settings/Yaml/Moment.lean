import CellScript.Settings.Calendar

/-! Dates and times as plain scalars: a date, or a date and a time of day behind the letter T with a
zone, or behind spaces without one. -/
namespace CellScript.Settings.Yaml

/-- What follows a date. The year has four digits. -/
def afterDate? (t : Text) : Option Text := do
  let (year, rest) ← fixedNumber? 4 t
  let (month, rest) ← shortNumber? (← after? '-' rest)
  let (day, rest) ← shortNumber? (← after? '-' rest)
  if isDay year month day then some rest else none

/-- What follows a time of day. The seconds may have a fraction. -/
def afterClock? (t : Text) : Option Text := do
  let (hour, rest) ← shortNumber? t
  let (minute, rest) ← shortNumber? (← after? ':' rest)
  let (second, rest) ← shortNumber? (← after? ':' rest)
  if 24 ≤ hour || 60 ≤ minute || 60 ≤ second then none
  match rest with
  | p :: d :: more =>
    if (p == Text.ascii '.' || p == Text.ascii ',') && Text.isDigit d then
      return more.dropWhile Text.isDigit
    else return rest
  | _ => return rest

/-- Whether a text is a zone: the letter Z, or a sign with two digits for the hours and two for the
minutes. -/
def isZone (t : Text) : Bool :=
  match t with
  | [s, a, b, colon, c, d] =>
    let number (a b : UInt8) : Nat := (readBase? 10 [a, b]).getD 100
    (s == Text.ascii '+' || s == Text.ascii '-') && colon == Text.ascii ':' && number a b ≤ 24 &&
      number c d ≤ 60
  | _ => t == Text.ofString "Z"

/-- Whether a text is a date or a date with a time. -/
def isMoment (t : Text) : Bool :=
  match afterDate? t with
  | none => false
  | some [] => true
  | some (b :: rest) =>
    if b == Text.ascii 'T' || b == Text.ascii 't' then (afterClock? rest).any isZone
    else b == Text.ascii ' ' && afterClock? (rest.dropWhile (· == Text.ascii ' ')) == some []

end CellScript.Settings.Yaml
