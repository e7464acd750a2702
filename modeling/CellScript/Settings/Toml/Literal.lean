import CellScript.Settings.Calendar

/-! The strings, numbers and moments of TOML. -/
namespace CellScript.Settings.Toml

/-- The bytes that stand for themselves nowhere: controls other than tabs and breaks. -/
def isControl (b : UInt8) : Bool :=
  (b < 0x20 && b != Text.ascii '\t' && b != Text.ascii '\n' && b != Text.ascii '\r') || b == 0x7F

def escapes : List (Char × UInt8) :=
  [('b', 8), ('t', 9), ('n', 10), ('f', 12), ('r', 13), ('e', 27), ('"', 34), ('\\', 92)]

def escapeDigits (letter : UInt8) : Nat :=
  if letter == Text.ascii 'u' then 4 else if letter == Text.ascii 'U' then 8 else 0

/-- The bytes of an escape after its backslash, and the rest. -/
def escape? (t : Text) : Option (Text × Text) := do
  let letter ← t.head?
  match escapes.find? fun e => Text.ascii e.1 == letter with
  | some (_, b) => some ([b], t.drop 1)
  | none =>
    let count := escapeDigits letter
    let digits := (t.drop 1).take count
    if count == 0 || digits.length < count then none
    let n ← readBase? 16 digits
    if n.isValidChar then some (String.utf8EncodeChar (Char.ofNat n), t.drop (count + 1)) else none

/-- A backslash at the end of a line takes the break and all blanks after it along: what follows
them, if the backslash stands there. -/
def joined? (t : Text) : Option Text :=
  let isGap (b : UInt8) : Bool := b == Text.ascii ' ' || b == Text.ascii '\t'
  match t.dropWhile fun b => isGap b || b == Text.ascii '\r' with
  | b :: rest => if b == Text.ascii '\n' then some (rest.dropWhile Text.isBlank) else none
  | [] => none

/-- The rest of a string on one line, after its opening quote. -/
def lineString (quote : UInt8) : (fuel : Nat) → Text → Option (Text × Text)
  | 0, _ => none
  | _ + 1, [] => none
  | fuel + 1, b :: rest => do
    if b == quote then return ([], rest)
    else if b == Text.ascii '\n' || b == Text.ascii '\r' then none
    else
      let (here, rest) ← if b == Text.ascii '\\' && quote == Text.ascii '"' then escape? rest
        else pure ([b], rest)
      let (more, rest) ← lineString quote fuel rest
      return (here ++ more, rest)

/-- The rest of a string over several lines, after its opening quotes. Three quotes end it, and up
to two more in front of them belong to it. -/
def blockString (quote : UInt8) : (fuel : Nat) → Text → Option (Text × Text)
  | 0, _ => none
  | _ + 1, [] => none
  | fuel + 1, b :: rest => do
    let quotes := (b :: rest).takeWhile (· == quote)
    if 6 ≤ quotes.length then none
    else if 3 ≤ quotes.length then return (quotes.drop 3, rest.drop (quotes.length - 1))
    else
      let (here, rest) ← if b == Text.ascii '\\' && quote == Text.ascii '"' then
          match joined? rest with
          | some rest => pure ([], rest)
          | none => escape? rest
        else pure ([b], rest)
      let (more, rest) ← blockString quote fuel rest
      return (here ++ more, rest)

/-- A break at the front is dropped. -/
def dropBreak : Text → Text
  | 10 :: rest | 13 :: 10 :: rest => rest
  | t => t

/-- A string on one line, and the rest. -/
def lineString? : Text → Option (Text × Text)
  | q :: rest => if Text.isQuote q then lineString q (rest.length + 1) rest else none
  | [] => none

/-- A string of any form, and the rest. -/
def string? (t : Text) : Option (Text × Text) :=
  match t with
  | q :: r :: s :: rest =>
    if Text.isQuote q && r == q && s == q then blockString q (rest.length + 1) (dropBreak rest)
    else lineString? t
  | _ => lineString? t

/-- The digits of a number without the underscores between them. -/
def joinDigits? (base : Nat) (t : Text) : Option Text :=
  let groups := Text.splitOn "_" t
  if groups.any List.isEmpty || (readBase? base groups.flatten).isNone then none
  else some groups.flatten

/-- Decimal digits that start with a zero only if it is the only one. -/
def decimalDigits? (t : Text) : Option Text := do
  let digits ← joinDigits? 10 t
  if 1 < digits.length && digits.head? == some (Text.ascii '0') then none else some digits

def takeSign : Text → Text × Text
  | b :: rest =>
    if b == Text.ascii '-' || b == Text.ascii '+' then ([b], rest) else ([], b :: rest)
  | [] => ([], [])

/-- The base that the letter behind a leading zero stands for. -/
def baseOf? (t : Text) : Option Nat :=
  if t == Text.ofString "0x" then some 16
  else if t == Text.ofString "0o" then some 8
  else if t == Text.ofString "0b" then some 2
  else none

def integer? (t : Text) : Option Int := do
  match baseOf? (t.take 2) with
  | some base => inWord? (← readBase? base (← joinDigits? base (t.drop 2)))
  | none =>
    let (sign, rest) := takeSign t
    let n : Int ← readBase? 10 (← decimalDigits? rest)
    inWord? (if sign == Text.ofString "-" then -n else n)

def float? (t : Text) : Option Float := do
  let isMark (b : UInt8) : Bool := Text.lowerByte b == Text.ascii 'e'
  let (sign, unsigned) := takeSign t
  let significand := unsigned.takeWhile fun b => !isMark b
  let whole := significand.takeWhile (· != Text.ascii '.')
  let digits ← decimalDigits? whole
  let fraction : Text ←
    if whole.length == significand.length then pure []
    else pure (Text.ascii '.' :: (← joinDigits? 10 (significand.drop (whole.length + 1))))
  let exponent : Text ←
    match unsigned.drop significand.length with
    | [] => pure []
    | mark :: rest =>
      let (sign, rest) := takeSign rest
      pure (mark :: sign ++ (← joinDigits? 10 rest))
  if fraction.isEmpty && exponent.isEmpty then none
  (Number.readFloat (sign ++ digits ++ fraction ++ exponent)).toOption

def afterDate? (t : Text) : Option Text := do
  let (year, rest) ← fixedNumber? 4 t
  let (month, rest) ← fixedNumber? 2 (← after? '-' rest)
  let (day, rest) ← fixedNumber? 2 (← after? '-' rest)
  if isDay year month day then some rest else none

/-- What follows a time of day. A minute may have a leap second. -/
def afterClock? (t : Text) : Option Text := do
  let (hour, rest) ← fixedNumber? 2 t
  let (minute, rest) ← fixedNumber? 2 (← after? ':' rest)
  let (second, rest) ← fixedNumber? 2 (← after? ':' rest)
  if 23 < hour || 59 < minute || 60 < second then none
  match after? '.' rest with
  | some fraction =>
    if fraction.head?.any Text.isDigit then some (fraction.dropWhile Text.isDigit) else none
  | none => some rest

/-- Whether a text is a zone or nothing. -/
def isZone (t : Text) : Bool :=
  match t with
  | [] => true
  | [z] => Text.lowerByte z == Text.ascii 'z'
  | sign :: rest =>
    (sign == Text.ascii '+' || sign == Text.ascii '-') &&
      (do
        let (hours, rest) ← fixedNumber? 2 rest
        let (minutes, rest) ← fixedNumber? 2 (← after? ':' rest)
        return hours ≤ 23 && minutes ≤ 59 && rest.isEmpty).getD false

/-- Whether a text is a date, a time of day, or both, and then perhaps with a zone. -/
def isMoment (t : Text) : Bool :=
  match afterDate? t with
  | some [] => true
  | some (b :: rest) =>
    (Text.lowerByte b == Text.ascii 't' || b == Text.ascii ' ') && (afterClock? rest).any isZone
  | none => afterClock? t == some []

def word? (t : Text) : Option Scalar :=
  let (sign, unsigned) := takeSign t
  if t == Text.ofString "true" then some (.bool true)
  else if t == Text.ofString "false" then some (.bool false)
  else if unsigned == Text.ofString "nan" then some (.float Number.notANumber)
  else if unsigned == Text.ofString "inf" then
    some (.float (Number.infinity (sign == Text.ofString "-")))
  else if isMoment t then some .moment
  else match integer? t with
    | some n => some (.int n)
    | none => (float? t).map .float

def isWordByte (b : UInt8) : Bool :=
  Text.isWord b || b == Text.ascii '+' || b == Text.ascii '-' || b == Text.ascii '.' ||
    b == Text.ascii ':'

/-- A bare word, and the rest. A space may stand between a date and a time. -/
def takeWord (t : Text) : Text × Text :=
  let word := t.takeWhile isWordByte
  let rest := t.drop word.length
  match rest with
  | space :: d :: _ =>
    if space == Text.ascii ' ' && Text.isDigit d && afterDate? word == some [] then
      let clock := (rest.drop 1).takeWhile isWordByte
      (word ++ space :: clock, rest.drop (clock.length + 1))
    else (word, rest)
  | _ => (word, rest)

/-- A byte of a string in double quotes. -/
def writeByte (b : UInt8) : Text :=
  if b == 27 then "\\u001B"
  else match escapes.find? fun e => e.2 == b with
    | some (letter, _) => [Text.ascii '\\', Text.ascii letter]
    | none => if isControl b then "\\u00" ++ (Text.hex 2 b.toNat).map Text.upperByte else [b]

/-- A text as a string: in single quotes where nothing has to be escaped. -/
def writeString (t : Text) : Text :=
  let isHard (b : UInt8) : Bool :=
    b == Text.ascii '\'' || b == Text.ascii '\n' || b == Text.ascii '\r' || isControl b
  if t.any isHard then "\"" ++ t.flatMap writeByte ++ "\"" else "'" ++ t ++ "'"

end CellScript.Settings.Toml
