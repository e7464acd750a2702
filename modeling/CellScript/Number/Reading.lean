import CellScript.Number.Decimal
import CellScript.Number.Dyadic

/-! Reading floating point numbers from text: decimal and hexadecimal numbers with an optional
exponent and underscores between digits, infinities, and NaN. -/
namespace CellScript.Number

/-- A number as written: the value of its digits without the point, in the base whose powers the
exponent counts. -/
structure Written where
  hexadecimal : Bool
  digits : Nat
  exponent : Int

/-- The part of a number before its exponent. -/
structure Significand where
  digits : Nat
  /-- How many digits stand after the point. -/
  places : Nat
  sawDigit : Bool
  sawPoint : Bool

/-- The value of a digit in base ten or sixteen. -/
def digitValue? (hexadecimal : Bool) (b : UInt8) : Option Nat :=
  if Text.isDigit b || hexadecimal then Text.hexValue? b else none

/-- Read digits, underscores and at most one point. -/
def readSignificand (hexadecimal : Bool) : Text → Significand → Significand × Text
  | [], s => (s, [])
  | b :: rest, s =>
    if b == Text.ascii '_' then readSignificand hexadecimal rest s
    else if b == Text.ascii '.' && !s.sawPoint then
      readSignificand hexadecimal rest { s with sawPoint := true }
    else match digitValue? hexadecimal b with
      | some d =>
        readSignificand hexadecimal rest
          { s with
            digits := s.digits * (if hexadecimal then 16 else 10) + d
            places := if s.sawPoint then s.places + 1 else s.places
            sawDigit := true }
      | none => (s, b :: rest)

/-- The exponent's digits; from 10000 on, further digits no longer change the outcome. -/
def readExponentDigits : Text → Nat → Nat × Text
  | [], soFar => (soFar, [])
  | b :: rest, soFar =>
    if b == Text.ascii '_' then readExponentDigits rest soFar
    else if Text.isDigit b then
      readExponentDigits rest (if soFar < 10000 then soFar * 10 + (b.toNat - 48) else soFar)
    else (soFar, b :: rest)

/-- A signed exponent, which starts with a digit. -/
def readExponent? (t : Text) : Option (Int × Text) :=
  let (negative, t) := match t with
    | b :: rest =>
      if b == Text.ascii '-' then (true, rest)
      else if b == Text.ascii '+' then (false, rest) else (false, t)
    | [] => (false, t)
  match t with
  | b :: _ =>
    if Text.isDigit b then
      let (n, rest) := readExponentDigits t 0
      some (if negative then -n else n, rest)
    else none
  | [] => none

/-- What an underscore may stand after: a digit or the mark of base sixteen, and nothing else. -/
inductive Before where
  | digit
  | underscore
  | other

/-- Whether each underscore has a digit on either side. -/
def underscoresFrom (hexadecimal : Bool) : Before → Text → Bool
  | .underscore, [] => false
  | _, [] => true
  | before, b :: rest =>
    if (digitValue? hexadecimal b).isSome then underscoresFrom hexadecimal .digit rest
    else if b == Text.ascii '_' then
      match before with
      | .digit => underscoresFrom hexadecimal .underscore rest
      | _ => false
    else match before with
      | .underscore => false
      | _ => underscoresFrom hexadecimal .other rest

/-- Whether the underscores of an unsigned number are well placed. -/
def underscoresFit (t : Text) : Bool :=
  match t with
  | z :: x :: rest =>
    let mark := Text.lowerByte x
    if z == Text.ascii '0' &&
        (mark == Text.ascii 'x' || mark == Text.ascii 'o' || mark == Text.ascii 'b') then
      underscoresFrom (mark == Text.ascii 'x') .digit rest
    else underscoresFrom false .other t
  | _ => underscoresFrom false .other t

def isHexadecimal : Text → Bool
  | z :: x :: _ :: _ => z == Text.ascii '0' && Text.lowerByte x == Text.ascii 'x'
  | _ => false

/-- An unsigned number that takes up the whole text. In base sixteen it has an exponent. -/
def readWritten? (t : Text) : Option Written :=
  let hexadecimal := isHexadecimal t
  let (s, rest) := readSignificand hexadecimal (if hexadecimal then t.drop 2 else t) ⟨0, 0, false, false⟩
  let places : Int := s.places
  if !s.sawDigit || (t.contains (Text.ascii '_') && !underscoresFit t) then none
  else match rest with
    | [] => if hexadecimal then none else some ⟨false, s.digits, -places⟩
    | b :: rest =>
      if Text.lowerByte b == (if hexadecimal then Text.ascii 'p' else Text.ascii 'e') then
        match readExponent? rest with
        | some (e, []) => some ⟨hexadecimal, s.digits, if hexadecimal then e - 4 * places else e - places⟩
        | _ => none
      else none

def Written.toFloat (negative : Bool) (w : Written) : Float :=
  let base := if w.hexadecimal then 2 else 10
  if w.digits == 0 then ofMagnitude negative 0
  else match w.exponent with
    | .ofNat e => nearest negative (w.digits * Nat.pow base e) 1
    | .negSucc e => nearest negative w.digits (Nat.pow base (e + 1))

def isInfinityWord (t : Text) : Bool :=
  let word := t.map Text.lowerByte
  word == Text.ofString "inf" || word == Text.ofString "infinity"

/-- An unsigned number, an infinity, or a magnitude that is too large. -/
def readMagnitude (negative : Bool) (t : Text) : Except Fault Float :=
  if isInfinityWord t then .ok (infinity negative)
  else match readWritten? t with
    | none => .error .malformed
    | some w =>
      let x := w.toFloat negative
      if x.isInf then .error .tooLarge else .ok x

/-- A floating point number with an optional sign. NaN has none. -/
def readFloat (t : Text) : Except Fault Float :=
  if t.map Text.lowerByte == Text.ofString "nan" then .ok notANumber
  else match t with
    | [] => .error .malformed
    | b :: rest =>
      if b == Text.ascii '-' then readMagnitude true rest
      else if b == Text.ascii '+' then readMagnitude false rest
      else readMagnitude false t

end CellScript.Number
