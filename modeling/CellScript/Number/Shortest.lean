import CellScript.Number.Dyadic
import CellScript.Text.Basic

/-! The fewest decimal digits that read back as a given floating point number, and the two ways of
laying them out. -/
namespace CellScript.Number

/-- The value 0.d₁d₂… · 10^point, with no zero at either end of the digits. -/
structure Digits where
  digits : List Nat
  point : Int
  deriving DecidableEq

/-- The reals that round to a given number: the positive fractions between low / den and
high / den, with the ends included when closed holds. The number itself is mid / den. -/
structure Basin where
  low : Nat
  mid : Nat
  high : Nat
  den : Nat
  closed : Bool

/-- The basin of a positive number. It is narrower below a power of two. -/
def Dyadic.basin (x : Dyadic) : Basin :=
  let below := if x.mantissa == hiddenBit && x.exponent > leastExponent then 1 else 2
  let (unit, den) := scaleFraction 1 1 (x.exponent - 2)
  { low := (4 * x.mantissa - below) * unit
    mid := 4 * x.mantissa * unit
    high := (4 * x.mantissa + 2) * unit
    den
    closed := x.mantissa % 2 == 0 }

/-- Whether a fraction num / den lies in the basin. -/
def Basin.has (b : Basin) (num den : Nat) : Bool :=
  let n := num * b.den
  if b.closed then b.low * den ≤ n && n ≤ b.high * den else b.low * den < n && n < b.high * den

/-- Multiply the fraction num / den by 10^k. -/
def scaleDecimal (num den : Nat) : Int → Nat × Nat
  | .ofNat k => (num * Nat.pow 10 k, den)
  | .negSucc k => (num, den * Nat.pow 10 (k + 1))

/-- The greatest e with 10^e ≤ num / den, for positive num and den, searched upward from start in
at most fuel steps. -/
def floorLog10From (num den : Nat) : (fuel : Nat) → (start : Int) → Int
  | 0, start => start
  | fuel + 1, start =>
    let (n, d) := scaleDecimal num den (-(start + 1))
    if n < d then start else floorLog10From num den fuel (start + 1)

/-- The greatest e with 10^e ≤ num / den, for positive num and den. -/
def floorLog10 (num den : Nat) : Int :=
  let guess := (floorLog2 num den * 30103) / 100000 - 2
  floorLog10From num den 6 guess

/-- The whole number, in units of 10^unit, that lies in the basin and is nearest to its middle. A
tie goes to the even one. -/
def Basin.pick? (b : Basin) (unit : Int) : Option Nat :=
  let (n, d) := scaleDecimal b.mid b.den (-unit)
  let inside (k : Nat) : Bool :=
    let (num, den) := scaleDecimal k 1 unit
    b.has num den
  let down := n / d
  let near := divNearest n d
  if inside near then some near
  else if inside down then some down
  else if inside (down + 1) then some (down + 1)
  else none

def dropZeros (digits : List Nat) : List Nat := (digits.reverse.dropWhile (· == 0)).reverse

/-- The first of the units 10^top, 10^(top-1), … on whose grid the basin has a point. -/
def Basin.search (b : Basin) : (fuel : Nat) → (top : Int) → Nat × Int
  | 0, top => (0, top)
  | fuel + 1, top =>
    match b.pick? top with
    | some k => (k, top)
    | none => b.search fuel (top - 1)

/-- The decimal digits of a number, most significant first. -/
def decimalDigits (n : Nat) : List Nat :=
  (Nat.toDigits 10 n).map fun c => c.toNat - 48

/-- The fewest digits that read back as a finite number, and among those the nearest. -/
def Dyadic.shortest (x : Dyadic) : Digits :=
  if x.mantissa == 0 then ⟨[], 0⟩
  else
    let b := x.basin
    let (k, unit) := b.search 18 (floorLog10 b.mid b.den)
    let digits := decimalDigits k
    ⟨dropZeros digits, digits.length + unit⟩

def digitBytes (digits : List Nat) : Text := digits.map fun d => UInt8.ofNat (48 + d)

/-- Digits without an exponent: zeros fill the places up to the point and after it. -/
def Digits.positional (x : Digits) : Text :=
  let whole := x.point.toNat
  let before := (x.digits.take whole ++ List.replicate (whole - x.digits.length) 0)
  let after := List.replicate (-x.point).toNat 0 ++ x.digits.drop whole
  let head := if before.isEmpty then [Text.ascii '0'] else digitBytes before
  if after.isEmpty then head else head ++ Text.ascii '.' :: digitBytes after

/-- Digits with one place before the point and an exponent of at least two digits. -/
def Digits.scientific (x : Digits) : Text :=
  let exponent := if x.digits.isEmpty then 0 else x.point - 1
  let size := Text.ofNat exponent.natAbs
  let padded := if size.length < 2 then Text.ascii '0' :: size else size
  let head := match x.digits with
    | [] => digitBytes [0]
    | [d] => digitBytes [d]
    | d :: ds => digitBytes [d] ++ Text.ascii '.' :: digitBytes ds
  head ++ [Text.ascii 'e', if exponent < 0 then Text.ascii '-' else Text.ascii '+'] ++ padded

/-- Digits with an exponent when the leading digit is below 10^-4 or from 10^6 on. -/
def Digits.general (x : Digits) : Text :=
  let exponent := x.point - 1
  if !x.digits.isEmpty && (exponent < -4 || exponent ≥ 6) then x.scientific else x.positional

/-- A number laid out by the given rule for its digits, with the texts of what has none. -/
def floatText (layout : Digits → Text) (x : Float) : Text :=
  match dyadic? x with
  | some v => (if v.negative then "-" else "") ++ layout v.shortest
  | none => if x.isNaN then "NaN" else if x < 0 then "-Inf" else "+Inf"

/-- The form of a number in cells: never an exponent. -/
def ofFloat (x : Float) : Text := floatText Digits.positional x

end CellScript.Number
