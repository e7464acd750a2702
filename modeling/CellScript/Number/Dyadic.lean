/-! Floating point numbers as integers times powers of two, with the exact operations on them that
rounding, remainders and decimal text need. -/
namespace CellScript.Number

/-- The number mantissa · 2^exponent with a sign, which zero has too. -/
structure Dyadic where
  negative : Bool
  mantissa : Nat
  exponent : Int
  deriving DecidableEq

def leastExponent : Int := -1074

/-- The bit of a normal number's mantissa that is not stored, 2^52. -/
def hiddenBit : Nat := 4503599627370496

/-- The bit of an encoding that holds the sign, 2^63. -/
def signBit : Nat := 9223372036854775808

/-- The value of a finite number. Infinities and NaN have none. -/
def dyadic? (x : Float) : Option Dyadic :=
  let bits := x.toBits.toNat
  let biased := bits / hiddenBit % 2048
  let fraction := bits % hiddenBit
  let negative := decide (bits / signBit = 1)
  if biased == 2047 then none
  else if biased == 0 then some ⟨negative, fraction, leastExponent⟩
  else some ⟨negative, fraction + hiddenBit, Int.ofNat biased - 1075⟩

/-- The number with a sign and an encoding of its magnitude. -/
def ofMagnitude (negative : Bool) (bits : Nat) : Float :=
  Float.ofBits (UInt64.ofNat (if negative then bits + signBit else bits))

def infinityBits : Nat := 2047 * hiddenBit

def infinity (negative : Bool) : Float := ofMagnitude negative infinityBits

def notANumber : Float := Float.ofBits 0x7FF8000000000001

/-- The whole number nearest to num / den; of two equally near ones, the even one. -/
def divNearest (num den : Nat) : Nat :=
  let q := num / den
  let twice := 2 * (num % den)
  if twice > den || (twice == den && q % 2 == 1) then q + 1 else q

/-- Multiply the fraction num / den by 2^k. -/
def scaleFraction (num den : Nat) : Int → Nat × Nat
  | .ofNat k => (num * Nat.pow 2 k, den)
  | .negSucc k => (num, den * Nat.pow 2 (k + 1))

/-- The greatest e with 2^e ≤ num / den, for positive num and den. -/
def floorLog2 (num den : Nat) : Int :=
  let guess : Int := Int.ofNat num.log2 - Int.ofNat den.log2
  let (n, d) := scaleFraction num den (-guess)
  if n < d then guess - 1 else guess

/-- The floating point number nearest to num / den; of two equally near ones, the one with the even
mantissa. Too large a fraction gives infinity. -/
def nearest (negative : Bool) (num den : Nat) : Float :=
  if num == 0 then ofMagnitude negative 0
  else
    let unit := max (floorLog2 num den - 52) leastExponent
    let (n, d) := scaleFraction num den (-unit)
    let m := divNearest n d
    let bits := if m < hiddenBit then m else (unit + 1075).toNat * hiddenBit + (m - hiddenBit)
    ofMagnitude negative (min bits infinityBits)

namespace Dyadic

/-- The floating point number nearest to a dyadic number times 2^shift. -/
def toFloat (x : Dyadic) (shift : Int) : Float :=
  let (n, d) := scaleFraction x.mantissa 1 (x.exponent + shift)
  nearest x.negative n d

end Dyadic

/-- A number times a power of two, rounded once. -/
def scale (x : Float) (shift : Int) : Float :=
  match dyadic? x with
  | some v => v.toFloat shift
  | none => x

/-- The nearest whole number; a half goes to the even neighbour. -/
def roundEven (x : Float) : Float :=
  match dyadic? x with
  | none => x
  | some v =>
    if v.exponent ≥ 0 then x
    else nearest v.negative (divNearest v.mantissa (Nat.pow 2 v.exponent.natAbs)) 1

/-- The greatest whole number that is not above x. -/
def floor (x : Float) : Float :=
  match dyadic? x with
  | none => x
  | some v =>
    if v.exponent ≥ 0 || v.mantissa == 0 then x
    else
      let unit := Nat.pow 2 v.exponent.natAbs
      let whole := v.mantissa / unit
      nearest v.negative (if v.negative && v.mantissa % unit != 0 then whole + 1 else whole) 1

/-- The whole part, toward zero, of a finite number. -/
def truncate (x : Float) : Int :=
  match dyadic? x with
  | none => 0
  | some v =>
    let (n, d) := scaleFraction v.mantissa 1 v.exponent
    if v.negative then -(n / d : Int) else n / d

/-- The whole part of a number as a word. An infinity, NaN, and a number that is too large for a word
become the least word. -/
def toWord (x : Float) : Int64 :=
  let word := Int64.ofInt (truncate x)
  if x.isFinite && word.toInt == truncate x then word else Int64.minValue

/-- The remainder of x by y with the sign of x, computed without rounding. -/
def remainder (x y : Float) : Float :=
  match dyadic? x, dyadic? y with
  | some a, some b =>
    if b.mantissa == 0 then notANumber
    else if a.mantissa == 0 then x
    else
      let unit := min a.exponent b.exponent
      let n := a.mantissa * Nat.pow 2 (a.exponent - unit).toNat
      let d := b.mantissa * Nat.pow 2 (b.exponent - unit).toNat
      Dyadic.toFloat ⟨a.negative, n % d, unit⟩ 0
  | some _, none => if y.isNaN then notANumber else x
  | none, _ => notANumber

end CellScript.Number
