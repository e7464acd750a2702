import CellScript.Number.Dyadic

/-! Powers of ten as floating point numbers, by repeated squaring on a fraction between one half and
one, and rounding to a number of decimal places with them. -/
namespace CellScript.Number

/-- A product in progress: the result is value · 2^shift, and factor · 2^factorShift is the next
power to multiply with. -/
structure Squaring where
  value : Float
  shift : Int
  factor : Float
  factorShift : Int

/-- Square the factor, and double it when it falls below one half. -/
def Squaring.square (s : Squaring) : Squaring :=
  let factor := s.factor * s.factor
  if factor < 0.5 then
    { s with factor := factor + factor, factorShift := 2 * s.factorShift - 1 }
  else { s with factor, factorShift := 2 * s.factorShift }

/-- Multiply in the powers that the binary digits of n select, lowest first, in at most fuel steps.
A factor beyond 2^4096 settles the magnitude, and the rest is left out. -/
def Squaring.run : (fuel : Nat) → (n : Nat) → Squaring → Squaring
  | 0, _, s => s
  | fuel + 1, n, s =>
    if n == 0 then s
    else if s.factorShift < -4096 || 4096 < s.factorShift then
      { s with shift := s.shift + s.factorShift }
    else
      let s := if n % 2 == 1 then
          { s with value := s.value * s.factor, shift := s.shift + s.factorShift }
        else s
      Squaring.run fuel (n / 2) s.square

def powerOfTen (exponent : Int) : Float :=
  let size := exponent.natAbs
  if exponent == 0 then 1
  else if exponent == 1 then 10
  else if size ≥ 9223372036854775808 then if exponent > 0 then infinity false else ofMagnitude false 0
  else
    let s := Squaring.run 64 size ⟨1, 0, 0.625, 4⟩
    if exponent < 0 then scale (1 / s.value) (-s.shift) else scale s.value s.shift

/-- Round to a number of decimal places, which may be negative. A half goes to the even neighbour.
The number of places is itself taken as a floating point number. -/
def roundPlaces (x : Float) (places : Int64) : Float :=
  let p := powerOfTen (truncate (Float.ofInt places.toInt))
  roundEven (x * p) / p

end CellScript.Number
