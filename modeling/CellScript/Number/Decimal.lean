import CellScript.Text.Basic

/-! Reading whole numbers of 64 bits from decimal text. -/
namespace CellScript.Number

inductive Fault where
  | malformed
  | tooLarge
  deriving DecidableEq

/-- The value of decimal digits, most significant first. The first byte that is no digit, or the
first digit that carries the value to 2^64, ends the reading. -/
def readDigits (soFar : Nat) : Text → Except Fault Nat
  | [] => .ok soFar
  | b :: rest =>
    if Text.isDigit b then
      let value := soFar * 10 + (b.toNat - 48)
      if value < 18446744073709551616 then readDigits value rest else .error .tooLarge
    else .error .malformed

def readNat (t : Text) : Except Fault Nat :=
  if t.isEmpty then .error .malformed else readDigits 0 t

def minWord : Int := -9223372036854775808

def maxWord : Int := 9223372036854775807

/-- A signed value that 64 bits can hold. -/
def bounded (value : Int) : Except Fault Int64 :=
  if minWord ≤ value ∧ value ≤ maxWord then .ok (Int64.ofInt value) else .error .tooLarge

/-- A decimal number with an optional sign. -/
def readInt (t : Text) : Except Fault Int64 := do
  match t with
  | [] => .error .malformed
  | b :: rest =>
    if b == Text.ascii '-' then bounded (-(← readNat rest))
    else if b == Text.ascii '+' then bounded (← readNat rest)
    else bounded (← readNat t)

end CellScript.Number
