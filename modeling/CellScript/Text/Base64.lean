import CellScript.Text.Basic

/-! Bytes as base64: three bytes are four letters, and the last group is filled up with equals
signs. -/
namespace CellScript.Text

/-- The letter of six bits. -/
def base64Letter (n : Nat) : UInt8 :=
  if n < 26 then ascii 'A' + UInt8.ofNat n
  else if n < 52 then ascii 'a' + UInt8.ofNat (n - 26)
  else if n < 62 then ascii '0' + UInt8.ofNat (n - 52)
  else if n == 62 then ascii '+'
  else ascii '/'

def base64Group (n : Nat) : Text :=
  [n / 262144, n / 4096 % 64, n / 64 % 64, n % 64].map base64Letter

def base64 : Text → Text
  | [] => []
  | [a] => (base64Group (a.toNat * 65536)).take 2 ++ "=="
  | [a, b] => (base64Group (a.toNat * 65536 + b.toNat * 256)).take 3 ++ "="
  | a :: b :: c :: rest =>
    base64Group (a.toNat * 65536 + b.toNat * 256 + c.toNat) ++ base64 rest

def base64Value? (b : UInt8) : Option Nat :=
  if isUpper b then some (b.toNat - 65)
  else if isLower b then some (b.toNat - 71)
  else if isDigit b then some (b.toNat + 4)
  else if b == ascii '+' then some 62
  else if b == ascii '/' then some 63
  else none

/-- The bytes of a group of letters, the first of three bytes. Bits beyond them are dropped. -/
def base64Bytes? (letters : Text) : Option Text := do
  let n ← letters.foldlM (fun n b => (base64Value? b).map (n * 64 + ·)) 0
  return [n / 65536, n / 256 % 256, n % 256].map UInt8.ofNat

/-- The text of groups of four letters. -/
def ofBase64Groups? : Text → Option Text
  | [] => some []
  | [a, b, c, d] =>
    if d != ascii '=' then base64Bytes? [a, b, c, d]
    else if c != ascii '=' then (base64Bytes? [a, b, c, ascii 'A']).map (·.take 2)
    else (base64Bytes? [a, b, ascii 'A', ascii 'A']).map (·.take 1)
  | a :: b :: c :: d :: rest => do return (← base64Bytes? [a, b, c, d]) ++ (← ofBase64Groups? rest)
  | _ => none

def ofBase64? (t : Text) : Option Text :=
  ofBase64Groups? (t.filter fun b => b != ascii '\n' && b != ascii '\r')

end CellScript.Text
