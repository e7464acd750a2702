import CellScript.Text.Basic

/-! The UTF-8 view of a text. Every text is a sequence of runes: a decoded character, or a byte
that starts no well-formed encoding and stands for itself. Nothing is lost by the view. -/
namespace CellScript

/-- One step through a text: a decoded character, or a byte outside any well-formed encoding. -/
inductive Rune where
  | char (c : Char)
  | stray (b : UInt8)
  deriving DecidableEq, Inhabited

namespace Rune

def replacement : Char := '\uFFFD'

def toChar : Rune → Char
  | char c => c
  | stray _ => replacement

def code (r : Rune) : Nat := r.toChar.toNat

/-- The bytes a rune was read from. -/
def bytes : Rune → Text
  | char c => String.utf8EncodeChar c
  | stray b => [b]

def isAscii (r : Rune) (c : Char) : Bool := r == char c

/-- The six payload bits of a continuation byte. -/
def payload? (b : UInt8) : Option Nat :=
  if 0x80 ≤ b && b < 0xC0 then some (b.toNat - 0x80) else none

/-- A code point as a character, if it is a scalar value and needed an encoding this long. -/
def scalar? (least code : Nat) : Option Char :=
  if h : least ≤ code ∧ code.isValidChar then some (Char.ofNatAux code h.2) else none

/-- The character whose encoding starts with the byte b and goes on in rest. -/
def decode? (b : UInt8) (rest : Text) : Option Char :=
  if b < 0x80 then some (Char.ofNat b.toNat)
  else if b < 0xC0 then none
  else if b < 0xE0 then
    match rest with
    | x :: _ => do
      let x ← payload? x
      scalar? 0x80 ((b.toNat - 0xC0) * 64 + x)
    | _ => none
  else if b < 0xF0 then
    match rest with
    | x :: y :: _ => do
      let x ← payload? x
      let y ← payload? y
      scalar? 0x800 (((b.toNat - 0xE0) * 64 + x) * 64 + y)
    | _ => none
  else if b < 0xF8 then
    match rest with
    | x :: y :: z :: _ => do
      let x ← payload? x
      let y ← payload? y
      let z ← payload? z
      scalar? 0x10000 ((((b.toNat - 0xF0) * 64 + x) * 64 + y) * 64 + z)
    | _ => none
  else none

/-- The rune at the front of b :: rest. -/
def first (b : UInt8) (rest : Text) : Rune :=
  match decode? b rest with
  | some c => char c
  | none => stray b

end Rune

namespace Text

/-- The runes of a text after passing over its first skip bytes. -/
def runesFrom : Nat → Text → List Rune
  | _, [] => []
  | skip + 1, _ :: rest => runesFrom skip rest
  | 0, b :: rest =>
    let r := Rune.first b rest
    r :: runesFrom (r.bytes.length - 1) rest

def runes (t : Text) : List Rune := runesFrom 0 t

def ofRunes (rs : List Rune) : Text := rs.flatMap Rune.bytes

/-- The UTF-8 bytes of characters in order. -/
def ofChars (cs : List Char) : Text := cs.flatMap String.utf8EncodeChar

def isUtf8 (t : Text) : Bool := t.runes.all fun | .char _ => true | .stray _ => false

end Text
end CellScript
