import CellScript.Settings.Yaml.Literal

/-! The tokens of YAML, with the names, tags and directives among them. -/
namespace CellScript.Settings.Yaml

/-- A piece of a text. The starts and ends of block collections are tokens too, though indentation
alone shows them. -/
inductive Token where
  | version (major minor : Nat)
  /-- A directive that lets a handle stand for the start of tags. -/
  | handle (name start : Text)
  | documentStart
  | documentEnd
  | blockSequence
  | blockMapping
  | blockEnd
  | flowSequence
  | flowSequenceEnd
  | flowMapping
  | flowMappingEnd
  | item
  | comma
  | key
  | value
  | anchor (name : Text)
  | reference (name : Text)
  /-- A tag as a handle and the rest of its name. -/
  | tag (handle suffix : Text)
  | scalar (text : Text) (plain : Bool)
  | streamEnd
  /-- The text goes on with something that is no token. -/
  | fault
  /-- What may be a key, for all that could be read. -/
  | unsettled
  deriving DecidableEq

structure Piece where
  token : Token
  place : Place
  /-- Whether lines ended behind it. -/
  broken : Bool := false

def nameAt (p : Place) : List Char := p.rest.takeWhile isNameChar

/-- An anchor or an alias. Its name is not empty, and a mark may follow it directly. -/
def anchorAt (make : Text → Token) (p : Place) : Option Piece :=
  let p := p.next
  let name := nameAt p
  let after := p.skip name.length
  let ends := endsWord after.rest || after.rest.head?.any "?:,]\x7d%@`".toList.contains
  if name.isEmpty || !ends then none
  else some ⟨make (Text.ofChars name), after, false⟩

def isUriChar (c : Char) : Bool := isNameChar c || ";/?:@&=+$,.!~*'()[]%".toList.contains c

/-- The bytes of a tag name, where a percent sign and two digits stand for any byte. -/
def uriBytes? : List Char → Option Text
  | [] => some []
  | '%' :: a :: b :: rest => do
    let high ← Text.hexValue? a.toUInt8
    let low ← Text.hexValue? b.toUInt8
    return UInt8.ofNat (high * 16 + low) :: (← uriBytes? rest)
  | c :: rest => do
    if c == '%' then none
    return Text.ascii c :: (← uriBytes? rest)

def uriAt (p : Place) : Option (Text × Place) := do
  let cs := p.rest.takeWhile isUriChar
  let bytes ← uriBytes? cs
  if bytes.isUtf8 then some (bytes, p.skip cs.length) else none

/-- An exclamation mark, a name, and perhaps another mark. -/
def handleAt (p : Place) : List Char × Place :=
  let name := '!' :: nameAt p.next
  let after := p.skip name.length
  if after.sees '!' then (name ++ ['!'], after.next) else (name, after)

/-- A tag: whole in angle brackets, or after a handle. A mark alone is a tag too. -/
def tagAt (p : Place) : Option Piece := do
  let (token, p) ←
    if p.rest.take 2 == ['!', '<'] then do
      let (name, after) ← uriAt (p.skip 2)
      if name.isEmpty || !after.sees '>' then none
      pure (Token.tag [] name, after.next)
    else do
      let (handle, after) := handleAt p
      let (suffix, after) ← uriAt after
      if handle.length > 1 && handle.getLast? == some '!' then
        if suffix.isEmpty then none
        pure (Token.tag (Text.ofChars handle) suffix, after)
      else
        let suffix := Text.ofChars (handle.drop 1) ++ suffix
        pure (if suffix.isEmpty then Token.tag [] "!" else Token.tag "!" suffix, after)
  if endsWord p.rest then some ⟨token, p, false⟩ else none

/-- One or two digits. -/
def versionNumber? (p : Place) : Option (Nat × Place) := do
  let digits := p.rest.takeWhile Char.isDigit
  if digits.length > 2 then none
  return (← readBase? 10 (Text.ofChars digits), p.skip digits.length)

def directiveValue (name : List Char) (p : Place) : Option (Token × Place) := do
  let p := p.skipWhile isBlank
  if name == "YAML".toList then
    let (major, p) ← versionNumber? p
    if !p.sees '.' then none
    let (minor, p) ← versionNumber? p.next
    return (.version major minor, p)
  else if name == "TAG".toList then
    if !p.sees '!' then none
    let (handle, p) := handleAt p
    if handle.length > 1 && handle.getLast? != some '!' then none
    if !p.rest.head?.any isBlank then none
    let (start, p) ← uriAt (p.skipWhile isBlank)
    if start.isEmpty || !endsWord p.rest then none
    return (.handle (Text.ofChars handle) start, p)
  else none

/-- A directive with the rest of its line. -/
def directiveAt (p : Place) : Option Piece := do
  let name := nameAt p.next
  let p := p.skip (name.length + 1)
  if name.isEmpty || !endsWord p.rest then none
  let (token, p) ← directiveValue name p
  let p := (p.skipWhile isBlank).skipComment
  if endsLine p.rest then some ⟨token, p.next, true⟩ else none

end CellScript.Settings.Yaml
