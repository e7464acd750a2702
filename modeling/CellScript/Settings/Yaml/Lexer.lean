import CellScript.Settings.Yaml.Token

/-! Reading a text token by token. What a token means can hang on a colon that comes later on its
line: until then a token is a possible key, and a key and the start of a mapping are set in front of
it once the colon is there. -/
namespace CellScript.Settings.Yaml

/-- A token that may turn out to be a key, or to start one. -/
structure Candidate where
  /-- How many tokens stand before it. -/
  number : Nat
  place : Place
  /-- Whether nothing but a key can stand here. -/
  required : Bool
  /-- Whether it is an empty collection, which is a key only if the colon follows at once. -/
  empty : Bool := false

/-- Whether a key that starts at the candidate can still end here: on the same line and not too far
off. -/
def Candidate.reaches (c : Candidate) (p : Place) : Bool :=
  c.place.line == p.line && p.index ≤ c.place.index + 1024

/-- A collection in brackets, or the text outside of them. -/
structure Level where
  candidate : Option Candidate := none
  /-- The number of the bracket, or of the last candidate if there was one. -/
  number : Nat := 0

/-- A token with what is set in front of it. -/
structure Slot where
  before : List Token := []
  token : Token

/-- A text that has been read up to a place. -/
structure Lexer where
  place : Place
  slots : List Slot := []
  /-- The columns of the block collections, the innermost first. -/
  columns : List Nat := []
  level : Level := {}
  /-- The levels around the current one, the innermost first. -/
  outer : List Level := []
  /-- Whether a key may start here. -/
  fresh : Bool := true

namespace Lexer

def inFlow (l : Lexer) : Bool := !l.outer.isEmpty

/-- The least column of the lines that go on with what the current line starts. -/
def least (l : Lexer) : Nat := (l.columns.head?.map (· + 1)).getD 0

def push (l : Lexer) (t : Token) : Lexer := { l with slots := l.slots ++ [⟨[], t⟩] }

def mark (l : Lexer) (length : Nat) (t : Token) : Lexer :=
  { l.push t with place := l.place.skip length }

/-- Add a token that has been read, and go past a comment behind it on its line. -/
def add (l : Lexer) (p : Piece) : Lexer :=
  { l.push p.token with place := if p.broken then p.place else p.place.skipComment }

/-- Add a token of one character, and go past a comment behind it. -/
def take (l : Lexer) (t : Token) : Lexer := l.add ⟨t, l.place.next, false⟩

/-- End the block collections that start at a column or right of it. -/
def close (column : Nat) (l : Lexer) : Lexer :=
  if l.inFlow then l
  else
    let closed := l.columns.takeWhile (column ≤ ·)
    { l with
      slots := l.slots ++ closed.map fun _ => ⟨[], .blockEnd⟩
      columns := l.columns.drop closed.length }

/-- Whether a block collection starts at a column. -/
def opens (l : Lexer) (column : Nat) : Bool := !l.inFlow && l.columns.head?.all (· < column)

/-- Start a block collection at the place, if it is right of the current one. -/
def openHere (l : Lexer) (t : Token) : Lexer :=
  if l.opens l.place.column then { l.push t with columns := l.place.column :: l.columns } else l

/-- Give up the candidate of the level. A required one must not be given up. -/
def dropCandidate (l : Lexer) : Option Lexer :=
  if l.level.candidate.any (·.required) then none
  else some { l with level := { l.level with candidate := none } }

/-- Make the next token the candidate of the level, if a key may start there. -/
def noteCandidate (l : Lexer) : Option Lexer :=
  if !l.fresh then some l
  else do
    let required := !l.inFlow && l.columns.head? == some l.place.column
    let l ← l.dropCandidate
    let number := l.slots.length
    return { l with level := ⟨some ⟨number, l.place, required, false⟩, number⟩ }

/-- Comments on lines of their own, up to the end of the last one. -/
def skipComments : (fuel : Nat) → Place → Place
  | 0, p => p
  | fuel + 1, p =>
    let p := p.lineEnd
    let next := p.skipWhile fun c => isBlank c || c == '\n' || c == '\r'
    if next.sees '#' then skipComments fuel next else p

/-- Go on to the next content. A tab is no indentation where a key may start. After the end of a
line a key may start, except in brackets. -/
def skipGap : (fuel : Nat) → Lexer → Lexer
  | 0, l => l
  | fuel + 1, l =>
    let p := l.place
    let p := if p.column == 0 && p.sees byteOrderMark then p.next else p
    let p := p.skipWhile fun c => c == ' ' || (c == '\t' && (l.inFlow || !l.fresh))
    let p := if p.sees '#' then skipComments p.rest.length p else p
    if p.rest.head?.any isBreak then
      skipGap fuel { l with place := p.next, fresh := l.fresh || !l.inFlow }
    else { l with place := p }

/-- End all block collections in front of a line that is no content. -/
def endContent (l : Lexer) : Option Lexer := do
  return { ← (l.close 0).dropCandidate with fresh := false }

def openFlow (l : Lexer) (t : Token) : Option Lexer := do
  let l ← l.noteCandidate
  let inner := { l with level := ⟨none, l.slots.length⟩, outer := l.level :: l.outer, fresh := true }
  return inner.take t

def closeFlow (l : Lexer) (t : Token) : Option Lexer := do
  let l ← l.dropCandidate
  let l := match l.outer with
    | [] => l
    | level :: outer =>
      let candidate := level.candidate.map fun c : Candidate =>
        { c with empty := c.empty || c.number == l.level.number }
      { l with level := { level with candidate := candidate }, outer := outer }
  return { l.take t with fresh := false }

def item (l : Lexer) : Option Lexer := do
  if !l.inFlow && !l.fresh then none
  let l ← (l.openHere .blockSequence).dropCandidate
  return { l.mark 1 .item with fresh := true }

def key (l : Lexer) : Option Lexer := do
  if !l.inFlow && !l.fresh then none
  let l ← (l.openHere .blockMapping).dropCandidate
  return { l.take .key with fresh := !l.inFlow }

/-- Make a candidate the key it is. It starts a mapping if it stands right of the current one. -/
def settle (l : Lexer) (c : Candidate) : Lexer :=
  let opened := l.opens c.place.column
  let before := if opened then [.blockMapping, .key] else [.key]
  let l := { l with
    columns := if opened then c.place.column :: l.columns else l.columns
    level := { l.level with candidate := none } }
  if c.empty && c.number + 2 < l.slots.length then
    { l with slots := l.slots ++ before.map fun t => ⟨[], t⟩ }
  else { l with slots := l.slots.modify c.number fun s => { s with before := before } }

/-- The colon of a value: behind the candidate, or behind a key that has a mark. -/
def value (l : Lexer) : Option Lexer :=
  match l.level.candidate with
  | some c =>
    if c.reaches l.place then some { (l.settle c).take .value with fresh := false }
    else if c.required then none
    else marked
  | none => marked
where
  marked : Option Lexer := do
    if !l.inFlow && !l.fresh then none
    let l := { l with level := { l.level with candidate := none } }
    return { (l.openHere .blockMapping).take .value with fresh := !l.inFlow }

def named (l : Lexer) (piece : Option Piece) : Option Lexer := do
  return { (← l.noteCandidate).add (← piece) with fresh := false }

/-- A scalar that may be a key. -/
def scalar (l : Lexer) (reading : Option Reading) (plain : Bool) : Option Lexer := do
  let r ← reading
  let piece : Piece := ⟨.scalar (Text.ofChars r.chars) plain, r.place, r.broken⟩
  return { (← l.noteCandidate).add piece with fresh := r.broken }

/-- A block scalar, after which a line starts. -/
def block (l : Lexer) (folded : Bool) : Option Lexer := do
  let r ← blockScalar folded l.columns.head? l.place
  return { (← l.dropCandidate).add ⟨.scalar (Text.ofChars r.chars) false, r.place, true⟩ with
    fresh := true }

/-- Whether a plain scalar starts with a character. -/
def startsPlain (l : Lexer) (c : Char) (rest : List Char) : Bool :=
  if c == '-' then !rest.head?.any isBlank
  else if c == '?' || c == ':' then !l.inFlow && !endsWord rest
  else !isGap c && !",[]\x7b\x7d#&*!|>'\"%@`".toList.contains c

/-- The token that starts with a character, without a comment behind it. -/
def content (l : Lexer) (c : Char) (rest : List Char) : Option Lexer :=
  let isMark := l.inFlow || endsWord rest
  match c with
  | '[' => l.openFlow .flowSequence
  | '{' => l.openFlow .flowMapping
  | ']' => l.closeFlow .flowSequenceEnd
  | '}' => l.closeFlow .flowMappingEnd
  | ',' => do return { (← l.dropCandidate).take .comma with fresh := true }
  | '*' => l.named (anchorAt .reference l.place)
  | '&' => l.named (anchorAt .anchor l.place)
  | '!' => l.named (tagAt l.place)
  | '\'' => l.scalar (quotedScalar false l.place) false
  | '"' => l.scalar (quotedScalar true l.place) false
  | _ =>
    if c == '?' && isMark then l.key
    else if c == ':' && isMark then l.value
    else if c == '|' && !l.inFlow then l.block false
    else if c == '>' && !l.inFlow then l.block true
    else if l.startsPlain c rest then l.scalar (plainScalar l.inFlow l.least l.place) true
    else none

def isOver (l : Lexer) : Bool := l.slots.getLast?.any (·.token == .streamEnd)

def step (l : Lexer) : Option Lexer := do
  let l := l.skipGap (l.place.rest.length + 1)
  let l := l.close (l.place.column + 1)
  match l.place.rest with
  | [] => return (← l.endContent).push .streamEnd
  | c :: rest =>
    if c == '%' && l.place.column == 0 then
      let l ← l.endContent
      let piece ← directiveAt l.place
      return { l.push piece.token with place := piece.place }
    else if l.place.seesThree '-' then return (← l.endContent).mark 3 .documentStart
    else if l.place.seesThree '.' then return (← l.endContent).mark 3 .documentEnd
    else if c == '-' && endsWord rest then l.item
    else l.content c rest

def tokens (l : Lexer) : List Token := l.slots.flatMap fun s => s.before ++ [s.token]

/-- The tokens up to a fault. A candidate that a colon could have followed stays unsettled. -/
def stopped (l : Lexer) : List Token :=
  let isOpen (c : Candidate) : Bool := !c.empty && c.reaches l.place
  let numbers := ((l.level :: l.outer).filterMap (·.candidate)).filter isOpen |>.map (·.number)
  let slots := numbers.foldl
    (fun slots n => slots.modify n fun s => { s with token := .unsettled }) l.slots
  { l with slots := slots }.tokens ++ [.fault]

/-- Read on to the end of the text, or to a fault. -/
def run : (fuel : Nat) → Lexer → List Token
  | 0, l => l.stopped
  | fuel + 1, l =>
    if l.isOver then l.tokens
    else match l.step with
      | some l => run fuel l
      | none => l.stopped

end Lexer

def Token.scan (cs : List Char) : List Token := Lexer.run (cs.length + 2) { place := { rest := cs } }

end CellScript.Settings.Yaml
