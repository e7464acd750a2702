import CellScript.Settings.Toml.Literal
import CellScript.Settings.Toml.Outline

/-! Reading TOML: keys with values, in sections for tables. -/
namespace CellScript.Settings.Toml

def isKeyByte (b : UInt8) : Bool := Text.isWord b || b == Text.ascii '-'

/-- A blank inside a line. -/
def isGap (b : UInt8) : Bool := b == Text.ascii ' ' || b == Text.ascii '\t'

def skipGaps (t : Text) : Text := t.dropWhile isGap

/-- Go on to the next content over breaks and comments. -/
def skipLines : (fuel : Nat) → Text → Text
  | 0, t => t
  | fuel + 1, t =>
    match t.dropWhile Text.isBlank with
    | 35 :: rest => skipLines fuel (rest.dropWhile (· != Text.ascii '\n'))
    | rest => rest

/-- A part of a key, bare or quoted, and the rest. -/
def keyPart? (t : Text) : Option (Text × Text) :=
  if t.head?.any Text.isQuote then lineString? t
  else
    let name := t.takeWhile isKeyByte
    if name.isEmpty then none else some (name, t.drop name.length)

/-- The parts of a key with dots between them, and the rest. -/
def keyParts? : (fuel : Nat) → Text → Option (List Text × Text)
  | 0, _ => none
  | fuel + 1, t => do
    let (name, rest) ← keyPart? t
    match skipGaps rest with
    | 46 :: rest =>
      let (names, rest) ← keyParts? fuel (skipGaps rest)
      return (name :: names, rest)
    | rest => return ([name], rest)

def key? (t : Text) : Option (List Text × Text) := keyParts? (t.length + 1) t

/-- Put a value under a dotted key. A key goes into the last of several tables. -/
def place (value : Tree) : List Text → List (Text × Tree) → List (Text × Tree)
  | [], entries => entries
  | [name], entries => (entries.filter fun e => e.1 != name) ++ [(name, value)]
  | name :: rest, entries =>
    let inside : Tree → Tree
      | .map inner => .map (place value rest inner)
      | .list items =>
        match items.getLast? with
        | some (.map inner) => .list (items.dropLast ++ [.map (place value rest inner)])
        | _ => .list items
      | other => other
    if entries.any fun e => e.1 == name then
      entries.map fun e => if e.1 == name then (name, inside e.2) else e
    else entries ++ [(name, .map (place value rest []))]

def get? (name : Text) (entries : List (Text × Tree)) : Option Tree :=
  (entries.find? fun e => e.1 == name).map (·.2)

def find? : List Text → List (Text × Tree) → Option Tree
  | [], _ => none
  | [name], entries => get? name entries
  | name :: rest, entries =>
    match get? name entries with
    | some (.map inner) => find? rest inner
    | some (.list items) =>
      match items.getLast? with
      | some (.map inner) => find? rest inner
      | _ => none
    | _ => none

mutual

def value : (fuel : Nat) → Text → Option (Tree × Text)
  | 0, _ => none
  | fuel + 1, t =>
    match t with
    | 91 :: rest => items fuel true [] (skipLines rest.length rest)
    | 123 :: rest => entries fuel true [] [] (skipGaps rest)
    | _ =>
      if t.head?.any Text.isQuote then (string? t).map fun (s, rest) => (.leaf (.text s), rest)
      else
        let (word, rest) := takeWord t
        (word? word).map fun s => (.leaf s, rest)

/-- The items of an array. A comma may stand behind the last one. -/
def items : (fuel : Nat) → (first : Bool) → List Tree → Text → Option (Tree × Text)
  | 0, _, _, _ => none
  | fuel + 1, first, done, t => do
    let t ← match first, t with
      | true, _ | _, 93 :: _ => pure t
      | false, 44 :: rest => pure (skipLines rest.length rest)
      | _, _ => none
    match t with
    | 93 :: rest => return (.list done, rest)
    | _ =>
      let (item, rest) ← value fuel t
      items fuel false (done ++ [item]) (skipLines rest.length rest)

/-- The entries of a table in braces, which stand on one line. -/
def entries : (fuel : Nat) → (first : Bool) → Outline → List (Text × Tree) → Text →
    Option (Tree × Text)
  | 0, _, _, _, _ => none
  | fuel + 1, first, outline, done, t => do
    match first, t with
    | _, 125 :: rest => return (.map done, rest)
    | true, _ =>
      let (name, item, rest) ← entry fuel t
      entries fuel false (← outline.addKey? name) (place item name done) (skipGaps rest)
    | false, 44 :: rest =>
      let (name, item, rest) ← entry fuel (skipGaps rest)
      entries fuel false (← outline.addKey? name) (place item name done) (skipGaps rest)
    | _, _ => none

def entry : (fuel : Nat) → Text → Option (List Text × Tree × Text)
  | 0, _ => none
  | fuel + 1, t => do
    let (name, rest) ← key? t
    let (item, rest) ← value fuel (skipGaps (← after? '=' rest))
    return (name, item, rest)

end

/-- A document that has been read in part. -/
structure Draft where
  outline : Outline := []
  tree : List (Text × Tree) := []
  /-- The table of the current section. -/
  table : List Text := []

namespace Draft

/-- Add a key with its value to the current section. -/
def add? (d : Draft) (name : List Text) (item : Tree) : Option Draft := do
  return { d with
    outline := ← d.outline.within? (Outline.addKey? name) d.table
    tree := place item (d.table ++ name) d.tree }

/-- Start a section for a table. -/
def openTable? (d : Draft) (name : List Text) : Option Draft := do
  let outline ← d.outline.within? (fun o => some (closeAll o)) d.table
  let outline ← outline.within? (Outline.addTable? (← name.getLast?)) name.dropLast
  let tree := if (find? name d.tree).isSome then d.tree else place (.map []) name d.tree
  return ⟨outline, tree, name⟩

/-- Start a section for one more of several tables. -/
def openTables? (d : Draft) (name : List Text) : Option Draft := do
  let outline ← d.outline.within? (fun o => some (closeAll o)) d.table
  let outline ← outline.within? (Outline.addTables? (← name.getLast?)) name.dropLast
  let before := match find? name d.tree with
    | some (.list items) => items
    | _ => []
  return ⟨outline, place (.list (before ++ [.map []])) name d.tree, name⟩

end Draft

/-- What is left behind a statement: nothing, or a line that ends with a comment at most. -/
def lineEnd? (t : Text) : Option Text :=
  match skipGaps t with
  | [] => some []
  | 35 :: rest => some (rest.dropWhile (· != Text.ascii '\n'))
  | rest => if rest.head? == some (Text.ascii '\n') || rest.head? == some (Text.ascii '\r')
    then some rest else none

/-- The header of a section behind its opening brackets, and the rest. -/
def header? (closing t : Text) : Option (List Text × Text) := do
  let (name, rest) ← key? (skipGaps t)
  if closing.isPrefixOf rest then some (name, rest.drop closing.length) else none

def readAll : (fuel : Nat) → Draft → Text → Option Draft
  | 0, _, _ => none
  | fuel + 1, d, t => do
    match skipLines t.length t with
    | [] => return d
    | 91 :: 91 :: rest =>
      let (name, rest) ← header? "]]" rest
      readAll fuel (← d.openTables? name) (← lineEnd? rest)
    | 91 :: rest =>
      let (name, rest) ← header? "]" rest
      readAll fuel (← d.openTable? name) (← lineEnd? rest)
    | t =>
      let (name, item, rest) ← entry (t.length + 1) t
      readAll fuel (← d.add? name item) (← lineEnd? rest)

/-- Whether every carriage return stands before a line feed. -/
def returnsFit : Text → Bool
  | [] => true
  | 13 :: 10 :: rest => returnsFit rest
  | b :: rest => b != Text.ascii '\r' && returnsFit rest

def read? (t : Text) : Option Tree := do
  if !t.isUtf8 || t.any isControl || !returnsFit t then none
  return .map (← readAll (t.length + 2) {} t).tree

end CellScript.Settings.Toml
