import CellScript.Settings.Tree
import CellScript.Settings.Yaml.Character

/-! The texts of scalars: plain, in quotes, and in blocks. -/
namespace CellScript.Settings.Yaml

/-- Whether no tab of a gap stands left of a column, once a line has ended. The column of the gap is
known from there on. -/
def tabsFit (least : Nat) : (column : Option Nat) → List Char → Bool
  | _, [] => true
  | column, c :: rest =>
    if isBreak c then tabsFit least (some 0) rest
    else !(c == '\t' && column.any (· < least)) && tabsFit least (column.map (· + 1)) rest

/-- The breaks of a gap as content. -/
def breaksOf (gap : List Char) : List Char := (gap.filter isBreak).map breakText

/-- What a gap between words comes to: blanks are kept, one line feed is a space, and of several
the first goes. -/
def foldGap (gap : List Char) : List Char :=
  match breaksOf gap with
  | [] => gap
  | ['\n'] => [' ']
  | '\n' :: more => more
  | breaks => breaks

/-- The run of blanks and breaks that comes next. -/
def gapAt (p : Place) : List Char := p.rest.takeWhile isGap

/-- A word of a plain scalar. It ends at a colon that ends a word, and inside brackets at the marks
of collections and keys. -/
def plainWord (flow : Bool) : List Char → List Char
  | [] => []
  | c :: rest =>
    if isGap c || (c == ':' && endsWord rest) || (flow && ",?[]\x7b\x7d".toList.contains c) then []
    else c :: plainWord flow rest

/-- A scalar as read: its characters, the place after it, and whether lines ended behind it. -/
structure Reading where
  chars : List Char
  place : Place
  broken : Bool := false

def Reading.prepend (cs : List Char) (r : Reading) : Reading := { r with chars := cs ++ r.chars }

/-- The words of a plain scalar after a gap. Outside of brackets they stand at least at a column. -/
def plainWords (flow : Bool) (least : Nat) : (fuel : Nat) → (gap : List Char) → Place → Option Reading
  | 0, _, _ => none
  | fuel + 1, gap, p =>
    let ended : Reading := ⟨[], p, gap.any isBreak⟩
    let word := plainWord flow p.rest
    if p.seesMarker || p.sees '#' || word.isEmpty then some ended
    else
      let p := p.skip word.length
      let next := gapAt p
      let after := p.skip next.length
      if !tabsFit least none next then none
      else if next.isEmpty || (!flow && after.column < least) then
        some ⟨foldGap gap ++ word, after, next.any isBreak⟩
      else (plainWords flow least fuel next after).map (·.prepend (foldGap gap ++ word))

def plainScalar (flow : Bool) (least : Nat) (p : Place) : Option Reading :=
  plainWords flow least (p.rest.length + 1) [] p

def escapes : List (Char × Nat) :=
  [('0', 0), ('a', 7), ('b', 8), ('t', 9), ('\t', 9), ('n', 10), ('v', 11), ('f', 12), ('r', 13),
    ('e', 27), (' ', 32), ('"', 34), ('\'', 39), ('\\', 92), ('N', 0x85), ('_', 0xA0), ('L', 0x2028),
    ('P', 0x2029)]

def escapeDigits (letter : Char) : Nat :=
  if letter == 'x' then 2 else if letter == 'u' then 4 else if letter == 'U' then 8 else 0

/-- The character of an escape after its backslash, and how many characters the escape takes. -/
def escape? (rest : List Char) : Option (Char × Nat) := do
  let letter ← rest.head?
  match escapes.find? fun e => e.1 == letter with
  | some (_, code) => some (Char.ofNat code, 1)
  | none =>
    let count := escapeDigits letter
    let digits := ((rest.drop 1).take count).map Char.toNat
    if count == 0 || digits.length < count || digits.any (0x7F < ·) then none
    let n ← readBase? 16 (digits.map UInt8.ofNat)
    if n.isValidChar then some (Char.ofNat n, count + 1) else none

/-- The rest of a literal in quotes, after the opening one. In single quotes a quote is written
twice; in double quotes a backslash escapes, also the end of a line. No line of it starts or ends a
document. -/
def quotedRest (double : Bool) : (fuel : Nat) → Place → Option Reading
  | 0, _ => none
  | fuel + 1, p =>
    let goOn (cs : List Char) (p : Place) : Option Reading :=
      if p.seesMarker then none else (quotedRest double fuel p).map (·.prepend cs)
    match p.rest with
    | [] => none
    | c :: rest =>
      if isGap c then goOn (foldGap (gapAt p)) (p.skip (gapAt p).length)
      else if double then
        if c == '"' then some ⟨[], p.next, false⟩
        else if c != '\\' then goOn [c] p.next
        else if rest.head?.any isBreak then
          let after := p.skip 2
          goOn (breaksOf (gapAt after)) (after.skip (gapAt after).length)
        else do
          let (decoded, length) ← escape? rest
          goOn [decoded] (p.skip (length + 1))
      else if c != '\'' then goOn [c] p.next
      else if rest.head? == some '\'' then goOn [c] (p.skip 2)
      else some ⟨[], p.next, false⟩

def quotedScalar (double : Bool) (p : Place) : Option Reading :=
  quotedRest double (p.rest.length + 1) p.next

/-- What becomes of the breaks at the end of a block scalar. -/
inductive Chomping where
  | clip
  | strip
  | keep
  deriving DecidableEq

/-- The head of a block scalar up to the end of its line: a sign for the breaks at its end and a
digit for its indentation, in either order, and perhaps a comment. -/
def blockHead (p : Place) : Option (Chomping × Option Nat × Place) :=
  let isSign (c : Char) : Bool := c == '+' || c == '-'
  let (first, p) := p.take? isSign
  let (digit, p) := p.take? Char.isDigit
  let (second, p) := if first.isNone && digit.isSome then p.take? isSign else (none, p)
  let p := p.skipWhile isBlank
  let p := if p.sees '#' then p.lineEnd else p
  if digit == some '0' || !endsLine p.rest then none
  else
    let chomping := match first.or second with
      | some c => if c == '+' then .keep else .strip
      | none => .clip
    some (chomping, digit.map fun d => d.toNat - 48, p.next)

/-- Go past empty lines and the indentation of the next line: the breaks, the greatest column
reached, and the place. No tab stands in the indentation, which may not be known yet. -/
def blockGap (indent : Option Nat) : (fuel : Nat) → Place → Option (List Char × Nat × Place)
  | 0, _ => none
  | fuel + 1, p =>
    let depth := (p.rest.takeWhile (· == ' ')).length
    let p := p.skip (match indent with
      | some n => min depth (n - p.column)
      | none => depth)
    if p.sees '\t' && indent.all (p.column < ·) then none
    else match p.rest with
      | [] => some ([], p.column, p)
      | c :: _ =>
        if isBreak c then do
          let (breaks, deepest, q) ← blockGap indent fuel p.next
          return (breakText c :: breaks, max p.column deepest, q)
        else some ([], p.column, p)

/-- The lines of a block scalar, as long as they are indented. Between two lines stand the break of
the first and the empty lines after it; in a folded scalar the break of a line without a blank in
front is a space before another such line, and goes before an empty one. The end of the last line
is left to the chomping. -/
def blockLines (folded : Bool) (indent : Nat) (chomping : Chomping) : (fuel : Nat) →
    (ending breaks : List Char) → (indented : Bool) → Place → Option Reading
  | 0, _, _, _, _ => none
  | fuel + 1, ending, breaks, indented, p =>
    if p.column == indent && !p.rest.isEmpty then do
      let blank := p.rest.head?.any isBlank
      let joint :=
        if folded && !indented && !blank && ending == ['\n'] then
          if breaks.isEmpty then [' '] else breaks
        else ending ++ breaks
      let line := p.rest.takeWhile fun c => !isBreak c
      let p := p.skip line.length
      let ending := (p.rest.take 1).map breakText
      let (breaks, _, p) ← blockGap (some indent) (p.rest.length + 1) p.next
      return (← blockLines folded indent chomping fuel ending breaks blank p).prepend (joint ++ line)
    else
      let kept := match chomping with
        | .strip => []
        | .clip => ending
        | .keep => ending ++ breaks
      some ⟨kept, p, true⟩

/-- A block scalar inside a collection at a column, if there is one. Without a digit in its head,
the first line that is not empty sets the indentation. -/
def blockScalar (folded : Bool) (outer : Option Nat) (p : Place) : Option Reading := do
  let (chomping, increment, p) ← blockHead p.next
  let given := increment.map fun n => outer.getD 0 + n
  let (breaks, deepest, p) ← blockGap given (p.rest.length + 1) p
  let indent := given.getD (max (max deepest ((outer.map (· + 1)).getD 0)) 1)
  blockLines folded indent chomping (p.rest.length + 1) [] breaks false p

end CellScript.Settings.Yaml
