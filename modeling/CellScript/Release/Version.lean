import CellScript.Number.Decimal
import CellScript.Text.Quoted

/-! Version numbers and their order. -/
namespace CellScript.Release

/-- A version: at least three numbers, a pre-release mark, and build metadata without meaning. -/
structure Version where
  segments : List Int64
  /-- How many numbers were written. -/
  written : Nat
  pre : Text
  metadata : Text
  deriving DecidableEq

inductive Version.Error where
  | malformed (text : Text)
  | segment (digits : Text)
  deriving DecidableEq

def Version.Error.message : Version.Error → Text
  | malformed text => "malformed version: " ++ text
  | segment digits =>
    "error parsing version: strconv.ParseInt: parsing " ++ digits.quote ++ ": value out of range"

/-- The bytes of pre-release marks and metadata, dots aside. -/
def isMarkByte (b : UInt8) : Bool :=
  Text.isDigit b || Text.isLower b || Text.isUpper b || b == Text.ascii '-' || b == Text.ascii '~'

def isMarks (t : Text) : Bool :=
  (Text.splitOn "." t).all fun part => !part.isEmpty && part.all isMarkByte

/-- The pre-release mark that a version has after its numbers: a hyphen and marks. The hyphen may be
missing in front of a mark that does not start with a digit. -/
def preRelease? (t : Text) : Option Text :=
  let startsPlain (t : Text) : Bool :=
    match t with
    | b :: _ => isMarkByte b && !Text.isDigit b
    | [] => false
  match t with
  | [] => some []
  | b :: rest =>
    if b == Text.ascii '-' && !rest.isEmpty && isMarks rest then some rest
    else if startsPlain t && isMarks t then some t
    else none

/-- The numbers at the front of a text, with dots between them, and the rest. A dot without a number
after it belongs to the rest. -/
def takeSegments : (fuel : Nat) → Text → List Text × Text
  | 0, t => ([], t)
  | fuel + 1, t =>
    let digits := t.takeWhile Text.isDigit
    let rest := t.drop digits.length
    match rest with
    | dot :: next :: _ =>
      if dot == Text.ascii '.' && Text.isDigit next then
        let (more, rest) := takeSegments fuel (rest.drop 1)
        (digits :: more, rest)
      else ([digits], rest)
    | _ => ([digits], rest)

/-- The parts of a version text: its numbers, its pre-release mark, its metadata. -/
def splitVersion? (t : Text) : Option (List Text × Text × Text) := do
  let t := if t.head? == some (Text.ascii 'v') then t.drop 1 else t
  let (numbers, rest) := takeSegments t.length t
  if (numbers.headD []).isEmpty then none
  let mark := rest.takeWhile (· != Text.ascii '+')
  let pre ← preRelease? mark
  match rest.drop mark.length with
  | [] => some (numbers, pre, [])
  | _ :: metadata => if isMarks metadata then some (numbers, pre, metadata) else none

def readSegments : List Text → Except Version.Error (List Int64)
  | [] => .ok []
  | digits :: rest =>
    match Number.readInt digits with
    | .ok n => do return n :: (← readSegments rest)
    | .error _ => .error (.segment digits)

/-- Read a version. Missing numbers up to the third are zero. -/
def Version.read (t : Text) : Except Version.Error Version := do
  match splitVersion? t with
  | none => .error (.malformed t)
  | some (numbers, pre, metadata) =>
    let segments ← readSegments numbers
    return ⟨segments ++ List.replicate (3 - segments.length) 0, numbers.length, pre, metadata⟩

def Version.text (v : Version) : Text :=
  Text.join "." (v.segments.map fun n => Text.ofInt n.toInt) ++
    (if v.pre.isEmpty then [] else Text.ascii '-' :: v.pre) ++
    (if v.metadata.isEmpty then [] else Text.ascii '+' :: v.metadata)

/-- The order of two different parts of pre-release marks. Numbers come before words; a missing part
comes before a number and after a word. -/
def comparePart (a b : Text) : Ordering :=
  let number (t : Text) : Option Int64 := (Number.readInt t).toOption
  if a == b then .eq
  else if a.isEmpty then if (number b).isSome then .lt else .gt
  else if b.isEmpty then if (number a).isSome then .gt else .lt
  else match number a, number b with
    | some _, none => .lt
    | none, some _ => .gt
    | none, none => if b < a then .gt else .lt
    | some m, some n => if n < m then .gt else .lt

/-- The order of pre-release marks, part by part. -/
def compareParts : List Text → List Text → Ordering
  | [], [] => .eq
  | [], b :: bs => (comparePart [] b).then (compareParts [] bs)
  | a :: as, [] => (comparePart a []).then (compareParts as [])
  | a :: as, b :: bs => (comparePart a b).then (compareParts as bs)

/-- The order of numbers; missing ones are zero. -/
def compareSegments : List Int64 → List Int64 → Ordering
  | [], bs => if bs.all (· == 0) then .eq else .lt
  | as, [] => if as.all (· == 0) then .eq else .gt
  | a :: as, b :: bs => if a < b then .lt else if b < a then .gt else compareSegments as bs

/-- The order of versions. Pre-release marks count only between the same numbers. -/
def Version.compare (v w : Version) : Ordering :=
  if v.segments == w.segments then
    if v.pre.isEmpty && w.pre.isEmpty then .eq
    else if v.pre.isEmpty then .gt
    else if w.pre.isEmpty then .lt
    else compareParts (Text.splitOn "." v.pre) (Text.splitOn "." w.pre)
  else compareSegments v.segments w.segments

end CellScript.Release
