import CellScript.Release.Version

/-! Constraints on versions. -/
namespace CellScript.Release

inductive Relation where
  | equal
  | notEqual
  | greater
  | less
  | atLeast
  | atMost
  /-- At least the given version, with all its numbers but the last. -/
  | pessimistic
  deriving DecidableEq

/-- A relation to a version. -/
structure Constraint where
  relation : Relation
  version : Version
  deriving DecidableEq

/-- Why a version does not do. -/
inductive Error where
  | malformedConstraint (whole part : Text)
  | constraintVersion (whole : Text) (error : Version.Error)
  | version (error : Version.Error)
  | incompatible (current : Version) (whole : Text)
  deriving DecidableEq

def Error.message : Error → Text
  | malformedConstraint whole part =>
    "invalid version constraint " ++ whole.quote ++ ": malformed constraint: " ++ part
  | constraintVersion whole error =>
    "invalid version constraint " ++ whole.quote ++ ": " ++ error.message
  | version error => "invalid version format: " ++ error.message
  | incompatible v whole =>
    "incompatible csv-eval version: have " ++ v.text ++ ", need " ++ whole

def relations : List (Text × Relation) :=
  [("!=", .notEqual), (">=", .atLeast), ("<=", .atMost), ("~>", .pessimistic), ("=", .equal),
    (">", .greater), ("<", .less), ("", .equal)]

/-- The blanks that may stand around the parts of a constraint. -/
def isGapByte (b : UInt8) : Bool := Text.isBlank b || b == 12

/-- A text without the blanks at its two ends. -/
def trimGaps (t : Text) : Text := ((t.dropWhile isGapByte).reverse.dropWhile isGapByte).reverse

def readConstraint (whole part : Text) : Except Error Constraint :=
  let t := trimGaps part
  match relations.find? fun r => r.1.isPrefixOf t with
  | none => .error (.malformedConstraint whole part)
  | some (sign, relation) =>
    match Version.read (trimGaps (t.drop sign.length)) with
    | .ok v => .ok ⟨relation, v⟩
    | .error (.malformed _) => .error (.malformedConstraint whole part)
    | .error error => .error (.constraintVersion whole error)

def readConstraints (whole : Text) : Except Error (List Constraint) :=
  (Text.splitOn "," whole).mapM (readConstraint whole)

/-- Whether the pre-release marks let two versions be compared: a marked version is only comparable
to a marked one with the same numbers. -/
def comparable (v w : Version) : Bool :=
  v.pre.isEmpty || (!w.pre.isEmpty && v.segments == w.segments)

/-- Whether a version is at least w and agrees with all of its written numbers but the last. -/
def isPessimistic (v w : Version) : Bool :=
  comparable v w && (w.pre.isEmpty || !v.pre.isEmpty) && v.compare w != .lt &&
    w.segments.length ≤ v.segments.length &&
    v.segments.take (w.written - 1) == w.segments.take (w.written - 1) &&
    (match w.segments.getLast?, v.segments[w.segments.length - 1]? with
      | some a, some b => a ≤ b
      | _, _ => true)

def Constraint.admits (c : Constraint) (v : Version) : Bool :=
  let order := v.compare c.version
  match c.relation with
  | .equal => order == .eq
  | .notEqual => order != .eq
  | .greater => comparable v c.version && order == .gt
  | .less => comparable v c.version && order == .lt
  | .atLeast => comparable v c.version && order != .lt
  | .atMost => comparable v c.version && order != .gt
  | .pessimistic => isPessimistic v c.version

/-- Check a version against constraints. No constraint at all always holds. -/
def check (current constraint : Text) : Except Error Unit := do
  if constraint.isEmpty then return
  let constraints ← readConstraints constraint
  match Version.read current with
  | .error error => .error (.version error)
  | .ok v => if constraints.all (·.admits v) then .ok () else .error (.incompatible v constraint)

end CellScript.Release
