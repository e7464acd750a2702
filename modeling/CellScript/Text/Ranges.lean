/-! Sets of code points given as sorted ranges. -/
namespace CellScript.Text

/-- A set of code points as pairs of a least and a greatest member, in ascending order. -/
abbrev Ranges := List (Nat × Nat)

def Ranges.has (ranges : Ranges) (code : Nat) : Bool :=
  ranges.any fun r => r.1 ≤ code && code ≤ r.2

end CellScript.Text
