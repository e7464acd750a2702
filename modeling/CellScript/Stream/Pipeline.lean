import CellScript.Plan.Basic
import CellScript.Script.Eval
import CellScript.Script.Parser

/-! Compiled plans. -/
namespace CellScript

structure Pipeline where
  plan : Plan
  filter : Option Script.Formula
  body : Option Script.Program
  afterFilter : Option Script.Formula
  projection : List Script.Formula
  deriving Inhabited

namespace Pipeline

/-- Name the stage whose code cannot be compiled. -/
def inStage {α : Type} (stage : Stage) : Except Script.Error α → Except Plan.Error α
  | .ok a => .ok a
  | .error error => .error (.script stage error)

def formula? (stage : Stage) : Option Text → Except Plan.Error (Option Script.Formula)
  | none => .ok none
  | some code => (inStage stage (Script.Formula.compile code)).map some

def program? (stage : Stage) : Option Text → Except Plan.Error (Option Script.Program)
  | none => .ok none
  | some code => (inStage stage (Script.Program.compile code)).map some

def compile (p : Plan) : Except Plan.Error Pipeline := do
  let filter ← formula? .filter p.filter
  let body ← program? .statement p.body
  let afterFilter ← formula? .afterFilter p.afterFilter
  let projection ← p.projection.mapM fun code => inStage .select (Script.Formula.compile code)
  return { plan := p, filter, body, afterFilter, projection }

end Pipeline
end CellScript
