import CellScript.Command.Failure
import CellScript.Display.Block

/-! What a command prints, and whether it fails. -/
namespace CellScript.Command

/-- A compiled run over a file that goes on as long as the file changes. -/
structure Watch where
  pipeline : Pipeline
  path : Text
  debug : Bool

/-- What a command prints, whether it fails, and what it watches from then on. -/
structure Report where
  stdout : Text := []
  stderr : Text := []
  failure : Option Failure := none
  watch : Option Watch := none

namespace Report

def printed (t : Text) : Report := { stdout := t }

def noted (t : Text) : Report := { stderr := t }

def failed (f : Failure) : Report := { failure := some f }

/-- One report after another. After a failure nothing follows. -/
def andThen (first : Report) (second : Unit → Report) : Report :=
  match first.failure with
  | some _ => first
  | none =>
    let next := second ()
    { next with stdout := first.stdout ++ next.stdout, stderr := first.stderr ++ next.stderr }

def mapFailure (f : Failure → Failure) (r : Report) : Report := { r with failure := r.failure.map f }

/-- Print the failure as well. -/
def announced (r : Report) : Report :=
  match r.failure with
  | none => r
  | some f => { r with stderr := r.stderr ++ Display.message .failure f.message }

end Report
end CellScript.Command
