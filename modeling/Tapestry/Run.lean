import Tapestry.Evaluation
import Tapestry.Expr.Parse
import Tapestry.Failure

/-!
# Running a text

Read an expression and evaluate it in a fresh context. Nothing but the files is left of a run, so
runs one after the other share no handles.
-/

namespace Tapestry

/-- The image of the expression that a text holds, and the files afterwards. Files that were written
    before a failure stay. -/
def run (registry : Registry) (text : String) (seed : Option Image) (files : Workspace) :
    Except Failure Image × Workspace :=
  match parse text with
  | .error e => (.error (.parse e), files)
  | .ok expr =>
    match expr.evaluate registry seed (.fresh files) with
    | .ok image c => (.ok image, c.files)
    | .error e c => (.error (.evaluation e), c.files)

end Tapestry
