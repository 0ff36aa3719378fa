import Tapestry.CommandLine.Read
import Tapestry.Program.Batch
import Tapestry.Program.Check
import Tapestry.Program.Completion
import Tapestry.Program.Listing
import Tapestry.Program.Repl

/-!
# The program

A request is carried out on the files and the input that the program was started with. `Program.run`
gives the result together with everything that was written and shown on the way.
-/

namespace Tapestry.Program

/-- Carry out a request. -/
def perform (terminal : Terminal) (input : List Answer) : Request → ProgramM Unit
  | .render expr output seed scale => render terminal expr output seed scale
  | .check expr json => check terminal expr json
  | .repl seed => repl terminal seed input
  | .batch paths output => batch terminal paths output
  | .list kind => list terminal kind
  | .completions shell => print (Completion.script shell)

/-- Carry out a request on some files: the result, and what the run leaves behind. -/
def run (terminal : Terminal) (input : List Answer) (files : Workspace) (request : Request) :
    Except Failure Unit × Transcript :=
  match perform terminal input request { files, output := "", notices := [] } with
  | .ok () t => (.ok (), t)
  | .error e t => (.error e, t)

end Tapestry.Program
