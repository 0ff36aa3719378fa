import Tapestry.Manifest
import Tapestry.Run
import Tapestry.Terminal

/-!
# Transcripts

What a run of the program leaves behind: the files, the text on the standard output, and the notices
shown beside it. A step of the program may fail; what it wrote and showed before stays.
-/

namespace Tapestry

/-- What a run of the program leaves behind. -/
structure Transcript where
  files : Workspace
  output : String
  notices : List Notice

/-- A step of the program. -/
abbrev ProgramM := EStateM Failure Transcript

namespace Program

/-- Show a notice. -/
def notify (notice : Notice) : ProgramM Unit :=
  modify fun t => { t with notices := t.notices ++ [notice] }

/-- Show a status line. -/
def say (terminal : Terminal) (tone : Tone) (verb message : String) : ProgramM Unit :=
  notify (.line (terminal.line tone verb message))

/-- Show the report of a failure. -/
def report (failure : Failure) : ProgramM Unit := notify (.report failure.diagnostic)

/-- Write to the standard output. -/
def print (text : String) : ProgramM Unit :=
  modify fun t => { t with output := t.output ++ text }

/-- The files as they are now. -/
def files : ProgramM Workspace := do return (← get).files

/-- Go on with the value of a pure computation, or fail as it does. -/
def ofExcept {α : Type} (result : Except Failure α) : ProgramM α :=
  match result with
  | .ok a => pure a
  | .error e => throw e

/-- Evaluate a text and answer its image or its failure, without failing. -/
def attempt (registry : Registry) (text : String) (seed : Option Image) :
    ProgramM (Except Failure Image) := do
  let t ← get
  let (result, files) := run registry text seed t.files
  set { t with files }
  pure result

/-- The manifest of the working directory, or the standard one. -/
def manifest : ProgramM Manifest := do
  let files ← files
  let found ← ofExcept (Manifest.find files (Location.path files.current))
  pure (found.getD .standard)

end Program

end Tapestry
