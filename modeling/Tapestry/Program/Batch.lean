import Tapestry.Command
import Tapestry.Program.Transcript
import Tapestry.Script

/-!
# Evaluating scripts

Every script is evaluated in a fresh context, whatever happened to the ones before it, and reported
once. Relative path names that scripts save to lie below the output directory.
-/

namespace Tapestry.Program

/-- The scripts of a request: those that path names lead to, or the sources of the manifest when
    there are none. -/
def scriptsOf (files : Workspace) (m : Manifest) (paths : List PathName) : List PathName :=
  match paths with
  | [] => Script.scanSources files m (Location.path files.current) m.sources
  | _ => Script.collect files m paths

/-- The built-in commands, with relative path names of `save` below a directory. -/
def batchRegistry (directory : PathName) : Registry :=
  Registry.builtins.insert "save" (Command.save (some directory))

/-- Evaluate one script. -/
def evaluateScript (registry : Registry) (seed : Option Image) (script : PathName) :
    ProgramM (Except Failure Image) := do
  match Script.load (← files) script with
  | .error e => pure (.error e)
  | .ok text => attempt registry text seed

/-- Evaluate one script, report how it went, and say whether it failed. -/
def runScript (terminal : Terminal) (registry : Registry) (seed : Option Image)
    (script : PathName) : ProgramM Bool := do
  -- A script that fails is reported and counted, and the next one runs all the same.
  let shown := (← files).displayPath script
  match ← evaluateScript registry seed script with
  | .ok image =>
    say terminal .status "Evaluated" s!"{shown} {terminal.paint .dim image.size.render}"
    pure false
  | .error e =>
    say terminal .error "Failed" shown
    report e
    pure true

/-- Evaluate scripts one after the other and count those that failed. -/
def runScripts (terminal : Terminal) (registry : Registry) (seed : Option Image) :
    List PathName → ProgramM Nat
  | [] => pure 0
  | script :: scripts => do
    let failed ← runScript terminal registry seed script
    let others ← runScripts terminal registry seed scripts
    pure (if failed then others + 1 else others)

/-- Evaluate all scripts of a request; fail at the end when one of them did. -/
def batch (terminal : Terminal) (paths : List PathName) (output : Option PathName) :
    ProgramM Unit := do
  let m ← manifest
  let before ← files
  match scriptsOf before m paths with
  | [] => say terminal .warning "Skipped" "no .weave scripts found"
  | scripts =>
    -- A relative directory for the pictures starts where the program runs.
    let directory := (Location.path before.current).join (output.getD m.output)
    let failed ← runScripts terminal (batchRegistry directory) m.seedImage scripts
    if failed = 0 then say terminal .status "Finished" (Failure.scripts scripts.length)
    else throw (.batch failed scripts.length)

end Tapestry.Program
