import Tapestry.Program
import Tapestry.Proofs.Trace

/-!
# Steps of the program

The program is put together from a few steps that show a notice, write to the standard output,
evaluate a text or read the manifest. Each of them is given an equation that says what becomes of
the transcript. A text is evaluated on the files as they are then, and leaves only files behind, so
neither the output nor the notices have any influence on what comes later.

## Key results

- `attempt_eq`: evaluating a text is `run` on the files of the transcript
- `seededManifest_eq`: the manifest is read from the files, which stay as they are
-/

namespace Tapestry

/-- What is left of the run of a text that denotes an expression. -/
theorem run_of_parse {registry : Registry} {text : String} {e : Expr} (h : parse text = .ok e)
    (seed : Option Image) (files : Workspace) :
    run registry text seed files =
      match e.evaluate registry seed (.fresh files) with
      | .ok image c => (.ok image, c.files)
      | .error error c => (.error (.evaluation error), c.files) := by
  cases hresult : e.evaluate registry seed (.fresh files) with
  | ok image c => simp only [run, h, hresult]
  | error error c => simp only [run, h, hresult]

namespace Program

variable (t : Transcript)

/-- A notice is added to those that were shown. -/
theorem notify_eq (notice : Notice) :
    notify notice t = .ok () { t with notices := t.notices ++ [notice] } := rfl

/-- A text is printed behind what was printed before. -/
theorem print_eq (text : String) :
    print text t = .ok () { t with output := t.output ++ text } := rfl

/-- Running a text changes files and nothing else, and its failure is a result. -/
theorem attempt_eq (registry : Registry) (text : String) (seed : Option Image) :
    attempt registry text seed t =
      .ok (Tapestry.run registry text seed t.files).1
        { t with files := (Tapestry.run registry text seed t.files).2 } := rfl

/-- What was computed is returned. -/
theorem ofExcept_ok {α : Type} (a : α) : ofExcept (.ok a) t = .ok a t := rfl

/-- A failure ends the program where it is. -/
theorem ofExcept_error {α : Type} (e : Failure) :
    (ofExcept (.error e) : ProgramM α) t = .error e t := rfl

/-- The manifest of the working directory, with the options of a request. -/
def manifestFor (options : SeedOptions) (files : Workspace) : Except Failure Manifest := do
  let found ← Manifest.find files (Location.path files.current)
  ((found.getD .standard).withSeedOptions options.size options.noSeed).mapError .config

/-- Reading the manifest changes nothing. -/
theorem seededManifest_eq (options : SeedOptions) :
    seededManifest options t = ofExcept (manifestFor options t.files) t := by
  have hfiles : files t = .ok t.files t := rfl
  rw [seededManifest, manifest, bind_assoc, bind_ok hfiles, bind_assoc, manifestFor]
  cases Manifest.find t.files (Location.path t.files.current) with
  | error e => exact bind_error (ofExcept_error t e) _
  | ok found => exact bind_ok (ofExcept_ok t found) _

end Program

end Tapestry
