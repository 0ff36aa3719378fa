import Tapestry.Command
import Tapestry.CommandLine.Request
import Tapestry.Program.Transcript

/-!
# Rendering one expression

Evaluate an expression on the seed image and, if a path name is given, write the image there.
-/

namespace Tapestry.Program

/-- The manifest of the working directory with the options of a request applied to it. -/
def seededManifest (options : SeedOptions) : ProgramM Manifest := do
  let m ← manifest
  ofExcept ((m.withSeedOptions options.size options.noSeed).mapError .config)

/-- Write an image to a file, enlarged by a factor. -/
def writeImage (image : Image) (path : PathName) (factor : Nat) : ProgramM Unit := fun t =>
  match Command.writePicture image path factor t.files with
  | .ok () files => .ok () { t with files }
  | .error e files => .error (.evaluation e) { t with files }

/-- Evaluate an expression with the built-in commands and show or write its image. -/
def render (terminal : Terminal) (expr : String) (output : Option PathName) (seed : SeedOptions)
    (scale : Nat) : ProgramM Unit := do
  let m ← seededManifest seed
  say terminal .status "Rendering" expr
  let image ← ofExcept (← attempt .builtins expr m.seedImage)
  let size := image.size.render
  match output with
  | none => say terminal .info "Rendered" size
  | some path =>
    writeImage image path (max scale 1)
    let shown := (← files).displayPath path
    say terminal .status "Saved" s!"{shown} {terminal.paint .dim size}"

end Tapestry.Program
