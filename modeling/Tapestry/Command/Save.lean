import Tapestry.Command.Transform
import Tapestry.Image.Png

/-!
# Saving

`save` writes its input to a file and passes it on. Everything that can be wrong with its arguments
is found before any directory is made, and the file is written in one step at the end. Only an image
without pixels is found out later: it has no file in the format, so what is written for it is the
mark that ends a file, and the command fails.
-/

namespace Tapestry.Command

/-- An image enlarged by a factor. -/
def enlarge (image : Image) (factor : Nat) : Except EvalError Image :=
  if factor ≤ 1 then .ok image
  else
    match requireScalable image factor with
    | .error e => .error e
    | .ok () => .ok ((Geometry.zoom factor).apply image)

/-- Make the directories above a file, as far as its path name has any. -/
def makeParents (files : Workspace) (path : PathName) : Except FileError Unit × Workspace :=
  match path.parent? with
  | some parent => files.makeDirectories parent
  | none => (.ok (), files)

/-- What is written for an image: its picture, or the end mark alone when it has no file. -/
def contentFor (picture : Image) : FileContent :=
  match Png.fault? picture with
  | none => .picture picture
  | some _ => .bytes Png.endChunk

/-- Write an image to a file, enlarged by a factor, and make the directories above it. -/
def writePicture (image : Image) (path : PathName) (factor : Nat) : FileM Unit := fun files =>
  match enlarge image factor with
  | .error e => .error e files
  | .ok picture =>
    match makeParents files path with
    | (.error e, files) => .error (.writeFailed "" path.text e.message) files
    | (.ok (), files) =>
      match files.writeFile path (contentFor picture) with
      | .error e => .error (.writeFailed "" path.text e.message) files
      | .ok files =>
        -- An image without a picture file fails only behind the writing, so the end mark stays.
        match Png.fault? picture with
        | some fault => .error (.writeFailed "" path.text fault.message) files
        | none => .ok () files

/-- Where a path name leads when relative ones are meant to be below a directory. -/
def placeUnder (base : Option PathName) (path : PathName) : PathName :=
  match base with
  | some directory => directory.join path
  | none => path

/-- The path name and the factor that `save PATH [scale=N]` is asked for. -/
def readSave (args : Arguments) : Except EvalError (PathName × Nat) := do
  let path ← args.require 0 "path"
  let factor ← args.keywordWord "scale" 1
  pure (⟨path⟩, max factor 1)

/-- `save PATH [scale=N]`, where relative path names lie below a directory if one is given. -/
def save (base : Option PathName) : Handler := fun call files =>
  match requireInput call.input with
  | .error e => .error e files
  | .ok image =>
    match readSave (Arguments.ofList call.args) with
    | .error e => .error e files
    | .ok (path, factor) =>
      match writePicture image (placeUnder base path) factor files with
      | .error e files => .error e files
      | .ok () files => .ok image files

end Tapestry.Command
