import Tapestry.Arguments
import Tapestry.Colour.Hue
import Tapestry.Command.Generator
import Tapestry.Image.Resampling
import Tapestry.Registry

/-!
# Transforms

Commands that derive an image from their input: `null` passes it on, `invert` and `hue` change
every colour, and the others are geometric. A geometric command that enlarges its input checks the
new size before it paints.
-/

namespace Tapestry.Command

/-- Pass the input on. -/
def passOn : Handler := .ofFunction fun call => requireInput call.input

/-- Change every colour of the input as the arguments describe. -/
def recolour (read : Arguments → Except EvalError (Colour → Colour)) : Handler :=
  .ofFunction fun call => do
    let image ← requireInput call.input
    let f ← read (Arguments.ofList call.args)
    pure (image.map f)

/-- The change of `invert`. -/
def readInvert (_ : Arguments) : Except EvalError (Colour → Colour) := .ok Colour.invert

/-- The change of `hue DEGREES`. -/
def readHue (args : Arguments) : Except EvalError (Colour → Colour) := do
  let text ← args.require 0 "degrees"
  let degrees ← floatOfText text "degrees"
  pure (Colour.turnHue degrees)

/-- Fail unless an image may be enlarged by a factor. -/
def requireScalable (image : Image) (factor : Nat) : Except EvalError Unit :=
  match image.size.scale factor with
  | .ok _ => .ok ()
  | .error f => .error (.fault f)

/-- Apply a geometric command. Enlarging by the factor 1 gives the image itself, whatever its
    size. -/
def transform (image : Image) : Geometry → Except EvalError Image
  | .zoom factor =>
    if factor = 1 then .ok image
    else do
      requireScalable image factor
      pure ((Geometry.zoom factor).apply image)
  | .tile count => do
    requireScalable image count
    pure ((Geometry.tile count).apply image)
  -- The other commands keep the number of pixels, so nothing can be too large.
  | g => .ok (g.apply image)

/-- Transform the input as the arguments describe. -/
def geometric (read : Arguments → Except EvalError Geometry) : Handler :=
  .ofFunction fun call => do
    let image ← requireInput call.input
    let g ← read (Arguments.ofList call.args)
    transform image g

/-- The transform of `zoom N`. -/
def readZoom (args : Arguments) : Except EvalError Geometry := do
  let factor ← args.word 0 "factor"
  let factor ← requirePositive factor "factor"
  pure (.zoom factor)

/-- The transform of `mirror [vertical]`. -/
def readMirror (args : Arguments) : Except EvalError Geometry :=
  .ok (if args.flag "vertical" then .mirrorRows else .mirrorColumns)

/-- The transform of `rotate 90|180|270`. -/
def readRotate (args : Arguments) : Except EvalError Geometry := do
  let angle ← args.require 0 "angle"
  match angle with
  | "90" => pure .quarterTurn
  | "180" => pure .halfTurn
  | "270" => pure .threeQuarterTurn
  | other => throw (.fault (.unsupportedAngle other))

/-- The transform of `tile N`. -/
def readTile (args : Arguments) : Except EvalError Geometry := do
  let count ← args.word 0 "count"
  let count ← requirePositive count "count"
  pure (.tile count)

end Tapestry.Command
