import Tapestry.Arguments
import Tapestry.Colour.Blend
import Tapestry.Operator
import Tapestry.Registry

/-!
# Compositors and operators

Commands that combine their input with images among their arguments, position by position. All
images have to be of the same size.
-/

namespace Tapestry

/-- How `join` combines the input with its image. -/
inductive JoinMode where
  | overlay
  | under
  | replace
  deriving DecidableEq, Repr, Inhabited

namespace JoinMode

/-- The mode with a name. -/
def ofText : String → Except ArgumentFault JoinMode
  | "overlay" => .ok overlay
  | "under" => .ok under
  | "replace" => .ok replace
  | other => .error (.unknownJoinMode other)

/-- The colour that a mode makes of the input and the image drawn with it. -/
def colour : JoinMode → Colour → Colour → Colour
  | overlay, base, drawn => Colour.drawOver drawn base
  | under, base, drawn => Colour.drawOver base drawn
  | replace, _, drawn => drawn

end JoinMode

namespace Command

/-- Fail unless two images have the same size. -/
def requireSameSize (a b : Image) : Except EvalError Unit :=
  (a.requireSameSize b).mapError .fault

/-- The colour that `join` makes under a mask: the brighter the mask, the more of the joined
    colour. -/
def joinMasked (mode : JoinMode) (base drawn mask : Colour) : Colour :=
  Colour.mix base (mode.colour base drawn) (Colour.luminance mask)

/-- `join MODE IMG [mask=IMG]`. -/
def join : Handler := .ofFunction fun call => do
  let image ← requireInput call.input
  let args := Arguments.ofList call.args
  let name ← args.require 0 "mode"
  let mode ← (JoinMode.ofText name).mapError .fault
  let drawn ← args.image call.handles 1
  requireSameSize image drawn
  match ← args.keywordImage? call.handles "mask" with
  | none => pure (Image.map₂ mode.colour image drawn)
  | some mask =>
    requireSameSize image mask
    pure (Image.map₃ (joinMasked mode) image drawn mask)

/-- `mask IMG`: the opacity of the input, scaled by the brightness of an image. -/
def mask : Handler := .ofFunction fun call => do
  let image ← requireInput call.input
  let weight ← (Arguments.ofList call.args).image call.handles 0
  requireSameSize image weight
  pure (Image.map₂ Colour.maskBy image weight)

/-- `blend IMG [amount=F]`: a linear mix, where 0 is the input and 1 the image. -/
def blend : Handler := .ofFunction fun call => do
  let image ← requireInput call.input
  let args := Arguments.ofList call.args
  let other ← args.image call.handles 0
  requireSameSize image other
  let amount ← args.keywordFloat "amount" 0.5
  if 0 ≤ amount && amount ≤ 1 then
    pure (Image.map₂ (fun a b => Colour.mix a b amount) image other)
  else throw (.fault (.amountOutOfRange (Binary32.render amount)))

/-- The command behind an infix operator: the input is the left operand and the first argument the
    right one. -/
def combine (o : Operator) : Handler := .ofFunction fun call => do
  let left ← requireInput call.input
  let right ← (Arguments.ofList call.args).image call.handles 0
  requireSameSize left right
  pure (Image.map₂ o.colour left right)

end Command

end Tapestry
