import Tapestry.Colour.Blend

/-!
# Turning the hue

A colour is taken to hue, saturation and lightness, its hue is turned by a number of degrees, and it
is taken back. The steps are those of the usual hexagonal model, on 32-bit floating point numbers in
the order written, so that equal inputs give equal bytes.
-/

namespace Tapestry.Colour

/-- Hue in degrees, saturation and lightness from 0 to 1. -/
structure HueSatLight where
  hue : Float32
  saturation : Float32
  lightness : Float32

/-- Red, green and blue from 0 to 1. -/
structure Channels where
  red : Float32
  green : Float32
  blue : Float32

/-- The hue, saturation and lightness of red, green and blue. The hue of a grey is 0. -/
def Channels.toHueSatLight (c : Channels) : HueSatLight :=
  let (r, g, b) := (c.red, c.green, c.blue)
  let (max, min, sep, coeff) : Float32 × Float32 × Float32 × Float32 :=
    if g < r then (r, g, g - b, 0) else (g, r, b - r, 2)
  let (max, min, sep, coeff) : Float32 × Float32 × Float32 × Float32 :=
    if max < b then (b, min, r - g, 4)
    else (max, if b < min then b else min, sep, coeff)
  let sum := max + min
  let lightness := sum / 2
  if max == min then ⟨0, 0, clamp 0 1 lightness⟩
  else
    let d := max - min
    let saturation := if 1 < sum then d / (2 - sum) else d / sum
    ⟨(sep / d + coeff) * 60, clamp 0 1 saturation, clamp 0 1 lightness⟩

/-- The least positive number with a full significand. -/
def smallestNormal : Float32 := Float32.ofBits 0x00800000

/-- Where a hue lies on the circle, in sixths of a turn. A remainder that rounding has pushed to a
    whole turn, or that is too small to be a normal number, counts as 0. -/
def sixths (hue : Float32) : Float32 :=
  let n := hue - (hue / 360).floor * 360
  let n := if n.abs < smallestNormal || 360 ≤ n then 0 else n
  n / 60

/-- Red, green and blue of a hue, saturation and lightness. -/
def HueSatLight.toChannels (c : HueSatLight) : Channels :=
  let chroma := (1 - (c.lightness * 2 - 1).abs) * c.saturation
  let h := sixths c.hue
  let m₂ := h - (h * 0.5).floor * 2
  let x := chroma * (1 - (m₂ - 1).abs)
  let m := c.lightness - chroma * 0.5
  let (r, g, b) : Float32 × Float32 × Float32 :=
    if 0 ≤ h && h < 1 then (chroma, x, 0)
    else if 1 ≤ h && h < 2 then (x, chroma, 0)
    else if 2 ≤ h && h < 3 then (0, chroma, x)
    else if 3 ≤ h && h < 4 then (0, x, chroma)
    else if 4 ≤ h && h < 5 then (x, 0, chroma)
    else (chroma, 0, x)
  ⟨clamp 0 1 (r + m), clamp 0 1 (g + m), clamp 0 1 (b + m)⟩

/-- Turn the hue of a colour by a number of degrees and keep its opacity. -/
def turnHue (degrees : Float32) (c : Colour) : Colour :=
  let hsl := Channels.toHueSatLight
    ⟨c.red.toFloat32 / 255, c.green.toFloat32 / 255, c.blue.toFloat32 / 255⟩
  let out := { hsl with hue := hsl.hue + degrees }.toChannels
  let channel (v : Float32) : UInt8 := (clamp 0 1 v * 255).round.toUInt8
  { red := channel out.red, green := channel out.green, blue := channel out.blue, alpha := c.alpha }

end Tapestry.Colour
