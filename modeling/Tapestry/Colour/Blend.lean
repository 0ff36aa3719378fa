import Tapestry.Colour

/-!
# Blending

The formulas that combine two colours. All of them work on 32-bit floating point numbers in the
order written; `Float32.round` takes a half away from zero, and `Float32.toUInt8` cuts to 0 .. 255.
-/

namespace Tapestry.Colour

/-- The value a fraction `t` of the way from one channel to another. -/
def mixChannel (a b : UInt8) (t : Float32) : UInt8 :=
  (a.toFloat32 + (b.toFloat32 - a.toFloat32) * t).round.toUInt8

/-- The colour a fraction `t` of the way from one colour to another. -/
def mix (a b : Colour) (t : Float32) : Colour :=
  { red := mixChannel a.red b.red t
    green := mixChannel a.green b.green t
    blue := mixChannel a.blue b.blue t
    alpha := mixChannel a.alpha b.alpha t }

/-- Cut a number to an interval; a NaN stays one. -/
def clamp (low high x : Float32) : Float32 :=
  if x < low then low else if high < x then high else x

/-- One colour drawn over another. -/
def drawOver (top bottom : Colour) : Colour :=
  let ta := top.alpha.toFloat32 / 255
  let ba := bottom.alpha.toFloat32 / 255
  let alpha := ta + ba * (1 - ta)
  if alpha ≤ 0 then .transparent
  else
    let channel (t b : UInt8) : UInt8 :=
      let c := (t.toFloat32 * ta + b.toFloat32 * ba * (1 - ta)) / alpha
      (clamp 0 255 c.round).toUInt8
    { red := channel top.red bottom.red
      green := channel top.green bottom.green
      blue := channel top.blue bottom.blue
      alpha := (alpha * 255).round.toUInt8 }

/-- The brightness of a colour as it is seen, from 0 to 1, weighted by its opacity. -/
def luminance (c : Colour) : Float32 :=
  let luma := 0.299 * c.red.toFloat32 + 0.587 * c.green.toFloat32 + 0.114 * c.blue.toFloat32
  (luma / 255) * (c.alpha.toFloat32 / 255)

/-- A colour whose opacity is scaled by the brightness of another. -/
def maskBy (c weight : Colour) : Colour :=
  { c with alpha := (c.alpha.toFloat32 * luminance weight).round.toUInt8 }

/-- The complement of the three colour channels. -/
def invert (c : Colour) : Colour :=
  { c with red := 255 - c.red, green := 255 - c.green, blue := 255 - c.blue }

end Tapestry.Colour
