import Tapestry.Size
import Tapestry.Colour.Blend

/-!
# Patterns

What the generators paint. A pattern gives every position of an image of known size a colour; the
input of a generator contributes its size at most, so no pattern reads a pixel.
-/

namespace Tapestry

/-- The direction in which a pattern changes. -/
inductive Direction where
  | across
  | down
  deriving DecidableEq, Repr

namespace Direction

/-- The coordinate that grows in a direction. -/
def along (d : Direction) (x y : Nat) : Nat :=
  match d with
  | across => x
  | down => y

/-- The extent of a size in a direction. -/
def extent (d : Direction) (s : Size) : Nat := d.along s.width s.height

end Direction

/-- What a generator paints. -/
inductive Pattern where
  | solid (colour : Colour)
  | checkers (first second : Colour) (cell : Nat)
  | stripes (first second : Colour) (band : Nat) (direction : Direction)
  | circle (inner outer : Colour)
  | gradient (start stop : Colour) (direction : Direction)
  deriving DecidableEq, Repr

namespace Pattern

/-- A count as a floating point number; exact below 2 ^ 24. -/
def toFloat (n : Nat) : Float32 := n.toUInt32.toFloat32

/-- Whether the centre of a position lies in the centred circle that touches the nearer sides. -/
def inCircle (s : Size) (x y : Nat) : Bool :=
  let radius := toFloat (min s.width s.height) / 2
  let dx := toFloat x + 0.5 - toFloat s.width / 2
  let dy := toFloat y + 0.5 - toFloat s.height / 2
  dx * dx + dy * dy ≤ radius * radius

/-- How far along a direction a position lies: 0 at the start, 1 in the last column or row. -/
def fraction (d : Direction) (s : Size) (x y : Nat) : Float32 :=
  toFloat (d.along x y) / toFloat (max 1 (d.extent s - 1))

/-- The colour of a pattern at a position of an image of the given size. -/
def colourAt (s : Size) : Pattern → Nat → Nat → Colour
  | solid colour, _, _ => colour
  | checkers first second cell, x, y =>
    if (x / cell + y / cell) % 2 = 0 then first else second
  | stripes first second band direction, x, y =>
    if direction.along x y / band % 2 = 0 then first else second
  | circle inner outer, x, y => if inCircle s x y then inner else outer
  | gradient start stop direction, x, y => Colour.mix start stop (fraction direction s x y)

/-- Paint a pattern at a size. -/
def paint (p : Pattern) (s : Size) : Image := Image.ofFn s.width s.height (p.colourAt s)

end Pattern

end Tapestry
