import Tapestry.Decimal.Scientific

/-!
# Decimal text of 32-bit floating point numbers

* `Binary32.read?`   the nearest number to a decimal numeral, when it is finite
* `Binary32.render`  the shortest decimal that reads back to a number

A finite number is `± significand · 2 ^ scale` with whole parts. The reals that round to it form an
interval around it that reaches halfway to either neighbour and holds its ends exactly when the
significand is even. `shortest` looks for the largest power of ten with a multiple in that interval;
all comparisons are between whole numbers.
-/

namespace Tapestry.Binary32

/-! ## Reading -/

/-- Powers of ten beyond this distance from one put every coefficient they could still matter for
    outside the finite range, or below half the smallest number. -/
def exponentLimit : Int := 100

/-- The nearest 32-bit number to a decimal, infinite beyond the finite range. -/
def ofScientific (d : Scientific) : Float32 :=
  let magnitude : Int := (Nat.toDigits 10 d.coefficient).length + d.exponent
  let size : Float32 :=
    if d.coefficient = 0 ∨ magnitude < -exponentLimit then 0
    else if exponentLimit < magnitude then Float32.ofBits 0x7F800000
    else OfScientific.ofScientific d.coefficient (d.exponent < 0) d.exponent.natAbs
  if d.negative then -size else size

/-- Read a numeral as the nearest 32-bit number; `none` when the text is no numeral or its number is
    not finite. -/
def read? (s : String) : Option Float32 :=
  ((Scientific.read? s.toList).map ofScientific).filter Float32.isFinite

/-! ## Writing -/

/-- The significand and the scale of the finite number with the given bits, sign apart: the number
    is `significand · 2 ^ scale`. -/
def decompose (bits : Nat) : Nat × Int :=
  let fraction := bits % Nat.pow 2 23
  let biased := bits / Nat.pow 2 23 % Nat.pow 2 8
  if biased = 0 then (fraction, -149) else (fraction + Nat.pow 2 23, Int.ofNat biased - 150)

/-- An interval of positive rationals with a common denominator, and a point in it. -/
structure Interval where
  low : Nat
  point : Nat
  high : Nat
  denominator : Nat
  closed : Bool

/-- The interval of reals that round to `significand · 2 ^ scale`. The gap below a power of two is
    half as wide, except at the smallest scale. -/
def roundingInterval (significand : Nat) (scale : Int) : Interval :=
  let below := if significand = Nat.pow 2 23 ∧ scale ≠ -149 then 1 else 2
  -- Quarters of the gap above, so that half of the narrower gap below is still a whole number.
  let up := Nat.pow 2 (scale - 2).toNat
  { low := (4 * significand - below) * up
    point := 4 * significand * up
    high := (4 * significand + 2) * up
    denominator := Nat.pow 2 (2 - scale).toNat
    closed := significand % 2 = 0 }

/-- Whether `n / d` lies in an interval. -/
def Interval.holds (i : Interval) (n d : Nat) : Bool :=
  if i.closed then i.low * d ≤ n * i.denominator && n * i.denominator ≤ i.high * d
  else i.low * d < n * i.denominator && n * i.denominator < i.high * d

/-- The multiple of `10 ^ power` nearest to the point among the two around it, when it lies in the
    interval; of two equally near ones the upper. The result counts the powers. -/
def Interval.multipleOf? (i : Interval) (power : Int) : Option Nat :=
  -- One of the two is 1, so `up / down` is the power of ten.
  let up := Nat.pow 10 power.toNat
  let down := Nat.pow 10 (-power).toNat
  let floor := i.point * down / (i.denominator * up)
  let rest := i.point * down % (i.denominator * up)
  let lowerIn := i.holds (floor * up) down
  let upperIn := i.holds ((floor + 1) * up) down
  if lowerIn && upperIn then
    some (if 2 * rest < i.denominator * up then floor else floor + 1)
  else if lowerIn then some floor
  else if upperIn then some (floor + 1)
  else none

/-- The powers of ten that a 32-bit number can need, largest first. -/
def powers : List Int := (List.range 120).map fun n => 45 - Int.ofNat n

/-- The decimal with the fewest digits that rounds to `significand · 2 ^ scale`, as a coefficient
    and a power of ten. -/
def shortest (significand : Nat) (scale : Int) : Nat × Int :=
  let interval := roundingInterval significand scale
  (powers.findSome? fun p => (interval.multipleOf? p).map (·, p)).getD (0, 0)

/-- Positional notation of `coefficient · 10 ^ power`, without an exponent and without a point after
    a whole number. -/
def positional (coefficient : Nat) (power : Int) : List Char :=
  let digits := Nat.toDigits 10 coefficient
  if 0 ≤ power then digits ++ List.replicate power.toNat '0'
  else
    let places := power.natAbs
    if places < digits.length then
      digits.take (digits.length - places) ++ '.' :: digits.drop (digits.length - places)
    else '0' :: '.' :: List.replicate (places - digits.length) '0' ++ digits

/-- The text of a finite number: the fewest digits that read back, in positional notation. -/
def render (x : Float32) : String :=
  let bits := x.toBits.toNat
  let (significand, scale) := decompose bits
  let body :=
    if significand = 0 then ['0']
    else
      let (coefficient, power) := shortest significand scale
      positional coefficient power
  String.ofList (if bits < Nat.pow 2 31 then body else '-' :: body)

end Tapestry.Binary32
