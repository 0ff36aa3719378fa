import Tapestry.Image

/-!
# Resampling

A geometric command moves pixels and changes none: the new image has a size, and each of its
positions says which position of the old image it shows. `Resampling` is that pair, and
`Geometry.resampling` gives it for every geometric command at every size of the input.

* `pixel_resample`             a pixel of a resampled image is the pixel it shows
* `Geometry.inside_resampling` no geometric command shows a position outside its input
-/

namespace Tapestry

/-- A size, and for each position in it the position of the source that it shows. -/
structure Resampling where
  width : Nat
  height : Nat
  source : Nat → Nat → Nat × Nat

namespace Image

/-- The image that shows another one through a resampling. -/
def resample (image : Image) (r : Resampling) : Image :=
  ofFn r.width r.height fun x y =>
    let (u, v) := r.source x y
    image.pixel u v

@[simp] theorem width_resample (a : Image) (r : Resampling) : (a.resample r).width = r.width := rfl

@[simp] theorem height_resample (a : Image) (r : Resampling) : (a.resample r).height = r.height :=
  rfl

/-- A pixel of a resampled image is the pixel of the source that it shows. -/
theorem pixel_resample {r : Resampling} {x y : Nat} (a : Image) (hx : x < r.width)
    (hy : y < r.height) :
    (a.resample r).pixel x y = a.pixel (r.source x y).1 (r.source x y).2 :=
  pixel_ofFn _ hx hy

end Image

/-- The geometric commands. A quarter turn is clockwise. -/
inductive Geometry where
  | mirrorColumns
  | mirrorRows
  | quarterTurn
  | halfTurn
  | threeQuarterTurn
  | zoom (factor : Nat)
  | tile (count : Nat)
  deriving DecidableEq, Repr

namespace Geometry

/-- How a geometric command shows an image of the given size. -/
def resampling (w h : Nat) : Geometry → Resampling
  | mirrorColumns => ⟨w, h, fun x y => (w - 1 - x, y)⟩
  | mirrorRows => ⟨w, h, fun x y => (x, h - 1 - y)⟩
  | quarterTurn => ⟨h, w, fun x y => (y, h - 1 - x)⟩
  | halfTurn => ⟨w, h, fun x y => (w - 1 - x, h - 1 - y)⟩
  | threeQuarterTurn => ⟨h, w, fun x y => (w - 1 - y, x)⟩
  | zoom factor => ⟨w * factor, h * factor, fun x y => (x / factor, y / factor)⟩
  | tile count => ⟨w * count, h * count, fun x y => (x % w, y % h)⟩

/-- Apply a geometric command to an image, whatever the size of the result. -/
def apply (g : Geometry) (image : Image) : Image :=
  image.resample (g.resampling image.width image.height)

/-- Every position of the result shows a position inside the source. -/
theorem inside_resampling (g : Geometry) {w h x y : Nat} (hx : x < (g.resampling w h).width)
    (hy : y < (g.resampling w h).height) :
    ((g.resampling w h).source x y).1 < w ∧ ((g.resampling w h).source x y).2 < h := by
  cases g <;> simp only [resampling] at hx hy ⊢
  -- A factor of zero would leave no position to start from.
  case zoom f =>
    have hf : 0 < f := Nat.pos_of_ne_zero fun h0 => by simp [h0] at hx
    exact ⟨(Nat.div_lt_iff_lt_mul hf).2 hx, (Nat.div_lt_iff_lt_mul hf).2 hy⟩
  -- The same holds of an image without columns or without rows.
  case tile n =>
    have hw : 0 < w := Nat.pos_of_ne_zero fun h0 => by simp [h0] at hx
    have hh : 0 < h := Nat.pos_of_ne_zero fun h0 => by simp [h0] at hy
    exact ⟨Nat.mod_lt x hw, Nat.mod_lt y hh⟩
  -- All others only turn or mirror the image.
  all_goals omega

end Geometry

end Tapestry
