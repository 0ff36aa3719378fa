import Tapestry.Colour

/-!
# Images

An image is a width, a height and one colour per position. Every image is made by `Image.ofFn` from
a function of the column and the row, and is looked at through `Image.pixel`:

* `pixel_ofFn`  a pixel of `ofFn width height f` is the value of `f` there
* `ext_pixel`   two images of the same size with the same pixels are equal

so that a law about images is a statement about functions of two numbers. `Image.pixel` is total; it
is transparent outside the image.
-/

namespace Tapestry

/-- A rectangle of colours, row by row from the top left corner. -/
structure Image where
  width : Nat
  height : Nat
  pixels : Array Colour
  size_pixels : pixels.size = width * height
  deriving DecidableEq

namespace Image

/-- The colour in column `x` of row `y`; transparent outside the image. -/
def pixel (image : Image) (x y : Nat) : Colour :=
  if x < image.width then image.pixels.getD (y * image.width + x) .transparent else .transparent

/-- The image whose colour in column `x` of row `y` is `f x y`. -/
def ofFn (width height : Nat) (f : Nat → Nat → Colour) : Image where
  width
  height
  pixels := Array.ofFn (n := width * height) fun i => f (i.val % width) (i.val / width)
  size_pixels := by simp

/-- The image with the same colour everywhere. -/
def solid (width height : Nat) (colour : Colour) : Image where
  width
  height
  pixels := Array.replicate (width * height) colour
  size_pixels := by simp

/-- The transparent image. -/
def blank (width height : Nat) : Image := solid width height .transparent

/-- The image of given pixels; positions that the list does not reach are transparent. -/
def ofPixels (width height : Nat) (pixels : Array Colour) : Image :=
  ofFn width height fun x y => pixels.getD (y * width + x) .transparent

/-- Whether a position is inside an image. -/
def Inside (image : Image) (x y : Nat) : Prop := x < image.width ∧ y < image.height

/-- Whether two images have the same width and the same height. -/
def SameSize (a b : Image) : Prop := a.width = b.width ∧ a.height = b.height

instance (a b : Image) : Decidable (a.SameSize b) := inferInstanceAs (Decidable (_ ∧ _))

/-- Apply a function to every colour. -/
def map (f : Colour → Colour) (image : Image) : Image where
  width := image.width
  height := image.height
  pixels := image.pixels.map f
  size_pixels := by simp [image.size_pixels]

/-- Combine the colours of two images position by position, at the size of the first. -/
def map₂ (f : Colour → Colour → Colour) (a b : Image) : Image :=
  ofFn a.width a.height fun x y => f (a.pixel x y) (b.pixel x y)

/-- Combine the colours of three images position by position, at the size of the first. -/
def map₃ (f : Colour → Colour → Colour → Colour) (a b c : Image) : Image :=
  ofFn a.width a.height fun x y => f (a.pixel x y) (b.pixel x y) (c.pixel x y)

/-! ## Pixels -/

/-- The pixel in a row and a column stands among all of them. -/
private theorem index_lt {w h x y : Nat} (hx : x < w) (hy : y < h) : y * w + x < w * h := by
  calc y * w + x < y * w + w := by omega
    _ = (y + 1) * w := by rw [Nat.succ_mul]
    _ ≤ h * w := Nat.mul_le_mul_right w hy
    _ = w * h := Nat.mul_comm h w

/-- The column is found again from where a pixel stands. -/
private theorem index_mod {w x : Nat} (y : Nat) (hx : x < w) : (y * w + x) % w = x := by
  rw [Nat.mul_comm, Nat.mul_add_mod, Nat.mod_eq_of_lt hx]

/-- The row is found again from where a pixel stands. -/
private theorem index_div {w x : Nat} (y : Nat) (hx : x < w) : (y * w + x) / w = y := by
  rw [Nat.mul_comm, Nat.mul_add_div (by omega), Nat.div_eq_of_lt hx, Nat.add_zero]

@[simp] theorem width_ofFn (w h : Nat) (f : Nat → Nat → Colour) : (ofFn w h f).width = w := rfl

@[simp] theorem height_ofFn (w h : Nat) (f : Nat → Nat → Colour) : (ofFn w h f).height = h := rfl

/-- A pixel of `ofFn` is the value of the function there. -/
theorem pixel_ofFn {w h x y : Nat} (f : Nat → Nat → Colour) (hx : x < w) (hy : y < h) :
    (ofFn w h f).pixel x y = f x y := by
  have hi := index_lt hx hy
  simp [pixel, ofFn, Array.getD, hx, hi, index_mod y hx, index_div y hx]

@[simp] theorem width_solid (w h : Nat) (c : Colour) : (solid w h c).width = w := rfl

@[simp] theorem height_solid (w h : Nat) (c : Colour) : (solid w h c).height = h := rfl

/-- Every pixel of a solid image has its colour. -/
theorem pixel_solid {w h x y : Nat} (c : Colour) (hx : x < w) (hy : y < h) :
    (solid w h c).pixel x y = c := by
  have hi := index_lt hx hy
  simp [pixel, solid, Array.getD, hx, hi]

@[simp] theorem width_map (f : Colour → Colour) (a : Image) : (a.map f).width = a.width := rfl

@[simp] theorem height_map (f : Colour → Colour) (a : Image) : (a.map f).height = a.height := rfl

/-- A pixel of `map` is the image of the pixel. -/
theorem pixel_map {a : Image} {x y : Nat} (f : Colour → Colour) (h : a.Inside x y) :
    (a.map f).pixel x y = f (a.pixel x y) := by
  have hi : y * a.width + x < a.pixels.size := a.size_pixels ▸ index_lt h.1 h.2
  simp [pixel, map, Array.getD, h.1, hi]

@[simp] theorem width_map₂ (f : Colour → Colour → Colour) (a b : Image) :
    (map₂ f a b).width = a.width := rfl

@[simp] theorem height_map₂ (f : Colour → Colour → Colour) (a b : Image) :
    (map₂ f a b).height = a.height := rfl

/-- A pixel of `map₂` combines the two pixels there. -/
theorem pixel_map₂ {a : Image} {x y : Nat} (f : Colour → Colour → Colour) (b : Image)
    (h : a.Inside x y) : (map₂ f a b).pixel x y = f (a.pixel x y) (b.pixel x y) :=
  pixel_ofFn _ h.1 h.2

@[simp] theorem width_map₃ (f : Colour → Colour → Colour → Colour) (a b c : Image) :
    (map₃ f a b c).width = a.width := rfl

@[simp] theorem height_map₃ (f : Colour → Colour → Colour → Colour) (a b c : Image) :
    (map₃ f a b c).height = a.height := rfl

/-- A pixel of `map₃` combines the three pixels there. -/
theorem pixel_map₃ {a : Image} {x y : Nat} (f : Colour → Colour → Colour → Colour) (b c : Image)
    (h : a.Inside x y) : (map₃ f a b c).pixel x y = f (a.pixel x y) (b.pixel x y) (c.pixel x y) :=
  pixel_ofFn _ h.1 h.2

/-- Images of the same size with the same pixels are equal. -/
theorem ext_pixel {a b : Image} (hw : a.width = b.width) (hh : a.height = b.height)
    (hp : ∀ x y, x < a.width → y < a.height → a.pixel x y = b.pixel x y) : a = b := by
  obtain ⟨w, h, p, hs⟩ := a
  obtain ⟨w', h', q, hs'⟩ := b
  simp only at hw hh hs hs' hp
  subst hw hh
  congr
  apply Array.ext (by rw [hs, hs'])
  -- The i-th pixel is the one in column i % w of row i / w, which is inside.
  intro i hi hi'
  have hlt : i < w * h := hs ▸ hi
  have hw : 0 < w := Nat.pos_of_ne_zero fun h0 => by simp [h0] at hlt
  have hx : i % w < w := Nat.mod_lt i hw
  have hy : i / w < h := Nat.div_lt_of_lt_mul hlt
  have e : i / w * w + i % w = i := by rw [Nat.mul_comm]; exact Nat.div_add_mod i w
  have := hp (i % w) (i / w) hx hy
  simpa [pixel, hx, e, Array.getD, hi, hi'] using this

/-- An image is `ofFn` of its own pixels. -/
theorem ofFn_pixel (a : Image) : ofFn a.width a.height a.pixel = a :=
  ext_pixel rfl rfl fun _ _ hx hy => pixel_ofFn _ hx hy

end Image

end Tapestry
