import Tapestry.Command
import Tapestry.Proofs.Results

/-!
# Painting with checks

The functions of the model are total: a pixel outside an image is transparent, a number divided by
zero is zero, and numbers have no limit. A machine has none of these ways out. The functions below
paint one pixel after the other and check each step: the position that is read, the divisor, and the
number of bits of the result. The first step that cannot be taken is a `Violation`.

## Key results

- `Checked.build_eq_ok`: painting goes well when every pixel does
- `Checked.paint_eq_ok`, `Checked.apply_eq_ok`, `Checked.map_eq_ok`, `Checked.map₂_eq_ok`,
  `Checked.map₃_eq_ok`: on images in range, painting with checks is painting
-/

namespace Tapestry

/-- Whether both sides of a size are from 1 to the largest side. -/
def Size.InRange (s : Size) : Prop :=
  (0 < s.width ∧ s.width ≤ maxSide) ∧ (0 < s.height ∧ s.height ≤ maxSide)

instance (s : Size) : Decidable s.InRange := inferInstanceAs (Decidable (_ ∧ _))

/-- Whether both sides of an image are from 1 to the largest side. -/
def Image.InRange (image : Image) : Prop := image.size.InRange

instance (image : Image) : Decidable image.InRange := inferInstanceAs (Decidable (Size.InRange _))

/-- What a handler must not do: read a pixel outside an image, divide by zero, compute a number that
    has more bits than there is room for, or hand on an image with a side that is out of range. -/
inductive Violation where
  | outside
  | zeroDivisor
  | overflow
  | side
  deriving DecidableEq, Repr

/-- A computation that stops at its first violation. -/
abbrev Checked := Except Violation

namespace Checked

/-! ## Numbers and pixels -/

/-- The first number of more than 16 bits. -/
def halfLimit : Nat := 65536

/-- The first number of more than 64 bits. -/
def addressLimit : Nat := 18446744073709551616

/-- A result that has to be below a limit. -/
def fit (limit n : Nat) : Checked Nat := if n < limit then .ok n else .error .overflow

/-- A number that has to be a divisor. -/
def nonzero (n : Nat) : Checked Nat := if n = 0 then .error .zeroDivisor else .ok n

/-- A difference, which must not be negative. -/
def sub (a b : Nat) : Checked Nat := if b ≤ a then .ok (a - b) else .error .overflow

def div (a b : Nat) : Checked Nat := do
  let b ← nonzero b
  pure (a / b)

def mod (a b : Nat) : Checked Nat := do
  let b ← nonzero b
  pure (a % b)

/-- A quotient whose divisor has to be positive. -/
def divFloat (a b : Float32) : Checked Float32 :=
  if b ≤ 0 then .error .zeroDivisor else .ok (a / b)

/-- A pixel, which has to be inside its image. -/
def read (image : Image) (x y : Nat) : Checked Colour :=
  if x < image.width ∧ y < image.height then .ok (image.pixel x y) else .error .outside

/-- An image to hand on or to write, whose sides have to be in range. -/
def accept (image : Image) : Checked Image :=
  if image.InRange then .ok image else .error .side

/-- Below the limit there is room for a number. -/
private theorem fit_eq_ok {limit n : Nat} (h : n < limit) : fit limit n = .ok n := if_pos h

/-- Subtracting what is not larger does not go below zero. -/
private theorem sub_eq_ok {a b : Nat} (h : b ≤ a) : sub a b = .ok (a - b) := if_pos h

/-- What is not zero may divide. -/
private theorem nonzero_eq_ok {n : Nat} (h : n ≠ 0) : nonzero n = .ok n := if_neg h

/-- With checks a quotient is the same, for a divisor other than zero. -/
private theorem div_eq_ok (a : Nat) {b : Nat} (h : b ≠ 0) : div a b = .ok (a / b) := by
  rw [div, nonzero_eq_ok h]
  rfl

private theorem mod_eq_ok (a : Nat) {b : Nat} (h : b ≠ 0) : mod a b = .ok (a % b) := by
  rw [mod, nonzero_eq_ok h]
  rfl

/-- Inside an image, a pixel is read as it is without checks. -/
theorem read_eq_ok {image : Image} {x y : Nat} (h : image.Inside x y) :
    read image x y = .ok (image.pixel x y) := if_pos h

/-- An image in range is accepted as it is. -/
theorem accept_eq_ok {image : Image} (h : image.InRange) : accept image = .ok image := if_pos h

/-! ## Painting -/

/-- The image whose colour in column `x` of row `y` is `f x y`, painted row by row. Its sides are
    words and its bytes can be addressed. -/
def build (w h : Nat) (f : Nat → Nat → Checked Colour) : Checked Image := do
  let w ← fit Text.wordLimit w
  let h ← fit Text.wordLimit h
  let _ ← fit addressLimit (w * h * 4)
  let pixels ← Vector.ofFnM (n := w * h) fun i => f (i.val % w) (i.val / w)
  pure ⟨w, h, pixels.toArray, pixels.size_toArray⟩

def map (f : Colour → Checked Colour) (a : Image) : Checked Image :=
  build a.width a.height fun x y => do
    f (← read a x y)

def map₂ (f : Colour → Colour → Checked Colour) (a b : Image) : Checked Image :=
  build a.width a.height fun x y => do
    f (← read a x y) (← read b x y)

def map₃ (f : Colour → Colour → Colour → Checked Colour) (a b c : Image) : Checked Image :=
  build a.width a.height fun x y => do
    f (← read a x y) (← read b x y) (← read c x y)

/-- Painting goes well when the sides are within the limit and every pixel goes well. -/
theorem build_eq_ok {w h : Nat} {f : Nat → Nat → Checked Colour} {g : Nat → Nat → Colour}
    (hw : w ≤ maxSide) (hh : h ≤ maxSide) (hf : ∀ x y, x < w → y < h → f x y = .ok (g x y)) :
    build w h f = .ok (Image.ofFn w h g) := by
  have hword := maxSide_lt_wordLimit
  have hbytes : w * h * 4 < addressLimit := by
    have harea : w * h * 4 ≤ maxSide * maxSide * 4 := Nat.mul_le_mul_right 4 (Nat.mul_le_mul hw hh)
    have hlimit : maxSide * maxSide * 4 < addressLimit := by decide
    omega
  -- A position in the list of pixels is a column and a row of the image.
  have hpixels : (fun i : Fin (w * h) => f (i.val % w) (i.val / w)) =
      fun i => pure (g (i.val % w) (i.val / w)) := by
    funext i
    have hpos : 0 < w := Nat.pos_of_ne_zero fun h0 => by simpa [h0] using i.pos
    exact hf _ _ (Nat.mod_lt _ hpos) (Nat.div_lt_of_lt_mul i.isLt)
  rw [build, fit_eq_ok (by omega), fit_eq_ok (by omega)]
  simp only [Except.ok_bind]
  rw [fit_eq_ok hbytes, hpixels, Vector.ofFnM_pure]
  rfl

/-- Changing colours one by one reads no pixel outside an image in range. -/
theorem map_eq_ok {f : Colour → Checked Colour} {g : Colour → Colour} (hf : ∀ c, f c = .ok (g c))
    {a : Image} (ha : a.InRange) : map f a = .ok (a.map g) := by
  have himage : a.map g = Image.ofFn a.width a.height fun x y => g (a.pixel x y) := by
    refine Image.ext_pixel (a := a.map g) rfl rfl fun x y hx hy => ?_
    exact (Image.pixel_map (a := a) g ⟨hx, hy⟩).trans
      (Image.pixel_ofFn (fun x y => g (a.pixel x y)) hx hy).symm
  rw [map, himage]
  apply build_eq_ok ha.1.2 ha.2.2
  intro x y hx hy
  rw [read_eq_ok ⟨hx, hy⟩]
  exact hf _

/-- Combining two images of one size reads no pixel outside either. -/
theorem map₂_eq_ok {f : Colour → Colour → Checked Colour} {g : Colour → Colour → Colour}
    (hf : ∀ c d, f c d = .ok (g c d)) {a b : Image} (ha : a.InRange) (hb : a.SameSize b) :
    map₂ f a b = .ok (Image.map₂ g a b) := by
  apply build_eq_ok ha.1.2 ha.2.2
  intro x y hx hy
  rw [read_eq_ok ⟨hx, hy⟩, read_eq_ok ⟨hb.1 ▸ hx, hb.2 ▸ hy⟩]
  exact hf _ _

theorem map₃_eq_ok {f : Colour → Colour → Colour → Checked Colour}
    {g : Colour → Colour → Colour → Colour} (hf : ∀ c d e, f c d e = .ok (g c d e))
    {a b c : Image} (ha : a.InRange) (hb : a.SameSize b) (hc : a.SameSize c) :
    map₃ f a b c = .ok (Image.map₃ g a b c) := by
  apply build_eq_ok ha.1.2 ha.2.2
  intro x y hx hy
  rw [read_eq_ok ⟨hx, hy⟩, read_eq_ok ⟨hb.1 ▸ hx, hb.2 ▸ hy⟩, read_eq_ok ⟨hc.1 ▸ hx, hc.2 ▸ hy⟩]
  exact hf _ _ _

/-! ## Patterns -/

/-- The colour of a pattern at a position of an image of the given size. -/
def colourAt (s : Size) : Pattern → Nat → Nat → Checked Colour
  | .solid colour, _, _ => .ok colour
  | .checkers first second cell, x, y => do
    let column ← div x cell
    let row ← div y cell
    let sum ← fit Text.wordLimit (column + row)
    let parity ← mod sum 2
    pure (if parity = 0 then first else second)
  | .stripes first second band direction, x, y => do
    let index ← div (direction.along x y) band
    let parity ← mod index 2
    pure (if parity = 0 then first else second)
  | .circle inner outer, x, y => .ok (if Pattern.inCircle s x y then inner else outer)
  | .gradient start stop direction, x, y => do
    let span ← nonzero (max 1 (direction.extent s - 1))
    pure (Colour.mix start stop (Pattern.toFloat (direction.along x y) / Pattern.toFloat span))

def paint (p : Pattern) (s : Size) : Checked Image := build s.width s.height (colourAt s p)

end Checked

/-- Whether a pattern can be painted at all: its cells and bands are not empty. -/
def Pattern.Proper : Pattern → Prop
  | .checkers _ _ cell => cell ≠ 0
  | .stripes _ _ band _ => band ≠ 0
  | _ => True

namespace Checked

/-- A proper pattern has a colour at each position of an image in range: its cells are not empty,
    and no distance in it grows too large. -/
private theorem colourAt_eq_ok {p : Pattern} (hp : p.Proper) {s : Size} {x y : Nat}
    (hx : x < maxSide) (hy : y < maxSide) : colourAt s p x y = .ok (p.colourAt s x y) := by
  cases p with
  | solid | circle => rfl
  | checkers first second cell =>
    -- Columns and rows are below the largest side, so the sum of their cells has room.
    have hsum : x / cell + y / cell < Text.wordLimit := by
      have hword : maxSide + maxSide < Text.wordLimit := by decide
      have hcolumn := Nat.div_le_self x cell
      have hrow := Nat.div_le_self y cell
      omega
    simp only [colourAt, div_eq_ok _ hp, Except.ok_bind, fit_eq_ok hsum,
      mod_eq_ok _ (show 2 ≠ 0 by decide)]
    rfl
  | stripes first second band direction =>
    simp only [colourAt, div_eq_ok _ hp, Except.ok_bind, mod_eq_ok _ (show 2 ≠ 0 by decide)]
    rfl
  | gradient start stop direction =>
    -- The span of a gradient is at least one by definition.
    have hspan : max 1 (direction.extent s - 1) ≠ 0 := by omega
    simp only [colourAt, nonzero_eq_ok hspan, Except.ok_bind]
    rfl

example : colourAt ⟨1, 1⟩ (.checkers .transparent .transparent 0) 0 0 = .error .zeroDivisor := rfl

/-- So a proper pattern can be painted at each size in range. -/
theorem paint_eq_ok {p : Pattern} (hp : p.Proper) {s : Size} (hs : s.InRange) :
    paint p s = .ok (p.paint s) := by
  obtain ⟨⟨-, hw⟩, -, hh⟩ := hs
  exact build_eq_ok hw hh fun x y hx hy =>
    colourAt_eq_ok hp (Nat.lt_of_lt_of_le hx hw) (Nat.lt_of_lt_of_le hy hh)

/-! ## Geometry -/

/-- The size that a geometric command gives an image. -/
def newSize (w h : Nat) : Geometry → Checked Size
  | .zoom factor | .tile factor => do
    let width ← fit Text.wordLimit (w * factor)
    let height ← fit Text.wordLimit (h * factor)
    pure ⟨width, height⟩
  | .quarterTurn | .threeQuarterTurn => .ok ⟨h, w⟩
  | .mirrorColumns | .mirrorRows | .halfTurn => .ok ⟨w, h⟩

/-- The `i`-th of `n` positions, counted from the last. -/
def opposite (n i : Nat) : Checked Nat := do
  let rest ← sub n i
  sub rest 1

/-- The position of the source that a geometric command shows. -/
def source (w h : Nat) : Geometry → Nat → Nat → Checked (Nat × Nat)
  | .mirrorColumns, x, y => do
    let u ← opposite w x
    pure (u, y)
  | .mirrorRows, x, y => do
    let v ← opposite h y
    pure (x, v)
  | .quarterTurn, x, y => do
    let v ← opposite h x
    pure (y, v)
  | .halfTurn, x, y => do
    let u ← opposite w x
    let v ← opposite h y
    pure (u, v)
  | .threeQuarterTurn, x, y => do
    let u ← opposite w y
    pure (u, x)
  | .zoom factor, x, y => do
    let u ← div x factor
    let v ← div y factor
    pure (u, v)
  | .tile _, x, y => do
    let u ← mod x w
    let v ← mod y h
    pure (u, v)

def apply (g : Geometry) (image : Image) : Checked Image := do
  let size ← newSize image.width image.height g
  build size.width size.height fun x y => do
    let (u, v) ← source image.width image.height g x y
    read image u v

/-- A position has an opposite one as long as it is inside. -/
private theorem opposite_eq_ok {n i : Nat} (h : i < n) : opposite n i = .ok (n - 1 - i) := by
  have hrest : 1 ≤ n - i := by omega
  rw [opposite, sub_eq_ok (Nat.le_of_lt h)]
  change sub (n - i) 1 = _
  rw [sub_eq_ok hrest, Nat.sub_right_comm]

/-- A size that is in range was computed without overflow. -/
private theorem newSize_eq_ok {g : Geometry} {w h : Nat} (hw : (g.resampling w h).width ≤ maxSide)
    (hh : (g.resampling w h).height ≤ maxSide) :
    newSize w h g = .ok ⟨(g.resampling w h).width, (g.resampling w h).height⟩ := by
  have hword := maxSide_lt_wordLimit
  cases g with
  | zoom factor | tile factor =>
    simp only [Geometry.resampling] at hw hh
    simp only [newSize, fit_eq_ok (Nat.lt_of_le_of_lt hw hword),
      fit_eq_ok (Nat.lt_of_le_of_lt hh hword), Except.ok_bind]
    rfl
  | _ => rfl

/-- Each position of the new image comes from a position that is computed without going below zero
    or dividing by it. -/
private theorem source_eq_ok {g : Geometry} {w h x y : Nat} (hx : x < (g.resampling w h).width)
    (hy : y < (g.resampling w h).height) :
    source w h g x y = .ok ((g.resampling w h).source x y) := by
  cases g with
  -- Opposite positions are inside because the position itself is.
  | mirrorColumns | mirrorRows | quarterTurn | halfTurn | threeQuarterTurn =>
    simp only [Geometry.resampling] at hx hy
    simp only [source, opposite_eq_ok, hx, hy, Except.ok_bind]
    rfl
  | zoom factor =>
    -- A position in the zoomed image shows that the factor is not zero.
    have hfactor : factor ≠ 0 := by
      rintro rfl
      simp [Geometry.resampling] at hx
    simp only [source, div_eq_ok _ hfactor, Except.ok_bind]
    rfl
  | tile count =>
    -- A position in the tiled image shows that the tile has both sides.
    have hw : w ≠ 0 := by
      rintro rfl
      simp [Geometry.resampling] at hx
    have hh : h ≠ 0 := by
      rintro rfl
      simp [Geometry.resampling] at hy
    simp only [source, mod_eq_ok _ hw, mod_eq_ok _ hh, Except.ok_bind]
    rfl

/-- A geometric command goes well when its result is within the limit. -/
theorem apply_eq_ok {g : Geometry} {image : Image}
    (hw : (g.resampling image.width image.height).width ≤ maxSide)
    (hh : (g.resampling image.width image.height).height ≤ maxSide) :
    apply g image = .ok (g.apply image) := by
  rw [apply, newSize_eq_ok hw hh]
  simp only [Except.ok_bind, Geometry.apply, Image.resample]
  apply build_eq_ok hw hh
  intro x y hx hy
  rw [source_eq_ok hx hy]
  exact read_eq_ok (g.inside_resampling hx hy)

/-! ## Colours -/

def invert (c : Colour) : Checked Colour := do
  let red ← sub 255 c.red.toNat
  let green ← sub 255 c.green.toNat
  let blue ← sub 255 c.blue.toNat
  pure { c with red := UInt8.ofNat red, green := UInt8.ofNat green, blue := UInt8.ofNat blue }

def drawOver (top bottom : Colour) : Checked Colour :=
  let ta := top.alpha.toFloat32 / 255
  let ba := bottom.alpha.toFloat32 / 255
  let alpha := ta + ba * (1 - ta)
  if alpha ≤ 0 then .ok .transparent
  else do
    let channel (t b : UInt8) : Checked UInt8 := do
      let c ← divFloat (t.toFloat32 * ta + b.toFloat32 * ba * (1 - ta)) alpha
      pure (Colour.clamp 0 255 c.round).toUInt8
    let red ← channel top.red bottom.red
    let green ← channel top.green bottom.green
    let blue ← channel top.blue bottom.blue
    pure { red, green, blue, alpha := (alpha * 255).round.toUInt8 }

/-- The colour that a mode of `join` makes. -/
def joinColour : JoinMode → Colour → Colour → Checked Colour
  | .overlay, base, drawn => drawOver drawn base
  | .under, base, drawn => drawOver base drawn
  | .replace, _, drawn => .ok drawn

/-- The colour that `join` makes under a mask. -/
def joinMasked (mode : JoinMode) (base drawn mask : Colour) : Checked Colour := do
  let joined ← joinColour mode base drawn
  pure (Colour.mix base joined (Colour.luminance mask))

/-- What an operator does to two channel values. The sum and the difference of two values saturate,
    so there is nothing to check about them. -/
def channel : Operator → UInt8 → UInt8 → Checked UInt8
  | .mul, a, b => do
    let product ← fit halfLimit (a.toNat * b.toNat)
    let sum ← fit halfLimit (product + 127)
    let quotient ← div sum 255
    pure (UInt8.ofNat quotient)
  | .div, a, b =>
    if b = 0 then .ok 0
    else do
      let product ← fit Text.wordLimit (a.toNat * 255)
      let quotient ← div product b.toNat
      pure (UInt8.ofNat (min 255 quotient))
  | .mod, a, b =>
    if b = 0 then .ok 0
    else do
      let remainder ← mod a.toNat b.toNat
      pure (UInt8.ofNat remainder)
  | .xor, a, b => .ok (Operator.xor.channel a b)
  | .add, a, b => .ok (Operator.add.channel a b)
  | .sub, a, b => .ok (Operator.sub.channel a b)

def colour (o : Operator) (a b : Colour) : Checked Colour := do
  let red ← channel o a.red b.red
  let green ← channel o a.green b.green
  let blue ← channel o a.blue b.blue
  pure { red, green, blue, alpha := max a.alpha b.alpha }

/-- A channel is never above the largest one, so inverting it stays above zero. -/
theorem invert_eq_ok (c : Colour) : invert c = .ok c.invert := by
  -- No channel is above 255, so that each of them can be subtracted.
  have hchannel (v : UInt8) : sub 255 v.toNat = .ok (255 - v.toNat) := by
    have := v.toNat_lt
    exact sub_eq_ok (by omega)
  have hbyte (v : UInt8) : UInt8.ofNat (255 - v.toNat) = 255 - v := by
    have hle : v ≤ 255 := by
      rw [UInt8.le_iff_toNat_le]
      have := v.toNat_lt
      exact Nat.le_of_lt_succ this
    apply UInt8.toNat_inj.1
    rw [UInt8.toNat_sub_of_le _ _ hle]
    simp
    omega
  simp only [invert, hchannel, Except.ok_bind, hbyte]
  rfl

/-- Drawing a colour over another one stays within the channels. -/
private theorem drawOver_eq_ok (top bottom : Colour) :
    drawOver top bottom = .ok (Colour.drawOver top bottom) := by
  by_cases halpha : top.alpha.toFloat32 / 255 +
      bottom.alpha.toFloat32 / 255 * (1 - top.alpha.toFloat32 / 255) ≤ 0
  · simp only [drawOver, Colour.drawOver, if_pos halpha]
  · simp only [drawOver, Colour.drawOver, if_neg halpha, divFloat, Except.ok_bind,
      pure_bind, Except.pure_eq_ok]

/-- Every mode of `join` stays within the channels. -/
theorem joinColour_eq_ok (mode : JoinMode) (base drawn : Colour) :
    joinColour mode base drawn = .ok (mode.colour base drawn) := by
  cases mode with
  | overlay => exact drawOver_eq_ok drawn base
  | under => exact drawOver_eq_ok base drawn
  | replace => rfl

theorem joinMasked_eq_ok (mode : JoinMode) (base drawn mask : Colour) :
    joinMasked mode base drawn mask = .ok (Command.joinMasked mode base drawn mask) := by
  rw [joinMasked, joinColour_eq_ok]
  rfl

/-- Every operator stays within a channel. -/
private theorem channel_eq_ok (o : Operator) (a b : UInt8) :
    channel o a b = .ok (o.channel a b) := by
  have ha : a.toNat ≤ 255 := Nat.le_of_lt_succ a.toNat_lt
  have hb : b.toNat ≤ 255 := Nat.le_of_lt_succ b.toNat_lt
  have hzero (h : b ≠ 0) : b.toNat ≠ 0 := fun h0 => h (UInt8.toNat_inj.1 h0)
  cases o with
  | xor | add | sub => rfl
  | mul =>
    -- The largest product leaves room for the 127 that rounds the quotient.
    have hproduct : a.toNat * b.toNat ≤ 255 * 255 := Nat.mul_le_mul ha hb
    have hroom : 255 * 255 + 127 < halfLimit := by decide
    simp only [channel, fit_eq_ok (show a.toNat * b.toNat < halfLimit by omega),
      fit_eq_ok (show a.toNat * b.toNat + 127 < halfLimit by omega),
      div_eq_ok _ (show 255 ≠ 0 by decide), Except.ok_bind, Except.pure_eq_ok, Operator.channel]
  | div =>
    have hroom : 255 * 255 < Text.wordLimit := by decide
    have hproduct : a.toNat * 255 < Text.wordLimit :=
      Nat.lt_of_le_of_lt (Nat.mul_le_mul_right 255 ha) hroom
    by_cases h : b = 0
    · simp only [channel, Operator.channel, if_pos h]
    · simp only [channel, Operator.channel, if_neg h, fit_eq_ok hproduct, div_eq_ok _ (hzero h),
        Except.ok_bind, Except.pure_eq_ok]
  | mod =>
    by_cases h : b = 0
    · simp only [channel, Operator.channel, if_pos h]
    · have hbyte : UInt8.ofNat (a.toNat % b.toNat) = a % b := by
        apply UInt8.toNat_inj.1
        rw [UInt8.toNat_ofNat_of_lt', UInt8.toNat_mod]
        have hlt := Nat.mod_lt a.toNat (Nat.pos_of_ne_zero (hzero h))
        exact Nat.lt_of_lt_of_le hlt (Nat.le_succ_of_le hb)
      simp only [channel, Operator.channel, if_neg h, mod_eq_ok _ (hzero h), Except.ok_bind,
        Except.pure_eq_ok, hbyte]

/-- An operator works channel by channel. -/
theorem colour_eq_ok (o : Operator) (a b : Colour) : colour o a b = .ok (o.colour a b) := by
  simp only [colour, channel_eq_ok, Except.ok_bind]
  rfl

end Checked

end Tapestry
