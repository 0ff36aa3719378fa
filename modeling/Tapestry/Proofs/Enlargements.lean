import Tapestry.Proofs.ReadBack
import Tapestry.Proofs.StageImages

/-!
# Enlarging twice

The commands `zoom` and `tile` make an image larger by a factor, the one by repeating every position
and the other by repeating the image. To enlarge by two factors is to enlarge by their product, and
a `zoom` and a `tile` can be exchanged. The limit on the sides is the same in all of these cases,
because an image that is too large after the first command would be too large in the end.

## Key results

- `Enlargement.apply_apply`: two factors are one
- `Geometry.apply_tile_zoom`: a zoom and a tile can be exchanged
- `onward?_enlarged`: what two enlargements make of an image in range
- `enlargements_compose`: the same for the stages
-/

namespace Tapestry

/-! ## Positions -/

namespace Geometry

/-- To zoom twice is to zoom by the product. -/
theorem apply_zoom_zoom (m n : Nat) (image : Image) :
    (zoom n).apply ((zoom m).apply image) = (zoom (m * n)).apply image := by
  rw [apply_apply]
  refine Image.resample_congr image (Nat.mul_assoc ..) (Nat.mul_assoc ..) fun x y _ _ => ?_
  show (x / n / m, y / n / m) = (x / (m * n), y / (m * n))
  rw [Nat.div_div_eq_div_mul, Nat.div_div_eq_div_mul, Nat.mul_comm n m]

/-- To tile twice is to tile by the product. -/
theorem apply_tile_tile (m n : Nat) (image : Image) :
    (tile n).apply ((tile m).apply image) = (tile (m * n)).apply image := by
  rw [apply_apply]
  refine Image.resample_congr image (Nat.mul_assoc ..) (Nat.mul_assoc ..) fun x y _ _ => ?_
  show (x % (image.width * m) % image.width, y % (image.height * m) % image.height) =
    (x % image.width, y % image.height)
  rw [Nat.mod_mul_right_mod, Nat.mod_mul_right_mod]

/-- To repeat an image and then its positions is to repeat the positions first. -/
theorem apply_zoom_tile (m n : Nat) (image : Image) :
    (zoom m).apply ((tile n).apply image) = (tile n).apply ((zoom m).apply image) := by
  rw [apply_apply, apply_apply]
  refine Image.resample_congr image (Nat.mul_right_comm ..) (Nat.mul_right_comm ..)
    fun x y _ _ => ?_
  show (x / m % image.width, y / m % image.height) =
    (x % (image.width * m) / m, y % (image.height * m) / m)
  rw [Nat.mod_mul_left_div_self, Nat.mod_mul_left_div_self]

/-- Tiling once changes nothing. -/
theorem apply_tile_one (image : Image) : (tile 1).apply image = image := by
  have hkept : (tile 1).apply image =
      image.resample ⟨image.width, image.height, fun x y => (x, y)⟩ := by
    refine Image.resample_congr image (Nat.mul_one _) (Nat.mul_one _) fun x y hx hy => ?_
    show (x % image.width, y % image.height) = (x, y)
    rw [Nat.mod_eq_of_lt (by simpa [resampling] using hx),
      Nat.mod_eq_of_lt (by simpa [resampling] using hy)]
  rw [hkept, Image.resample_keep]

end Geometry

/-! ## The commands -/

/-- The commands that enlarge an image by a factor. -/
inductive Enlargement where
  | zoom
  | tile
  deriving DecidableEq, Repr

namespace Enlargement

/-- The geometric command of an enlargement. -/
def command : Enlargement → GeometricCommand
  | zoom => .zoom
  | tile => .tile

/-- The name of an enlargement. -/
def name (z : Enlargement) : String := z.command.name

/-- An enlargement by a factor. -/
def geometry (z : Enlargement) (factor : Nat) : Geometry :=
  match z with
  | zoom => .zoom factor
  | tile => .tile factor

variable (z : Enlargement)

/-- Both enlargements make an image wider by their factor. -/
private theorem width_apply (factor : Nat) (image : Image) :
    ((z.geometry factor).apply image).width = image.width * factor := by
  cases z <;> rfl

private theorem height_apply (factor : Nat) (image : Image) :
    ((z.geometry factor).apply image).height = image.height * factor := by
  cases z <;> rfl

/-- To enlarge twice is to enlarge by the product. -/
theorem apply_apply (m n : Nat) (image : Image) :
    (z.geometry n).apply ((z.geometry m).apply image) = (z.geometry (m * n)).apply image := by
  cases z with
  | zoom => exact Geometry.apply_zoom_zoom m n image
  | tile => exact Geometry.apply_tile_tile m n image

/-- The factor 1 changes nothing, in either enlargement. -/
private theorem apply_one (image : Image) : (z.geometry 1).apply image = image := by
  cases z with
  | zoom => exact Geometry.apply_zoom_one image
  | tile => exact Geometry.apply_tile_one image

/-- An enlargement reads its first argument as its factor. -/
private theorem read_eq (args : Arguments) :
    ∃ what, z.command.read args = (args.word 0 what >>= fun n =>
      Command.requirePositive n what >>= fun factor => pure (z.geometry factor)) := by
  cases z with
  | zoom => exact ⟨"factor", rfl⟩
  | tile => exact ⟨"count", rfl⟩

/-- The factor that an enlargement reads is positive. -/
theorem exists_of_read {args : Arguments} {g : Geometry} (h : z.command.read args = .ok g) :
    ∃ factor, 0 < factor ∧ g = z.geometry factor := by
  obtain ⟨what, hread⟩ := z.read_eq args
  rw [hread] at h
  obtain ⟨n, -, h⟩ := Except.bind_eq_ok.1 h
  obtain ⟨factor, hfactor, h⟩ := Except.bind_eq_ok.1 h
  have hne : factor ≠ 0 := Command.ensures_requirePositive n what factor hfactor
  exact ⟨factor, Nat.pos_of_ne_zero hne, (Except.ok.inj h).symm⟩

/-- A positive factor is read from its text, when it is below the word limit. -/
private theorem read_toString {factor : Nat} (h : 0 < factor) :
    (z.command.read (Arguments.ofList [toString factor])).toOption =
      if factor < Text.wordLimit then some (z.geometry factor) else none := by
  -- A number is no keyword, so it is the only positional argument.
  have hargs : Arguments.ofList [toString factor] = ⟨[toString factor], []⟩ :=
    Arguments.ofList_positional (List.forall_mem_singleton.2 (equals_not_mem_toString factor))
  have hword (what : String) : Arguments.word ⟨[toString factor], []⟩ 0 what =
      wordOfText (toString factor) what := rfl
  have hne : factor ≠ 0 := by omega
  obtain ⟨what, hread⟩ := z.read_eq ⟨[toString factor], []⟩
  rw [hargs, hread, hword, wordOfText_toString]
  -- A factor that is no word is refused when it is read.
  by_cases hlimit : factor < Text.wordLimit
  · rw [if_pos hlimit, if_pos hlimit, Except.ok_bind, Command.requirePositive, if_neg hne]
    rfl
  · rw [if_neg hlimit, if_neg hlimit]
    rfl

end Enlargement

/-! ## Sizes -/

/-- Whether an image stays within the limit when its sides are multiplied by a factor. -/
def Image.Grows (image : Image) (factor : Nat) : Prop :=
  image.width * factor ≤ maxSide ∧ image.height * factor ≤ maxSide

instance (image : Image) (factor : Nat) : Decidable (image.Grows factor) :=
  inferInstanceAs (Decidable (_ ∧ _))

section InRange

variable {image : Image}

/-- A factor by which an image can grow is a machine word. -/
private theorem Image.Grows.lt_wordLimit {factor : Nat} (h : image.Grows factor)
    (himage : image.InRange) : factor < Text.wordLimit := by
  have hwidth : 0 < image.width := himage.1.1
  have hword := maxSide_lt_wordLimit
  calc factor ≤ image.width * factor := Nat.le_mul_of_pos_left factor hwidth
    _ ≤ maxSide := h.1
    _ < Text.wordLimit := hword

/-- An image in range need not be enlarged to be in range. -/
private theorem Image.grows_one (himage : image.InRange) : image.Grows 1 := by
  show image.width * 1 ≤ maxSide ∧ image.height * 1 ≤ maxSide
  rw [Nat.mul_one, Nat.mul_one]
  exact ⟨himage.1.2, himage.2.2⟩

namespace Enlargement

variable (z : Enlargement)

/-- An enlargement fits an image in range exactly when the image can grow. -/
private theorem fits_iff (himage : image.InRange) {factor : Nat} :
    (z.geometry factor).Fits image.size ↔ image.Grows factor := by
  have hscale : (∃ t, image.size.scale factor = .ok t) ↔ image.Grows factor :=
    Size.exists_scale_iff
  cases z with
  | tile => exact hscale
  | zoom =>
    show factor = 1 ∨ (∃ t, image.size.scale factor = .ok t) ↔ image.Grows factor
    rw [hscale]
    -- The factor 1 is not compared with the limit, and an image in range passes anyway.
    refine or_iff_right_of_imp fun hone => ?_
    subst hone
    exact Image.grows_one himage

/-- What an enlargement makes of an image in range is in range. -/
private theorem inRange_apply (himage : image.InRange) {factor : Nat} (hfactor : 0 < factor)
    (hgrows : image.Grows factor) : ((z.geometry factor).apply image).InRange := by
  have hwidth := z.width_apply factor image
  have hheight := z.height_apply factor image
  -- Each side is positive as a product of positive numbers, and bounded by assumption.
  refine ⟨⟨?_, ?_⟩, ?_, ?_⟩
  · show 0 < ((z.geometry factor).apply image).width
    rw [hwidth]
    exact Nat.mul_pos himage.1.1 hfactor
  · show ((z.geometry factor).apply image).width ≤ maxSide
    rw [hwidth]
    exact hgrows.1
  · show 0 < ((z.geometry factor).apply image).height
    rw [hheight]
    exact Nat.mul_pos himage.2.1 hfactor
  · show ((z.geometry factor).apply image).height ≤ maxSide
    rw [hheight]
    exact hgrows.2

/-- An image can grow by a product exactly when it can grow by the one factor and then by the
    other. -/
theorem grows_mul_iff {m n : Nat} (hn : 0 < n) :
    image.Grows (m * n) ↔
      image.Grows m ∧ ((z.geometry m).apply image).Grows n := by
  have hwidth : image.width * m ≤ image.width * m * n := Nat.le_mul_of_pos_right _ hn
  have hheight : image.height * m ≤ image.height * m * n := Nat.le_mul_of_pos_right _ hn
  simp only [Image.Grows, width_apply, height_apply, ← Nat.mul_assoc]
  omega

end Enlargement

/-- What a stage that enlarges makes of an image in range. -/
theorem onward?_enlargement (z : Enlargement) {c : Context} (himage : image.InRange)
    {factor : Nat} (hfactor : 0 < factor) (stages : List (List String)) :
    onward? c ([z.name, toString factor] :: stages) image =
      if image.Grows factor then onward? c stages ((z.geometry factor).apply image) else none := by
  rw [Enlargement.name, onward?_geometric, z.read_toString hfactor]
  by_cases hgrows : image.Grows factor
  · have htransform : (Command.transform image (z.geometry factor)).toOption =
        some ((z.geometry factor).apply image) :=
      Except.toOption_eq_some.2 (Command.transform_eq_ok.2 ⟨(z.fits_iff himage).2 hgrows, rfl⟩)
    rw [if_pos (hgrows.lt_wordLimit himage), if_pos hgrows, Option.bind_some, htransform,
      Option.bind_some]
  -- A result would show that the image does not grow too large.
  · have htransform : (Command.transform image (z.geometry factor)).toOption = none := by
      refine Option.eq_none_iff_forall_ne_some.2 fun out hout => hgrows ?_
      exact (z.fits_iff himage).1 (Command.transform_eq_ok.1 (Except.toOption_eq_some.1 hout)).1
    rw [if_neg hgrows]
    -- The factor is refused as a word, or else as one that makes the image too large.
    by_cases hword : factor < Text.wordLimit
    · rw [if_pos hword, Option.bind_some, htransform, Option.bind_none]
    · rw [if_neg hword, Option.bind_none, Option.bind_none]

/-- Two enlargements give an image in range exactly when it can grow by the product. -/
theorem onward?_enlarged (z z' : Enlargement) {c : Context} (himage : image.InRange) {m n : Nat}
    (hm : 0 < m) (hn : 0 < n) :
    onward? c [[z.name, toString m], [z'.name, toString n]] image =
      if image.Grows (m * n) then some ((z'.geometry n).apply ((z.geometry m).apply image))
      else none := by
  rw [onward?_enlargement z himage hm]
  by_cases hgrows : image.Grows m
  · have hrange := z.inRange_apply himage hm hgrows
    rw [if_pos hgrows, onward?_enlargement z' hrange hn, onward?_nil]
    simp only [z.grows_mul_iff hn, hgrows, true_and]
  · rw [if_neg hgrows, if_neg fun h => hgrows ((z.grows_mul_iff hn).1 h).1]

end InRange

/-- The laws of `zoom` and `tile` on an image in range, by factors of at least 1. To enlarge by two
    factors gives an image exactly when their product is below 2 ^ 32 and to enlarge by the product
    gives this image. A `zoom` and a `tile` have the same image in both orders, or none in both. To
    enlarge by 1 gives the image itself. -/
theorem enlargements_compose (c : Context) {image : Image} (himage : image.InRange) {m n : Nat}
    (hm : 1 ≤ m) (hn : 1 ≤ n) :
    (∀ (z : Enlargement) (out : Image),
      stagesImage? [[z.name, toString m], [z.name, toString n]] (some image) c = some out ↔
        m * n < Text.wordLimit ∧
          stagesImage? [[z.name, toString (m * n)]] (some image) c = some out) ∧
      stagesImage? [["zoom", toString m], ["tile", toString n]] (some image) c =
        stagesImage? [["tile", toString n], ["zoom", toString m]] (some image) c ∧
      ∀ z : Enlargement, stagesImage? [[z.name, "1"]] (some image) c = some image := by
  simp only [stagesImage?_some]
  refine ⟨fun z out => ?_, ?_, fun z => ?_⟩
  -- Two enlargements in a row are one by the product, which has to be a word for the single stage.
  · have hmn : 0 < m * n := Nat.mul_pos hm hn
    rw [onward?_enlarged z z himage hm hn, z.apply_apply, onward?_enlargement z himage hmn,
      onward?_nil]
    by_cases hgrows : image.Grows (m * n)
    · have hword : m * n < Text.wordLimit := hgrows.lt_wordLimit himage
      simp only [if_pos hgrows, hword, true_and]
    · simp only [if_neg hgrows, reduceCtorEq, and_false]
  -- The factors are different here, and the order of the stages does not matter to the product.
  · show
      onward? c [[Enlargement.zoom.name, toString m], [Enlargement.tile.name, toString n]] image =
        onward? c [[Enlargement.tile.name, toString n], [Enlargement.zoom.name, toString m]] image
    rw [onward?_enlarged .zoom .tile himage hm hn, onward?_enlarged .tile .zoom himage hn hm,
      Nat.mul_comm n m]
    simp only [Enlargement.geometry, Geometry.apply_zoom_tile]
  · show onward? c [[z.name, toString 1]] image = some image
    rw [onward?_enlargement z himage Nat.one_pos, if_pos (Image.grows_one himage), z.apply_one,
      onward?_nil]

/-- An image of two pixels that is made twice and then three times as large. -/
theorem enlargements_compose_six :
    let image := Image.ofFn 2 1 fun x _ => if x = 0 then .transparent else .rgb 1 2 3
    image.InRange ∧ 1 ≤ 2 ∧ 1 ≤ 3 ∧
      stagesImage? [["zoom", "2"], ["zoom", "3"]] (some image) (.fresh ⟨[], []⟩) =
        some (.ofFn 12 6 fun x _ => if x < 6 then .transparent else .rgb 1 2 3) := by
  intro image
  -- A row of two pixels: the pixels at the left stay at the left.
  have himage : image.InRange := by decide
  have hsix : stagesImage? [["zoom", "6"]] (some image) (.fresh ⟨[], []⟩) =
      some (.ofFn 12 6 fun x _ => if x < 6 then .transparent else .rgb 1 2 3) := by
    decide +kernel
  have hlaws := enlargements_compose (.fresh ⟨[], []⟩) himage (m := 2) (n := 3) (by decide)
    (by decide)
  exact ⟨himage, by decide, by decide, (hlaws.1 .zoom _).2 ⟨by decide, hsix⟩⟩

end Tapestry
