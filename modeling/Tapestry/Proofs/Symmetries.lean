import Tapestry.Proofs.Enlargements

/-!
# Symmetries of images

A mirror or a rotation exchanges the columns and the rows or leaves them, and it counts each of the
two from the other end or not. `Symmetry` is these three choices. Two symmetries after each other
are one, and which one is a computation with the choices. It does not matter whether an image is
enlarged before or after a symmetry: repeated positions are counted from the other end as the
positions are, and so are repeated images.

## Key results

- `Symmetry.apply_apply`: two symmetries are one
- `Symmetry.apply_enlarged`: a symmetry and an enlargement can be exchanged
- `Motion.onward?_stage`: the mirrors and the rotations are symmetries
- `motions_compose`: the laws of the stages
-/

namespace Tapestry

/-! ## Counting from the other end -/

/-- A position counted from the other end of a side, or left as it is. -/
def reflect (reversed : Bool) (side x : Nat) : Nat := if reversed then side - 1 - x else x

section Reflect

variable {side x : Nat}

/-- The opposite of a position is inside as well. -/
private theorem reflect_lt (reversed : Bool) (h : x < side) : reflect reversed side x < side := by
  unfold reflect
  split <;> omega

/-- To count from the other end twice is to leave a position as it is. -/
private theorem reflect_reflect (reversed reversed' : Bool) (h : x < side) :
    reflect reversed side (reflect reversed' side x) = reflect (reversed ^^ reversed') side x := by
  cases reversed with
  | false => cases reversed' <;> rfl
  | true =>
    cases reversed' with
    | false => rfl
    | true =>
      show side - 1 - (side - 1 - x) = x
      omega

/-- Counting repeated positions from the other end is counting the positions. -/
private theorem reflect_div (reversed : Bool) {factor : Nat} (h : x < side * factor) :
    reflect reversed (side * factor) x / factor = reflect reversed side (x / factor) := by
  cases reversed with
  | false => rfl
  | true =>
    show (side * factor - 1 - x) / factor = side - 1 - x / factor
    rw [Nat.mul_comm] at h ⊢
    rw [Nat.sub_sub, Nat.sub_sub, Nat.add_comm 1 x, Nat.add_comm 1 (x / factor),
      Nat.mul_sub_div _ _ _ h]

/-- Counting in a repeated side from the other end is counting in the side. -/
private theorem reflect_mod (reversed : Bool) {count : Nat} (h : x < side * count) :
    reflect reversed (side * count) x % side = reflect reversed side (x % side) := by
  cases reversed with
  | false => rfl
  | true =>
    show (side * count - 1 - x) % side = side - 1 - x % side
    rw [Nat.sub_sub, Nat.sub_sub, Nat.add_comm 1 x, Nat.add_comm 1 (x % side),
      Nat.mul_sub_mod h]

end Reflect

/-! ## Symmetries -/

/-- A symmetry of rectangles: whether columns and rows are exchanged, and which of the columns and
    the rows of the source are counted from the other end. -/
structure Symmetry where
  exchanged : Bool
  columnsReversed : Bool
  rowsReversed : Bool
  deriving DecidableEq, Repr

namespace Symmetry

/-- How a symmetry shows an image of the given size. -/
def resampling (w h : Nat) (s : Symmetry) : Resampling :=
  match s.exchanged with
  | false => ⟨w, h, fun x y => (reflect s.columnsReversed w x, reflect s.rowsReversed h y)⟩
  | true => ⟨h, w, fun x y => (reflect s.columnsReversed w y, reflect s.rowsReversed h x)⟩

/-- Apply a symmetry to an image. -/
def apply (s : Symmetry) (image : Image) : Image :=
  image.resample (s.resampling image.width image.height)

/-- One symmetry and then another. The second one counts what are the rows of the source as columns
    when the first one has exchanged them. -/
def andThen (s t : Symmetry) : Symmetry where
  exchanged := s.exchanged ^^ t.exchanged
  columnsReversed :=
    s.columnsReversed ^^ (if s.exchanged then t.rowsReversed else t.columnsReversed)
  rowsReversed := s.rowsReversed ^^ (if s.exchanged then t.columnsReversed else t.rowsReversed)

/-- The symmetry that moves nothing. -/
def identity : Symmetry := ⟨false, false, false⟩

/-- Moving nothing changes nothing. -/
theorem apply_identity (image : Image) : identity.apply image = image :=
  image.resample_keep

/-- No symmetry shows a position outside its input. -/
theorem inside_resampling (s : Symmetry) {w h x y : Nat} (hx : x < (s.resampling w h).width)
    (hy : y < (s.resampling w h).height) :
    ((s.resampling w h).source x y).1 < w ∧ ((s.resampling w h).source x y).2 < h := by
  obtain ⟨exchanged, columns, rows⟩ := s
  cases exchanged with
  | false => exact ⟨reflect_lt columns hx, reflect_lt rows hy⟩
  | true => exact ⟨reflect_lt columns hy, reflect_lt rows hx⟩

/-- A symmetry behind a resampling is a resampling. -/
theorem apply_resample (s : Symmetry) (image : Image) (r : Resampling) :
    s.apply (image.resample r) = image.resample (r.comp (s.resampling r.width r.height)) :=
  image.resample_resample fun _ _ hx hy => s.inside_resampling hx hy

/-- Two symmetries after each other are one. -/
theorem apply_apply (s t : Symmetry) (image : Image) :
    t.apply (s.apply image) = (s.andThen t).apply image := by
  refine (t.apply_resample image (s.resampling image.width image.height)).trans ?_
  obtain ⟨exchanged, columns, rows⟩ := s
  obtain ⟨exchanged', columns', rows'⟩ := t
  -- The coordinate that counts the columns of the result counts those of the source, unless one of
  -- the two symmetries has exchanged them.
  cases exchanged with
  | false =>
    cases exchanged' with
    | false =>
      exact image.resample_congr rfl rfl fun x y hx hy =>
        Prod.ext (reflect_reflect columns columns' hx) (reflect_reflect rows rows' hy)
    | true =>
      exact image.resample_congr rfl rfl fun x y hx hy =>
        Prod.ext (reflect_reflect columns columns' hy) (reflect_reflect rows rows' hx)
  | true =>
    cases exchanged' with
    | false =>
      exact image.resample_congr rfl rfl fun x y hx hy =>
        Prod.ext (reflect_reflect columns rows' hy) (reflect_reflect rows columns' hx)
    | true =>
      exact image.resample_congr rfl rfl fun x y hx hy =>
        Prod.ext (reflect_reflect columns rows' hx) (reflect_reflect rows columns' hy)

/-- An image can be enlarged before or after a symmetry. -/
theorem apply_enlarged (s : Symmetry) (z : Enlargement) (factor : Nat) (image : Image) :
    (z.geometry factor).apply (s.apply image) = s.apply ((z.geometry factor).apply image) := by
  have hafter := (z.geometry factor).apply_resample image (s.resampling image.width image.height)
  have hbefore := s.apply_resample image ((z.geometry factor).resampling image.width image.height)
  refine hafter.trans (Eq.trans ?_ hbefore.symm)
  -- The quotients of a zoom and the remainders of a tile can be counted from the other end too.
  obtain ⟨exchanged, columns, rows⟩ := s
  cases z with
  | zoom =>
    cases exchanged with
    | false =>
      exact image.resample_congr rfl rfl fun x y hx hy =>
        Prod.ext (reflect_div columns hx).symm (reflect_div rows hy).symm
    | true =>
      exact image.resample_congr rfl rfl fun x y hx hy =>
        Prod.ext (reflect_div columns hy).symm (reflect_div rows hx).symm
  | tile =>
    cases exchanged with
    | false =>
      exact image.resample_congr rfl rfl fun x y hx hy =>
        Prod.ext (reflect_mod columns hx).symm (reflect_mod rows hy).symm
    | true =>
      exact image.resample_congr rfl rfl fun x y hx hy =>
        Prod.ext (reflect_mod columns hy).symm (reflect_mod rows hx).symm

/-- A symmetry makes no image too large, and none small enough. -/
private theorem fits_apply (s : Symmetry) (z : Enlargement) (factor : Nat) (image : Image) :
    (z.geometry factor).Fits (s.apply image).size ↔ (z.geometry factor).Fits image.size := by
  have hscale : (∃ t, (s.apply image).size.scale factor = .ok t) ↔
      ∃ t, image.size.scale factor = .ok t := by
    rw [Size.exists_scale_iff, Size.exists_scale_iff]
    obtain ⟨exchanged, columns, rows⟩ := s
    cases exchanged with
    | false => exact Iff.rfl
    | true => exact and_comm
  cases z with
  | zoom => exact or_congr Iff.rfl hscale
  | tile => exact hscale

/-- What an enlargement makes of the result of a symmetry is the result for what it makes of the
    image, and nothing when it makes nothing of the image. -/
private theorem transform_apply (s : Symmetry) (z : Enlargement) (factor : Nat) (image : Image) :
    (Command.transform (s.apply image) (z.geometry factor)).toOption =
      (Command.transform image (z.geometry factor)).toOption.map s.apply := by
  -- An enlargement fits the turned or mirrored image exactly when it fits the image.
  ext out
  rw [Option.map_eq_some_iff, Except.toOption_eq_some, Command.transform_eq_ok, fits_apply,
    apply_enlarged]
  constructor
  · intro h
    have htransform := Command.transform_eq_ok.2 ⟨h.1, rfl⟩
    exact ⟨_, Except.toOption_eq_some.2 htransform, h.2.symm⟩
  · intro h
    obtain ⟨enlarged, henlarged, hout⟩ := h
    obtain ⟨hfits, rfl⟩ := Command.transform_eq_ok.1 (Except.toOption_eq_some.1 henlarged)
    exact ⟨hfits, hout.symm⟩

end Symmetry

/-! ## The commands -/

/-- The mirrors and the rotations. A quarter turn is clockwise. -/
inductive Motion where
  | mirrorColumns
  | mirrorRows
  | quarterTurn
  | halfTurn
  | threeQuarterTurn
  deriving DecidableEq, Repr

namespace Motion

/-- The words of a mirror or a rotation. -/
def stage : Motion → List String
  | mirrorColumns => ["mirror"]
  | mirrorRows => ["mirror", "vertical"]
  | quarterTurn => ["rotate", "90"]
  | halfTurn => ["rotate", "180"]
  | threeQuarterTurn => ["rotate", "270"]

/-- The symmetry of a mirror or a rotation. -/
def symmetry : Motion → Symmetry
  | mirrorColumns => ⟨false, true, false⟩
  | mirrorRows => ⟨false, false, true⟩
  | quarterTurn => ⟨true, false, true⟩
  | halfTurn => ⟨false, true, true⟩
  | threeQuarterTurn => ⟨true, true, false⟩

variable {c : Context}

/-- A mirror or a rotation applies its symmetry, to every image. -/
theorem onward?_stage (m : Motion) (stages : List (List String)) (image : Image) :
    onward? c (m.stage :: stages) image = onward? c stages (m.symmetry.apply image) := by
  cases m with
  | mirrorColumns => exact onward?_geometric .mirror [] stages image
  | mirrorRows => exact onward?_geometric .mirror ["vertical"] stages image
  | quarterTurn => exact onward?_geometric .rotate ["90"] stages image
  | halfTurn => exact onward?_geometric .rotate ["180"] stages image
  | threeQuarterTurn => exact onward?_geometric .rotate ["270"] stages image

/-- The stage of a motion has an input to move. -/
theorem stagesImage?_stage (m : Motion) (stages : List (List String)) (image : Image) :
    stagesImage? (m.stage :: stages) (some image) c = onward? c (m.stage :: stages) image := by
  cases m <;> exact stagesImage?_some ..

/-- The symmetry of several mirrors and rotations after each other. -/
def composed : List Motion → Symmetry
  | [] => .identity
  | m :: motions => m.symmetry.andThen (composed motions)

/-- Mirrors and rotations after each other apply one symmetry. -/
private theorem onward?_stages (motions : List Motion) (image : Image) :
    onward? c (motions.map stage) image = some ((composed motions).apply image) := by
  induction motions generalizing image with
  | nil => rw [List.map_nil, onward?_nil, composed, Symmetry.apply_identity]
  | cons m motions ih => rw [List.map_cons, onward?_stage, ih, Symmetry.apply_apply, composed]

/-- Mirrors and rotations that come to the same symmetry make the same image. -/
private theorem onward?_stages_congr (motions motions' : List Motion)
    (h : composed motions = composed motions') (image : Image) :
    onward? c (motions.map stage) image = onward? c (motions'.map stage) image := by
  rw [onward?_stages, onward?_stages, h]

/-- A mirror or a rotation can be exchanged with an enlargement. -/
theorem onward?_enlargement (m : Motion) (z : Enlargement) (words : List String) (image : Image) :
    onward? c [m.stage, z.name :: words] image = onward? c [z.name :: words, m.stage] image := by
  rw [onward?_stage, Enlargement.name, onward?_geometric, onward?_geometric]
  cases hread : z.command.read (Arguments.ofList words) with
  | error e => rfl
  | ok g =>
    obtain ⟨factor, -, rfl⟩ := z.exists_of_read hread
    show ((Command.transform (m.symmetry.apply image) (z.geometry factor)).toOption).bind _ =
      ((Command.transform image (z.geometry factor)).toOption).bind _
    rw [Symmetry.transform_apply]
    cases (Command.transform image (z.geometry factor)).toOption with
    | none => rfl
    | some enlarged => exact (onward?_stage m [] enlarged).symm

end Motion

/-- The laws of the mirrors and the rotations, which make an image of every image. Each mirror
    undoes itself, and the two after each other are half a turn. Quarter turns add up. A quarter
    turn behind a mirror is three of them in front of it. And each of the commands can be exchanged
    with `zoom` and with `tile`, whatever their words: either both orders make the same image, or
    none does. -/
theorem motions_compose (c : Context) (image : Image) :
    (∀ m : Motion, (stagesImage? [m.stage] (some image) c).isSome) ∧
      stagesImage? [["mirror"], ["mirror"]] (some image) c = some image ∧
      stagesImage? [["mirror", "vertical"], ["mirror", "vertical"]] (some image) c = some image ∧
      stagesImage? [["mirror"], ["mirror", "vertical"]] (some image) c =
        stagesImage? [["rotate", "180"]] (some image) c ∧
      stagesImage? [["rotate", "90"], ["rotate", "90"]] (some image) c =
        stagesImage? [["rotate", "180"]] (some image) c ∧
      stagesImage? [["rotate", "90"], ["rotate", "90"], ["rotate", "90"]] (some image) c =
        stagesImage? [["rotate", "270"]] (some image) c ∧
      stagesImage? [["rotate", "90"], ["rotate", "270"]] (some image) c = some image ∧
      stagesImage? [["mirror"], ["rotate", "90"]] (some image) c =
        stagesImage? [["rotate", "270"], ["mirror"]] (some image) c ∧
      ∀ (m : Motion) (z : Enlargement) (words : List String),
        stagesImage? [m.stage, z.name :: words] (some image) c =
          stagesImage? [z.name :: words, m.stage] (some image) c := by
  simp only [stagesImage?_some, Motion.stagesImage?_stage]
  -- Each of the laws that name their commands is the same symmetry on both sides.
  refine ⟨fun m => ?_, ?_, ?_, ?_, ?_, ?_, ?_, ?_, fun m z words => ?_⟩
  · rw [Motion.onward?_stage, onward?_nil, Option.isSome_some]
  · exact Motion.onward?_stages_congr [.mirrorColumns, .mirrorColumns] [] rfl image
  · exact Motion.onward?_stages_congr [.mirrorRows, .mirrorRows] [] rfl image
  · exact Motion.onward?_stages_congr [.mirrorColumns, .mirrorRows] [.halfTurn] rfl image
  · exact Motion.onward?_stages_congr [.quarterTurn, .quarterTurn] [.halfTurn] rfl image
  · exact Motion.onward?_stages_congr [.quarterTurn, .quarterTurn, .quarterTurn]
      [.threeQuarterTurn] rfl image
  · exact Motion.onward?_stages_congr [.quarterTurn, .threeQuarterTurn] [] rfl image
  · exact Motion.onward?_stages_congr [.mirrorColumns, .quarterTurn]
      [.threeQuarterTurn, .mirrorColumns] rfl image
  · exact Motion.onward?_enlargement m z words image

-- A quarter turn of two columns: the left one is the upper row.
example :
    stagesImage? [["rotate", "90"]]
        (some (.ofFn 2 1 fun x _ => if x = 0 then .transparent else .rgb 1 2 3))
        (.fresh ⟨[], []⟩) =
      some (.ofFn 1 2 fun _ y => if y = 0 then .transparent else .rgb 1 2 3) := by
  decide +kernel

end Tapestry
