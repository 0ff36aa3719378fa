import Tapestry.Proofs.FlatStages
import Tapestry.Proofs.OperandOrder
import Tapestry.Proofs.Pixelwise

/-!
# Images of stages

What stages of the built-in commands make of an image. No stage changes the handles, and a handler
that touches no file reads nothing else of the context, so that every such stage makes one image of
another and hands it on: what a list makes of an image is what its tail makes of the image that its
head makes.

A geometric stage shows its input through a resampling, and two of them show it through two
resamplings, which are one again.

## Key results

- `value?_runStages_ofFunction`: the first stage of a list, and the rest of it
- `onward?_geometric`: the same for the geometric commands
- `Image.resample_resample`: two resamplings are one
-/

namespace Tapestry

/-! ## Stages -/

/-- The image that the built-in commands make of a list of stages, if they make one. -/
def stagesImage? (stages : List (List String)) (seed : Option Image) (c : Context) :
    Option Image :=
  (flatPipeline stages).bind fun e => e.image? seed c

/-- The image that stages of the built-in commands make of an image, if they make one. Without
    stages it is the image itself. -/
def onward? (c : Context) (stages : List (List String)) (image : Image) : Option Image :=
  value? (runStages .builtins stages (some image) c)

section Stages

variable {c : Context}

/-- Without stages an image stays as it is. -/
theorem onward?_nil (image : Image) : onward? c [] image = some image := rfl

/-- The image of stages depends on the handles and the files, and not on the calls made before. -/
private theorem value?_runStages_congr (registry : Registry) (stages : List (List String))
    (input : Option Image) {c c' : Context} (hhandles : c.handles = c'.handles)
    (hfiles : c.files = c'.files) :
    value? (runStages registry stages input c) = value? (runStages registry stages input c') := by
  induction stages generalizing input c c' with
  | nil => cases input <;> rfl
  -- A handler sees the handles and files only, and these stay equal from stage to stage.
  | cons stage stages ih =>
    match stage with
    | [] => exact ih input hhandles hfiles
    | name :: words =>
      cases hget : registry.get? name with
      | none => simp only [runStages, hget, value?]
      | some handler =>
        simp only [runStages, hget, hhandles, hfiles]
        cases handler ⟨words, input, c'.handles⟩ c'.files with
        | error e files => rfl
        | ok image files => exact ih (some image) rfl rfl

/-- A list whose first stage has words has the image that running it gives. -/
theorem stagesImage?_cons (name : String) (words : List String) (stages : List (List String))
    (seed : Option Image) (c : Context) :
    stagesImage? ((name :: words) :: stages) seed c =
      value? (runStages .builtins ((name :: words) :: stages) seed c) := by
  cases hflat : flatPipeline ((name :: words) :: stages) with
  | none =>
    have hempty := flatPipeline_eq_none.1 hflat (name :: words) List.mem_cons_self
    cases hempty
  | some e => rw [stagesImage?, hflat, Option.bind_some, Expr.image?, evaluate_flatPipeline hflat]

/-- From an input on, the stages make of it what they make onward. -/
theorem stagesImage?_some (name : String) (words : List String) (stages : List (List String))
    (image : Image) (c : Context) :
    stagesImage? ((name :: words) :: stages) (some image) c =
      onward? c ((name :: words) :: stages) image :=
  stagesImage?_cons ..

/-- A stage whose handler touches no file makes an image of its own, and the other stages go on from
    there. -/
theorem value?_runStages_ofFunction {name : String} {f : Call → Except EvalError Image}
    (hget : Registry.builtins.get? name = some (.ofFunction f)) (words : List String)
    (stages : List (List String)) (seed : Option Image) :
    value? (runStages .builtins ((name :: words) :: stages) seed c) =
      (f ⟨words, seed, c.handles⟩).toOption.bind (onward? c stages) := by
  simp only [runStages, hget, Handler.ofFunction]
  cases f ⟨words, seed, c.handles⟩ with
  | error e => rfl
  | ok image => exact value?_runStages_congr _ _ _ rfl rfl

/-- A geometric stage that can read its words transforms the image, and the other stages go on from
    there. -/
theorem onward?_geometric (m : GeometricCommand) (words : List String)
    (stages : List (List String)) (image : Image) :
    onward? c ((m.name :: words) :: stages) image =
      ((m.read (Arguments.ofList words)).toOption.bind fun g =>
        (Command.transform image g).toOption).bind (onward? c stages) := by
  have himage := m.image?_eq c.files words image c.handles
  rw [GeometricCommand.handler, Command.geometric, Handler.image?_ofFunction] at himage
  rw [onward?, value?_runStages_ofFunction m.get?_name, himage]

end Stages

/-! ## Resamplings -/

/-- To show through one resampling what is shown through another. -/
def Resampling.comp (r r' : Resampling) : Resampling where
  width := r'.width
  height := r'.height
  source x y := r.source (r'.source x y).1 (r'.source x y).2

namespace Image

/-- Two resamplings are one, when the second shows no position outside the image of the first. -/
theorem resample_resample (image : Image) {r r' : Resampling}
    (h : ∀ x y, x < r'.width → y < r'.height →
      (r'.source x y).1 < r.width ∧ (r'.source x y).2 < r.height) :
    (image.resample r).resample r' = image.resample (r.comp r') := by
  refine ext_pixel (a := (image.resample r).resample r') rfl rfl fun x y hx hy => ?_
  obtain ⟨hu, hv⟩ := h x y hx hy
  rw [pixel_resample _ hx hy, pixel_resample _ hu hv]
  exact (pixel_resample (r := r.comp r') image hx hy).symm

/-- Resamplings of the same size that show the same positions give the same image. -/
theorem resample_congr (image : Image) {r r' : Resampling} (hwidth : r.width = r'.width)
    (hheight : r.height = r'.height)
    (hsource : ∀ x y, x < r.width → y < r.height → r.source x y = r'.source x y) :
    image.resample r = image.resample r' := by
  apply ext_pixel hwidth hheight
  intro x y hx hy
  rw [width_resample] at hx
  rw [height_resample] at hy
  rw [pixel_resample _ hx hy, pixel_resample _ (hwidth ▸ hx) (hheight ▸ hy), hsource x y hx hy]

/-- An image is shown as it is when every position shows itself. -/
theorem resample_keep (image : Image) :
    image.resample ⟨image.width, image.height, fun x y => (x, y)⟩ = image :=
  ofFn_pixel image

end Image

/-- A geometric command behind a resampling is a resampling. -/
theorem Geometry.apply_resample (g : Geometry) (image : Image) (r : Resampling) :
    g.apply (image.resample r) = image.resample (r.comp (g.resampling r.width r.height)) :=
  image.resample_resample fun _ _ hx hy => g.inside_resampling hx hy

/-- Two geometric commands show their input through one resampling. -/
theorem Geometry.apply_apply (g g' : Geometry) (image : Image) :
    g'.apply (g.apply image) = image.resample
      ((g.resampling image.width image.height).comp
        (g'.resampling (g.apply image).width (g.apply image).height)) :=
  g'.apply_resample image (g.resampling image.width image.height)

end Tapestry
