import Tapestry.Proofs.Correspondence
import Tapestry.Proofs.SameTree
import Tapestry.Proofs.Uniform

/-!
# Pixels do not decide anything

An expression is evaluated twice with the built-in commands, on images that differ in their pixels
and on files that differ in what they hold. A command asks an image for its size and for nothing
else before it paints, so both runs take the same way: they call the same commands with the same
texts, register the same handles, make the same directories and files, and end with images of the
same size or with the same error.

## Key results

- `HandleTable.SameSizes.register`: registering images of the same size
- `Builtin.sizesOnly`: no built-in command looks at more than sizes
- `evaluate_builtins_sizes`: evaluations that differ in pixels and file contents take the same way
-/

namespace Tapestry

/-! ## Images, handles and calls -/

/-- Images of the same size have one size. -/
theorem Image.SameSize.size_eq {a b : Image} (h : a.SameSize b) : a.size = b.size := by
  rw [size, size, h.1, h.2]

/-- Whether two tables have the same handles, for images of the same sizes, and the next handle has
    the same number. -/
structure HandleTable.SameSizes (t t' : HandleTable) : Prop where
  counter : t.counter = t'.counter
  lookup : ∀ s, Option.Rel Image.SameSize (t.lookup s) (t'.lookup s)

/-- Registering images of the same size keeps the sizes the same. -/
theorem HandleTable.SameSizes.register {t t' : HandleTable} (h : t.SameSizes t') {a b : Image}
    (hab : a.SameSize b) :
    (t.register a).1 = (t'.register b).1 ∧ (t.register a).2.SameSizes (t'.register b).2 := by
  refine ⟨congrArg handleName h.counter, congrArg (· + 1) h.counter, fun s => ?_⟩
  rw [HandleTable.lookup_register, HandleTable.lookup_register, h.counter]
  by_cases hs : s = handleName t'.counter
  · simp only [if_pos hs]
    exact .some hab
  · simp only [if_neg hs]
    exact h.lookup s

/-- Whether two calls have the same name and texts, on inputs of the same size. -/
structure Invocation.SameSize (a b : Invocation) : Prop where
  name : a.name = b.name
  args : a.args = b.args
  input : Option.Rel Image.SameSize a.input b.input

/-- Evaluations that are compared by the sizes of images, and by the calls that are made behind
    those of two earlier contexts. -/
def sizes (before before' : List Invocation) : Correspondence where
  image := Image.SameSize
  handles := HandleTable.SameSizes
  files := Workspace.SameTree
  calls l l' := ∃ new new', l = before ++ new ∧ l' = before' ++ new' ∧
    List.Forall₂ Invocation.SameSize new new'
  error := Eq

/-- Registering images of one size keeps the handles of the same sizes. -/
private theorem sizes_kept (before before' : List Invocation) : (sizes before before').Kept where
  register ht himage := ht.register himage
  record name args hl hinput := by
    obtain ⟨new, new', rfl, rfl, hnew⟩ := hl
    refine ⟨_, _, List.append_assoc _ _ _, List.append_assoc _ _ _, ?_⟩
    exact List.rel_append hnew (.cons ⟨rfl, rfl, hinput⟩ .nil)
  noInput := rfl

/-! ## Reading arguments -/

section Readers

variable {input input' : Option Image} {t t' : HandleTable}

/-- An input is missing in both calls or in neither. -/
private theorem sameOutcome_requireInput (h : Option.Rel Image.SameSize input input') :
    SameOutcome Image.SameSize (requireInput input) (requireInput input') := by
  cases h with
  | none => exact .error _
  | some himage => exact .ok himage

/-- A text names images of one size, or is refused alike. -/
private theorem sameOutcome_imageOfText (h : t.SameSizes t') (s : String) :
    SameOutcome Image.SameSize (imageOfText t s) (imageOfText t' s) := by
  unfold imageOfText HandleTable.resolve
  by_cases hs : isHandle s = true
  · simp only [if_pos hs]
    have hrel := h.lookup (HandleTable.handleOf s)
    generalize t.lookup (HandleTable.handleOf s) = image at hrel
    generalize t'.lookup (HandleTable.handleOf s) = image' at hrel
    cases hrel with
    | none => exact .error _
    | some himage => exact .ok himage
  · simp only [if_neg hs]
    exact .error _

private theorem sameOutcome_image (h : t.SameSizes t') (a : Arguments) (index : Nat) :
    SameOutcome Image.SameSize (a.image t index) (a.image t' index) := by
  rw [a.image_eq, a.image_eq]
  exact .bind_same _ fun s _ => sameOutcome_imageOfText h s

private theorem sameOutcome_keywordImage? (h : t.SameSizes t') (a : Arguments) (key : String) :
    SameOutcome (Option.Rel Image.SameSize) (a.keywordImage? t key) (a.keywordImage? t' key) := by
  unfold Arguments.keywordImage?
  cases a.keyword? key with
  | none => exact .ok .none
  | some s => exact (sameOutcome_imageOfText h s).map fun _ _ himage => .some himage

/-- The size that is asked for, or else that of the input, is the same. -/
private theorem sameOutcome_size (h : Option.Rel Image.SameSize input input') (a : Arguments) :
    SameOutcome Eq (a.size input) (a.size input') := by
  unfold Arguments.size
  cases a.keyword? "size" with
  | none => exact (sameOutcome_requireInput h).map fun _ _ himage => himage.size_eq
  | some s =>
    simp only
    cases (Size.ofText s).mapError EvalError.fault with
    | ok size => exact .ok rfl
    | error e => exact .error e

end Readers

/-! ## Commands -/

/-- Whether a handler asks images for their sizes only. -/
def Handler.SizesOnly (handler : Handler) : Prop :=
  ∀ before before' name, (sizes before before').Handlers name handler handler

namespace Command

/-- A command that touches no file asks for sizes only when its function does. -/
private theorem sizesOnly_ofFunction {f : Call → Except EvalError Image}
    (h : ∀ args input input' t t', Option.Rel Image.SameSize input input' →
      HandleTable.SameSizes t t' →
      SameOutcome Image.SameSize (f ⟨args, input, t⟩) (f ⟨args, input', t'⟩)) :
    (Handler.ofFunction f).SizesOnly := by
  intro before before' name args input input' t t' files files' hinput ht hfiles
  have hresult := h args input input' t t' hinput ht
  simp only [Handler.ofFunction]
  generalize f ⟨args, input, t⟩ = r at hresult
  generalize f ⟨args, input', t'⟩ = r' at hresult
  cases hresult with
  | ok himage => exact .ok himage hfiles
  | error e => exact .error rfl hfiles

/-- Whether two images have the same size depends on their sizes. -/
private theorem requireSameSize_congr {a a' b b' : Image} (ha : a.SameSize a')
    (hb : b.SameSize b') : requireSameSize a b = requireSameSize a' b' := by
  have hsame : a.SameSize b ↔ a'.SameSize b' := by
    rw [Image.SameSize, Image.SameSize, ha.1, ha.2, hb.1, hb.2]
  simp only [requireSameSize, Image.requireSameSize, hsame, ha.1, ha.2, hb.1, hb.2]

/-- Whether a factor passes depends on the size. -/
private theorem requireScalable_congr {a a' : Image} (h : a.SameSize a') (factor : Nat) :
    requireScalable a factor = requireScalable a' factor := by
  unfold requireScalable
  rw [h.size_eq]

/-- A geometric command makes one size of one size. -/
private theorem sameSize_apply {a a' : Image} (h : a.SameSize a') (g : Geometry) :
    (g.apply a).SameSize (g.apply a') := by
  unfold Geometry.apply Image.SameSize
  rw [h.1, h.2]
  exact ⟨rfl, rfl⟩

/-- It is refused or not by the size as well. -/
theorem sameOutcome_transform {a a' : Image} (h : a.SameSize a') (g : Geometry) :
    SameOutcome Image.SameSize (transform a g) (transform a' g) := by
  cases g with
  | zoom factor =>
    unfold transform
    by_cases hfactor : factor = 1
    · simp only [if_pos hfactor]
      exact .ok h
    -- Whether an image can be enlarged depends on its size alone.
    · simp only [if_neg hfactor, requireScalable_congr h]
      exact .bind_same _ fun _ _ => .ok (sameSize_apply h _)
  | tile count =>
    simp only [transform, requireScalable_congr h]
    exact .bind_same _ fun _ _ => .ok (sameSize_apply h _)
  | mirrorColumns | mirrorRows | quarterTurn | halfTurn | threeQuarterTurn =>
    exact .ok (sameSize_apply h _)

/-- A generator paints an image of the size that is asked for, or of that of its input. -/
private theorem sizesOnly_generator (read : Arguments → Except EvalError Pattern) :
    (generator read).SizesOnly := by
  apply sizesOnly_ofFunction
  intro args input input' t t' hinput ht
  refine .bind_same _ fun pattern _ => (sameOutcome_size hinput _).bind ?_
  rintro size _ rfl
  exact .ok ⟨rfl, rfl⟩

/-- An image that is passed on keeps its size. -/
private theorem sizesOnly_passOn : passOn.SizesOnly := by
  apply sizesOnly_ofFunction
  intro args input input' t t' hinput ht
  exact sameOutcome_requireInput hinput

/-- So does an image whose colours are changed, whatever the change. -/
private theorem sizesOnly_recolour (read : Arguments → Except EvalError (Colour → Colour)) :
    (recolour read).SizesOnly := by
  apply sizesOnly_ofFunction
  intro args input input' t t' hinput ht
  refine (sameOutcome_requireInput hinput).bind fun image image' himage => ?_
  exact .bind_same _ fun f _ => .ok himage

/-- A geometric command looks at the size of its input and at its arguments. -/
private theorem sizesOnly_geometric (read : Arguments → Except EvalError Geometry) :
    (geometric read).SizesOnly := by
  apply sizesOnly_ofFunction
  intro args input input' t t' hinput ht
  refine (sameOutcome_requireInput hinput).bind fun image image' himage => ?_
  exact .bind_same _ fun g _ => sameOutcome_transform himage g

/-- `join` compares sizes, and its result has that of the input. -/
private theorem sizesOnly_join : join.SizesOnly := by
  apply sizesOnly_ofFunction
  intro args input input' t t' hinput ht
  refine (sameOutcome_requireInput hinput).bind fun image image' himage => ?_
  refine .bind_same _ fun name _ => .bind_same _ fun mode _ => ?_
  refine (sameOutcome_image ht _ 1).bind fun drawn drawn' hdrawn => ?_
  -- Both runs compare the same sizes, so they refuse the same images.
  rw [requireSameSize_congr himage hdrawn]
  refine .bind_same _ fun _ _ => ?_
  refine (sameOutcome_keywordImage? ht _ "mask").bind fun mask mask' hmask => ?_
  cases hmask with
  | none => exact .ok himage
  | some hmask =>
    simp only [requireSameSize_congr himage hmask]
    exact .bind_same _ fun _ _ => .ok himage

private theorem sizesOnly_mask : mask.SizesOnly := by
  apply sizesOnly_ofFunction
  intro args input input' t t' hinput ht
  refine (sameOutcome_requireInput hinput).bind fun image image' himage => ?_
  refine (sameOutcome_image ht _ 0).bind fun weight weight' hweight => ?_
  rw [requireSameSize_congr himage hweight]
  exact .bind_same _ fun _ _ => .ok himage

/-- And `blend`, whose amount is read from its arguments. -/
private theorem sizesOnly_blend : blend.SizesOnly := by
  apply sizesOnly_ofFunction
  intro args input input' t t' hinput ht
  refine (sameOutcome_requireInput hinput).bind fun image image' himage => ?_
  refine (sameOutcome_image ht _ 0).bind fun other other' hother => ?_
  rw [requireSameSize_congr himage hother]
  refine .bind_same _ fun _ _ => .bind_same _ fun amount _ => ?_
  split
  · exact .ok himage
  · exact .error _

/-- And so does the command of an operator. -/
private theorem sizesOnly_combine (o : Operator) : (combine o).SizesOnly := by
  apply sizesOnly_ofFunction
  intro args input input' t t' hinput ht
  refine (sameOutcome_requireInput hinput).bind fun left left' hleft => ?_
  refine (sameOutcome_image ht _ 0).bind fun right right' hright => ?_
  rw [requireSameSize_congr hleft hright]
  exact .bind_same _ fun _ _ => .ok hleft

/-! ### Saving -/

/-- A picture is enlarged to one size from one size. -/
theorem sameOutcome_enlarge {a a' : Image} (h : a.SameSize a') (factor : Nat) :
    SameOutcome Image.SameSize (enlarge a factor) (enlarge a' factor) := by
  unfold enlarge
  by_cases hfactor : factor ≤ 1
  · simp only [if_pos hfactor]
    exact .ok h
  · simp only [if_neg hfactor, requireScalable_congr h]
    cases requireScalable a' factor with
    | error e => exact .error e
    | ok u => exact .ok (sameSize_apply h _)

/-- An image without a side has no file, whatever its pixels are. -/
private theorem fault?_congr {a a' : Image} (h : a.SameSize a') : Png.fault? a = Png.fault? a' := by
  unfold Png.fault?
  rw [h.1, h.2]

/-- Making the directories above a file goes the same way in the same tree. -/
private theorem sameTree_makeParents {files files' : Workspace} (h : files.SameTree files')
    (path : PathName) :
    (makeParents files path).1 = (makeParents files' path).1 ∧
      (makeParents files path).2.SameTree (makeParents files' path).2 := by
  unfold makeParents
  cases path.parent? with
  | none => exact ⟨rfl, h⟩
  | some parent => exact h.makeDirectories parent

/-- Writing images of the same size fails with the same error, or makes the same files. -/
private theorem related_writePicture {a a' : Image} (h : a.SameSize a') (path : PathName)
    (factor : Nat) {files files' : Workspace} (hfiles : files.SameTree files') :
    Related Eq Workspace.SameTree Eq (writePicture a path factor files)
      (writePicture a' path factor files') := by
  unfold writePicture
  have henlarge := sameOutcome_enlarge h factor
  generalize enlarge a factor = r at henlarge
  generalize enlarge a' factor = r' at henlarge
  cases henlarge with
  | error e => exact .error rfl hfiles
  | @ok picture picture' hpicture =>
    simp only
    -- The directories come first, then the file, and only then the faults of the picture.
    obtain ⟨hresult, hmade⟩ := sameTree_makeParents hfiles path
    generalize makeParents files path = made at hresult hmade
    generalize makeParents files' path = made' at hresult hmade
    obtain ⟨result, files⟩ := made
    obtain ⟨result', files'⟩ := made'
    simp only at hresult hmade
    subst hresult
    cases result with
    | error e => exact .error rfl hmade
    | ok u =>
      simp only
      have hwritten := hmade.writeFile path (contentFor picture) (contentFor picture')
      generalize files.writeFile path (contentFor picture) = w at hwritten
      generalize files'.writeFile path (contentFor picture') = w' at hwritten
      cases hwritten with
      | error e => exact .error rfl hmade
      | ok hsame =>
        simp only [fault?_congr hpicture]
        cases Png.fault? picture' with
        | some fault => exact .error rfl hsame
        | none => exact .ok rfl hsame

/-- Saving hands its input on, and what is stored has one size from one size. -/
private theorem sizesOnly_save (base : Option PathName) : (save base).SizesOnly := by
  intro before before' name args input input' t t' files files' hinput ht hfiles
  cases hinput with
  | none => exact .error rfl hfiles
  | @some image image' himage =>
    simp only [save, requireInput]
    -- The words are the same in both runs, so both write to the same place.
    cases readSave (Arguments.ofList args) with
    | error e => exact .error rfl hfiles
    | ok target =>
      simp only
      have hwritten := related_writePicture himage (placeUnder base target.1) target.2 hfiles
      generalize writePicture image (placeUnder base target.1) target.2 files = r at hwritten
      generalize writePicture image' (placeUnder base target.1) target.2 files' = r' at hwritten
      cases hwritten with
      | error he hsame => exact .error (congrArg _ he) hsame
      | ok _ hsame => exact .ok himage hsame

end Command

open Command in
/-- No built-in command looks at more than sizes. -/
theorem Builtin.sizesOnly {b : Builtin} (h : b ∈ all) : b.handler.SizesOnly := by
  rw [all] at h
  simp only [List.mem_cons, List.not_mem_nil, or_false] at h
  rcases h with rfl | rfl | rfl | rfl | rfl | rfl | rfl | rfl | rfl | rfl | rfl | rfl | rfl | rfl |
    rfl | rfl | rfl | rfl | rfl | rfl | rfl | rfl | rfl
  · exact sizesOnly_generator readBlank
  · exact sizesOnly_generator readFill
  · exact sizesOnly_generator readCheckers
  · exact sizesOnly_generator readStripes
  · exact sizesOnly_generator readCircle
  · exact sizesOnly_generator readGradient
  · exact sizesOnly_passOn
  · exact sizesOnly_geometric readZoom
  · exact sizesOnly_geometric readMirror
  · exact sizesOnly_geometric readRotate
  · exact sizesOnly_recolour readInvert
  · exact sizesOnly_recolour readHue
  · exact sizesOnly_geometric readTile
  · exact sizesOnly_join
  · exact sizesOnly_mask
  · exact sizesOnly_blend
  · exact sizesOnly_combine .xor
  · exact sizesOnly_combine .add
  · exact sizesOnly_combine .sub
  · exact sizesOnly_combine .mul
  · exact sizesOnly_combine .div
  · exact sizesOnly_combine .mod
  · exact sizesOnly_save none

/-- The registry of the built-in commands answers alike in both runs. -/
private theorem finds_sizes (before before' : List Invocation) (l : Lookup) :
    (sizes before before').Finds .builtins .builtins l := by
  refine Correspondence.finds_of_rel (fun name => ?_) (fun _ => rfl) l
  cases hget : Registry.builtins.get? name with
  | none => exact .none
  | some handler =>
    obtain ⟨b, hb, heq⟩ := List.mem_map.1 (Registry.mem_of_get?_ofList hget)
    cases heq
    exact .some (Builtin.sizesOnly hb before before' b.name)

/-! ## Evaluations -/

/-- Two evaluations of an expression with the built-in commands, on inputs of the same size or on
    none, with the same handles for images of the same sizes, and on the same directories and files:
    both give images of the same size, or both fail with the same error. In any case they have made
    the same calls on inputs of the same sizes, and they leave the same handles for images of the
    same sizes and the same directories and files. -/
theorem evaluate_builtins_sizes (e : Expr) {input input' : Option Image}
    (hinput : Option.Rel Image.SameSize input input') {c c' : Context}
    (hhandles : c.handles.SameSizes c'.handles) (hfiles : c.files.SameTree c'.files) :
    ∃ d d' new new',
      ((∃ image image', e.evaluate .builtins input c = .ok image d ∧
          e.evaluate .builtins input' c' = .ok image' d' ∧ image.SameSize image') ∨
        ∃ error, e.evaluate .builtins input c = .error error d ∧
          e.evaluate .builtins input' c' = .error error d') ∧
      d.handles.SameSizes d'.handles ∧ d.files.SameTree d'.files ∧
      d.invocations = c.invocations ++ new ∧ d'.invocations = c'.invocations ++ new' ∧
      List.Forall₂ Invocation.SameSize new new' := by
  -- No call is made yet, and what corresponds to begin with corresponds in the end.
  have hcalls : (sizes c.invocations c'.invocations).calls c.invocations c'.invocations :=
    ⟨[], [], by simp, by simp, .nil⟩
  have hresult := e.related (sizes_kept c.invocations c'.invocations)
    (fun l _ => finds_sizes c.invocations c'.invocations l) hinput ⟨hhandles, hfiles, hcalls⟩
  generalize e.evaluate .builtins input c = r at hresult
  generalize e.evaluate .builtins input' c' = r' at hresult
  cases hresult with
  | @ok image image' d d' himage hd =>
    obtain ⟨new, new', hnew, hnew', hsame⟩ := hd.calls
    exact ⟨d, d', new, new', .inl ⟨image, image', rfl, rfl, himage⟩, hd.handles, hd.files, hnew,
      hnew', hsame⟩
  | @error error error' d d' he hd =>
    obtain ⟨new, new', hnew, hnew', hsame⟩ := hd.calls
    cases he
    exact ⟨d, d', new, new', .inr ⟨error, rfl, rfl⟩, hd.handles, hd.files, hnew, hnew', hsame⟩

/-- A red pixel and a blue one, saved over a file that holds a picture in one run and no bytes in
    the other. -/
theorem evaluate_builtins_sizes_saved :
    ∃ d d' new new',
      ((∃ image image',
          (Expr.command "save" [.literal "a.png"]).evaluate .builtins
            (some (.solid 1 1 (.rgb 255 0 0)))
            (.fresh ⟨[(["a.png"], .file (.picture (.blank 2 2)))], []⟩) = .ok image d ∧
          (Expr.command "save" [.literal "a.png"]).evaluate .builtins
            (some (.solid 1 1 (.rgb 0 0 255)))
            (.fresh ⟨[(["a.png"], .file (.bytes .empty))], []⟩) = .ok image' d' ∧
          image.SameSize image') ∨
        ∃ error,
          (Expr.command "save" [.literal "a.png"]).evaluate .builtins
            (some (.solid 1 1 (.rgb 255 0 0)))
            (.fresh ⟨[(["a.png"], .file (.picture (.blank 2 2)))], []⟩) = .error error d ∧
          (Expr.command "save" [.literal "a.png"]).evaluate .builtins
            (some (.solid 1 1 (.rgb 0 0 255)))
            (.fresh ⟨[(["a.png"], .file (.bytes .empty))], []⟩) = .error error d') ∧
      d.handles.SameSizes d'.handles ∧ d.files.SameTree d'.files ∧
      d.invocations = [] ++ new ∧ d'.invocations = [] ++ new' ∧
      List.Forall₂ Invocation.SameSize new new' := by
  have hinput : Option.Rel Image.SameSize (some (.solid 1 1 (.rgb 255 0 0)))
      (some (.solid 1 1 (.rgb 0 0 255))) := .some ⟨rfl, rfl⟩
  have hhandles : HandleTable.empty.SameSizes .empty := by
    refine ⟨rfl, fun s => ?_⟩
    have hnone : HandleTable.empty.lookup s = none := by
      simp [HandleTable.lookup, HandleTable.empty]
    rw [hnone]
    exact .none
  have hfiles : Workspace.SameTree ⟨[(["a.png"], .file (.picture (.blank 2 2)))], []⟩
      ⟨[(["a.png"], .file (.bytes .empty))], []⟩ := by
    refine ⟨rfl, fun l => ?_⟩
    unfold Workspace.kindAt Workspace.entryAt
    by_cases hroot : l = []
    · rw [if_pos hroot, if_pos hroot]
    · by_cases hl : l = ["a.png"]
      · simp [hl, Entry.kind]
      · simp [List.lookup_cons, hroot, beq_eq_false_iff_ne.2 hl]
  exact evaluate_builtins_sizes _ hinput hhandles hfiles

end Tapestry
