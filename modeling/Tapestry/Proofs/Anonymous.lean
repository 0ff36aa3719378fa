import Tapestry.Proofs.Filling
import Tapestry.Proofs.Uniform

/-!
# Commands that do not name themselves

A handler does not know the name that it is called by. When it fails, it leaves the name of the
command in its error empty, and never raises an error of a look-up. So do all built-in commands:
what is wrong with an argument, with the input, with a handle or with a file is found by a few
readers and writers that no command has a name for.

## Key results

- `Unnamed.bind`: one computation after the other
- `Command.anonymous_save`: saving, wherever relative path names lead
- `Registry.anonymous_builtins`: all built-in commands
-/

namespace Tapestry

/-- Whether a computation fails with errors of a command only, and none of them has its name. -/
def Unnamed {α : Type} (x : Except EvalError α) : Prop :=
  ∀ error, x = .error error → error.command? = some ""

/-- Whether a handler leaves it to its caller to fill in the name of the command. -/
def Handler.Anonymous (handler : Handler) : Prop :=
  ∀ call files error files', handler call files = .error error files' → error.command? = some ""

/-- Whether all handlers of a registry do so, and all of them have a name to be filled in. -/
structure Registry.Anonymous (registry : Registry) : Prop where
  get?_empty : registry.get? "" = none
  handlers : ∀ name handler, registry.get? name = some handler → handler.Anonymous

section Unnamed

variable {α β : Type}

/-- What does not fail carries no wrong name. -/
private theorem unnamed_ok (a : α) : Unnamed (.ok a) := nofun

/-- An error that was made without a name has the empty one. -/
private theorem unnamed_error {error : EvalError} (h : error.command? = some "") :
    Unnamed (.error error : Except EvalError α) := by
  rintro _ ⟨⟩
  exact h

/-- Every fault of an argument is found before the command is known. -/
private theorem unnamed_mapError (x : Except ArgumentFault α) : Unnamed (x.mapError .fault) := by
  cases x with
  | ok a => exact unnamed_ok a
  | error f => exact unnamed_error rfl

/-- Two steps that leave the name open leave it open together. -/
theorem Unnamed.bind {x : Except EvalError α} {f : α → Except EvalError β} (h : Unnamed x)
    (h' : ∀ a, Unnamed (f a)) : Unnamed (x >>= f) := by
  cases x with
  | ok a => exact h' a
  | error error => exact unnamed_error (h error rfl)

/-- What is made of a result does not change the error. -/
theorem Unnamed.map {x : Except EvalError α} (h : Unnamed x) (f : α → β) : Unnamed (x.map f) := by
  cases x with
  | ok a => exact unnamed_ok (f a)
  | error error => exact unnamed_error (h error rfl)

/-- A handler that only computes is as anonymous as what it computes. -/
private theorem Handler.anonymous_ofFunction {f : Call → Except EvalError Image}
    (h : ∀ call, Unnamed (f call)) : (Handler.ofFunction f).Anonymous := by
  intro call files error files' hrun
  unfold ofFunction at hrun
  split at hrun
  · exact nomatch hrun
  · next hf =>
    cases hrun
    exact h call _ hf

/-! ### Reading arguments -/

/-- A text that is no number is refused without a name. -/
private theorem unnamed_wordOfText (s what : String) : Unnamed (wordOfText s what) := by
  unfold wordOfText
  split
  · exact unnamed_ok _
  · exact unnamed_error rfl

private theorem unnamed_floatOfText (s what : String) : Unnamed (floatOfText s what) := by
  unfold floatOfText
  split
  · exact unnamed_ok _
  · exact unnamed_error rfl

/-- A missing input image is reported without a name. -/
private theorem unnamed_requireInput (input : Option Image) : Unnamed (requireInput input) := by
  unfold requireInput
  split
  · exact unnamed_ok _
  · exact unnamed_error rfl

/-- A text that is no handle, or one of no image, is refused without a name. -/
private theorem unnamed_imageOfText (handles : HandleTable) (s : String) :
    Unnamed (imageOfText handles s) := by
  unfold imageOfText HandleTable.resolve
  split
  · split
    · exact unnamed_ok _
    · exact unnamed_error rfl
  · exact unnamed_error rfl

namespace Arguments

variable (a : Arguments) (handles : HandleTable) (index : Nat) (key what : String)

/-- A missing positional argument is reported without a name. -/
private theorem unnamed_require : Unnamed (a.require index what) := by
  unfold require
  split
  · exact unnamed_ok _
  · exact unnamed_error rfl

/-- A colour that is missing or no colour is refused without a name. -/
private theorem unnamed_colour : Unnamed (a.colour index what) := by
  unfold colour
  split
  · next h => exact unnamed_error (a.unnamed_require index what _ h)
  · exact unnamed_mapError _

/-- A number that is missing or out of range is refused without a name. -/
private theorem unnamed_word : Unnamed (a.word index what) := by
  unfold word
  split
  · next h => exact unnamed_error (a.unnamed_require index what _ h)
  · exact unnamed_wordOfText _ _

/-- An image argument that is missing or names no image is refused without a name. -/
private theorem unnamed_image : Unnamed (a.image handles index) := by
  unfold image
  split
  · next h => exact unnamed_error (a.unnamed_require index "image" _ h)
  · exact unnamed_imageOfText handles _

/-- A keyword whose value is no number is refused without a name. -/
private theorem unnamed_keywordWord (default : Nat) : Unnamed (a.keywordWord key default) := by
  unfold keywordWord
  split
  · exact unnamed_wordOfText _ _
  · exact unnamed_ok _

private theorem unnamed_keywordFloat (default : Float32) :
    Unnamed (a.keywordFloat key default) := by
  unfold keywordFloat
  split
  · exact unnamed_floatOfText _ _
  · exact unnamed_ok _

/-- A keyword whose value names no image is refused without a name. -/
private theorem unnamed_keywordImage? : Unnamed (a.keywordImage? handles key) := by
  unfold keywordImage?
  split
  · exact (unnamed_imageOfText handles _).map some
  · exact unnamed_ok _

/-- A size that is missing or refused is reported without a name. -/
private theorem unnamed_size (input : Option Image) : Unnamed (a.size input) := by
  unfold size
  split
  · exact unnamed_mapError _
  · exact (unnamed_requireInput input).map _

end Arguments

end Unnamed

/-! ### Commands -/

namespace Command

variable (a : Arguments)

/-- A zero is refused without a name. -/
private theorem unnamed_requirePositive (n : Nat) (what : String) :
    Unnamed (requirePositive n what) := by
  unfold requirePositive
  split
  · exact unnamed_error rfl
  · exact unnamed_ok n

/-- A factor that makes an image too large is refused without a name. -/
private theorem unnamed_requireScalable (image : Image) (factor : Nat) :
    Unnamed (requireScalable image factor) := by
  unfold requireScalable
  split
  · exact unnamed_ok _
  · exact unnamed_error rfl

/-- A geometric command fails only where its factor is refused. -/
private theorem unnamed_transform (image : Image) (g : Geometry) : Unnamed (transform image g) := by
  cases g with
  | zoom factor =>
    rw [transform]
    split
    · exact unnamed_ok image
    · exact (unnamed_requireScalable image factor).bind fun _ => unnamed_ok _
  | tile count => exact (unnamed_requireScalable image count).bind fun _ => unnamed_ok _
  | mirrorColumns | mirrorRows | quarterTurn | halfTurn | threeQuarterTurn => exact unnamed_ok _

/-- A generator reads its arguments and the size, and fails nowhere else. -/
private theorem anonymous_generator {read : Arguments → Except EvalError Pattern}
    (hread : ∀ a, Unnamed (read a)) : (generator read).Anonymous := by
  apply Handler.anonymous_ofFunction
  intro call
  refine (hread _).bind fun pattern => ?_
  exact (Arguments.unnamed_size _ call.input).bind fun size => unnamed_ok _

/-- Passing an image on needs the image alone. -/
private theorem anonymous_passOn : passOn.Anonymous :=
  Handler.anonymous_ofFunction fun call => unnamed_requireInput call.input

/-- A command that changes colours reads its arguments and its input, and fails nowhere else. -/
private theorem anonymous_recolour {read : Arguments → Except EvalError (Colour → Colour)}
    (hread : ∀ a, Unnamed (read a)) : (recolour read).Anonymous := by
  apply Handler.anonymous_ofFunction
  intro call
  refine (unnamed_requireInput call.input).bind fun image => ?_
  exact (hread _).bind fun f => unnamed_ok _

/-- A geometric command reads its arguments and its input, and its factor may be refused. -/
private theorem anonymous_geometric {read : Arguments → Except EvalError Geometry}
    (hread : ∀ a, Unnamed (read a)) : (geometric read).Anonymous := by
  apply Handler.anonymous_ofFunction
  intro call
  refine (unnamed_requireInput call.input).bind fun image => ?_
  exact (hread _).bind fun g => unnamed_transform image g

private theorem unnamed_readFill : Unnamed (readFill a) :=
  (a.unnamed_colour 0 _).bind fun _ => unnamed_ok _

private theorem unnamed_readCheckers : Unnamed (readCheckers a) := by
  refine (a.unnamed_colour 0 _).bind fun _ => (a.unnamed_colour 1 _).bind fun _ => ?_
  refine (a.unnamed_keywordWord "cell" 1).bind fun cell => ?_
  exact (unnamed_requirePositive cell "cell").bind fun _ => unnamed_ok _

private theorem unnamed_readStripes : Unnamed (readStripes a) := by
  refine (a.unnamed_colour 0 _).bind fun _ => (a.unnamed_colour 1 _).bind fun _ => ?_
  refine (a.unnamed_keywordWord "width" 1).bind fun band => ?_
  exact (unnamed_requirePositive band "width").bind fun _ => unnamed_ok _

private theorem unnamed_readCircle : Unnamed (readCircle a) :=
  (a.unnamed_colour 0 _).bind fun _ => (a.unnamed_colour 1 _).bind fun _ => unnamed_ok _

private theorem unnamed_readGradient : Unnamed (readGradient a) :=
  (a.unnamed_colour 0 _).bind fun _ => (a.unnamed_colour 1 _).bind fun _ => unnamed_ok _

private theorem unnamed_readHue : Unnamed (readHue a) :=
  (a.unnamed_require 0 _).bind fun text => (unnamed_floatOfText text _).bind fun _ => unnamed_ok _

private theorem unnamed_readZoom : Unnamed (readZoom a) :=
  (a.unnamed_word 0 _).bind fun n => (unnamed_requirePositive n _).bind fun _ => unnamed_ok _

private theorem unnamed_readTile : Unnamed (readTile a) :=
  (a.unnamed_word 0 _).bind fun n => (unnamed_requirePositive n _).bind fun _ => unnamed_ok _

/-- An angle that `rotate` does not know is refused like any other argument. -/
private theorem unnamed_readRotate : Unnamed (readRotate a) := by
  refine (a.unnamed_require 0 _).bind fun angle => ?_
  split
  · exact unnamed_ok _
  · exact unnamed_ok _
  · exact unnamed_ok _
  · exact unnamed_error rfl

/-- The mode, the joined image and the mask are refused without a name, and so are their sizes. -/
private theorem anonymous_join : join.Anonymous := by
  apply Handler.anonymous_ofFunction
  intro call
  -- The arguments are read in the order in which `join` reads them, and each reader leaves the name
  -- open.
  refine (unnamed_requireInput call.input).bind fun image => ?_
  refine (Arguments.unnamed_require _ 0 "mode").bind fun name => ?_
  refine (unnamed_mapError _).bind fun mode => ?_
  refine (Arguments.unnamed_image _ call.handles 1).bind fun drawn => ?_
  refine (unnamed_mapError _).bind fun _ => ?_
  refine (Arguments.unnamed_keywordImage? _ call.handles "mask").bind fun mask => ?_
  -- Only a mask that is there can have a wrong size.
  cases mask with
  | none => exact unnamed_ok _
  | some mask => exact (unnamed_mapError _).bind fun _ => unnamed_ok _

/-- The image that fades the input has to be there and of its size. -/
private theorem anonymous_mask : mask.Anonymous := by
  apply Handler.anonymous_ofFunction
  intro call
  refine (unnamed_requireInput call.input).bind fun image => ?_
  refine (Arguments.unnamed_image _ call.handles 0).bind fun weight => ?_
  exact (unnamed_mapError _).bind fun _ => unnamed_ok _

/-- The blended image has to be there and of the size of the input, and the amount in its range. -/
private theorem anonymous_blend : blend.Anonymous := by
  apply Handler.anonymous_ofFunction
  intro call
  refine (unnamed_requireInput call.input).bind fun image => ?_
  refine (Arguments.unnamed_image _ call.handles 0).bind fun other => ?_
  refine (unnamed_mapError _).bind fun _ => ?_
  refine (Arguments.unnamed_keywordFloat _ "amount" 0.5).bind fun amount => ?_
  split
  · exact unnamed_ok _
  · exact unnamed_error rfl

/-- The operands of an operator have to be there and of one size. -/
private theorem anonymous_combine (o : Operator) : (combine o).Anonymous := by
  apply Handler.anonymous_ofFunction
  intro call
  refine (unnamed_requireInput call.input).bind fun left => ?_
  refine (Arguments.unnamed_image _ call.handles 0).bind fun right => ?_
  exact (unnamed_mapError _).bind fun _ => unnamed_ok _

/-- What is saved, where and how large, is read without a name. -/
private theorem unnamed_readSave : Unnamed (readSave a) :=
  (a.unnamed_require 0 _).bind fun _ => (a.unnamed_keywordWord _ 1).bind fun _ => unnamed_ok _

/-- A picture that cannot be written is reported without a name: one that is too large, or a failure
    of the file system. -/
private theorem command?_of_writePicture {image : Image} {path : PathName} {factor : Nat}
    {files files' : Workspace} {error : EvalError}
    (h : writePicture image path factor files = .error error files') :
    error.command? = some "" := by
  obtain ⟨puts, hwriting⟩ := exists_writing image path factor files
  rw [h] at hwriting
  generalize hr : EStateM.Result.error error files' = r at hwriting
  -- Where nothing was written, the factor was refused or something stood in the way.
  cases hwriting with
  | refused _ | blocked _ _ =>
    cases hr
    rfl
  -- A file that was written is reported only when its picture is not one for a file.
  | @written _ _ _ picture =>
    cases hfault : Png.fault? picture with
    | none =>
      rw [hfault] at hr
      cases hr
    | some fault =>
      rw [hfault] at hr
      cases hr
      rfl

/-- Saving reads its arguments, enlarges the image and writes it, each without a name. -/
theorem anonymous_save (base : Option PathName) : (save base).Anonymous := by
  intro call files error files' hrun
  unfold save at hrun
  -- The three places where saving may fail, in order: the input, the arguments and the file.
  split at hrun
  · next hinput =>
    cases hrun
    exact unnamed_requireInput call.input _ hinput
  · split at hrun
    · next hread =>
      cases hrun
      exact unnamed_readSave _ _ hread
    · split at hrun
      · next hwrite =>
        cases hrun
        exact command?_of_writePicture hwrite
      · exact nomatch hrun

end Command

open Command in
/-- No built-in command names itself in its errors. -/
theorem Builtin.anonymous : ∀ b ∈ all, b.handler.Anonymous := by
  simp only [all, List.forall_mem_cons]
  exact ⟨anonymous_generator fun _ => unnamed_ok _, anonymous_generator unnamed_readFill,
    anonymous_generator unnamed_readCheckers, anonymous_generator unnamed_readStripes,
    anonymous_generator unnamed_readCircle, anonymous_generator unnamed_readGradient,
    anonymous_passOn, anonymous_geometric unnamed_readZoom,
    anonymous_geometric fun _ => unnamed_ok _, anonymous_geometric unnamed_readRotate,
    anonymous_recolour fun _ => unnamed_ok _, anonymous_recolour unnamed_readHue,
    anonymous_geometric unnamed_readTile, anonymous_join, anonymous_mask, anonymous_blend,
    anonymous_combine .xor, anonymous_combine .add, anonymous_combine .sub,
    anonymous_combine .mul, anonymous_combine .div, anonymous_combine .mod,
    anonymous_save none, List.forall_mem_nil _⟩

/-- All built-in commands and operators leave the name to the evaluation. -/
theorem Registry.anonymous_builtins : builtins.Anonymous where
  get?_empty := rfl
  handlers name handler hget := by
    obtain ⟨b, hb, heq⟩ := List.mem_map.1 (mem_of_get?_ofList hget)
    cases heq
    exact Builtin.anonymous b hb

end Tapestry
