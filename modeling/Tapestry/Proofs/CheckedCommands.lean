import Tapestry.Proofs.CheckedPainting
import Tapestry.Proofs.Correspondence
import Tapestry.Proofs.Filling
import Tapestry.Proofs.SameTree
import Tapestry.Proofs.Uniform

/-!
# Commands with checks

The handlers below read their arguments and refuse them as those of the built-in commands do, but
they paint with checks, and they check that every image that they hand on or write has its sides in
range. `Registry.checked` is the registry of these handlers. What they do after a violation is a
parameter, so that a statement about all its values says that there is none.

When the input and the images among the handles are in range, a command with checks does the same as
the command itself: it reads its arguments, it refuses what would be larger than `maxSide`, and its
size is that of an image in range or one that was checked. What it leaves is in range again.

## Key results

- `Workspace.ChangesInRange.of_fills`, `respects_writePicture`: what is done to files
- `Checked.sound`: the handlers of all built-in commands do the same with checks
-/

namespace Tapestry

/-! ## Handlers -/

/-- A handler that stops at its first violation. -/
abbrev CheckedHandler := Call → Workspace → Checked (EStateM.Result EvalError Workspace Image)

/-- A handler that touches no file: it refuses its arguments, or it paints. -/
def CheckedHandler.ofFunction (f : Call → Except EvalError (Checked Image)) : CheckedHandler :=
  fun call files =>
    match f call with
    | .error e => .ok (.error e files)
    | .ok painted => do
      let image ← painted
      let image ← Checked.accept image
      pure (.ok image files)

/-- The handler that goes on in a given way after a violation. -/
def CheckedHandler.recover (handler : CheckedHandler) (crash : Violation → Handler) : Handler :=
  fun call files =>
    match handler call files with
    | .ok result => result
    | .error violation => crash violation call files

namespace Checked

open Command

def generator (read : Arguments → Except EvalError Pattern) : CheckedHandler :=
  .ofFunction fun call => do
    let args := Arguments.ofList call.args
    let pattern ← read args
    let size ← args.size call.input
    pure (paint pattern size)

def passOn : CheckedHandler := .ofFunction fun call => do
  let image ← requireInput call.input
  pure (.ok image)

def recolour (read : Arguments → Except EvalError (Colour → Checked Colour)) : CheckedHandler :=
  .ofFunction fun call => do
    let image ← requireInput call.input
    let f ← read (Arguments.ofList call.args)
    pure (map f image)

/-- The change of `invert`. -/
def readInvert (_ : Arguments) : Except EvalError (Colour → Checked Colour) := .ok invert

/-- The change of `hue`. All its steps are on floating point numbers. -/
def readHue (args : Arguments) : Except EvalError (Colour → Checked Colour) := do
  let f ← Command.readHue args
  pure fun c => .ok (f c)

/-- Apply a geometric command; enlarging by the factor 1 paints nothing. -/
def transform (image : Image) : Geometry → Except EvalError (Checked Image)
  | .zoom factor =>
    if factor = 1 then .ok (.ok image)
    else do
      requireScalable image factor
      pure (apply (.zoom factor) image)
  | .tile count => do
    requireScalable image count
    pure (apply (.tile count) image)
  | g => .ok (apply g image)

def geometric (read : Arguments → Except EvalError Geometry) : CheckedHandler :=
  .ofFunction fun call => do
    let image ← requireInput call.input
    let g ← read (Arguments.ofList call.args)
    transform image g

def join : CheckedHandler := .ofFunction fun call => do
  let image ← requireInput call.input
  let args := Arguments.ofList call.args
  let name ← args.require 0 "mode"
  let mode ← (JoinMode.ofText name).mapError .fault
  let drawn ← args.image call.handles 1
  requireSameSize image drawn
  match ← args.keywordImage? call.handles "mask" with
  | none => pure (map₂ (joinColour mode) image drawn)
  | some mask =>
    requireSameSize image mask
    pure (map₃ (joinMasked mode) image drawn mask)

def mask : CheckedHandler := .ofFunction fun call => do
  let image ← requireInput call.input
  let weight ← (Arguments.ofList call.args).image call.handles 0
  requireSameSize image weight
  pure (map₂ (fun a b => .ok (Colour.maskBy a b)) image weight)

def blend : CheckedHandler := .ofFunction fun call => do
  let image ← requireInput call.input
  let args := Arguments.ofList call.args
  let other ← args.image call.handles 0
  requireSameSize image other
  let amount ← args.keywordFloat "amount" 0.5
  if 0 ≤ amount && amount ≤ 1 then
    pure (map₂ (fun a b => .ok (Colour.mix a b amount)) image other)
  else throw (.fault (.amountOutOfRange (Binary32.render amount)))

def combine (o : Operator) : CheckedHandler := .ofFunction fun call => do
  let left ← requireInput call.input
  let right ← (Arguments.ofList call.args).image call.handles 0
  requireSameSize left right
  pure (map₂ (colour o) left right)

/-- An image enlarged by a factor. -/
def enlarge (image : Image) (factor : Nat) : Except EvalError (Checked Image) :=
  if factor ≤ 1 then .ok (.ok image)
  else
    match requireScalable image factor with
    | .error e => .error e
    | .ok () => .ok (apply (.zoom factor) image)

/-- Write an image to a file, enlarged by a factor. What is written has its sides in range. -/
def writePicture (image : Image) (path : PathName) (factor : Nat) (files : Workspace) :
    Checked (EStateM.Result EvalError Workspace Unit) :=
  match enlarge image factor with
  | .error e => .ok (.error e files)
  | .ok painted => do
    let picture ← painted
    let picture ← accept picture
    pure (Command.writePicture picture path 1 files)

def save (base : Option PathName) : CheckedHandler := fun call files =>
  match requireInput call.input with
  | .error e => .ok (.error e files)
  | .ok image =>
    match readSave (Arguments.ofList call.args) with
    | .error e => .ok (.error e files)
    | .ok (path, factor) => do
      match ← writePicture image (placeUnder base path) factor files with
      | .error e files => pure (.error e files)
      | .ok () files => do
        let image ← accept image
        pure (.ok image files)

/-- The checked handlers of all built-in commands. -/
def commands : List (String × CheckedHandler) := [
  ("blank", generator readBlank),
  ("fill", generator readFill),
  ("checkers", generator readCheckers),
  ("stripes", generator readStripes),
  ("circle", generator readCircle),
  ("gradient", generator readGradient),
  ("null", passOn),
  ("zoom", geometric readZoom),
  ("mirror", geometric readMirror),
  ("rotate", geometric readRotate),
  ("invert", recolour readInvert),
  ("hue", recolour readHue),
  ("tile", geometric readTile),
  ("join", join),
  ("mask", mask),
  ("blend", blend),
  ("op_xor", combine .xor),
  ("op_add", combine .add),
  ("op_sub", combine .sub),
  ("op_mul", combine .mul),
  ("op_div", combine .div),
  ("op_mod", combine .mod),
  ("save", save none)]

end Checked

/-- The registry of the checked handlers, which go on in a given way after a violation. -/
def Registry.checked (crash : Violation → Handler) : Registry :=
  .ofList (Checked.commands.map fun (name, handler) => (name, handler.recover crash))

/-! ## What is in range -/

/-- Whether all images of a table of handles are in range. -/
def HandleTable.InRange (t : HandleTable) : Prop := ∀ entry ∈ t.entries, entry.2.InRange

/-- Registering an image in range. -/
theorem HandleTable.InRange.register {t : HandleTable} {image : Image} (h : t.InRange)
    (himage : image.InRange) : (t.register image).2.InRange := by
  intro entry hentry
  simp only [HandleTable.register, HandleTable.insert, List.mem_cons, List.mem_filter] at hentry
  rcases hentry with rfl | ⟨hentry, -⟩
  · exact himage
  · exact h entry hentry

namespace Workspace

/-- Whether a workspace differs from an earlier one in directories that were made and in pictures in
    range that were written, and in nothing else. -/
def ChangesInRange (w w' : Workspace) : Prop :=
  ∀ l, w'.entryAt l = w.entryAt l ∨ w'.entryAt l = some .directory ∨
    ∃ image : Image, image.InRange ∧ w'.entryAt l = some (.file (.picture image))

namespace ChangesInRange

/-- Nothing has been written to files that are the same. -/
theorem refl (w : Workspace) : w.ChangesInRange w := fun _ => .inl rfl

/-- What is written to files that pictures were written to adds to those pictures. -/
theorem trans {w w' w'' : Workspace} (h : w.ChangesInRange w') (h' : w'.ChangesInRange w'') :
    w.ChangesInRange w'' := by
  intro l
  rcases h' l with hl | hl
  · rw [hl]
    exact h l
  · exact .inr hl

/-- Storing directories and pictures in range. -/
theorem of_fills {w w' : Workspace} {puts : List (Location × Entry)} (h : w.Fills puts w')
    (hputs : ∀ put ∈ puts, put.2 = .directory ∨
      ∃ image : Image, image.InRange ∧ put.2 = .file (.picture image)) : w.ChangesInRange w' := by
  -- The induction is on the entries that are stored, each of which changes one location.
  induction h with
  | nil => exact refl _
  | @cons w w' l e puts hadmits _ ih =>
    obtain ⟨he, hrest⟩ := List.forall_mem_cons.1 hputs
    have hput : w.ChangesInRange (w.put l e) := by
      intro m
      rw [entryAt_put hadmits.ne_root]
      by_cases hm : m = l
      · rw [if_pos hm]
        rcases he with rfl | ⟨image, himage, rfl⟩
        · exact .inr (.inl rfl)
        · exact .inr (.inr ⟨image, himage, rfl⟩)
      · rw [if_neg hm]
        exact .inl rfl
    exact hput.trans (ih hrest)

end ChangesInRange

end Workspace

/-- Whether a result leaves files that changed in range, and has a value with a property if any. -/
inductive Respects {α : Type} (P : α → Prop) (files : Workspace) :
    EStateM.Result EvalError Workspace α → Prop
  | ok {a files'} (ha : P a) (hfiles : files.ChangesInRange files') :
    Respects P files (.ok a files')
  | error {e files'} (hfiles : files.ChangesInRange files') : Respects P files (.error e files')

/-- Writing a picture in range changes files in range. -/
theorem respects_writePicture {picture : Image} (h : picture.InRange) (path : PathName)
    (files : Workspace) :
    Respects (fun _ => True) files (Command.writePicture picture path 1 files) := by
  have hfault : Png.fault? picture = none := Png.fault?_eq_none.2 ⟨h.1.1, h.2.1⟩
  -- A picture in range has both sides, so it is written as it is and nothing is wrong with it.
  have hcontent : Command.contentFor picture = .picture picture := by
    rw [Command.contentFor, hfault]
  obtain ⟨puts, hwriting⟩ := Command.exists_writing picture path 1 files
  generalize Command.writePicture picture path 1 files = r at hwriting
  cases hwriting with
  | refused _ => exact .error (.refl files)
  | blocked hfills hputs =>
    exact .error (.of_fills hfills fun put hput => .inl (hputs put hput).1)
  | @written puts after l written henlarge hfills hputs _ =>
    obtain rfl : picture = written := Except.ok.inj henlarge
    rw [hcontent] at hfills
    rw [hfault]
    refine .ok trivial (.of_fills hfills fun put hput => ?_)
    rcases List.mem_append.1 hput with hput | hput
    · exact .inl (hputs put hput).1
    · rw [List.mem_singleton.1 hput]
      exact .inr ⟨picture, h, rfl⟩

/-! ## What is read -/

/-- Whether a computation that has a value has one with a property. -/
def Ensures {ε α : Type} (P : α → Prop) (x : Except ε α) : Prop := ∀ a, x = .ok a → P a

section Reading

variable {ε α β : Type} {P : β → Prop}

/-- What the second step ensures, both together do. -/
private theorem ensures_bind {x : Except ε α} {f : α → Except ε β}
    (h : ∀ a, x = .ok a → Ensures P (f a)) : Ensures P (x >>= f) := by
  cases x with
  | error e => exact fun _ => nofun
  | ok a => exact h a rfl

/-- A result that satisfies a property ensures it. -/
private theorem ensures_ok {b : β} (h : P b) : Ensures P (.ok b : Except ε β) := by
  rintro _ ⟨⟩
  exact h

end Reading

/-- An input that is there is in range when all inputs are. -/
private theorem ensures_requireInput {input : Option Image} (h : ∀ image ∈ input, image.InRange) :
    Ensures Image.InRange (requireInput input) := by
  rintro image heq
  unfold requireInput at heq
  split at heq
  · cases heq
    exact h _ rfl
  · cases heq

/-- A size that is read from a text is in range. -/
theorem ensures_ofText (s : String) : Ensures Size.InRange (Size.ofText s) := by
  intro size heq
  unfold Size.ofText at heq
  split at heq
  -- Behind all ways to refuse a text there are two sides, which are checked last.
  · cases heq
  · split at heq
    · split at heq
      · cases heq
      · next hpos =>
        obtain ⟨hw0, hh0⟩ := not_or.1 hpos
        obtain ⟨rfl, hw, hh⟩ := Size.check_eq_ok.1 heq
        exact ⟨⟨Nat.pos_of_ne_zero hw0, hw⟩, Nat.pos_of_ne_zero hh0, hh⟩
    · cases heq

/-- The size that a generator fills is in range, be it given or that of the input. -/
private theorem ensures_size {input : Option Image} (h : ∀ image ∈ input, image.InRange)
    (a : Arguments) : Ensures Size.InRange (a.size input) := by
  intro size heq
  unfold Arguments.size at heq
  -- A size that was given was checked when it was read; that of an input was checked before.
  split at heq
  · next s _ =>
    cases hs : Size.ofText s with
    | error e =>
      rw [hs] at heq
      cases heq
    | ok size' =>
      rw [hs] at heq
      cases heq
      exact ensures_ofText s _ hs
  · obtain ⟨image, hinput, rfl⟩ := Except.map_eq_ok.1 heq
    exact ensures_requireInput h image hinput

/-- Whether a geometric command leaves something of its input. -/
def Geometry.Proper : Geometry → Prop
  | .zoom factor => factor ≠ 0
  | .tile count => count ≠ 0
  | _ => True

namespace Command

/-- Only numbers other than zero pass. -/
theorem ensures_requirePositive (n : Nat) (what : String) :
    Ensures (fun n => n ≠ 0) (requirePositive n what) := by
  intro m heq
  unfold requirePositive at heq
  split at heq
  · cases heq
  · next hn =>
    cases heq
    exact hn

/-- Nothing is asked of one colour everywhere. -/
private theorem ensures_blank (args : Arguments) : Ensures Pattern.Proper (readBlank args) :=
  ensures_ok trivial

private theorem ensures_fill (args : Arguments) : Ensures Pattern.Proper (readFill args) :=
  ensures_bind fun _ _ => ensures_ok trivial

/-- The cells of a board are not of size zero: the reader asks for a positive number. -/
private theorem ensures_checkers (args : Arguments) : Ensures Pattern.Proper (readCheckers args) :=
  ensures_bind fun _ _ => ensures_bind fun _ _ => ensures_bind fun cell _ =>
    ensures_bind fun _ hcell => ensures_ok (ensures_requirePositive cell "cell" _ hcell)

private theorem ensures_stripes (args : Arguments) : Ensures Pattern.Proper (readStripes args) :=
  ensures_bind fun _ _ => ensures_bind fun _ _ => ensures_bind fun band _ =>
    ensures_bind fun _ hband => ensures_ok (ensures_requirePositive band "width" _ hband)

private theorem ensures_circle (args : Arguments) : Ensures Pattern.Proper (readCircle args) :=
  ensures_bind fun _ _ => ensures_bind fun _ _ => ensures_ok trivial

private theorem ensures_gradient (args : Arguments) : Ensures Pattern.Proper (readGradient args) :=
  ensures_bind fun _ _ => ensures_bind fun _ _ => ensures_ok trivial

/-- A factor of zero is refused before an image is zoomed. -/
theorem ensures_zoom (args : Arguments) : Ensures Geometry.Proper (readZoom args) :=
  ensures_bind fun factor _ => ensures_bind fun _ hfactor =>
    ensures_ok (ensures_requirePositive factor "factor" _ hfactor)

theorem ensures_tile (args : Arguments) : Ensures Geometry.Proper (readTile args) :=
  ensures_bind fun count _ => ensures_bind fun _ hcount =>
    ensures_ok (ensures_requirePositive count "count" _ hcount)

/-- A mirror has no factor. -/
theorem ensures_mirror (args : Arguments) : Ensures Geometry.Proper (readMirror args) := by
  apply ensures_ok
  split
  · trivial
  · trivial

/-- A rotation has no factor. -/
theorem ensures_rotate (args : Arguments) : Ensures Geometry.Proper (readRotate args) := by
  apply ensures_bind
  intro angle _ g heq
  split at heq
  · cases heq
    trivial
  · cases heq
    trivial
  · cases heq
    trivial
  · cases heq

/-- Images pass together exactly when their sizes are the same, and here they passed. -/
theorem sameSize_of_require {a b : Image} {u : Unit} (h : requireSameSize a b = .ok u) :
    a.SameSize b := by
  unfold requireSameSize Image.requireSameSize at h
  by_cases hsame : a.SameSize b
  · exact hsame
  · rw [if_neg hsame] at h
    cases h

/-- An image that may be enlarged is within the limit afterwards. -/
private theorem le_maxSide_of_require {image : Image} {factor : Nat} {u : Unit}
    (h : requireScalable image factor = .ok u) :
    image.width * factor ≤ maxSide ∧ image.height * factor ≤ maxSide := by
  unfold requireScalable at h
  cases hscale : image.size.scale factor with
  | error f =>
    rw [hscale] at h
    cases h
  | ok size => exact Size.exists_scale_iff.1 ⟨size, hscale⟩

end Command

/-! ## The same with checks -/

/-- Whether painting with checks goes well and gives an image, which is in range. -/
def Paints (image : Image) (painted : Checked Image) : Prop := painted = .ok image ∧ image.InRange

/-- Whether a handler with checks does the same as a handler on images in range, and leaves what is
    in range. -/
def CheckedHandler.Sound (checked : CheckedHandler) (handler : Handler) : Prop :=
  ∀ call files, (∀ image ∈ call.input, image.InRange) → call.handles.InRange →
    checked call files = .ok (handler call files) ∧
      Respects Image.InRange files (handler call files)

namespace Checked

open Command

/-- A handler that only computes is sound where what it computes is, for inputs and handles in
    range. It writes nothing. -/
private theorem sound_ofFunction {f : Call → Except EvalError Image}
    {checked : Call → Except EvalError (Checked Image)}
    (h : ∀ call, (∀ image ∈ call.input, image.InRange) → call.handles.InRange →
      SameOutcome Paints (f call) (checked call)) :
    (CheckedHandler.ofFunction checked).Sound (.ofFunction f) := by
  intro call files hinput hhandles
  have houtcome := h call hinput hhandles
  unfold CheckedHandler.ofFunction Handler.ofFunction
  -- What is computed with and without checks has the same outcome, so there are two cases.
  generalize f call = r at houtcome
  generalize checked call = r' at houtcome
  cases houtcome with
  | error e => exact ⟨rfl, .error (.refl files)⟩
  | @ok image painted hpaints =>
    obtain ⟨rfl, himage⟩ := hpaints
    simp only [Except.ok_bind, accept_eq_ok himage]
    exact ⟨rfl, .ok himage (.refl files)⟩

/-- A generator paints an image of a size that was checked, from a pattern that divides by no zero.
    -/
private theorem sound_generator {read : Arguments → Except EvalError Pattern}
    (hread : ∀ args, Ensures Pattern.Proper (read args)) :
    (generator read).Sound (Command.generator read) := by
  apply sound_ofFunction
  intro call hinput hhandles
  refine .bind_same _ fun pattern hpattern => .bind_same _ fun size hsize => .ok ?_
  have hrange : size.InRange := ensures_size hinput _ _ hsize
  exact ⟨paint_eq_ok (hread _ _ hpattern) hrange, hrange⟩

/-- An image that is passed on was in range before. -/
private theorem sound_passOn : passOn.Sound Command.passOn := by
  apply sound_ofFunction
  intro call hinput hhandles
  have hread := ensures_requireInput hinput
  change SameOutcome Paints (requireInput call.input)
    (requireInput call.input >>= fun image => .ok (.ok image))
  cases himage : requireInput call.input with
  | error e => exact .error e
  | ok image => exact .ok ⟨rfl, hread image himage⟩

/-- Changing colours goes well when the changes with checks do the same. -/
private theorem sound_recolour {read : Arguments → Except EvalError (Colour → Colour)}
    {checked : Arguments → Except EvalError (Colour → Checked Colour)}
    (hread : ∀ args, SameOutcome (fun f g => ∀ c, g c = .ok (f c)) (read args) (checked args)) :
    (recolour checked).Sound (Command.recolour read) := by
  apply sound_ofFunction
  intro call hinput hhandles
  refine .bind_same _ fun image himage => (hread _).bind fun f g hfg => .ok ?_
  have hrange := ensures_requireInput hinput image himage
  exact ⟨map_eq_ok hfg hrange, hrange⟩

/-- Inverting subtracts each channel from the largest one. -/
private theorem sound_invert : (recolour readInvert).Sound (Command.recolour Command.readInvert) :=
  sound_recolour fun _ => .ok invert_eq_ok

/-- Turning hues computes with fractions, where nothing overflows. -/
private theorem sound_hue : (recolour readHue).Sound (Command.recolour Command.readHue) := by
  apply sound_recolour
  intro args
  unfold readHue
  cases Command.readHue args with
  | error e => exact .error e
  | ok f => exact .ok fun _ => rfl

/-! ### Geometry -/

/-- Applying a geometric command whose result is in range. -/
private theorem paints_apply {g : Geometry} {image : Image} (h : (g.apply image).InRange) :
    Paints (g.apply image) (apply g image) := ⟨apply_eq_ok h.1.2 h.2.2, h⟩

/-- Enlarging goes well once it is clear that the image may be enlarged. -/
private theorem sameOutcome_enlarged {image : Image} (himage : image.InRange) {factor : Nat}
    (hfactor : factor ≠ 0) {g : Geometry}
    (hsize : (g.apply image).size = ⟨image.width * factor, image.height * factor⟩) :
    SameOutcome Paints (requireScalable image factor >>= fun _ => .ok (g.apply image))
      (requireScalable image factor >>= fun _ => .ok (apply g image)) := by
  refine .bind_same _ fun _ hscale => .ok (paints_apply ?_)
  obtain ⟨hw, hh⟩ := le_maxSide_of_require hscale
  have hpos : 0 < factor := Nat.pos_of_ne_zero hfactor
  rw [Image.InRange, hsize]
  exact ⟨⟨Nat.mul_pos himage.1.1 hpos, hw⟩, Nat.mul_pos himage.2.1 hpos, hh⟩

/-- A geometric command refuses what would be too large, so its sides are in range where it goes
    through. -/
theorem sameOutcome_transform {image : Image} (himage : image.InRange) {g : Geometry}
    (hg : g.Proper) : SameOutcome Paints (Command.transform image g) (transform image g) := by
  cases g with
  | zoom factor =>
    unfold Command.transform transform
    -- Zooming by one hands the image on, with no new size to check.
    by_cases hfactor : factor = 1
    · simp only [if_pos hfactor]
      exact .ok ⟨rfl, himage⟩
    · simp only [if_neg hfactor]
      exact sameOutcome_enlarged himage hg rfl
  | tile count => exact sameOutcome_enlarged himage hg rfl
  | mirrorColumns | mirrorRows | halfTurn => exact .ok (paints_apply himage)
  -- A quarter turn swaps the sides, and with them the two bounds.
  | quarterTurn | threeQuarterTurn => exact .ok (paints_apply ⟨himage.2, himage.1⟩)

/-- A geometric command is sound for every geometry that its arguments may give. -/
private theorem sound_geometric {read : Arguments → Except EvalError Geometry}
    (hread : ∀ args, Ensures Geometry.Proper (read args)) :
    (geometric read).Sound (Command.geometric read) := by
  apply sound_ofFunction
  intro call hinput hhandles
  refine .bind_same _ fun image himage => .bind_same _ fun g hg => ?_
  exact sameOutcome_transform (ensures_requireInput hinput image himage) (hread _ g hg)

/-! ### Combining images -/

/-- Combining two images of the same size goes well. -/
private theorem paints_map₂ {f : Colour → Colour → Colour}
    {checked : Colour → Colour → Checked Colour}
    (hf : ∀ c d, checked c d = .ok (f c d)) {a b : Image} (ha : a.InRange) (hb : a.SameSize b) :
    Paints (Image.map₂ f a b) (map₂ checked a b) := ⟨map₂_eq_ok hf ha hb, ha⟩

/-- Joined images have the same size, and so has the mask, so no pixel of them is missing. -/
private theorem sound_join : join.Sound Command.join := by
  apply sound_ofFunction
  intro call hinput hhandles
  refine .bind_same _ fun image himage => .bind_same _ fun name _ => .bind_same _ fun mode _ => ?_
  refine .bind_same _ fun drawn _ => .bind_same _ fun _ hdrawn => .bind_same _ fun mask _ => ?_
  -- Here the joined image has passed the comparison of sizes, and the mask is still to come.
  have hrange := ensures_requireInput hinput image himage
  have hdrawn := sameSize_of_require hdrawn
  cases mask with
  | none => exact .ok (paints_map₂ (joinColour_eq_ok mode) hrange hdrawn)
  | some mask =>
    refine .bind_same _ fun _ hmask => .ok ⟨?_, hrange⟩
    exact map₃_eq_ok (joinMasked_eq_ok mode) hrange hdrawn (sameSize_of_require hmask)

/-- The image that fades the input has its size, so no pixel of either is missing. -/
private theorem sound_mask : mask.Sound Command.mask := by
  apply sound_ofFunction
  intro call hinput hhandles
  refine .bind_same _ fun image himage => .bind_same _ fun weight _ => ?_
  refine .bind_same _ fun _ hweight => .ok ?_
  have hrange := ensures_requireInput hinput image himage
  exact paints_map₂ (fun _ _ => rfl) hrange (sameSize_of_require hweight)

/-- Blended images have the same size, and an amount out of range is refused before they are mixed.
    -/
private theorem sound_blend : blend.Sound Command.blend := by
  apply sound_ofFunction
  intro call hinput hhandles
  refine .bind_same _ fun image himage => .bind_same _ fun other _ => ?_
  refine .bind_same _ fun _ hother => .bind_same _ fun amount _ => ?_
  have hrange := ensures_requireInput hinput image himage
  split
  · exact .ok (paints_map₂ (fun _ _ => rfl) hrange (sameSize_of_require hother))
  · exact .error _

/-- The operands of an operator have the same size, and no formula of an operator leaves the
    channels. -/
private theorem sound_combine (o : Operator) : (combine o).Sound (Command.combine o) := by
  apply sound_ofFunction
  intro call hinput hhandles
  refine .bind_same _ fun left hleft => .bind_same _ fun right _ => ?_
  refine .bind_same _ fun _ hright => .ok ?_
  have hrange := ensures_requireInput hinput left hleft
  exact paints_map₂ (colour_eq_ok o) hrange (sameSize_of_require hright)

/-! ### Saving -/

/-- A picture is enlarged like an image is zoomed, behind the same check. -/
theorem sameOutcome_enlarge {image : Image} (himage : image.InRange) (factor : Nat) :
    SameOutcome Paints (Command.enlarge image factor) (enlarge image factor) := by
  unfold Command.enlarge enlarge
  by_cases hfactor : factor ≤ 1
  · simp only [if_pos hfactor]
    exact .ok ⟨rfl, himage⟩
  · simp only [if_neg hfactor]
    -- A factor above one is a zoom, behind the same check.
    have hpos : factor ≠ 0 := by omega
    have hzoom := sameOutcome_enlarged himage hpos (g := .zoom factor) rfl
    cases hscale : requireScalable image factor with
    | error e => exact .error e
    | ok u =>
      rw [hscale] at hzoom
      exact hzoom

/-- Writing an enlarged image is writing the picture that it was enlarged to. -/
private theorem writePicture_eq (image : Image) (path : PathName) (factor : Nat)
    (files : Workspace) : Command.writePicture image path factor files =
      match Command.enlarge image factor with
      | .error e => .error e files
      | .ok picture => Command.writePicture picture path 1 files := by
  have henlarge (picture : Image) : Command.enlarge picture 1 = .ok picture :=
    if_pos (Nat.le_refl 1)
  cases h : Command.enlarge image factor with
  | error e => simp only [Command.writePicture, h]
  | ok picture => simp only [Command.writePicture, h, henlarge]

/-- A picture is written as it is without checks, and what is in the files afterwards is in range.
    -/
private theorem writePicture_eq_ok {image : Image} (himage : image.InRange) (path : PathName)
    (factor : Nat) (files : Workspace) :
    writePicture image path factor files = .ok (Command.writePicture image path factor files) ∧
      Respects (fun _ => True) files (Command.writePicture image path factor files) := by
  have hpicture := sameOutcome_enlarge himage factor
  rw [writePicture_eq, writePicture]
  -- The two ways of enlarging have one outcome.
  generalize Command.enlarge image factor = r at hpicture
  generalize enlarge image factor = r' at hpicture
  cases hpicture with
  | error e => exact ⟨rfl, .error (.refl files)⟩
  | @ok picture painted hpaints =>
    obtain ⟨rfl, hrange⟩ := hpaints
    simp only [Except.ok_bind, accept_eq_ok hrange]
    exact ⟨rfl, respects_writePicture hrange path files⟩

/-- A saved image is handed on as it came, and the picture that is written was checked. -/
private theorem sound_save (base : Option PathName) : (save base).Sound (Command.save base) := by
  intro call files hinput hhandles
  unfold save Command.save
  cases himage : requireInput call.input with
  | error e => exact ⟨rfl, .error (.refl files)⟩
  | ok image =>
    have hrange := ensures_requireInput hinput image himage
    cases readSave (Arguments.ofList call.args) with
    | error e => exact ⟨rfl, .error (.refl files)⟩
    | ok target =>
      obtain ⟨path, factor⟩ := target
      -- The image is handed on as it is, once its enlarged picture is written.
      obtain ⟨hwrite, hrespects⟩ :=
        writePicture_eq_ok hrange (placeUnder base path) factor files
      simp only [hwrite, Except.ok_bind]
      generalize Command.writePicture image (placeUnder base path) factor files = r at hrespects
      cases hrespects with
      | error hfiles => exact ⟨rfl, .error hfiles⟩
      | ok _ hfiles =>
        simp only [accept_eq_ok hrange]
        exact ⟨rfl, .ok hrange hfiles⟩

/-- The handlers of all built-in commands do the same with checks. -/
theorem sound : List.Forall₂ (fun p b => p.1 = b.name ∧ CheckedHandler.Sound p.2 b.handler)
    commands Builtin.all :=
  .cons ⟨rfl, sound_generator ensures_blank⟩ <|
  .cons ⟨rfl, sound_generator ensures_fill⟩ <|
  .cons ⟨rfl, sound_generator ensures_checkers⟩ <|
  .cons ⟨rfl, sound_generator ensures_stripes⟩ <|
  .cons ⟨rfl, sound_generator ensures_circle⟩ <|
  .cons ⟨rfl, sound_generator ensures_gradient⟩ <|
  .cons ⟨rfl, sound_passOn⟩ <|
  .cons ⟨rfl, sound_geometric ensures_zoom⟩ <|
  .cons ⟨rfl, sound_geometric ensures_mirror⟩ <|
  .cons ⟨rfl, sound_geometric ensures_rotate⟩ <|
  .cons ⟨rfl, sound_invert⟩ <|
  .cons ⟨rfl, sound_hue⟩ <|
  .cons ⟨rfl, sound_geometric ensures_tile⟩ <|
  .cons ⟨rfl, sound_join⟩ <|
  .cons ⟨rfl, sound_mask⟩ <|
  .cons ⟨rfl, sound_blend⟩ <|
  .cons ⟨rfl, sound_combine .xor⟩ <|
  .cons ⟨rfl, sound_combine .add⟩ <|
  .cons ⟨rfl, sound_combine .sub⟩ <|
  .cons ⟨rfl, sound_combine .mul⟩ <|
  .cons ⟨rfl, sound_combine .div⟩ <|
  .cons ⟨rfl, sound_combine .mod⟩ <|
  .cons ⟨rfl, sound_save none⟩ .nil

end Checked

end Tapestry
