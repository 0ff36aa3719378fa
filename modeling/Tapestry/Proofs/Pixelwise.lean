import Tapestry.Proofs.CheckedCommands
import Tapestry.Proofs.SizesOnly

/-!
# Pixel by pixel

Some commands combine the colours of one position after the other, and the geometric commands move
positions and change no colour. So it does not matter which of the two comes first: to combine
images and then move the result is to move all images and then combine them. The sizes that are
compared come out alike in both orders, because a geometric command keeps images of different sizes
different in size, and because it decides by the size of an image whether it may enlarge it.

## Key results

- `Geometry.apply_combineAll`: moving positions and combining colours commute
- `Geometry.sameSize_apply_iff`: a geometric command keeps different sizes different
- `Handler.Pixelwise.commutes`: a command that combines colours commutes with a geometric one
- `PixelCommand.pixelwise`: which built-in commands combine colours, and of which images
- `pixelwise_geometric_commute`: the same for the built-in commands
-/

namespace Tapestry

/-! ## Images -/

namespace Image

/-- Combine the colours of an image with those of others position by position, at the size of the
    image. -/
def combineAll (f : Colour → List Colour → Colour) (image : Image) (others : List Image) : Image :=
  ofFn image.width image.height fun x y =>
    f (image.pixel x y) (others.map fun other => other.pixel x y)

/-- A combined pixel depends on the pixels at its own position. -/
private theorem pixel_combineAll {image : Image} {x y : Nat} (f : Colour → List Colour → Colour)
    (others : List Image) (h : image.Inside x y) :
    (combineAll f image others).pixel x y =
      f (image.pixel x y) (others.map fun other => other.pixel x y) :=
  pixel_ofFn _ h.1 h.2

/-- Changing colours combines an image with no other one. -/
private theorem map_eq_combineAll (f : Colour → Colour) (image : Image) :
    image.map f = combineAll (fun c _ => f c) image [] := by
  refine ext_pixel (a := image.map f) rfl rfl fun x y hx hy => ?_
  have hinside : image.Inside x y := ⟨hx, hy⟩
  rw [pixel_map f hinside, pixel_combineAll _ _ hinside]

/-- Two images are combined with one other one behind the first. -/
private theorem map₂_eq_combineAll (f : Colour → Colour → Colour) (a b : Image) :
    map₂ f a b = combineAll (fun c others => f c (others.headD c)) a [b] := rfl

private theorem map₃_eq_combineAll (f : Colour → Colour → Colour → Colour) (a b c : Image) :
    map₃ f a b c =
      combineAll (fun d others => f d (others.headD d) (others.getD 1 d)) a [b, c] := rfl

end Image

namespace Geometry

/-- Images of the same size show the same positions after a geometric command. -/
private theorem pixel_apply {g : Geometry} {a b : Image} (h : a.SameSize b) {x y : Nat}
    (hinside : (g.apply a).Inside x y) :
    (g.apply b).pixel x y = b.pixel ((g.resampling a.width a.height).source x y).1
      ((g.resampling a.width a.height).source x y).2 := by
  obtain ⟨hx, hy⟩ := hinside
  simp only [apply, Image.width_resample, Image.height_resample, h.1, h.2] at hx hy ⊢
  exact Image.pixel_resample b hx hy

/-- Moving the positions of a combination is moving those of all its images. -/
theorem apply_combineAll (g : Geometry) (f : Colour → List Colour → Colour) {image : Image}
    {others : List Image} (h : ∀ other ∈ others, image.SameSize other) :
    g.apply (Image.combineAll f image others) =
      Image.combineAll f (g.apply image) (others.map g.apply) := by
  refine Image.ext_pixel (a := g.apply (Image.combineAll f image others)) rfl rfl
    fun x y hx hy => ?_
  have hinside : (g.apply image).Inside x y := ⟨hx, hy⟩
  have hsource := g.inside_resampling (w := image.width) (h := image.height) hx hy
  -- All images are as large as the first one, so one position of the source serves all of them.
  have hothers : (others.map g.apply).map (fun other => other.pixel x y) = others.map fun other =>
      other.pixel ((g.resampling image.width image.height).source x y).1
        ((g.resampling image.width image.height).source x y).2 := by
    rw [List.map_map]
    refine List.map_congr_left fun other hother => ?_
    exact pixel_apply (h other hother) hinside
  have hcombined : image.SameSize (Image.combineAll f image others) := ⟨rfl, rfl⟩
  rw [pixel_apply hcombined hinside, Image.pixel_combineAll f others hsource,
    Image.pixel_combineAll f _ hinside, pixel_apply ⟨rfl, rfl⟩ hinside, hothers]

/-- A geometric command gives two images the same size only when they had the same size. -/
theorem sameSize_apply_iff {g : Geometry} (hg : g.Proper) {a b : Image} :
    (g.apply a).SameSize (g.apply b) ↔ a.SameSize b := by
  cases g with
  | zoom factor | tile factor => exact and_congr (Nat.mul_left_inj hg) (Nat.mul_left_inj hg)
  | quarterTurn | threeQuarterTurn => exact and_comm
  | mirrorColumns | mirrorRows | halfTurn => exact Iff.rfl

example : ((zoom 0).apply (.blank 1 1)).SameSize ((zoom 0).apply (.blank 2 2)) := by decide

/-- Whether a geometric command may be applied to images of a size. -/
def Fits (s : Size) : Geometry → Prop
  | zoom factor => factor = 1 ∨ ∃ t, s.scale factor = .ok t
  | tile count => ∃ t, s.scale count = .ok t
  | _ => True

/-- Zooming by one changes nothing. -/
theorem apply_zoom_one (image : Image) : (zoom 1).apply image = image := by
  refine Image.ext_pixel (Nat.mul_one _) (Nat.mul_one _) fun x y hx hy => ?_
  rw [pixel_apply ⟨rfl, rfl⟩ ⟨hx, hy⟩]
  simp only [resampling, Nat.div_one]

end Geometry

namespace Command

/-- A factor passes when there is a size for it. -/
theorem requireScalable_eq_ok {image : Image} {factor : Nat} {u : Unit} :
    requireScalable image factor = .ok u ↔ ∃ t, image.size.scale factor = .ok t := by
  unfold requireScalable
  cases image.size.scale factor with
  | ok t => exact ⟨fun _ => ⟨t, rfl⟩, fun _ => rfl⟩
  | error fault => exact ⟨nofun, nofun⟩

/-- A geometric command gives an image when it fits the size of its input. -/
theorem transform_eq_ok {image out : Image} {g : Geometry} :
    transform image g = .ok out ↔ g.Fits image.size ∧ out = g.apply image := by
  -- Zooming by more than one and tiling ask the same question about the size first.
  have henlarged (factor : Nat) :
      (requireScalable image factor).bind (fun _ => .ok (g.apply image)) = .ok out ↔
        (∃ t, image.size.scale factor = .ok t) ∧ out = g.apply image := by
    rw [Except.bind_eq_ok, ← requireScalable_eq_ok (u := ()), Except.ok.injEq, eq_comm]
    exact exists_and_right.trans (and_congr_left' ⟨fun h => h.choose_spec, fun h => ⟨(), h⟩⟩)
  cases g with
  | zoom factor =>
    rw [transform, Geometry.Fits]
    by_cases hfactor : factor = 1
    -- A zoom by one is not checked against the largest side.
    · subst hfactor
      rw [if_pos rfl, Geometry.apply_zoom_one, Except.ok.injEq]
      exact ⟨fun h => ⟨.inl rfl, h.symm⟩, fun h => h.2.symm⟩
    · rw [if_neg hfactor, or_iff_right hfactor]
      exact henlarged factor
  | tile count => exact henlarged count
  | mirrorColumns | mirrorRows | quarterTurn | halfTurn | threeQuarterTurn =>
    show Except.ok _ = Except.ok out ↔ True ∧ out = _
    rw [Except.ok.injEq, true_and, eq_comm]

/-- Images pass together when their sizes are the same. -/
theorem requireSameSize_eq_ok {a b : Image} {u : Unit} :
    requireSameSize a b = .ok u ↔ a.SameSize b := by
  refine ⟨sameSize_of_require, fun h => ?_⟩
  rw [requireSameSize, Image.requireSameSize, if_pos h]
  rfl

end Command

/-! ## The images behind texts -/

/-- A handle is its own name: it has no equals sign. -/
private theorem HandleTable.handleOf_of_isHandle {s : String} (h : isHandle s = true) :
    handleOf s = s := by
  rw [handleOf, splitOnce_of_not_mem (equals_not_mem_of_isHandle h)]

/-- Binding an image to a handle changes what this handle stands for and nothing else. -/
private theorem imageOfText_insert {s : String} (hs : isHandle s = true) (t : HandleTable)
    (image : Image) (other : String) :
    imageOfText (t.insert s image) other =
      if other = s then .ok image else imageOfText t other := by
  -- The new image stands in front of the table, where only its own handle finds it; a text that is
  -- no handle is not looked up.
  by_cases hother : isHandle other = true
  · obtain ⟨digits, hdigits, -⟩ := isHandle_iff.1 hother
    have hstart : handlePrefix.isPrefixOf other.toList = true := by
      rw [hdigits, List.isPrefixOf_iff_prefix]
      exact List.prefix_append _ _
    rw [imageOfText, imageOfText, if_pos hother, if_pos hother, HandleTable.resolve,
      HandleTable.resolve, HandleTable.handleOf_of_isHandle hother, HandleTable.lookup,
      HandleTable.lookup, if_pos hstart, if_pos hstart, HandleTable.insert, lookup_cons_filter_ne]
    by_cases heq : other = s
    · rw [if_pos heq, if_pos heq]
    · rw [if_neg heq, if_neg heq]
  · have hne : other ≠ s := fun h => hother (h ▸ hs)
    rw [imageOfText, imageOfText, if_neg hother, if_neg hother, if_neg hne]

/-- Change the images behind some texts by a function. There is no such table when one of the texts
    has no image, or the function has no value for it. -/
def HandleTable.mapImages (f : Image → Option Image) (t : HandleTable) :
    List String → Option HandleTable
  | [] => some t
  | s :: texts => do
    let image ← (imageOfText t s).toOption
    let changed ← f image
    let rest ← t.mapImages f texts
    pure (rest.insert s changed)

/-- Change the input and the images behind some of the texts of a call by a function. -/
def Call.mapImages (f : Image → Option Image) (texts : List String) (call : Call) :
    Option Call := do
  let input ← call.input
  let changed ← f input
  let handles ← call.handles.mapImages f texts
  pure { call with input := some changed, handles }

section Images

variable {f : Image → Option Image} {t t' : HandleTable} {texts : List String}

/-- The first text has its image changed behind the others. -/
private theorem mapImages_cons_eq_some {s : String} :
    t.mapImages f (s :: texts) = some t' ↔
      ∃ image changed rest, imageOfText t s = .ok image ∧ f image = some changed ∧
        t.mapImages f texts = some rest ∧ t' = rest.insert s changed := by
  simp [HandleTable.mapImages, Option.bind_eq_some_iff, Except.toOption_eq_some, eq_comm (a := t')]

/-- A call is changed where its input and all images behind the texts are. -/
private theorem Call.mapImages_eq_some {args : List String} {input : Image} {call : Call} :
    Call.mapImages f texts ⟨args, some input, t⟩ = some call ↔
      ∃ changed t', f input = some changed ∧ t.mapImages f texts = some t' ∧
        call = ⟨args, some changed, t'⟩ := by
  simp [Call.mapImages, Option.bind_eq_some_iff, eq_comm (a := call)]

/-- Whether some texts stand for some images. -/
def HandleTable.Behind (t : HandleTable) (texts : List String) (images : List Image) : Prop :=
  List.Forall₂ (fun s image => imageOfText t s = .ok image) texts images

section Behind

variable {P : Image → Prop} {Q : List Image → Prop}

/-- Behind no texts there are no images. -/
private theorem exists_behind_nil :
    (∃ images, t.Behind [] images ∧ (∀ image ∈ images, P image) ∧ Q images) ↔ Q [] := by
  constructor
  · rintro ⟨_, ⟨⟩, -, h⟩
    exact h
  · exact fun h => ⟨[], .nil, nofun, h⟩

/-- The image behind the first text comes first. -/
private theorem exists_behind_cons {s : String} :
    (∃ images, t.Behind (s :: texts) images ∧ (∀ image ∈ images, P image) ∧ Q images) ↔
      ∃ image, imageOfText t s = .ok image ∧ P image ∧
        ∃ images, t.Behind texts images ∧ (∀ image ∈ images, P image) ∧ Q (image :: images) := by
  constructor
  · rintro ⟨_, hbehind, hall, h⟩
    obtain ⟨image, images, himage, hrest, rfl⟩ := List.forall₂_cons_left_iff.1 hbehind
    obtain ⟨hP, hall⟩ := List.forall_mem_cons.1 hall
    exact ⟨image, himage, hP, images, hrest, hall, h⟩
  · rintro ⟨image, himage, hP, images, hbehind, hall, h⟩
    exact ⟨image :: images, .cons himage hbehind, List.forall_mem_cons.2 ⟨hP, hall⟩, h⟩

end Behind

/-- Only the images behind the texts are changed, and each of them by the function. -/
private theorem imageOfText_mapImages (h : t.mapImages f texts = some t') :
    (∀ s ∉ texts, imageOfText t' s = imageOfText t s) ∧
      ∀ s ∈ texts, ∃ image changed, imageOfText t s = .ok image ∧ f image = some changed ∧
        imageOfText t' s = .ok changed := by
  induction texts generalizing t' with
  | nil =>
    cases h
    exact ⟨fun _ _ => rfl, fun _ hs => absurd hs List.not_mem_nil⟩
  | cons s texts ih =>
    obtain ⟨image, changed, rest, himage, hchanged, hrest, rfl⟩ := mapImages_cons_eq_some.1 h
    -- A text with an image is a handle, so the images behind other texts stay what they were.
    have hs : isHandle s = true := by
      by_contra hs
      rw [imageOfText, if_neg hs] at himage
      cases himage
    obtain ⟨hother, htexts⟩ := ih hrest
    constructor
    · intro other hmem
      rw [List.mem_cons, not_or] at hmem
      rw [imageOfText_insert hs, if_neg hmem.1, hother other hmem.2]
    · intro other hmem
      rw [imageOfText_insert hs]
      by_cases heq : other = s
      · subst heq
        rw [if_pos rfl]
        exact ⟨image, changed, himage, hchanged, rfl⟩
      · rw [if_neg heq]
        exact htexts other ((List.mem_cons.1 hmem).resolve_left heq)

/-- A table can be changed when every image behind the texts can be. -/
private theorem exists_mapImages {images changed : List Image} (h : t.Behind texts images)
    (hf : List.Forall₂ (fun image c => f image = some c) images changed) :
    ∃ t', t.mapImages f texts = some t' := by
  induction h generalizing changed with
  | nil => exact ⟨t, rfl⟩
  | cons hs _ ih =>
    obtain ⟨c, rest, hc, hrest, rfl⟩ := List.forall₂_cons_left_iff.1 hf
    obtain ⟨t', ht'⟩ := ih hrest
    exact ⟨_, mapImages_cons_eq_some.2 ⟨_, c, t', hs, hc, ht', rfl⟩⟩

/-- Behind the texts of a changed table are the changed images. -/
theorem exists_mapImages_iff {changed : List Image} :
    (∃ t', t.mapImages f texts = some t' ∧ t'.Behind texts changed) ↔
      ∃ images, t.Behind texts images ∧
        List.Forall₂ (fun image c => f image = some c) images changed := by
  constructor
  · rintro ⟨t', ht', hchanged⟩
    have htexts := (imageOfText_mapImages ht').2
    clear ht'
    induction hchanged with
    | nil => exact ⟨[], .nil, .nil⟩
    | cons hs _ ih =>
      obtain ⟨⟨image, c, himage, hc, hs'⟩, htexts⟩ := List.forall_mem_cons.1 htexts
      obtain ⟨images, himages, hf⟩ := ih htexts
      rw [hs] at hs'
      cases hs'
      exact ⟨image :: images, .cons himage himages, .cons hc hf⟩
  · rintro ⟨images, himages, hf⟩
    obtain ⟨t', ht'⟩ := exists_mapImages himages hf
    have htexts := (imageOfText_mapImages ht').2
    refine ⟨t', ht', ?_⟩
    clear ht'
    induction himages generalizing changed with
    | nil =>
      cases hf
      exact .nil
    | cons hs _ ih =>
      obtain ⟨⟨image, c, himage, hc, hs'⟩, htexts⟩ := List.forall_mem_cons.1 htexts
      obtain ⟨d, rest, hd, hrest, rfl⟩ := List.forall₂_cons_left_iff.1 hf
      -- A text has one image before and one after.
      rw [hs] at himage
      cases himage
      rw [hd] at hc
      cases hc
      exact .cons hs' (ih hrest htexts)

end Images

/-! ## Commands -/

/-- The image that a handler makes of a call, if it makes one. -/
def Handler.image? (handler : Handler) (files : Workspace) (call : Call) : Option Image :=
  value? (handler call files)

/-- A handler that only computes has the image that it computes. -/
theorem Handler.image?_ofFunction (f : Call → Except EvalError Image) (files : Workspace)
    (call : Call) : (Handler.ofFunction f).image? files call = (f call).toOption := by
  rw [image?, ofFunction]
  cases f call with
  | ok image => rfl
  | error e => rfl

/-- Whether a handler that is called with some texts combines the colours of its input with those of
    the images behind some other texts, in a way that depends on no image. There is no result when
    the sizes differ or a text has no image, and for some texts there is none at all. -/
def Handler.Pixelwise (handler : Handler) (args texts : List String) : Prop :=
  ∃ recipe : Option (Colour → List Colour → Colour), ∀ files input t out,
    handler.image? files ⟨args, some input, t⟩ = some out ↔
      ∃ f ∈ recipe, ∃ images, t.Behind texts images ∧
        (∀ image ∈ images, input.SameSize image) ∧ out = Image.combineAll f input images

/-- A geometric command is applied to all of some images when it fits their sizes. -/
private theorem forall₂_transform {g : Geometry} {images changed : List Image} :
    List.Forall₂ (fun image c => (Command.transform image g).toOption = some c) images changed ↔
      (∀ image ∈ images, g.Fits image.size) ∧ changed = images.map g.apply := by
  induction images generalizing changed with
  | nil => simp
  | cons image images ih =>
    rw [List.forall₂_cons_left_iff, List.forall_mem_cons, List.map_cons]
    constructor
    · rintro ⟨c, rest, hc, hrest, rfl⟩
      obtain ⟨hfits, rfl⟩ := Command.transform_eq_ok.1 (Except.toOption_eq_some.1 hc)
      obtain ⟨hall, rfl⟩ := ih.1 hrest
      exact ⟨⟨hfits, hall⟩, rfl⟩
    · rintro ⟨⟨hfits, hall⟩, rfl⟩
      have hc := Except.toOption_eq_some.2 (Command.transform_eq_ok.2 ⟨hfits, rfl⟩)
      exact ⟨_, _, hc, ih.2 ⟨hall, rfl⟩, rfl⟩

/-- A handler that combines colours commutes with a geometric command. -/
theorem Handler.Pixelwise.commutes {handler : Handler} {args texts : List String}
    (h : handler.Pixelwise args texts) {g : Geometry} (hg : g.Proper) (files : Workspace)
    (input : Image) (t : HandleTable) :
    ((handler.image? files ⟨args, some input, t⟩).bind fun image =>
        (Command.transform image g).toOption) =
      (Call.mapImages (fun image => (Command.transform image g).toOption) texts
        ⟨args, some input, t⟩).bind (handler.image? files) := by
  obtain ⟨recipe, h⟩ := h
  ext out
  rw [Option.bind_eq_some_iff, Option.bind_eq_some_iff]
  constructor
  · rintro ⟨combined, hcombined, hout⟩
    obtain ⟨f, hf, images, himages, hsame, rfl⟩ := (h files input t combined).1 hcombined
    obtain ⟨hfits, rfl⟩ := Command.transform_eq_ok.1 (Except.toOption_eq_some.1 hout)
    -- All images have the size of the combination, so the command fits them too.
    have hall : ∀ image ∈ images, g.Fits image.size :=
      fun image himage => (hsame image himage).size_eq ▸ hfits
    obtain ⟨t', ht', hbehind⟩ := exists_mapImages_iff.2 ⟨images, himages,
      forall₂_transform.2 ⟨hall, rfl⟩⟩
    have hinput : (Command.transform input g).toOption = some (g.apply input) :=
      Except.toOption_eq_some.2 (Command.transform_eq_ok.2 ⟨hfits, rfl⟩)
    refine ⟨⟨args, some (g.apply input), t'⟩, ?_, ?_⟩
    · exact Call.mapImages_eq_some.2 ⟨_, t', hinput, ht', rfl⟩
    · refine (h files _ t' _).2 ⟨f, hf, _, hbehind, ?_, g.apply_combineAll f hsame⟩
      intro changed hchanged
      obtain ⟨image, himage, rfl⟩ := List.mem_map.1 hchanged
      exact (Geometry.sameSize_apply_iff hg).2 (hsame image himage)
  · rintro ⟨call, hcall, hout⟩
    obtain ⟨input', t', hinput, ht', rfl⟩ := Call.mapImages_eq_some.1 hcall
    obtain ⟨hfits, rfl⟩ := Command.transform_eq_ok.1 (Except.toOption_eq_some.1 hinput)
    obtain ⟨f, hf, changed, hbehind, hsame, rfl⟩ := (h files _ t' out).1 hout
    obtain ⟨images, himages, htransform⟩ := exists_mapImages_iff.1 ⟨t', ht', hbehind⟩
    obtain ⟨-, rfl⟩ := forall₂_transform.1 htransform
    -- The sizes agree after the geometric command, so they did so before.
    have hsame : ∀ image ∈ images, input.SameSize image := by
      intro image himage
      exact (Geometry.sameSize_apply_iff hg).1 (hsame _ (List.mem_map_of_mem himage))
    refine ⟨_, (h files input t _).2 ⟨f, hf, images, himages, hsame, rfl⟩, ?_⟩
    rw [← g.apply_combineAll f hsame]
    exact Except.toOption_eq_some.2 (Command.transform_eq_ok.2 ⟨hfits, rfl⟩)

namespace Command

/-- A handler that gives no image, whatever images it is called with, combines colours in no way. -/
private theorem pixelwise_of_fails {run : Call → Except EvalError Image} {args : List String}
    (texts : List String)
    (h : ∀ input t out, run ⟨args, some input, t⟩ ≠ .ok out) :
    (Handler.ofFunction run).Pixelwise args texts := by
  refine ⟨none, fun files input t out => ?_⟩
  rw [Handler.image?_ofFunction, Except.toOption_eq_some]
  exact ⟨fun hout => absurd hout (h input t out), fun ⟨_, hf, _⟩ => nomatch hf⟩

/-- Commands that change colours do so pixel by pixel, whatever their arguments make of a colour. -/
private theorem pixelwise_recolour (read : Arguments → Except EvalError (Colour → Colour))
    (args : List String) : (recolour read).Pixelwise args [] := by
  -- Wrong words fail for every image; right ones stand for one function on colours.
  cases hread : read (Arguments.ofList args) with
  | error e =>
    refine pixelwise_of_fails _ fun input t out => ?_
    simp only [requireInput, hread, Except.ok_bind, Except.error_bind, ne_eq, reduceCtorEq,
      not_false_eq_true]
  | ok f =>
    refine ⟨some fun c _ => f c, fun files input t out => ?_⟩
    rw [recolour, Handler.image?_ofFunction, Except.toOption_eq_some]
    simp only [requireInput, hread, Except.ok_bind, Except.pure_eq_ok]
    constructor
    · rintro rfl
      exact ⟨_, rfl, [], .nil, List.forall_mem_nil _, Image.map_eq_combineAll f input⟩
    · rintro ⟨_, ⟨⟩, _, ⟨⟩, -, rfl⟩
      exact (Image.map_eq_combineAll f input).symm

/-- Combine the input with the image behind the first argument as the arguments describe. -/
def pairwise (read : Arguments → Except EvalError (Colour → Colour → Colour)) : Handler :=
  .ofFunction fun call => do
    let image ← requireInput call.input
    let args := Arguments.ofList call.args
    let other ← args.image call.handles 0
    requireSameSize image other
    let f ← read args
    pure (Image.map₂ f image other)

/-- How `blend` mixes two colours. -/
def readBlend (args : Arguments) : Except EvalError (Colour → Colour → Colour) := do
  let amount ← args.keywordFloat "amount" 0.5
  if 0 ≤ amount && amount ≤ 1 then pure fun a b => Colour.mix a b amount
  else throw (.fault (.amountOutOfRange (Binary32.render amount)))

/-- `mask` combines two images with a formula of its own, and needs nothing else. -/
private theorem mask_eq_pairwise : mask = pairwise fun _ => .ok Colour.maskBy := rfl

/-- An operator combines its operands by its formula. -/
private theorem combine_eq_pairwise (o : Operator) :
    combine o = pairwise fun _ => .ok o.colour := rfl

/-- `blend` combines two images once its amount is read. -/
private theorem blend_eq_pairwise : blend = pairwise readBlend := by
  rw [blend, pairwise]
  congr
  funext call
  refine bind_congr fun image => bind_congr fun other => bind_congr fun _ => ?_
  rw [readBlend, bind_assoc]
  refine bind_congr fun amount => ?_
  split
  · rfl
  · rfl

/-- How `join` reads its mode. -/
def readMode (args : Arguments) : Except EvalError JoinMode := do
  let name ← args.require 0 "mode"
  (JoinMode.ofText name).mapError .fault

/-- `join` reads its mode, then its image and then the mask, which it may do without. -/
private theorem join_eq : join = .ofFunction fun call => (do
    let image ← requireInput call.input
    let args := Arguments.ofList call.args
    let mode ← readMode args
    let drawn ← args.image call.handles 1
    requireSameSize image drawn
    match ← args.keywordImage? call.handles "mask" with
    | none => pure (Image.map₂ mode.colour image drawn)
    | some mask =>
      requireSameSize image mask
      pure (Image.map₃ (joinMasked mode) image drawn mask)) := by
  rw [join]
  congr
  funext call
  exact bind_congr fun image => (bind_assoc _ _ _).symm

/-- An image of the same size is read when the text stands for one. -/
private theorem read_image_eq_ok {input out : Image} {t : HandleTable} {s : String}
    {next : Image → Except EvalError Image} :
    (imageOfText t s >>= fun other => requireSameSize input other >>= fun _ => next other) =
        .ok out ↔
      ∃ other, imageOfText t s = .ok other ∧ input.SameSize other ∧ next other = .ok out := by
  constructor
  · intro h
    obtain ⟨other, hother, h⟩ := Except.bind_eq_ok.1 h
    obtain ⟨_, hsame, h⟩ := Except.bind_eq_ok.1 h
    exact ⟨other, hother, requireSameSize_eq_ok.1 hsame, h⟩
  · rintro ⟨other, hother, hsame, h⟩
    refine Except.bind_eq_ok.2 ⟨other, hother, ?_⟩
    exact Except.bind_eq_ok.2 ⟨(), requireSameSize_eq_ok.2 hsame, h⟩

section Arguments

variable {a : Arguments} {index : Nat}

/-- Without an argument there is no image. -/
private theorem image_of_positional?_none (t : HandleTable) (h : a.positional? index = none) :
    ∃ e, a.image t index = .error e := by
  rw [Arguments.image_eq, Arguments.require, h]
  exact ⟨_, rfl⟩

/-- An argument has the image behind its text. -/
private theorem image_of_positional?_some {s : String} (t : HandleTable)
    (h : a.positional? index = some s) : a.image t index = imageOfText t s := by
  rw [Arguments.image_eq, Arguments.require, h]
  rfl

end Arguments

/-- Commands for two images combine the input with the image behind the first argument. -/
private theorem pixelwise_pairwise (read : Arguments → Except EvalError (Colour → Colour → Colour))
    (args : List String) :
    (pairwise read).Pixelwise args ((Arguments.ofList args).positional? 0).toList := by
  cases htext : (Arguments.ofList args).positional? 0 with
  | none =>
    refine pixelwise_of_fails _ fun input t out => ?_
    obtain ⟨e, he⟩ := image_of_positional?_none t htext
    simp [requireInput, he, Except.ok_bind, Except.error_bind]
  | some s =>
    cases hread : read (Arguments.ofList args) with
    | error e =>
      refine pixelwise_of_fails _ fun input t out => ?_
      -- The image is read before the words, so one that is there does not help wrong words.
      simp only [requireInput, image_of_positional?_some t htext, hread, Except.ok_bind,
        Except.error_bind, ne_eq, read_image_eq_ok]
      rintro ⟨other, -, -, hout⟩
      cases hout
    | ok f =>
      refine ⟨some fun c others => f c (others.headD c), fun files input t out => ?_⟩
      rw [pairwise, Handler.image?_ofFunction, Except.toOption_eq_some]
      simp only [requireInput, image_of_positional?_some t htext, hread, Except.ok_bind,
        read_image_eq_ok, Except.pure_eq_ok, Image.map₂_eq_combineAll, Option.mem_some,
        exists_eq_left', Option.toList_some, exists_behind_cons, exists_behind_nil]

/-- `join` combines the input with the image behind its second argument, and with the mask if there
    is one. -/
private theorem pixelwise_join (args : List String) :
    join.Pixelwise args (((Arguments.ofList args).positional? 1).toList ++
      ((Arguments.ofList args).keyword? "mask").toList) := by
  rw [join_eq]
  cases hmode : readMode (Arguments.ofList args) with
  | error e =>
    refine pixelwise_of_fails _ fun input t out => ?_
    simp [requireInput, hmode, Except.ok_bind, Except.error_bind]
  | ok mode =>
    cases htext : (Arguments.ofList args).positional? 1 with
    | none =>
      refine pixelwise_of_fails _ fun input t out => ?_
      obtain ⟨e, he⟩ := image_of_positional?_none t htext
      simp [requireInput, hmode, he, Except.ok_bind, Except.error_bind]
    | some s =>
      -- With a mask there are two further images, and each pixel depends on its two counterparts.
      cases hmask : (Arguments.ofList args).keyword? "mask" with
      | none =>
        refine ⟨some fun c others => mode.colour c (others.headD c), fun files input t out => ?_⟩
        rw [Handler.image?_ofFunction, Except.toOption_eq_some]
        simp only [requireInput, image_of_positional?_some t htext, hmode,
          Arguments.keywordImage?_eq, hmask, Option.elim_none, Except.ok_bind, read_image_eq_ok,
          Except.pure_eq_ok, Image.map₂_eq_combineAll, Option.mem_some, exists_eq_left',
          Option.toList_some, Option.toList_none, List.append_nil, exists_behind_cons,
          exists_behind_nil]
      | some m =>
        refine ⟨some fun c others => joinMasked mode c (others.headD c) (others.getD 1 c),
          fun files input t out => ?_⟩
        rw [Handler.image?_ofFunction, Except.toOption_eq_some]
        simp only [requireInput, image_of_positional?_some t htext, hmode,
          Arguments.keywordImage?_eq, hmask, Option.elim_some, Except.map_bind, Except.ok_bind,
          read_image_eq_ok, Except.pure_eq_ok, Image.map₃_eq_combineAll, Option.mem_some,
          exists_eq_left', Option.toList_some, List.singleton_append, exists_behind_cons,
          exists_behind_nil]

end Command

/-! ## The built-in commands -/

/-- The built-in commands that combine colours. -/
inductive PixelCommand where
  | invert
  | hue
  | mask
  | blend
  | join
  | operator (o : Operator)

namespace PixelCommand

def name : PixelCommand → String
  | invert => "invert"
  | hue => "hue"
  | mask => "mask"
  | blend => "blend"
  | join => "join"
  | operator o => o.command

def handler : PixelCommand → Handler
  | invert => Command.recolour Command.readInvert
  | hue => Command.recolour Command.readHue
  | mask => Command.mask
  | blend => Command.blend
  | join => Command.join
  | operator o => Command.combine o

/-- The arguments that a command reads as images. -/
def imageTexts (a : Arguments) : PixelCommand → List String
  | invert | hue => []
  | mask | blend | operator _ => (a.positional? 0).toList
  | join => (a.positional? 1).toList ++ (a.keyword? "mask").toList

/-- The name of such a command stands for it. -/
theorem get?_name (p : PixelCommand) : Registry.builtins.get? p.name = some p.handler := by
  cases p with
  | operator o => cases o <;> rfl
  | invert | hue | mask | blend | join => rfl

open Command in
/-- Each of the commands combines the colours of its input and of the images that it reads. -/
theorem pixelwise (p : PixelCommand) (args : List String) :
    p.handler.Pixelwise args (p.imageTexts (Arguments.ofList args)) := by
  cases p with
  | invert => exact pixelwise_recolour readInvert args
  | hue => exact pixelwise_recolour readHue args
  | mask =>
    rw [handler, mask_eq_pairwise]
    exact pixelwise_pairwise _ args
  | blend =>
    rw [handler, blend_eq_pairwise]
    exact pixelwise_pairwise _ args
  | operator o =>
    rw [handler, combine_eq_pairwise]
    exact pixelwise_pairwise _ args
  | join => exact pixelwise_join args

end PixelCommand

/-- The built-in geometric commands. -/
inductive GeometricCommand where
  | mirror
  | rotate
  | zoom
  | tile

namespace GeometricCommand

def name : GeometricCommand → String
  | mirror => "mirror"
  | rotate => "rotate"
  | zoom => "zoom"
  | tile => "tile"

/-- How a command reads its arguments. -/
def read : GeometricCommand → Arguments → Except EvalError Geometry
  | mirror => Command.readMirror
  | rotate => Command.readRotate
  | zoom => Command.readZoom
  | tile => Command.readTile

def handler (m : GeometricCommand) : Handler := Command.geometric m.read

/-- The name of a geometric command stands for it. -/
theorem get?_name (m : GeometricCommand) : Registry.builtins.get? m.name = some m.handler := by
  cases m <;> rfl

/-- No command reads a factor of zero. -/
private theorem ensures_proper (m : GeometricCommand) (args : Arguments) :
    Ensures Geometry.Proper (m.read args) := by
  cases m with
  | mirror => exact Command.ensures_mirror args
  | rotate => exact Command.ensures_rotate args
  | zoom => exact Command.ensures_zoom args
  | tile => exact Command.ensures_tile args

/-- A geometric command that can read its arguments transforms its input; one that cannot has no
    image. -/
theorem image?_eq (m : GeometricCommand) (files : Workspace) (args : List String) (image : Image)
    (t : HandleTable) :
    m.handler.image? files ⟨args, some image, t⟩ =
      (m.read (Arguments.ofList args)).toOption.bind fun g =>
        (Command.transform image g).toOption := by
  rw [handler, Command.geometric, Handler.image?_ofFunction]
  simp only [requireInput, Except.ok_bind]
  cases m.read (Arguments.ofList args) with
  | ok g => rfl
  | error e => rfl

end GeometricCommand

/-- The registry of the built-in commands has the commands `invert`, `hue`, `mask`, `blend`, `join`
    and those of the operators under their names, and the commands `mirror`, `rotate`, `zoom` and
    `tile` too. Let one of the first be called with any texts, and one of the others, called with
    any texts, be given its image. The result is the same as when the geometric command is applied
    first, to the input and to all images that the other command reads; and there is no result in
    one order exactly when there is none in the other. -/
theorem pixelwise_geometric_commute (p : PixelCommand) (m : GeometricCommand) (files : Workspace)
    (args margs : List String) (input : Image) (handles : HandleTable) :
    Registry.builtins.get? p.name = some p.handler ∧
      Registry.builtins.get? m.name = some m.handler ∧
      ((p.handler.image? files ⟨args, some input, handles⟩).bind fun image =>
          m.handler.image? files ⟨margs, some image, handles⟩) =
        (Call.mapImages (fun image => m.handler.image? files ⟨margs, some image, handles⟩)
          (p.imageTexts (Arguments.ofList args)) ⟨args, some input, handles⟩).bind
            (p.handler.image? files) := by
  refine ⟨p.get?_name, m.get?_name, ?_⟩
  simp only [m.image?_eq]
  cases hread : m.read (Arguments.ofList margs) with
  | error e =>
    -- Nothing can be moved, so there is no result in either order.
    have hunread (image : Image) : ((Except.error e).toOption.bind fun g =>
        (Command.transform image g).toOption) = none := rfl
    simp [hunread, Call.mapImages]
  | ok g =>
    have hg : g.Proper := m.ensures_proper _ g hread
    exact (p.pixelwise args).commutes hg files input handles

-- One pixel is combined with the one behind a handle, and the result is made twice as large.
example :
    ((PixelCommand.operator .xor).handler.image? ⟨[], []⟩
        ⟨["@img:0"], some (.solid 1 1 ⟨1, 2, 3, 4⟩),
          ⟨[("@img:0", .solid 1 1 ⟨1, 1, 1, 1⟩)], 1⟩⟩).bind
      (fun image => GeometricCommand.zoom.handler.image? ⟨[], []⟩ ⟨["2"], some image, .empty⟩) =
        some (.solid 2 2 ⟨0, 3, 2, 4⟩) := by
  decide +kernel

end Tapestry
