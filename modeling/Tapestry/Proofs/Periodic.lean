import Tapestry.Proofs.Refusals
import Tapestry.Proofs.Symmetries

/-!
# Periodic patterns

The patterns of `checkers` and `stripes` repeat two colours. To paint with cells that are some times
as large, at a size that is as many times as large, is to paint and then zoom. The cells of two
colours are one period, so that an image of whole periods can be repeated, and bands beside each
other are bands below each other after three quarter turns.

The patterns and the geometric commands know nothing of each other: what ties them together is
arithmetic of quotients and remainders at every position.

## Key results

- `Pattern.resample_paint`: a painted pattern that is shown through a resampling
- `Periodic.stagesImage?_stage`: what a generator paints, from its words
- `Periodic.zoomed`, `checkers_tiled`, `stripes_turned`: the three laws for the stages
- `generators_periodic`: all of them
-/

namespace Tapestry

/-! ## Patterns -/

namespace Pattern

/-- A painted pattern shown through a resampling is the pattern that has the colour of each position
    there. -/
theorem resample_paint {p p' : Pattern} {s s' : Size} {r : Resampling}
    (hwidth : r.width = s'.width) (hheight : r.height = s'.height)
    (hinside : ∀ x y, x < r.width → y < r.height →
      (r.source x y).1 < s.width ∧ (r.source x y).2 < s.height)
    (hcolour : ∀ x y, p.colourAt s (r.source x y).1 (r.source x y).2 = p'.colourAt s' x y) :
    (p.paint s).resample r = p'.paint s' := by
  -- Pixel by pixel: the source of each one is painted in the colour that the second pattern has
  -- there.
  refine Image.ext_pixel hwidth hheight fun x y hx hy => ?_
  obtain ⟨hu, hv⟩ := hinside x y hx hy
  have hx' : x < s'.width := hwidth ▸ hx
  have hy' : y < s'.height := hheight ▸ hy
  rw [Image.pixel_resample _ hx hy, paint, Image.pixel_ofFn _ hu hv, paint,
    Image.pixel_ofFn _ hx' hy', hcolour]

end Pattern

/-- In a side of whole periods, a position and the one it repeats lie in cells of one colour. -/
private theorem mod_div_mod_two (x cell periods : Nat) :
    x % (2 * cell * periods) / cell % 2 = x / cell % 2 := by
  have hside : 2 * cell * periods = cell * (2 * periods) := by
    rw [Nat.mul_comm 2 cell, Nat.mul_assoc]
  rw [hside, Nat.mod_mul_right_div_self, Nat.mod_mul_right_mod]

/-! ## The commands -/

/-- The generators that repeat two colours. -/
inductive Periodic where
  | checkers
  | stripes (direction : Direction)
  deriving DecidableEq, Repr

namespace Periodic

/-- The name of a generator. -/
def name : Periodic → String
  | checkers => "checkers"
  | stripes _ => "stripes"

/-- The keyword for the side of a cell or of a band. -/
def key : Periodic → String
  | checkers => "cell"
  | stripes _ => "width"

/-- The words behind the keyword. -/
def flags : Periodic → List String
  | stripes .across => ["vertical"]
  | _ => []

/-- How a generator reads its arguments. -/
def read : Periodic → Arguments → Except EvalError Pattern
  | checkers => Command.readCheckers
  | stripes _ => Command.readStripes

/-- What a generator paints. -/
def pattern (g : Periodic) (first second : Colour) (cell : Nat) : Pattern :=
  match g with
  | checkers => .checkers first second cell
  | stripes direction => .stripes first second cell direction

/-- The words `checkers A B cell=N` or `stripes A B width=N`, with `vertical` behind them for bands
    beside each other, and then the words for the size. -/
def stage (g : Periodic) (a b : String) (cell : Nat) (size : List String) : List String :=
  g.name :: ([a, b, g.key ++ "=" ++ toString cell] ++ g.flags ++ size)

/-- The name of a periodic generator stands for it. -/
theorem get?_name (g : Periodic) :
    Registry.builtins.get? g.name = some (Command.generator g.read) := by
  cases g <;> rfl

/-- To zoom a pattern is to paint it with larger cells. -/
theorem apply_zoom (g : Periodic) (first second : Colour) (cell factor : Nat) (s : Size) :
    (Geometry.zoom factor).apply ((g.pattern first second cell).paint s) =
      (g.pattern first second (cell * factor)).paint ⟨s.width * factor, s.height * factor⟩ := by
  refine Pattern.resample_paint rfl rfl
    (fun x y hx hy => (Geometry.zoom factor).inside_resampling hx hy) fun x y => ?_
  -- A position lies in the cell of the position that it repeats.
  have hcell (z : Nat) : z / factor / cell = z / (cell * factor) := by
    rw [Nat.div_div_eq_div_mul, Nat.mul_comm]
  cases g with
  | checkers =>
    show (if (x / factor / cell + y / factor / cell) % 2 = 0 then first else second) =
      if (x / (cell * factor) + y / (cell * factor)) % 2 = 0 then first else second
    rw [hcell, hcell]
  | stripes direction =>
    cases direction with
    | across =>
      show (if x / factor / cell % 2 = 0 then first else second) =
        if x / (cell * factor) % 2 = 0 then first else second
      rw [hcell]
    | down =>
      show (if y / factor / cell % 2 = 0 then first else second) =
        if y / (cell * factor) % 2 = 0 then first else second
      rw [hcell]

/-- To tile whole periods of cells is to paint more of them. -/
theorem apply_tile_checkers (first second : Colour) (cell count w h : Nat) :
    (Geometry.tile count).apply
        ((checkers.pattern first second cell).paint ⟨2 * cell * w, 2 * cell * h⟩) =
      (checkers.pattern first second cell).paint
        ⟨2 * cell * w * count, 2 * cell * h * count⟩ := by
  refine Pattern.resample_paint rfl rfl
    (fun x y hx hy => (Geometry.tile count).inside_resampling hx hy) fun x y => ?_
  show (if (x % (2 * cell * w) / cell + y % (2 * cell * h) / cell) % 2 = 0 then first
      else second) = if (x / cell + y / cell) % 2 = 0 then first else second
  rw [Nat.add_mod, mod_div_mod_two, mod_div_mod_two, ← Nat.add_mod]

/-- Three quarter turns put bands that are below each other beside each other. -/
theorem apply_turn_stripes (first second : Colour) (band w h : Nat) :
    Motion.threeQuarterTurn.symmetry.apply
        (((stripes .down).pattern first second band).paint ⟨h, w⟩) =
      ((stripes .across).pattern first second band).paint ⟨w, h⟩ :=
  -- The row of the source is the column of the result, counted from the same end.
  Pattern.resample_paint rfl rfl
    (fun _ _ hx hy => Motion.threeQuarterTurn.symmetry.inside_resampling hx hy) fun _ _ => rfl

end Periodic

/-! ## Words -/

/-- Whether a generator with these words for the size and this input paints at a size: either the
    keyword `size` gives it, or the input has it. -/
inductive PaintsAt (s : Size) : List String → Option Image → Prop where
  | keyword (input : Option Image) : PaintsAt s ["size=" ++ s.render] input
  | input (image : Image) : image.size = s → PaintsAt s [] (some image)

/-- The words for the size are no arguments of another kind: a keyword in front of them is found,
    and the size is read. -/
private theorem PaintsAt.exists_keywords {s : Size} (hs : s.InRange) {size : List String}
    {input : Option Image} (h : PaintsAt s size input) :
    ∃ keywords, Arguments.ofList size = ⟨[], keywords⟩ ∧
      ∀ positional key value, key ≠ "size" →
        Arguments.keyword? ⟨positional, (key, value) :: keywords⟩ key = some value ∧
          Arguments.size ⟨positional, (key, value) :: keywords⟩ input = .ok s := by
  cases h with
  | keyword =>
    have hkeyword := Arguments.ofList_keyed "size" s.render (by decide) (by decide)
    refine ⟨[("size", s.render)], hkeyword, ?_⟩
    intro positional key value hkey
    constructor
    · simp [Arguments.keyword?, List.lookup_cons, beq_false_of_ne hkey]
    · show (Size.ofText s.render).mapError EvalError.fault = .ok s
      rw [Size.ofText_render hs.1 hs.2]
      rfl
  | input image himage =>
    refine ⟨[], rfl, ?_⟩
    intro positional key value hkey
    -- Without the keyword the size is that of the input.
    have hnone : Arguments.keyword? ⟨positional, [(key, value)]⟩ "size" = none := by
      simp [Arguments.keyword?, List.lookup_cons, beq_false_of_ne (Ne.symm hkey)]
    constructor
    · simp [Arguments.keyword?]
    · rw [Arguments.size, hnone]
      show Except.ok image.size = .ok s
      rw [himage]

/-- No colour is called `vertical`. -/
private theorem Colour.ne_vertical_of_ofText {a : String} {colour : Colour}
    (h : ofText a = .ok colour) : a ≠ "vertical" := by
  rintro rfl
  have hrefused : (ofText "vertical").toOption = none := by decide +kernel
  rw [h] at hrefused
  cases hrefused

namespace Periodic

/-- Its own keyword is not the one for the size. -/
private theorem key_ne_size (g : Periodic) : g.key ≠ "size" := by
  cases g with
  | checkers => decide
  | stripes direction =>
    show "width" ≠ "size"
    decide

section Words

variable {a b : String} {first second : Colour} (ha : Colour.ofText a = .ok first)
  (hb : Colour.ofText b = .ok second)
include ha hb

/-- The words of a generator are two colours and its flags, the keyword for the cell, and a size. -/
private theorem ofList_words (g : Periodic) (cell : Nat) {s : Size} (hs : s.InRange)
    {size : List String} {input : Option Image} (hsize : PaintsAt s size input) :
    ∃ args, Arguments.ofList ([a, b, g.key ++ "=" ++ toString cell] ++ g.flags ++ size) = args ∧
      args.positional = [a, b] ++ g.flags ∧ args.keyword? g.key = some (toString cell) ∧
        args.size input = .ok s := by
  -- Only the size and the cell are keywords; colours and flags hold no equals sign.
  have hcolours : ∀ s ∈ [a, b], '=' ∉ s.toList :=
    List.forall_mem_cons.2 ⟨Colour.foreign_equals.not_mem_of_ofText ha,
      List.forall_mem_singleton.2 (Colour.foreign_equals.not_mem_of_ofText hb)⟩
  have hflags : ∀ s ∈ g.flags, '=' ∉ s.toList := by
    cases g with
    | checkers => exact fun _ hs => absurd hs List.not_mem_nil
    | stripes direction => cases direction <;> decide
  have hkey : g.key.toList ≠ [] ∧ '=' ∉ g.key.toList := by
    cases g with
    | checkers => decide
    | stripes direction =>
      show "width".toList ≠ [] ∧ '=' ∉ "width".toList
      decide
  obtain ⟨keywords, hkeywords, hread⟩ := hsize.exists_keywords hs
  obtain ⟨hcell, hs⟩ := hread ([a, b] ++ g.flags) g.key (toString cell) g.key_ne_size
  refine ⟨⟨[a, b] ++ g.flags, (g.key, toString cell) :: keywords⟩, ?_, rfl, hcell, hs⟩
  have hwords : [a, b, g.key ++ "=" ++ toString cell] ++ g.flags ++ size =
      [a, b] ++ ([g.key ++ "=" ++ toString cell] ++ (g.flags ++ size)) := by
    rw [List.append_assoc]
    rfl
  rw [hwords, Arguments.ofList_append, Arguments.ofList_append, Arguments.ofList_append,
    Arguments.ofList_positional hcolours, Arguments.ofList_keyed _ _ hkey.1 hkey.2,
    Arguments.ofList_positional hflags, hkeywords]
  simp only [List.nil_append, List.append_nil, List.singleton_append]

/-- A generator reads its pattern from two colours, its flags and the keyword for the cell. -/
theorem read_eq_ok (g : Periodic) {cell : Nat} (hcell : 0 < cell) (hword : cell < Text.wordLimit)
    {args : Arguments} (hpositional : args.positional = [a, b] ++ g.flags)
    (hkey : args.keyword? g.key = some (toString cell)) :
    g.read args = .ok (g.pattern first second cell) := by
  have hfirst (what : String) : args.colour 0 what = .ok first := by
    rw [Arguments.colour, Arguments.require, Arguments.positional?, hpositional]
    show (Colour.ofText a).mapError EvalError.fault = .ok first
    rw [ha]
    rfl
  have hsecond (what : String) : args.colour 1 what = .ok second := by
    rw [Arguments.colour, Arguments.require, Arguments.positional?, hpositional]
    show (Colour.ofText b).mapError EvalError.fault = .ok second
    rw [hb]
    rfl
  have hcount : args.keywordWord g.key 1 = .ok cell := by
    rw [Arguments.keywordWord, hkey]
    show wordOfText (toString cell) g.key = .ok cell
    rw [wordOfText_toString, if_pos hword]
  have hpositive (what : String) : Command.requirePositive cell what = .ok cell :=
    if_neg (by omega)
  have ha' := Colour.ne_vertical_of_ofText ha
  have hb' := Colour.ne_vertical_of_ofText hb
  cases g with
  | checkers =>
    show Command.readCheckers args = _
    have hcount' : args.keywordWord "cell" 1 = .ok cell := hcount
    rw [Command.readCheckers, hfirst, Except.ok_bind, hsecond, Except.ok_bind, hcount',
      Except.ok_bind, hpositive, Except.ok_bind]
    rfl
  | stripes direction =>
    show Command.readStripes args = _
    have hcount' : args.keywordWord "width" 1 = .ok cell := hcount
    -- The flag is among the positional arguments for bands beside each other only.
    have hflag : args.flag "vertical" = decide (direction = .across) := by
      rw [Arguments.flag, hpositional]
      cases direction <;> simp [flags, ha'.symm, hb'.symm]
    rw [Command.readStripes, hfirst, Except.ok_bind, hsecond, Except.ok_bind, hcount',
      Except.ok_bind, hpositive, Except.ok_bind, hflag]
    cases direction <;> rfl

/-- A generator paints its pattern at the size, and the stages behind it go on from there. -/
theorem stagesImage?_stage (g : Periodic) {cell : Nat} (hcell : 0 < cell)
    (hword : cell < Text.wordLimit) {s : Size} (hs : s.InRange) {size : List String}
    {input : Option Image} (hsize : PaintsAt s size input) (stages : List (List String))
    (c : Context) :
    stagesImage? (g.stage a b cell size :: stages) input c =
      onward? c stages ((g.pattern first second cell).paint s) := by
  obtain ⟨args, hargs, hpositional, hkey, hread⟩ := ofList_words ha hb g cell hs hsize
  rw [stage, stagesImage?_cons, value?_runStages_ofFunction g.get?_name]
  simp only [hargs, read_eq_ok ha hb g hcell hword hpositional hkey, hread, Except.ok_bind]
  rfl

/-- What a generator paints can be enlarged, when the result is within the limit. -/
private theorem stagesImage?_enlarged (g : Periodic) (z : Enlargement) {cell : Nat}
    (hcell : 0 < cell) (hword : cell < Text.wordLimit) {s : Size} (hs : s.InRange) {factor : Nat}
    (hfactor : 0 < factor) (hlimit : s.width * factor ≤ maxSide ∧ s.height * factor ≤ maxSide)
    {size : List String} {input : Option Image} (hsize : PaintsAt s size input) (c : Context) :
    stagesImage? [g.stage a b cell size, [z.name, toString factor]] input c =
      some ((z.geometry factor).apply ((g.pattern first second cell).paint s)) := by
  have himage : ((g.pattern first second cell).paint s).InRange := hs
  have hgrows : ((g.pattern first second cell).paint s).Grows factor := hlimit
  rw [stagesImage?_stage ha hb g hcell hword hs hsize, onward?_enlargement z himage hfactor,
    if_pos hgrows, onward?_nil]

/-! ## Laws -/

variable {cell factor count w h : Nat}

/-- A generator with larger cells at a larger size is the generator and then a zoom. -/
theorem zoomed (g : Periodic) (hcell : 0 < cell) (hfactor : 0 < factor) (hw : 0 < w) (hh : 0 < h)
    (hword : cell * factor < Text.wordLimit) (hwide : factor * w ≤ maxSide)
    (hhigh : factor * h ≤ maxSide) {size size' : List String} {input input' : Option Image}
    (hlarge : PaintsAt ⟨factor * w, factor * h⟩ size input)
    (hsmall : PaintsAt ⟨w, h⟩ size' input') (c : Context) :
    ∃ image, stagesImage? [g.stage a b (cell * factor) size] input c = some image ∧
      stagesImage? [g.stage a b cell size', ["zoom", toString factor]] input' c =
        some image := by
  have hlargeRange : Size.InRange ⟨factor * w, factor * h⟩ :=
    ⟨⟨Nat.mul_pos hfactor hw, hwide⟩, Nat.mul_pos hfactor hh, hhigh⟩
  have hsmallRange : Size.InRange ⟨w, h⟩ :=
    ⟨⟨hw, (Nat.le_mul_of_pos_left w hfactor).trans hwide⟩,
      hh, (Nat.le_mul_of_pos_left h hfactor).trans hhigh⟩
  have hproduct : 0 < cell * factor := Nat.mul_pos hcell hfactor
  -- The cell is at least one pixel and the factor too, so the smaller cell is within the limit.
  have hcellWord : cell < Text.wordLimit := (Nat.le_mul_of_pos_right cell hfactor).trans_lt hword
  have hpainted := stagesImage?_stage ha hb g hproduct hword hlargeRange hlarge [] c
  rw [Nat.mul_comm factor w, Nat.mul_comm factor h] at hpainted
  have hlimit : w * factor ≤ maxSide ∧ h * factor ≤ maxSide := by
    rw [Nat.mul_comm w, Nat.mul_comm h]
    exact ⟨hwide, hhigh⟩
  have hzoomed := stagesImage?_enlarged ha hb g .zoom hcell hcellWord hsmallRange hfactor hlimit
    hsmall c
  exact ⟨_, hpainted, hzoomed.trans (congrArg some (g.apply_zoom ..))⟩

/-- Checkers of more whole periods are checkers and then a tile. -/
theorem checkers_tiled (hcell : 0 < cell) (hcount : 0 < count) (hw : 0 < w) (hh : 0 < h)
    (hwide : 2 * cell * w * count ≤ maxSide) (hhigh : 2 * cell * h * count ≤ maxSide)
    {size size' : List String} {input input' : Option Image}
    (hlarge : PaintsAt ⟨2 * cell * w * count, 2 * cell * h * count⟩ size input)
    (hsmall : PaintsAt ⟨2 * cell * w, 2 * cell * h⟩ size' input') (c : Context) :
    ∃ image, stagesImage? [checkers.stage a b cell size] input c = some image ∧
      stagesImage? [checkers.stage a b cell size', ["tile", toString count]] input' c =
        some image := by
  -- A whole number of periods on each side, so the copies fit together.
  have hside (n : Nat) (hn : 0 < n) (hlimit : 2 * cell * n * count ≤ maxSide) :
      0 < 2 * cell * n ∧ 2 * cell * n ≤ maxSide :=
    ⟨Nat.mul_pos (Nat.mul_pos Nat.two_pos hcell) hn,
      (Nat.le_mul_of_pos_right _ hcount).trans hlimit⟩
  have hsmallRange : Size.InRange ⟨2 * cell * w, 2 * cell * h⟩ :=
    ⟨hside w hw hwide, hside h hh hhigh⟩
  have hlargeRange : Size.InRange ⟨2 * cell * w * count, 2 * cell * h * count⟩ :=
    ⟨⟨Nat.mul_pos (hside w hw hwide).1 hcount, hwide⟩,
      Nat.mul_pos (hside h hh hhigh).1 hcount, hhigh⟩
  have hcellWord : cell < Text.wordLimit := by
    have hlimit := maxSide_lt_wordLimit
    have hperiod : 2 * cell ≤ 2 * cell * w := Nat.le_mul_of_pos_right _ hw
    have hperiods := (hside w hw hwide).2
    omega
  have hpainted := stagesImage?_stage ha hb checkers hcell hcellWord hlargeRange hlarge [] c
  have htiled := stagesImage?_enlarged ha hb checkers .tile hcell hcellWord hsmallRange hcount
    ⟨hwide, hhigh⟩ hsmall c
  exact ⟨_, hpainted, htiled.trans (congrArg some (apply_tile_checkers ..))⟩

/-- Bands beside each other are bands below each other and then three quarter turns. -/
theorem stripes_turned (hcell : 0 < cell) (hword : cell < Text.wordLimit) (hw : 0 < w) (hh : 0 < h)
    (hwide : w ≤ maxSide) (hhigh : h ≤ maxSide) {size size' : List String}
    {input input' : Option Image} (hacross : PaintsAt ⟨w, h⟩ size input)
    (hdown : PaintsAt ⟨h, w⟩ size' input') (c : Context) :
    ∃ image, stagesImage? [(stripes .across).stage a b cell size] input c = some image ∧
      stagesImage? [(stripes .down).stage a b cell size', ["rotate", "270"]] input' c =
        some image := by
  have hrange : Size.InRange ⟨w, h⟩ := ⟨⟨hw, hwide⟩, hh, hhigh⟩
  have hturnedRange : Size.InRange ⟨h, w⟩ := ⟨⟨hh, hhigh⟩, hw, hwide⟩
  refine ⟨_, stagesImage?_stage ha hb (stripes .across) hcell hword hrange hacross [] c, ?_⟩
  rw [stagesImage?_stage ha hb (stripes .down) hcell hword hturnedRange hdown]
  show onward? c [Motion.threeQuarterTurn.stage] _ = _
  rw [Motion.onward?_stage, onward?_nil, apply_turn_stripes]

end Words

end Periodic

/-- The laws of the generators that repeat two colours, for all texts of all colours, and wherever
    the sizes come from. Checkers, stripes and vertical stripes with cells that are some times as
    large, at a size that is as many times as large, are the generator and then `zoom`. Checkers of
    several times a number of whole periods are checkers of these periods and then `tile`. Vertical
    stripes are stripes at the size with its sides exchanged, and then `rotate 270`. All of these
    images exist when the sizes are within the limit and the cells are machine words. -/
theorem generators_periodic (c : Context) {first second : Colour} {a b : String}
    (ha : Colour.ofText a = .ok first) (hb : Colour.ofText b = .ok second)
    {cell factor count w h : Nat} (hcell : 1 ≤ cell) (hfactor : 1 ≤ factor) (hcount : 1 ≤ count)
    (hw : 1 ≤ w) (hh : 1 ≤ h) :
    (∀ colour : Colour, Colour.ofText colour.render = .ok colour) ∧
      (cell * factor < Text.wordLimit → factor * w ≤ maxSide → factor * h ≤ maxSide →
        ∀ (g : Periodic) size size' input input',
          PaintsAt ⟨factor * w, factor * h⟩ size input → PaintsAt ⟨w, h⟩ size' input' →
            ∃ image, stagesImage? [g.stage a b (cell * factor) size] input c = some image ∧
              stagesImage? [g.stage a b cell size', ["zoom", toString factor]] input' c =
                some image) ∧
      (2 * cell * w * count ≤ maxSide → 2 * cell * h * count ≤ maxSide →
        ∀ size size' input input',
          PaintsAt ⟨2 * cell * w * count, 2 * cell * h * count⟩ size input →
            PaintsAt ⟨2 * cell * w, 2 * cell * h⟩ size' input' →
              ∃ image, stagesImage? [Periodic.checkers.stage a b cell size] input c = some image ∧
                stagesImage? [Periodic.checkers.stage a b cell size', ["tile", toString count]]
                  input' c = some image) ∧
      (cell < Text.wordLimit → w ≤ maxSide → h ≤ maxSide →
        ∀ size size' input input', PaintsAt ⟨w, h⟩ size input → PaintsAt ⟨h, w⟩ size' input' →
          ∃ image,
            stagesImage? [(Periodic.stripes .across).stage a b cell size] input c = some image ∧
              stagesImage? [(Periodic.stripes .down).stage a b cell size', ["rotate", "270"]]
                input' c = some image) := by
  refine ⟨Colour.ofText_render, ?_, ?_, ?_⟩
  · intro hword hwide hhigh g size size' input input' hlarge hsmall
    exact g.zoomed ha hb hcell hfactor hw hh hword hwide hhigh hlarge hsmall c
  · intro hwide hhigh size size' input input' hlarge hsmall
    exact Periodic.checkers_tiled ha hb hcell hcount hw hh hwide hhigh hlarge hsmall c
  · intro hword hwide hhigh size size' input input' hacross hdown
    exact Periodic.stripes_turned ha hb hcell hword hw hh hwide hhigh hacross hdown c

/-- The laws for cells of one pixel, with sizes from a keyword and from an input. -/
theorem generators_periodic_pixels :
    Colour.ofText "red" = .ok (.rgb 255 0 0) ∧ Colour.ofText "#00F" = .ok (.rgb 0 0 255) ∧
      (∃ image,
        stagesImage? [["checkers", "red", "#00F", "cell=2", "size=2x4"]] none
            (.fresh ⟨[], []⟩) = some image ∧
          stagesImage? [["checkers", "red", "#00F", "cell=1", "size=1x2"], ["zoom", "2"]] none
            (.fresh ⟨[], []⟩) = some image) ∧
      (∃ image,
        stagesImage? [["checkers", "red", "#00F", "cell=1", "size=4x8"]] none
            (.fresh ⟨[], []⟩) = some image ∧
          stagesImage? [["checkers", "red", "#00F", "cell=1"], ["tile", "2"]]
            (some (.blank 2 4)) (.fresh ⟨[], []⟩) = some image) ∧
      ∃ image,
        stagesImage? [["stripes", "red", "#00F", "width=1", "vertical"]] (some (.blank 1 2))
            (.fresh ⟨[], []⟩) = some image ∧
          stagesImage? [["stripes", "red", "#00F", "width=1", "size=2x1"], ["rotate", "270"]]
            none (.fresh ⟨[], []⟩) = some image := by
  have hred : Colour.ofText "red" = .ok (.rgb 255 0 0) := by rfl
  have hblue : Colour.ofText "#00F" = .ok (.rgb 0 0 255) := by rfl
  obtain ⟨-, hzoomed, htiled, hturned⟩ := @generators_periodic (.fresh ⟨[], []⟩) _ _ _ _ hred
    hblue 1 2 2 1 2 (by decide) (by decide) (by decide) (by decide) (by decide)
  refine ⟨hred, hblue, ?_, ?_, ?_⟩
  · exact hzoomed (by decide) (by decide) (by decide) .checkers _ _ _ _ (.keyword none)
      (.keyword none)
  · exact htiled (by decide) (by decide) _ _ _ _ (.keyword none) (.input (.blank 2 4) rfl)
  · exact hturned (by decide) (by decide) (by decide) _ _ _ _ (.input (.blank 1 2) rfl)
      (.keyword none)

end Tapestry
