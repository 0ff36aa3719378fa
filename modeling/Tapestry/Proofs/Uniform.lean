import Tapestry.Proofs.Alike
import Tapestry.Proofs.Refusals
import Tapestry.Proofs.Results

/-!
# Commands that do not look at handles

Every built-in command but `save` touches no file and treats calls with alike arguments alike: it
gives the same image, or fails in the same way. It gets at handles through the images behind them
only; a handle in another place is refused there as every text with an at sign is, so that no more
than the wording of the error depends on it.

Results are compared by `Agree`, which passes from the readers of arguments through the steps of a
command to its image.

## Key results

- `RefusesAt.agree`: alike texts are read alike by every reader that takes no at sign
- `agree_imageOfText`: alike texts are the same image, or both no image
- `Builtin.uniform`: the built-in commands treat alike calls alike
-/

namespace Tapestry

/-! ## Results -/

/-- Whether two errors are the same up to the details of what is wrong with an argument. Neither is
    about an unknown handle. -/
inductive EvalError.Alike : EvalError → EvalError → Prop
  | same {e} (h : ∀ command handle, e ≠ .unknownHandle command handle) : Alike e e
  | badArgument (command fault fault') :
      Alike (.badArgument command fault) (.badArgument command fault')

/-- Naming the command leaves errors alike. -/
theorem EvalError.Alike.inCommand {e e' : EvalError} (h : e.Alike e') (name : String) :
    (e.inCommand name).Alike (e'.inCommand name) := by
  cases h with
  -- Only an error without a command takes the name; every other one is left as it is.
  | badArgument command fault fault' =>
    by_cases hc : command = ""
    · subst hc
      exact .badArgument name fault fault'
    · rw [inCommand_of_command? rfl hc, inCommand_of_command? rfl hc]
      exact .badArgument command fault fault'
  | same h =>
    refine .same fun command handle => ?_
    unfold EvalError.inCommand
    split
    case h_3 => exact absurd rfl (h _ _)
    case h_5 => exact h command handle
    all_goals exact nofun

/-- Whether two computations have related values, or fail with alike errors. -/
inductive Agree {α β : Type} (R : α → β → Prop) : Except EvalError α → Except EvalError β → Prop
  | ok {a b} (h : R a b) : Agree R (.ok a) (.ok b)
  | error {e e'} (h : e.Alike e') : Agree R (.error e) (.error e')

section Agree

variable {α α' β β' : Type} {R : α → α' → Prop} {S : β → β' → Prop}

/-- Faults of arguments are alike, whatever is wrong. -/
private theorem agree_fault (f f' : ArgumentFault) :
    Agree R (.error (.fault f)) (.error (.fault f')) :=
  .error (.badArgument "" f f')

/-- A missing input is reported in the same way. -/
private theorem agree_noInput : Agree R (.error .noInput) (.error .noInput) :=
  .error (.same nofun)

/-- One computation after the other. -/
theorem Agree.bind {x : Except EvalError α} {x' : Except EvalError α'}
    {f : α → Except EvalError β} {f' : α' → Except EvalError β'} (h : Agree R x x')
    (h' : ∀ a a', R a a' → Agree S (f a) (f' a')) : Agree S (x >>= f) (x' >>= f') := by
  cases h with
  | ok h => exact h' _ _ h
  | error h => exact .error h

/-- One computation after the other, when the first one gives the same value. -/
private theorem Agree.bind_eq {x x' : Except EvalError α} {f : α → Except EvalError β}
    {f' : α → Except EvalError β'} (h : Agree Eq x x') (h' : ∀ a, Agree S (f a) (f' a)) :
    Agree S (x >>= f) (x' >>= f') :=
  h.bind fun a _ heq => heq ▸ h' a

/-- A function of agreeing values. -/
theorem Agree.map {x x' : Except EvalError α} (h : Agree Eq x x') (f : α → β) :
    Agree Eq (x.map f) (x'.map f) := by
  cases h with
  | ok h => exact .ok (congrArg f h)
  | error h => exact .error h

/-- An input does not depend on the handles. -/
private theorem agree_requireInput (input : Option Image) :
    Agree Eq (requireInput input) (requireInput input) := by
  cases input with
  | none => exact agree_noInput
  | some image => exact .ok rfl

/-- A computation agrees with itself when all of its errors are faults of arguments. -/
private theorem agree_mapError (x : Except ArgumentFault α) :
    Agree Eq (x.mapError EvalError.fault) (x.mapError .fault) := by
  cases x with
  | error f => exact agree_fault f f
  | ok a => exact .ok rfl

end Agree

/-! ## Readers -/

/-- Alike texts are read alike by a reader that takes no at sign. -/
theorem RefusesAt.agree {α : Type} {read : String → Except EvalError α} (hread : RefusesAt read)
    {t t' : HandleTable} (s s' : String) (h : Alike t t' s s') : Agree Eq (read s) (read s') := by
  rcases h.eq_or_at_mem with rfl | ⟨hs, hs'⟩
  · -- The reader is a function, so what it does with one text agrees with itself.
    rcases hread s with ⟨a, ha, -⟩ | ⟨f, hf⟩
    · rw [ha]
      exact .ok rfl
    · rw [hf]
      exact agree_fault f f
  · -- Each text has an at sign, so that the reader refuses it.
    rcases hread s with ⟨a, -, hmem⟩ | ⟨f, hf⟩
    · exact absurd hs hmem
    rcases hread s' with ⟨a, -, hmem⟩ | ⟨f', hf'⟩
    · exact absurd hs' hmem
    rw [hf, hf']
    exact agree_fault f f'

/-! ## Arguments -/

/-- Whether arguments are alike one by one. -/
structure Arguments.Alike (t t' : HandleTable) (a a' : Arguments) : Prop where
  positional : List.Forall₂ (Tapestry.Alike t t') a.positional a'.positional
  keywords : List.Forall₂ (KeywordsAlike t t') a.keywords a'.keywords

section Arguments

variable {t t' : HandleTable} {args args' : List String} {a a' : Arguments}

/-- Texts that are alike one by one are alike as arguments. -/
private theorem Arguments.alike_ofList (h : List.Forall₂ (Tapestry.Alike t t') args args') :
    Arguments.Alike t t' (ofList args) (ofList args') := by
  induction h with
  | nil => exact ⟨.nil, .nil⟩
  | @cons s s' args args' h _ ih =>
    obtain ⟨hpositional, hkeywords⟩ := ih
    -- Both texts are keywords or both are positional.
    have hkeyword := h.keywordOf?
    rw [ofList, ofList]
    generalize hk : keywordOf? s = k at hkeyword
    generalize hk' : keywordOf? s' = k' at hkeyword
    cases hkeyword with
    | none =>
      refine ⟨?_, ?_⟩
      · simp only [List.filter_cons, hk, hk', Option.isNone_none, ↓reduceIte]
        exact .cons h hpositional
      · simp only [List.filterMap_cons, hk, hk']
        exact hkeywords
    | some hx =>
      refine ⟨?_, ?_⟩
      · simp only [List.filter_cons, hk, hk', Option.isNone_some, Bool.false_eq_true, ↓reduceIte]
        exact hpositional
      · simp only [List.filterMap_cons, hk, hk']
        exact .cons hx hkeywords

/-- Lists that are related one by one have related elements in the same positions. -/
private theorem rel_getElem? {α : Type} {R : α → α → Prop} {xs ys : List α}
    (h : List.Forall₂ R xs ys) (index : Nat) : Option.Rel R xs[index]? ys[index]? := by
  induction h generalizing index with
  | nil => exact .none
  | cons h _ ih =>
    cases index with
    | zero => exact .some h
    | succ index => exact ih index

/-- A key has alike values among alike keywords. -/
private theorem rel_lookup {xs xs' : List (String × String)}
    (h : List.Forall₂ (KeywordsAlike t t') xs xs') (key : String) :
    Option.Rel (Alike t t') (xs.lookup key) (xs'.lookup key) := by
  induction h with
  | nil => exact .none
  | @cons x x' xs xs' hx _ ih =>
    obtain ⟨k, v⟩ := x
    obtain ⟨k', v'⟩ := x'
    obtain ⟨rfl, hv⟩ : k = k' ∧ Alike t t' v v' := hx
    rw [List.lookup_cons, List.lookup_cons]
    split
    · exact .some hv
    · exact ih

/-- A word without an at sign is among alike texts, or is not, alike. -/
private theorem contains_eq_of_alike {xs xs' : List String} (h : List.Forall₂ (Alike t t') xs xs')
    {word : String} (hword : '@' ∉ word.toList) : xs.contains word = xs'.contains word := by
  induction h with
  | nil => rfl
  | cons h _ ih =>
    have heq := h.eq_iff hword
    rw [List.contains_cons, List.contains_cons, ih, Bool.beq_comm, Bool.beq_comm (a := word)]
    congr 1
    exact Bool.eq_iff_iff.2 (by rw [beq_iff_eq, beq_iff_eq, heq])

/-- Alike texts are the same image, or both no image. -/
theorem agree_imageOfText {s s' : String} (h : Alike t t' s s') :
    Agree Eq (imageOfText t s) (imageOfText t' s') := by
  rw [imageOfText, imageOfText]
  cases h with
  | plain h =>
    rw [h.isHandle_eq_false]
    exact agree_fault _ _
  | handle image hm hn h h' =>
    rw [isHandle_handleName, isHandle_handleName, if_pos rfl, if_pos rfl,
      HandleTable.resolve_handleName h, HandleTable.resolve_handleName h']
    exact .ok rfl
  -- A text that stands behind a key has an equals sign, which no handle has.
  | keyed hkey h =>
    have hnot : ∀ key s : String, isHandle (key ++ "=" ++ s) = false := by
      intro key s
      refine Bool.eq_false_iff.2 fun hhandle => equals_not_mem_of_isHandle hhandle ?_
      simp
    rw [hnot, hnot]
    exact agree_fault _ _

namespace Arguments

/-! The readers of arguments, as a reader of texts behind the look-up of a text. -/

/-- A colour is read from a positional argument. -/
private theorem colour_eq (a : Arguments) (index : Nat) (what : String) :
    a.colour index what =
      a.require index what >>= fun s => (Colour.ofText s).mapError .fault := by
  rw [Arguments.colour]
  cases a.require index what <;> simp only [Except.ok_bind, Except.error_bind]

/-- A number is read from a positional argument. -/
private theorem word_eq (a : Arguments) (index : Nat) (what : String) :
    a.word index what = a.require index what >>= fun s => wordOfText s what := by
  rw [Arguments.word]
  cases a.require index what <;> simp only [Except.ok_bind, Except.error_bind]

/-- An image is found behind a positional argument. -/
theorem image_eq (a : Arguments) (t : HandleTable) (index : Nat) :
    a.image t index = a.require index "image" >>= imageOfText t := by
  rw [Arguments.image]
  cases a.require index "image" <;> simp only [Except.ok_bind, Except.error_bind]

/-- A number is read from a keyword, or the default is taken. -/
private theorem keywordWord_eq (a : Arguments) (key : String) (default : Nat) :
    a.keywordWord key default =
      (a.keyword? key).elim (.ok default) fun s => wordOfText s key := by
  rw [Arguments.keywordWord]
  cases a.keyword? key <;> simp only [Option.elim]

private theorem keywordFloat_eq (a : Arguments) (key : String) (default : Float32) :
    a.keywordFloat key default =
      (a.keyword? key).elim (.ok default) fun s => floatOfText s key := by
  rw [Arguments.keywordFloat]
  cases a.keyword? key <;> simp only [Option.elim]

/-- An image is found behind a keyword, if there is one. -/
theorem keywordImage?_eq (a : Arguments) (t : HandleTable) (key : String) :
    a.keywordImage? t key =
      (a.keyword? key).elim (.ok none) fun s => (imageOfText t s).map some := by
  rw [Arguments.keywordImage?]
  cases a.keyword? key <;> simp only [Option.elim]

/-- A size is read from the keyword, or it is that of the input. -/
theorem size_eq (a : Arguments) (input : Option Image) :
    a.size input =
      (a.keyword? "size").elim ((requireInput input).map Image.size)
        fun s => (Size.ofText s).mapError .fault := by
  rw [Arguments.size]
  cases a.keyword? "size" <;> simp only [Option.elim]

section Alike

variable (h : Arguments.Alike t t' a a')

include h

/-- Alike arguments have alike texts in the same positions. -/
theorem Alike.require (index : Nat) (what : String) :
    Agree (Tapestry.Alike t t') (a.require index what) (a'.require index what) := by
  rw [Arguments.require, Arguments.require, positional?, positional?]
  generalize hs : a.positional[index]? = s
  generalize hs' : a'.positional[index]? = s'
  have hrel := rel_getElem? h.positional index
  rw [hs, hs'] at hrel
  cases hrel with
  | none => exact agree_fault _ _
  | some h => exact .ok h

/-- A word that is no handle is among both arguments or among neither. -/
theorem Alike.flag {word : String} (hword : '@' ∉ word.toList) : a.flag word = a'.flag word :=
  contains_eq_of_alike h.positional hword

/-- Alike arguments have alike values for a keyword, or none. What is read of them agrees when the
    reader agrees on alike texts. -/
private theorem Alike.elim_keyword? {α : Type} {default default' : Except EvalError α}
    {read read' : String → Except EvalError α} (hdefault : Agree Eq default default')
    (hread : ∀ s s', Tapestry.Alike t t' s s' → Agree Eq (read s) (read' s')) (key : String) :
    Agree Eq ((a.keyword? key).elim default read) ((a'.keyword? key).elim default' read') := by
  have hrel : Option.Rel (Tapestry.Alike t t') (a.keyword? key) (a'.keyword? key) :=
    rel_lookup (List.forall₂_reverse_iff.2 h.keywords) key
  generalize a.keyword? key = s at hrel
  generalize a'.keyword? key = s' at hrel
  cases hrel with
  | none => exact hdefault
  | some h => exact hread _ _ h

/-- Handles are no colours, so a colour is the same text in both. -/
theorem Alike.colour (index : Nat) (what : String) :
    Agree Eq (a.colour index what) (a'.colour index what) := by
  rw [colour_eq, colour_eq]
  exact (h.require index what).bind refusesAt_colour.agree

theorem Alike.word (index : Nat) (what : String) :
    Agree Eq (a.word index what) (a'.word index what) := by
  rw [word_eq, word_eq]
  exact (h.require index what).bind (refusesAt_wordOfText what).agree

/-- Alike texts stand for one image. -/
theorem Alike.image (index : Nat) : Agree Eq (a.image t index) (a'.image t' index) := by
  rw [image_eq, image_eq]
  exact (h.require index "image").bind fun s s' hs => agree_imageOfText hs

/-- A keyword has alike values in both, of which numbers are the same text. -/
theorem Alike.keywordWord (key : String) (default : Nat) :
    Agree Eq (a.keywordWord key default) (a'.keywordWord key default) := by
  rw [keywordWord_eq, keywordWord_eq]
  exact h.elim_keyword? (.ok rfl) (refusesAt_wordOfText key).agree key

theorem Alike.keywordFloat (key : String) (default : Float32) :
    Agree Eq (a.keywordFloat key default) (a'.keywordFloat key default) := by
  rw [keywordFloat_eq, keywordFloat_eq]
  exact h.elim_keyword? (.ok rfl) (refusesAt_floatOfText key).agree key

/-- The values of a keyword stand for one image. -/
theorem Alike.keywordImage? (key : String) :
    Agree Eq (a.keywordImage? t key) (a'.keywordImage? t' key) := by
  rw [keywordImage?_eq, keywordImage?_eq]
  exact h.elim_keyword? (.ok rfl) (fun s s' hs => (agree_imageOfText hs).map some) key

/-- No handle is a size, and the input is the same. -/
theorem Alike.size (input : Option Image) : Agree Eq (a.size input) (a'.size input) := by
  rw [size_eq, size_eq]
  have hinput := (agree_requireInput input).map Image.size
  exact h.elim_keyword? hinput refusesAt_size.agree "size"

end Alike

end Arguments

end Arguments

/-! ## Commands -/

/-- Whether a command touches no file and has results that agree for alike calls. -/
def Handler.Uniform (handler : Handler) : Prop :=
  ∃ f, handler = .ofFunction f ∧
    ∀ t t' args args' input, List.Forall₂ (Alike t t') args args' →
      Agree Eq (f ⟨args, input, t⟩) (f ⟨args', input, t'⟩)

namespace Command

/-- Whether what is read from alike arguments agrees. -/
def ReadsAlike {α : Type} (read : Arguments → Except EvalError α) : Prop :=
  ∀ t t' a a', Arguments.Alike t t' a a' → Agree Eq (read a) (read a')

/-! ### Checks that look at no argument -/

/-- What is asked of a number does not depend on the handles. -/
private theorem agree_requirePositive (n : Nat) (what : String) :
    Agree Eq (requirePositive n what) (requirePositive n what) := by
  rw [requirePositive]
  split
  · exact agree_fault _ _
  · exact .ok rfl

private theorem agree_requireSameSize (a b : Image) :
    Agree Eq (requireSameSize a b) (requireSameSize a b) :=
  agree_mapError _

private theorem agree_requireScalable (image : Image) (factor : Nat) :
    Agree Eq (requireScalable image factor) (requireScalable image factor) := by
  rw [requireScalable]
  split
  · exact .ok rfl
  · exact agree_fault _ _

/-- A geometric command does the same with the same image. -/
private theorem agree_transform (image : Image) (g : Geometry) :
    Agree Eq (transform image g) (transform image g) := by
  cases g with
  | zoom factor =>
    rw [transform]
    split
    · exact .ok rfl
    · exact (agree_requireScalable image factor).bind_eq fun _ => .ok rfl
  | tile count => exact (agree_requireScalable image count).bind_eq fun _ => .ok rfl
  | mirrorColumns | mirrorRows | quarterTurn | halfTurn | threeQuarterTurn => exact .ok rfl

/-! ### Generators -/

/-- A generator is uniform when its pattern is read alike. -/
private theorem uniform_generator {read : Arguments → Except EvalError Pattern}
    (hread : ReadsAlike read) : (generator read).Uniform := by
  refine ⟨_, rfl, fun t t' args args' input h => ?_⟩
  have ha := Arguments.alike_ofList h
  refine (hread t t' _ _ ha).bind_eq fun pattern => ?_
  exact (ha.size input).bind_eq fun size => .ok rfl

private theorem readsAlike_blank : ReadsAlike readBlank := fun _ _ _ _ _ => .ok rfl

private theorem readsAlike_fill : ReadsAlike readFill := by
  intro t t' a a' h
  exact (h.colour 0 "colour").bind_eq fun colour => .ok rfl

private theorem readsAlike_checkers : ReadsAlike readCheckers := by
  intro t t' a a' h
  refine (h.colour 0 "first colour").bind_eq fun first => ?_
  refine (h.colour 1 "second colour").bind_eq fun second => ?_
  refine (h.keywordWord "cell" 1).bind_eq fun cell => ?_
  exact (agree_requirePositive cell "cell").bind_eq fun cell => .ok rfl

private theorem readsAlike_stripes : ReadsAlike readStripes := by
  intro t t' a a' h
  have hflag : a.flag "vertical" = a'.flag "vertical" := h.flag (by decide)
  refine (h.colour 0 "first colour").bind_eq fun first => ?_
  refine (h.colour 1 "second colour").bind_eq fun second => ?_
  refine (h.keywordWord "width" 1).bind_eq fun band => ?_
  refine (agree_requirePositive band "width").bind_eq fun band => ?_
  rw [hflag]
  exact .ok rfl

private theorem readsAlike_circle : ReadsAlike readCircle := by
  intro t t' a a' h
  refine (h.colour 0 "foreground colour").bind_eq fun inner => ?_
  exact (h.colour 1 "background colour").bind_eq fun outer => .ok rfl

private theorem readsAlike_gradient : ReadsAlike readGradient := by
  intro t t' a a' h
  have hflag : a.flag "vertical" = a'.flag "vertical" := h.flag (by decide)
  refine (h.colour 0 "start colour").bind_eq fun start => ?_
  refine (h.colour 1 "end colour").bind_eq fun stop => ?_
  rw [hflag]
  exact .ok rfl

/-! ### Transforms -/

/-- An image that is passed on is that of the input. -/
private theorem uniform_passOn : passOn.Uniform :=
  ⟨_, rfl, fun _ _ _ _ input _ => agree_requireInput input⟩

/-- A change of colours is uniform when it is read alike. -/
private theorem uniform_recolour {read : Arguments → Except EvalError (Colour → Colour)}
    (hread : ReadsAlike read) : (recolour read).Uniform := by
  refine ⟨_, rfl, fun t t' args args' input h => ?_⟩
  refine (agree_requireInput input).bind_eq fun image => ?_
  exact (hread t t' _ _ (Arguments.alike_ofList h)).bind_eq fun f => .ok rfl

/-- So is a geometric command. -/
private theorem uniform_geometric {read : Arguments → Except EvalError Geometry}
    (hread : ReadsAlike read) : (geometric read).Uniform := by
  refine ⟨_, rfl, fun t t' args args' input h => ?_⟩
  refine (agree_requireInput input).bind_eq fun image => ?_
  exact (hread t t' _ _ (Arguments.alike_ofList h)).bind_eq fun g => agree_transform image g

private theorem readsAlike_invert : ReadsAlike readInvert := fun _ _ _ _ _ => .ok rfl

private theorem readsAlike_hue : ReadsAlike readHue := by
  intro t t' a a' h
  refine (h.require 0 "degrees").bind fun s s' hs => ?_
  exact ((refusesAt_floatOfText "degrees").agree s s' hs).bind_eq fun degrees => .ok rfl

private theorem readsAlike_zoom : ReadsAlike readZoom := by
  intro t t' a a' h
  refine (h.word 0 "factor").bind_eq fun factor => ?_
  exact (agree_requirePositive factor "factor").bind_eq fun factor => .ok rfl

private theorem readsAlike_tile : ReadsAlike readTile := by
  intro t t' a a' h
  refine (h.word 0 "count").bind_eq fun count => ?_
  exact (agree_requirePositive count "count").bind_eq fun count => .ok rfl

private theorem readsAlike_mirror : ReadsAlike readMirror := by
  intro t t' a a' h
  rw [readMirror, readMirror, h.flag (by decide)]
  exact .ok rfl

private theorem readsAlike_rotate : ReadsAlike readRotate := by
  intro t t' a a' h
  refine (h.require 0 "angle").bind (RefusesAt.agree fun s => ?_)
  split
  · exact .inl ⟨_, rfl, by decide⟩
  · exact .inl ⟨_, rfl, by decide⟩
  · exact .inl ⟨_, rfl, by decide⟩
  · exact .inr ⟨_, rfl⟩

/-! ### Compositors and operators -/

/-- `join` reads a mode, an image and a keyword, and gets the same images. -/
private theorem uniform_join : join.Uniform := by
  refine ⟨_, rfl, fun t t' args args' input h => ?_⟩
  have ha := Arguments.alike_ofList h
  refine (agree_requireInput input).bind_eq fun image => ?_
  refine (ha.require 0 "mode").bind fun s s' hs => ?_
  refine (refusesAt_joinMode.agree s s' hs).bind_eq fun mode => ?_
  refine (ha.image 1).bind_eq fun drawn => ?_
  refine (agree_requireSameSize image drawn).bind_eq fun _ => ?_
  refine (ha.keywordImage? "mask").bind_eq fun mask => ?_
  cases mask with
  | none => exact .ok rfl
  | some mask => exact (agree_requireSameSize image mask).bind_eq fun _ => .ok rfl

/-- `mask` gets the same two images. -/
private theorem uniform_mask : mask.Uniform := by
  refine ⟨_, rfl, fun t t' args args' input h => ?_⟩
  refine (agree_requireInput input).bind_eq fun image => ?_
  refine ((Arguments.alike_ofList h).image 0).bind_eq fun weight => ?_
  exact (agree_requireSameSize image weight).bind_eq fun _ => .ok rfl

/-- `blend` gets the same two images and the same amount. -/
private theorem uniform_blend : blend.Uniform := by
  refine ⟨_, rfl, fun t t' args args' input h => ?_⟩
  have ha := Arguments.alike_ofList h
  refine (agree_requireInput input).bind_eq fun image => ?_
  refine (ha.image 0).bind_eq fun other => ?_
  refine (agree_requireSameSize image other).bind_eq fun _ => ?_
  refine (ha.keywordFloat "amount" 0.5).bind_eq fun amount => ?_
  split
  · exact .ok rfl
  · exact agree_fault _ _

/-- The command of an operator gets the same two images. -/
private theorem uniform_combine (o : Operator) : (combine o).Uniform := by
  refine ⟨_, rfl, fun t t' args args' input h => ?_⟩
  refine (agree_requireInput input).bind_eq fun left => ?_
  refine ((Arguments.alike_ofList h).image 0).bind_eq fun right => ?_
  exact (agree_requireSameSize left right).bind_eq fun _ => .ok rfl

end Command

/-! ## The built-in commands -/

open Command in
/-- All built-in commands but `save` treat alike calls alike. -/
theorem Builtin.uniform {b : Builtin} (h : b ∈ all) (hname : b.name ≠ "save") :
    b.handler.Uniform := by
  rw [all] at h
  simp only [List.mem_cons, List.not_mem_nil, or_false] at h
  rcases h with rfl | rfl | rfl | rfl | rfl | rfl | rfl | rfl | rfl | rfl | rfl | rfl | rfl | rfl |
    rfl | rfl | rfl | rfl | rfl | rfl | rfl | rfl | rfl
  · exact uniform_generator readsAlike_blank
  · exact uniform_generator readsAlike_fill
  · exact uniform_generator readsAlike_checkers
  · exact uniform_generator readsAlike_stripes
  · exact uniform_generator readsAlike_circle
  · exact uniform_generator readsAlike_gradient
  · exact uniform_passOn
  · exact uniform_geometric readsAlike_zoom
  · exact uniform_geometric readsAlike_mirror
  · exact uniform_geometric readsAlike_rotate
  · exact uniform_recolour readsAlike_invert
  · exact uniform_recolour readsAlike_hue
  · exact uniform_geometric readsAlike_tile
  · exact uniform_join
  · exact uniform_mask
  · exact uniform_blend
  · exact uniform_combine .xor
  · exact uniform_combine .add
  · exact uniform_combine .sub
  · exact uniform_combine .mul
  · exact uniform_combine .div
  · exact uniform_combine .mod
  · exact absurd rfl hname

/-- Inserting handlers into a registry adds no others. -/
private theorem Registry.mem_or_get?_of_foldl {commands : List (String × Handler)} {r : Registry}
    {name : String} {handler : Handler}
    (h : (commands.foldl (fun r (name, handler) => r.insert name handler) r).get? name =
      some handler) : (name, handler) ∈ commands ∨ r.get? name = some handler := by
  induction commands generalizing r with
  | nil => exact .inr h
  | cons x commands ih =>
    rcases ih h with hmem | hget
    -- The last command of a name counts, so a handler that is found is in the list or was there
    -- before.
    · exact .inl (List.mem_cons_of_mem _ hmem)
    · rw [get?_insert] at hget
      split at hget
      · next heq =>
        cases hget
        exact .inl (heq ▸ List.mem_cons_self)
      · exact .inr hget

/-- A handler of a registry is one of those that it was made of. -/
theorem Registry.mem_of_get?_ofList {commands : List (String × Handler)} {name : String}
    {handler : Handler} (h : (ofList commands).get? name = some handler) :
    (name, handler) ∈ commands :=
  (mem_or_get?_of_foldl h).resolve_right nofun

/-- The registry of the built-in commands has no other handlers but that of `save`. -/
theorem Registry.uniform_builtins {name : String} {handler : Handler}
    (h : builtins.get? name = some handler) (hname : name ≠ "save") : handler.Uniform := by
  obtain ⟨b, hb, heq⟩ := List.mem_map.1 (mem_of_get?_ofList h)
  cases heq
  exact Builtin.uniform hb hname

end Tapestry
