import Tapestry.Manifest
import Tapestry.Proofs.CheckedCommands

/-!
# Images stay in range

A manifest and the options of a run give a seed whose sides are from 1 to `maxSide`, or none. From
there on all images are in range, and so the commands do the same with checks: no handler reads a
pixel outside an image, divides by zero, computes a number that there is no room for, or hands on or
writes an image that is out of range.

## Key results

- `Manifest.inRange_seedImage`: the seed of a run is in range
- `evaluate_seed_inRange`: an evaluation from the seed stays in range and violates nothing
-/

namespace Tapestry

/-! ## Seeds -/

namespace Manifest

variable {m m' : Manifest}

/-- A manifest that was read from a text passes the check: it is the standard one, or was checked
    last. -/
theorem check_of_ofText {text : String} (h : ofText text = .ok m) : m.check = .ok m := by
  unfold ofText at h
  split at h
  · cases h
    decide
  · split at h
    · cases h
    · obtain ⟨rfl, hsize⟩ := check_eq_ok.1 h
      exact check_eq_ok.2 ⟨rfl, hsize⟩

/-- The options of a run leave a size in range, whether they keep it or give another one. -/
theorem inRange_withSeedOptions (hm : Size.InRange ⟨m.width, m.height⟩) {size : Option String}
    {noSeed : Bool} (h : m.withSeedOptions size noSeed = .ok m') :
    Size.InRange ⟨m'.width, m'.height⟩ := by
  unfold withSeedOptions at h
  -- Without a size the manifest keeps its own; a seed that is left out changes no size.
  cases size with
  | none =>
    cases h
    cases noSeed with
    | true => exact hm
    | false => exact hm
  | some s =>
    simp only at h
    -- A size that is given was checked when it was read.
    split at h
    · next size hsize =>
      cases h
      exact ensures_ofText s size hsize
    · cases h

/-- The seed of a run with a manifest that passes the check is in range. -/
theorem inRange_seedImage (h : m.check = .ok m) {size : Option String} {noSeed : Bool}
    (h' : m.withSeedOptions size noSeed = .ok m') : ∀ seed ∈ m'.seedImage, seed.InRange := by
  intro seed hseed
  unfold seedImage seedSize at hseed
  split at hseed
  · cases hseed
    exact inRange_withSeedOptions (check_eq_ok.1 h).2 h'
  · cases hseed

end Manifest

/-! ## Evaluations -/

/-- Whether all that an evaluation has left is in range: the images among the handles, the inputs of
    the calls, and the pictures in the files, apart from what was there before. -/
structure Context.InRange (before : Workspace) (c : Context) : Prop where
  handles : c.handles.InRange
  calls : ∀ call ∈ c.invocations, ∀ image ∈ call.input, image.InRange
  files : before.ChangesInRange c.files

/-- Whether a result is in range: what it leaves, and its image if it has one. -/
def ResultInRange (before : Workspace) : EStateM.Result EvalError Context Image → Prop
  | .ok image c => image.InRange ∧ c.InRange before
  | .error _ c => c.InRange before

/-- Evaluations that are the same and in range. -/
def inRange (before : Workspace) : Correspondence where
  image a b := a = b ∧ a.InRange
  handles t t' := t = t' ∧ t.InRange
  files w w' := w = w' ∧ before.ChangesInRange w
  calls l l' := l = l' ∧ ∀ call ∈ l, ∀ image ∈ call.input, image.InRange
  error := Eq

section Correspondence

variable {before : Workspace}

/-- Inputs correspond when they are the same, and in range if there is one. -/
private theorem input_inRange {input input' : Option Image} :
    (inRange before).input input input' ↔ input = input' ∧ ∀ image ∈ input, image.InRange := by
  constructor
  -- An input that is missing on one side is missing on the other.
  · intro h
    cases h with
    | none => exact ⟨rfl, nofun⟩
    | some himage =>
      obtain ⟨rfl, hrange⟩ := himage
      refine ⟨rfl, ?_⟩
      rintro _ ⟨⟩
      exact hrange
  · rintro ⟨rfl, h⟩
    cases input with
    | none => exact .none
    | some image => exact .some ⟨rfl, h image rfl⟩

/-- Registering an image and recording a call keep everything in range. -/
private theorem inRange_kept : (inRange before).Kept where
  -- A registered image is in range, and so are those from before.
  register ht himage := by
    obtain ⟨rfl, ht⟩ := ht
    obtain ⟨rfl, himage⟩ := himage
    exact ⟨rfl, rfl, ht.register himage⟩
  record name args hl hinput := by
    obtain ⟨rfl, hl⟩ := hl
    obtain ⟨rfl, hrange⟩ := input_inRange.1 hinput
    refine ⟨rfl, fun call hcall => ?_⟩
    -- A call that was recorded before had an input in range, and the new one has as well.
    rcases List.mem_append.1 hcall with hcall | hcall
    · exact hl call hcall
    · rw [List.mem_singleton.1 hcall]
      exact hrange
  noInput := rfl

/-- A sound handler does the same with checks, whatever it would do after a violation. -/
theorem CheckedHandler.Sound.handlers {checked : CheckedHandler} {handler : Handler}
    (h : checked.Sound handler) (crash : Violation → Handler) (name : String) :
    (inRange before).Handlers name (checked.recover crash) handler := by
  intro args input input' t t' files files' hinput ht hfiles
  obtain ⟨rfl, hrange⟩ := input_inRange.1 hinput
  obtain ⟨rfl, ht⟩ := ht
  obtain ⟨rfl, hfiles⟩ := hfiles
  -- A sound handler violates nothing, so that the checks never stop it.
  obtain ⟨hrun, hrespects⟩ := h ⟨args, input, t⟩ files hrange ht
  simp only [CheckedHandler.recover, hrun]
  generalize handler ⟨args, input, t⟩ files = r at hrespects
  cases hrespects with
  | ok himage hnew => exact .ok ⟨rfl, himage⟩ ⟨rfl, hfiles.trans hnew⟩
  | error hnew => exact .error rfl ⟨rfl, hfiles.trans hnew⟩

variable (before) in
/-- With checks, the built-in commands are found alike. -/
private theorem finds_inRange (crash : Violation → Handler) (l : Lookup) :
    (inRange before).Finds (.checked crash) .builtins l := by
  refine Correspondence.finds_of_rel (fun name => ?_) (fun _ => rfl) l
  apply Registry.rel_get?_ofList
  rw [List.forall₂_map_left_iff, List.forall₂_map_right_iff]
  exact Checked.sound.imp fun p b h => ⟨h.1, h.2.handlers crash p.1⟩

/-- Results that correspond are the same, and what they leave is in range. -/
private theorem inRange_results {r r' : EStateM.Result EvalError Context Image}
    (h : (inRange before).Results (inRange before).image r r') :
    r = r' ∧ ResultInRange before r' := by
  -- Contexts that correspond are one context, and what is in it is in range.
  have hcontexts {c c' : Context} (hc : (inRange before).Contexts c c') :
      c = c' ∧ c.InRange before := by
    obtain ⟨t, w, l⟩ := c
    obtain ⟨t', w', l'⟩ := c'
    obtain ⟨⟨rfl, hhandles⟩, ⟨rfl, hfiles⟩, ⟨rfl, hcalls⟩⟩ := hc
    exact ⟨rfl, hhandles, hcalls, hfiles⟩
  cases h with
  | ok himage hc =>
    obtain ⟨rfl, himage⟩ := himage
    obtain ⟨rfl, hrange⟩ := hcontexts hc
    exact ⟨rfl, himage, hrange⟩
  | error he hc =>
    obtain rfl := he
    obtain ⟨rfl, hrange⟩ := hcontexts hc
    exact ⟨rfl, hrange⟩

end Correspondence

/-- A manifest that was read from a text, or passes the check in whatever form it was written, gives
    a run a seed with both sides from 1 to `maxSide`, or none. Evaluating an expression from it with
    the built-in commands gives an image in range, if any, and leaves images in range among the
    handles, as inputs of calls, and in the files that it wrote. With checks the evaluation has the
    same result, whatever the handlers would do after a violation; since an error of a handler is
    never caught, this means that none of them violates anything. -/
theorem evaluate_seed_inRange {m m' : Manifest} {size : Option String} {noSeed : Bool}
    (h : (∃ text, Manifest.ofText text = .ok m) ∨ m.check = .ok m)
    (h' : m.withSeedOptions size noSeed = .ok m') :
    (∀ seed ∈ m'.seedImage, seed.InRange) ∧
    ∀ (e : Expr) (files : Workspace),
      (∀ crash, e.evaluate (.checked crash) m'.seedImage (.fresh files) =
        e.evaluate .builtins m'.seedImage (.fresh files)) ∧
      ResultInRange files (e.evaluate .builtins m'.seedImage (.fresh files)) := by
  have hcheck : m.check = .ok m := h.elim (fun ⟨_, htext⟩ => Manifest.check_of_ofText htext) id
  have hseed := Manifest.inRange_seedImage hcheck h'
  refine ⟨hseed, fun e files => ?_⟩
  -- The run with checks starts where the other one does, and nothing has happened yet.
  have hfresh : (inRange files).Contexts (.fresh files) (.fresh files) :=
    ⟨⟨rfl, nofun⟩, ⟨rfl, .refl files⟩, ⟨rfl, nofun⟩⟩
  have hresults (crash : Violation → Handler) := inRange_results <|
    e.related inRange_kept (fun l _ => finds_inRange files crash l)
      (input_inRange.2 ⟨rfl, hseed⟩) hfresh
  exact ⟨fun crash => (hresults crash).1, (hresults fun _ => Command.passOn).2⟩

/-- Without a manifest and with a seed of 3 by 2, an image that is zoomed and saved. -/
theorem evaluate_seed_inRange_zoomed :
    Manifest.ofText "" = .ok .standard ∧
      Manifest.standard.withSeedOptions (some "3x2") false =
        .ok { Manifest.standard with width := 3, height := 2 } ∧
      (∀ crash, (Expr.pipeline [.command "zoom" [.literal "4"],
          .command "save" [.literal "a.png"]]).evaluate (.checked crash) (some (.blank 3 2))
            (.fresh ⟨[], []⟩) =
        (Expr.pipeline [.command "zoom" [.literal "4"],
          .command "save" [.literal "a.png"]]).evaluate .builtins (some (.blank 3 2))
            (.fresh ⟨[], []⟩)) := by
  -- A blank manifest is the standard one, and the size of the seed is given by hand.
  have htext : Manifest.ofText "" = .ok .standard := by decide +kernel
  have hoptions : Manifest.standard.withSeedOptions (some "3x2") false =
      .ok { Manifest.standard with width := 3, height := 2 } := by decide +kernel
  exact ⟨htext, hoptions, ((evaluate_seed_inRange (.inl ⟨"", htext⟩) hoptions).2 _ _).1⟩

end Tapestry
