import Mathlib.Data.List.TakeWhile
import Tapestry.Proofs.Passing
import Tapestry.Proofs.Pipelines
import Tapestry.Proofs.ProgramSteps
import Tapestry.Proofs.ReadBack
import Tapestry.Proofs.Splicing

/-!
# Two ways of writing the result

The image of an expression can be written by the program itself, or by `save` behind the expression.
The second way appends text, which is read back as one more stage of the pipeline: the path name
from its quotes, and the factor from its digits. Both ways end in the same function, so they leave
the same files; what they show to the user differs.

## Key results

- `parse_savedAs`: the appended text is one more stage
- `readSave_saveTexts`: `save` finds the path name and the factor among its arguments
- `leaves_run_savedAs`: the expression with the stage leaves what the expression leaves, and then
  the file
- `render_savedAs`: the two ways of writing a file
-/

namespace Tapestry

/-! ## Reading the appended text -/

/-- An expression whose image is written to a file by `save`. -/
def savedAs (expr path : String) (factor : Nat) : String :=
  expr ++ " | save " ++ quote path ++ " scale=" ++ toString factor

/-- A decimal digit starts a value. -/
private theorem startsValue_of_isDigit {c : Char} (h : c.isDigit = true) (cs : List Char) :
    isBlank c = false ∧ StartsValue c cs := by
  have hne {d : Char} (hd : d.isDigit = false) : c ≠ d := fun he =>
    Bool.false_ne_true (hd.symm.trans (he ▸ h))
  have hsign : singleKind? c = none := by
    cases hk : singleKind? c with
    | none => rfl
    | some kind =>
      unfold singleKind? at hk
      split at hk <;> first | exact absurd h (by decide) | cases hk
  have hword : startsWord c = false := by
    have hbounds : 48 ≤ c.toNat ∧ c.toNat ≤ 57 := Char.isDigit_iff_toNat.1 h
    -- All digits come before all letters.
    have hletter : c.isAlpha = false := by
      show (decide (65 ≤ c.val ∧ c.val ≤ 90) || (decide (97 ≤ c.val) && decide (c.val ≤ 122))) =
        false
      have hval : c.val.toNat ≤ 57 := hbounds.2
      simp [UInt32.le_iff_toNat_le]
      omega
    have hunderscore : c ≠ '_' := hne (by decide)
    rw [startsWord, Text.isAlphabetic_of_lt (by omega), hletter]
    simp [hunderscore]
  have hblank : c ≠ ' ' ∧ c ≠ '\t' ∧ c ≠ '\n' ∧ c ≠ '\r' :=
    ⟨hne (by decide), hne (by decide), hne (by decide), hne (by decide)⟩
  have hminus : c ≠ '-' := hne (by decide)
  have hquote : c ≠ '"' := hne (by decide)
  refine ⟨by simp [isBlank, hblank], hsign, ?_, hquote, hword, ?_⟩
  · simp [hminus]
  · simp [startsValue, h]

/-- The digits of a number are one value. -/
private theorem formsOf_toString (n : Nat) :
    formsOf (toString n).toList = [(.value, toString n), (.finish, "")] := by
  have hdigits : ∀ c ∈ (toString n).toList, c.isDigit = true :=
    fun c hc => Text.isDigit_of_mem_toString hc
  have hne : (toString n).toList ≠ [] := by
    rw [Text.toList_toString]
    exact Nat.toDigits_ne_nil
  obtain ⟨c, cs, htext⟩ := List.exists_cons_of_ne_nil hne
  -- The first digit starts the value, and each of the others goes on with it.
  rw [htext] at hdigits
  obtain ⟨hc, hcs⟩ := List.forall_mem_cons.1 hdigits
  have htaken : cs.takeWhile continuesValue = cs := by
    refine List.takeWhile_eq_self_iff.2 fun d hd => ?_
    exact continuesValue_of_startsNumber (by simp [hcs d hd])
  obtain ⟨hblank, hvalue⟩ := startsValue_of_isDigit hc (cs ++ [])
  have hscan : Lexeme.scan? c (cs ++ []) = some ⟨.value, c :: cs, cs.length⟩ := by
    rw [scan?_of_startsValue hvalue, List.append_nil, htaken]
  have hsteps := Cursor.steps_of_scan hblank hscan (by decide) 0
  rw [List.append_nil, ← htext, String.ofList_toList] at hsteps
  rw [formsOf_of_steps hsteps, formsOf_nil]
  rfl

/-- The stage that the appended text denotes. -/
def saveStage (path : String) (factor : Nat) : Expr :=
  .command "save" [.literal path, .keyed "scale" (.literal (toString factor))]

/-- An expression with the appended text is a pipe into `save`. -/
theorem parse_savedAs {text : String} {e : Expr} (h : parse text = .ok e) (htext : LexesToEnd text)
    (path : String) (factor : Nat) :
    parse (savedAs text path factor) = .ok (e.pipe (saveStage path factor)) := by
  have hcharacters : (savedAs text path factor).toList =
      text.toList ++ ' ' :: '|' :: ' ' :: ("save".toList ++ ' ' ::
        ((quote path).toList ++ ' ' :: ("scale".toList ++ '=' :: (toString factor).toList))) := by
    simp [savedAs]
  have hblank : ∀ cs, Breaks (' ' :: cs) := breaks_cons (by decide) (by decide)
  have hequals : ∀ cs, Breaks ('=' :: cs) := breaks_cons (by decide) (by decide)
  have hsave : IsWord "save" := by decide +kernel
  have hscale : IsWord "scale" := by decide +kernel
  -- The tokens are those of the expression, a pipe, the command, its string and its keyword.
  have hargs : Grammar.ArgumentList ([.ofForm (.quoted, path)] ++
      ([.ofForm (.word, "scale"), .ofForm (.equals, "="), .ofForm (.value, toString factor)] ++ []))
      [.literal path, .keyed "scale" (.literal (toString factor))] :=
    .cons (.plain (.literal (.inr (.inr rfl))))
      (.cons (.keyed rfl rfl (.literal (.inr (.inl rfl)))) .nil)
  have hstage := Grammar.Atom.command (t := .ofForm (.word, "save")) rfl hargs
  have hphrase := (parse_eq_ok_iff.1 h).pipe (t := .ofForm (.pipe, "|")) rfl
    (.of_atom hstage .pipe)
  apply parse_of_forms _ hphrase
  rw [hcharacters, htext.formsOf_append (hblank _), formsOf_space, formsOf_sign rfl, formsOf_space,
    formsOf_word hsave (hblank _), formsOf_space, formsOf_quote, formsOf_space,
    formsOf_word hscale (hequals _), formsOf_sign rfl, formsOf_toString]
  simp

/-! ## Evaluating the stage -/

/-- The texts of the arguments of the stage. -/
def saveTexts (path : String) (factor : Nat) : List String := [path, "scale=" ++ toString factor]

/-- The stage calls `save` with its texts. -/
private theorem evaluate_saveStage (path : String) (factor : Nat) (image : Image) :
    (saveStage path factor).evaluate .builtins (some image) =
      invoke "save" (Command.save none) (saveTexts path factor) (some image) := by
  have hlookup : lookupCommand .builtins "save" = pure (Command.save none) := rfl
  rw [saveStage, Expr.evaluate, hlookup, pure_bind]
  simp only [Arg.resolveList, Arg.resolve, pure_bind]
  rfl

/-- What `save` reads from its texts. -/
theorem readSave_saveTexts {path : String} (hpath : '=' ∉ path.toList) {factor : Nat}
    (hfactor : factor < Text.wordLimit) :
    Command.readSave (Arguments.ofList (saveTexts path factor)) = .ok (⟨path⟩, max factor 1) := by
  -- Neither the path nor the keyword's name has an equals sign, so the words can be told apart
  -- again.
  have hseparable : ∀ p ∈ [Passed.mk none path, ⟨some "scale", toString factor⟩],
      p.Separable := by
    have hscale : "scale".toList ≠ [] ∧ '=' ∉ "scale".toList := by decide
    exact List.forall_mem_cons.2 ⟨hpath, List.forall_mem_singleton.2 hscale⟩
  have htexts : saveTexts path factor =
      [Passed.mk none path, ⟨some "scale", toString factor⟩].map Passed.text := rfl
  have hpath : (Arguments.ofList (saveTexts path factor)).require 0 "path" = .ok path := by
    have hpositional := Passed.positional?_ofList hseparable 0
    rw [Arguments.require, htexts, hpositional]
    rfl
  have hfactor : (Arguments.ofList (saveTexts path factor)).keywordWord "scale" 1 =
      .ok factor := by
    have hkeyword := Passed.keyword?_ofList hseparable "scale"
    have hword : wordOfText (toString factor) "scale" = .ok factor := by
      rw [wordOfText_toString, if_pos hfactor]
    rw [Arguments.keywordWord, htexts, hkeyword]
    exact hword
  rw [Command.readSave, hpath, hfactor]
  rfl

/-! ## What a run leaves -/

/-- Whether a run succeeds, and the files that it leaves. -/
def leaves {α : Type} : Except Failure α × Workspace → Bool × Workspace
  | (.ok _, files) => (true, files)
  | (.error _, files) => (false, files)

/-- The same when the image is written to a file at the end. -/
def leavesSaved (path : PathName) (factor : Nat) :
    Except Failure Image × Workspace → Bool × Workspace
  | (.ok image, files) =>
    match Command.writePicture image path factor files with
    | .ok () files => (true, files)
    | .error _ files => (false, files)
  | (.error _, files) => (false, files)

/-- With the stage behind it, an expression leaves what it leaves alone, and then the file. -/
theorem leaves_run_savedAs {text : String} {e : Expr} (h : parse text = .ok e)
    (htext : LexesToEnd text) {path : String} (hpath : '=' ∉ path.toList) {factor : Nat}
    (hfactor : factor < Text.wordLimit) (seed : Option Image) (files : Workspace) :
    leaves (run .builtins (savedAs text path factor) seed files) =
      leavesSaved ⟨path⟩ (max factor 1) (run .builtins text seed files) := by
  -- What a text denotes has a stage, so the appended one gets an image from it.
  have hstages : e ≠ .pipeline [] := by
    rintro rfl
    exact absurd (wellFormed_of_parse h).1 (by decide)
  rw [run_of_parse (parse_savedAs h htext path factor), run_of_parse h]
  have hevaluate := Expr.evaluate_pipe_eq_bind .builtins hstages (saveStage path factor) seed
  simp only [evaluate_saveStage] at hevaluate
  rw [hevaluate]
  cases hresult : e.evaluate .builtins seed (.fresh files) with
  | error error c =>
    rw [bind_error hresult]
    rfl
  | ok image c =>
    rw [bind_ok hresult, invoke]
    simp only [Command.save, requireInput, readSave_saveTexts hpath hfactor, Command.placeUnder,
      leavesSaved]
    cases Command.writePicture image ⟨path⟩ (max factor 1) c.files with
    | ok u files => rfl
    | error error files => rfl

namespace Program

/-- Whether a step of the program succeeds, and the files that it leaves. -/
def effect {α : Type} : EStateM.Result Failure Transcript α → Bool × Workspace
  | .ok _ t => (true, t.files)
  | .error _ t => (false, t.files)

/-- A step that always succeeds and keeps the files can be left out at the end. -/
private theorem effect_bind_of_keeps {α β : Type} {f : α → ProgramM β}
    (hf : ∀ a t, effect (f a t) = (true, t.files)) (m : ProgramM α) (t : Transcript) :
    effect ((m >>= f) t) = effect (m t) := by
  cases hm : m t with
  | ok a t' =>
    rw [bind_ok hm]
    exact hf a t'
  | error e t' =>
    rw [bind_error hm]
    rfl

/-- Writing an image has the effect on the files that it has on its own. -/
private theorem effect_writeImage (image : Image) (path : PathName) (factor : Nat)
    (t : Transcript) :
    effect (writeImage image path factor t) = leavesSaved path factor (.ok image, t.files) := by
  rw [writeImage, leavesSaved]
  cases Command.writePicture image path factor t.files with
  | ok u files => rfl
  | error e files => rfl

variable (terminal : Terminal) (options : SeedOptions) (t : Transcript)

/-- Without a manifest to start from nothing is evaluated. -/
private theorem effect_render_of_error {e : Failure} (h : manifestFor options t.files = .error e)
    (expr : String) (output : Option PathName) (scale : Nat) :
    effect (render terminal expr output options scale t) = (false, t.files) := by
  have hmanifest := seededManifest_eq t options
  rw [h, ofExcept_error] at hmanifest
  rw [render, bind_error hmanifest]
  rfl

/-- The expression is evaluated on the files as they are. -/
private theorem effect_render_of_ok {m : Manifest} (h : manifestFor options t.files = .ok m)
    (expr : String) (scale : Nat) :
    effect (render terminal expr none options scale t) =
        leaves (Tapestry.run .builtins expr m.seedImage t.files) ∧
      ∀ path, effect (render terminal expr (some path) options scale t) =
        leavesSaved path (max scale 1) (Tapestry.run .builtins expr m.seedImage t.files) := by
  have hmanifest := seededManifest_eq t options
  rw [h, ofExcept_ok] at hmanifest
  constructor
  · rw [render, bind_ok hmanifest, say, bind_ok (notify_eq t _), bind_ok (attempt_eq _ _ _ _)]
    generalize Tapestry.run .builtins expr m.seedImage t.files = result
    obtain ⟨_ | image, files⟩ := result
    · rfl
    · rfl
  · intro path
    rw [render, bind_ok hmanifest, say, bind_ok (notify_eq t _), bind_ok (attempt_eq _ _ _ _)]
    generalize Tapestry.run .builtins expr m.seedImage t.files = result
    obtain ⟨_ | image, files⟩ := result
    · rfl
    · -- What is shown at the end leaves the files alone.
      rw [bind_ok (ofExcept_ok _ image)]
      exact (effect_bind_of_keeps (fun _ _ => rfl) _ _).trans (effect_writeImage image path _ _)

/-- The result and the files of a run are those of its only step. -/
private theorem run_eq_effect (input : List Answer) (files : Workspace) (request : Request) :
    ((run terminal input files request).2.files =
        (effect (perform terminal input request ⟨files, "", []⟩)).2) ∧
      ((run terminal input files request).1 = .ok () ↔
        (effect (perform terminal input request ⟨files, "", []⟩)).1 = true) := by
  rw [run]
  cases perform terminal input request ⟨files, "", []⟩ with
  | ok u t => exact ⟨rfl, fun _ => rfl, fun _ => rfl⟩
  | error e t => exact ⟨rfl, nofun, nofun⟩

end Program

/-- Let a text denote an expression and be lexed to its end with every string closed, let a path
    name have no equals sign in it, and let a factor be below 2 ^ 32. Whatever the files, the
    manifest among them and the options are, to render the text into the file of this name at this
    factor leaves the same files as to render the text with `save` behind it, and one of the two
    succeeds exactly when the other does. -/
theorem render_savedAs {text : String} {e : Expr} (h : parse text = .ok e)
    (htext : LexesToEnd text) {path : String} (hpath : '=' ∉ path.toList) {factor : Nat}
    (hfactor : factor < Text.wordLimit) (terminal : Terminal) (input : List Program.Answer)
    (files : Workspace) (options : SeedOptions) (scale : Nat) :
    (Program.run terminal input files (.render text (some ⟨path⟩) options factor)).2.files =
        (Program.run terminal input files
          (.render (savedAs text path factor) none options scale)).2.files ∧
      ((Program.run terminal input files (.render text (some ⟨path⟩) options factor)).1 =
          .ok () ↔
        (Program.run terminal input files
          (.render (savedAs text path factor) none options scale)).1 = .ok ()) := by
  have hsame : Program.effect
        (Program.render terminal text (some ⟨path⟩) options factor ⟨files, "", []⟩) =
      Program.effect
        (Program.render terminal (savedAs text path factor) none options scale
          ⟨files, "", []⟩) := by
    -- A manifest that cannot be read ends both runs in the same way, before anything is evaluated.
    cases hmanifest : Program.manifestFor options (Transcript.mk files "" []).files with
    | error e =>
      have hfails := Program.effect_render_of_error terminal options _ hmanifest
      rw [hfails, hfails]
    | ok m =>
      have hrender := Program.effect_render_of_ok terminal options _ hmanifest
      rw [(hrender text factor).2, (hrender _ scale).1, leaves_run_savedAs h htext hpath hfactor]
  obtain ⟨hfiles, hresult⟩ := Program.run_eq_effect terminal input files
    (.render text (some ⟨path⟩) options factor)
  obtain ⟨hfiles', hresult'⟩ := Program.run_eq_effect terminal input files
    (.render (savedAs text path factor) none options scale)
  rw [hfiles, hfiles', hresult, hresult']
  simp only [Program.perform, hsame, and_self]

/-- A file below a directory that does not exist, at twice the size. -/
theorem render_savedAs_nested :
    parse "null" = .ok (.command "null" []) ∧ LexesToEnd "null" ∧ '=' ∉ "a b/c.png".toList ∧
      2 < Text.wordLimit ∧
      (Program.run ⟨false⟩ [] ⟨[], []⟩
          (.render "null" (some ⟨"a b/c.png"⟩) ⟨some "1x1", false⟩ 2)).2.files =
        (Program.run ⟨false⟩ [] ⟨[], []⟩
          (.render (savedAs "null" "a b/c.png" 2) none ⟨some "1x1", false⟩ 1)).2.files := by
  have hnull : IsWord "null" := by decide +kernel
  have hparse : parse "null" = .ok (.command "null" []) := by
    have hrender : (Expr.command "null" []).render = "null" := by decide +kernel
    have hread := Expr.parse_render_eq (e := .command "null" []) ⟨hnull, trivial⟩
    rwa [hrender] at hread
  have hlexed : LexesToEnd "null" := by decide +kernel
  have hpath : '=' ∉ "a b/c.png".toList := by decide
  have hfactor : 2 < Text.wordLimit := by decide
  have hsame := render_savedAs hparse hlexed hpath hfactor ⟨false⟩ [] ⟨[], []⟩ ⟨some "1x1", false⟩ 1
  exact ⟨hparse, hlexed, hpath, hfactor, hsame.1⟩

end Tapestry
