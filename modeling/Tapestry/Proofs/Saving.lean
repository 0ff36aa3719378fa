import Tapestry.Proofs.Filling
import Tapestry.Proofs.Pixelwise

/-!
# What saving changes

`save` passes its input on and stores its picture where the path name leads, behind the directories
above it. When it fails, no file has changed: what is wrong with the arguments is found before
anything is stored, and the picture comes last.

## Key results

- `upscales_of_enlarge`: the picture shows every pixel of the input as a square
- `exists_fills_save`: what is stored belongs to the file
- `save_frame`: what becomes of the input and of the files
-/

namespace Tapestry.Command

open Workspace

/-! ## The picture -/

/-- Whether a picture shows every pixel of an image as a square with sides of this length. -/
structure Upscales (image : Image) (factor : Nat) (picture : Image) : Prop where
  width_eq : picture.width = factor * image.width
  height_eq : picture.height = factor * image.height
  pixel_eq : ∀ x y, picture.Inside x y →
    picture.pixel x y = image.pixel (x / factor) (y / factor)

/-- Zooming repeats each pixel in a square. -/
private theorem upscales_zoom (image : Image) (factor : Nat) :
    Upscales image factor ((Geometry.zoom factor).apply image) where
  width_eq := Nat.mul_comm image.width factor
  height_eq := Nat.mul_comm image.height factor
  pixel_eq _ _ h := Image.pixel_resample image h.1 h.2

/-- Enlarging by a positive factor gives such a picture. -/
theorem upscales_of_enlarge {image picture : Image} {factor : Nat} (hfactor : 0 < factor)
    (h : enlarge image factor = .ok picture) : Upscales image factor picture := by
  have hzoom := upscales_zoom image factor
  unfold enlarge at h
  split at h
  · next hle =>
    obtain rfl : factor = 1 := by omega
    cases h
    rwa [Geometry.apply_zoom_one] at hzoom
  · split at h
    · cases h
    · cases h
      exact hzoom

/-- A picture of an image in range is stored as it is. -/
theorem Upscales.fault?_eq_none {image picture : Image} {factor : Nat} (hfactor : 0 < factor)
    (himage : image.InRange) (h : Upscales image factor picture) :
    Png.fault? picture = none := by
  rw [Png.fault?_eq_none, h.width_eq, h.height_eq]
  exact ⟨Nat.mul_pos hfactor himage.1.1, Nat.mul_pos hfactor himage.2.1⟩

/-! ## The arguments -/

variable {args : Arguments} {path : PathName} {factor : Nat}

/-- A required argument is the positional one at its place, or missing. -/
private theorem require_cases (args : Arguments) (index : Nat) (what : String) :
    (∃ text, args.positional? index = some text ∧ args.require index what = .ok text) ∨
      args.require index what = .error (.fault (.missing what index)) := by
  unfold Arguments.require
  cases args.positional? index with
  | none => exact .inr rfl
  | some text => exact .inl ⟨text, rfl, rfl⟩

/-- A keyword's number can be read, or its text is no number. -/
private theorem keywordWord_cases (args : Arguments) (key : String) (default : Nat) :
    (∃ n, args.keywordWord key default = .ok n) ∨
      ∃ text, args.keywordWord key default = .error (.fault (.notAnInteger key text)) := by
  unfold Arguments.keywordWord wordOfText
  split
  · split
    · exact .inl ⟨_, rfl⟩
    · exact .inr ⟨_, rfl⟩
  · exact .inl ⟨_, rfl⟩

/-- A save names a path and a factor of at least one. -/
private theorem readSave_eq_ok (h : readSave args = .ok (path, factor)) :
    ∃ n, args.positional? 0 = some path.text ∧ args.keywordWord "scale" 1 = .ok n ∧
      factor = max n 1 := by
  obtain ⟨text, htext, h⟩ := Except.bind_eq_ok.1 h
  obtain ⟨n, hn, h⟩ := Except.bind_eq_ok.1 h
  cases h
  rcases require_cases args 0 "path" with ⟨_, hpath, hrequire⟩ | hmissing
  · cases hrequire.symm.trans htext
    exact ⟨n, hpath, hn, rfl⟩
  · exact nomatch hmissing.symm.trans htext

/-- What can be wrong with the arguments are faults. -/
private theorem exists_fault_of_readSave {e : EvalError} (h : readSave args = .error e) :
    ∃ fault, e = .fault fault := by
  rcases Except.bind_eq_error.1 h with hpath | ⟨_, -, h⟩
  · rcases require_cases args 0 "path" with ⟨_, -, hrequire⟩ | hmissing
    · exact nomatch hrequire.symm.trans hpath
    · cases hmissing.symm.trans hpath
      exact ⟨_, rfl⟩
  · rcases Except.bind_eq_error.1 h with hscale | ⟨_, -, h⟩
    · rcases keywordWord_cases args "scale" 1 with ⟨_, hn⟩ | ⟨_, hfault⟩
      · exact nomatch hn.symm.trans hscale
      · cases hfault.symm.trans hscale
        exact ⟨_, rfl⟩
    · exact nomatch h

/-! ## Saving -/

/-- Whether a location holds what it held, or a new directory that a path name above another one
    leads to. -/
def SameOrMade (files : Workspace) (path : PathName) (after : Workspace) (m : Location) : Prop :=
  after.entryAt m = files.entryAt m ∨
    (files.entryAt m = none ∧ after.entryAt m = some .directory ∧ after.LeadsAbove path m)

/-- So it is with every location where nothing but such directories is stored. -/
private theorem sameOrMade_of_fills {files after : Workspace} {path : PathName} {m : Location}
    {puts : List (Location × Entry)} (h : files.Fills puts after)
    (hputs : ∀ put ∈ puts, put.1 = m → put.2 = .directory ∧ after.LeadsAbove path put.1) :
    SameOrMade files path after m := by
  rcases h.entryAt_cases fun put hput hm => (hputs put hput hm).1 with hsame | hmade
  · exact .inl hsame
  · exact .inr ⟨hmade.1, hmade.2.1, (hputs _ hmade.2.2 rfl).2⟩

/-- The state that a result leaves. -/
def stateAfter {ε σ α : Type} : EStateM.Result ε σ α → σ
  | .ok _ s | .error _ s => s

/-- What writing an image stores belongs to the file, also when it fails. -/
private theorem Writing.fills {image : Image} {files : Workspace} {puts : List (Location × Entry)}
    {r : EStateM.Result EvalError Workspace Unit} (h : Writing image path factor files puts r) :
    files.Fills puts (stateAfter r) ∧ ∀ put ∈ puts, (stateAfter r).StoredFor path put := by
  have habove {after : Workspace} {put : Location × Entry} (hentry : put.2 = .directory)
      (hleads : after.LeadsAbove path put.1) : after.StoredFor path put := by
    obtain ⟨l, e⟩ := put
    obtain rfl : e = .directory := hentry
    exact .above hleads
  cases h with
  | refused _ => exact ⟨.nil, nofun⟩
  | blocked hfills hputs =>
    exact ⟨hfills, fun put hput => habove (hputs put hput).1 (hputs put hput).2⟩
  | @written puts after l picture henlarge hfills hputs hfind =>
    have hstored : ∀ put ∈ puts ++ [(l, .file (contentFor picture))],
        after.StoredFor path put := by
      intro put hput
      rcases List.mem_append.1 hput with hput | hput
      · exact habove (hputs put hput).1 (hputs put hput).2
      · rw [List.mem_singleton.1 hput]
        exact .file hfind
    -- The file is stored even if it is only an end mark.
    cases Png.fault? picture with
    | none => exact ⟨hfills, hstored⟩
    | some fault => exact ⟨hfills, hstored⟩

/-- Whatever becomes of it, all that `save` stores belongs to the file that its path name is for. -/
theorem exists_fills_save (base : Option PathName) (call : Call) (files : Workspace) :
    ∃ puts, files.Fills puts (stateAfter (save base call files)) ∧ ∀ put ∈ puts,
      ∃ text, (Arguments.ofList call.args).positional? 0 = some text ∧
        (stateAfter (save base call files)).StoredFor (placeUnder base ⟨text⟩) put := by
  unfold save
  cases requireInput call.input with
  | error e => exact ⟨[], .nil, nofun⟩
  -- Without an input or readable words nothing is written at all.
  | ok image =>
    cases hread : readSave (Arguments.ofList call.args) with
    | error e => exact ⟨[], .nil, nofun⟩
    | ok target =>
      obtain ⟨path, factor⟩ := target
      obtain ⟨n, hpath, -, -⟩ := readSave_eq_ok hread
      obtain ⟨puts, hwriting⟩ := exists_writing image (placeUnder base path) factor files
      obtain ⟨hfills, hputs⟩ := hwriting.fills
      simp only
      generalize writePicture image (placeUnder base path) factor files = r at hfills hputs
      refine ⟨puts, ?_, fun put hput => ⟨path.text, hpath, ?_⟩⟩
      · cases r <;> exact hfills
      · cases r <;> exact hputs put hput

/-- Let a command `save`, with or without a directory for its relative path names, be called with
    any texts, on any files, and with an input in range if any. It either passes its input on: then
    the file that the path name leads to holds the input, with every pixel as a square whose side is
    the given factor, or 1 for the factor 0; it took the place of nothing or of a file; and any
    other location holds what it held, or it held nothing and is a directory above the file. Or it
    fails: without an input or with wrong arguments all files are as before, and when the file
    cannot be written, only directories above it are new. -/
theorem save_frame (base : Option PathName) (call : Call) (files : Workspace)
    (hinput : ∀ image ∈ call.input, image.InRange) :
    match save base call files with
    | .ok image after =>
      call.input = some image ∧ ∃ text n picture l,
        (Arguments.ofList call.args).positional? 0 = some text ∧
        (Arguments.ofList call.args).keywordWord "scale" 1 = .ok n ∧
        after.find (placeUnder base ⟨text⟩) = .ok (l, .file (.picture picture)) ∧
        Upscales image (max n 1) picture ∧
        files.entryAt l ≠ some .directory ∧
        after.current = files.current ∧
        ∀ m, m ≠ l → SameOrMade files (placeUnder base ⟨text⟩) after m
    | .error (.missingInput _) after | .error (.badArgument _ _) after => after = files
    | .error (.writeFailed _ path _) after =>
      ∃ text, (Arguments.ofList call.args).positional? 0 = some text ∧
        path = (placeUnder base ⟨text⟩).text ∧
        after.current = files.current ∧
        ∀ m, SameOrMade files (placeUnder base ⟨text⟩) after m
    | .error _ _ => False := by
  unfold save
  cases himage : call.input with
  | none => rfl
  | some image =>
    have hrange : image.InRange := hinput image himage
    simp only [requireInput]
    cases hread : readSave (Arguments.ofList call.args) with
    | error e =>
      obtain ⟨fault, rfl⟩ := exists_fault_of_readSave hread
      rfl
    | ok target =>
      obtain ⟨path, factor⟩ := target
      obtain ⟨n, hpath, hscale, rfl⟩ := readSave_eq_ok hread
      have hfactor : 0 < max n 1 := by omega
      obtain ⟨puts, hwriting⟩ := exists_writing image (placeUnder base path) (max n 1) files
      simp only
      generalize writePicture image (placeUnder base path) (max n 1) files = r at hwriting
      cases hwriting with
      | refused _ => rfl
      | blocked hfills hputs =>
        exact ⟨path.text, hpath, rfl, hfills.current_eq, fun m =>
          sameOrMade_of_fills hfills fun put hput _ => hputs put hput⟩
      | @written puts after l picture henlarge hfills hputs hfind =>
        have hupscales := upscales_of_enlarge hfactor henlarge
        -- An image in range has pixels, so its picture is what is stored, and nothing fails.
        have hfault := hupscales.fault?_eq_none hfactor hrange
        have hcontent : contentFor picture = .picture picture := by rw [contentFor, hfault]
        rw [hcontent] at hfills hfind
        rw [hfault]
        refine ⟨rfl, path.text, n, picture, l, hpath, hscale, hfind, hupscales,
          fun hdirectory => ?_, hfills.current_eq,
          fun m hm => sameOrMade_of_fills hfills fun put hput hputm => ?_⟩
        · -- A directory would still be there.
          have hentry := (find_eq_ok.1 hfind).2
          rw [hfills.entryAt_directory hdirectory] at hentry
          cases hentry
        · rcases List.mem_append.1 hput with hput | hput
          · exact hputs put hput
          · rw [List.mem_singleton.1 hput] at hputm
            exact absurd hputm.symm hm

/-- A picture below a directory that is missing, at twice the size of its input. -/
theorem save_frame_nested :
    ∃ after picture l,
      save (some ⟨"dist"⟩) ⟨["a/b.png", "scale=2"], some (.blank 1 1), .empty⟩ ⟨[], []⟩ =
        .ok (.blank 1 1) after ∧
      after.find ⟨"dist/a/b.png"⟩ = .ok (l, .file (.picture picture)) ∧
      Upscales (.blank 1 1) 2 picture ∧
      ∀ m, m ≠ l → SameOrMade ⟨[], []⟩ ⟨"dist/a/b.png"⟩ after m := by
  have hframe := save_frame (some ⟨"dist"⟩)
    ⟨["a/b.png", "scale=2"], some (.blank 1 1), .empty⟩ ⟨[], []⟩
    (by rintro _ ⟨⟩; decide)
  have hsaves : (value? (save (some ⟨"dist"⟩)
      ⟨["a/b.png", "scale=2"], some (.blank 1 1), .empty⟩ ⟨[], []⟩)).isSome := by
    decide +kernel
  have hpath : (Arguments.ofList ["a/b.png", "scale=2"]).positional? 0 = some "a/b.png" := by
    decide +kernel
  have hscale : (Arguments.ofList ["a/b.png", "scale=2"]).keywordWord "scale" 1 = .ok 2 := by
    decide +kernel
  generalize save (some ⟨"dist"⟩) ⟨["a/b.png", "scale=2"], some (.blank 1 1), .empty⟩ ⟨[], []⟩ = r
    at hframe hsaves
  cases r with
  | error e after => exact absurd hsaves (by simp [value?])
  | ok image after =>
    obtain ⟨hinput, text, n, picture, l, htext, hn, hfind, hupscales, -, -, hsame⟩ := hframe
    obtain rfl : text = "a/b.png" := Option.some.inj (htext.symm.trans hpath)
    obtain rfl : n = 2 := Except.ok.inj (hn.symm.trans hscale)
    cases hinput
    exact ⟨after, picture, l, rfl, hfind, hupscales, hsame⟩

end Tapestry.Command
