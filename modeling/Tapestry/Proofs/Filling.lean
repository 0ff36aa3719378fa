import Tapestry.Command.Save
import Tapestry.Proofs.PathSegments

/-!
# Filling a workspace

Making directories and writing files store entries one after the other, and never in place of a
directory: a directory is made where nothing is, and a file is written where nothing or a file is.
`Fills` lists the entries that are stored on the way from one workspace to another. What is a
directory stays one, so path names lead where they led before, and what is stored can be described
by the workspace at the end.

## Key results

- `Fills.entryAt_cases`: what is at a location where no file is stored
- `Fills.follow`: steps lead where they led before
- `fills_makeParents`: directories are made where the path names above a file lead
- `exists_writing`: what can become of writing an image, with the entries that are stored
-/

namespace Tapestry

namespace Workspace

/-- Whether an entry may be stored where something is, or nothing. -/
inductive Admits : Option Entry → Entry → Prop
  | new (e) : Admits none e
  | over (old content) : Admits (some (.file old)) (.file content)

/-- The entries that are stored one after the other on the way from one workspace to another. -/
inductive Fills : Workspace → List (Location × Entry) → Workspace → Prop
  | nil {w} : Fills w [] w
  | cons {w w' l e puts} (h : Admits (w.entryAt l) e) (h' : Fills (w.put l e) puts w') :
    Fills w ((l, e) :: puts) w'

section Fills

variable {w w' w'' : Workspace} {puts more : List (Location × Entry)} {l m : Location} {e : Entry}

/-- The root is a directory, so nothing is stored there. -/
theorem Admits.ne_root (h : Admits (w.entryAt l) e) : l ≠ [] := by
  rintro rfl
  rw [entryAt, if_pos rfl] at h
  cases h

/-- Where an entry is admitted, adding it is one step. -/
theorem Fills.single (h : Admits (w.entryAt l) e) : w.Fills [(l, e)] (w.put l e) :=
  .cons h .nil

/-- Entries that are added behind others are added to those. -/
theorem Fills.append (h : w.Fills puts w') (h' : w'.Fills more w'') :
    w.Fills (puts ++ more) w'' := by
  induction h with
  | nil => exact h'
  | cons hadmits _ ih => exact .cons hadmits (ih h')

/-- Adding entries changes no working directory. -/
theorem Fills.current_eq (h : w.Fills puts w') : w'.current = w.current := by
  induction h with
  | nil => rfl
  | cons _ _ ih => exact ih

/-- What is a directory stays one. -/
theorem Fills.entryAt_directory (h : w.Fills puts w') (hl : w.entryAt l = some .directory) :
    w'.entryAt l = some .directory := by
  induction h with
  | nil => exact hl
  | @cons w w' m e puts hadmits _ ih =>
    apply ih
    rw [entryAt_put hadmits.ne_root]
    split
    · next heq =>
      -- Nothing is stored in place of a directory.
      rw [heq] at hl
      rw [hl] at hadmits
      cases hadmits
    · exact hl

/-- A location where nothing but directories is stored holds what it held, or a new directory. -/
theorem Fills.entryAt_cases (h : w.Fills puts w')
    (hputs : ∀ put ∈ puts, put.1 = l → put.2 = .directory) :
    w'.entryAt l = w.entryAt l ∨
      (w.entryAt l = none ∧ w'.entryAt l = some .directory ∧ (l, .directory) ∈ puts) := by
  -- The induction is on the entries, of which the first one is stored.
  induction h with
  | nil => exact .inl rfl
  | @cons w w' m e puts hadmits hfills ih =>
    obtain ⟨hm, hrest⟩ := List.forall_mem_cons.1 hputs
    have hput := @entryAt_put w m l e hadmits.ne_root
    by_cases hl : l = m
    · -- The first entry is a directory here, which only comes where nothing was, and stays.
      subst hl
      obtain rfl : e = .directory := hm rfl
      rw [if_pos rfl] at hput
      generalize w.entryAt l = old at hadmits
      cases hadmits
      exact .inr ⟨rfl, hfills.entryAt_directory hput, List.mem_cons_self⟩
    -- Elsewhere the first entry changes nothing, and the others decide.
    · rw [if_neg hl] at hput
      rcases ih hrest with hsame | ⟨hnone, hmade, hmem⟩
      · exact .inl (hsame.trans hput)
      · exact .inr ⟨hput.symm.trans hnone, hmade, List.mem_cons_of_mem _ hmem⟩

/-- A location where nothing is stored holds what it held. -/
theorem Fills.entryAt_eq (h : w.Fills puts w') (hl : ∀ put ∈ puts, put.1 ≠ l) :
    w'.entryAt l = w.entryAt l := by
  rcases h.entryAt_cases fun put hput heq => absurd heq (hl put hput) with hsame | hmade
  · exact hsame
  · exact absurd rfl (hl _ hmade.2.2)

/-! ## Following path names -/

/-- A step that leads somewhere still leads there after entries were added, since no directory is
    replaced. -/
theorem Fills.step (h : w.Fills puts w') {segment : String} (hstep : w.step l segment = .ok m) :
    w'.step l segment = .ok m := by
  unfold Workspace.step at hstep ⊢
  split at hstep
  · cases hstep
  · cases hstep
  · next hl =>
    rw [h.entryAt_directory hl]
    exact hstep

/-- Steps lead where they led before. -/
theorem Fills.follow (h : w.Fills puts w') {segments : List String}
    (hfollow : w.follow l segments = .ok m) : w'.follow l segments = .ok m := by
  induction segments generalizing l with
  | nil => exact hfollow
  | cons s ss ih =>
    unfold Workspace.follow at hfollow ⊢
    split at hfollow
    · cases hfollow
    · next hstep =>
      rw [h.step hstep]
      exact ih hfollow

/-- A path name starts where it started before. -/
theorem Fills.startOf_eq (h : w.Fills puts w') (p : PathName) : w'.startOf p = w.startOf p := by
  rw [startOf, startOf, h.current_eq]

/-- A path name that leads somewhere still leads there after entries were added. -/
theorem Fills.locate (h : w.Fills puts w') {p : PathName} (hp : w.locate p = .ok l) :
    w'.locate p = .ok l := by
  unfold Workspace.locate at hp ⊢
  split at hp
  · cases hp
  · next hfault =>
    rw [h.startOf_eq]
    exact h.follow hp

end Fills

/-! ## Making directories -/

/-- Whether a path name that is above another one leads to a location. -/
def LeadsAbove (w : Workspace) (path : PathName) (l : Location) : Prop :=
  ∃ a : PathName, a.Above path ∧ a.text ≠ "" ∧ w.locate a = .ok l

/-- Directories are made where some path names lead, and nothing else. -/
def Makes (w : Workspace) (ps : List PathName) (w' : Workspace) : Prop :=
  ∃ puts, w.Fills puts w' ∧
    ∀ put ∈ puts, put.2 = .directory ∧ ∃ p ∈ ps, w'.locate p = .ok put.1

section Makes

variable {w w' w'' : Workspace} {ps qs : List PathName}

/-- No directory at all needs to be made. -/
theorem Makes.refl (w : Workspace) (ps : List PathName) : w.Makes ps w := ⟨[], .nil, nofun⟩

/-- Directories that are made behind others are made with them. -/
theorem Makes.trans (h : w.Makes ps w') (h' : w'.Makes ps w'') : w.Makes ps w'' := by
  obtain ⟨puts, hfills, hputs⟩ := h
  obtain ⟨more, hfills', hmore⟩ := h'
  refine ⟨puts ++ more, hfills.append hfills', fun put hput => ?_⟩
  rcases List.mem_append.1 hput with hput | hput
  · obtain ⟨hentry, p, hp, hlocate⟩ := hputs put hput
    exact ⟨hentry, p, hp, hfills'.locate hlocate⟩
  · exact hmore put hput

/-- Making directories of some names is making directories of more names. -/
theorem Makes.mono (h : w.Makes ps w') (hsub : ∀ p ∈ ps, p ∈ qs) : w.Makes qs w' := by
  obtain ⟨puts, hfills, hputs⟩ := h
  refine ⟨puts, hfills, fun put hput => ?_⟩
  obtain ⟨hentry, p, hp, hlocate⟩ := hputs put hput
  exact ⟨hentry, p, hsub p hp, hlocate⟩

/-- A directory that was made has one of the names. -/
private theorem makes_makeDirectory {p : PathName} (hp : p ∈ ps) (h : w.makeDirectory p = .ok w') :
    w.Makes ps w' := by
  unfold makeDirectory at h
  split at h
  · cases h
  · next l hlocate =>
    split at h
    · cases h
    -- Nothing was there, so the directory is admitted.
    · next hnone =>
      cases h
      have hfills : w.Fills [(l, .directory)] (w.put l .directory) := .single (hnone ▸ .new _)
      refine ⟨_, hfills, List.forall_mem_singleton.2 ⟨rfl, p, hp, hfills.locate hlocate⟩⟩

/-- Whether or not it succeeds, making the first of some directories only makes some of them. -/
private theorem makes_makeFirst (w : Workspace) (ps : List PathName) :
    w.Makes ps (w.makeFirst ps).2 := by
  induction ps generalizing w with
  -- The names are listed from the innermost directory to the outermost one.
  | nil => exact .refl w []
  | cons p outer ih =>
    have houter := (ih w).mono fun q hq => List.mem_cons_of_mem p hq
    unfold makeFirst
    split
    · next hmade => exact makes_makeDirectory List.mem_cons_self hmade
    · -- The directories above come first, and then this one is tried again.
      generalize w.makeFirst outer = made at houter
      obtain ⟨result, w'⟩ := made
      cases result with
      | error e => exact houter
      | ok u =>
        simp only
        split
        · next hmade => exact houter.trans (makes_makeDirectory List.mem_cons_self hmade)
        · exact houter
    · exact .refl w _

end Makes

/-- What is stored on the way to writing a file: directories where path names above that of the file
    lead, and the file itself. -/
inductive StoredFor (w : Workspace) (path : PathName) : Location × Entry → Prop
  | above {l} (h : w.LeadsAbove path l) : StoredFor w path (l, .directory)
  | file {l content} (h : w.find path = .ok (l, .file content)) :
    StoredFor w path (l, .file content)

/-- Making the directories above a file stores directories where path names above it lead. -/
theorem fills_makeParents (w : Workspace) (path : PathName) :
    ∃ puts, w.Fills puts (Command.makeParents w path).2 ∧ ∀ put ∈ puts,
      put.2 = .directory ∧ (Command.makeParents w path).2.LeadsAbove path put.1 := by
  unfold Command.makeParents
  split
  · next parent hparent =>
    unfold makeDirectories
    split
    · exact ⟨[], .nil, nofun⟩
    · next hne =>
      -- Directories are made for the names in the ancestry of the parent only.
      obtain ⟨puts, hfills, hputs⟩ := makes_makeFirst w (ancestry parent)
      refine ⟨puts, hfills, fun put hput => ?_⟩
      obtain ⟨hentry, a, ha, hlocate⟩ := hputs put hput
      obtain ⟨htext, habove⟩ := PathName.mem_ancestry hne ha
      refine ⟨hentry, a, ?_, htext, hlocate⟩
      -- Each of those names is the parent or above it.
      rcases habove with rfl | habove
      · exact .single hparent
      · exact .head hparent habove
  · exact ⟨[], .nil, nofun⟩

/-- Writing a file stores it where its path name leads, over nothing or over a file. -/
private theorem exists_of_writeFile {w w' : Workspace} {p : PathName} {content : FileContent}
    (h : w.writeFile p content = .ok w') :
    ∃ l, w.Fills [(l, .file content)] w' ∧ w'.find p = .ok (l, .file content) := by
  unfold writeFile at h
  split at h
  · cases h
  · next l htarget =>
    cases h
    -- A target is found like any other path name, once a slash at its end is ruled out.
    have hlocate : w.locate p = .ok l ∧ w.entryAt l ≠ some .directory := by
      unfold locateTarget at htarget
      unfold locate
      split at htarget
      · cases htarget
      · split at htarget
        · split at htarget <;> cases htarget
        · split at htarget
          · cases htarget
          · next hfollow =>
            split at htarget
            · cases htarget
            · next hentry =>
              cases htarget
              exact ⟨hfollow, hentry⟩
    have hadmits : Admits (w.entryAt l) (.file content) := by
      cases hentry : w.entryAt l with
      | none => exact .new _
      | some e =>
        cases e with
        | directory => exact absurd hentry hlocate.2
        | file old => exact .over old content
    have hfills := Fills.single hadmits
    refine ⟨l, hfills, ?_⟩
    rw [find, hfills.locate hlocate.1]
    simp only
    rw [entryAt_put hadmits.ne_root, if_pos rfl]

end Workspace

/-! ## Writing an image -/

namespace Command

open Workspace

/-- What can become of writing an image, with the entries that are stored. Nothing is when the image
    cannot be enlarged. Otherwise the directories above the file come first; what then stands in the
    way leaves only them, and else the file comes last. -/
inductive Writing (image : Image) (path : PathName) (factor : Nat) (files : Workspace) :
    List (Location × Entry) → EStateM.Result EvalError Workspace Unit → Prop
  | refused {fault} (h : enlarge image factor = .error (.fault fault)) :
    Writing image path factor files [] (.error (.fault fault) files)
  | blocked {puts after reason} (h : files.Fills puts after)
      (hputs : ∀ put ∈ puts, put.2 = .directory ∧ after.LeadsAbove path put.1) :
    Writing image path factor files puts (.error (.writeFailed "" path.text reason) after)
  | written {puts after l picture} (henlarge : enlarge image factor = .ok picture)
      (h : files.Fills (puts ++ [(l, .file (contentFor picture))]) after)
      (hputs : ∀ put ∈ puts, put.2 = .directory ∧ after.LeadsAbove path put.1)
      (hfind : after.find path = .ok (l, .file (contentFor picture))) :
    Writing image path factor files (puts ++ [(l, .file (contentFor picture))])
      (match Png.fault? picture with
        | some fault => .error (.writeFailed "" path.text fault.message) after
        | none => .ok () after)

/-- The only errors of enlarging an image are faults of the factor. -/
private theorem exists_fault_of_enlarge {image : Image} {factor : Nat} {e : EvalError}
    (h : enlarge image factor = .error e) : ∃ fault, e = .fault fault := by
  unfold enlarge requireScalable at h
  split at h
  · cases h
  -- Only the factor may be wrong, and it is refused as an argument.
  · cases hscale : image.size.scale factor with
    | ok size =>
      rw [hscale] at h
      cases h
    | error fault =>
      rw [hscale] at h
      cases h
      exact ⟨fault, rfl⟩

/-- Writing an image goes in one of these ways. -/
theorem exists_writing (image : Image) (path : PathName) (factor : Nat) (files : Workspace) :
    ∃ puts, Writing image path factor files puts (writePicture image path factor files) := by
  unfold writePicture
  cases henlarge : enlarge image factor with
  | error e =>
    obtain ⟨fault, rfl⟩ := exists_fault_of_enlarge henlarge
    exact ⟨[], .refused henlarge⟩
  | ok picture =>
    obtain ⟨puts, hfills, hputs⟩ := fills_makeParents files path
    generalize makeParents files path = made at hfills hputs
    obtain ⟨result, after⟩ := made
    cases result with
    | error e => exact ⟨puts, .blocked hfills hputs⟩
    | ok u =>
      simp only
      cases hwrite : after.writeFile path (contentFor picture) with
      | error e => exact ⟨puts, .blocked hfills hputs⟩
      | ok written =>
        obtain ⟨l, hfile, hfind⟩ := exists_of_writeFile hwrite
        -- What leads above the file before it is written does so afterwards.
        have hputs' : ∀ put ∈ puts, put.2 = .directory ∧ written.LeadsAbove path put.1 := by
          intro put hput
          obtain ⟨hentry, a, habove, htext, hlocate⟩ := hputs put hput
          exact ⟨hentry, a, habove, htext, hfile.locate hlocate⟩
        refine ⟨puts ++ [(l, .file (contentFor picture))], ?_⟩
        have hwritten := Writing.written henlarge (hfills.append hfile) hputs' hfind
        simp only
        cases hfault : Png.fault? picture with
        | none => rwa [hfault] at hwritten
        | some fault => rwa [hfault] at hwritten

end Command

end Tapestry
