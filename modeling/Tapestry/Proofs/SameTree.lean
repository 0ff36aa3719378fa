import Tapestry.Workspace

/-!
# Workspaces with the same tree

Two workspaces have the same tree when the same directories and the same files are in both, whatever
the files hold. Following a path name asks no more of a location than whether a directory, a file or
nothing is there, so it leads to the same place in both; and making directories and writing files
fails in both with the same error, or leaves the same tree again.

## Key results

- `SameTree.follow_eq`, `SameTree.locateTarget_eq`: path names lead to the same places
- `SameTree.makeDirectories`: making directories has the same outcome
- `SameTree.writeFile`: so has writing a file, be it with another content
-/

namespace Tapestry

/-- What can be at a location, apart from what a file holds. -/
inductive EntryKind where
  | directory
  | file
  deriving DecidableEq

/-- The kind of an entry. -/
def Entry.kind : Entry → EntryKind
  | directory => .directory
  | file _ => .file

namespace Workspace

/-- The kind of what is at a location. -/
def kindAt (w : Workspace) (l : Location) : Option EntryKind := (w.entryAt l).map Entry.kind

/-- Whether two workspaces have the same working directory and the same directories and files. -/
structure SameTree (w w' : Workspace) : Prop where
  current : w.current = w'.current
  kindAt : ∀ l, w.kindAt l = w'.kindAt l

/-- A workspace has the tree that it has. -/
theorem SameTree.refl (w : Workspace) : w.SameTree w := ⟨rfl, fun _ => rfl⟩

/-- The root cannot be replaced. -/
private theorem entryAt_put_root (w : Workspace) (e : Entry) (m : Location) :
    (w.put [] e).entryAt m = w.entryAt m := by
  rw [entryAt, entryAt, put, lookup_cons_filter_ne]
  by_cases hm : m = []
  · rw [if_pos hm, if_pos hm]
  · rw [if_neg hm, if_neg hm, if_neg hm]

/-- Whether two attempts to change workspaces have the same outcome: the same error, or workspaces
    with the same tree. -/
inductive SameChange : Except FileError Workspace → Except FileError Workspace → Prop
  | ok {w w'} (h : w.SameTree w') : SameChange (.ok w) (.ok w')
  | error (e) : SameChange (.error e) (.error e)

namespace SameTree

variable {w w' : Workspace} (h : w.SameTree w')

include h

/-- Nothing, a directory, or a file each is at a location of both. -/
theorem entryAt_cases (l : Location) :
    (w.entryAt l = none ∧ w'.entryAt l = none) ∨
      (w.entryAt l = some .directory ∧ w'.entryAt l = some .directory) ∨
        ∃ content content',
          w.entryAt l = some (.file content) ∧ w'.entryAt l = some (.file content') := by
  -- Equal kinds leave only these three combinations.
  have hkind := h.kindAt l
  unfold Workspace.kindAt at hkind
  cases he : w.entryAt l with
  | none =>
    cases he' : w'.entryAt l with
    | none => simp
    | some e' => simp [he, he'] at hkind
  | some e =>
    cases he' : w'.entryAt l with
    | none => simp [he, he'] at hkind
    | some e' => cases e <;> cases e' <;> simp_all [Entry.kind]

/-- Entries of one kind keep the trees the same. -/
theorem put {e e' : Entry} (he : e.kind = e'.kind) (l : Location) :
    (w.put l e).SameTree (w'.put l e') := by
  refine ⟨h.current, fun m => ?_⟩
  have hm := h.kindAt m
  unfold Workspace.kindAt at hm ⊢
  by_cases hl : l = []
  · rw [hl, entryAt_put_root, entryAt_put_root, hm]
  · rw [entryAt_put hl, entryAt_put hl]
    by_cases hml : m = l
    · simp [hml, he]
    · simp only [if_neg hml, hm]

/-! ## Following path names -/

/-- A step depends on the tree only. -/
theorem step_eq (l : Location) (segment : String) : w.step l segment = w'.step l segment := by
  unfold step
  rcases h.entryAt_cases l with ⟨he, he'⟩ | ⟨he, he'⟩ | ⟨_, _, he, he'⟩
  · rw [he, he']
  · rw [he, he']
  · rw [he, he']

/-- So do several steps. -/
theorem follow_eq (l : Location) (segments : List String) :
    w.follow l segments = w'.follow l segments := by
  induction segments generalizing l with
  | nil => rfl
  | cons s ss ih =>
    unfold follow
    rw [h.step_eq]
    split
    · rfl
    · exact ih _

/-- A path name starts at the root or in the working directory, which is the same. -/
theorem startOf_eq (p : PathName) : w.startOf p = w'.startOf p := by
  rw [startOf, startOf, h.current]

/-- It leads to the same place. -/
theorem locate_eq (p : PathName) : w.locate p = w'.locate p := by
  unfold locate
  rw [h.startOf_eq, h.follow_eq]

/-- There is a directory in both, or in neither. -/
theorem isDirectory_eq (p : PathName) : w.isDirectory p = w'.isDirectory p := by
  unfold isDirectory find
  rw [h.locate_eq]
  cases hl : w'.locate p with
  | error e => rfl
  | ok l =>
    rcases h.entryAt_cases l with ⟨he, he'⟩ | ⟨he, he'⟩ | ⟨_, _, he, he'⟩
    · simp only [he, he']
    · simp only [he, he']
    · simp only [he, he']

/-- A file that is written goes to the same place. -/
theorem locateTarget_eq (p : PathName) : w.locateTarget p = w'.locateTarget p := by
  unfold locateTarget
  rw [h.startOf_eq, h.follow_eq, h.follow_eq]
  cases hl : w'.follow (w'.startOf p) p.steps with
  | error e => rfl
  | ok l =>
    rcases h.entryAt_cases l with ⟨he, he'⟩ | ⟨he, he'⟩ | ⟨_, _, he, he'⟩
    · simp only [he, he']
    · simp only [he, he']
    · simp only [he, he']

/-! ## Writing -/

/-- Making a directory goes the same way and leaves the same tree. -/
theorem makeDirectory (p : PathName) : SameChange (w.makeDirectory p) (w'.makeDirectory p) := by
  unfold Workspace.makeDirectory
  rw [h.locate_eq]
  cases w'.locate p with
  | error e => exact .error e
  | ok l =>
    rcases h.entryAt_cases l with ⟨he, he'⟩ | ⟨he, he'⟩ | ⟨_, _, he, he'⟩
    · simp only [he, he']
      exact .ok (h.put rfl l)
    · simp only [he, he']
      exact .error .alreadyExists
    · simp only [he, he']
      exact .error .alreadyExists

/-- What is in the way of a directory is a directory in both, or in neither. -/
private theorem makeFirst_blocked (p : PathName) (e : FileError) :
    (if w.isDirectory p = true then Except.ok () else .error e) =
      if w'.isDirectory p = true then .ok () else .error e := by
  rw [h.isDirectory_eq]

end SameTree

/-- Making the first of a list of directories has the same result, and leaves the same tree. -/
theorem SameTree.makeFirst {w w' : Workspace} (h : w.SameTree w') (ps : List PathName) :
    (w.makeFirst ps).1 = (w'.makeFirst ps).1 ∧ (w.makeFirst ps).2.SameTree (w'.makeFirst ps).2 := by
  induction ps generalizing w w' with
  | nil => exact ⟨rfl, h⟩
  | cons p outer ih =>
    unfold Workspace.makeFirst
    have hmade := h.makeDirectory p
    generalize w.makeDirectory p = r at hmade
    generalize w'.makeDirectory p = r' at hmade
    cases hmade with
    | ok hsame => exact ⟨rfl, hsame⟩
    | error e =>
      by_cases he : e = .notFound
      · subst he
        -- The directories above come first, and then this one is tried again.
        obtain ⟨hresult, hsame⟩ := ih h
        simp only
        generalize hr : w.makeFirst outer = r at hresult hsame
        generalize hr' : w'.makeFirst outer = r' at hresult hsame
        obtain ⟨result, v⟩ := r
        obtain ⟨result', v'⟩ := r'
        simp only at hresult hsame
        subst hresult
        cases result with
        | error e => exact ⟨rfl, hsame⟩
        | ok u =>
          have hagain := hsame.makeDirectory p
          simp only
          generalize v.makeDirectory p = s at hagain
          generalize v'.makeDirectory p = s' at hagain
          cases hagain with
          | ok hsame' => exact ⟨rfl, hsame'⟩
          | error e => exact ⟨hsame.makeFirst_blocked p e, hsame⟩
      · cases e with
        | notFound => exact absurd rfl he
        | _ => exact ⟨h.makeFirst_blocked p _, h⟩

/-- Making a directory and those above it has the same result, and leaves the same tree. -/
theorem SameTree.makeDirectories {w w' : Workspace} (h : w.SameTree w') (p : PathName) :
    (w.makeDirectories p).1 = (w'.makeDirectories p).1 ∧
      (w.makeDirectories p).2.SameTree (w'.makeDirectories p).2 := by
  unfold Workspace.makeDirectories
  by_cases hp : p.text = ""
  · simp only [if_pos hp]
    exact ⟨trivial, h⟩
  · simp only [if_neg hp]
    exact h.makeFirst (ancestry p)

/-- Writing files with any contents has the same outcome. -/
theorem SameTree.writeFile {w w' : Workspace} (h : w.SameTree w') (p : PathName)
    (content content' : FileContent) :
    SameChange (w.writeFile p content) (w'.writeFile p content') := by
  unfold Workspace.writeFile
  rw [h.locateTarget_eq]
  cases w'.locateTarget p with
  | error e => exact .error e
  | ok l =>
    have hkind : (Entry.file content).kind = (Entry.file content').kind := rfl
    exact .ok (h.put hkind l)

end Workspace

end Tapestry
