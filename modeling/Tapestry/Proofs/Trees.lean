import Mathlib.Data.List.Induction
import Mathlib.Data.List.Nodup
import Tapestry.Proofs.PathSegments
import Tapestry.Proofs.Results

/-!
# Trees of files

The entries of a workspace are a *tree* when each location is bound once, when its names can be
names of files or directories, and when a directory is above each entry. In a tree the absolute path
name of a location leads back to the location, as long as it is short enough to be followed, and so
do the path names that are found below another one.

## Key results

- `Location.names_path`, `Location.components_path`: an absolute path name read again
- `IsTree.find_path`: the absolute path name of an entry leads to the entry
- `pathFault?_path`: what an absolute path name leads to has an absolute path name that can be
  followed
- `IsTree.filesBelow_eq`: the files below a path name
-/

namespace Tapestry

open PathName

/-- Whether a text can be the name of a file or directory. -/
structure IsFileName (s : String) : Prop where
  ne_empty : s ≠ ""
  ne_dot : s ≠ "."
  ne_dots : s ≠ ".."
  slash_not_mem : '/' ∉ s.toList
  nul_not_mem : '\x00' ∉ s.toList
  length_le : Text.utf8Length s.toList ≤ Workspace.maxNameBytes

instance (s : String) : Decidable (IsFileName s) :=
  decidable_of_iff
    (s ≠ "" ∧ s ≠ "." ∧ s ≠ ".." ∧ '/' ∉ s.toList ∧ '\x00' ∉ s.toList ∧
      Text.utf8Length s.toList ≤ Workspace.maxNameBytes)
    ⟨fun ⟨h₁, h₂, h₃, h₄, h₅, h₆⟩ => ⟨h₁, h₂, h₃, h₄, h₅, h₆⟩,
      fun ⟨h₁, h₂, h₃, h₄, h₅, h₆⟩ => ⟨h₁, h₂, h₃, h₄, h₅, h₆⟩⟩

namespace IsFileName

variable {s : String}

/-- A file name has at least one character. -/
private theorem toList_ne_nil (h : IsFileName s) : s.toList ≠ [] := fun hs =>
  h.ne_empty (String.toList_inj.1 hs)

/-- A file name is no absolute path name, since it has no slash. -/
theorem isAbsolute_eq (h : IsFileName s) : (⟨s⟩ : PathName).isAbsolute = false := by
  obtain ⟨c, cs, hcs⟩ := List.exists_cons_of_ne_nil h.toList_ne_nil
  have hslash := h.slash_not_mem
  rw [hcs, List.mem_cons, not_or] at hslash
  simp [isAbsolute, hcs, Ne.symm hslash.1]

/-- As a path name, a file name has one name: itself. -/
theorem names_eq (h : IsFileName s) : (⟨s⟩ : PathName).names = [s] := by
  have hsplit := splitSlashes_of_not_mem h.slash_not_mem
  simp [names, namesOf, hsplit, h.toList_ne_nil]

/-- A name is a component of its own, wherever it stands. -/
private theorem ofSegment?_eq (h : IsFileName s) (offset : Nat) :
    Component.ofSegment? s.toList offset = some (.name s) := by
  have hdot : s.toList ≠ ['.'] := fun hs => h.ne_dot (String.toList_inj.1 hs)
  have hdots : s.toList ≠ ['.', '.'] := fun hs => h.ne_dots (String.toList_inj.1 hs)
  rw [Component.ofSegment?, if_neg h.toList_ne_nil, if_neg hdot, if_neg hdots, String.ofList_toList]

end IsFileName

/-! ## Absolute path names -/

namespace Location

variable {l m : Location} {s : String}

/-- Whether all names of a location can be names of files or directories. -/
def IsProper (l : Location) : Prop := ∀ s ∈ l, IsFileName s

instance (l : Location) : Decidable l.IsProper :=
  inferInstanceAs (Decidable (∀ s ∈ l, IsFileName s))

/-- Proper locations below each other are proper. -/
theorem IsProper.append (hl : l.IsProper) (hm : m.IsProper) : IsProper (l ++ m) :=
  List.forall_mem_append.2 ⟨hl, hm⟩

/-- The path of a location has a slash in front, and one between its names. -/
theorem toList_path (l : Location) :
    l.path.text.toList = '/' :: List.intercalate ['/'] (l.map String.toList) := by
  rw [path, String.toList_append, String.toList_intercalate]
  rfl

theorem isAbsolute_path (l : Location) : l.path.isAbsolute = true := by
  simp [isAbsolute, toList_path]

/-- Between the slashes of an absolute path name are the names, behind an empty text. -/
theorem splitSlashes_path (hl : l.IsProper) (hne : l ≠ []) :
    splitSlashes l.path.text.toList = [] :: l.map String.toList := by
  have hslash : ∀ cs ∈ l.map String.toList, '/' ∉ cs := by
    intro cs hcs
    obtain ⟨s, hs, rfl⟩ := List.mem_map.1 hcs
    exact (hl s hs).slash_not_mem
  rw [toList_path, splitSlashes_slash, splitSlashes_intercalate (by simpa using hne) hslash]

/-- The names of the absolute path name of a location are those of the location. -/
theorem names_path (hl : l.IsProper) : l.path.names = l := by
  by_cases hne : l = []
  · rw [hne]
    decide +kernel
  · have hmap : ∀ cs ∈ l.map String.toList, cs ≠ [] := by
      intro cs hcs
      obtain ⟨s, hs, rfl⟩ := List.mem_map.1 hcs
      exact (hl s hs).toList_ne_nil
    have hfilter : (l.map String.toList).filter (· ≠ []) = l.map String.toList :=
      List.filter_eq_self.2 fun cs hcs => decide_eq_true (hmap cs hcs)
    rw [names, namesOf, splitSlashes_path hl hne, List.filter_cons_of_neg (by simp), hfilter,
      List.map_map]
    simp [Function.comp_def]

/-- Different locations have different paths. -/
theorem path_injective (hl : l.IsProper) (hm : m.IsProper) (h : l.path = m.path) : l = m := by
  rw [← names_path hl, ← names_path hm, h]

/-- Locations without repetitions have paths without repetitions. -/
theorem nodup_map_path {found : List Location} (hfound : ∀ l ∈ found, l.IsProper)
    (h : found.Nodup) : (found.map Location.path).Nodup :=
  List.Nodup.map_on (fun _ hl _ hk => path_injective (hfound _ hl) (hfound _ hk)) h

/-- The components of the absolute path name of a location are the root and the names. -/
theorem components_path (hl : l.IsProper) : l.path.components = .root :: l.map .name := by
  -- The places do not matter for a name, so the induction is on the names behind any place.
  have hread (k : Nat) : ((place k (l.map String.toList)).filterMap fun x =>
      (Component.ofSegment? x.1 x.2).map fun c => (⟨c, x.2, x.2 + x.1.length⟩ : Placed)).map
        Placed.component = l.map .name := by
    induction l generalizing k with
    | nil => rfl
    | cons s l ih =>
      obtain ⟨hs, hl⟩ := List.forall_mem_cons.1 hl
      rw [List.map_cons, place, List.filterMap_cons]
      simp only [hs.ofSegment?_eq, Option.map_some, List.map_cons, ih hl]
  have hhead : l.path.text.toList.head? = some '/' := by rw [toList_path]; rfl
  rw [components, placedComponents, if_pos hhead, List.map_cons]
  by_cases hne : l = []
  · rw [hne]
    decide +kernel
  · rw [splitSlashes_path hl hne, place, List.filterMap_cons]
    simp only [Component.ofSegment?, ↓reduceIte, Option.map_none]
    exact congrArg _ (hread _)

/-- A name goes behind the path name of a location, and behind a slash unless this is the root. -/
theorem toList_path_concat (l : Location) (s : String) :
    (Location.path (l ++ [s])).text.toList =
      l.path.text.toList ++ (if l = [] then [] else ['/']) ++ s.toList := by
  rw [toList_path, toList_path, List.map_append, List.map_singleton]
  by_cases hne : l = []
  · rw [hne, if_pos rfl]
    simp
  · rw [if_neg hne, intercalate_append (by simpa using hne) (List.cons_ne_nil _ _),
      List.intercalate_singleton]
    simp

/-- Only the path name of the root ends with a slash. -/
private theorem endsWithSlash_path (hl : l.IsProper) : l.path.endsWithSlash = decide (l = []) := by
  rcases List.eq_nil_or_concat l with rfl | ⟨front, s, rfl⟩
  · decide +kernel
  · rw [List.concat_eq_append] at hl ⊢
    have hs : IsFileName s := hl s (by simp)
    have hslash : s.toList.getLast? ≠ some '/' :=
      fun h => hs.slash_not_mem (List.mem_of_getLast? h)
    rw [endsWithSlash, toList_path_concat, List.getLast?_append_of_ne_nil _ hs.toList_ne_nil]
    simp [hslash]

/-- A name behind the path name of a location makes the path name of the location below. -/
private theorem join_path (hl : l.IsProper) (hs : IsFileName s) :
    l.path.join ⟨s⟩ = Location.path (l ++ [s]) := by
  have hroot : (l.path.text = "" ∨ l.path.text.toList.getLast? = some '/') ↔ l = [] := by
    have hends := endsWithSlash_path hl
    rw [endsWithSlash, decide_eq_decide] at hends
    have htext : l.path.text ≠ "" := fun h => by simpa [h] using toList_path l
    rw [hends]
    -- The root is the only location whose path name already ends in a slash.
    exact or_iff_right htext
  have hconcat := toList_path_concat l s
  rw [join, hs.isAbsolute_eq, if_neg Bool.false_ne_true]
  by_cases hne : l = []
  · rw [if_pos (hroot.2 hne)]
    rw [if_pos hne, List.append_nil, ← String.toList_append] at hconcat
    exact congrArg PathName.mk (String.toList_inj.1 hconcat.symm)
  · rw [if_neg (mt hroot.1 hne)]
    rw [if_neg hne] at hconcat
    refine congrArg PathName.mk (String.toList_inj.1 (Eq.trans ?_ hconcat.symm))
    rw [String.toList_append, String.toList_append]
    rfl

end Location

/-! ## Path names below others -/

namespace PathName

variable {p : PathName} {names : List String}

/-- A path name with names behind it, one after the other. -/
def descend (p : PathName) (names : List String) : PathName :=
  names.foldl (fun q s => q.join ⟨s⟩) p

/-- Names that are added to a path name come behind its own. -/
theorem names_descend (h : ∀ s ∈ names, IsFileName s) :
    (p.descend names).names = p.names ++ names := by
  induction names generalizing p with
  | nil => exact (List.append_nil _).symm
  | cons s names ih =>
    obtain ⟨hs, hnames⟩ := List.forall_mem_cons.1 h
    rw [descend, List.foldl_cons, ← descend, ih hnames, names_join hs.isAbsolute_eq, hs.names_eq,
      List.append_assoc, List.singleton_append]

/-- Adding names keeps a path name absolute, or relative. -/
theorem isAbsolute_descend (h : ∀ s ∈ names, IsFileName s) :
    (p.descend names).isAbsolute = p.isAbsolute := by
  induction names generalizing p with
  | nil => rfl
  | cons s names ih =>
    obtain ⟨hs, hnames⟩ := List.forall_mem_cons.1 h
    rw [descend, List.foldl_cons, ← descend, ih hnames, isAbsolute_join hs.isAbsolute_eq]

end PathName

/-- Adding names to the path of a location is the path of a location below it. -/
theorem Location.descend_path {l : Location} {names : List String} (hl : l.IsProper)
    (h : ∀ s ∈ names, IsFileName s) : l.path.descend names = Location.path (l ++ names) := by
  induction names generalizing l with
  | nil => rw [List.append_nil]; rfl
  | cons s names ih =>
    obtain ⟨hs, hnames⟩ := List.forall_mem_cons.1 h
    have hbelow : Location.IsProper (l ++ [s]) := hl.append (by simpa [IsProper] using hs)
    rw [descend, List.foldl_cons, ← descend, join_path hl hs, ih hbelow hnames, List.append_assoc,
      List.singleton_append]

/-! ## Trees -/

/-- Whether an entry is a file. -/
def Entry.isFile : Entry → Bool
  | .file _ => true
  | .directory => false

namespace Workspace

/-- Whether the entries of a workspace are a tree: each location is bound once, has names that files
    and directories can have, and lies in a directory. -/
structure IsTree (w : Workspace) : Prop where
  nodup : (w.entries.map Prod.fst).Nodup
  ne_root : ∀ x ∈ w.entries, x.1 ≠ []
  isProper : ∀ x ∈ w.entries, x.1.IsProper
  above : ∀ x ∈ w.entries, w.entryAt x.1.dropLast = some .directory

instance (w : Workspace) : Decidable w.IsTree :=
  decidable_of_iff
    ((w.entries.map Prod.fst).Nodup ∧ (∀ x ∈ w.entries, x.1 ≠ []) ∧
      (∀ x ∈ w.entries, x.1.IsProper) ∧
      ∀ x ∈ w.entries, w.entryAt x.1.dropLast = some .directory)
    ⟨fun ⟨h₁, h₂, h₃, h₄⟩ => ⟨h₁, h₂, h₃, h₄⟩, fun ⟨h₁, h₂, h₃, h₄⟩ => ⟨h₁, h₂, h₃, h₄⟩⟩

/-- Whether there is a file at a location. -/
def HoldsFile (w : Workspace) (l : Location) : Prop := ∃ content, w.entryAt l = some (.file content)

/-- The locations of the files at or below a location. -/
def filesAt (w : Workspace) (l : Location) : List Location :=
  (w.entries.filter fun (m, e) => e.isFile && l.isPrefixOf m).map Prod.fst

section Tree

variable {w : Workspace} {l m : Location} {e : Entry} {names : List String}

/-- The entries of a tree are what is found at their locations. -/
theorem IsTree.mem_entries (hw : w.IsTree) :
    (l, e) ∈ w.entries ↔ l ≠ [] ∧ w.entryAt l = some e := by
  constructor
  · intro h
    have hne := hw.ne_root _ h
    refine ⟨hne, ?_⟩
    rw [entryAt, if_neg hne, List.lookup_eq_some_iff]
    -- No entry in front of this one has the same location.
    obtain ⟨front, rest, hentries⟩ := List.append_of_mem h
    refine ⟨front, rest, hentries, fun x hx => ?_⟩
    have hnodup := hw.nodup
    rw [hentries, List.map_append, List.map_cons, List.nodup_append] at hnodup
    have hx' := hnodup.2.2 x.1 (List.mem_map_of_mem hx) l List.mem_cons_self
    simpa using Ne.symm hx'
  · rintro ⟨hne, h⟩
    rw [entryAt, if_neg hne] at h
    obtain ⟨front, rest, hentries, -⟩ := List.lookup_eq_some_iff.1 h
    rw [hentries]
    simp

/-- In a tree, every name of an entry is a file name. -/
theorem IsTree.isProper_of_entryAt (hw : w.IsTree) (h : w.entryAt l = some e) : l.IsProper := by
  by_cases hne : l = []
  · rw [hne]
    exact nofun
  · exact hw.isProper _ (hw.mem_entries.2 ⟨hne, h⟩)

theorem IsTree.isProper_of_holdsFile (hw : w.IsTree) (h : w.HoldsFile l) : l.IsProper :=
  have ⟨_, hentry⟩ := h
  hw.isProper_of_entryAt hentry

theorem IsTree.isFileName_below (hw : w.IsTree) (h : w.entryAt (l ++ names) = some e) :
    ∀ s ∈ names, IsFileName s := fun s hs =>
  hw.isProper_of_entryAt h s (List.mem_append_right l hs)

/-- What is above an entry is a directory. -/
theorem IsTree.entryAt_above (hw : w.IsTree) (hne : names ≠ [])
    (h : w.entryAt (l ++ names) = some e) : w.entryAt l = some .directory := by
  -- The last name lies in a directory, so the induction takes the names from behind.
  induction names using List.reverseRecOn generalizing e with
  | nil => exact absurd rfl hne
  | append_singleton names s ih =>
    have habove := hw.above _ (hw.mem_entries.2 ⟨by simp, h⟩)
    rw [← List.append_assoc, List.dropLast_concat] at habove
    by_cases hnil : names = []
    · rwa [hnil, List.append_nil] at habove
    · exact ih hnil habove

/-- Names lead from a directory to an entry below it. -/
theorem IsTree.follow_below (hw : w.IsTree) (h : w.entryAt (l ++ names) = some e) :
    w.follow l names = .ok (l ++ names) := by
  have hnames := hw.isFileName_below h
  induction names generalizing l with
  | nil => rw [List.append_nil]; rfl
  | cons s names ih =>
    obtain ⟨hs, hrest⟩ := List.forall_mem_cons.1 hnames
    have hdirectory := hw.entryAt_above (List.cons_ne_nil s names) h
    -- What stands below is in a directory, and its names are neither dots nor too long.
    have hstep : w.step l s = .ok (l ++ [s]) := by
      simp only [step, hdirectory, if_neg hs.ne_dot, if_neg hs.ne_dots,
        if_neg (Nat.not_lt.2 hs.length_le)]
    rw [List.append_cons] at h ⊢
    rw [follow, hstep]
    exact ih h hrest

/-- The absolute path name of an entry leads to it, if it is one that can be followed. -/
theorem IsTree.find_path (hw : w.IsTree) (h : w.entryAt l = some e)
    (hfault : pathFault? l.path = none) : w.find l.path = .ok (l, e) := by
  have hl := hw.isProper_of_entryAt h
  have hfollow : w.follow [] l = .ok l := hw.follow_below (l := []) h
  have hstart : w.startOf l.path = [] := by rw [startOf, l.isAbsolute_path, if_pos rfl]
  refine find_eq_ok.2 ⟨?_, h⟩
  rw [locate, hfault]
  simp only
  rw [hstart, steps_eq, Location.names_path hl, Location.endsWithSlash_path hl]
  by_cases hne : l = []
  · -- The path name of the root is a slash, so it asks for a directory.
    rw [hne]
    rfl
  · rw [decide_eq_false hne, if_neg Bool.false_ne_true, hfollow]

/-- The files at or below a location. -/
theorem IsTree.mem_filesAt (hw : w.IsTree) : m ∈ w.filesAt l ↔ w.HoldsFile m ∧ l <+: m := by
  simp only [filesAt, List.mem_map, List.mem_filter, Bool.and_eq_true, List.isPrefixOf_iff_prefix]
  constructor
  · rintro ⟨⟨_, e⟩, ⟨hmem, hfile, hprefix⟩, rfl⟩
    -- The root is no entry of the tree; it holds no file anyway.
    obtain ⟨-, hentry⟩ := hw.mem_entries.1 hmem
    cases e with
    | directory => exact absurd hfile Bool.false_ne_true
    | file content => exact ⟨⟨content, hentry⟩, hprefix⟩
  · rintro ⟨⟨content, hentry⟩, hprefix⟩
    have hne : m ≠ [] := by
      rintro rfl
      rw [entryAt, if_pos rfl] at hentry
      cases hentry
    exact ⟨(m, .file content), ⟨hw.mem_entries.2 ⟨hne, hentry⟩, rfl, hprefix⟩, rfl⟩

/-- No file is counted twice. -/
theorem IsTree.nodup_filesAt (hw : w.IsTree) (l : Location) : (w.filesAt l).Nodup :=
  (List.filter_sublist.map Prod.fst).nodup hw.nodup

/-- Nothing but a file itself is at or below it. -/
private theorem IsTree.filesAt_file (hw : w.IsTree) {content : FileContent}
    (h : w.entryAt l = some (.file content)) : w.filesAt l = [l] := by
  apply List.perm_singleton.1
  rw [List.perm_ext_iff_of_nodup (hw.nodup_filesAt l) (List.nodup_singleton l)]
  intro m
  rw [hw.mem_filesAt, List.mem_singleton]
  constructor
  -- Nothing stands below a file.
  · rintro ⟨⟨_, hm⟩, names, rfl⟩
    by_cases hnames : names = []
    · rw [hnames, List.append_nil]
    · rw [hw.entryAt_above hnames hm] at h
      cases h
  · rintro rfl
    exact ⟨⟨content, h⟩, List.prefix_refl m⟩

/-- What is below a location has its names in front. -/
theorem below?_eq_some : below? l m = some names ↔ m = l ++ names := by
  induction l generalizing m with
  | nil => simp [below?, eq_comm]
  | cons a l ih =>
    cases m with
    | nil => simp [below?]
    | cons b m =>
      rw [below?, List.cons_append, List.cons.injEq]
      by_cases hab : a = b
      · rw [if_pos hab, ih, eq_comm (a := b), and_iff_right hab]
      · rw [if_neg hab]
        simp [Ne.symm hab]

/-- The path names of the files at or below what a path name leads to. -/
theorem IsTree.filesBelow_eq (hw : w.IsTree) {p : PathName} (h : w.find p = .ok (l, e)) :
    w.filesBelow p = (w.filesAt l).map fun m => p.descend (m.drop l.length) := by
  unfold filesBelow
  rw [h]
  cases e with
  | file content =>
    rw [hw.filesAt_file (find_eq_ok.1 h).2]
    simp [descend]
  | directory =>
    -- Both sides run through the entries, and what is a tree about them no longer matters.
    simp only [filesAt]
    induction w.entries with
    | nil => rfl
    | cons x entries ih =>
      obtain ⟨m, e⟩ := x
      rw [List.filterMap_cons, List.filter_cons, ih]
      cases e with
      | directory => rfl
      | file content =>
        cases hbelow : below? l m with
        | none =>
          have hnot : l.isPrefixOf m = false := by
            rw [Bool.eq_false_iff, Ne, List.isPrefixOf_iff_prefix]
            rintro ⟨names, hm⟩
            rw [below?_eq_some.2 hm.symm] at hbelow
            cases hbelow
          simp [hnot]
        | some names =>
          have hm := below?_eq_some.1 hbelow
          simp [hm, Entry.isFile, descend]

/-! ## Destinations -/

/-- The location that the names of a path name lead to, however long the path name is. -/
def destination? (w : Workspace) (p : PathName) : Option Location :=
  (w.follow (w.startOf p) p.names).toOption

/-- A destination is found by following the names from the start. -/
private theorem destination?_eq_some {p : PathName} :
    w.destination? p = some l ↔ w.follow (w.startOf p) p.names = .ok l := by
  rw [destination?, Except.toOption_eq_some]

/-- What a path name leads to is its destination. -/
theorem destination?_of_find {p : PathName} (h : w.find p = .ok (l, e)) :
    w.destination? p = some l :=
  destination?_eq_some.2 (follow_names (find_eq_ok.1 h).1)

/-- The path name of an entry below the destination of another path name leads to the entry. -/
theorem IsTree.destination?_descend (hw : w.IsTree) {p : PathName} (h : w.destination? p = some l)
    (hentry : w.entryAt (l ++ names) = some e) :
    w.destination? (p.descend names) = some (l ++ names) := by
  have hnames := hw.isFileName_below hentry
  rw [destination?_eq_some] at h ⊢
  rw [startOf, isAbsolute_descend hnames, ← startOf, names_descend hnames]
  exact follow_append.2 ⟨l, h, hw.follow_below hentry⟩

/-- The path of an entry leads to it. -/
theorem IsTree.destination?_path (hw : w.IsTree) (h : w.entryAt l = some e) :
    w.destination? l.path = some l := by
  rw [destination?_eq_some, startOf, l.isAbsolute_path, if_pos rfl,
    Location.names_path (hw.isProper_of_entryAt h)]
  exact hw.follow_below (l := []) h

end Tree

/-! ## Lengths -/

/-- The bytes of texts with a slash in front of each. -/
def bytes : List (List Char) → Nat
  | [] => 0
  | s :: ss => Text.utf8Length s + 1 + bytes ss

/-- The bytes of names add up, with one for the slash in front of each. -/
private theorem bytes_append (ss ts : List (List Char)) :
    bytes (ss ++ ts) = bytes ss + bytes ts := by
  induction ss with
  | nil => exact (Nat.zero_add _).symm
  | cons s ss ih =>
    rw [List.cons_append, bytes, bytes, ih]
    omega

/-- Leaving names out leaves no more bytes. -/
private theorem bytes_filter_le (p : List Char → Bool) (ss : List (List Char)) :
    bytes (ss.filter p) ≤ bytes ss := by
  induction ss with
  | nil => exact Nat.le_refl _
  | cons s ss ih =>
    rw [List.filter_cons]
    split
    · exact Nat.add_le_add_left ih _
    · exact Nat.le_trans ih (Nat.le_add_left _ _)

/-- Between names there is one slash less than there are names. -/
private theorem utf8Length_intercalate {ss : List (List Char)} (hne : ss ≠ []) :
    Text.utf8Length (List.intercalate ['/'] ss) + 1 = bytes ss := by
  induction ss with
  | nil => exact absurd rfl hne
  | cons s ss ih =>
    by_cases hnil : ss = []
    · rw [hnil, List.intercalate_singleton]
      rfl
    · have hslash : Text.utf8Length ['/'] = 1 := rfl
      rw [List.intercalate_cons_of_ne_nil hnil, Text.utf8Length_append, Text.utf8Length_append,
        hslash, bytes, ← ih hnil]
      omega

/-- A character of texts put together is a slash or belongs to one of the texts. -/
private theorem mem_intercalate {c : Char} {ss : List (List Char)}
    (h : c ∈ List.intercalate ['/'] ss) : c = '/' ∨ ∃ s ∈ ss, c ∈ s := by
  induction ss with
  | nil => simp at h
  | cons s ss ih =>
    by_cases hnil : ss = []
    · rw [hnil, List.intercalate_singleton] at h
      exact .inr ⟨s, List.mem_cons_self, h⟩
    · rw [List.intercalate_cons_of_ne_nil hnil, List.mem_append, List.mem_append,
        List.mem_singleton] at h
      rcases h with (hs | hslash) | hss
      · exact .inr ⟨s, List.mem_cons_self, hs⟩
      · exact .inl hslash
      · exact (ih hss).imp_right fun ⟨t, ht, hc⟩ => ⟨t, List.mem_cons_of_mem s ht, hc⟩

section Lengths

variable {w : Workspace} {l m : Location} {p : PathName}

/-- A slash is in front of each name of an absolute path name. -/
private theorem bytes_names_le (h : p.isAbsolute = true) :
    bytes (p.names.map String.toList) ≤ Text.utf8Length p.text.toList := by
  obtain ⟨cs, hcs⟩ := List.head?_eq_some_iff.1 (of_decide_eq_true h)
  have hnames : p.names.map String.toList = (splitSlashes cs).filter (· ≠ []) := by
    rw [names, namesOf, hcs, splitSlashes_slash, List.map_map]
    simp [Function.comp_def]
  have hbytes := utf8Length_intercalate (splitSlashes_ne_nil cs)
  rw [intercalate_splitSlashes] at hbytes
  calc bytes (p.names.map String.toList)
      ≤ bytes (splitSlashes cs) := by rw [hnames]; exact bytes_filter_le _ _
    _ = Text.utf8Length cs + 1 := hbytes.symm
    _ = Text.utf8Length p.text.toList := by rw [hcs, Nat.add_comm]; rfl

/-- A step adds no more than its own name to a location. -/
private theorem bytes_step {s : String} (h : w.step l s = .ok m) :
    bytes (m.map String.toList) ≤ bytes (l.map String.toList) + bytes [s.toList] := by
  unfold step at h
  -- A step adds a name, or it takes one away, or it stays.
  split at h
  · cases h
  · cases h
  · split at h
    · cases h
      exact Nat.le_add_right _ _
    · split at h
      · cases h
        have hdrop : bytes (l.dropLast.map String.toList) ≤ bytes (l.map String.toList) := by
          rcases List.eq_nil_or_concat l with rfl | ⟨front, s, rfl⟩
          · exact Nat.le_refl _
          · rw [List.concat_eq_append, List.dropLast_concat, List.map_append, bytes_append]
            exact Nat.le_add_right _ _
        exact Nat.le_trans hdrop (Nat.le_add_right _ _)
      · split at h
        · cases h
        · cases h
          rw [List.map_append, bytes_append]
          exact Nat.le_refl _

/-- Following names makes a path longer by their bytes at most. -/
private theorem bytes_follow {ss : List String} (h : w.follow l ss = .ok m) :
    bytes (m.map String.toList) ≤ bytes (l.map String.toList) + bytes (ss.map String.toList) := by
  induction ss generalizing l with
  | nil =>
    cases h
    exact Nat.le_add_right _ _
  | cons s ss ih =>
    obtain ⟨-, k, hstep, hk⟩ := follow_cons h
    have hfirst := bytes_step hstep
    have hrest := ih hk
    have hcons : bytes ((s :: ss).map String.toList) =
        bytes [s.toList] + bytes (ss.map String.toList) := bytes_append [s.toList] _
    omega

/-- What keeps no path name from being followed. -/
private theorem pathFault?_eq_none : pathFault? p = none ↔
    '\x00' ∉ p.text.toList ∧ p.text ≠ "" ∧ Text.utf8Length p.text.toList ≤ maxPathBytes := by
  unfold pathFault?
  split
  · next h => simpa using fun h' => absurd (List.contains_iff_mem.1 h) h'
  · next h =>
    have hnul : '\x00' ∉ p.text.toList := mt List.contains_iff_mem.2 h
    split
    · next htext => simp [htext]
    · next htext =>
      split
      · next hlt => simpa [htext, hnul] using hlt
      · next hle => simpa [htext, hnul] using hle

/-- The absolute path name of what an absolute path name leads to can be followed as well: it is not
    longer. -/
theorem pathFault?_path (h : p.isAbsolute = true) (hlocate : w.locate p = .ok l)
    (hl : l.IsProper) : pathFault? l.path = none := by
  have hfault : pathFault? p = none := by
    unfold locate at hlocate
    split at hlocate
    · cases hlocate
    · next hfault => exact hfault
  obtain ⟨-, -, hlength⟩ := pathFault?_eq_none.1 hfault
  have hbytes : bytes (l.map String.toList) ≤ Text.utf8Length p.text.toList := by
    have hfollow := bytes_follow (follow_names hlocate)
    rw [startOf, if_pos h] at hfollow
    have hstart : bytes (([] : Location).map String.toList) = 0 := rfl
    have hnames := bytes_names_le h
    omega
  refine pathFault?_eq_none.2 ⟨?_, ?_, ?_⟩
  · rw [Location.toList_path, List.mem_cons, not_or]
    -- A character of the path name is a slash or one of a proper name.
    refine ⟨by decide, fun hmem => ?_⟩
    rcases mem_intercalate hmem with hslash | ⟨cs, hcs, hnul⟩
    · exact absurd hslash (by decide)
    · obtain ⟨s, hs, rfl⟩ := List.mem_map.1 hcs
      exact (hl s hs).nul_not_mem hnul
  · intro htext
    have hpath := Location.toList_path l
    simp [htext] at hpath
  · by_cases hne : l = []
    · rw [hne]
      decide +kernel
    · have hpath := @utf8Length_intercalate (l.map String.toList) (by simpa using hne)
      -- Each name takes its bytes and one for the slash in front of it, and all of them were in the
      -- path name.
      have hslash : Char.utf8Size '/' = 1 := rfl
      rw [Location.toList_path, Text.utf8Length, hslash]
      omega

end Lengths

end Workspace

end Tapestry
