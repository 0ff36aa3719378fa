import Tapestry.Proofs.Discovery
import Tapestry.Proofs.IgnoredNames
import Tapestry.Proofs.SameTree

/-!
# Discovery at another place

The same tree of files can lie below different directories. Sources that are relative and never lead
above the directory they start from lead to the same places in both, so the same scripts are found,
in the same order.

Patterns are compared with absolute path names, however, and these go through the directories above
the tree. A pattern for a directory matches everything when one of those has its name. A manifest
keeps the same scripts at both places when its patterns ignore the names of both.

## Key results

- `SameBelow.follow`: steps lead to the same places below two directories
- `Finds.eq`, `Finds.filter`: what sources find, and what remains of it for a manifest
- `Finds.relocated`: what sources find at another place
- `scanSources_relocated`: the scripts of the same tree at two places
- `scanSources_archived`: a pattern that matches the place of a tree
-/

namespace Tapestry

open PathName

namespace PathName

/-! ## Sources -/

/-- A dot at the end leads nowhere else. -/
private theorem staysBelow_concat_dot (depth : Nat) (ss : List String) :
    staysBelow depth (ss ++ ["."]) = staysBelow depth ss := by
  induction ss generalizing depth with
  | nil => rfl
  | cons s ss ih =>
    rw [List.cons_append]
    unfold staysBelow
    cases depth <;> simp only [ih]

/-- The steps to take for a relative path name behind a directory. Without a name it asks for the
    directory itself. -/
def stepsBehind (p : PathName) : List String := if p.text = "" then ["."] else p.steps

/-- A path name that never leaves its directory does not in its steps. -/
private theorem staysBelow_stepsBehind {p : PathName} (h : p.stays = true) :
    staysBelow 0 p.stepsBehind = true := by
  rw [stepsBehind]
  split
  · rfl
  · rw [steps_eq]
    split
    · rwa [staysBelow_concat_dot]
    · exact h

/-- The steps of a relative path name behind another one follow its names. -/
private theorem steps_join {a b : PathName} (ha : a.text ≠ "") (hb : b.isAbsolute = false) :
    (a.join b).steps = a.names ++ b.stepsBehind := by
  have hends : (a.join b).endsWithSlash = if b.text = "" then true else b.endsWithSlash := by
    split
    · next hempty =>
      -- The first path name is not empty, so a slash is put behind it, or is there already.
      have hne : (a.join b).text ≠ "" := by
        rw [join, hb]
        simp only [Bool.false_eq_true, ↓reduceIte]
        split <;> simp [ha]
      exact (join_of_text_eq hempty).resolve_left hne
    · next hne =>
      have hlist : b.text.toList ≠ [] := fun h => hne (String.toList_inj.1 h)
      rw [join, hb, endsWithSlash, endsWithSlash]
      simp only [Bool.false_eq_true, ↓reduceIte]
      split <;> rw [String.toList_append, List.getLast?_append_of_ne_nil _ hlist]
  rw [steps_eq, names_join hb, hends, stepsBehind]
  split
  · next hempty =>
    have hnames : b.names = [] := by
      rw [names, hempty]
      rfl
    rw [if_pos rfl, hnames, List.append_nil]
  · rw [steps_eq]
    split
    · rw [List.append_assoc]
    · rfl

end PathName

namespace Location

variable {b l k : Location}

/-- Names in front do not change the order. -/
private theorem append_lt_append_iff : b ++ l < b ++ k ↔ l < k := by
  induction b with
  | nil => exact Iff.rfl
  | cons s b ih =>
    rw [List.cons_append, List.cons_append, List.cons_lt_cons_iff, ih]
    simp

/-- Names in front do not make a location one of scripts, or none. -/
private theorem isScript_append (hl : l ≠ []) : IsScript (b ++ l) ↔ l.IsScript := by
  rw [IsScript, IsScript, List.getLast?_append_of_ne_nil _ hl]

end Location

namespace Workspace

/-! ## The same tree below two directories -/

/-- Whether the same directories and files lie below two locations, whatever the files hold. -/
def SameBelow (w : Workspace) (b : Location) (w' : Workspace) (b' : Location) : Prop :=
  ∀ l, w.kindAt (b ++ l) = w'.kindAt (b' ++ l)

/-- Whether a path name leads to a directory of a tree, from where sources can be scanned. -/
structure IsBase (w : Workspace) (base : PathName) (b : Location) : Prop where
  isTree : w.IsTree
  nameable : base.isAbsolute = true ∨ w.Nameable
  find : w.find base = .ok (b, .directory)

variable {w w' : Workspace} {base base' : PathName} {b b' l k : Location}

/-- The kind of an entry says whether it is a directory. -/
private theorem kindAt_eq_directory :
    w.kindAt l = some .directory ↔ w.entryAt l = some .directory := by
  rw [kindAt, Option.map_eq_some_iff]
  constructor
  · rintro ⟨e, he, hkind⟩
    cases e with
    | directory => exact he
    | file => cases hkind
  · exact fun h => ⟨_, h, rfl⟩

/-- It also says whether it is a file. -/
private theorem kindAt_eq_file : w.kindAt l = some .file ↔ w.HoldsFile l := by
  rw [kindAt, Option.map_eq_some_iff]
  constructor
  · rintro ⟨e, he, hkind⟩
    cases e with
    | directory => cases hkind
    | file content => exact ⟨content, he⟩
  · rintro ⟨content, h⟩
    exact ⟨_, h, rfl⟩

/-- The names that lead to the entries at or below a location. -/
def namesBelow (w : Workspace) (b : Location) : List Location :=
  [] :: w.entries.filterMap fun x => below? b x.1

/-- Where no name is, there is no entry. -/
private theorem kindAt_eq_none (h : l ∉ w.namesBelow b) : w.kindAt (b ++ l) = none := by
  rw [namesBelow, List.mem_cons, not_or, List.mem_filterMap] at h
  obtain ⟨hne, hnot⟩ := h
  have hlookup : w.entries.lookup (b ++ l) = none := by
    rw [List.lookup_eq_none_iff]
    intro x hx
    rw [bne_iff_ne]
    exact fun hl => hnot ⟨x, hx, below?_eq_some.2 hl.symm⟩
  rw [kindAt, entryAt, if_neg (by simp [hne]), hlookup]
  rfl

/-- Two trees are the same when all names of either have the same kind in both. -/
theorem sameBelow_iff : w.SameBelow b w' b' ↔
    ∀ l ∈ w.namesBelow b ++ w'.namesBelow b', w.kindAt (b ++ l) = w'.kindAt (b' ++ l) := by
  refine ⟨fun h l _ => h l, fun h l => ?_⟩
  by_cases hl : l ∈ w.namesBelow b ++ w'.namesBelow b'
  · exact h l hl
  · rw [List.mem_append, not_or] at hl
    rw [kindAt_eq_none hl.1, kindAt_eq_none hl.2]

instance : Decidable (w.SameBelow b w' b') := decidable_of_iff _ sameBelow_iff.symm

namespace SameBelow

/-- What is below two places is the same in either direction. -/
theorem symm (h : w.SameBelow b w' b') : w'.SameBelow b' w b := fun l => (h l).symm

/-- There are files at the same names. -/
theorem holdsFile (h : w.SameBelow b w' b') : w.HoldsFile (b ++ l) ↔ w'.HoldsFile (b' ++ l) := by
  rw [← kindAt_eq_file, ← kindAt_eq_file, h l]

/-- Steps that never lead above the directory lead to the same places. -/
theorem follow (h : w.SameBelow b w' b') {ss : List String} {m : Location}
    (hstays : staysBelow l.length ss = true) (hfollow : w.follow (b ++ l) ss = .ok m) :
    ∃ k, m = b ++ k ∧ w'.follow (b' ++ l) ss = .ok (b' ++ k) := by
  induction ss generalizing l with
  | nil =>
    cases hfollow
    exact ⟨l, rfl, rfl⟩
  | cons s ss ih =>
    obtain ⟨hentry, m', hstep, hm'⟩ := follow_cons hfollow
    obtain ⟨next, rfl, hnext, hsame⟩ := exists_step_below hstays hentry hstep
    -- The same step is taken from the same place, which is a directory in both.
    have hentry' : w'.entryAt (b' ++ l) = some .directory := by
      rw [← kindAt_eq_directory, ← h l, kindAt_eq_directory]
      exact hentry
    rw [Workspace.follow, hsame w' b' hentry']
    exact ih hnext hm'

end SameBelow

/-- A relative source leads where its steps lead from the base. -/
private theorem IsBase.locate_join (hbase : w.IsBase base b) {source : PathName}
    (hrelative : source.isAbsolute = false) {m : Location} :
    w.locate (base.join source) = .ok m ↔
      pathFault? (base.join source) = none ∧ w.follow b source.stepsBehind = .ok m := by
  obtain ⟨hlocate, -⟩ := find_eq_ok.1 hbase.find
  have hfollow := follow_names hlocate
  have htext : base.text ≠ "" := by
    intro htext
    rw [locate_of_text_eq htext] at hlocate
    cases hlocate
  have hstart : w.startOf (base.join source) = w.startOf base := by
    rw [startOf, startOf, isAbsolute_join hrelative]
  rw [locate, hstart, steps_join htext hrelative]
  cases pathFault? (base.join source) with
  | some e => simp
  | none =>
    simp only [true_and]
    -- The names of the base lead to its location, and the steps of the source go on from there.
    rw [follow_append]
    constructor
    · rintro ⟨k, hk, hm⟩
      cases hfollow.symm.trans hk
      exact hm
    · exact fun hm => ⟨b, hfollow, hm⟩

/-- Whether a source leads to the same place behind two bases: it is relative, never leads above
    the directory it starts from, and can be followed behind both or behind none. -/
structure Movable (base base' : PathName) (source : String) : Prop where
  relative : (⟨source⟩ : PathName).isAbsolute = false
  stays : (⟨source⟩ : PathName).stays = true
  fault : pathFault? (base.join ⟨source⟩) = pathFault? (base'.join ⟨source⟩)

/-- A source can be moved back. -/
theorem Movable.symm {source : String} (h : Movable base base' source) :
    Movable base' base source := ⟨h.relative, h.stays, h.fault.symm⟩

/-- A source covers only what is below the base. -/
private theorem IsBase.exists_append (hbase : w.IsBase base b) {source : String}
    (hsource : Movable base base' source) {m : Location}
    (h : w.covers base source m = true) : ∃ l, m = b ++ l := by
  obtain ⟨root, hlocate, hroot⟩ := covers_iff.1 h
  obtain ⟨-, hfollow⟩ := (hbase.locate_join hsource.relative).1 hlocate
  -- No names have been walked below the base yet.
  rw [← List.append_nil b] at hfollow
  have hbelow : b <+: root :=
    @prefix_of_follow _ _ _ [] _ (staysBelow_stepsBehind hsource.stays) hfollow
  obtain ⟨l, hl⟩ := hbelow.trans hroot
  exact ⟨l, hl.symm⟩

/-- A source covers the same below both bases. -/
private theorem covers_of_covers (hbase : w.IsBase base b) (hbase' : w'.IsBase base' b')
    (hsame : w.SameBelow b w' b') {source : String} (hsource : Movable base base' source)
    (h : w.covers base source (b ++ l) = true) : w'.covers base' source (b' ++ l) = true := by
  obtain ⟨root, hlocate, hroot⟩ := covers_iff.1 h
  obtain ⟨hfault, hfollow⟩ := (hbase.locate_join hsource.relative).1 hlocate
  rw [← List.append_nil b] at hfollow
  obtain ⟨k, rfl, hfollow'⟩ :=
    @SameBelow.follow _ _ _ _ [] hsame _ _ (staysBelow_stepsBehind hsource.stays) hfollow
  rw [List.append_nil] at hfollow'
  refine covers_iff.2 ⟨b' ++ k, (hbase'.locate_join hsource.relative).2 ⟨?_, hfollow'⟩, ?_⟩
  · rw [← hsource.fault, hfault]
  · exact (List.prefix_append_right_inj b').2 ((List.prefix_append_right_inj b).1 hroot)

/-- Below either base a source covers the same names. -/
private theorem covers_relocated (hbase : w.IsBase base b) (hbase' : w'.IsBase base' b')
    (hsame : w.SameBelow b w' b') {source : String} (hsource : Movable base base' source)
    (l : Location) : w.covers base source (b ++ l) = w'.covers base' source (b' ++ l) := by
  rw [Bool.eq_iff_iff]
  exact ⟨covers_of_covers hbase hbase' hsame hsource,
    covers_of_covers hbase' hbase hsame.symm hsource.symm⟩

/-! ## What sources find -/

section Finds

variable {m : Manifest} {sources : List String} {found found' : List Location}

/-- There is no other list that is a list of what sources find. -/
theorem Finds.eq (h : w.Finds m base sources found) (h' : w.Finds m base sources found') :
    found = found' := by
  refine List.Perm.eq_of_pairwise (fun l k _ _ hlk hkl => ?_) h.sorted h'.sorted ?_
  · -- The order is strict, so no location is in front of another one and also behind it.
    rcases hlk with hlt | ⟨heq, hlt⟩
    · rcases hkl with hgt | ⟨heq', -⟩
      · exact absurd hgt (Nat.lt_asymm hlt)
      · exact absurd heq' (Nat.ne_of_gt hlt)
    · rcases hkl with hgt | ⟨-, hgt⟩
      · exact absurd heq (Nat.ne_of_gt hgt)
      · exact absurd hgt (lt_asymm hlt)
  · exact (List.perm_ext_iff_of_nodup h.nodup h'.nodup).2 fun l =>
      (h.mem_iff l).trans (h'.mem_iff l).symm

/-- A manifest lists what the standard one lists, apart from what it excludes. -/
private theorem lists_iff :
    w.Lists m l ↔ w.Lists .standard l ∧ (!m.isExcluded l.path) = true := by
  rw [Bool.not_eq_true']
  exact ⟨fun h => ⟨⟨h.holdsFile, h.isScript, rfl⟩, h.included⟩,
    fun ⟨h, hincluded⟩ => ⟨h.holdsFile, h.isScript, hincluded⟩⟩

/-- A manifest keeps those of all scripts that its patterns do not match. -/
theorem Finds.filter (h : w.Finds .standard base sources found) (m : Manifest) :
    w.Finds m base sources (found.filter fun l => !m.isExcluded l.path) := by
  refine ⟨fun l => ?_, h.sorted.filter _⟩
  rw [List.mem_filter, h.mem_iff, lists_iff (m := m), and_right_comm]

/-- Below a directory, a file has a name of its own. -/
theorem IsBase.ne_nil (hbase : w.IsBase base b) (h : w.HoldsFile (b ++ l)) : l ≠ [] := by
  rintro rfl
  obtain ⟨content, hentry⟩ := h
  rw [List.append_nil, (find_eq_ok.1 hbase.find).2] at hentry
  cases hentry

/-- What is listed below one base is listed below the other. -/
theorem lists_relocated (hbase : w.IsBase base b) (hsame : w.SameBelow b w' b')
    (h : w.Lists .standard (b ++ l)) : w'.Lists .standard (b' ++ l) := by
  have hl := hbase.ne_nil h.holdsFile
  have hscript := (Location.isScript_append hl).1 h.isScript
  exact ⟨hsame.holdsFile.1 h.holdsFile, (Location.isScript_append hl).2 hscript, rfl⟩

/-- The first source that covers a name is the same one below either base. -/
private theorem firstSource_relocated (hbase : w.IsBase base b) (hbase' : w'.IsBase base' b')
    (hsame : w.SameBelow b w' b') (hsources : ∀ s ∈ sources, Movable base base' s)
    (l : Location) :
    w.firstSource base sources (b ++ l) = w'.firstSource base' sources (b' ++ l) := by
  unfold firstSource
  induction sources with
  | nil => rfl
  | cons source sources ih =>
    obtain ⟨hsource, hrest⟩ := List.forall_mem_cons.1 hsources
    rw [List.findIdx_cons, List.findIdx_cons, ih hrest,
      covers_relocated hbase hbase' hsame hsource]

/-- Without patterns, sources find the same at both places. -/
theorem Finds.relocated (hbase : w.IsBase base b) (hbase' : w'.IsBase base' b')
    (hsame : w.SameBelow b w' b') (hsources : ∀ s ∈ sources, Movable base base' s)
    (h : w.Finds .standard base sources (found.map (b ++ ·))) :
    w'.Finds .standard base' sources (found.map (b' ++ ·)) := by
  refine ⟨fun l => ⟨fun hl => ?_, fun ⟨hlists, source, hmem, hcovers⟩ => ?_⟩, ?_⟩
  -- What is found at the first place is below its base and moves on from there.
  · obtain ⟨k, hk, rfl⟩ := List.mem_map.1 hl
    obtain ⟨hlists, source, hmem, hcovers⟩ := (h.mem_iff _).1 (List.mem_map_of_mem hk)
    exact ⟨lists_relocated hbase hsame hlists, source, hmem,
      covers_of_covers hbase hbase' hsame (hsources source hmem) hcovers⟩
  · -- What is found at the second place is below it, so it can be moved back to the first.
    have hsource := (hsources source hmem).symm
    obtain ⟨k, rfl⟩ := hbase'.exists_append hsource hcovers
    have hfound := (h.mem_iff (b ++ k)).2 ⟨lists_relocated hbase' hsame.symm hlists, source, hmem,
      covers_of_covers hbase' hbase hsame.symm hsource hcovers⟩
    obtain ⟨k', hk', heq⟩ := List.mem_map.1 hfound
    rw [← List.append_cancel_left heq]
    exact List.mem_map_of_mem hk'
  · -- Moving keeps the first source of a location and the order of the names.
    have hsorted := h.sorted
    rw [List.pairwise_map] at hsorted ⊢
    simp only [Location.append_lt_append_iff] at hsorted ⊢
    simpa only [firstSource_relocated hbase hbase' hsame hsources] using hsorted

/-- All that sources find is below the base. -/
private theorem IsBase.exists_map (hbase : w.IsBase base b)
    (hsources : ∀ s ∈ sources, Movable base base' s) (h : w.Finds m base sources found) :
    ∃ below : List Location, found = below.map (b ++ ·) := by
  -- The names of the base are taken away from every location, and put back.
  have hid : found.map ((b ++ ·) ∘ List.drop b.length) = found.map id := by
    refine List.map_congr_left fun l hl => ?_
    obtain ⟨-, source, hmem, hcovers⟩ := (h.mem_iff l).1 hl
    obtain ⟨k, rfl⟩ := hbase.exists_append (hsources source hmem) hcovers
    rw [Function.comp_apply, List.drop_left, id]
  exact ⟨found.map (List.drop b.length), by rw [List.map_map, hid, List.map_id]⟩

end Finds

end Workspace

/-! ## Patterns -/

open Workspace

/-- What sources find for a manifest, when what they find without patterns is known. -/
theorem Workspace.IsBase.scanSources_eq {w : Workspace} {base : PathName} {b : Location}
    (hbase : w.IsBase base b) {sources : List String} {found : List Location}
    (h : w.Finds .standard base sources (found.map (b ++ ·))) (m : Manifest) :
    Script.scanSources w m base sources =
      (found.filter fun l => !m.isExcluded (Location.path (b ++ l))).map
        fun l => Location.path (b ++ l) := by
  -- Both lists are what the sources find for the manifest, and there is only one such list.
  obtain ⟨kept, hscan, hkept⟩ := hbase.isTree.exists_finds m hbase.nameable sources
  rw [hscan, hkept.eq (h.filter m), List.filter_map, List.map_map]
  rfl

/-- Patterns that ignore the place of a tree are as good as compared with what is below. -/
theorem Workspace.IsBase.filter_isExcluded {w : Workspace} {base : PathName} {b : Location}
    (hbase : w.IsBase base b) {sources : List String} {found : List Location}
    (h : w.Finds .standard base sources (found.map (b ++ ·))) {m : Manifest}
    (hm : ∀ pattern ∈ m.excludes, (Exclusion.ofText pattern).Ignores b) :
    (found.filter fun l => !m.isExcluded (Location.path (b ++ l))) =
      found.filter fun l => !m.isExcluded l.path := by
  refine List.filter_congr fun l hl => ?_
  have hfile := ((h.mem_iff _).1 (List.mem_map_of_mem hl)).1.holdsFile
  rw [Manifest.isExcluded_path_append (hbase.ne_nil hfile)
    (hbase.isTree.isProper_of_holdsFile hfile) hm]

/-- Let two path names lead to directories of trees in which the same directories and files lie
    below, and let some sources be relative, never lead above the directory they start from, and be
    short enough behind both path names or behind none. Then there are some scripts, named from
    these directories on, such that the sources find those of them at either place whose absolute
    path name no pattern of a manifest matches, in the same order. When the patterns ignore the
    names of both directories, the same scripts remain at both places: those whose path name from
    the directory on is not matched. -/
theorem scanSources_relocated {w w' : Workspace} {base base' : PathName} {b b' : Location}
    (hbase : w.IsBase base b) (hbase' : w'.IsBase base' b') (hsame : w.SameBelow b w' b')
    {sources : List String} (hsources : ∀ s ∈ sources, Movable base base' s) :
    ∃ found : List Location,
      (∀ m, Script.scanSources w m base sources =
        (found.filter fun l => !m.isExcluded (Location.path (b ++ l))).map
          fun l => Location.path (b ++ l)) ∧
      (∀ m, Script.scanSources w' m base' sources =
        (found.filter fun l => !m.isExcluded (Location.path (b' ++ l))).map
          fun l => Location.path (b' ++ l)) ∧
      ∀ m : Manifest, (∀ pattern ∈ m.excludes,
        (Exclusion.ofText pattern).Ignores b ∧ (Exclusion.ofText pattern).Ignores b') →
        let kept := found.filter fun l => !m.isExcluded l.path
        Script.scanSources w m base sources = kept.map (fun l => Location.path (b ++ l)) ∧
          Script.scanSources w' m base' sources = kept.map fun l => Location.path (b' ++ l) := by
  -- What the first base finds without patterns is named from there on, and moved to the second.
  obtain ⟨all, -, hall⟩ := hbase.isTree.exists_finds .standard hbase.nameable sources
  obtain ⟨found, rfl⟩ := hbase.exists_map hsources hall
  have hall' := hall.relocated hbase hbase' hsame hsources
  refine ⟨found, hbase.scanSources_eq hall, hbase'.scanSources_eq hall', fun m hm => ⟨?_, ?_⟩⟩
  · rw [hbase.scanSources_eq hall,
      hbase.filter_isExcluded hall fun pattern hpattern => (hm pattern hpattern).1]
  · rw [hbase'.scanSources_eq hall',
      hbase'.filter_isExcluded hall' fun pattern hpattern => (hm pattern hpattern).2]

/-- A script and a directory that is left out, once below one directory and once below two. -/
theorem scanSources_relocated_twice :
    let null : Entry := .file (.bytes "null".toUTF8)
    let w : Workspace :=
      ⟨[(["a"], .directory), (["a", "x.weave"], null), (["a", "old"], .directory),
        (["a", "old", "y.weave"], null), (["b"], .directory), (["b", "c"], .directory),
        (["b", "c", "x.weave"], null), (["b", "c", "old"], .directory),
        (["b", "c", "old", "y.weave"], null)], []⟩
    let m : Manifest := { Manifest.standard with excludes := ["**/old/*", "*.bak"] }
    (w.IsBase ⟨"/a"⟩ ["a"] ∧ w.IsBase ⟨"/b/c"⟩ ["b", "c"] ∧ w.SameBelow ["a"] w ["b", "c"] ∧
      Movable ⟨"/a"⟩ ⟨"/b/c"⟩ "old/../." ∧
      ∀ pattern ∈ m.excludes, (Exclusion.ofText pattern).Ignores ["a"] ∧
        (Exclusion.ofText pattern).Ignores ["b", "c"]) ∧
      ∃ kept : List Location, kept ≠ [] ∧
        Script.scanSources w m ⟨"/a"⟩ ["old/../."] =
          kept.map (fun l => Location.path (["a"] ++ l)) ∧
        Script.scanSources w m ⟨"/b/c"⟩ ["old/../."] =
          kept.map fun l => Location.path (["b", "c"] ++ l) := by
  intro null w m
  have hw : w.IsTree := by decide +kernel
  have hbase : w.IsBase ⟨"/a"⟩ ["a"] := ⟨hw, .inl (by decide +kernel), by decide +kernel⟩
  have hbase' : w.IsBase ⟨"/b/c"⟩ ["b", "c"] := ⟨hw, .inl (by decide +kernel), by decide +kernel⟩
  have hsame : w.SameBelow ["a"] w ["b", "c"] := by decide +kernel
  have hsource : Movable ⟨"/a"⟩ ⟨"/b/c"⟩ "old/../." :=
    ⟨by decide +kernel, by decide +kernel, by decide +kernel⟩
  have hm : ∀ pattern ∈ m.excludes, (Exclusion.ofText pattern).Ignores ["a"] ∧
      (Exclusion.ofText pattern).Ignores ["b", "c"] := by decide +kernel
  obtain ⟨found, -, -, hkept⟩ :=
    scanSources_relocated hbase hbase' hsame (List.forall_mem_singleton.2 hsource)
  obtain ⟨hscan, hscan'⟩ := hkept m hm
  refine ⟨⟨hbase, hbase', hsame, hsource, hm⟩, _, fun hnil => ?_, hscan, hscan'⟩
  have hfound : Script.scanSources w m ⟨"/a"⟩ ["old/../."] = [⟨"/a/x.weave"⟩] := by decide +kernel
  rw [hscan, hnil] at hfound
  cases hfound

/-- A script below two directories, one of which has a name above it that the pattern is for. -/
theorem scanSources_archived :
    let null : Entry := .file (.bytes "null".toUTF8)
    let w : Workspace :=
      ⟨[(["archive"], .directory), (["archive", "p"], .directory),
        (["archive", "p", "a.weave"], null), (["live"], .directory), (["live", "p"], .directory),
        (["live", "p", "a.weave"], null)], []⟩
    let m : Manifest := { Manifest.standard with excludes := ["**/archive/*"] }
    (w.IsBase ⟨"/archive/p"⟩ ["archive", "p"] ∧ w.IsBase ⟨"/live/p"⟩ ["live", "p"] ∧
      w.SameBelow ["archive", "p"] w ["live", "p"] ∧
      Movable ⟨"/archive/p"⟩ ⟨"/live/p"⟩ ".") ∧
      Script.scanSources w m ⟨"/archive/p"⟩ ["."] = [] ∧
      Script.scanSources w m ⟨"/live/p"⟩ ["."] = [⟨"/live/p/a.weave"⟩] ∧
      ¬ ∃ kept : List Location,
        Script.scanSources w m ⟨"/archive/p"⟩ ["."] =
          kept.map (fun l => Location.path (["archive", "p"] ++ l)) ∧
        Script.scanSources w m ⟨"/live/p"⟩ ["."] =
          kept.map fun l => Location.path (["live", "p"] ++ l) := by
  intro null w m
  have hw : w.IsTree := by decide +kernel
  have hnone : Script.scanSources w m ⟨"/archive/p"⟩ ["."] = [] := by decide +kernel
  have hone : Script.scanSources w m ⟨"/live/p"⟩ ["."] = [⟨"/live/p/a.weave"⟩] := by
    decide +kernel
  refine ⟨⟨⟨hw, .inl (by decide +kernel), by decide +kernel⟩,
    ⟨hw, .inl (by decide +kernel), by decide +kernel⟩, by decide +kernel,
    ⟨by decide +kernel, by decide +kernel, by decide +kernel⟩⟩, hnone, hone, ?_⟩
  -- The first list would have to be empty and the second one would not.
  rintro ⟨kept, hkept, hkept'⟩
  rw [hnone, eq_comm, List.map_eq_nil_iff] at hkept
  rw [hone, hkept] at hkept'
  cases hkept'

end Tapestry
