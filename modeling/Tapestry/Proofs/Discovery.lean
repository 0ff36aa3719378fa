import Mathlib.Data.List.Lex
import Mathlib.Data.String.Basic
import Tapestry.Proofs.Alike
import Tapestry.Proofs.Trees
import Tapestry.Script

/-!
# Discovery of scripts

The sources of a manifest are scanned one after the other, and what a source leads to that was not
found before goes to the end of the list. In a tree of files this comes to a description that no
longer speaks of scanning: which files are found, and in which order.

Path names are compared by their components. For the absolute path names of locations this is the
lexicographic order of the lists of names, in which a directory, with all that it holds, stands
where its own name stands.

## Key results

- `Location.precedes_path`: the order of the absolute path names of locations
- `Location.isScript_path`: which of them are those of scripts
- `IsTree.exists_scan`: the scripts of one source
- `Finds.concat`: what one more source adds
- `scanSources_exact`: the scripts of all sources, and their order
-/

namespace Tapestry

open PathName

/-! ## Order -/

/-- Lists are compared like the lists of what their members are sent to. -/
private theorem lex_map {α β : Type} [BEq α] [LawfulBEq α] [BEq β] [LawfulBEq β] {f : α → β}
    (hf : Function.Injective f) (lt : β → β → Bool) (l m : List α) :
    (l.map f).lex (m.map f) lt = l.lex m fun a b => lt (f a) (f b) := by
  induction l generalizing m with
  | nil => cases m <;> rfl
  | cons a l ih =>
    cases m with
    | nil => rfl
    | cons b m =>
      -- Components are told apart by their keys, so both comparisons find the same first
      -- difference.
      have hbeq : (f a == f b) = (a == b) := by
        rw [Bool.eq_iff_iff, beq_iff_eq, beq_iff_eq, hf.eq_iff]
      rw [List.map_cons, List.map_cons, List.cons_lex_cons, List.cons_lex_cons, ih, hbeq]

/-- The comparison that sorting uses decides the lexicographic order. -/
private theorem lex_eq_decide_lt {α : Type} [BEq α] [LawfulBEq α] [LT α] [DecidableEq α]
    [DecidableLT α] (l m : List α) : (l.lex m fun a b => decide (a < b)) = decide (l < m) := by
  rw [Bool.eq_iff_iff, List.lex_eq_true_iff_lex, decide_eq_true_iff]
  simp only [decide_eq_true_iff]
  rfl

/-- Components that are names are compared by their characters. -/
private theorem lex_sortKey (s t : String) :
    ((Component.name s).sortKey.lex (Component.name t).sortKey fun i j => decide (i < j)) =
      decide (s < t) := by
  have hinjective : Function.Injective Char.toNat := fun _ _ => Char.toNat_inj.1
  have hchars : (s.toList.lex t.toList fun c d => decide (c.toNat < d.toNat)) = decide (s < t) :=
    (lex_eq_decide_lt s.toList t.toList).trans (decide_eq_decide.2 String.lt_iff_toList_lt.symm)
  rw [Component.sortKey, Component.sortKey, List.cons_lex_cons, lex_map hinjective, hchars]
  simp

/-- Names are told apart by their keys. -/
private theorem sortKey_name_injective :
    Function.Injective fun s => (Component.name s).sortKey := by
  intro s t h
  have hchars := (List.cons.inj h).2
  exact String.toList_inj.1 ((List.map_injective_iff.2 fun _ _ => Char.toNat_inj.1) hchars)

namespace Location

variable {l m : Location}

/-- The path names of locations are ordered like the lists of their names. -/
theorem precedes_path (hl : l.IsProper) (hm : m.IsProper) :
    l.path.precedes m.path = !decide (m < l) := by
  have hkey {l : Location} (hl : l.IsProper) :
      l.path.sortKey = [0] :: l.map fun s => (Component.name s).sortKey := by
    rw [sortKey, components_path hl, List.map_cons, List.map_map]
    rfl
  rw [precedes, hkey hl, hkey hm, List.cons_lex_cons, lex_map sortKey_name_injective]
  simp only [lex_sortKey]
  rw [lex_eq_decide_lt m l]
  simp

/-- Different locations have different path names. -/
private theorem samePath_path (hl : l.IsProper) (hm : m.IsProper) :
    l.path.samePath m.path = decide (l = m) := by
  have hinjective : Function.Injective Component.name := fun _ _ => Component.name.inj
  rw [samePath, decide_eq_decide, components_path hl, components_path hm, List.cons.injEq,
    (List.map_injective_iff.2 hinjective).eq_iff, and_iff_right rfl]

end Location

/-! ## Scripts -/

/-- What is behind the last dot of a name, with something in front of the dot. -/
private theorem extensionOf?_eq_some {name ext : List Char} :
    extensionOf? name = some ext ↔ '.' ∉ ext ∧ ∃ stem, stem ≠ [] ∧ name = stem ++ '.' :: ext := by
  unfold extensionOf?
  constructor
  · intro h
    split at h
    -- The name is searched from its end, so what comes first there is the extension.
    · next ext' stem hsplit =>
      obtain ⟨c, hc, hname, hext⟩ := Text.splitOnce_eq_some hsplit
      split at h
      · cases h
      · next hstem =>
        cases h
        obtain rfl : c = '.' := by simpa using hc
        refine ⟨fun hmem => ?_, stem.reverse, by simpa using hstem, ?_⟩
        · simpa using hext '.' (List.mem_reverse.1 hmem)
        · rw [← List.reverse_reverse name, hname]
          simp
    · cases h
  · rintro ⟨hext, stem, hstem, rfl⟩
    -- Behind the last dot there is no other one.
    have hnone : Text.splitOnce (· == '.') ext.reverse = none :=
      splitOnce_eq_none fun c hc => beq_false_of_ne fun h => hext (h ▸ List.mem_reverse.1 hc)
    have hreverse : (stem ++ '.' :: ext).reverse = ext.reverse ++ '.' :: stem.reverse := by simp
    rw [hreverse, splitOnce_append (p := (· == '.')) rfl, hnone]
    simp [hstem]

/-- Whether the last name of a location is something in front of the extension of scripts. -/
def Location.IsScript (l : Location) : Prop :=
  ∃ stem, stem ≠ "" ∧ l.getLast? = some (stem ++ ".weave")

/-- A path leads to a script when the last name of its place has the suffix of one. -/
theorem Location.isScript_path {l : Location} (hl : l.IsProper) :
    Script.isScript l.path = true ↔ l.IsScript := by
  -- The path of a location ends with its last name, apart from the root, which has none.
  have hname : l.path.fileName? = l.getLast? := by
    rw [fileName?, Location.components_path hl]
    rcases List.eq_nil_or_concat l with rfl | ⟨front, s, rfl⟩
    · rfl
    · rw [List.concat_eq_append, List.map_append, List.map_singleton, ← List.cons_append,
        List.getLast?_concat, List.getLast?_concat]
  -- So the extension of the path is that of the last name.
  have hextension (ext : String) : l.path.extension? = some ext ↔
      ∃ s, l.getLast? = some s ∧ extensionOf? s.toList = some ext.toList := by
    rw [extension?, hname, Option.map_eq_some_iff]
    constructor
    · rintro ⟨cs, hcs, rfl⟩
      obtain ⟨s, hs, hext⟩ := Option.bind_eq_some_iff.1 hcs
      exact ⟨s, hs, by rwa [String.toList_ofList]⟩
    · rintro ⟨s, hs, hext⟩
      exact ⟨ext.toList, Option.bind_eq_some_iff.2 ⟨s, hs, hext⟩, String.ofList_toList⟩
  rw [Script.isScript, decide_eq_true_iff, Script.fileExtension, hextension]
  constructor
  -- What is in front of the extension is the stem, which may not be empty.
  · rintro ⟨s, hs, hext⟩
    obtain ⟨-, stem, hstem, hname⟩ := extensionOf?_eq_some.1 hext
    refine ⟨String.ofList stem, fun h => hstem ?_, ?_⟩
    · rw [← @String.toList_ofList stem, h]
      rfl
    · rw [hs]
      refine congrArg some (String.toList_inj.1 ?_)
      rw [hname, String.toList_append, @String.toList_ofList stem]
      rfl
  · rintro ⟨stem, hstem, hs⟩
    refine ⟨_, hs, extensionOf?_eq_some.2 ⟨by decide +kernel, stem.toList, ?_, ?_⟩⟩
    · exact fun h => hstem (String.toList_inj.1 h)
    · rw [String.toList_append]
      rfl

/-! ## Sources -/

namespace Workspace

/-- Whether there is a script at a location that a manifest does not leave out. -/
structure Lists (w : Workspace) (m : Manifest) (l : Location) : Prop where
  holdsFile : w.HoldsFile l
  isScript : l.IsScript
  included : m.isExcluded l.path = false

/-- Whether a location is the one that a source leads to, or lies below it. -/
def covers (w : Workspace) (base : PathName) (source : String) (l : Location) : Bool :=
  match w.locate (base.join ⟨source⟩) with
  | .ok root => root.isPrefixOf l
  | .error _ => false

/-- How many sources are in front of the first one that covers a location. -/
def firstSource (w : Workspace) (base : PathName) (sources : List String) (l : Location) : Nat :=
  sources.findIdx (w.covers base · l)

/-- Whether the absolute path name of everything can be followed. -/
def Nameable (w : Workspace) : Prop := ∀ l e, w.entryAt l = some e → pathFault? l.path = none

variable {w : Workspace} {m : Manifest} {base : PathName} {source : String} {l : Location}

/-- A source covers a place exactly when it leads to a place above it, or to that place itself. -/
theorem covers_iff :
    w.covers base source l = true ↔
      ∃ root, w.locate (base.join ⟨source⟩) = .ok root ∧ root <+: l := by
  unfold covers
  split
  · next root h => simp [h]
  · next e h => simp [h]

/-- What a file lies below is there. -/
private theorem IsTree.exists_entryAt (hw : w.IsTree) {root : Location} (h : w.HoldsFile l)
    (hroot : root <+: l) : ∃ e, w.entryAt root = some e := by
  obtain ⟨content, hentry⟩ := h
  obtain ⟨names, rfl⟩ := hroot
  by_cases hnames : names = []
  · rw [hnames, List.append_nil] at hentry
    exact ⟨_, hentry⟩
  · exact ⟨_, hw.entryAt_above hnames hentry⟩

/-- A source that leads nowhere covers no file. -/
private theorem IsTree.covers_of_find (hw : w.IsTree) {e : FileError}
    (hfind : w.find (base.join ⟨source⟩) = .error e) (h : w.HoldsFile l) :
    w.covers base source l = false := by
  rw [Bool.eq_false_iff, Ne, covers_iff]
  rintro ⟨root, hlocate, hroot⟩
  obtain ⟨entry, hentry⟩ := hw.exists_entryAt h hroot
  rw [find_eq_ok.2 ⟨hlocate, hentry⟩] at hfind
  cases hfind

/-- A source that leads nowhere has no scripts. -/
private theorem scan_of_find {e : FileError} (hfind : w.find (base.join ⟨source⟩) = .error e) :
    Script.scan w m (Script.locateSource w base source) = [] := by
  simp [Script.locateSource, Script.scan, resolve?, filesBelow, hfind]

/-- The absolute path name of what a source leads to can be followed. -/
private theorem IsTree.pathFault?_source (hw : w.IsTree)
    (hbase : base.isAbsolute = true ∨ w.Nameable) {root : Location} {e : Entry}
    (hfind : w.find (base.join ⟨source⟩) = .ok (root, e)) : pathFault? root.path = none := by
  obtain ⟨hlocate, hentry⟩ := find_eq_ok.1 hfind
  rcases hbase with habsolute | hnameable
  · have hjoin := isAbsolute_join_of_isAbsolute (b := ⟨source⟩) habsolute
    exact pathFault?_path hjoin hlocate (hw.isProper_of_entryAt hentry)
  · exact hnameable root e hentry

/-- The scripts at or below a location, each once and in ascending order. -/
private theorem IsTree.exists_scan_path (hw : w.IsTree) (m : Manifest) {root : Location} {e : Entry}
    (hentry : w.entryAt root = some e) (hfault : pathFault? root.path = none) :
    ∃ found : List Location,
      Script.scan w m root.path = found.map Location.path ∧ found.Pairwise (· < ·) ∧
      ∀ l, l ∈ found ↔ w.Lists m l ∧ root <+: l := by
  have hproper : ∀ l ∈ w.filesAt root, l.IsProper := fun l hl =>
    hw.isProper_of_holdsFile (hw.mem_filesAt.1 hl).1
  -- The path names that are found are the absolute ones of the files.
  have hbelow : w.filesBelow root.path = (w.filesAt root).map Location.path := by
    rw [hw.filesBelow_eq (hw.find_path hentry hfault)]
    refine List.map_congr_left fun l hl => ?_
    obtain ⟨⟨_, hfile⟩, names, rfl⟩ := hw.mem_filesAt.1 hl
    rw [List.drop_left]
    exact Location.descend_path (hw.isProper_of_entryAt hentry) (hw.isFileName_below hfile)
  let keeps (q : PathName) : Bool := Script.isScript q && !m.isExcluded q
  let kept := (w.filesAt root).filter (keeps ∘ Location.path)
  let before (a b : Location) : Bool := !decide (b < a)
  have hkept : ∀ l ∈ kept, l.IsProper := fun l hl => hproper l (List.mem_filter.1 hl).1
  refine ⟨kept.mergeSort before, ?_, ?_, fun l => ?_⟩
  · rw [Script.scan, hbelow, List.filter_map]
    exact (List.map_mergeSort fun a ha b hb =>
      (Location.precedes_path (hkept a ha) (hkept b hb)).symm).symm
  · have hbefore {a b : Location} : before a b = true ↔ a ≤ b := by simp [before]
    have hsorted : (kept.mergeSort before).Pairwise fun a b => before a b = true :=
      @List.pairwise_mergeSort _ before
        (fun a b c hab hbc => hbefore.2 (le_trans (hbefore.1 hab) (hbefore.1 hbc)))
        (fun a b => Bool.or_eq_true_iff.2 ((le_total a b).imp hbefore.2 hbefore.2)) kept
    have hnodup : (kept.mergeSort before).Nodup :=
      (List.mergeSort_perm _ _).nodup_iff.2 ((hw.nodup_filesAt root).filter _)
    exact (hsorted.and hnodup).imp fun h => lt_of_le_of_ne (hbefore.1 h.1) h.2
  · rw [List.mem_mergeSort, List.mem_filter]
    simp only [Function.comp_apply, keeps, Bool.and_eq_true, Bool.not_eq_true']
    constructor
    · rintro ⟨hl, hscript, hincluded⟩
      obtain ⟨hfile, hroot⟩ := hw.mem_filesAt.1 hl
      exact ⟨⟨hfile, (Location.isScript_path (hproper l hl)).1 hscript, hincluded⟩, hroot⟩
    · rintro ⟨hlists, hroot⟩
      have hl := hw.mem_filesAt.2 ⟨hlists.holdsFile, hroot⟩
      exact ⟨hl, (Location.isScript_path (hproper l hl)).2 hlists.isScript, hlists.included⟩

/-- The scripts of one source, each once and in ascending order. -/
theorem IsTree.exists_scan (hw : w.IsTree) (m : Manifest)
    (hbase : base.isAbsolute = true ∨ w.Nameable) (source : String) :
    ∃ found : List Location,
      Script.scan w m (Script.locateSource w base source) = found.map Location.path ∧
      found.Pairwise (· < ·) ∧
      ∀ l, l ∈ found ↔ w.Lists m l ∧ w.covers base source l = true := by
  cases hfind : w.find (base.join ⟨source⟩) with
  -- A source that leads nowhere covers nothing.
  | error e =>
    refine ⟨[], scan_of_find hfind, .nil, fun l => ?_⟩
    simp only [List.not_mem_nil, false_iff, not_and, Bool.not_eq_true]
    exact fun h => hw.covers_of_find hfind h.holdsFile
  | ok pair =>
    obtain ⟨root, e⟩ := pair
    obtain ⟨hlocate, hentry⟩ := find_eq_ok.1 hfind
    -- What the source leads to is scanned from the root, and what is below it is covered.
    have hsource : Script.locateSource w base source = root.path := by
      simp only [Script.locateSource, resolve?, hfind, Option.getD_some]
    have hcovers (l : Location) : w.covers base source l = true ↔ root <+: l := by
      rw [covers, hlocate]
      exact List.isPrefixOf_iff_prefix
    rw [hsource]
    simp only [hcovers]
    exact hw.exists_scan_path m hentry (hw.pathFault?_source hbase hfind)

/-- Adding path names of locations appends those that are not there yet. -/
private theorem addNew_map_path {found new : List Location} (hfound : ∀ l ∈ found, l.IsProper)
    (hnew : ∀ l ∈ new, l.IsProper) (hnodup : new.Nodup) :
    Script.addNew (found.map Location.path) (new.map Location.path) =
      (found ++ new.filter (· ∉ found)).map Location.path := by
  induction new generalizing found with
  | nil => rw [List.filter_nil, List.append_nil]; rfl
  | cons l new ih =>
    obtain ⟨hl, hrest⟩ := List.forall_mem_cons.1 hnew
    obtain ⟨hnot, hnodup⟩ := List.nodup_cons.1 hnodup
    have hany : (found.map Location.path).any l.path.samePath = decide (l ∈ found) := by
      rw [Bool.eq_iff_iff, List.any_eq_true, decide_eq_true_iff]
      constructor
      · rintro ⟨_, hq, hsame⟩
        obtain ⟨k, hk, rfl⟩ := List.mem_map.1 hq
        rw [Location.samePath_path hl (hfound k hk), decide_eq_true_iff] at hsame
        exact hsame ▸ hk
      · exact fun hmem => ⟨l.path, List.mem_map_of_mem hmem,
          by rw [Location.samePath_path hl hl, decide_eq_true_iff]⟩
    have hstep : Script.addNew (found.map Location.path) ((l :: new).map Location.path) =
        Script.addNew (if l ∈ found then found.map Location.path
          else found.map Location.path ++ [l.path]) (new.map Location.path) := by
      simp only [Script.addNew, List.map_cons, List.foldl_cons, hany, decide_eq_true_eq]
    rw [hstep]
    by_cases hmem : l ∈ found
    · rw [if_pos hmem, ih hfound hrest hnodup, List.filter_cons_of_neg (by simpa using hmem)]
    · have hmore : ∀ k ∈ found ++ [l], k.IsProper :=
        List.forall_mem_append.2 ⟨hfound, by simpa using hl⟩
      -- The location that was added is not among the ones that are still to come.
      have hfilter : new.filter (· ∉ found ++ [l]) = new.filter (· ∉ found) := by
        refine List.filter_congr fun k hk => ?_
        have hne : k ≠ l := fun h => hnot (h ▸ hk)
        simp [hne]
      have hconcat : found.map Location.path ++ [l.path] = (found ++ [l]).map Location.path := by
        rw [List.map_append, List.map_singleton]
      rw [if_neg hmem, hconcat, ih hmore hrest hnodup, hfilter,
        List.filter_cons_of_pos (by simpa using hmem), List.append_assoc, List.singleton_append]

/-- What comes of a list of sources: the scripts that they cover, in the order of the first source
    that covers them, and in ascending order where this is the same one. -/
structure Finds (w : Workspace) (m : Manifest) (base : PathName) (sources : List String)
    (found : List Location) : Prop where
  mem_iff : ∀ l, l ∈ found ↔ w.Lists m l ∧ ∃ source ∈ sources, w.covers base source l = true
  sorted : found.Pairwise fun l k =>
    w.firstSource base sources l < w.firstSource base sources k ∨
      w.firstSource base sources l = w.firstSource base sources k ∧ l < k

/-- No script is found twice. -/
theorem Finds.nodup {sources : List String} {found : List Location}
    (h : w.Finds m base sources found) : found.Nodup := by
  refine h.sorted.imp fun {l k} hlt heq => ?_
  rw [heq] at hlt
  exact hlt.elim (Nat.lt_irrefl _) fun hlt => lt_irrefl _ hlt.2

/-- The scripts of one more source go behind those that were found, in their order. -/
theorem Finds.concat {sources : List String} {found new : List Location}
    (h : w.Finds m base sources found) (hsorted : new.Pairwise (· < ·))
    (hnew : ∀ l, l ∈ new ↔ w.Lists m l ∧ w.covers base source l = true) :
    w.Finds m base (sources ++ [source]) (found ++ new.filter (· ∉ found)) := by
  -- A script that was found is covered by an earlier source, and a new one by the last one only.
  have hfirst {l : Location} (hl : l ∈ found) :
      w.firstSource base (sources ++ [source]) l = w.firstSource base sources l ∧
        w.firstSource base sources l < sources.length := by
    have hlt : w.firstSource base sources l < sources.length :=
      List.findIdx_lt_length.2 ((h.mem_iff l).1 hl).2
    refine ⟨?_, hlt⟩
    rw [firstSource, List.findIdx_append]
    exact if_pos hlt
  have hlast {l : Location} (hl : l ∈ new.filter (· ∉ found)) :
      w.firstSource base (sources ++ [source]) l = sources.length := by
    obtain ⟨hmem, hnot⟩ := List.mem_filter.1 hl
    obtain ⟨hlists, hcovers⟩ := (hnew l).1 hmem
    have hbehind : ¬ List.findIdx (w.covers base · l) sources < sources.length := fun hlt =>
      of_decide_eq_true hnot ((h.mem_iff l).2 ⟨hlists, List.findIdx_lt_length.1 hlt⟩)
    rw [firstSource, List.findIdx_append, if_neg hbehind]
    simp [List.findIdx_cons, hcovers]
  refine ⟨fun l => ?_, List.pairwise_append.2 ⟨?_, ?_, ?_⟩⟩
  · rw [List.mem_append, List.mem_filter, decide_eq_true_iff, hnew, h.mem_iff]
    simp only [List.mem_append, List.mem_singleton]
    constructor
    · rintro (⟨hlists, s, hs, hcovers⟩ | ⟨⟨hlists, hcovers⟩, -⟩)
      · exact ⟨hlists, s, .inl hs, hcovers⟩
      · exact ⟨hlists, source, .inr rfl, hcovers⟩
    · rintro ⟨hlists, s, hs | rfl, hcovers⟩
      · exact .inl ⟨hlists, s, hs, hcovers⟩
      · by_cases hmem : w.Lists m l ∧ ∃ source ∈ sources, w.covers base source l = true
        · exact .inl hmem
        · exact .inr ⟨⟨hlists, hcovers⟩, hmem⟩
  · refine h.sorted.imp_of_mem fun {l k} hl hk hlt => ?_
    rwa [(hfirst hl).1, (hfirst hk).1]
  · refine (hsorted.filter _).imp_of_mem fun {l k} hl hk hlt => .inr ⟨?_, hlt⟩
    rw [hlast hl, hlast hk]
  · intro l hl k hk
    rw [(hfirst hl).1, hlast hk]
    exact .inl (hfirst hl).2

/-- The scripts of some sources. -/
theorem IsTree.exists_finds (hw : w.IsTree) (m : Manifest)
    (hbase : base.isAbsolute = true ∨ w.Nameable) (sources : List String) :
    ∃ found : List Location,
      Script.scanSources w m base sources = found.map Location.path ∧
      w.Finds m base sources found := by
  -- The last source adds to what the others found, so the induction takes them from behind.
  induction sources using List.reverseRecOn with
  | nil => exact ⟨[], rfl, by simp, .nil⟩
  | append_singleton sources source ih =>
    obtain ⟨found, hscan, hfound⟩ := ih
    obtain ⟨new, hsource, hsorted, hnew⟩ := hw.exists_scan m hbase source
    refine ⟨_, ?_, hfound.concat hsorted hnew⟩
    have hnodup : new.Nodup := hsorted.imp ne_of_lt
    rw [Script.scanSources, List.foldl_append, ← Script.scanSources, hscan]
    simp only [List.foldl_cons, List.foldl_nil]
    rw [hsource]
    exact addNew_map_path (fun l hl => hw.isProper_of_holdsFile ((hfound.mem_iff l).1 hl).1.1)
      (fun l hl => hw.isProper_of_holdsFile ((hnew l).1 hl).1.1) hnodup

end Workspace

open Workspace

/-- Let the entries of a workspace be a tree, and let the base of some sources be absolute, or the
    absolute path name of everything in the tree be one that can be followed. The scripts that are
    found are named by their absolute path names, each once. They are the files with the extension
    of scripts that lie at or below what one of the sources leads to, and whose absolute path name
    no pattern of the manifest matches. They come in the order of the first source that they lie
    below, and below the same one in the order of their names, compared one after the other. A
    source that leads nowhere changes nothing. -/
theorem scanSources_exact {w : Workspace} (hw : w.IsTree) (m : Manifest) {base : PathName}
    (hbase : base.isAbsolute = true ∨ w.Nameable) (sources : List String) :
    ∃ found : List Location,
      Script.scanSources w m base sources = found.map Location.path ∧
      (Script.scanSources w m base sources).Nodup ∧
      (∀ l, l ∈ found ↔ w.Lists m l ∧ ∃ source ∈ sources, w.covers base source l = true) ∧
      (found.Pairwise fun l k =>
        w.firstSource base sources l < w.firstSource base sources k ∨
          w.firstSource base sources l = w.firstSource base sources k ∧ l < k) ∧
      ∀ before source after, sources = before ++ source :: after →
        w.pathExists (base.join ⟨source⟩) = false →
        Script.scanSources w m base sources = Script.scanSources w m base (before ++ after) := by
  -- The scan is that of one source after the other, which the list of locations follows.
  obtain ⟨found, hscan, hfinds⟩ := hw.exists_finds m hbase sources
  refine ⟨found, hscan, ?_, hfinds.mem_iff, hfinds.sorted, ?_⟩
  · rw [hscan]
    exact Location.nodup_map_path
      (fun l hl => hw.isProper_of_holdsFile ((hfinds.mem_iff l).1 hl).1.1) hfinds.nodup
  · rintro before source after rfl hmissing
    -- A source that does not exist is one that nothing is found at.
    obtain ⟨e, hfind⟩ : ∃ e, w.find (base.join ⟨source⟩) = .error e := by
      unfold pathExists at hmissing
      split at hmissing
      · cases hmissing
      · next e hfind => exact ⟨e, hfind⟩
    simp only [Script.scanSources, List.foldl_append, List.foldl_cons, scan_of_find hfind]
    rfl

/-- Sources inside each other, and one that leads nowhere. -/
theorem scanSources_exact_nested :
    let w : Workspace :=
      ⟨[(["w"], .directory), (["w", "a"], .directory),
        (["w", "a.weave"], .file (.picture (.blank 1 1))),
        (["w", "a", "b.weave"], .file (.picture (.blank 1 1))),
        (["w", "a", "c.txt"], .file (.picture (.blank 1 1)))], ["w"]⟩
    let sources := ["a", "missing", "."]
    (w.IsTree ∧ (⟨"/w"⟩ : PathName).isAbsolute = true) ∧
      (∃ found : List Location,
        Script.scanSources w .standard ⟨"/w"⟩ sources = found.map Location.path ∧
          ["w", "a", "b.weave"] ∈ found ∧ ["w", "a.weave"] ∈ found ∧
          ["w", "a", "c.txt"] ∉ found) ∧
      Script.scanSources w .standard ⟨"/w"⟩ sources =
        Script.scanSources w .standard ⟨"/w"⟩ ["a", "."] := by
  intro w sources
  have hw : w.IsTree := by decide +kernel
  have habsolute : (⟨"/w"⟩ : PathName).isAbsolute = true := by decide +kernel
  obtain ⟨found, hscan, -, hmem, -, hmissing⟩ :=
    scanSources_exact hw .standard (.inl habsolute) sources
  -- One script is below the first source, the other below the last one; the third file is no
  -- script.
  refine ⟨⟨hw, habsolute⟩, ⟨found, hscan, (hmem _).2 ⟨?_, "a", ?_, ?_⟩,
    (hmem _).2 ⟨?_, ".", ?_, ?_⟩, fun h => ?_⟩, hmissing ["a"] "missing" ["."] rfl ?_⟩
  · exact ⟨⟨_, rfl⟩, ⟨"b", by decide +kernel, by decide +kernel⟩, by decide +kernel⟩
  · decide +kernel
  · decide +kernel
  · exact ⟨⟨_, rfl⟩, ⟨"a", by decide +kernel, by decide +kernel⟩, by decide +kernel⟩
  · decide +kernel
  · decide +kernel
  · -- Names of scripts do not end in this letter.
    obtain ⟨stem, -, hstem⟩ := ((hmem _).1 h).1.isScript
    have hlast := congrArg (fun s : String => s.toList.getLast?) (Option.some.inj hstem)
    rw [String.toList_append, List.getLast?_append_of_ne_nil _ (by decide +kernel)] at hlast
    exact absurd hlast (by decide +kernel)
  · decide +kernel

end Tapestry
