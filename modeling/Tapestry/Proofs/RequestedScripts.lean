import Tapestry.Program.Batch
import Tapestry.Proofs.Discovery

/-!
# The scripts of a request

A batch runs the scripts that its path names lead to, or those of the sources of the manifest when
there are no path names. Sources name each script once. Path names do not: each of them brings the
scripts at or below what it leads to, whatever the others bring, and a script is listed as often as
it is brought.

## Key results

- `countP_gathered`: a path name brings a script at most once
- `countP_collect`: a script is listed as often as there are path names that bring it
- `Program.countP_scriptsOf`: how often a request lists a script
- `Program.scriptsOf_repeated`: a path name that is given twice
-/

namespace Tapestry

open PathName

namespace Workspace

variable {w : Workspace} {m : Manifest} {l : Location} {p q : PathName}

/-- Whether the names of a path name lead to a location. -/
def leadsTo (w : Workspace) (l : Location) (p : PathName) : Bool := w.destination? p = some l

/-- Whether a path name brings the script at a location: it leads to the file itself, or to a
    directory above the file whose path name behind this one no pattern matches. -/
def brings (w : Workspace) (m : Manifest) (l : Location) (p : PathName) : Bool :=
  match w.find p with
  | .error _ => false
  | .ok (root, e) =>
    let q := p.descend (l.drop root.length)
    (w.filesAt root).contains l && (Script.isScript q && (e.isFile || !m.isExcluded q))

/-- Whether what two path names lead to lies apart: neither is the other one or below it. -/
def Apart (w : Workspace) (p q : PathName) : Prop :=
  ∀ l e k f, w.find p = .ok (l, e) → w.find q = .ok (k, f) → ¬ l <+: k ∧ ¬ k <+: l

/-- The scripts that one path name of a request brings. -/
def gathered (w : Workspace) (m : Manifest) (p : PathName) : List PathName :=
  if w.isFile p then if Script.isScript p then [p] else [] else Script.scan w m p

/-- The scripts of the first path come first. -/
private theorem collect_cons (p : PathName) (paths : List PathName) :
    Script.collect w m (p :: paths) = w.gathered m p ++ Script.collect w m paths := rfl

/-- Up to their order, these are the scripts at or below what the path name leads to. Patterns are
    only asked about what is found below a directory. -/
private theorem gathered_perm {root : Location} {e : Entry} (hfind : w.find p = .ok (root, e)) :
    (w.gathered m p).Perm
      ((w.filesBelow p).filter fun q => Script.isScript q && (e.isFile || !m.isExcluded q)) := by
  cases e with
  | file content =>
    have hfile : w.isFile p = true := by simp [isFile, hfind]
    have hbelow : w.filesBelow p = [p] := by simp [filesBelow, hfind]
    rw [gathered, if_pos hfile, hbelow]
    by_cases hscript : Script.isScript p = true <;> simp [hscript, Entry.isFile]
  | directory =>
    have hfile : w.isFile p = false := by simp [isFile, hfind]
    rw [gathered, if_neg (Bool.eq_false_iff.1 hfile), Script.scan]
    simpa [Entry.isFile] using List.mergeSort_perm _ precedes

/-- A path name that leads nowhere brings nothing. -/
private theorem gathered_of_find {e : FileError} (hfind : w.find p = .error e) :
    w.gathered m p = [] := by
  simp [gathered, isFile, Script.scan, filesBelow, hfind]

/-- A path name brings a script once or not at all. -/
theorem countP_gathered (hw : w.IsTree) (m : Manifest) (l : Location) (p : PathName) :
    (w.gathered m p).countP (w.leadsTo l) = if w.brings m l p then 1 else 0 := by
  cases hfind : w.find p with
  | error e => simp [gathered_of_find hfind, brings, hfind]
  | ok pair =>
    obtain ⟨root, e⟩ := pair
    let found (k : Location) : PathName := p.descend (k.drop root.length)
    let keeps (q : PathName) : Bool := Script.isScript q && (e.isFile || !m.isExcluded q)
    -- What is found for a file leads to this file, so no two path names lead to the same one.
    have hleads : ∀ k ∈ w.filesAt root, w.leadsTo l (found k) = decide (k = l) := by
      intro k hk
      obtain ⟨⟨content, hentry⟩, names, rfl⟩ := hw.mem_filesAt.1 hk
      have hdestination := hw.destination?_descend (destination?_of_find hfind) hentry
      rw [leadsTo, decide_eq_decide]
      simp only [found, List.drop_left, hdestination, Option.some.injEq]
    have hbrings : w.brings m l p = ((w.filesAt root).contains l && keeps (found l)) := by
      rw [brings, hfind]
    calc (w.gathered m p).countP (w.leadsTo l)
        = (((w.filesAt root).map found).filter keeps).countP (w.leadsTo l) := by
          rw [(gathered_perm hfind).countP_eq, hw.filesBelow_eq hfind]
      _ = (w.filesAt root).countP fun k => decide (k = l) && keeps (found l) := by
          rw [List.countP_filter, List.countP_map]
          refine List.countP_congr fun k hk => ?_
          simp only [Function.comp_apply, hleads k hk]
          by_cases hkl : k = l
          · rw [hkl]
          · simp [hkl]
      _ = if w.brings m l p then 1 else 0 := by
          rw [hbrings]
          cases keeps (found l) with
          | false => simp
          | true =>
            have hcount := (hw.nodup_filesAt root).count (a := l)
            simpa [List.count, beq_eq_decide] using hcount

/-- A script is listed as often as there are path names that bring it. -/
theorem countP_collect (hw : w.IsTree) (m : Manifest) (l : Location) (paths : List PathName) :
    (Script.collect w m paths).countP (w.leadsTo l) = paths.countP (w.brings m l) := by
  induction paths with
  | nil => rfl
  | cons p paths ih =>
    rw [collect_cons, List.countP_append, countP_gathered hw, ih, List.countP_cons, Nat.add_comm]

/-- What a path name brings is at or below what it leads to. -/
private theorem exists_find_of_brings (hw : w.IsTree) (h : w.brings m l p = true) :
    ∃ root e, w.find p = .ok (root, e) ∧ root <+: l := by
  unfold brings at h
  split at h
  · exact absurd h Bool.false_ne_true
  · next root e hfind =>
    have hcontains := (Bool.and_eq_true_iff.1 h).1
    exact ⟨root, e, hfind, (hw.mem_filesAt.1 (List.contains_iff_mem.1 hcontains)).2⟩

/-- Of path names that lead to places apart, no two bring the same script. -/
private theorem countP_brings_le_one (hw : w.IsTree) (m : Manifest) (l : Location)
    {paths : List PathName} (h : paths.Pairwise w.Apart) : paths.countP (w.brings m l) ≤ 1 := by
  induction paths with
  | nil => exact Nat.zero_le 1
  | cons p paths ih =>
    obtain ⟨hp, hpaths⟩ := List.pairwise_cons.1 h
    rw [List.countP_cons]
    by_cases hbrings : w.brings m l p = true
    · have hnone : paths.countP (w.brings m l) = 0 := by
        -- Two paths that bring one script both lie above it, so one of them lies above the other.
        rw [List.countP_eq_zero]
        intro q hq hq'
        obtain ⟨root, e, hfind, hroot⟩ := exists_find_of_brings hw hbrings
        obtain ⟨root', e', hfind', hroot'⟩ := exists_find_of_brings hw hq'
        have hapart := hp q hq root e root' e' hfind hfind'
        exact (List.prefix_or_prefix_of_prefix hroot hroot').elim hapart.1 hapart.2
      rw [hnone, if_pos hbrings]
    · rw [if_neg hbrings]
      exact ih hpaths

end Workspace

namespace Program

open Workspace

/-- Let the entries of a workspace be a tree. Without path names, a request lists each script at
    most once. With path names, it lists a script as often as there are path names that bring it; so
    it lists each script at most once when what the path names lead to lies apart. -/
theorem countP_scriptsOf {w : Workspace} (hw : w.IsTree) (m : Manifest) :
    (∀ l, (scriptsOf w m []).countP (w.leadsTo l) ≤ 1) ∧
      ∀ paths, paths ≠ [] →
        (∀ l, (scriptsOf w m paths).countP (w.leadsTo l) = paths.countP (w.brings m l)) ∧
          (paths.Pairwise w.Apart → ∀ l, (scriptsOf w m paths).countP (w.leadsTo l) ≤ 1) := by
  refine ⟨fun l => ?_, fun paths hpaths => ?_⟩
  · -- Sources name the scripts by their absolute path names, and these lead back to the scripts.
    obtain ⟨found, hscan, hfinds⟩ :=
      hw.exists_finds m (.inl (Location.isAbsolute_path w.current)) m.sources
    have hleads : ∀ k ∈ found, w.leadsTo l k.path = decide (k = l) := by
      -- Absolute path names are followed from the root, wherever the program runs.
      intro k hk
      obtain ⟨content, hentry⟩ := ((hfinds.mem_iff k).1 hk).1.holdsFile
      rw [leadsTo, hw.destination?_path hentry, decide_eq_decide, Option.some.injEq]
    have hsources : scriptsOf w m [] = found.map Location.path := hscan
    have hcount : found.countP (w.leadsTo l ∘ Location.path) = found.count l :=
      List.countP_congr fun k hk => by
        rw [Function.comp_apply, hleads k hk, decide_eq_true_iff, beq_iff_eq]
    rw [hsources, List.countP_map, hcount]
    exact List.nodup_iff_count_le_one.1 hfinds.nodup l
  · have hcollect : scriptsOf w m paths = Script.collect w m paths := by
      obtain ⟨p, rest, rfl⟩ := List.exists_cons_of_ne_nil hpaths
      rfl
    rw [hcollect]
    refine ⟨fun l => countP_collect hw m l paths, fun hapart l => ?_⟩
    rw [countP_collect hw m l paths]
    exact countP_brings_le_one hw m l hapart

/-- A directory, a script in it that is given once more, and a script apart. -/
theorem countP_scriptsOf_overlapping :
    let w : Workspace :=
      ⟨[(["a"], .directory), (["a", "x.weave"], .file (.bytes "null".toUTF8)),
        (["y.weave"], .file (.bytes "null".toUTF8))], []⟩
    w.IsTree ∧
      (scriptsOf w .standard [⟨"a"⟩, ⟨"a/x.weave"⟩]).countP (w.leadsTo ["a", "x.weave"]) = 2 ∧
      (scriptsOf w .standard [⟨"a"⟩, ⟨"y.weave"⟩]).countP (w.leadsTo ["a", "x.weave"]) ≤ 1 := by
  intro w
  have hw : w.IsTree := by decide +kernel
  refine ⟨hw, ?_, ?_⟩
  · rw [((countP_scriptsOf hw .standard).2 _ (List.cons_ne_nil _ _)).1]
    decide +kernel
  · refine ((countP_scriptsOf hw .standard).2 _ (List.cons_ne_nil _ _)).2 ?_ _
    have ha : w.find ⟨"a"⟩ = .ok (["a"], .directory) := by decide +kernel
    have hy : w.find ⟨"y.weave"⟩ = .ok (["y.weave"], .file (.bytes "null".toUTF8)) := by
      decide +kernel
    refine .cons (List.forall_mem_singleton.2 fun l e k f hl hk => ?_) (List.pairwise_singleton _ _)
    rw [ha] at hl
    rw [hy] at hk
    cases hl
    cases hk
    decide

/-- A path name that is given twice brings its script twice. -/
theorem scriptsOf_repeated :
    let w : Workspace := ⟨[(["a.weave"], .file (.bytes "null".toUTF8))], []⟩
    let scripts := scriptsOf w .standard [⟨"a.weave"⟩, ⟨"a.weave"⟩]
    w.IsTree ∧ scripts = [⟨"a.weave"⟩, ⟨"a.weave"⟩] ∧
      scripts.countP (w.leadsTo ["a.weave"]) = 2 := by
  decide +kernel

end Program

end Tapestry
