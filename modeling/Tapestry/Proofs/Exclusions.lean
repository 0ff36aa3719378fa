import Tapestry.Exclusion
import Tapestry.Proofs.PathSegments

/-!
# What exclusion patterns match

A pattern is compared with the text of a path name, character by character. What it is meant for
are the texts between the slashes of the path name: a pattern for a directory is meant for a
directory of this very name, at any depth, and a pattern for any depth is meant for what begins with
a name.

The first kind does what it is meant for. The second kind looks for its name behind a slash, and
also at the end of the path name, where it does not look for the slash. So it also matches names
that only end in its own.

## Key results

- `Exclusion.holds_inside`: a pattern for a directory matches where the texts between the slashes of
  its name follow each other in front of the last one
- `Exclusion.holds_under`: a pattern for any depth matches what begins behind a slash, and endings
- `Manifest.isExcluded_inside`, `Manifest.isExcluded_anywhere`: the two kinds as they are written
- `Manifest.isExcluded_threshold`: an ending inside a name
-/

namespace Tapestry

namespace PathName

/-! ## Parts of path names -/

/-- The texts between slashes in front of the last one: the directories that a path name leads
    through, as they are written. -/
def directories (p : PathName) : List (List Char) := (splitSlashes p.text.toList).dropLast

/-- What remains of a text behind some of the texts between its slashes. -/
def behind (cs : List Char) (n : Nat) : List Char :=
  List.intercalate ['/'] ((splitSlashes cs).drop n)

end PathName

open PathName

/-! ## Shapes of patterns -/

namespace Exclusion

/-- Texts between slashes occur one after the other, in front of the last one, exactly when they
    occur between slashes or between the start and a slash. -/
theorem holds_inside (directory path : List Char) :
    (inside directory).holds path = true ↔
      splitSlashes directory <:+: (splitSlashes path).dropLast := by
  rw [holds, Bool.or_eq_true, List.isPrefixOf_iff_prefix, Text.occursIn_iff]
  constructor
  · rintro (⟨rest, rfl⟩ | ⟨front, rest, rfl⟩)
    · rw [List.append_assoc, List.singleton_append, splitSlashes_append,
        List.dropLast_append_of_ne_nil (splitSlashes_ne_nil rest)]
      exact (List.prefix_append _ _).isInfix
    · have hpath : front ++ ('/' :: directory ++ ['/']) ++ rest =
          front ++ '/' :: (directory ++ '/' :: rest) := by simp
      rw [hpath, splitSlashes_append, splitSlashes_append, ← List.append_assoc,
        List.dropLast_append_of_ne_nil (splitSlashes_ne_nil rest)]
      exact ⟨_, _, rfl⟩
  · rintro ⟨front, rest, h⟩
    -- The last text is behind the ones that were found, so a slash follows them.
    have hlast := List.dropLast_concat_getLast (splitSlashes_ne_nil path)
    rw [← h, List.append_assoc, List.append_assoc] at hlast
    have hrest : rest ++ [(splitSlashes path).getLast (splitSlashes_ne_nil path)] ≠ [] := by simp
    generalize rest ++ [_] = rest at hlast hrest
    have hdirectory := splitSlashes_ne_nil directory
    -- In front of them is nothing or a slash.
    by_cases hfront : front = []
    · rw [hfront, List.nil_append] at hlast
      have hpath := eq_of_splitSlashes_eq_append hlast.symm hdirectory hrest
      rw [intercalate_splitSlashes] at hpath
      exact .inl ⟨List.intercalate ['/'] rest, by rw [hpath]; simp⟩
    · have hpath := eq_of_splitSlashes_eq_append hlast.symm hfront (by simp [hrest])
      rw [intercalate_append hdirectory hrest, intercalate_splitSlashes] at hpath
      exact .inr ⟨List.intercalate ['/'] front, List.intercalate ['/'] rest, by rw [hpath]; simp⟩

/-- A name for any depth is found at the end, and at the beginning of what remains behind a
    slash. -/
theorem holds_under (name path : List Char) :
    (under name).holds path = true ↔
      name <:+ path ∨ ∃ n, 0 < n ∧ n < (splitSlashes path).length ∧ name <+: behind path n := by
  rw [holds, Bool.or_eq_true, List.isSuffixOf_iff_suffix, Text.occursIn_iff]
  refine or_congr Iff.rfl ⟨?_, ?_⟩
  -- An occurrence behind a slash: the segments in front of that slash are counted.
  · rintro ⟨front, rest, h⟩
    have hpath : path = front ++ '/' :: (name ++ rest) := by rw [← h]; simp
    have hsplit : splitSlashes path = splitSlashes front ++ splitSlashes (name ++ rest) := by
      rw [hpath, splitSlashes_append]
    refine ⟨(splitSlashes front).length, List.length_pos_iff.2 (splitSlashes_ne_nil front), ?_, ?_⟩
    · rw [hsplit, List.length_append]
      exact Nat.lt_add_of_pos_right (List.length_pos_iff.2 (splitSlashes_ne_nil _))
    · rw [behind, hsplit, List.drop_left, intercalate_splitSlashes]
      exact List.prefix_append name rest
  -- Behind so many segments the rest of the path begins with the name, and a slash stands before
  -- it.
  · rintro ⟨n, hpos, hlt, rest, hrest⟩
    have hfront : (splitSlashes path).take n ≠ [] := by
      rw [Ne, List.take_eq_nil_iff]
      exact fun h => h.elim (Nat.pos_iff_ne_zero.1 hpos) (splitSlashes_ne_nil path)
    have hbehind : (splitSlashes path).drop n ≠ [] := by
      rw [Ne, List.drop_eq_nil_iff]
      exact Nat.not_le_of_lt hlt
    have hpath := eq_of_splitSlashes_eq_append (List.take_append_drop n _).symm hfront hbehind
    rw [← behind, ← hrest] at hpath
    generalize List.intercalate ['/'] ((splitSlashes path).take n) = front at hpath
    exact ⟨front, rest, by rw [hpath]; simp⟩

/-! ## Patterns as they are written -/

/-- What begins with two stars and a slash has the rest behind them. -/
private theorem dropStart?_anywhere (part : String) :
    Text.dropStart? ['*', '*', '/'] ("**/" ++ part).toList = some part.toList := by
  rw [Text.dropStart?_eq_some, String.toList_append]
  rfl

/-- A directory anywhere, and everything in it. -/
private theorem ofText_inside_anywhere (directory : String) :
    ofText ("**/" ++ directory ++ "/*") = .inside directory.toList := by
  have hdrop : Text.dropEnd? ['/', '*'] (directory ++ "/*").toList = some directory.toList := by
    rw [Text.dropEnd?_eq_some, String.toList_append]
    rfl
  rw [String.append_assoc]
  simp only [ofText, dropStart?_anywhere, hdrop]

/-- A directory without a star in its name, and everything in it. -/
private theorem ofText_inside {directory : String} (h : '*' ∉ directory.toList) :
    ofText (directory ++ "/*") = .inside directory.toList := by
  have htext : (directory ++ "/*").toList = directory.toList ++ ['/', '*'] := String.toList_append
  have hdrop : Text.dropEnd? ['/', '*'] (directory ++ "/*").toList = some directory.toList := by
    rw [Text.dropEnd?_eq_some, htext]
  -- The first character is no star, so the pattern is neither for any depth nor for an ending.
  have hstart : Text.dropStart? ['*', '*', '/'] (directory ++ "/*").toList = none := by
    rw [Option.eq_none_iff_forall_ne_some]
    intro rest hrest
    rw [Text.dropStart?_eq_some, htext] at hrest
    cases hcs : directory.toList with
    | nil => rw [hcs] at hrest; simp at hrest
    | cons c cs =>
      rw [hcs] at h hrest
      exact h (by simp [(List.cons.inj hrest).1])
  have hslash : '/' ∈ (directory ++ "/*").toList := by simp [htext]
  simp only [ofText, hstart, hdrop, hslash, not_true_eq_false, and_false, ↓reduceIte]

/-- A text behind two stars and a slash that has no star of its own. -/
private theorem ofText_under {part : String} (h : '*' ∉ part.toList) :
    ofText ("**/" ++ part) = .under part.toList := by
  have hdrop : Text.dropEnd? ['/', '*'] part.toList = none := by
    rw [Option.eq_none_iff_forall_ne_some]
    intro rest hrest
    rw [Text.dropEnd?_eq_some.1 hrest] at h
    simp at h
  simp only [ofText, dropStart?_anywhere, hdrop]

end Exclusion

/-! ## Manifests with one pattern -/

namespace Manifest

/-- With one pattern, that one decides. -/
private theorem isExcluded_singleton (m : Manifest) (pattern : String) (p : PathName) :
    ({ m with excludes := [pattern] } : Manifest).isExcluded p =
      (Exclusion.ofText pattern).holds p.text.toList := by
  simp [isExcluded]

/-- Let the name of a directory hold no star. The two patterns for what is inside this directory
    match a path name exactly when the texts between the slashes of the name follow each other among
    those of the path name in front of the last one. So none of them matches when a directory is
    missing there, whatever other names it is a part of. -/
theorem isExcluded_inside (m : Manifest) {directory : String} (h : '*' ∉ directory.toList)
    (p : PathName) :
    let here : Manifest := { m with excludes := [directory ++ "/*"] }
    let anywhere : Manifest := { m with excludes := ["**/" ++ directory ++ "/*"] }
    (here.isExcluded p = true ↔ splitSlashes directory.toList <:+: p.directories) ∧
      (anywhere.isExcluded p = true ↔ splitSlashes directory.toList <:+: p.directories) ∧
      ∀ name ∈ splitSlashes directory.toList, name ∉ p.directories →
        here.isExcluded p = false ∧ anywhere.isExcluded p = false := by
  intro here anywhere
  -- The directory is looked for in the path without its last name.
  have hhere : here.isExcluded p = true ↔ splitSlashes directory.toList <:+: p.directories := by
    rw [isExcluded_singleton, Exclusion.ofText_inside h, Exclusion.holds_inside, directories]
  -- The other form of the pattern is read to the same exclusion.
  have hanywhere : anywhere.isExcluded p = true ↔
      splitSlashes directory.toList <:+: p.directories := by
    rw [isExcluded_singleton, Exclusion.ofText_inside_anywhere, Exclusion.holds_inside, directories]
  refine ⟨hhere, hanywhere, fun name hname hmissing => ?_⟩
  -- A directory with a name that no directory of the path has cannot occur.
  have hnot : ¬ splitSlashes directory.toList <:+: p.directories :=
    fun hfound => hmissing (List.IsInfix.subset hfound hname)
  exact ⟨Bool.eq_false_iff.2 (mt hhere.1 hnot), Bool.eq_false_iff.2 (mt hanywhere.1 hnot)⟩

/-- A directory of two names, in the middle of a path name and only as a part of other names. -/
theorem isExcluded_inside_parts :
    let here : Manifest := { standard with excludes := ["old/parts/*"] }
    '*' ∉ "old/parts".toList ∧ here.isExcluded ⟨"/w/old/parts/x.weave"⟩ = true ∧
      here.isExcluded ⟨"/w/old/parts2/x.weave"⟩ = false := by
  have h : '*' ∉ "old/parts".toList := by decide +kernel
  refine ⟨h, ?_, ?_⟩
  · exact (isExcluded_inside standard h ⟨"/w/old/parts/x.weave"⟩).1.2
      ⟨[[], "w".toList], [], by decide +kernel⟩
  · exact ((isExcluded_inside standard h ⟨"/w/old/parts2/x.weave"⟩).2.2 "parts".toList
      (by decide +kernel) (by decide +kernel)).1

/-- Let a part hold no star. The pattern for this part at any depth matches a path name exactly when
    the part is at the beginning of what remains behind a slash, or when the path name ends in it,
    with a slash in front of it or not. -/
theorem isExcluded_anywhere (m : Manifest) {part : String} (h : '*' ∉ part.toList) (p : PathName) :
    ({ m with excludes := ["**/" ++ part] } : Manifest).isExcluded p = true ↔
      part.toList <:+ p.text.toList ∨
        ∃ n, 0 < n ∧ n < (splitSlashes p.text.toList).length ∧
          part.toList <+: behind p.text.toList n := by
  rw [isExcluded_singleton, Exclusion.ofText_under h, Exclusion.holds_under]

/-- A part at the beginning of the second of three names. -/
theorem isExcluded_anywhere_middle :
    '*' ∉ "old".toList ∧
      ({ standard with excludes := ["**/old"] } : Manifest).isExcluded ⟨"a/older/x.weave"⟩ = true :=
  have h : '*' ∉ "old".toList := by decide +kernel
  ⟨h, (isExcluded_anywhere standard h ⟨"a/older/x.weave"⟩).2
    (.inr ⟨1, by decide +kernel, by decide +kernel, by decide +kernel⟩)⟩

/-- The ending of a name is matched, and what remains from the beginning of any name does not begin
    with it. -/
theorem isExcluded_threshold :
    let part := "old.weave"
    let path : PathName := ⟨"threshold.weave"⟩
    (part ≠ "" ∧ '*' ∉ part.toList ∧ part.toList.head? ≠ some '/') ∧
      ({ standard with excludes := ["**/" ++ part] } : Manifest).isExcluded path = true ∧
      ¬ ∃ n, n < (splitSlashes path.text.toList).length ∧
        part.toList <+: behind path.text.toList n := by
  decide +kernel

end Manifest

end Tapestry
