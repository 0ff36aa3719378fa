import Tapestry.Proofs.Exclusions
import Tapestry.Proofs.Trees

/-!
# Patterns that ignore names

A pattern is compared with the text of an absolute path name, from its first slash on. When the
files of a tree are meant, the names in front of those in the tree should not count, and they do not
as long as the pattern cannot start inside one of them. Where it starts is decided by its *first
name*, the text in front of its first slash.

## Key results

- `exists_infix_firstName`: what starts inside the path name of a directory starts inside a name
- `Exclusion.holds_path_append`: a pattern that ignores the names in front only sees those behind
- `Manifest.isExcluded_path_append`: and so does a manifest with such patterns
-/

namespace Tapestry

open PathName

/-! ## First names -/

namespace PathName

/-- The text in front of the first slash. -/
def firstName (cs : List Char) : List Char := cs.takeWhile (· ≠ '/')

/-- In front of a slash there is no name. -/
private theorem firstName_slash (cs : List Char) : firstName ('/' :: cs) = [] := rfl

/-- Any other character belongs to the name. -/
private theorem firstName_cons {c : Char} (hc : c ≠ '/') (cs : List Char) :
    firstName (c :: cs) = c :: firstName cs :=
  List.takeWhile_cons_of_pos (decide_eq_true hc)

/-- The name ends before the first slash. -/
private theorem slash_not_mem_firstName (cs : List Char) : '/' ∉ firstName cs := by
  intro hslash
  have hall : (firstName cs).all (· ≠ '/') = true := List.all_takeWhile
  exact of_decide_eq_true (List.all_eq_true.1 hall _ hslash) rfl

/-- What holds no slash cannot start with one. -/
private theorem eq_nil_of_slash {part rest : List Char} (hpart : '/' ∉ part)
    (h : part <+: '/' :: rest) : part = [] := by
  rcases List.prefix_cons_iff.1 h with rfl | ⟨_, rfl, -⟩
  · rfl
  · exact absurd List.mem_cons_self hpart

/-- The first name is the first of the texts between the slashes. -/
private theorem exists_splitSlashes (cs : List Char) :
    ∃ ss, splitSlashes cs = firstName cs :: ss := by
  induction cs with
  | nil => exact ⟨[], rfl⟩
  | cons c cs ih =>
    by_cases hc : c = '/'
    · rw [hc, splitSlashes_slash]
      exact ⟨_, rfl⟩
    · obtain ⟨ss, hss⟩ := ih
      rw [splitSlashes_cons hc hss, firstName_cons hc]
      exact ⟨ss, rfl⟩

/-- What stands at the beginning of a text has its first name in front of any slash of the text. -/
private theorem firstName_isPrefix {text zs rest : List Char} (h : text <+: zs ++ '/' :: rest) :
    firstName text <+: zs := by
  -- The induction is on the text in front of the slash.
  induction zs generalizing text with
  | nil =>
    rcases List.prefix_cons_iff.1 h with rfl | ⟨_, rfl, -⟩
    · exact List.nil_prefix
    · exact List.nil_prefix
  | cons z zs ih =>
    rcases List.prefix_cons_iff.1 h with rfl | ⟨text, rfl, htext⟩
    · exact List.nil_prefix
    -- A slash in it ends the name even earlier.
    · by_cases hz : z = '/'
      · rw [hz, firstName_slash]
        exact List.nil_prefix
      · rw [firstName_cons hz]
        exact (List.prefix_cons_inj z).2 (ih htext)

end PathName

namespace Location

variable {b l : Location}

/-- The absolute path name of a location, with a slash in front of each name. -/
private theorem toList_path_eq (hl : l ≠ []) :
    l.path.text.toList = l.flatMap fun s => '/' :: s.toList := by
  rw [toList_path]
  induction l with
  | nil => exact absurd rfl hl
  | cons s l ih =>
    by_cases hnil : l = []
    · simp [hnil]
    · rw [List.map_cons, List.intercalate_cons_of_ne_nil (by simpa using hnil),
        List.append_assoc, List.singleton_append, ih hnil, List.flatMap_cons, List.cons_append]

/-- What holds no slash and occurs in the path name of a location is empty or occurs in a name. -/
private theorem eq_nil_or_infix_of_infix {part : List Char} (hpart : '/' ∉ part)
    (h : part <:+: b.flatMap fun s => '/' :: s.toList) :
    part = [] ∨ ∃ s ∈ b, part <:+: s.toList := by
  -- The induction is on the names, each of which stands behind a slash.
  induction b with
  | nil => exact .inl (List.infix_nil.1 h)
  | cons s b ih =>
    rw [List.flatMap_cons, List.cons_append] at h
    rcases List.infix_cons_iff.1 h with hstart | h
    · exact .inl (eq_nil_of_slash hpart hstart)
    -- The part is inside the first name, or behind it, or it begins in the name and goes on.
    · rcases List.infix_append_iff.1 h with hs | hb | ⟨front, back, rfl, hfront, hback⟩
      · exact .inr ⟨s, List.mem_cons_self, hs⟩
      · exact (ih hb).imp_right fun ⟨t, ht, hinfix⟩ => ⟨t, List.mem_cons_of_mem s ht, hinfix⟩
      · -- Behind the name stands a slash, or nothing, so the part ends with the name.
        have hback' : back = [] := by
          have hslash : '/' ∉ back := fun h => hpart (List.mem_append_right front h)
          cases b with
          | nil => exact List.prefix_nil.1 hback
          | cons t b =>
            rw [List.flatMap_cons, List.cons_append] at hback
            exact eq_nil_of_slash hslash hback
        rw [hback', List.append_nil]
        exact .inr ⟨s, List.mem_cons_self, hfront.isInfix⟩

/-- What starts inside the path name of a directory has its first name inside one of the names. -/
theorem exists_infix_firstName {text zs rest : List Char} (hb : b ≠ [])
    (hzs : zs <:+ b.flatMap fun s => '/' :: s.toList) (h : text <+: zs ++ '/' :: rest) :
    ∃ s ∈ b, firstName text <:+: s.toList := by
  have hinfix := (firstName_isPrefix h).isInfix.trans hzs.isInfix
  rcases eq_nil_or_infix_of_infix (slash_not_mem_firstName text) hinfix with hnil | hfound
  · obtain ⟨s, b, rfl⟩ := List.exists_cons_of_ne_nil hb
    exact ⟨s, List.mem_cons_self, hnil ▸ List.nil_infix⟩
  · exact hfound

end Location

/-! ## Patterns -/

section Occurrences

variable {α : Type} {part before after : List α}

/-- What starts nowhere in the first of two lists occurs in both together only if it occurs in the
    second. -/
private theorem infix_append_iff_right
    (h : ∀ zs, zs ≠ [] → zs <:+ before → ¬ part <+: zs ++ after) :
    part <:+: before ++ after ↔ part <:+: after := by
  induction before with
  | nil => exact Iff.rfl
  | cons a before ih =>
    have hhere : ¬ part <+: a :: (before ++ after) :=
      h (a :: before) (List.cons_ne_nil a before) (List.suffix_refl _)
    rw [List.cons_append, List.infix_cons_iff, or_iff_right hhere]
    exact ih fun zs hne hzs => h zs hne (hzs.trans (List.suffix_cons a before))

/-- A member that is not in the first list cannot be found there. -/
private theorem infix_append_iff_of_not_mem {a : α} (h : a ∉ before) :
    a :: part <:+: before ++ after ↔ a :: part <:+: after := by
  refine infix_append_iff_right fun zs hzs hsuffix hstart => ?_
  obtain ⟨z, zs, rfl⟩ := List.exists_cons_of_ne_nil hzs
  rw [List.cons_append, List.cons_prefix_cons] at hstart
  exact h (hstart.1 ▸ hsuffix.subset List.mem_cons_self)

/-- What ends both lists together and is not made of all of the second and an end of the first
    ends the second. -/
private theorem suffix_append_iff_right
    (h : ∀ zs, zs ≠ [] → zs <:+ before → part ≠ zs ++ after) :
    part <:+ before ++ after ↔ part <:+ after := by
  induction before with
  | nil => exact Iff.rfl
  | cons a before ih =>
    have hhere : part ≠ a :: (before ++ after) :=
      h (a :: before) (List.cons_ne_nil a before) (List.suffix_refl _)
    rw [List.cons_append, List.suffix_cons_iff, or_iff_right hhere]
    exact ih fun zs hne hzs => h zs hne (hzs.trans (List.suffix_cons a before))

end Occurrences

namespace Exclusion

variable {b l : Location}

/-- Whether a pattern has nothing to do with the names of a location. A pattern for a directory may
    not begin with one of them, and other patterns may not begin with a part of one. An ending has
    no slash, so it only has to do with the last name of a path name. -/
def Ignores (b : Location) : Exclusion → Prop
  | inside directory => ∀ s ∈ b, firstName directory ≠ [] ∧ firstName directory ≠ s.toList
  | under part | containing part => ∀ s ∈ b, ¬ firstName part <:+: s.toList
  | ending _ => True

instance (b : Location) : (x : Exclusion) → Decidable (x.Ignores b)
  | inside directory =>
    inferInstanceAs (Decidable (∀ s ∈ b, firstName directory ≠ [] ∧ firstName directory ≠ s.toList))
  | under part | containing part =>
    inferInstanceAs (Decidable (∀ s ∈ b, ¬ firstName part <:+: s.toList))
  | ending _ => inferInstanceAs (Decidable True)

/-- A pattern for an ending has no slash. -/
private theorem slash_not_mem_of_ofText {pattern : String} {suffix : List Char}
    (h : ofText pattern = .ending suffix) : '/' ∉ suffix := by
  unfold ofText at h
  simp only at h
  split at h
  · split at h <;> cases h
  · split at h
    · -- The pattern is a star and this ending, and it was seen to have no slash.
      next hstar =>
      cases h
      exact fun hmem => hstar.2 (List.mem_of_mem_tail hmem)
    · split at h <;> cases h

/-- A pattern for a directory is not found where the place of a tree has other names. -/
private theorem holds_inside_append {directory : List Char} (hl : l ≠ [])
    (hproper : Location.IsProper (b ++ l)) (h : (inside directory).Ignores b) :
    (inside directory).holds (Location.path (b ++ l)).text.toList =
      (inside directory).holds l.path.text.toList := by
  by_cases hb : b = []
  · rw [hb, List.nil_append]
  · have hproper' : l.IsProper := fun s hs => hproper s (List.mem_append_right b hs)
    have hmap : l.map String.toList ≠ [] := by simpa using hl
    have hmap' : b.map String.toList ++ l.map String.toList ≠ [] := by simp [hl]
    obtain ⟨t, ht⟩ := List.exists_mem_of_ne_nil b hb
    -- The first name of the pattern is none of the texts in front of what is below the place.
    have hempty : firstName directory ∉ [([] : List Char)] := by simpa using (h t ht).1
    have hnames : firstName directory ∉ [] :: b.map String.toList := by
      rw [List.mem_cons, not_or]
      refine ⟨(h t ht).1, fun hmem => ?_⟩
      obtain ⟨s, hs, heq⟩ := List.mem_map.1 hmem
      exact (h s hs).2 heq.symm
    obtain ⟨ss, hss⟩ := exists_splitSlashes directory
    rw [Bool.eq_iff_iff, holds_inside, holds_inside, hss,
      Location.splitSlashes_path hproper (by simp [hl]), Location.splitSlashes_path hproper' hl,
      List.map_append, List.dropLast_cons_of_ne_nil hmap', List.dropLast_cons_of_ne_nil hmap,
      List.dropLast_append_of_ne_nil hmap, ← List.cons_append, infix_append_iff_of_not_mem hnames]
    exact (infix_append_iff_of_not_mem hempty).symm

/-- A pattern that ignores the place of a tree only sees what is below. -/
theorem holds_path_append {x : Exclusion} (hl : l ≠ []) (hproper : Location.IsProper (b ++ l))
    (h : x.Ignores b) (hending : ∀ suffix, x = .ending suffix → '/' ∉ suffix) :
    x.holds (Location.path (b ++ l)).text.toList = x.holds l.path.text.toList := by
  by_cases hb : b = []
  · rw [hb, List.nil_append]
  · obtain ⟨rest, hrest⟩ : ∃ rest, l.path.text.toList = '/' :: rest := ⟨_, Location.toList_path l⟩
    have hpath : (Location.path (b ++ l)).text.toList =
        (b.flatMap fun s => '/' :: s.toList) ++ '/' :: rest := by
      rw [← hrest, Location.toList_path_eq (by simp [hl]), Location.toList_path_eq hl,
        List.flatMap_append]
    -- The path name below starts with a slash, so no part starts in front and goes on into it.
    have hnot {part zs : List Char} (hpart : ∀ s ∈ b, ¬ firstName part <:+: s.toList)
        (hzs : zs <:+ b.flatMap fun s => '/' :: s.toList) : ¬ part <+: zs ++ '/' :: rest := by
      intro hstart
      obtain ⟨s, hs, hinfix⟩ := Location.exists_infix_firstName hb hzs hstart
      exact hpart s hs hinfix
    cases x with
    | inside directory => exact holds_inside_append hl hproper h
    | under part =>
      rw [Bool.eq_iff_iff, holds, holds, Bool.or_eq_true, Bool.or_eq_true, Text.occursIn_iff,
        Text.occursIn_iff, List.isSuffixOf_iff_suffix, List.isSuffixOf_iff_suffix, hpath, hrest]
      refine or_congr (suffix_append_iff_right fun zs _ hzs heq => ?_)
        (infix_append_iff_right fun zs hne hzs hstart => ?_)
      · exact hnot h hzs (heq ▸ List.prefix_refl _)
      · -- The slash in front of the part is one of the place, and the part starts behind it.
        obtain ⟨z, zs, rfl⟩ := List.exists_cons_of_ne_nil hne
        rw [List.cons_append, List.cons_prefix_cons] at hstart
        exact hnot h ((List.suffix_cons z zs).trans hzs) hstart.2
    | ending suffix =>
      rw [Bool.eq_iff_iff, holds, holds, List.isSuffixOf_iff_suffix, List.isSuffixOf_iff_suffix,
        hpath, hrest]
      -- An ending that began in front would hold the slash between the two path names.
      refine suffix_append_iff_right fun zs _ _ heq => hending suffix rfl ?_
      rw [heq]
      simp
    | containing part =>
      rw [Bool.eq_iff_iff, holds, holds, Text.occursIn_iff, Text.occursIn_iff, hpath, hrest]
      exact infix_append_iff_right fun zs _ hzs => hnot h hzs

end Exclusion

/-- A manifest whose patterns ignore the place of a tree only sees what is below. -/
theorem Manifest.isExcluded_path_append {m : Manifest} {b l : Location} (hl : l ≠ [])
    (hproper : Location.IsProper (b ++ l))
    (h : ∀ pattern ∈ m.excludes, (Exclusion.ofText pattern).Ignores b) :
    m.isExcluded (Location.path (b ++ l)) = m.isExcluded l.path := by
  rw [Bool.eq_iff_iff, isExcluded, isExcluded, List.any_eq_true, List.any_eq_true]
  refine exists_congr fun pattern => and_congr_right fun hpattern => ?_
  rw [Exclusion.holds_path_append hl hproper (h pattern hpattern) fun _ =>
    Exclusion.slash_not_mem_of_ofText]

end Tapestry
