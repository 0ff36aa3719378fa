import Mathlib.Data.List.Basic
import Mathlib.Data.List.TakeWhile
import Tapestry.Text.Basic

/-!
# Trimming

What is left of characters when those of a class are dropped at the front: no such character stands
first, and all other characters are still there. A text is trimmed at both ends in this way, so that
what is left is the one part of it that has white space around it and none at its own ends.

## Key results

- `head?_dropWhile`, `mem_dropWhile`: what is left behind the characters of a class
- `Text.trim_eq_iff`: what is left of a text without the white space at its ends
-/

namespace Tapestry

variable {p : Char → Bool} {c : Char} {cs : List Char}

/-- No character of a class stands first behind those at the front. -/
theorem head?_dropWhile (p : Char → Bool) (cs : List Char) :
    ∀ c ∈ (cs.dropWhile p).head?, p c = false := by
  intro c hc
  have hnot := List.head?_dropWhile_not p cs
  rw [Option.mem_def.1 hc] at hnot
  simpa using hnot

/-- What is left of a text without the characters of a class at its front has the others. -/
theorem mem_dropWhile (h : c ∈ cs) (hc : p c = false) : c ∈ cs.dropWhile p := by
  rw [← @List.takeWhile_append_dropWhile _ p cs, List.mem_append] at h
  refine h.resolve_left fun hmem => ?_
  exact Bool.eq_false_iff.1 hc (List.all_eq_true.1 List.all_takeWhile _ hmem)

/-- What comes behind the characters of a class at the front. -/
private theorem dropWhile_append_of_head? {lead : List Char} (hlead : ∀ c ∈ lead, p c = true)
    (hcs : ∀ c ∈ cs.head?, p c = false) : (lead ++ cs).dropWhile p = cs := by
  rw [List.dropWhile_append_of_pos hlead]
  cases cs with
  | nil => rfl
  | cons c cs => exact List.dropWhile_cons_of_neg (by simp [hcs c rfl])

namespace Text

/-- Whether a text is another one with white space around it, as much as there can be. -/
structure Surrounds (cs core : List Char) : Prop where
  split : ∃ lead trail, cs = lead ++ (core ++ trail) ∧ (∀ c ∈ lead, isSpace c = true) ∧
    ∀ c ∈ trail, isSpace c = true
  first : ∀ c ∈ core.head?, isSpace c = false
  last : ∀ c ∈ core.getLast?, isSpace c = false

/-- Only white space is dropped at the end. -/
private theorem exists_trimEnd (cs : List Char) :
    ∃ trail, cs = trimEnd cs ++ trail ∧ ∀ c ∈ trail, isSpace c = true := by
  refine ⟨(cs.reverse.takeWhile isSpace).reverse, ?_, fun c hc => ?_⟩
  · rw [trimEnd, ← List.reverse_append, List.takeWhile_append_dropWhile, List.reverse_reverse]
  · exact List.all_eq_true.1 List.all_takeWhile c (List.mem_reverse.1 hc)

/-- Trimming takes the blanks at both ends away, and nothing else. -/
theorem surrounds_trim (cs : List Char) : Surrounds cs (trim cs) := by
  obtain ⟨trail, hcs, htrail⟩ := exists_trimEnd (trimStart cs)
  refine ⟨⟨cs.takeWhile isSpace, trail, ?_, List.all_eq_true.1 List.all_takeWhile, htrail⟩,
    fun c hc => ?_, fun c hc => ?_⟩
  · rw [trim, ← hcs, trimStart, List.takeWhile_append_dropWhile]
  · have hfirst := head?_dropWhile isSpace cs c
    rw [← trimStart, hcs, ← trim] at hfirst
    exact hfirst (List.mem_head?_append_of_mem_head? hc)
  · rw [trim, trimEnd, List.getLast?_reverse] at hc
    exact head?_dropWhile isSpace _ c hc

/-- Between blanks there is only one text without blanks at its ends. -/
theorem Surrounds.trim_eq {core : List Char} (h : Surrounds cs core) : trim cs = core := by
  obtain ⟨⟨lead, trail, rfl, hlead, htrail⟩, hfirst, hlast⟩ := h
  have hback : ∀ c ∈ trail.reverse, isSpace c = true := fun c hc => htrail c (List.mem_reverse.1 hc)
  cases core with
  | nil =>
    have hall : ∀ c ∈ lead ++ trail, isSpace c = true := List.forall_mem_append.2 ⟨hlead, htrail⟩
    rw [trim, trimStart, List.nil_append, List.dropWhile_eq_nil_iff.2 hall]
    rfl
  | cons c core =>
    have hfront : ∀ d ∈ (c :: core ++ trail).head?, isSpace d = false := hfirst
    rw [← List.head?_reverse] at hlast
    rw [trim, trimStart, dropWhile_append_of_head? hlead hfront, trimEnd, List.reverse_append,
      dropWhile_append_of_head? hback hlast, List.reverse_reverse]

/-- So this is what trimming leaves. -/
theorem trim_eq_iff {core : List Char} : trim cs = core ↔ Surrounds cs core :=
  ⟨fun h => h ▸ surrounds_trim cs, Surrounds.trim_eq⟩

/-- Characters without white space at their ends are not trimmed. -/
theorem trim_eq_self (hfirst : ∀ c ∈ cs.head?, isSpace c = false)
    (hlast : ∀ c ∈ cs.getLast?, isSpace c = false) : trim cs = cs :=
  trim_eq_iff.2 ⟨⟨[], [], by simp, nofun, nofun⟩, hfirst, hlast⟩

/-- What is left has no white space at its ends. -/
theorem trim_trim (cs : List Char) : trim (trim cs) = trim cs :=
  trim_eq_self (surrounds_trim cs).first (surrounds_trim cs).last

/-- The characters of a trimmed text are its trimmed characters. -/
theorem toList_trimmed (s : String) : (trimmed s).toList = trim s.toList := by
  rw [trimmed, String.toList_ofList]

/-- A text without white space is not trimmed. -/
theorem trimmed_eq {s : String} (h : ∀ c ∈ s.toList, isSpace c = false) : trimmed s = s := by
  have hself : trim s.toList = s.toList :=
    trim_eq_self (fun c hc => h c (List.mem_of_mem_head? hc))
      fun c hc => h c (List.mem_of_mem_getLast? hc)
  rw [trimmed, hself, String.ofList_toList]

/-- Only white space is trimmed. -/
theorem mem_trimmed {s : String} (h : c ∈ s.toList) (hc : isSpace c = false) :
    c ∈ (trimmed s).toList := by
  rw [toList_trimmed, trim, trimEnd, List.mem_reverse, trimStart]
  exact mem_dropWhile (List.mem_reverse.2 (mem_dropWhile h hc)) hc

end Text

end Tapestry
