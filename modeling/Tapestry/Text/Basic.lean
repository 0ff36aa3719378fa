import Tapestry.Text.CharClass

/-!
# Operations on text

Cutting, trimming and padding, over `List Char` where a theorem has to follow each character and
over `String` where callers hold one.

* `trim`       drops white space at both ends
* `lines`      the lines of a text, without their line ends
* `splitOnce`  the parts before and after the first character of a class
-/

namespace Tapestry.Text

/-- Drop the white space at the front. -/
def trimStart (cs : List Char) : List Char := cs.dropWhile isSpace

/-- Drop the white space at the end. -/
def trimEnd (cs : List Char) : List Char := (cs.reverse.dropWhile isSpace).reverse

/-- Drop the white space at both ends. -/
def trim (cs : List Char) : List Char := trimEnd (trimStart cs)

/-- The text without the white space at its ends. -/
def trimmed (s : String) : String := String.ofList (trim s.toList)

/-- The lines of a text. A line ends at a line feed or at the end of the text; the line feed, and a
    carriage return directly before it, belong to no line. -/
def lines : List Char → List (List Char)
  | [] => []
  | '\r' :: '\n' :: cs => [] :: lines cs
  | '\n' :: cs => [] :: lines cs
  | c :: cs =>
    match lines cs with
    | [] => [[c]]
    | l :: ls => (c :: l) :: ls

/-- The first line of a text, empty for the empty text. -/
def firstLine (s : String) : String := String.ofList ((lines s.toList).headD [])

/-- Cut a text at its first character of a class; `none` when it has none. The character itself
    belongs to neither part. -/
def splitOnce (p : Char → Bool) : List Char → Option (List Char × List Char)
  | [] => none
  | c :: cs => if p c then some ([], cs) else (splitOnce p cs).map fun (a, b) => (c :: a, b)

/-- Replace the ASCII capitals by their small letters and leave every other character alone. -/
def lowerAscii (cs : List Char) : List Char := cs.map Char.toLower

/-- Put spaces before a text up to a width counted in characters. -/
def padLeft (width : Nat) (s : String) : String :=
  String.ofList (List.replicate (width - s.length) ' ' ++ s.toList)

/-- A count with the singular or the plural of what is counted. -/
def plural (n : Nat) (one many : String) : String :=
  if n = 1 then s!"{n} {one}" else s!"{n} {many}"

/-- Whether the first text occurs somewhere in the second. -/
def occursIn (part : List Char) : List Char → Bool
  | [] => part.isEmpty
  | c :: cs => part.isPrefixOf (c :: cs) || occursIn part cs

/-- The text without its given end, `none` when it ends otherwise. -/
def dropEnd? (ending cs : List Char) : Option (List Char) :=
  if ending.isSuffixOf cs then some (cs.take (cs.length - ending.length)) else none

/-- The text without its given start, `none` when it starts otherwise. -/
def dropStart? : (start cs : List Char) → Option (List Char)
  | [], cs => some cs
  | _ :: _, [] => none
  | p :: ps, c :: cs => if p = c then dropStart? ps cs else none

/-- A text occurs in another one when it is an infix of it. -/
theorem occursIn_iff {part cs : List Char} : occursIn part cs = true ↔ part <:+: cs := by
  induction cs with
  | nil => rw [occursIn, List.isEmpty_iff, List.infix_nil]
  | cons c cs ih =>
    rw [occursIn, Bool.or_eq_true, List.isPrefixOf_iff_prefix, ih, List.infix_cons_iff]

/-- What is left in front of an ending is put together with it again. -/
theorem dropEnd?_eq_some {ending cs rest : List Char} :
    dropEnd? ending cs = some rest ↔ cs = rest ++ ending := by
  unfold dropEnd?
  split
  · next h =>
    obtain ⟨front, rfl⟩ := List.isSuffixOf_iff_suffix.1 h
    simp [eq_comm]
  · next h =>
    rw [List.isSuffixOf_iff_suffix] at h
    simp only [reduceCtorEq, false_iff]
    rintro rfl
    exact h (List.suffix_append rest ending)

theorem dropStart?_eq_some {start cs rest : List Char} :
    dropStart? start cs = some rest ↔ cs = start ++ rest := by
  induction start generalizing cs with
  | nil => simp [dropStart?]
  | cons c start ih =>
    cases cs with
    | nil => simp [dropStart?]
    | cons d cs =>
      rw [dropStart?, List.cons_append, List.cons.injEq]
      by_cases h : c = d
      · rw [if_pos h, ih, eq_comm (a := d)]
        exact ⟨fun h' => ⟨h, h'⟩, And.right⟩
      · rw [if_neg h]
        exact ⟨fun h' => (nomatch h'), fun h' => absurd h'.1.symm h⟩

/-- The bytes that a text takes in UTF-8. -/
def utf8Length : List Char → Nat
  | [] => 0
  | c :: cs => c.utf8Size + utf8Length cs

/-- The bytes of a text are those of its parts. -/
theorem utf8Length_append (a b : List Char) :
    utf8Length (a ++ b) = utf8Length a + utf8Length b := by
  induction a with
  | nil => exact (Nat.zero_add _).symm
  | cons c a ih => rw [List.cons_append, utf8Length, utf8Length, ih, Nat.add_assoc]

/-- Every character takes a byte. -/
theorem utf8Length_pos {cs : List Char} (h : cs ≠ []) : 0 < utf8Length cs := by
  cases cs with
  | nil => exact absurd rfl h
  | cons c cs =>
    have hsize := c.utf8Size_pos
    rw [utf8Length]
    omega

/-- Where there are no bytes there are no characters. -/
theorem eq_nil_of_utf8Length_eq_zero {cs : List Char} (h : utf8Length cs = 0) : cs = [] := by
  cases cs with
  | nil => rfl
  | cons c cs => exact absurd h (Nat.ne_of_gt (utf8Length_pos (List.cons_ne_nil c cs)))

/-- Of two cuts through a text, the one at the later byte has the characters of the other one in
    front, and then some more. -/
theorem exists_append_of_utf8Length_le {a b c d : List Char} (h : a ++ b = c ++ d)
    (hle : utf8Length a ≤ utf8Length c) : ∃ m, c = a ++ m ∧ b = m ++ d := by
  rcases List.append_eq_append_iff.1 h with ⟨m, hc, hb⟩ | ⟨m, ha, hd⟩
  · exact ⟨m, hc, hb⟩
  · -- What is in front of the first cut and behind the second one has no bytes.
    rw [ha, utf8Length_append] at hle
    have hm : m = [] := eq_nil_of_utf8Length_eq_zero (by omega)
    rw [hm, List.append_nil] at ha
    rw [hm, List.nil_append] at hd
    exact ⟨[], by rw [ha, List.append_nil], hd.symm⟩

/-- Two cuts through a text at the same byte are the same. -/
theorem append_inj_of_utf8Length {a b c d : List Char} (h : a ++ b = c ++ d)
    (hlength : utf8Length a = utf8Length c) : a = c ∧ b = d := by
  obtain ⟨m, hc, hb⟩ := exists_append_of_utf8Length_le h (Nat.le_of_eq hlength)
  rw [hc, utf8Length_append] at hlength
  have hm : m = [] := eq_nil_of_utf8Length_eq_zero (by omega)
  rw [hm, List.append_nil] at hc
  exact ⟨hc.symm, by rw [hb, hm, List.nil_append]⟩

/-- A text is split at the first character with a property. -/
theorem splitOnce_eq_some {p : Char → Bool} {cs a b : List Char}
    (h : splitOnce p cs = some (a, b)) :
    ∃ c, p c = true ∧ cs = a ++ c :: b ∧ ∀ x ∈ a, p x = false := by
  induction cs generalizing a with
  | nil => simp [splitOnce] at h
  | cons c cs ih =>
    unfold splitOnce at h
    by_cases hc : p c = true
    · simp only [hc, ↓reduceIte, Option.some.injEq, Prod.mk.injEq] at h
      obtain ⟨rfl, rfl⟩ := h
      exact ⟨c, hc, by simp⟩
    · simp only [hc, Bool.false_eq_true, ↓reduceIte, Option.map_eq_some_iff, Prod.exists,
        Prod.mk.injEq] at h
      obtain ⟨a', b', hs, rfl, rfl⟩ := h
      obtain ⟨d, hd, rfl, ha⟩ := ih hs
      exact ⟨d, hd, by simp, by simpa [hc] using ha⟩

end Tapestry.Text
