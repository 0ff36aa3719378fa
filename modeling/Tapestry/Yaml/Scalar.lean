import Tapestry.Yaml.Cursor

/-!
# YAML scalars

A scalar is written plain, in single quotes or in double quotes, and may go on over several lines.
A single line break between two words is a blank, and of several one is lost; white space around
them is lost as well. `Pending` holds the white space since the last word until it is known what
follows.

* `Yaml.doubleQuoted?_leavesAtMost`, `Yaml.singleQuoted?_leavesAtMost`  nothing is put back
* `Yaml.plain?_leavesAtMost`  where a plain scalar begins, it takes a character
-/

namespace Tapestry.Yaml

/-- The white space since the last word: blanks on one line, or the first and the other line breaks.
    A first break that was escaped is no character at all. -/
inductive Pending where
  | blanks (cs : List Char)
  | breaks (first : Option Char) (others : List Char)
  deriving Repr

namespace Pending

/-- Nothing since the last word. -/
def none : Pending := .blanks []

/-- Add a blank, which counts only on the line of the last word. -/
def blank (c : Char) : Pending → Pending
  | .blanks cs => .blanks (cs ++ [c])
  | p => p

/-- Add a line break. -/
def newline (c : Char) : Pending → Pending
  | .blanks _ => .breaks (some c) []
  | .breaks first others => .breaks first (others ++ [c])

/-- Whether the last word was on an earlier line. -/
def isBroken : Pending → Bool
  | .blanks _ => false
  | .breaks _ _ => true

/-- What stands between two words for the white space between them. -/
def fold : Pending → List Char
  | .blanks cs => cs
  | .breaks (some '\n') [] => [' ']
  | .breaks (some '\n') others => others
  | .breaks first others => first.toList ++ others

end Pending

/-! ## Plain scalars -/

/-- The brackets and the comma, which end a plain scalar between brackets. -/
def isBracket (c : Char) : Bool := c == ',' || c == '[' || c == ']' || c == '\x7b' || c == '\x7d'

/-- The characters that begin something other than a plain scalar. -/
def isIndicator (c : Char) : Bool :=
  isBracket c || c == '-' || c == '?' || c == ':' || c == '#' || c == '&' || c == '*' || c == '!'
    || c == '|' || c == '>' || c == '\'' || c == '"' || c == '%' || c == '@' || c == '\x60'

/-- Whether a plain scalar begins here. A dash may begin one before anything but white space, and
    outside of brackets a question mark and a colon as well. -/
def startsPlain (bracketed : Bool) : List Char → Bool
  | [] => false
  | c :: cs =>
    if isBlank c || isBreak c then false
    else if c = '-' then !atBlank cs
    else if c = '?' || c = ':' then !bracketed && !atBlank cs
    else !isIndicator c

/-- Whether a text continues with a bracket, a comma or a question mark. Directly behind a colon
    between brackets none of them is allowed. -/
def atBracket : List Char → Bool
  | [] => false
  | c :: _ => isBracket c || c == '?'

/-- Read a plain scalar: its text and what follows. Words on later lines belong to it when they
    begin at the given column or after it. -/
def plain? (bracketed : Bool) (least : Nat) (c : Cursor) : Option (String × Cursor) :=
  (go c.rest c.line c.column .none).map fun (cs, c) => (String.ofList cs, c)
where
  /-- The characters of the scalar from here on, and what follows it. -/
  go : List Char → Nat → Nat → Pending → Option (List Char × Cursor)
    | [], line, column, p => some ([], ⟨[], line, column, p.isBroken⟩)
    | c :: cs, line, column, p =>
      let here : Cursor := ⟨c :: cs, line, column, p.isBroken⟩
      if isBreak c then go cs (line + 1) 0 (p.newline c)
      else if isBlank c then
        if c = '\t' && p.isBroken && column < least then none
        else go cs line (column + 1) (p.blank c)
      else if p.isBroken && (here.atMarker || (!bracketed && column < least)) then some ([], here)
      else if c = '#' && !p.fold.isEmpty then some ([], here)
      else if bracketed && c = ':' && atBracket cs then none
      else if (c = ':' && atBlank cs) || (bracketed && isBracket c) then some ([], here)
      else (go cs line (column + 1) .none).map fun (text, rest) => (p.fold ++ c :: text, rest)

/-! ## Quoted scalars -/

/-- The characters that a letter after a backslash stands for. -/
def escapes : List (Char × Char) := [
  ('0', '\x00'), ('a', '\x07'), ('b', '\x08'), ('t', '\t'), ('\t', '\t'), ('n', '\n'),
  ('v', '\x0b'), ('f', '\x0c'), ('r', '\r'), ('e', '\x1b'), (' ', ' '), ('"', '"'), ('/', '/'),
  ('\\', '\\'), ('N', '\x85'), ('_', '\xa0'), ('L', '\u2028'), ('P', '\u2029')]

/-- The number of hexadecimal digits after a backslash and a letter. -/
def escapeDigits? (c : Char) : Option Nat :=
  if c = 'x' then some 2 else if c = 'u' then some 4 else if c = 'U' then some 8 else none

/-- The value of a hexadecimal digit. -/
def hexValue? (c : Char) : Option Nat :=
  if '0' ≤ c ∧ c ≤ '9' then some (c.toNat - '0'.toNat)
  else if 'a' ≤ c ∧ c ≤ 'f' then some (c.toNat - 'a'.toNat + 10)
  else if 'A' ≤ c ∧ c ≤ 'F' then some (c.toNat - 'A'.toNat + 10)
  else none

/-- The character with a number. -/
def charOf? (n : Nat) : Option Char := if n.isValidChar then some (Char.ofNat n) else none

/-- Where the reader of a double-quoted scalar is: in its text, after a backslash, or among the
    hexadecimal digits of a character. -/
inductive Quoting where
  | text
  | escaped
  | digits (left value : Nat)
  deriving Repr

/-- Read a double-quoted scalar from behind its first quote: its text and what follows the last. -/
def doubleQuoted? (c : Cursor) : Option (String × Cursor) :=
  (go c.rest c.line c.column .none .text).map fun (cs, c) => (String.ofList cs, c)
where
  /-- The characters of the scalar from here on, and what follows it. -/
  go : List Char → Nat → Nat → Pending → Quoting → Option (List Char × Cursor)
    | [], _, _, _, _ => none
    | c :: cs, line, column, p, .text =>
      if isBreak c then go cs (line + 1) 0 (p.newline c) .text
      else if isBlank c then go cs line (column + 1) (p.blank c) .text
      else if Cursor.atMarker ⟨c :: cs, line, column, false⟩ then none
      else if c = '"' then some (p.fold, ⟨cs, line, column + 1, false⟩)
      else if c = '\\' then
        (go cs line (column + 1) .none .escaped).map fun (text, rest) => (p.fold ++ text, rest)
      else (go cs line (column + 1) .none .text).map fun (text, rest) => (p.fold ++ c :: text, rest)
    | c :: cs, line, column, _, .escaped =>
      if isBreak c then go cs (line + 1) 0 (.breaks .none []) .text
      else
        match escapes.lookup c, escapeDigits? c with
        | some d, _ =>
          (go cs line (column + 1) .none .text).map fun (text, rest) => (d :: text, rest)
        | none, some n => go cs line (column + 1) .none (.digits n 0)
        | none, none => none
    | c :: cs, line, column, _, .digits left value =>
      match hexValue? c with
      | none => none
      | some d =>
        if left ≤ 1 then
          match charOf? (16 * value + d) with
          | none => none
          | some e =>
            (go cs line (column + 1) .none .text).map fun (text, rest) => (e :: text, rest)
        else go cs line (column + 1) .none (.digits (left - 1) (16 * value + d))

/-- Read a single-quoted scalar from behind its first quote: its text and what follows the last. A
    quote inside it is written twice. -/
def singleQuoted? (c : Cursor) : Option (String × Cursor) :=
  (go c.rest c.line c.column .none).map fun (cs, c) => (String.ofList cs, c)
where
  /-- The characters of the scalar from here on, and what follows it. -/
  go : List Char → Nat → Nat → Pending → Option (List Char × Cursor)
    | [], _, _, _ => none
    | '\'' :: '\'' :: cs, line, column, p =>
      (go cs line (column + 2) .none).map fun (text, rest) => (p.fold ++ '\'' :: text, rest)
    | c :: cs, line, column, p =>
      if isBreak c then go cs (line + 1) 0 (p.newline c)
      else if isBlank c then go cs line (column + 1) (p.blank c)
      else if Cursor.atMarker ⟨c :: cs, line, column, false⟩ then none
      else if c = '\'' then some (p.fold, ⟨cs, line, column + 1, false⟩)
      else (go cs line (column + 1) .none).map fun (text, rest) => (p.fold ++ c :: text, rest)

/-! ## What is left behind a scalar -/

/-- Whether a reader, when it succeeds, leaves at most a number of characters. -/
def LeavesAtMost {α : Type} (n : Nat) (read? : Option (α × Cursor)) : Prop :=
  ∀ r ∈ read?, r.2.rest.length ≤ n

namespace LeavesAtMost

variable {α β : Type} {n m : Nat} {read? : Option (α × Cursor)}

/-- A reader that fails leaves anything. -/
theorem none : LeavesAtMost n (.none : Option (α × Cursor)) := nofun

/-- A reader that succeeds leaves what is behind its place. -/
theorem some {r : α × Cursor} (h : r.2.rest.length ≤ n) : LeavesAtMost n (.some r) := by
  rintro _ ⟨⟩
  exact h

/-- What leaves less leaves at most more. -/
theorem mono (h : LeavesAtMost n read?) (hle : n ≤ m) : LeavesAtMost m read? :=
  fun r hr => Nat.le_trans (h r hr) hle

/-- What is made of the text that was read does not change what is left. -/
theorem map (h : LeavesAtMost n read?) {f : α × Cursor → β × Cursor}
    (hf : ∀ r, (f r).2 = r.2) : LeavesAtMost n (read?.map f) := by
  intro r hr
  obtain ⟨r', hr', rfl⟩ := Option.map_eq_some_iff.1 hr
  rw [hf]
  exact h r' hr'

end LeavesAtMost

/-- What a plain scalar does not take is left. -/
private theorem plainGo_leavesAtMost (bracketed : Bool) (least : Nat) (cs : List Char)
    (line column : Nat) (p : Pending) :
    LeavesAtMost cs.length (plain?.go bracketed least cs line column p) := by
  fun_induction plain?.go bracketed least cs line column p with
  -- the scalar ends in front of a character, which is left with those behind it
  | case1 | case5 | case6 | case8 => exact .some (Nat.le_refl _)
  | case3 | case7 => exact .none
  | case2 _ _ _ _ _ _ ih | case4 _ _ _ _ _ _ _ _ ih => exact ih.mono (Nat.le_succ _)
  | case9 _ _ _ _ _ _ _ _ _ _ _ _ ih => exact (ih.mono (Nat.le_succ _)).map fun _ => rfl

/-- A double-quoted scalar takes characters up to its last quote. -/
private theorem doubleQuotedGo_leavesAtMost (cs : List Char) (line column : Nat) (p : Pending)
    (q : Quoting) : LeavesAtMost cs.length (doubleQuoted?.go cs line column p q) := by
  fun_induction doubleQuoted?.go cs line column p q with
  | case1 | case4 | case11 | case12 | case13 => exact .none
  -- only the last quote ends the scalar, and it is taken as well
  | case5 => exact .some (Nat.le_succ _)
  | case2 _ _ _ _ _ _ ih | case3 _ _ _ _ _ _ _ ih | case8 _ _ _ _ _ _ ih
  | case10 _ _ _ _ _ _ _ _ _ ih | case15 _ _ _ _ _ _ _ _ _ _ ih => exact ih.mono (Nat.le_succ _)
  | case6 _ _ _ _ _ _ _ _ ih | case7 _ _ _ _ _ _ _ _ _ _ ih | case9 _ _ _ _ _ _ _ _ ih
  | case14 _ _ _ _ _ _ _ _ _ _ _ _ ih => exact (ih.mono (Nat.le_succ _)).map fun _ => rfl

private theorem singleQuotedGo_leavesAtMost (cs : List Char) (line column : Nat) (p : Pending) :
    LeavesAtMost cs.length (singleQuoted?.go cs line column p) := by
  fun_induction singleQuoted?.go cs line column p with
  | case1 | case5 => exact .none
  | case6 => exact .some (Nat.le_succ _)
  -- two quotes are taken at once
  | case2 _ _ _ _ ih => exact (ih.mono (Nat.le_add_right _ 2)).map fun _ => rfl
  | case3 _ _ _ _ _ _ _ ih | case4 _ _ _ _ _ _ _ _ ih => exact ih.mono (Nat.le_succ _)
  | case7 _ _ _ _ _ _ _ _ _ _ ih => exact (ih.mono (Nat.le_succ _)).map fun _ => rfl

/-- Nothing is put back behind a double-quoted scalar. -/
theorem doubleQuoted?_leavesAtMost (c : Cursor) :
    LeavesAtMost c.rest.length (doubleQuoted? c) :=
  (doubleQuotedGo_leavesAtMost c.rest c.line c.column .none .text).map fun _ => rfl

/-- Nothing is put back behind a single-quoted scalar. -/
theorem singleQuoted?_leavesAtMost (c : Cursor) :
    LeavesAtMost c.rest.length (singleQuoted? c) :=
  (singleQuotedGo_leavesAtMost c.rest c.line c.column .none).map fun _ => rfl

/-- What ends a plain scalar begins none. -/
private theorem not_ends_of_startsPlain {bracketed : Bool} {ch : Char} {cs : List Char}
    (h : startsPlain bracketed (ch :: cs) = true) :
    isBreak ch = false ∧ isBlank ch = false ∧ (ch = ':' → atBlank cs = false) ∧
      (bracketed = true → isBracket ch = false) := by
  simp only [startsPlain] at h
  split at h
  · exact absurd h Bool.false_ne_true
  · rename_i hwhite
    have hwhite : isBlank ch = false ∧ isBreak ch = false := by simpa using hwhite
    refine ⟨hwhite.2, hwhite.1, ?_, ?_⟩
    · rintro rfl
      simp_all
    · rintro rfl
      split at h
      · rename_i hdash
        subst hdash
        rfl
      · simp_all [isIndicator]

/-- Neither white space nor a sign ends a plain scalar at its first character. -/
private theorem plainGo_takes_first (bracketed : Bool) (least : Nat) {ch : Char} {cs : List Char}
    (h : startsPlain bracketed (ch :: cs) = true) (line column : Nat) :
    LeavesAtMost cs.length (plain?.go bracketed least (ch :: cs) line column .none) := by
  obtain ⟨hbreak, hblank, hcolon, hbracket⟩ := not_ends_of_startsPlain h
  have hends : ¬((ch = ':' && atBlank cs || bracketed && isBracket ch) = true) := by
    simp only [Bool.or_eq_true, Bool.and_eq_true, decide_eq_true_eq, not_or, not_and]
    exact ⟨fun hc => by simp [hcolon hc], fun hb => by simp [hbracket hb]⟩
  have hbroken : Pending.none.isBroken = false := rfl
  have hfold : Pending.none.fold.isEmpty = true := rfl
  rw [plain?.go]
  simp only [hbreak, hblank, hbroken, hfold, Bool.false_eq_true, if_false, Bool.false_and,
    Bool.not_true, Bool.and_false]
  split
  · exact .none
  · exact (plainGo_leavesAtMost bracketed least cs line (column + 1) .none).map fun _ => rfl

/-- The character that begins a plain scalar belongs to it. -/
theorem plain?_leavesAtMost {bracketed : Bool} (least : Nat) {c : Cursor}
    (h : startsPlain bracketed c.rest = true) :
    LeavesAtMost c.rest.tail.length (plain? bracketed least c) := by
  obtain ⟨rest, line, column, fresh⟩ := c
  cases rest with
  | nil => exact absurd h Bool.false_ne_true
  | cons ch cs => exact (plainGo_takes_first bracketed least h line column).map fun _ => rfl

end Tapestry.Yaml
