/-!
# Places in a YAML text

Layout carries meaning in YAML: where a line begins decides what a value belongs to. A
`Yaml.Cursor` is what is left of a text together with its line and column, and with whether a value
that begins here may be a block, that is, a list or a map laid out by indentation.

Reading starts from a text in which every line end is one line feed; see `Yaml.Cursor.ofText?`.

* `Yaml.Cursor.length_rest_gap_le`  nothing is put back when white space is passed over
* `Yaml.Cursor.length_rest_skip_lt`  where there is something left, passing over it leaves less
-/

namespace Tapestry.Yaml

/-- What is left of a text and where it begins. `fresh` says that only indentation and list signs
    came before it on its line. -/
structure Cursor where
  rest : List Char
  line : Nat
  column : Nat
  fresh : Bool
  deriving Repr

/-! ## Characters -/

/-- The characters that end a line. -/
def isBreak (c : Char) : Bool := c == '\n' || c == '\u2028' || c == '\u2029'

/-- The characters between words on one line. -/
def isBlank (c : Char) : Bool := c == ' ' || c == '\t'

/-- Whether a text is at its end or continues with white space. -/
def atBlank : List Char → Bool
  | [] => true
  | c :: _ => isBlank c || isBreak c

/-- Whether a text may hold a character at all: controls are refused, apart from the tabulator and
    the line ends. -/
def isAllowed (c : Char) : Bool :=
  c == '\t' || c == '\n' || c == '\r' || (' ' ≤ c && c ≤ '~') || c == '\x85'
    || ('\xa0' ≤ c && c.toNat != 0xFFFE && c.toNat != 0xFFFF)

/-- The byte order mark. Between values it may begin a line, where it takes a column of its own;
    within a value it is a character like any other. -/
def byteOrderMark : Char := '\ufeff'

/-- Every line end as one line feed. -/
def unifyBreaks : List Char → List Char
  | [] => []
  | '\r' :: '\n' :: cs => '\n' :: unifyBreaks cs
  | '\r' :: cs => '\n' :: unifyBreaks cs
  | c :: cs => (if c = '\x85' then '\n' else c) :: unifyBreaks cs

namespace Cursor

/-- The start of a text; `none` when it holds a character that no document may hold. -/
def ofText? (s : String) : Option Cursor :=
  if s.toList.all isAllowed then some ⟨unifyBreaks s.toList, 0, 0, true⟩ else none

/-- Pass over a number of characters on one line. -/
def skip (n : Nat) (c : Cursor) : Cursor :=
  { c with rest := c.rest.drop n, column := c.column + n }

/-- Say whether a block may begin. -/
def withFresh (fresh : Bool) (c : Cursor) : Cursor := { c with fresh }

/-- Whether the text continues with three given characters and then white space, at the very front
    of a line. -/
def atSign (sign : Char) (c : Cursor) : Bool :=
  c.column = 0 && c.rest.take 3 = [sign, sign, sign] && atBlank (c.rest.drop 3)

/-- Whether a document ends or another one begins here. -/
def atMarker (c : Cursor) : Bool := c.atSign '-' || c.atSign '.'

/-- Whether there is nothing left of the document. -/
def atEnd (c : Cursor) : Bool := c.rest.isEmpty || c.atMarker

/-- Whether an item of a block list begins here. -/
def atItem (c : Cursor) : Bool :=
  match c.rest with
  | '-' :: cs => atBlank cs
  | _ => false

/-- The largest number of characters from the start of a key to its colon. -/
def keyLimit : Nat := 1024

/-- Whether what began at the first place and ends at the second can be a key: a key and its colon
    stand on one line and not too far apart. -/
def reaches (start c : Cursor) : Bool :=
  c.line = start.line && c.column ≤ start.column + keyLimit

/-- Pass over white space, comments, and the byte order mark that may begin a line. Outside of
    brackets a new line allows a block to begin, and from there on tabulators are no indentation. -/
def gap (bracketed : Bool) (c : Cursor) : Cursor :=
  go c.rest c.line c.column c.fresh false
where
  /-- The last argument says whether a comment is being passed over. -/
  go : List Char → Nat → Nat → Bool → Bool → Cursor
    | [], line, column, fresh, _ => ⟨[], line, column, fresh⟩
    | c :: cs, line, column, fresh, comment =>
      if isBreak c then go cs (line + 1) 0 (fresh || !bracketed) false
      else if comment || c = '#' then go cs line (column + 1) fresh true
      else if column = 0 && c = byteOrderMark then go cs line (column + 1) fresh false
      else if c = ' ' || (c = '\t' && (bracketed || !fresh)) then
        go cs line (column + 1) fresh false
      else ⟨c :: cs, line, column, fresh⟩

/-! ## What is left -/

@[simp]
theorem rest_withFresh (fresh : Bool) (c : Cursor) : (c.withFresh fresh).rest = c.rest := rfl

/-- Passing over characters leaves no more than there was. -/
theorem length_rest_skip_le (n : Nat) (c : Cursor) :
    (c.skip n).rest.length ≤ c.rest.length := by
  simp [skip]

/-- Where there is something left, passing over it leaves less. -/
theorem length_rest_skip_lt {n : Nat} (hn : 0 < n) {c : Cursor} (h : c.rest ≠ []) :
    (c.skip n).rest.length < c.rest.length := by
  have hpos := List.length_pos_iff.2 h
  simp only [skip, List.length_drop]
  omega

/-- The white space and the comments that are passed over come off the front. -/
private theorem length_rest_gapGo_le (bracketed : Bool) (cs : List Char) (line column : Nat)
    (fresh comment : Bool) :
    (gap.go bracketed cs line column fresh comment).rest.length ≤ cs.length := by
  fun_induction gap.go bracketed cs line column fresh comment with
  | case1 => exact Nat.le_refl _
  | case2 | case3 | case4 | case5 => simp only [List.length_cons]; omega
  | case6 => exact Nat.le_refl _

/-- Passing over white space leaves no more than there was. -/
theorem length_rest_gap_le (bracketed : Bool) (c : Cursor) :
    (c.gap bracketed).rest.length ≤ c.rest.length :=
  length_rest_gapGo_le bracketed c.rest c.line c.column c.fresh false

/-- Where less is left than elsewhere, less is left behind white space too. -/
theorem length_rest_gap_lt {c c' : Cursor} (h : c.rest.length < c'.rest.length)
    (bracketed : Bool) : (c.gap bracketed).rest.length < c'.rest.length :=
  Nat.lt_of_le_of_lt (length_rest_gap_le bracketed c) h

/-- Behind a sign and the white space that follows it there is less left. -/
theorem length_rest_behind_lt {n : Nat} (hn : 0 < n) {c : Cursor} (h : c.rest ≠ [])
    (fresh : Bool) : (((c.skip n).withFresh fresh).gap false).rest.length < c.rest.length :=
  length_rest_gap_lt (c := (c.skip n).withFresh fresh) (length_rest_skip_lt hn h) false

/-- Where a character comes next there is something left. -/
theorem rest_ne_nil_of_head? {ch : Char} {c : Cursor} (h : c.rest.head? = some ch) :
    c.rest ≠ [] := by
  intro hnil
  rw [hnil] at h
  nomatch h

/-- Where an item of a block list begins there is its sign. -/
theorem rest_ne_nil_of_atItem {c : Cursor} (h : c.atItem = true) : c.rest ≠ [] := by
  intro hnil
  rw [atItem, hnil] at h
  exact Bool.false_ne_true h

/-- A sign of three characters leaves something to pass over. -/
theorem rest_ne_nil_of_atSign {sign : Char} {c : Cursor} (h : c.atSign sign = true) :
    c.rest ≠ [] := by
  intro hnil
  simp [atSign, hnil] at h

end Cursor

end Tapestry.Yaml
