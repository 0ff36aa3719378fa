import Tapestry.Token

/-!
# From characters to tokens

`Lexeme.scan?` reads one token from its first character and the characters after it, and says how
many of those it takes. `Cursor.next` skips blanks and reads one token, and `Cursor.tokens` reads
all of them up to and including the first `finish`. A cursor that has found no token does not move
on, so it answers `finish` at the same place for ever.

The reader never fails: a text without a closing quote ends its string, and a character that starts
no token ends the input.

* `Cursor.next_rest_lt`  a token other than `finish` takes at least one character
-/

namespace Tapestry

/-! ## Character classes -/

/-- The characters between tokens. -/
def isBlank (c : Char) : Bool := c == ' ' || c == '\t' || c == '\n' || c == '\r'

/-- The characters that start a word. -/
def startsWord (c : Char) : Bool := Text.isAlphabetic c || c == '_'

/-- The characters that start a value, apart from a minus sign before a digit or a dot. -/
def startsValue (c : Char) : Bool := c.isDigit || c == '.' || c == '#'

/-- The characters that continue a value. -/
def continuesValue (c : Char) : Bool :=
  Text.isAlphanumeric c || c == '.' || c == '-' || c == '#'

/-- Whether a minus sign before these characters starts a value and not an operator. -/
def startsNumber : List Char → Bool
  | [] => false
  | c :: _ => c.isDigit || c == '.'

/-- The kind of a token that is a single character whatever follows it. -/
def singleKind? : Char → Option TokenKind
  | '|' => some .pipe
  | '(' => some .opening
  | ')' => some .closing
  | '=' => some .equals
  | ',' => some .comma
  | '^' => some (.operator .xor)
  | '+' => some (.operator .add)
  | '*' => some (.operator .mul)
  | '/' => some (.operator .div)
  | '%' => some (.operator .mod)
  | _ => none

/-! ## One token -/

/-- The characters that continue a word: letters, numbers and underscores, and dots that have a
    letter or number after them. -/
def wordTail : List Char → List Char
  | [] => []
  | c :: cs =>
    if Text.isAlphanumeric c || c == '_' then c :: wordTail cs
    else if c == '.' && (cs.head?.any Text.isAlphanumeric) then c :: wordTail cs
    else []

/-- What a character after a backslash stands for. -/
def unescape : Char → Char
  | 'n' => '\n'
  | 't' => '\t'
  | c => c

/-- Read a string after its opening quote: its text, and the number of characters taken. -/
def readQuoted : List Char → List Char × Nat
  | [] => ([], 0)
  | '"' :: _ => ([], 1)
  -- A backslash at the end of the text stands for nothing.
  | ['\\'] => ([], 1)
  | '\\' :: c :: cs =>
    let (text, n) := readQuoted cs
    (unescape c :: text, n + 2)
  | c :: cs =>
    let (text, n) := readQuoted cs
    (c :: text, n + 1)

/-- A token without its place. `extra` counts the characters it takes after its first one. -/
structure Lexeme where
  kind : TokenKind
  literal : List Char
  extra : Nat
  deriving DecidableEq, Repr

/-- Read the token that starts with a character, given the characters after it; `none` when the
    character starts no token. -/
def Lexeme.scan? (c : Char) (cs : List Char) : Option Lexeme :=
  match singleKind? c with
  | some kind => some ⟨kind, [c], 0⟩
  | none =>
    -- In front of a number a minus sign belongs to the number.
    if c == '-' && !startsNumber cs then some ⟨.operator .sub, [c], 0⟩
    else if c == '"' then
      let (text, n) := readQuoted cs
      some ⟨.quoted, text, n⟩
    else if startsWord c then
      let tail := wordTail cs
      some ⟨.word, c :: tail, tail.length⟩
    else if startsValue c || c == '-' then
      let tail := cs.takeWhile continuesValue
      some ⟨.value, c :: tail, tail.length⟩
    else none

/-! ## All tokens -/

/-- A place in a text: what is left to read, and the bytes before it. -/
structure Cursor where
  rest : List Char
  offset : Nat
  deriving DecidableEq, Repr

namespace Cursor

/-- The start of a text. -/
def ofText (s : String) : Cursor := ⟨s.toList, 0⟩

@[simp]
theorem rest_ofText (s : String) : (ofText s).rest = s.toList := rfl

@[simp]
theorem offset_ofText (s : String) : (ofText s).offset = 0 := rfl

/-- Move past some characters. -/
def advance (k : Cursor) (n : Nat) : Cursor :=
  ⟨k.rest.drop n, k.offset + Text.utf8Length (k.rest.take n)⟩

/-- Move past blanks. -/
def skipBlanks (k : Cursor) : Cursor := k.advance (k.rest.takeWhile isBlank).length

/-- Read a token at a place without blanks. -/
def read (k : Cursor) : Token × Cursor :=
  match k.rest with
  | [] => (.finish k.offset, k)
  | c :: cs =>
    match Lexeme.scan? c cs with
    | none => (.finish k.offset, k)
    | some l =>
      let after := k.advance (l.extra + 1)
      (⟨l.kind, String.ofList l.literal, k.offset, after.offset - k.offset⟩, after)

/-- Read the next token. -/
def next (k : Cursor) : Token × Cursor := k.skipBlanks.read

/-- Advancing takes characters off the front. -/
theorem length_rest_advance (k : Cursor) (n : Nat) :
    (k.advance n).rest.length = k.rest.length - n := by
  simp [advance]

/-- A token other than `finish` takes at least one character. -/
theorem next_rest_lt {k : Cursor} (h : k.next.1.kind ≠ .finish) :
    k.next.2.rest.length < k.rest.length := by
  have hs : k.skipBlanks.rest.length ≤ k.rest.length := by
    rw [skipBlanks, length_rest_advance]; omega
  unfold next read at h ⊢
  split at h
  · exact absurd rfl h
  · rename_i c cs hr
    split at h
    · exact absurd rfl h
    · simp only [hr, length_rest_advance, List.length_cons]
      rw [hr, List.length_cons] at hs
      omega

/-- The tokens from a place on, up to and including the first `finish`. -/
def tokens (k : Cursor) : List Token :=
  if _h : k.next.1.kind = .finish then [k.next.1] else k.next.1 :: k.next.2.tokens
termination_by k.rest.length
decreasing_by exact next_rest_lt ‹_›

/-- A given number of successive tokens, where `finish` may come more than once. -/
def take (k : Cursor) : Nat → List Token
  | 0 => []
  | n + 1 => k.next.1 :: k.next.2.take n

end Cursor

/-- The tokens of a text, the last of which is its only `finish`. -/
def tokenize (s : String) : List Token := (Cursor.ofText s).tokens

end Tapestry
