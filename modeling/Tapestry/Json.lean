/-!
# JSON text

The part of JSON that trees are written in: texts, lists and objects whose members keep their
order. `Json.pretty` writes a value with two blanks per level of nesting; an empty list or object
is written without a line break inside.
-/

namespace Tapestry

/-- A JSON value without numbers and without the three words. -/
inductive Json where
  | string (value : String)
  | array (items : List Json)
  | object (members : List (String × Json))
  deriving Repr, Inhabited

namespace Json

/-! ## Texts -/

/-- The small hexadecimal digit of a number below 16. -/
def hexChar (n : Nat) : Char :=
  if n < 10 then Char.ofNat ('0'.toNat + n) else Char.ofNat ('a'.toNat + (n - 10))

/-- A character inside the quotes of a text. Only quotes, backslashes and control characters below
    the blank are written in another way; those without a letter of their own take four digits. -/
def escapeChar (c : Char) : List Char :=
  if c = '"' then ['\\', '"']
  else if c = '\\' then ['\\', '\\']
  else if ' ' ≤ c then [c]
  -- The control characters stand below the blank, and a few of them have a short escape.
  else if c = '\n' then ['\\', 'n']
  else if c = '\r' then ['\\', 'r']
  else if c = '\t' then ['\\', 't']
  else if c = '\x08' then ['\\', 'b']
  else if c = '\x0c' then ['\\', 'f']
  else ['\\', 'u', '0', '0', hexChar (c.toNat / 16), hexChar (c.toNat % 16)]

/-- A text in quotes. -/
def quote (s : String) : List Char := '"' :: s.toList.flatMap escapeChar ++ ['"']

/-! ## Values -/

/-- A line break and the blanks of a level of nesting. -/
def newline (level : Nat) : List Char := '\n' :: List.replicate (2 * level) ' '

mutual

/-- The characters of a value that begins at a level of nesting. -/
def write (level : Nat) : Json → List Char
  | string s => quote s
  | array [] => ['[', ']']
  | array (v :: vs) =>
    '[' :: newline (level + 1) ++ write (level + 1) v ++ writeItems (level + 1) vs ++ newline level
      ++ [']']
  | object [] => ['\x7b', '\x7d']
  | object ((k, v) :: ms) =>
    '\x7b' :: newline (level + 1) ++ quote k ++ ':' :: ' ' :: write (level + 1) v
      ++ writeMembers (level + 1) ms ++ newline level ++ ['\x7d']

/-- The items of a list after the first one. -/
def writeItems (level : Nat) : List Json → List Char
  | [] => []
  | v :: vs => ',' :: newline level ++ write level v ++ writeItems level vs

/-- The members of an object after the first one. -/
def writeMembers (level : Nat) : List (String × Json) → List Char
  | [] => []
  | (k, v) :: ms =>
    ',' :: newline level ++ quote k ++ ':' :: ' ' :: write level v ++ writeMembers level ms

end

/-- The text of a value. -/
def pretty (v : Json) : String := String.ofList (write 0 v)

end Json

end Tapestry
