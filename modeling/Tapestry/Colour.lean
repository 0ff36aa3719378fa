import Tapestry.EvalError
import Tapestry.Text.Basic

/-!
# Colours

A colour is four channels of one byte. It is read from a name of the table `Colour.named` or from
hexadecimal digits, and written as hexadecimal digits that `Colour.ofText` and `Colour.ofHex` read
back.
-/

namespace Tapestry

/-- Red, green, blue and opacity, each from 0 to 255. -/
structure Colour where
  red : UInt8
  green : UInt8
  blue : UInt8
  alpha : UInt8
  deriving DecidableEq, Repr, Inhabited

namespace Colour

/-- An opaque colour. -/
def rgb (red green blue : UInt8) : Colour := ⟨red, green, blue, 255⟩

/-- The colour of a blank image. -/
def transparent : Colour := ⟨0, 0, 0, 0⟩

/-- Whether a colour is fully transparent. -/
def isTransparent (c : Colour) : Bool := c.alpha == 0

/-- The colours that have a name. -/
def named : List (String × Colour) := [
  ("black", rgb 0 0 0),
  ("white", rgb 255 255 255),
  ("red", rgb 255 0 0),
  ("green", rgb 0 128 0),
  ("lime", rgb 0 255 0),
  ("blue", rgb 0 0 255),
  ("yellow", rgb 255 255 0),
  ("cyan", rgb 0 255 255),
  ("magenta", rgb 255 0 255),
  ("orange", rgb 255 165 0),
  ("purple", rgb 128 0 128),
  ("grey", rgb 128 128 128),
  ("gray", rgb 128 128 128),
  ("transparent", transparent)]

/-! ## Reading -/

/-- The value of an ASCII hexadecimal digit of either case. -/
def hexDigit? (c : Char) : Option UInt8 :=
  if '0' ≤ c ∧ c ≤ '9' then some (c.toNat - '0'.toNat).toUInt8
  else if 'a' ≤ c ∧ c ≤ 'f' then some (c.toNat - 'a'.toNat + 10).toUInt8
  else if 'A' ≤ c ∧ c ≤ 'F' then some (c.toNat - 'A'.toNat + 10).toUInt8
  else none

/-- The values of hexadecimal digits; the first character that is none is the fault. -/
def hexDigits : List Char → Except ArgumentFault (List UInt8)
  | [] => .ok []
  | c :: cs =>
    match hexDigit? c with
    | none => .error (.invalidHexDigit c)
    | some d => (hexDigits cs).map (d :: ·)

/-- The colour of 3, 4, 6 or 8 digit values. A single digit stands for itself twice, and a missing
    opacity for a full one. -/
def ofDigits? : List UInt8 → Option Colour
  | [r, g, b] => some (rgb (16 * r + r) (16 * g + g) (16 * b + b))
  | [r, g, b, a] => some ⟨16 * r + r, 16 * g + g, 16 * b + b, 16 * a + a⟩
  | [r, r', g, g', b, b'] => some (rgb (16 * r + r') (16 * g + g') (16 * b + b'))
  | [r, r', g, g', b, b', a, a'] => some ⟨16 * r + r', 16 * g + g', 16 * b + b', 16 * a + a'⟩
  | _ => none

/-- The text without one leading number sign. -/
def dropHash : List Char → List Char
  | '#' :: cs => cs
  | cs => cs

/-- Read hexadecimal digits, with or without a leading number sign, and with white space around
    them. -/
def ofHex (s : String) : Except ArgumentFault Colour :=
  let s := Text.trimmed s
  match hexDigits (dropHash s.toList) with
  | .error e => .error e
  | .ok digits =>
    match ofDigits? digits with
    | some c => .ok c
    | none => .error (.invalidHexColour s)

/-- The colour with a name, in any ASCII case. -/
def ofName? (s : String) : Option Colour :=
  named.lookup (String.ofList (Text.lowerAscii s.toList))

/-- Read the name of a colour or a number sign with hexadecimal digits. -/
def ofText (s : String) : Except ArgumentFault Colour :=
  let s := Text.trimmed s
  match ofName? s with
  | some c => .ok c
  | none => if s.toList.head? = some '#' then ofHex s else .error (.notAColour s)

/-! ## Writing -/

/-- The capital hexadecimal digit of a value below 16. -/
def hexChar (d : UInt8) : Char :=
  if d < 10 then Char.ofNat ('0'.toNat + d.toNat) else Char.ofNat ('A'.toNat + (d.toNat - 10))

/-- A byte as two hexadecimal digits. -/
def hexPair (b : UInt8) : List Char := [hexChar (b / 16), hexChar (b % 16)]

/-- The text of a colour: a number sign and six digits, or eight when it is not opaque. -/
def render (c : Colour) : String :=
  let digits := hexPair c.red ++ hexPair c.green ++ hexPair c.blue
  String.ofList ('#' :: if c.alpha = 255 then digits else digits ++ hexPair c.alpha)

end Colour

end Tapestry
