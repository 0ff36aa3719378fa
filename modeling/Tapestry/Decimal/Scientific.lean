/-!
# Decimal numerals with an exponent

`Scientific.read?` takes an optional sign, digits with at most one point among them and at least one
digit beside it, and an optional exponent of ten. The result is exact: a sign, a whole coefficient
and a power of ten, so that rounding is left to whoever needs a machine number.
-/

namespace Tapestry

/-- The decimal `± coefficient · 10 ^ exponent`. The sign is kept apart so that a negative zero
    stays one. -/
structure Scientific where
  negative : Bool
  coefficient : Nat
  exponent : Int
  deriving DecidableEq, Repr

namespace Scientific

/-- Split off a leading sign; `true` means minus. -/
def splitSign : List Char → Bool × List Char
  | '-' :: cs => (true, cs)
  | '+' :: cs => (false, cs)
  | cs => (false, cs)

/-- Split off the leading digits. -/
def splitDigits (cs : List Char) : List Char × List Char :=
  (cs.takeWhile Char.isDigit, cs.dropWhile Char.isDigit)

/-- Read the text after the digits: nothing, or the letter `e` with a whole number. -/
def readExponent : List Char → Option Int
  | [] => some 0
  | c :: cs =>
    if c == 'e' || c == 'E' then
      let (negative, digits) := splitSign cs
      if digits ≠ [] ∧ digits.all Char.isDigit then
        let n : Int := Nat.ofDigitChars 10 digits 0
        some (if negative then -n else n)
      else none
    else none

/-- Read a whole numeral; `none` when the text is not one. -/
def read? (cs : List Char) : Option Scientific :=
  let (negative, cs) := splitSign cs
  let (whole, cs) := splitDigits cs
  let (fraction, cs) :=
    match cs with
    | '.' :: cs => splitDigits cs
    | cs => ([], cs)
  -- One of the two is enough, as in a number that begins or ends with its point.
  if whole = [] ∧ fraction = [] then none
  else (readExponent cs).map fun e =>
    { negative
      coefficient := Nat.ofDigitChars 10 (whole ++ fraction) 0
      exponent := e - fraction.length }

end Scientific

end Tapestry
