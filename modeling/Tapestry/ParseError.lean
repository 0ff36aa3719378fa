import Tapestry.Diagnostic
import Tapestry.Token

/-!
# Errors of reading

Why a text is no expression. Every error holds the token it is about, so that its place in the text
is known; the wording is in `ParseError.message` and `Hint.message`.
-/

namespace Tapestry

/-- What was expected where something else was found. -/
inductive Hint where
  | closing
  | noOpening
  | operatorOrEnd
  | leftOperand
  | plainKeyword
  | argumentValue
  deriving DecidableEq, Repr, Inhabited

/-- The wording of a hint. -/
def Hint.message : Hint → String
  | closing => "expected ')'"
  | noOpening => "this ')' has no matching '('"
  | operatorOrEnd => "expected an operator or end of input"
  | leftOperand => "an operator needs an expression on its left"
  | plainKeyword => "key=value pairs need an identifier key and cannot be nested"
  | argumentValue => "expected an argument value"

/-- Why a text is no expression. -/
inductive ParseError where
  | unexpected (found : Token) (hint : Option Hint)
  | unclosed (opening : Token)
  | empty (position : Nat)
  | unknownOperator (sign : Token)
  deriving DecidableEq, Repr, Inhabited

namespace ParseError

/-- The byte of the text at which the error was found. -/
def position : ParseError → Nat
  | unexpected t _ | unclosed t | unknownOperator t => t.position
  | empty p => p

/-- The wording of an error. -/
def message : ParseError → String
  | unexpected t _ => s!"Unexpected {t.describe} at position {t.position}"
  | unclosed t => s!"Unclosed parenthesis at position {t.position}"
  | empty _ => "Empty expression"
  | unknownOperator t => s!"Unknown operator '{t.literal}' at position {t.position}"

/-- The code that names the kind of an error. -/
def code : ParseError → String
  | unexpected _ _ => "weave::parse::unexpected_token"
  | unclosed _ => "weave::parse::unclosed_paren"
  | empty _ => "weave::parse::empty"
  | unknownOperator _ => "weave::parse::unknown_operator"

/-- Advice on an error. -/
def help : ParseError → Option String
  | unexpected _ hint => hint.map Hint.message
  | unclosed _ => some "Add a closing ')' to finish the group"
  | empty _ => some "Try something like: checkers black white | zoom 4"
  | unknownOperator _ => none

/-- A label on the place of a token. -/
private def labelOn (t : Token) (text : String) : List Label := [⟨text, t.span.1, t.span.2⟩]

/-- The places of the text that an error points at. -/
def labels : ParseError → Option (List Label)
  | unexpected t _ => some (labelOn t "not expected here")
  | unclosed t => some (labelOn t "opened here")
  | empty _ => none
  | unknownOperator t => some (labelOn t "operator")

/-- The report of an error. -/
def diagnostic (e : ParseError) : Diagnostic :=
  { message := e.message, code := e.code, help := e.help, labels := e.labels }

end ParseError

end Tapestry
