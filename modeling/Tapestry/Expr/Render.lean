import Tapestry.Expr
import Tapestry.Token.Lexer

/-!
# Expressions as text

`Expr.render` writes an expression so that reading it gives the expression back, except that every
operand of an infix operator stands in parentheses. A literal is written bare where the lexer reads
it as one word or value, and in quotes elsewhere.
-/

namespace Tapestry

/-- Whether a text is read back as one word or value and nothing else. -/
def isBareWord (s : String) : Bool :=
  match tokenize s with
  | [t, _] => (t.kind == .word || t.kind == .value) && t.literal == s
  | _ => false

/-- How a character stands between quotes. -/
def escape : Char → List Char
  | '"' => ['\\', '"']
  | '\\' => ['\\', '\\']
  | '\n' => ['\\', 'n']
  | '\t' => ['\\', 't']
  | c => [c]

/-- A text between quotes. -/
def quote (s : String) : String := String.ofList ('"' :: s.toList.flatMap escape ++ ['"'])

/-- A literal argument: bare where that reads back, quoted elsewhere. -/
def renderLiteral (s : String) : String := if isBareWord s then s else quote s

/-- A text in parentheses. -/
def parenthesize (s : String) : String := "(" ++ s ++ ")"

mutual

/-- The text of an expression. -/
def Expr.render : Expr → String
  | .command name args => name ++ Arg.renderList args
  | .pipeline [] => ""
  | .pipeline (e :: es) => e.render ++ Expr.renderStages es
  | .binary l s r => l.renderOperand ++ " " ++ s ++ " " ++ r.renderOperand
  | .group e => parenthesize e.render
  | .literal value => quote value

/-- The text of an operand, which is in parentheses exactly once more than a group is. -/
def Expr.renderOperand : Expr → String
  | .group e => parenthesize e.render
  | .command name args => parenthesize (name ++ Arg.renderList args)
  | .pipeline [] => parenthesize ""
  | .pipeline (e :: es) => parenthesize (e.render ++ Expr.renderStages es)
  | .binary l s r => parenthesize (l.renderOperand ++ " " ++ s ++ " " ++ r.renderOperand)
  | .literal value => parenthesize (quote value)

/-- The text of the stages after the first. -/
def Expr.renderStages : List Expr → String
  | [] => ""
  | e :: es => " | " ++ e.render ++ Expr.renderStages es

/-- The text of an argument. -/
def Arg.render : Arg → String
  | .literal value => renderLiteral value
  | .keyed key value => key ++ "=" ++ value.render
  | .nested e => parenthesize e.render

/-- The text of the arguments of a command, each after a space. -/
def Arg.renderList : List Arg → String
  | [] => ""
  | a :: as => " " ++ a.render ++ Arg.renderList as

end

/-- An operand is a group as it stands, and anything else in parentheses. -/
theorem Expr.renderOperand_eq (e : Expr) :
    e.renderOperand = match e with
      | .group _ => e.render
      | _ => parenthesize e.render := by
  cases e with
  | pipeline es => cases es <;> simp [renderOperand, render]
  | _ => simp [renderOperand, render]

end Tapestry
