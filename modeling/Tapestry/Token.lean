import Tapestry.Operator
import Tapestry.Text.Basic

/-!
# Tokens

The words and signs of an expression. A token carries its literal text, which for a quoted string is
what the quotes stand for, and the bytes of the source that it was read from.
-/

namespace Tapestry

/-- The kinds of tokens. `finish` stands for the end of the input and for everything after a
    character that starts no token. -/
inductive TokenKind where
  | finish
  | word
  | quoted
  | value
  | pipe
  | opening
  | closing
  | equals
  | comma
  | operator (o : Operator)
  deriving DecidableEq, Repr, Inhabited

namespace TokenKind

/-- Whether a token joins two expressions. -/
def isInfix : TokenKind → Bool
  | pipe | operator _ => true
  | _ => false

/-- Whether a token ends the arguments of a command. -/
def stopsArguments : TokenKind → Bool
  | pipe | operator _ | closing | comma | finish => true
  | word | quoted | value | opening | equals => false

/-- What a kind of token is called in messages. -/
def describe : TokenKind → String
  | finish => "end of input"
  | word => "identifier"
  | quoted => "string"
  | value => "value"
  | pipe => "'|'"
  | opening => "'('"
  | closing => "')'"
  | equals => "'='"
  | comma => "','"
  | operator o => "'" ++ o.symbol ++ "'"

/-- Every token that joins two expressions ends the arguments of a command. -/
theorem stopsArguments_of_isInfix {k : TokenKind} (h : k.isInfix = true) :
    k.stopsArguments = true := by
  cases k <;> simp_all [isInfix, stopsArguments]

end TokenKind

/-- A token with its place in the source, in bytes. -/
structure Token where
  kind : TokenKind
  literal : String
  position : Nat
  length : Nat
  deriving DecidableEq, Repr, Inhabited

namespace Token

/-- The token at the end of the input. -/
def finish (position : Nat) : Token := ⟨.finish, "", position, 0⟩

/-- The part of the source that a diagnostic points at: at least one byte. -/
def span (t : Token) : Nat × Nat := (t.position, max t.length 1)

/-- What a token is called in messages. -/
def describe (t : Token) : String :=
  match t.kind with
  | .word | .value => s!"{t.kind.describe} '{t.literal}'"
  | .quoted => s!"string \"{t.literal}\""
  | k => k.describe

end Token

end Tapestry
