import Tapestry.Expr

/-!
# Chains of operands

Between two parentheses an expression is read as a *chain*: operands with pipes and operators
between them. What the chain means is decided afterwards, level by level. At each level the chain
is cut at the connectives of that level, the pieces are resolved at the tighter levels, and the
results are joined from the left.

The levels, loosest first: pipes; `^`; `+` and `-`; `*`, `/` and `%`.
-/

namespace Tapestry

/-- What joins two operands of a chain. -/
inductive Connective where
  | pipe
  | operator (o : Operator)
  deriving DecidableEq, Repr

namespace Connective

/-- How tightly an operator binds. -/
def levelOf : Operator → Nat
  | .xor => 1
  | .add | .sub => 2
  | .mul | .div | .mod => 3

/-- How tightly a connective binds: a pipe least of all. -/
def level : Connective → Nat
  | pipe => 0
  | operator o => levelOf o

/-- The expression that a connective makes of two. -/
def join : Connective → Expr → Expr → Expr
  | pipe, a, b => a.pipe b
  | operator o, a, b => .binary a o.symbol b

end Connective

/-- An operand, and more operands each with the connective before it. -/
structure Chain where
  head : Expr
  tail : List (Connective × Expr)

namespace Chain

/-- Cut a chain at the connectives of a class: the chain before the first of them, and the chain
    after each. -/
def cut (p : Connective → Bool) (head : Expr) :
    List (Connective × Expr) → Chain × List (Connective × Chain)
  | [] => (⟨head, []⟩, [])
  | (k, e) :: tail =>
    let (first, more) := cut p e tail
    if p k then (⟨head, []⟩, (k, first) :: more)
    else (⟨head, (k, first.head) :: first.tail⟩, more)

/-- The levels of connectives, loosest first. -/
def levels : List Nat := [0, 1, 2, 3]

/-- The expression of a chain whose connectives are all of the given levels. -/
def resolve : List Nat → Chain → Expr
  | [], c => c.head
  | n :: tighter, c =>
    let (first, more) := cut (·.level == n) c.head c.tail
    more.foldl (fun left (k, piece) => k.join left (resolve tighter piece)) (resolve tighter first)

/-- The expression that a chain denotes. -/
def toExpr (c : Chain) : Expr := resolve levels c

end Chain

end Tapestry
