import Tapestry.Operator

/-!
# Expressions

The tree of a pipeline expression. An expression is a command with arguments, a pipeline of stages,
two expressions joined by an infix operator, an expression in parentheses, or a bare literal. An
argument is a literal text, a keyword with a value, or an expression in parentheses.

The type holds more trees than a text can denote: a pipeline may be empty or contain pipelines, an
operator may be any text, and a keyword may carry another keyword. Everything below is defined for
all of them.
-/

namespace Tapestry

mutual

/-- An expression. -/
inductive Expr where
  | command (name : String) (args : List Arg)
  | pipeline (stages : List Expr)
  | binary (left : Expr) (symbol : String) (right : Expr)
  | group (inner : Expr)
  | literal (value : String)

/-- An argument of a command. -/
inductive Arg where
  | literal (value : String)
  | keyed (key : String) (value : Arg)
  | nested (expr : Expr)

end

deriving instance Repr for Expr, Arg

instance : Inhabited Expr := ⟨.pipeline []⟩

instance : Inhabited Arg := ⟨.literal ""⟩

/-! ## Decidable equality -/

mutual

/-- Decide whether two expressions are equal. -/
def Expr.decEq : (a b : Expr) → Decidable (a = b)
  | .command n as, b =>
    match b with
    | .command m bs =>
      match decEq n m, Arg.decEqList as bs with
      | isTrue h, isTrue h' => isTrue (by rw [h, h'])
      | isFalse h, _ => isFalse fun e => h (by injection e)
      | _, isFalse h => isFalse fun e => h (by injection e)
    | .pipeline _ | .binary _ _ _ | .group _ | .literal _ => isFalse (by simp)
  | .pipeline as, b =>
    match b with
    | .pipeline bs =>
      match Expr.decEqList as bs with
      | isTrue h => isTrue (by rw [h])
      | isFalse h => isFalse fun e => h (by injection e)
    | .command _ _ | .binary _ _ _ | .group _ | .literal _ => isFalse (by simp)
  | .binary l o r, b =>
    match b with
    | .binary l' o' r' =>
      match l.decEq l', decEq o o', r.decEq r' with
      | isTrue h, isTrue h', isTrue h'' => isTrue (by rw [h, h', h''])
      | isFalse h, _, _ => isFalse fun e => h (by injection e)
      | _, isFalse h, _ => isFalse fun e => h (by injection e)
      | _, _, isFalse h => isFalse fun e => h (by injection e)
    | .command _ _ | .pipeline _ | .group _ | .literal _ => isFalse (by simp)
  | .group a, b =>
    match b with
    | .group b =>
      match a.decEq b with
      | isTrue h => isTrue (by rw [h])
      | isFalse h => isFalse fun e => h (by injection e)
    | .command _ _ | .pipeline _ | .binary _ _ _ | .literal _ => isFalse (by simp)
  | .literal v, b =>
    match b with
    | .literal w => if h : v = w then isTrue (by rw [h]) else isFalse fun e => h (by injection e)
    | .command _ _ | .pipeline _ | .binary _ _ _ | .group _ => isFalse (by simp)

/-- Decide whether two lists of expressions are equal. -/
def Expr.decEqList : (as bs : List Expr) → Decidable (as = bs)
  | [], bs =>
    match bs with
    | [] => isTrue rfl
    | _ :: _ => isFalse (by simp)
  | a :: as, bs =>
    match bs with
    | [] => isFalse (by simp)
    | b :: bs =>
      match a.decEq b, Expr.decEqList as bs with
      | isTrue h, isTrue h' => isTrue (by rw [h, h'])
      | isFalse h, _ => isFalse fun e => h (by injection e)
      | _, isFalse h => isFalse fun e => h (by injection e)

/-- Decide whether two arguments are equal. -/
def Arg.decEq : (a b : Arg) → Decidable (a = b)
  | .literal v, b =>
    match b with
    | .literal w => if h : v = w then isTrue (by rw [h]) else isFalse fun e => h (by injection e)
    | .keyed _ _ | .nested _ => isFalse (by simp)
  | .keyed k a, b =>
    match b with
    | .keyed l b =>
      match decEq k l, a.decEq b with
      | isTrue h, isTrue h' => isTrue (by rw [h, h'])
      | isFalse h, _ => isFalse fun e => h (by injection e)
      | _, isFalse h => isFalse fun e => h (by injection e)
    | .literal _ | .nested _ => isFalse (by simp)
  | .nested a, b =>
    match b with
    | .nested b =>
      match a.decEq b with
      | isTrue h => isTrue (by rw [h])
      | isFalse h => isFalse fun e => h (by injection e)
    | .literal _ | .keyed _ _ => isFalse (by simp)

/-- Decide whether two lists of arguments are equal. -/
def Arg.decEqList : (as bs : List Arg) → Decidable (as = bs)
  | [], bs =>
    match bs with
    | [] => isTrue rfl
    | _ :: _ => isFalse (by simp)
  | a :: as, bs =>
    match bs with
    | [] => isFalse (by simp)
    | b :: bs =>
      match a.decEq b, Arg.decEqList as bs with
      | isTrue h, isTrue h' => isTrue (by rw [h, h'])
      | isFalse h, _ => isFalse fun e => h (by injection e)
      | _, isFalse h => isFalse fun e => h (by injection e)

end

instance : DecidableEq Expr := Expr.decEq

instance : DecidableEq Arg := Arg.decEq

/-! ## Views -/

namespace Expr

/-- The stages of an expression read as a pipeline: its own when it is one, else itself alone. -/
def stages : Expr → List Expr
  | pipeline es => es
  | e => [e]

/-- The pipeline of two expressions, which is flat when its parts are. -/
def pipe (a b : Expr) : Expr := pipeline (a.stages ++ b.stages)

/-- The name of a command. -/
def name? : Expr → Option String
  | command name _ => some name
  | _ => none

/-- The expression below all parentheses around it. -/
def ungrouped : Expr → Expr
  | group e => e.ungrouped
  | e => e

end Expr

mutual

/-- The names under which an expression looks up handlers, in the order of evaluation and with
    repetitions. An infix operator stands for its command, or for itself when it has none. -/
def Expr.commandNames : Expr → List String
  | .command name args => Arg.listCommandNames args ++ [name]
  | .pipeline stages => Expr.listCommandNames stages
  | .binary l s r =>
    l.commandNames ++ r.commandNames ++ [(Operator.commandOf? s).getD s]
  | .group e => e.commandNames
  | .literal value => [value]

/-- The names of a list of expressions, one expression after the other. -/
def Expr.listCommandNames : List Expr → List String
  | [] => []
  | e :: es => e.commandNames ++ Expr.listCommandNames es

/-- The names of the expressions inside an argument. -/
def Arg.commandNames : Arg → List String
  | .literal _ => []
  | .keyed _ value => value.commandNames
  | .nested e => e.commandNames

/-- The names of a list of arguments, one argument after the other. -/
def Arg.listCommandNames : List Arg → List String
  | [] => []
  | a :: as => a.commandNames ++ Arg.listCommandNames as

end

mutual

/-- Whether two expressions are the same up to parentheses in expression position. -/
def Expr.equivalent : Expr → Expr → Bool
  | .group e, f => e.equivalent f
  | .command n as, f =>
    match f.ungrouped with
    | .command m bs => n == m && Arg.listEquivalent as bs
    | _ => false
  | .pipeline es, f =>
    match f.ungrouped with
    | .pipeline fs => Expr.listEquivalent es fs
    | _ => false
  | .binary l o r, f =>
    match f.ungrouped with
    | .binary l' o' r' => o == o' && l.equivalent l' && r.equivalent r'
    | _ => false
  | .literal v, f =>
    match f.ungrouped with
    | .literal w => v == w
    | _ => false

/-- Whether two lists of expressions have the same length and equivalent members. -/
def Expr.listEquivalent : List Expr → List Expr → Bool
  | [], [] => true
  | e :: es, f :: fs => e.equivalent f && Expr.listEquivalent es fs
  | _, _ => false

/-- Whether two arguments are the same up to parentheses in expression position. -/
def Arg.equivalent : Arg → Arg → Bool
  | .literal v, .literal w => v == w
  | .keyed k a, .keyed l b => k == l && a.equivalent b
  | .nested e, .nested f => e.equivalent f
  | _, _ => false

/-- Whether two lists of arguments have the same length and equivalent members. -/
def Arg.listEquivalent : List Arg → List Arg → Bool
  | [], [] => true
  | a :: as, b :: bs => a.equivalent b && Arg.listEquivalent as bs
  | _, _ => false

end

end Tapestry
