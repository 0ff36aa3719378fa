import Tapestry.Expr.Chain
import Tapestry.ParseError
import Tapestry.Token.Lexer

/-!
# From tokens to expressions

A recursive reader with one function for each kind of phrase:

* `readChain`      operands joined by pipes and operators
* `readOperand`    a command with its arguments, a literal, or a chain in parentheses
* `readArguments`  as many arguments as come before a token that ends them
* `readValue`      a literal, or a chain in parentheses

A phrase is read from a list of tokens without the one at the end of the input, which the functions
get as `stop` for their messages. Each returns what it read and the tokens after it, which are
fewer; that is why reading ends.
-/

namespace Tapestry.Parse

/-- What was read from `ts`, and fewer tokens left to read. -/
abbrev Taken (α : Type) (ts : List Token) : Type :=
  Except ParseError { r : α × List Token // r.2.length < ts.length }

/-- What was read from `ts`, perhaps nothing, and the tokens left to read. -/
abbrev Optional (α : Type) (ts : List Token) : Type :=
  Except ParseError { r : α × List Token // r.2.length ≤ ts.length }

/-- The connective that a token stands for. -/
def connective? : TokenKind → Option Connective
  | .pipe => some .pipe
  | .operator o => some (.operator o)
  | _ => none

mutual

/-- Read an operand and everything joined to it. -/
def readChain (stop : Token) (ts : List Token) : Taken Chain ts :=
  match readOperand stop ts with
  | .error e => .error e
  | .ok ⟨(head, rest), h⟩ =>
    match readJoined stop rest with
    | .error e => .error e
    | .ok ⟨(tail, rest'), h'⟩ => .ok ⟨(⟨head, tail⟩, rest'), Nat.lt_of_le_of_lt h' h⟩
termination_by (ts.length, 1)

/-- Read operands as long as a connective comes first. -/
def readJoined (stop : Token) (ts : List Token) : Optional (List (Connective × Expr)) ts :=
  match ts with
  | [] => .ok ⟨([], []), Nat.le_refl _⟩
  | t :: rest =>
    match connective? t.kind with
    | none => .ok ⟨([], t :: rest), Nat.le_refl _⟩
    | some k =>
      match readOperand stop rest with
      -- An operand takes a token, so the list gets shorter with each round.
      | .error e => .error e
      | .ok ⟨(operand, rest'), h⟩ =>
        have h : rest'.length < rest.length := h
        match readJoined stop rest' with
        | .error e => .error e
        | .ok ⟨(more, rest''), h'⟩ =>
          have h' : rest''.length ≤ rest'.length := h'
          .ok ⟨((k, operand) :: more, rest''), by simp only [List.length_cons]; omega⟩
termination_by (ts.length, 0)

/-- Read a command, a literal or a group. -/
def readOperand (stop : Token) (ts : List Token) : Taken Expr ts :=
  match ts with
  | [] => .error (.unexpected stop none)
  | t :: rest =>
    match t.kind with
    | .word =>
      match readArguments stop rest with
      | .error e => .error e
      | .ok ⟨(args, rest'), h⟩ => .ok ⟨(.command t.literal args, rest'), Nat.lt_succ_of_le h⟩
    | .quoted | .value => .ok ⟨(.literal t.literal, rest), Nat.lt_succ_self _⟩
    | .opening =>
      match readEnclosed stop t rest with
      | .error e => .error e
      | .ok ⟨(inner, rest'), h⟩ => .ok ⟨(.group inner, rest'), Nat.lt_succ_of_lt h⟩
    | .pipe | .operator _ => .error (.unexpected t (some .leftOperand))
    | .finish | .closing | .equals | .comma => .error (.unexpected t none)
termination_by (ts.length, 0)

/-- Read the arguments that come before a token that ends them. -/
def readArguments (stop : Token) (ts : List Token) : Optional (List Arg) ts :=
  match ts with
  | [] => .ok ⟨([], []), Nat.le_refl _⟩
  | t :: rest =>
    if t.kind.stopsArguments then .ok ⟨([], t :: rest), Nat.le_refl _⟩
    -- What stops the arguments is left to whoever asked for them.
    else
      match readArgument stop (t :: rest) with
      | .error e => .error e
      | .ok ⟨(arg, rest'), h⟩ =>
        have h : rest'.length < (t :: rest).length := h
        match readArguments stop rest' with
        | .error e => .error e
        | .ok ⟨(args, rest''), h'⟩ =>
          .ok ⟨(arg :: args, rest''), Nat.le_of_lt (Nat.lt_of_le_of_lt h' h)⟩
termination_by (ts.length, 2)

/-- Read one argument: a word and an equals sign before a value make it a keyword. -/
def readArgument (stop : Token) (ts : List Token) : Taken Arg ts :=
  match ts with
  | t :: e :: rest =>
    -- Two tokens are looked at, since a word alone is a value.
    if t.kind = .word ∧ e.kind = .equals then
      match readValue stop rest with
      | .error e => .error e
      | .ok ⟨(value, rest'), h⟩ =>
        .ok ⟨(.keyed t.literal value, rest'), Nat.lt_succ_of_lt (Nat.lt_succ_of_lt h)⟩
    else readValue stop (t :: e :: rest)
  | ts => readValue stop ts
termination_by (ts.length, 1)

/-- Read a literal argument or an expression in parentheses. -/
def readValue (stop : Token) (ts : List Token) : Taken Arg ts :=
  match ts with
  | [] => .error (.unexpected stop (some .argumentValue))
  | t :: rest =>
    match t.kind with
    | .opening =>
      match readEnclosed stop t rest with
      | .error e => .error e
      | .ok ⟨(inner, rest'), h⟩ => .ok ⟨(.nested inner, rest'), Nat.lt_succ_of_lt h⟩
    | .word | .value | .quoted => .ok ⟨(.literal t.literal, rest), Nat.lt_succ_self _⟩
    | .equals => .error (.unexpected t (some .plainKeyword))
    | .finish | .pipe | .closing | .comma | .operator _ =>
      .error (.unexpected t (some .argumentValue))
termination_by (ts.length, 0)

/-- Read the expression after an opening parenthesis, and the closing one. -/
def readEnclosed (stop opening : Token) (ts : List Token) : Taken Expr ts :=
  match readChain stop ts with
  | .error e => .error e
  | .ok ⟨(chain, rest), h⟩ =>
    match rest, h with
    | [], _ => .error (.unclosed opening)
    | t :: rest', h =>
      if t.kind = .closing then .ok ⟨(chain.toExpr, rest'), Nat.lt_of_succ_lt h⟩
      else .error (.unexpected t (some .closing))
termination_by (ts.length, 2)

end

/-- Read an expression that takes all tokens. -/
def readAll (stop : Token) (ts : List Token) : Except ParseError Expr :=
  if ts = [] then .error (.empty stop.position)
  else
    match readChain stop ts with
    | .error e => .error e
    | .ok ⟨(chain, []), _⟩ => .ok chain.toExpr
    | .ok ⟨(_, t :: _), _⟩ =>
      -- What is left behind the chain says why the text is no expression.
      match t.kind with
      | .equals | .comma => .error (.unknownOperator t)
      | .closing => .error (.unexpected t (some .noOpening))
      | _ => .error (.unexpected t (some .operatorOrEnd))

end Tapestry.Parse

namespace Tapestry

/-- The expression of a list of tokens that ends with the end of the input. -/
def Expr.ofTokens (ts : List Token) : Except ParseError Expr :=
  Parse.readAll (ts.getLastD (.finish 0)) ts.dropLast

/-- The expression that a text denotes. -/
def parse (text : String) : Except ParseError Expr := Expr.ofTokens (tokenize text)

end Tapestry
