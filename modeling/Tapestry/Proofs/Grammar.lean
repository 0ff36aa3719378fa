import Tapestry.Expr.Chain
import Tapestry.Token

/-!
# The grammar of expressions

Which lists of tokens are expressions, and which tree each of them denotes, as a relation that says
nothing about how a tree is found:

```text
pipe     := xor ('|' xor)*
xor      := sum ('^' sum)*
sum      := product (('+' | '-') product)*
product  := atom (('*' | '/' | '%') atom)*
atom     := WORD argument* | VALUE | QUOTED | '(' pipe ')'
argument := WORD '=' argval | argval
argval   := WORD | VALUE | QUOTED | '(' pipe ')'
```

The first four rules are one rule with a level, `Phrase`. Operators of one level join from the left;
two or more expressions between pipes are one pipeline. Parentheses make a group where an expression
may stand and a nested expression where an argument may stand.

## Key results

- `Phrase.isPipeline_eq_false`: below the level of pipes no phrase denotes a pipeline
- `ArgumentList.keyed_of_equals`: a word before an equals sign is a keyword
-/

namespace Tapestry

/-- The kind of the token that a connective is written as. -/
def Connective.kind : Connective → TokenKind
  | pipe => .pipe
  | operator o => .operator o

/-- The sign that a connective is written as. -/
def Connective.symbol : Connective → String
  | pipe => "|"
  | operator o => o.symbol

/-- Whether an expression is a pipeline. -/
def Expr.isPipeline : Expr → Bool
  | pipeline _ => true
  | _ => false

/-- An expression that is no pipeline is its own only stage. -/
theorem Expr.stages_of_isPipeline {e : Expr} (h : e.isPipeline = false) : e.stages = [e] := by
  cases e <;> first | rfl | exact nomatch h

namespace Grammar

/-- The levels of the grammar, loosest first. -/
inductive Level where
  | pipe
  | xor
  | sum
  | product
  deriving DecidableEq, Repr

/-- The connectives that stand between the operands of a level. -/
def Level.connectives : Level → List Connective
  | pipe => [.pipe]
  | xor => [.operator .xor]
  | sum => [.operator .add, .operator .sub]
  | product => [.operator .mul, .operator .div, .operator .mod]

/-- The tree of the operands of a level: a single operand is itself, several are a pipeline or are
    joined two by two from the left. -/
def Level.build : Level → Expr → List (Connective × Expr) → Expr
  | _, first, [] => first
  | pipe, first, more => .pipeline (first :: more.map Prod.snd)
  | _, first, more => more.foldl (fun left (k, right) => .binary left k.symbol right) first

mutual

/-- A list of tokens that denotes an expression at a level. -/
inductive Phrase : Level → List Token → Expr → Prop
  | build {l ts first more} (h : OperandList l ts first more) : Phrase l ts (l.build first more)

/-- The operands of a level: the first, and the others each with the connective before it. -/
inductive OperandList : Level → List Token → Expr → List (Connective × Expr) → Prop
  | last {l ts e} (h : Operand l ts e) : OperandList l ts e []
  | more {l ts t us e k f more} (h : Operand l ts e) (hk : k ∈ l.connectives)
      (ht : t.kind = k.kind) (h' : OperandList l us f more) :
      OperandList l (ts ++ t :: us) e ((k, f) :: more)

/-- An operand of a level: a phrase of the next tighter one, and an atom at the tightest. -/
inductive Operand : Level → List Token → Expr → Prop
  | pipe {ts e} (h : Phrase .xor ts e) : Operand .pipe ts e
  | xor {ts e} (h : Phrase .sum ts e) : Operand .xor ts e
  | sum {ts e} (h : Phrase .product ts e) : Operand .sum ts e
  | product {ts e} (h : Atom ts e) : Operand .product ts e

/-- A command with its arguments, a literal, or a group. -/
inductive Atom : List Token → Expr → Prop
  | command {t ts args} (ht : t.kind = .word) (h : ArgumentList ts args) :
      Atom (t :: ts) (.command t.literal args)
  | literal {t} (ht : t.kind = .value ∨ t.kind = .quoted) : Atom [t] (.literal t.literal)
  | group {t ts u e} (ht : t.kind = .opening) (h : Phrase .pipe ts e) (hu : u.kind = .closing) :
      Atom (t :: ts ++ [u]) (.group e)

/-- Any number of arguments. -/
inductive ArgumentList : List Token → List Arg → Prop
  | nil : ArgumentList [] []
  | cons {ts us a as} (h : Argument ts a) (h' : ArgumentList us as) :
      ArgumentList (ts ++ us) (a :: as)

/-- A keyword with its value, or a value alone. -/
inductive Argument : List Token → Arg → Prop
  | keyed {t u ts v} (ht : t.kind = .word) (hu : u.kind = .equals) (h : ArgumentValue ts v) :
      Argument (t :: u :: ts) (.keyed t.literal v)
  | plain {ts v} (h : ArgumentValue ts v) : Argument ts v

/-- A literal, or a nested expression. -/
inductive ArgumentValue : List Token → Arg → Prop
  | literal {t} (ht : t.kind = .word ∨ t.kind = .value ∨ t.kind = .quoted) :
      ArgumentValue [t] (.literal t.literal)
  | nested {t ts u e} (ht : t.kind = .opening) (h : Phrase .pipe ts e) (hu : u.kind = .closing) :
      ArgumentValue (t :: ts ++ [u]) (.nested e)

end

/-! ## From one level to a looser one -/

/-- A phrase with a single operand denotes what the operand denotes. -/
theorem Phrase.of_operand {l : Level} {ts : List Token} {e : Expr} (h : Operand l ts e) :
    Phrase l ts e := by
  have := Phrase.build (OperandList.last h)
  cases l <;> exact this

/-- An atom is a phrase of every level. -/
theorem Phrase.of_atom {ts : List Token} {e : Expr} (h : Atom ts e) (l : Level) :
    Phrase l ts e := by
  have hp : Phrase .product ts e := .of_operand (.product h)
  have hs : Phrase .sum ts e := .of_operand (.sum hp)
  have hx : Phrase .xor ts e := .of_operand (.xor hs)
  cases l with
  | pipe => exact .of_operand (.pipe hx)
  | xor => exact hx
  | sum => exact hs
  | product => exact hp

/-- An atom is an operand of every level. -/
theorem Operand.of_atom {ts : List Token} {e : Expr} (h : Atom ts e) (l : Level) :
    Operand l ts e := by
  cases l with
  | pipe => exact .pipe (.of_atom h .xor)
  | xor => exact .xor (.of_atom h .sum)
  | sum => exact .sum (.of_atom h .product)
  | product => exact .product h

/-- The level of an operator. -/
def Level.ofOperator : Operator → Level
  | .xor => xor
  | .add | .sub => sum
  | .mul | .div | .mod => product

/-- An operator is one of the connectives of its level. -/
theorem Level.mem_connectives_ofOperator (p : Operator) :
    .operator p ∈ (ofOperator p).connectives := by
  cases p <;> decide

/-- Two atoms with an operator between them are a binary expression. -/
theorem Phrase.binary {ts us : List Token} {t : Token} {a b : Expr} {p : Operator}
    (ha : Atom ts a) (ht : t.kind = .operator p) (hb : Atom us b) :
    Phrase .xor (ts ++ t :: us) (.binary a p.symbol b) := by
  have h := Phrase.build (.more (.of_atom ha _) (Level.mem_connectives_ofOperator p) ht
    (.last (.of_atom hb _)))
  -- This is a phrase of the operator's own level, and so the only operand of the looser ones.
  cases p with
  | xor => exact h
  | add | sub => exact .of_operand (.xor h)
  | mul | div | mod => exact .of_operand (.xor (.of_operand (.sum h)))

/-! ## Pipelines stand at the loosest level only -/

/-- Joining operands with operators gives no pipeline. -/
private theorem isPipeline_foldl_binary (first : Expr) (x : Connective × Expr)
    (more : List (Connective × Expr)) :
    ((x :: more).foldl (fun left (k, right) => .binary left k.symbol right) first).isPipeline =
      false := by
  induction more generalizing first x with
  | nil => rfl
  | cons y more ih => exact ih (.binary first x.1.symbol x.2) y

/-- An atom takes at least one token. -/
theorem Atom.ne_nil {ts : List Token} {e : Expr} (h : Atom ts e) : ts ≠ [] := by
  cases h <;> exact List.cons_ne_nil _ _

/-- An atom is no pipeline: one can only be written in parentheses there, as a group. -/
private theorem Atom.isPipeline_eq_false {ts : List Token} {e : Expr} (h : Atom ts e) :
    e.isPipeline = false := by
  cases h <;> rfl

mutual

/-- Below the level of pipes no phrase denotes a pipeline. -/
private theorem Phrase.isPipeline_eq_false {l : Level} {ts : List Token} {e : Expr}
    (hl : l ≠ .pipe) : Phrase l ts e → e.isPipeline = false
  | .build (.last h) => by
    have := h.isPipeline_eq_false
    cases l <;> exact this
  | .build (@OperandList.more _ _ _ _ first k f more ..) => by
    -- Several operands are joined two by two at every level but the loosest.
    have := isPipeline_foldl_binary first (k, f) more
    cases l with
    | pipe => exact absurd rfl hl
    | xor => exact this
    | sum => exact this
    | product => exact this

/-- No operand denotes a pipeline. -/
private theorem Operand.isPipeline_eq_false {l : Level} {ts : List Token} {e : Expr} :
    Operand l ts e → e.isPipeline = false
  | .pipe h => h.isPipeline_eq_false (by decide)
  | .xor h => h.isPipeline_eq_false (by decide)
  | .sum h => h.isPipeline_eq_false (by decide)
  | .product h => h.isPipeline_eq_false

end

/-- What decides how the operands of a level are joined: the connectives are of the level, and no
    operand is a pipeline. -/
theorem OperandList.mem {l : Level} {ts : List Token} {e : Expr} {more : List (Connective × Expr)}
    (h : OperandList l ts e more) :
    e.isPipeline = false ∧ ∀ x ∈ more, x.1 ∈ l.connectives ∧ x.2.isPipeline = false := by
  -- The induction is on the operands behind the first one.
  induction more generalizing ts e with
  | nil =>
    cases h with
    | last h => exact ⟨h.isPipeline_eq_false, fun x hx => nomatch hx⟩
  | cons y more ih =>
    cases h with
    | more h hk ht h' =>
      obtain ⟨hf, hmore⟩ := ih h'
      exact ⟨h.isPipeline_eq_false, List.forall_mem_cons.2 ⟨⟨hk, hf⟩, hmore⟩⟩

/-- Two lists of operands of a level with a connective of the level between them are one list. -/
theorem OperandList.append {l : Level} {ts us : List Token} {t : Token} {e f : Expr}
    {k : Connective} {before after : List (Connective × Expr)} (h : OperandList l ts e before)
    (hk : k ∈ l.connectives) (ht : t.kind = k.kind) (h' : OperandList l us f after) :
    OperandList l (ts ++ t :: us) e (before ++ (k, f) :: after) := by
  -- The induction is on the operands in front.
  induction before generalizing ts e with
  | nil =>
    cases h with
    | last h => exact .more h hk ht h'
  | cons x before ih =>
    cases h with
    | more h hk₁ ht₁ h₁ =>
      rw [List.append_assoc, List.cons_append]
      exact .more h hk₁ ht₁ (ih h₁)

/-- Between the operands of a level tighter than pipes stand operators. -/
theorem Level.exists_operator {l : Level} (hl : l ≠ .pipe) {k : Connective}
    (hk : k ∈ l.connectives) : ∃ o, k = .operator o := by
  cases k with
  | operator o => exact ⟨o, rfl⟩
  | pipe => cases l <;> simp_all [connectives]

/-! ## Keywords -/

/-- The first token of a value is no equals sign. -/
theorem ArgumentValue.head_ne_equals {t : Token} {ts : List Token} {v : Arg}
    (h : ArgumentValue (t :: ts) v) : t.kind ≠ .equals := by
  cases h with
  | literal ht => rcases ht with ht | ht | ht <;> rw [ht] <;> decide
  | nested ht => rw [ht]; decide

/-- No argument starts with an equals sign. -/
theorem Argument.head_ne_equals {t : Token} {ts : List Token} {a : Arg}
    (h : Argument (t :: ts) a) : t.kind ≠ .equals := by
  cases h with
  | keyed ht => rw [ht]; decide
  | plain h => exact h.head_ne_equals

/-- An argument takes at least one token. -/
theorem Argument.ne_nil {ts : List Token} {a : Arg} (h : Argument ts a) : ts ≠ [] := by
  cases h with
  | keyed => exact List.cons_ne_nil _ _
  | plain h => cases h <;> exact List.cons_ne_nil _ _

/-- No list of arguments starts with an equals sign. -/
theorem ArgumentList.head_ne_equals {t : Token} {ts : List Token} {as : List Arg}
    (h : ArgumentList (t :: ts) as) : t.kind ≠ .equals := by
  generalize hts : t :: ts = us at h
  cases h with
  | nil => exact nomatch hts
  | @cons vs ws a as h h' =>
    cases vs with
    | nil => exact absurd rfl h.ne_nil
    | cons v vs =>
      -- The first argument takes a token, which is the first of all.
      rw [List.cons_append] at hts
      rw [(List.cons.inj hts).1]
      exact h.head_ne_equals

/-- Wherever an argument starts with a word before an equals sign, it is a keyword. -/
theorem ArgumentList.keyed_of_equals {t u : Token} {ts : List Token} {as : List Arg}
    (h : ArgumentList (t :: u :: ts) as) (ht : t.kind = .word) (hu : u.kind = .equals) :
    ∃ v rest, as = .keyed t.literal v :: rest := by
  generalize hts : t :: u :: ts = us at h
  cases h with
  | nil => exact nomatch hts
  | @cons vs ws a as h h' =>
    cases h with
    | keyed =>
      rw [List.cons_append] at hts
      rw [(List.cons.inj hts).1]
      exact ⟨_, _, rfl⟩
    | plain h =>
      -- A value that starts with a word is that word, so the equals sign would start an argument.
      exfalso
      cases h with
      | literal =>
        rw [List.cons_append, List.nil_append] at hts
        obtain ⟨-, rfl⟩ := List.cons.inj hts
        exact h'.head_ne_equals hu
      | nested hw =>
        rw [List.cons_append, List.cons_append] at hts
        rw [(List.cons.inj hts).1, hw] at ht
        exact nomatch ht

end Grammar

end Tapestry
