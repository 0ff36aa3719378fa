import Tapestry.Expr.Parse
import Tapestry.Proofs.Chain
import Tapestry.Proofs.Lexing
import Tapestry.Proofs.Results

/-!
# The reader and the grammar

The readers of `Parse` take a phrase from the front of a list of tokens and return the tokens after
it, together with a proof that these are fewer. Here each reader is first given an equation without
those proofs. From the equations follows that what a reader returns is the phrase that the grammar
gives the tokens taken (soundness), and that a phrase of the grammar is read whenever the tokens
after it cannot extend it (completeness).

## Key results

- `readAll_eq_ok_iff`: all tokens are read as an expression exactly when the grammar derives it
- `Phrase.unique`: no list of tokens denotes two expressions
- `parse_eq_ok_iff`: a text denotes an expression exactly when its tokens do
- `parse_agrees_with_grammar`: the three together with the rule for keywords
-/

namespace Tapestry

namespace Parse

/-! ## The readers without bounds -/

/-- What a reader returns, without the bound on the tokens left. -/
def outcome {α : Type} {P : α × List Token → Prop} (r : Except ParseError (Subtype P)) :
    Except ParseError (α × List Token) :=
  r.map Subtype.val

/-- The bound holds of what a reader returns. -/
theorem bound_of_outcome {α : Type} {P : α × List Token → Prop}
    {r : Except ParseError (Subtype P)} {x : α × List Token} (h : outcome r = .ok x) : P x := by
  cases r with
  | error e => exact nomatch h
  | ok y => exact Except.ok.inj h ▸ y.2

section Equations

variable (stop : Token)

/-- A chain is an operand and what is joined to it. -/
theorem outcome_readChain (ts : List Token) :
    outcome (readChain stop ts) =
      (outcome (readOperand stop ts)).bind fun (head, us) =>
        (outcome (readJoined stop us)).map fun (tail, rest) => (⟨head, tail⟩, rest) := by
  rw [readChain]
  cases readOperand stop ts with
  | error e => rfl
  | ok r =>
    obtain ⟨⟨head, us⟩, _⟩ := r
    simp only [outcome, Except.map, Except.bind]
    cases readJoined stop us <;> rfl

/-- At the end nothing is joined. -/
theorem outcome_readJoined_nil : outcome (readJoined stop []) = .ok ([], []) := by
  rw [readJoined]
  rfl

/-- Without a connective in front nothing is joined; with one, a chain is. -/
theorem outcome_readJoined_cons (t : Token) (ts : List Token) :
    outcome (readJoined stop (t :: ts)) =
      match connective? t.kind with
      | none => .ok ([], t :: ts)
      | some k =>
        (outcome (readChain stop ts)).map fun (c, rest) => ((k, c.head) :: c.tail, rest) := by
  rw [readJoined, readChain]
  cases connective? t.kind with
  | none => rfl
  | some k =>
    -- Both readers begin with an operand and go on with what is joined to it.
    cases readOperand stop ts with
    | error e => rfl
    | ok r =>
      obtain ⟨⟨head, us⟩, _⟩ := r
      simp only [outcome, Except.map]
      cases readJoined stop us <;> rfl

/-- At the end there is no operand. -/
theorem outcome_readOperand_nil :
    outcome (readOperand stop []) = .error (.unexpected stop none) := by
  rw [readOperand]
  rfl

/-- What an operand is, its first token decides. -/
theorem outcome_readOperand_cons (t : Token) (ts : List Token) :
    outcome (readOperand stop (t :: ts)) =
      match t.kind with
      | .word =>
        (outcome (readArguments stop ts)).map fun (args, rest) => (.command t.literal args, rest)
      | .quoted | .value => .ok (.literal t.literal, ts)
      | .opening =>
        (outcome (readEnclosed stop t ts)).map fun (inner, rest) => (.group inner, rest)
      | .pipe | .operator _ => .error (.unexpected t (some .leftOperand))
      | .finish | .closing | .equals | .comma => .error (.unexpected t none) := by
  rw [readOperand]
  -- The readers keep a bound on what is left next to their result, and nothing else is lost here.
  cases t.kind with
  | word => cases readArguments stop ts <;> rfl
  | opening => cases readEnclosed stop t ts <;> rfl
  | _ => rfl

/-- At the end there are no arguments. -/
theorem outcome_readArguments_nil : outcome (readArguments stop []) = .ok ([], []) := by
  rw [readArguments]
  rfl

/-- Arguments are read one by one, up to a token that stops them. -/
theorem outcome_readArguments_cons (t : Token) (ts : List Token) :
    outcome (readArguments stop (t :: ts)) =
      if t.kind.stopsArguments then .ok ([], t :: ts)
      else
        (outcome (readArgument stop (t :: ts))).bind fun (arg, us) =>
          (outcome (readArguments stop us)).map fun (args, rest) => (arg :: args, rest) := by
  rw [readArguments]
  split
  · rfl
  · cases readArgument stop (t :: ts) with
    | error e => rfl
    | ok r =>
      obtain ⟨⟨arg, us⟩, _⟩ := r
      simp only [outcome, Except.map, Except.bind]
      cases readArguments stop us <;> rfl

/-- A word before an equals sign is a keyword. -/
theorem outcome_readArgument_keyed {t u : Token} (ht : t.kind = .word) (hu : u.kind = .equals)
    (ts : List Token) :
    outcome (readArgument stop (t :: u :: ts)) =
      (outcome (readValue stop ts)).map fun (value, rest) => (.keyed t.literal value, rest) := by
  rw [readArgument, if_pos ⟨ht, hu⟩]
  cases readValue stop ts <;> rfl

/-- Any other argument is a value. -/
theorem outcome_readArgument_plain {ts : List Token}
    (h : ∀ t u us, ts = t :: u :: us → ¬ (t.kind = .word ∧ u.kind = .equals)) :
    outcome (readArgument stop ts) = outcome (readValue stop ts) := by
  match ts with
  | [] => rw [readArgument]; rintro _ _ _ ⟨⟩
  | [t] => rw [readArgument]; rintro _ _ _ ⟨⟩
  | t :: u :: us => rw [readArgument, if_neg (h t u us rfl)]

/-- At the end there is no value. -/
theorem outcome_readValue_nil :
    outcome (readValue stop []) = .error (.unexpected stop (some .argumentValue)) := by
  rw [readValue]
  rfl

/-- What a value is, its first token decides. -/
theorem outcome_readValue_cons (t : Token) (ts : List Token) :
    outcome (readValue stop (t :: ts)) =
      match t.kind with
      | .opening =>
        (outcome (readEnclosed stop t ts)).map fun (inner, rest) => (.nested inner, rest)
      | .word | .value | .quoted => .ok (.literal t.literal, ts)
      | .equals => .error (.unexpected t (some .plainKeyword))
      | .finish | .pipe | .closing | .comma | .operator _ =>
        .error (.unexpected t (some .argumentValue)) := by
  rw [readValue]
  cases t.kind with
  | opening => cases readEnclosed stop t ts <;> rfl
  | _ => rfl

/-- Between parentheses there is a chain, and then the closing one. -/
theorem outcome_readEnclosed (opening : Token) (ts : List Token) :
    outcome (readEnclosed stop opening ts) =
      (outcome (readChain stop ts)).bind fun (chain, us) =>
        match us with
        | [] => .error (.unclosed opening)
        | t :: rest =>
          if t.kind = .closing then .ok (chain.toExpr, rest)
          else .error (.unexpected t (some .closing)) := by
  rw [readEnclosed]
  cases readChain stop ts with
  | error e => rfl
  | ok r =>
    obtain ⟨⟨chain, us⟩, h⟩ := r
    cases us with
    | nil => rfl
    | cons t rest =>
      by_cases ht : t.kind = .closing <;>
        simp only [outcome, Except.map, Except.bind, ht, ↓reduceIte]

/-- All tokens are one chain, or the first one behind it is wrong. -/
theorem readAll_eq (ts : List Token) :
    readAll stop ts =
      if ts = [] then .error (.empty stop.position)
      else
        (outcome (readChain stop ts)).bind fun (chain, rest) =>
          match rest with
          | [] => .ok chain.toExpr
          | t :: _ =>
            match t.kind with
            | .equals | .comma => .error (.unknownOperator t)
            | .closing => .error (.unexpected t (some .noOpening))
            | _ => .error (.unexpected t (some .operatorOrEnd)) := by
  rw [readAll]
  split
  · rfl
  · cases readChain stop ts with
    | error e => rfl
    | ok r =>
      obtain ⟨⟨chain, rest⟩, _⟩ := r
      cases rest <;> rfl

end Equations

/-! ## Soundness -/

open Grammar

/-- A token that stands for a connective has its kind. -/
theorem connective?_eq_some {kind : TokenKind} {k : Connective} :
    connective? kind = some k ↔ kind = k.kind := by
  cases kind <;> cases k <;> simp [connective?, Connective.kind]

section Soundness

variable {stop : Token}

-- A reader that calls another one on the same tokens has the larger second component.

mutual

/-- What is read as a chain is a row of atoms. -/
theorem row_of_readChain {ts rest : List Token} {c : Chain}
    (h : outcome (readChain stop ts) = .ok (c, rest)) :
    ∃ us, ts = us ++ rest ∧ Row us c.head c.tail := by
  rw [outcome_readChain] at h
  obtain ⟨⟨head, us⟩, ho, h⟩ := Except.bind_eq_ok.1 h
  obtain ⟨⟨tail, vs⟩, hj, h⟩ := Except.map_eq_ok.1 h
  cases h
  -- The atom took a token, so there are fewer left for what is joined to it.
  have hlt : us.length < ts.length := bound_of_outcome ho
  obtain ⟨vs, rfl, ha⟩ := atom_of_readOperand ho
  obtain ⟨ws, rfl, hrow⟩ := row_of_readJoined hj
  exact ⟨vs ++ ws, (List.append_assoc ..).symm, hrow ha⟩
termination_by (ts.length, 1)

/-- What is read as joined to an atom makes a row with it. -/
private theorem row_of_readJoined {ts rest : List Token} {more : List (Connective × Expr)}
    (h : outcome (readJoined stop ts) = .ok (more, rest)) :
    -- The row is one of whatever operand stands in front, which this reader does not see.
    ∃ us, ts = us ++ rest ∧ ∀ {vs e}, Atom vs e → Row (vs ++ us) e more := by
  match ts with
  | [] =>
    rw [outcome_readJoined_nil] at h
    cases h
    exact ⟨[], rfl, fun ha => by rw [List.append_nil]; exact .last ha⟩
  | t :: ts =>
    rw [outcome_readJoined_cons] at h
    cases hk : connective? t.kind with
    | none =>
      rw [hk] at h
      cases h
      exact ⟨[], rfl, fun ha => by rw [List.append_nil]; exact .last ha⟩
    | some k =>
      rw [hk] at h
      obtain ⟨⟨c, vs⟩, hc, h⟩ := Except.map_eq_ok.1 h
      cases h
      obtain ⟨us, rfl, hrow⟩ := row_of_readChain hc
      exact ⟨t :: us, rfl, fun ha => .more ha (connective?_eq_some.1 hk) hrow⟩
termination_by (ts.length, 0)

/-- What is read as an operand is an atom. -/
theorem atom_of_readOperand {ts rest : List Token} {e : Expr}
    (h : outcome (readOperand stop ts) = .ok (e, rest)) : ∃ us, ts = us ++ rest ∧ Atom us e := by
  match ts with
  | [] =>
    rw [outcome_readOperand_nil] at h
    exact nomatch h
  | t :: ts =>
    rw [outcome_readOperand_cons] at h
    cases ht : t.kind with
    | word =>
      rw [ht] at h
      obtain ⟨⟨args, us⟩, ha, h⟩ := Except.map_eq_ok.1 h
      cases h
      obtain ⟨us, rfl, hargs⟩ := arguments_of_readArguments ha
      exact ⟨t :: us, rfl, .command ht hargs⟩
    | quoted =>
      rw [ht] at h
      cases h
      exact ⟨[t], rfl, .literal (.inr ht)⟩
    | value =>
      rw [ht] at h
      cases h
      exact ⟨[t], rfl, .literal (.inl ht)⟩
    | opening =>
      rw [ht] at h
      obtain ⟨⟨inner, us⟩, hi, h⟩ := Except.map_eq_ok.1 h
      cases h
      obtain ⟨us, u, rfl, hp, hu⟩ := phrase_of_readEnclosed hi
      exact ⟨t :: us ++ [u], by simp, .group ht hp hu⟩
    | _ =>
      rw [ht] at h
      exact nomatch h
termination_by (ts.length, 0)

/-- What is read as arguments is a list of arguments. -/
private theorem arguments_of_readArguments {ts rest : List Token} {args : List Arg}
    (h : outcome (readArguments stop ts) = .ok (args, rest)) :
    ∃ us, ts = us ++ rest ∧ ArgumentList us args := by
  match ts with
  | [] =>
    rw [outcome_readArguments_nil] at h
    cases h
    exact ⟨[], rfl, .nil⟩
  | t :: ts =>
    rw [outcome_readArguments_cons] at h
    split at h
    · cases h
      exact ⟨[], rfl, .nil⟩
    · obtain ⟨⟨arg, us⟩, ha, h⟩ := Except.bind_eq_ok.1 h
      obtain ⟨⟨more, vs⟩, hm, h⟩ := Except.map_eq_ok.1 h
      cases h
      -- The bound on what is left is what lets the reader go on with the other arguments.
      have hlt : us.length < (t :: ts).length := bound_of_outcome ha
      obtain ⟨vs, hts, harg⟩ := argument_of_readArgument ha
      obtain ⟨ws, rfl, hmore⟩ := arguments_of_readArguments hm
      exact ⟨vs ++ ws, by rw [hts, List.append_assoc], .cons harg hmore⟩
termination_by (ts.length, 2)

/-- What is read as an argument is one. -/
private theorem argument_of_readArgument {ts rest : List Token} {arg : Arg}
    (h : outcome (readArgument stop ts) = .ok (arg, rest)) :
    ∃ us, ts = us ++ rest ∧ Argument us arg := by
  by_cases hkey : ∃ t u us, ts = t :: u :: us ∧ t.kind = .word ∧ u.kind = .equals
  · obtain ⟨t, u, us, rfl, ht, hu⟩ := hkey
    rw [outcome_readArgument_keyed stop ht hu] at h
    obtain ⟨⟨value, vs⟩, hv, h⟩ := Except.map_eq_ok.1 h
    cases h
    obtain ⟨us, rfl, hvalue⟩ := value_of_readValue hv
    exact ⟨t :: u :: us, rfl, .keyed ht hu hvalue⟩
  · rw [outcome_readArgument_plain stop fun t u us h h' => hkey ⟨t, u, us, h, h'⟩] at h
    obtain ⟨us, rfl, hvalue⟩ := value_of_readValue h
    exact ⟨us, rfl, .plain hvalue⟩
termination_by (ts.length, 1)

/-- What is read as a value is one. -/
theorem value_of_readValue {ts rest : List Token} {value : Arg}
    (h : outcome (readValue stop ts) = .ok (value, rest)) :
    ∃ us, ts = us ++ rest ∧ ArgumentValue us value := by
  match ts with
  | [] =>
    rw [outcome_readValue_nil] at h
    exact nomatch h
  | t :: ts =>
    rw [outcome_readValue_cons] at h
    cases ht : t.kind with
    | opening =>
      rw [ht] at h
      obtain ⟨⟨inner, us⟩, hi, h⟩ := Except.map_eq_ok.1 h
      cases h
      obtain ⟨us, u, rfl, hp, hu⟩ := phrase_of_readEnclosed hi
      exact ⟨t :: us ++ [u], by simp, .nested ht hp hu⟩
    | word =>
      rw [ht] at h
      cases h
      exact ⟨[t], rfl, .literal (.inl ht)⟩
    | value =>
      rw [ht] at h
      cases h
      exact ⟨[t], rfl, .literal (.inr (.inl ht))⟩
    | quoted =>
      rw [ht] at h
      cases h
      exact ⟨[t], rfl, .literal (.inr (.inr ht))⟩
    | _ =>
      rw [ht] at h
      exact nomatch h
termination_by (ts.length, 0)

/-- What is read up to a closing parenthesis is a phrase. -/
private theorem phrase_of_readEnclosed {opening : Token} {ts rest : List Token} {e : Expr}
    (h : outcome (readEnclosed stop opening ts) = .ok (e, rest)) :
    ∃ us u, ts = us ++ u :: rest ∧ Phrase .pipe us e ∧ u.kind = .closing := by
  rw [outcome_readEnclosed] at h
  obtain ⟨⟨chain, us⟩, hc, h⟩ := Except.bind_eq_ok.1 h
  match us with
  | [] => exact nomatch h
  | u :: us =>
    by_cases hu : u.kind = .closing
    · simp only [hu, ↓reduceIte] at h
      cases h
      obtain ⟨vs, rfl, hrow⟩ := row_of_readChain hc
      exact ⟨vs, u, rfl, phrase_pipe_iff.2 ⟨chain.head, chain.tail, hrow, rfl⟩, hu⟩
    · simp only [hu, ↓reduceIte] at h
      exact nomatch h
termination_by (ts.length, 2)

end

end Soundness

/-! ## Completeness -/

/-- No argument can be read from these tokens. -/
def Stops (ts : List Token) : Prop := ∀ t ∈ ts.head?, t.kind.stopsArguments = true

/-- Nothing can be joined to a chain from these tokens, nor an argument to its last command. -/
def Ends (ts : List Token) : Prop :=
  ∀ t ∈ ts.head?, t.kind.stopsArguments = true ∧ connective? t.kind = none

/-- At the end, every phrase ends. -/
theorem ends_nil : Ends [] := fun _ h => nomatch h

/-- A closing parenthesis ends a chain. -/
private theorem ends_of_closing {u : Token} (hu : u.kind = .closing) (ts : List Token) :
    Ends (u :: ts) := by
  intro t ht
  rw [← Option.some.inj ht, hu]
  decide

/-- A connective stops the arguments before it. -/
private theorem stops_of_connective {t : Token} {k : Connective} (ht : t.kind = k.kind)
    (ts : List Token) : Stops (t :: ts) := by
  intro u hu
  rw [← Option.some.inj hu, ht]
  cases k <;> rfl

/-- After an argument stands another one, or what stops the arguments; in no case an equals sign. -/
private theorem head?_ne_equals {ts rest : List Token} {args : List Arg} (h : ArgumentList ts args)
    (hs : Stops rest) : ∀ t ∈ (ts ++ rest).head?, t.kind ≠ .equals := by
  intro t ht
  match ts with
  | [] =>
    intro he
    have := hs t ht
    rw [he] at this
    exact nomatch this
  | u :: us =>
    rw [← Option.some.inj ht]
    exact h.head_ne_equals

/-- The first token of a list of arguments does not stop them. -/
theorem stopsArguments_of_argument {t : Token} {ts : List Token} {arg : Arg}
    (h : Argument (t :: ts) arg) : t.kind.stopsArguments = false := by
  cases h with
  | keyed ht => rw [ht]; rfl
  | plain h =>
    cases h with
    | literal ht => rcases ht with ht | ht | ht <;> rw [ht] <;> rfl
    | nested ht => rw [ht]; rfl

section Completeness

variable (stop : Token)

-- Each token counts three times, which leaves room for calls on the same tokens.

mutual

/-- A row of atoms is read as a chain. -/
theorem readChain_of_row {ts : List Token} {e : Expr} {tail : List (Connective × Expr)}
    (h : Row ts e tail) {rest : List Token} (hrest : Ends rest) :
    outcome (readChain stop (ts ++ rest)) = .ok (⟨e, tail⟩, rest) := by
  match h with
  | .last h =>
    -- What follows the row begins with no connective, so nothing is joined to its last atom.
    have hj : outcome (readJoined stop rest) = .ok ([], rest) := by
      match rest with
      | [] => exact outcome_readJoined_nil stop
      | t :: ts => rw [outcome_readJoined_cons, (hrest t rfl).2]
    have ho := readOperand_of_atom h fun t ht => (hrest t ht).1
    rw [outcome_readChain]
    exact Except.bind_eq_ok.2 ⟨_, ho, Except.map_eq_ok.2 ⟨_, hj, rfl⟩⟩
  | @Row.more us t vs _ k f tail h ht h' =>
    -- The connective stops the arguments of the atom before it.
    have ho := readOperand_of_atom h (stops_of_connective ht (vs ++ rest))
    have hj : outcome (readJoined stop (t :: (vs ++ rest))) = .ok ((k, f) :: tail, rest) := by
      rw [outcome_readJoined_cons, connective?_eq_some.2 ht, readChain_of_row h' hrest]
      rfl
    rw [List.append_assoc, List.cons_append, outcome_readChain]
    exact Except.bind_eq_ok.2 ⟨_, ho, Except.map_eq_ok.2 ⟨_, hj, rfl⟩⟩
termination_by 3 * ts.length + 1

/-- An atom is read as an operand. -/
theorem readOperand_of_atom {ts : List Token} {e : Expr} (h : Atom ts e) {rest : List Token}
    (hrest : Stops rest) : outcome (readOperand stop (ts ++ rest)) = .ok (e, rest) := by
  match h with
  | .command ht h =>
    rw [List.cons_append, outcome_readOperand_cons, ht, readArguments_of_arguments h hrest]
    rfl
  | .literal ht =>
    rw [List.cons_append, outcome_readOperand_cons]
    rcases ht with ht | ht <;> rw [ht] <;> rfl
  | .group (u := u) ht h hu =>
    have := readEnclosed_of_phrase h hu rest
    rw [List.append_assoc, List.cons_append, List.singleton_append, outcome_readOperand_cons, ht,
      this]
    rfl
termination_by 3 * ts.length + 0

/-- Arguments are read up to what stops them. -/
private theorem readArguments_of_arguments {ts : List Token} {args : List Arg}
    (h : ArgumentList ts args) {rest : List Token} (hrest : Stops rest) :
    outcome (readArguments stop (ts ++ rest)) = .ok (args, rest) := by
  match h with
  | .nil =>
    match rest with
    | [] => exact outcome_readArguments_nil stop
    | t :: ts => rw [List.nil_append, outcome_readArguments_cons, if_pos (hrest t rfl)]
  | @ArgumentList.cons us vs a as h h' =>
    -- The first argument takes a token, so the others have fewer.
    have hpos : 0 < us.length := List.length_pos_iff.2 h.ne_nil
    have ha := readArgument_of_argument h (head?_ne_equals h' hrest)
    have has := readArguments_of_arguments h' hrest
    match us with
    | u :: us =>
      rw [List.append_assoc]
      rw [List.cons_append] at ha ⊢
      rw [outcome_readArguments_cons, stopsArguments_of_argument h, ha]
      simp only [Bool.false_eq_true, ↓reduceIte, Except.bind, has]
      rfl
termination_by 3 * ts.length + 2

/-- An argument is read unless an equals sign follows. -/
private theorem readArgument_of_argument {ts : List Token} {arg : Arg} (h : Argument ts arg)
    {rest : List Token} (hrest : ∀ t ∈ rest.head?, t.kind ≠ .equals) :
    outcome (readArgument stop (ts ++ rest)) = .ok (arg, rest) := by
  match h with
  | .keyed ht hu h =>
    rw [List.cons_append, List.cons_append, outcome_readArgument_keyed stop ht hu,
      readValue_of_value h rest]
    rfl
  | .plain h =>
    rw [outcome_readArgument_plain, readValue_of_value h rest]
    rintro t u us hts ⟨ht, hu⟩
    -- A value that starts with a word is that word alone, so the equals sign would follow it.
    cases h with
    | literal =>
      rw [List.cons_append, List.nil_append] at hts
      obtain ⟨-, rfl⟩ := List.cons.inj hts
      exact hrest u rfl hu
    | nested hw =>
      rw [List.cons_append] at hts
      rw [(List.cons.inj hts).1, ht] at hw
      exact nomatch hw
termination_by 3 * ts.length + 1

/-- A value is read whatever follows. -/
theorem readValue_of_value {ts : List Token} {value : Arg} (h : ArgumentValue ts value)
    (rest : List Token) : outcome (readValue stop (ts ++ rest)) = .ok (value, rest) := by
  match h with
  | .literal ht =>
    rw [List.cons_append, outcome_readValue_cons]
    rcases ht with ht | ht | ht <;> rw [ht] <;> rfl
  | .nested ht h hu =>
    have := readEnclosed_of_phrase h hu rest
    rw [List.append_assoc, List.cons_append, List.singleton_append, outcome_readValue_cons, ht,
      this]
    rfl
termination_by 3 * ts.length + 0

/-- A phrase is read up to the closing parenthesis. -/
theorem readEnclosed_of_phrase {ts : List Token} {e : Expr} (h : Phrase .pipe ts e) {u : Token}
    (hu : u.kind = .closing) (rest : List Token) (opening : Token) :
    outcome (readEnclosed stop opening (ts ++ u :: rest)) = .ok (e, rest) := by
  obtain ⟨head, tail, hrow, rfl⟩ := phrase_pipe_iff.1 h
  rw [outcome_readEnclosed, readChain_of_row hrow (ends_of_closing hu rest)]
  simp only [Except.bind, hu, ↓reduceIte]
termination_by 3 * ts.length + 2

end

end Completeness

/-- All tokens are read as an expression exactly when the grammar derives it. -/
theorem readAll_eq_ok_iff {stop : Token} {ts : List Token} {e : Expr} :
    readAll stop ts = .ok e ↔ Phrase .pipe ts e := by
  rw [phrase_pipe_iff, readAll_eq]
  constructor
  · intro h
    split at h
    · exact nomatch h
    · obtain ⟨⟨chain, rest⟩, hchain, h⟩ := Except.bind_eq_ok.1 h
      cases rest with
      | nil =>
        -- No token was left, so the row is all of them.
        cases h
        obtain ⟨us, hts, hrow⟩ := row_of_readChain hchain
        rw [List.append_nil] at hts
        exact ⟨_, _, hts ▸ hrow, rfl⟩
      | cons t rest =>
        simp only at h
        split at h <;> exact nomatch h
  · rintro ⟨head, tail, hrow, rfl⟩
    have h := readChain_of_row stop hrow ends_nil
    rw [List.append_nil] at h
    rw [if_neg hrow.ne_nil, h]
    rfl

end Parse

/-- No list of tokens denotes two expressions. -/
theorem Grammar.Phrase.unique {ts : List Token} {e f : Expr} (h : Phrase .pipe ts e)
    (h' : Phrase .pipe ts f) : e = f := by
  have he := (@Parse.readAll_eq_ok_iff (.finish 0) ts e).2 h
  have hf := (@Parse.readAll_eq_ok_iff (.finish 0) ts f).2 h'
  exact Except.ok.inj (he.symm.trans hf)

/-- A text denotes an expression exactly when the grammar derives it from the tokens before the end
    of the input. -/
theorem parse_eq_ok_iff {text : String} {e : Expr} :
    parse text = .ok e ↔ Grammar.Phrase .pipe (properTokens text) e := by
  obtain ⟨stop, -, h⟩ := tokenize_eq text
  rw [parse, Expr.ofTokens, h, List.dropLast_concat, List.getLastD_concat, Parse.readAll_eq_ok_iff]

/-- Reading a text succeeds with an expression exactly when all tokens before the end of the input
    derive it in the grammar. No list of tokens derives two expressions, and an argument that starts
    with a word before an equals sign is a keyword. -/
theorem parse_agrees_with_grammar :
    (∀ text e, parse text = .ok e ↔ Grammar.Phrase .pipe (properTokens text) e) ∧
      (∀ ts e f, Grammar.Phrase .pipe ts e → Grammar.Phrase .pipe ts f → e = f) ∧
      (∀ t u ts args, Grammar.ArgumentList (t :: u :: ts) args → t.kind = .word →
        u.kind = .equals → ∃ v rest, args = .keyed t.literal v :: rest) :=
  ⟨fun _ _ => parse_eq_ok_iff, fun _ _ _ h h' => h.unique h',
    fun _ _ _ _ h ht hu => h.keyed_of_equals ht hu⟩

/-- A keyword as the only argument of a command. -/
theorem parse_agrees_with_grammar_keyword :
    parse "f k=1" = .ok (.command "f" [.keyed "k" (.literal "1")]) ∧
      (∀ e, Grammar.Phrase .pipe (properTokens "f k=1") e →
        e = .command "f" [.keyed "k" (.literal "1")]) ∧
      ∃ v rest, [Arg.keyed "k" (.literal "1")] = .keyed "k" v :: rest := by
  obtain ⟨hparse, hunique, hkey⟩ := parse_agrees_with_grammar
  have htokens : properTokens "f k=1" =
      [⟨.word, "f", 0, 1⟩, ⟨.word, "k", 2, 1⟩, ⟨.equals, "=", 3, 1⟩, ⟨.value, "1", 4, 1⟩] := by
    decide +kernel
  have hargs : Grammar.ArgumentList
      [⟨.word, "k", 2, 1⟩, ⟨.equals, "=", 3, 1⟩, ⟨.value, "1", 4, 1⟩]
      [.keyed "k" (.literal "1")] :=
    .cons (.keyed rfl rfl (@Grammar.ArgumentValue.literal ⟨.value, "1", 4, 1⟩ (.inr (.inl rfl))))
      .nil
  have hp : Grammar.Phrase .pipe (properTokens "f k=1")
      (.command "f" [.keyed "k" (.literal "1")]) := by
    rw [htokens]
    exact .of_atom (@Grammar.Atom.command ⟨.word, "f", 0, 1⟩ _ _ rfl hargs) _
  exact ⟨(hparse _ _).2 hp, fun e he => hunique _ _ _ he hp, hkey _ _ _ _ hargs rfl rfl⟩

end Tapestry
