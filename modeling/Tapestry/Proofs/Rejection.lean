import Tapestry.Proofs.Lookahead

/-!
# Where reading fails

The reader goes from left to right and never back. When it fails at a token, what stands before the
token could still have become an expression, and nothing that goes on with this token can: the token
is the first one that is wrong. At the end of the input it fails in one of two ways. Either closing
parentheses are all that is missing, and then it points at the last one that was opened; or more
than that is missing.

`Fails` says this for one reader and the class of token lists that it reads, and is carried through
the readers along their calls.

## Key results

- `Grammar.Phrase.balanced`: the grammar pairs parentheses
- `Parse.Fails.lift`: how the failure of a reader becomes a failure of its caller
- `Parse.fails_readChain`: every failure of reading a chain
- `parse_error_position`: what the error of a text says about its tokens
-/

namespace Tapestry

/-! ## Parentheses -/

/-- A closing parenthesis, without a place in the source. -/
def Token.closing : Token := ⟨.closing, ")", 0, 1⟩

/-- Whether a kind of token is a parenthesis. -/
def TokenKind.isParenthesis : TokenKind → Bool
  | opening | closing => true
  | _ => false

/-- The opening parentheses that are still open behind some tokens, the last one first, when others
    were open before them. -/
def openAfter : List Token → List Token → List Token
  | pending, [] => pending
  | pending, t :: ts =>
    match t.kind with
    | .opening => openAfter (t :: pending) ts
    | .closing => openAfter pending.tail ts
    | _ => openAfter pending ts

/-- The opening parentheses of a list of tokens that no closing one belongs to, the last one
    first. -/
def unmatched (ts : List Token) : List Token := openAfter [] ts

namespace Grammar

/-- Whether tokens leave the same parentheses open behind them as were open before them. -/
def Balanced (ts : List Token) : Prop :=
  ∀ pending us, openAfter pending (ts ++ us) = openAfter pending us

/-- No tokens at all leave nothing open. -/
private theorem balanced_nil : Balanced [] := fun _ _ => rfl

/-- Behind tokens that leave nothing open, others do as they do by themselves. -/
theorem Balanced.append {ts us : List Token} (h : Balanced ts) (h' : Balanced us) :
    Balanced (ts ++ us) := by
  intro pending vs
  rw [List.append_assoc, h, h']

/-- A token that is no parenthesis, in front of others. -/
theorem Balanced.cons {t : Token} {ts : List Token} (ht : t.kind.isParenthesis = false)
    (h : Balanced ts) : Balanced (t :: ts) := by
  intro pending us
  rw [List.cons_append, openAfter]
  split
  · next hk => exact nomatch hk ▸ ht
  · next hk => exact nomatch hk ▸ ht
  · exact h pending us

/-- Tokens in parentheses. -/
theorem Balanced.parenthesize {t u : Token} {ts : List Token} (ht : t.kind = .opening)
    (h : Balanced ts) (hu : u.kind = .closing) : Balanced (t :: ts ++ [u]) := by
  intro pending us
  rw [List.append_assoc, List.cons_append, openAfter, ht]
  simp only
  rw [h, List.singleton_append, openAfter, hu]
  rfl

mutual

/-- The grammar pairs parentheses. -/
theorem Phrase.balanced {l : Level} {ts : List Token} {e : Expr} : Phrase l ts e → Balanced ts
  | .build h => h.balanced

/-- Between operands there are connectives, which open and close nothing. -/
theorem OperandList.balanced {l : Level} {ts : List Token} {first : Expr}
    {more : List (Connective × Expr)} : OperandList l ts first more → Balanced ts
  | .last h => h.balanced
  | .more (k := k) h _ ht h' =>
    h.balanced.append (.cons (by rw [ht]; cases k <;> rfl) h'.balanced)

/-- An operand is a phrase of a tighter level. -/
theorem Operand.balanced {l : Level} {ts : List Token} {e : Expr} : Operand l ts e → Balanced ts
  | .pipe h => h.balanced
  | .xor h => h.balanced
  | .sum h => h.balanced
  | .product h => h.balanced

/-- A group closes the parenthesis that it opens. -/
theorem Atom.balanced {ts : List Token} {e : Expr} : Atom ts e → Balanced ts
  | .command ht h => .cons (by rw [ht]; rfl) h.balanced
  | .literal ht => .cons (by rcases ht with ht | ht <;> rw [ht] <;> rfl) balanced_nil
  | .group ht h hu => h.balanced.parenthesize ht hu

/-- Arguments leave nothing open, one after the other. -/
theorem ArgumentList.balanced {ts : List Token} {args : List Arg} :
    ArgumentList ts args → Balanced ts
  | .nil => balanced_nil
  | .cons h h' => h.balanced.append h'.balanced

/-- A keyword and its equals sign open nothing. -/
theorem Argument.balanced {ts : List Token} {arg : Arg} : Argument ts arg → Balanced ts
  | .keyed ht hu h => .cons (by rw [ht]; rfl) (.cons (by rw [hu]; rfl) h.balanced)
  | .plain h => h.balanced

/-- A nested expression closes the parenthesis that it opens. -/
theorem ArgumentValue.balanced {ts : List Token} {v : Arg} : ArgumentValue ts v → Balanced ts
  | .literal ht => .cons (by rcases ht with ht | ht | ht <;> rw [ht] <;> rfl) balanced_nil
  | .nested ht h hu => h.balanced.parenthesize ht hu

end

/-! ## Starts of phrases -/

/-- Whether tokens are the start of a list of a class. -/
def Starts (P : List Token → Prop) (ts : List Token) : Prop := ∃ more, P (ts ++ more)

section Starts

variable {P Q : List Token → Prop} {ts : List Token}

/-- The start of a list that may stand behind other tokens. -/
theorem Starts.behind (h : Starts Q ts) {before : List Token}
    (hP : ∀ us, Q us → P (before ++ us)) : Starts P (before ++ ts) := by
  obtain ⟨more, hQ⟩ := h
  refine ⟨more, ?_⟩
  rw [List.append_assoc]
  exact hP _ hQ

/-- The start of a list that may stand in parentheses. -/
theorem Starts.enclosed (h : Starts Q ts) {t : Token}
    (hP : ∀ us u, Q us → u.kind = .closing → P (t :: us ++ [u])) : Starts P (t :: ts) := by
  obtain ⟨more, hQ⟩ := h
  refine ⟨more ++ [.closing], ?_⟩
  rw [← List.append_assoc]
  exact hP _ .closing hQ rfl

end Starts

/-- Whether tokens denote an expression. -/
def Accepted (ts : List Token) : Prop := ∃ e, Phrase .pipe ts e

/-- Tokens denote an expression exactly when they are a row of atoms. -/
private theorem accepted_iff_row {ts : List Token} : Accepted ts ↔ ∃ e tail, Row ts e tail := by
  constructor
  · rintro ⟨e, h⟩
    obtain ⟨head, tail, hrow, -⟩ := phrase_pipe_iff.1 h
    exact ⟨head, tail, hrow⟩
  · rintro ⟨head, tail, hrow⟩
    exact ⟨_, phrase_pipe_iff.2 ⟨head, tail, hrow, rfl⟩⟩

/-- Whether tokens denote no expression, but do so when as many closing parentheses are added as
    opening ones are left, and some are. -/
def Closable (ts : List Token) : Prop :=
  ¬ Accepted ts ∧ unmatched ts ≠ [] ∧
    Accepted (ts ++ List.replicate (unmatched ts).length .closing)

/-- Whether a token is wrong behind others that are the start of an expression: the end of the input
    when they denote none, any other token when no expression starts with it behind them. -/
def WrongAfter (before : List Token) (t : Token) : Prop :=
  Starts Accepted before ∧
    if t.kind = .finish then ¬ Accepted before else ¬ Starts Accepted (before ++ [t])

end Grammar

namespace Parse

open Grammar

/-! ## Failures -/

/-- How a reader that looks for tokens of a class may fail:

    * At a token that comes after the start of such a list. It then fails there whatever comes
      after the token.
    * At the end of the input, behind the start of such a list. A closing parenthesis would be as
      wrong there as the end.
    * At the end of the input, where only closing parentheses are missing. It then points at the
      last one that was opened. -/
inductive Fails {α : Type} (P : List Token → Prop) (read : Token → List Token → Except ParseError α)
    (stop : Token) (ts : List Token) : ParseError → Prop
  | token {t hint} (us rest) (hts : ts = us ++ t :: rest) (hstarts : Starts P us)
      (hread : ∀ stop more, read stop (us ++ t :: more) = .error (.unexpected t hint)) :
      Fails P read stop ts (.unexpected t hint)
  | finish {hint} (hstarts : Starts P ts)
      (hread : ∀ stop u more, u.kind = .closing →
        ∃ hint, read stop (ts ++ u :: more) = .error (.unexpected u hint)) :
      Fails P read stop ts (.unexpected stop hint)
  | unclosed {opening} (own : List Token)
      (hopen : ∀ pending, openAfter pending ts = opening :: own ++ pending)
      (hclose : P (ts ++ List.replicate (own.length + 1) .closing)) :
      Fails P read stop ts (.unclosed opening)

section Fails

variable {α β : Type} {P Q : List Token → Prop} {read : Token → List Token → Except ParseError α}
  {read' : Token → List Token → Except ParseError β} {stop : Token} {ts : List Token}
  {error : ParseError}

/-- A reader fails at the first token when that can start nothing. -/
theorem Fails.of_head {t : Token} {rest : List Token} {hint : Option Hint} (hP : Starts P [])
    (hread : ∀ stop more, read stop (t :: more) = .error (.unexpected t hint)) :
    Fails P read stop (t :: rest) (.unexpected t hint) :=
  .token [] rest rfl hP hread

/-- A reader that takes some tokens and leaves the others to another reader fails where that one
    fails. What the first one does with its tokens may depend on the one behind them. -/
theorem Fails.lift (h : Fails Q read' stop ts error) (before : List Token)
    (hbefore : Balanced before) (hP : ∀ us, Q us → P (before ++ us))
    (hread : ∀ stop us error, (∀ t ∈ ts.head?, us.head? = some t) →
      read' stop us = .error error → read stop (before ++ us) = .error error) :
    Fails P read stop (before ++ ts) error := by
  cases h with
  | token us rest hts hstarts hfail =>
    refine .token (before ++ us) rest ?_ (hstarts.behind hP) fun stop' more => ?_
    · rw [hts, List.append_assoc]
    · rw [List.append_assoc]
      refine hread stop' _ _ ?_ (hfail stop' more)
      -- The token of the failure is the first one, or what stands before it is not changed.
      rw [hts]
      cases us <;> exact fun t ht => ht
  | finish hstarts hfail =>
    refine .finish (hstarts.behind hP) fun stop' u more hu => ?_
    obtain ⟨hint, hfail⟩ := hfail stop' u more hu
    rw [List.append_assoc]
    refine ⟨hint, hread stop' _ _ (fun t ht => ?_) hfail⟩
    rw [List.head?_append, ht, Option.some_or]
  | unclosed own hopen hclose =>
    refine .unclosed own (fun pending => ?_) ?_
    · rw [hbefore, hopen]
    · rw [List.append_assoc]
      exact hP _ hclose

/-- What fails inside of parentheses fails with them. -/
private theorem Fails.enclose (h : Fails Q read' stop ts error) {t : Token} (ht : t.kind = .opening)
    (hP : ∀ us u, Q us → u.kind = .closing → P (t :: us ++ [u]))
    (hread : ∀ stop us error,
      read' stop us = .error error → read stop (t :: us) = .error error) :
    Fails P read stop (t :: ts) error := by
  cases h with
  | token us rest hts hstarts hfail =>
    refine .token (t :: us) rest ?_ (hstarts.enclosed hP)
      fun stop' more => hread stop' _ _ (hfail stop' more)
    rw [hts, List.cons_append]
  | finish hstarts hfail =>
    refine .finish (hstarts.enclosed hP) fun stop' u more hu => ?_
    obtain ⟨hint, hfail⟩ := hfail stop' u more hu
    exact ⟨hint, hread stop' _ _ hfail⟩
  | unclosed own hopen hclose =>
    -- One more parenthesis is open, outside of the others.
    refine .unclosed (own ++ [t]) (fun pending => ?_) ?_
    · rw [openAfter, ht]
      simp only [hopen, List.cons_append, List.append_assoc, List.nil_append]
    · rw [List.length_append, List.length_singleton, List.replicate_succ', ← List.append_assoc]
      exact hP _ .closing hclose rfl

end Fails

/-! ## Failures of the readers -/

section Readers

variable {stop : Token}

/-- A reader that reads a chain in parentheses fails where the chain does, or behind the chain when
    no closing parenthesis stands there. -/
private theorem fails_enclosed {α : Type} {P : List Token → Prop}
    {read : Token → List Token → Except ParseError α} {g : Expr × List Token → α} {t : Token}
    {ts : List Token} {error : ParseError} (ht : t.kind = .opening)
    (hP : ∀ us u, Accepted us → u.kind = .closing → P (t :: us ++ [u]))
    (hread : ∀ stop us, read stop (t :: us) = (outcome (readEnclosed stop t us)).map g)
    (hchain : ∀ error, outcome (readChain stop ts) = .error error →
      Fails Accepted (fun stop us => outcome (readChain stop us)) stop ts error)
    (h : outcome (readEnclosed stop t ts) = .error error) : Fails P read stop (t :: ts) error := by
  rw [outcome_readEnclosed] at h
  rcases Except.bind_eq_error.1 h with h | ⟨⟨c, us⟩, hc, h⟩
  · refine (hchain error h).enclose ht hP fun stop' us error h => ?_
    rw [hread, outcome_readEnclosed]
    exact Except.map_eq_error.2 (Except.bind_eq_error.2 (.inl h))
  match us with
  | [] =>
    -- The chain takes all tokens, so the parenthesis in front of it is the only one left open.
    cases h
    obtain ⟨us, rfl, hrow⟩ := row_of_readChain hc
    rw [List.append_nil]
    have hus : Accepted us := accepted_iff_row.2 ⟨_, _, hrow⟩
    refine .unclosed [] (fun pending => ?_) (hP us .closing hus rfl)
    obtain ⟨e, he⟩ := hus
    have hopen := he.balanced (t :: pending) []
    rw [List.append_nil] at hopen
    rw [openAfter, ht]
    exact hopen
  | u :: us =>
    by_cases hu : u.kind = .closing
    · simp only [hu, ↓reduceIte] at h
      exact nomatch h
    · -- With a closing parenthesis in place of this token the tokens would be enclosed.
      simp only [hu, ↓reduceIte] at h
      cases h
      obtain ⟨vs, rfl, hrow, hread'⟩ := readChain_lookahead hc
      refine .token (t :: vs) us rfl
        ⟨[.closing], hP vs .closing (accepted_iff_row.2 ⟨_, _, hrow⟩) rfl⟩ fun stop' more => ?_
      rw [List.cons_append, hread, outcome_readEnclosed, hread']
      simp only [Except.bind, Except.map, hu, ↓reduceIte]

/-- An atom can come where one is looked for. -/
private theorem starts_atom : Starts (fun ts => ∃ e, Atom ts e) [] :=
  ⟨[⟨.value, "", 0, 0⟩], _, .literal (.inl rfl)⟩

private theorem starts_argumentValue : Starts (fun ts => ∃ v, ArgumentValue ts v) [] :=
  ⟨[⟨.value, "", 0, 0⟩], _, .literal (.inr (.inl rfl))⟩

mutual

/-- How reading a chain fails. -/
theorem fails_readChain {ts : List Token} {error : ParseError}
    (h : outcome (readChain stop ts) = .error error) :
    Fails Accepted (fun stop us => outcome (readChain stop us)) stop ts error := by
  rw [outcome_readChain] at h
  rcases Except.bind_eq_error.1 h with h | ⟨⟨head, us⟩, ho, h⟩
  · refine (fails_readOperand h).lift [] balanced_nil ?_ ?_
    · rintro us ⟨e, ha⟩
      exact ⟨e, .of_atom ha _⟩
    · intro stop' us error _ h
      rw [List.nil_append, outcome_readChain]
      exact Except.bind_eq_error.2 (.inl h)
  -- The first operand was read, and the failure is behind a connective after it.
  have hj := Except.map_eq_error.1 h
  match us with
  | [] =>
    rw [outcome_readJoined_nil] at hj
    exact nomatch hj
  | t :: us =>
    rw [outcome_readJoined_cons] at hj
    cases hk : connective? t.kind with
    | none =>
      rw [hk] at hj
      exact nomatch hj
    | some k =>
      rw [hk] at hj
      have hlt : (t :: us).length < ts.length := bound_of_outcome ho
      -- Whatever stands behind the connective, the operand is read again in the same way.
      obtain ⟨vs, rfl, ha, hread⟩ := readOperand_lookahead ho
      have ht : t.kind = k.kind := connective?_eq_some.1 hk
      have hbefore : Balanced (vs ++ [t]) :=
        ha.balanced.append (.cons (by rw [ht]; cases k <;> rfl) balanced_nil)
      rw [← List.singleton_append, ← List.append_assoc]
      refine (fails_readChain (Except.map_eq_error.1 hj)).lift _ hbefore ?_ ?_
      · intro us hus
        obtain ⟨f, tail, hrow⟩ := accepted_iff_row.1 hus
        rw [List.append_assoc]
        exact accepted_iff_row.2 ⟨_, _, .more ha ht hrow⟩
      · intro stop' us error _ h
        rw [List.append_assoc, List.singleton_append, outcome_readChain]
        refine Except.bind_eq_error.2 (.inr ⟨_, hread stop' us, Except.map_eq_error.2 ?_⟩)
        rw [outcome_readJoined_cons, hk]
        exact Except.map_eq_error.2 h
termination_by (ts.length, 1)

/-- How reading an operand fails. -/
private theorem fails_readOperand {ts : List Token} {error : ParseError}
    (h : outcome (readOperand stop ts) = .error error) :
    Fails (fun us => ∃ e, Atom us e) (fun stop us => outcome (readOperand stop us)) stop ts
      error := by
  match ts with
  | [] =>
    rw [outcome_readOperand_nil] at h
    cases h
    -- Nothing is left to read, and an operand could start there.
    refine .finish starts_atom fun stop' u more hu => ⟨none, ?_⟩
    rw [List.nil_append, outcome_readOperand_cons, hu]
  | t :: ts =>
    rw [outcome_readOperand_cons] at h
    cases ht : t.kind with
    | word =>
      rw [ht] at h
      -- A failure inside the arguments is one behind the command's name.
      refine (fails_readArguments (Except.map_eq_error.1 h)).lift [t]
        (.cons (by rw [ht]; rfl) balanced_nil) ?_ ?_
      · rintro us ⟨args, hargs⟩
        exact ⟨_, .command ht hargs⟩
      · intro stop' us error _ h
        rw [List.singleton_append, outcome_readOperand_cons, ht]
        exact Except.map_eq_error.2 h
    | opening =>
      rw [ht] at h
      refine fails_enclosed (g := fun (inner, rest) => (.group inner, rest)) ht ?_ ?_
        (fun error => fails_readChain) (Except.map_eq_error.1 h)
      · rintro us u ⟨e, hp⟩ hu
        exact ⟨_, .group ht hp hu⟩
      · intro stop' us
        rw [outcome_readOperand_cons, ht]
    | value | quoted =>
      rw [ht] at h
      exact nomatch h
    -- Every other token starts no operand and is refused itself.
    | _ =>
      rw [ht] at h
      cases h
      refine .of_head starts_atom fun stop' more => ?_
      rw [outcome_readOperand_cons, ht]
termination_by (ts.length, 0)

/-- How reading arguments fails. -/
private theorem fails_readArguments {ts : List Token} {error : ParseError}
    (h : outcome (readArguments stop ts) = .error error) :
    Fails (fun us => ∃ args, ArgumentList us args)
      (fun stop us => outcome (readArguments stop us)) stop ts error := by
  match ts with
  | [] =>
    rw [outcome_readArguments_nil] at h
    exact nomatch h
  | t :: ts =>
    rw [outcome_readArguments_cons] at h
    by_cases hs : t.kind.stopsArguments = true
    · rw [if_pos hs] at h
      exact nomatch h
    rw [if_neg hs] at h
    rcases Except.bind_eq_error.1 h with h | ⟨⟨arg, us⟩, ha, h⟩
    · refine (fails_readArgument h).lift [] balanced_nil ?_ ?_
      · rintro us ⟨arg, harg⟩
        have hargs := ArgumentList.cons harg .nil
        rw [List.append_nil] at hargs
        exact ⟨_, hargs⟩
      · -- That the first token stops no arguments is known of this token only.
        intro stop' us error hhead h
        match us with
        | [] => exact nomatch hhead t rfl
        | u :: us =>
          cases hhead t rfl
          rw [List.nil_append, outcome_readArguments_cons, if_neg hs]
          exact Except.bind_eq_error.2 (.inl h)
    -- The first argument was read, and the failure is in the others.
    have hm := Except.map_eq_error.1 h
    match us with
    | [] =>
      rw [outcome_readArguments_nil] at hm
      exact nomatch hm
    | u :: us =>
      have hlt : (u :: us).length < (t :: ts).length := bound_of_outcome ha
      obtain ⟨vs, hts, harg, hread⟩ := readArgument_lookahead ha
      rw [hts]
      refine (fails_readArguments hm).lift _ harg.balanced ?_ ?_
      · rintro us ⟨args, hargs⟩
        exact ⟨_, .cons harg hargs⟩
      · intro stop' ws error hhead h
        match vs, ws with
        | [], _ => exact absurd rfl harg.ne_nil
        | _, [] => exact nomatch hhead u rfl
        | v :: vs, w :: ws =>
          cases hhead u rfl
          have hv : ¬ v.kind.stopsArguments = true := by
            rw [stopsArguments_of_argument harg]
            exact Bool.false_ne_true
          have hread := hread stop' ws
          rw [List.cons_append] at hread ⊢
          rw [outcome_readArguments_cons, if_neg hv]
          exact Except.bind_eq_error.2 (.inr ⟨_, hread, Except.map_eq_error.2 h⟩)
termination_by (ts.length, 2)

/-- How reading an argument fails. -/
private theorem fails_readArgument {ts : List Token} {error : ParseError}
    (h : outcome (readArgument stop ts) = .error error) :
    Fails (fun us => ∃ arg, Argument us arg) (fun stop us => outcome (readArgument stop us)) stop ts
      error := by
  by_cases hkey : ∃ t u us, ts = t :: u :: us ∧ t.kind = .word ∧ u.kind = .equals
  -- The reader looks two tokens ahead for a keyword, and so does the case distinction.
  · obtain ⟨t, u, us, rfl, ht, hu⟩ := hkey
    rw [outcome_readArgument_keyed stop ht hu] at h
    have hbefore : Balanced [t, u] :=
      .cons (by rw [ht]; rfl) (.cons (by rw [hu]; rfl) balanced_nil)
    refine (fails_readValue (Except.map_eq_error.1 h)).lift _ hbefore ?_ ?_
    · rintro us ⟨v, hv⟩
      exact ⟨_, .keyed ht hu hv⟩
    · intro stop' us error _ h
      rw [List.cons_append, List.singleton_append, outcome_readArgument_keyed stop' ht hu]
      exact Except.map_eq_error.2 h
  · rw [outcome_readArgument_plain stop fun t u us h h' => hkey ⟨t, u, us, h, h'⟩] at h
    refine (fails_readValue h).lift [] balanced_nil ?_ ?_
    · rintro us ⟨v, hv⟩
      exact ⟨_, .plain hv⟩
    · intro stop' us error _ h
      exact outcome_readArgument_of_error h
termination_by (ts.length, 1)

/-- How reading a value fails. -/
private theorem fails_readValue {ts : List Token} {error : ParseError}
    (h : outcome (readValue stop ts) = .error error) :
    Fails (fun us => ∃ v, ArgumentValue us v) (fun stop us => outcome (readValue stop us)) stop ts
      error := by
  match ts with
  | [] =>
    rw [outcome_readValue_nil] at h
    cases h
    refine .finish starts_argumentValue fun stop' u more hu => ⟨some .argumentValue, ?_⟩
    rw [List.nil_append, outcome_readValue_cons, hu]
  | t :: ts =>
    rw [outcome_readValue_cons] at h
    cases ht : t.kind with
    | opening =>
      rw [ht] at h
      refine fails_enclosed (g := fun (inner, rest) => (.nested inner, rest)) ht ?_ ?_
        (fun error => fails_readChain) (Except.map_eq_error.1 h)
      · rintro us u ⟨e, hp⟩ hu
        exact ⟨_, .nested ht hp hu⟩
      · intro stop' us
        rw [outcome_readValue_cons, ht]
    | word | value | quoted =>
      rw [ht] at h
      exact nomatch h
    | _ =>
      rw [ht] at h
      cases h
      refine .of_head starts_argumentValue fun stop' more => ?_
      rw [outcome_readValue_cons, ht]
termination_by (ts.length, 0)

end

end Readers

/-! ## Failures of reading all tokens -/

section All

variable {stop : Token} {ts us more : List Token} {t : Token} {error : ParseError}

/-- An expression is read as a chain that leaves no token. -/
private theorem readChain_of_accepted (h : Accepted ts) :
    ∃ c, outcome (readChain stop ts) = .ok (c, []) := by
  obtain ⟨e, tail, hrow⟩ := accepted_iff_row.1 h
  have h := readChain_of_row stop hrow ends_nil
  rw [List.append_nil] at h
  exact ⟨_, h⟩

/-- A token is wrong when the reader comes to no end behind it. -/
private theorem not_starts_of_readChain (stop : Token)
    (h : ∀ more c, outcome (readChain stop (us ++ t :: more)) ≠ .ok (c, [])) :
    ¬ Starts Accepted (us ++ [t]) := by
  rintro ⟨more, hacc⟩
  rw [List.append_assoc, List.singleton_append] at hacc
  obtain ⟨c, hc⟩ := @readChain_of_accepted stop _ hacc
  exact h more c hc

/-- What the error of a list of tokens says about them. -/
inductive Rejected (stop : Token) (ts : List Token) : ParseError → Prop
  | empty (hts : ts = []) : Rejected stop ts (.empty stop.position)
  | token {us t rest error} (hts : ts = us ++ t :: rest) (hstarts : Starts Accepted us)
      (hwrong : ¬ Starts Accepted (us ++ [t]))
      (herror : (∃ hint, error = .unexpected t hint) ∨
        error = .unknownOperator t ∧ (t.kind = .equals ∨ t.kind = .comma) ∧ Accepted us) :
      Rejected stop ts error
  | finish {hint} (hne : ts ≠ []) (hstarts : Starts Accepted ts)
      (hwrong : ∀ u, u.kind = .closing → ¬ Starts Accepted (ts ++ [u])) :
      Rejected stop ts (.unexpected stop hint)
  | unclosed {opening own} (hopen : unmatched ts = opening :: own)
      (hclose : Accepted (ts ++ List.replicate (unmatched ts).length .closing)) :
      Rejected stop ts (.unclosed opening)

/-- How reading all tokens fails. -/
theorem rejected_readAll (h : readAll stop ts = .error error) : Rejected stop ts error := by
  rw [readAll] at h
  split at h
  · next hts =>
    cases h
    exact .empty hts
  next hne =>
  split at h
  · next e heq =>
    cases h
    cases fails_readChain (congrArg outcome heq) with
    | token us rest hts hstarts hread =>
      refine .token hts hstarts (not_starts_of_readChain stop fun more c hc => ?_) (.inl ⟨_, rfl⟩)
      cases (hread stop more).symm.trans hc
    | finish hstarts hread =>
      refine .finish hne hstarts fun u hu => not_starts_of_readChain stop fun more c hc => ?_
      obtain ⟨hint, hread⟩ := hread stop u more hu
      cases hread.symm.trans hc
    | @unclosed opening own hopen hclose =>
      have hun : unmatched ts = opening :: own := by
        rw [unmatched, hopen, List.append_nil]
      exact .unclosed hun (by rwa [hun])
  · cases h
  · next c t rest _ heq =>
    -- The chain is an expression, and with the token behind it nothing more is.
    obtain ⟨us, rfl, hrow, hread⟩ := readChain_lookahead (congrArg outcome heq)
    have hacc : Accepted us := accepted_iff_row.2 ⟨_, _, hrow⟩
    have hwrong : ¬ Starts Accepted (us ++ [t]) := by
      refine not_starts_of_readChain stop fun more c' hc => ?_
      cases (hread stop more).symm.trans hc
    refine .token rfl ⟨[], by rwa [List.append_nil]⟩ hwrong ?_
    split at h
    · next hk =>
      cases h
      exact .inr ⟨rfl, .inl hk, hacc⟩
    · next hk =>
      cases h
      exact .inr ⟨rfl, .inr hk, hacc⟩
    · cases h
      exact .inl ⟨_, rfl⟩
    · cases h
      exact .inl ⟨_, rfl⟩

end All

end Parse

open Grammar

/-- What stands at the front of closable tokens is the start of an expression. -/
theorem Grammar.Closable.starts {ts us rest : List Token} (h : Closable ts)
    (hts : ts = us ++ rest) : Starts Accepted us :=
  ⟨rest ++ List.replicate (unmatched ts).length .closing, by
    rw [← List.append_assoc, ← hts]
    exact h.2.2⟩

/-- With a closing parenthesis behind them, closable tokens are the start of an expression. -/
theorem Grammar.Closable.starts_closing {ts : List Token} (h : Closable ts) :
    Starts Accepted (ts ++ [.closing]) := by
  obtain ⟨-, hne, hacc⟩ := h
  match hun : unmatched ts with
  | [] => exact absurd hun hne
  | t :: more =>
    rw [hun, List.length_cons, List.replicate_succ, ← List.singleton_append,
      ← List.append_assoc] at hacc
    exact ⟨_, hacc⟩

/-- What the error of a text says. The input is empty exactly when its first token is the end. A
    parenthesis is unclosed exactly when closing those that are left open is all that is missing,
    and the error points at the last of them. Any other error is about the first token that is
    wrong, and about an unknown operator only when that is an equals sign or a comma behind an
    expression. -/
theorem parse_error_position {text : String} {error : ParseError} (h : parse text = .error error) :
    ((∃ p, error = .empty p) ↔ ∃ t, (tokenize text).head? = some t ∧ t.kind = .finish) ∧
      ((∃ t, error = .unclosed t) ↔ Closable (properTokens text)) ∧
      (∀ t, error = .unclosed t →
        (unmatched (properTokens text)).head? = some t ∧ error.position = t.position) ∧
      ((∀ p, error ≠ .empty p) → (∀ t, error ≠ .unclosed t) →
        ∃ before t after, tokenize text = before ++ t :: after ∧ WrongAfter before t ∧
          error.position = t.position ∧
          ((∃ hint, error = .unexpected t hint) ∨
            error = .unknownOperator t ∧ (t.kind = .equals ∨ t.kind = .comma) ∧
              Accepted before)) := by
  obtain ⟨stop, hstop, htokens⟩ := tokenize_eq text
  have hkind : ∀ t ∈ properTokens text, t.kind ≠ .finish := fun t ht =>
    of_decide_eq_true (List.all_eq_true.1 List.all_takeWhile t ht)
  have hrejected : ¬ Accepted (properTokens text) := by
    rintro ⟨e, he⟩
    cases (parse_eq_ok_iff.2 he).symm.trans h
  have hread : Parse.readAll stop (properTokens text) = .error error := by
    rwa [parse, Expr.ofTokens, htokens, List.dropLast_concat, List.getLastD_concat] at h
  -- The first token is the end exactly when there is no other.
  have hfirst : (∃ t, (tokenize text).head? = some t ∧ t.kind = .finish) ↔
      properTokens text = [] := by
    rw [htokens]
    cases hts : properTokens text with
    | nil => simp [hstop]
    | cons t ts => simp [hkind t (hts ▸ List.mem_cons_self)]
  rw [hfirst]
  generalize properTokens text = ts at *
  cases Parse.rejected_readAll hread with
  | empty hts =>
    subst hts
    have hclosable : ¬ Closable [] := fun h => h.2.1 rfl
    exact ⟨by simp, by simp [hclosable], by simp, by simp⟩
  | @token us t rest _ hts hstarts hwrong herror =>
    have hne : t.kind ≠ .finish := hkind t (by simp [hts])
    have hnil : ts ≠ [] := by simp [hts]
    have hclosable : ¬ Closable ts := fun h => hwrong (h.starts (by rw [hts, List.append_cons]))
    have herror' : (∀ p, error ≠ .empty p) ∧ (∀ t, error ≠ .unclosed t) ∧
        error.position = t.position := by
      rcases herror with ⟨hint, rfl⟩ | ⟨rfl, -⟩
      · simp [ParseError.position]
      · simp [ParseError.position]
    obtain ⟨hempty, hunclosed, hposition⟩ := herror'
    refine ⟨by simp [hempty, hnil], by simp [hunclosed, hclosable], by simp [hunclosed],
      fun _ _ => ⟨us, t, rest ++ [stop], ?_, ?_, hposition, herror⟩⟩
    · rw [htokens, hts, List.append_assoc, List.cons_append]
    · rw [WrongAfter, if_neg hne]
      exact ⟨hstarts, hwrong⟩
  | finish hne hstarts hwrong =>
    have hclosable : ¬ Closable ts := fun h => hwrong _ rfl h.starts_closing
    refine ⟨by simp [hne], by simp [hclosable], by simp,
      fun _ _ => ⟨ts, stop, [], htokens, ?_, rfl, .inl ⟨_, rfl⟩⟩⟩
    rw [WrongAfter, if_pos hstop]
    exact ⟨hstarts, hrejected⟩
  | @unclosed opening own hopen hclose =>
    have hne : unmatched ts ≠ [] := by simp [hopen]
    have hnil : ts ≠ [] := by
      rintro rfl
      exact hne rfl
    have hclosable : Closable ts := ⟨hrejected, hne, hclose⟩
    refine ⟨by simp [hnil], by simp [hclosable], ?_, by simp⟩
    rintro _ ⟨⟩
    exact ⟨by rw [hopen]; rfl, rfl⟩

/-- In `f (a` a parenthesis is left open, and that is all. -/
theorem parse_error_position_unclosed :
    parse "f (a" = .error (.unclosed ⟨.opening, "(", 2, 1⟩) ∧
      (unmatched (properTokens "f (a")).head? = some ⟨.opening, "(", 2, 1⟩ := by
  have htokens : properTokens "f (a" =
      [⟨.word, "f", 0, 1⟩, ⟨.opening, "(", 2, 1⟩, ⟨.word, "a", 3, 1⟩] := by
    decide +kernel
  -- The text is not balanced, so it is no phrase; with a parenthesis behind it, it is one.
  have hrejected : ¬ Accepted (properTokens "f (a") := by
    rintro ⟨e, he⟩
    have hbalanced := he.balanced [] []
    rw [htokens] at hbalanced
    exact absurd hbalanced (by decide)
  have hinner : Phrase .pipe [⟨.word, "a", 3, 1⟩] (.command "a" []) :=
    .of_atom (@Atom.command ⟨.word, "a", 3, 1⟩ _ _ rfl .nil) _
  have hargs : ArgumentList [⟨.opening, "(", 2, 1⟩, ⟨.word, "a", 3, 1⟩, .closing]
      [.nested (.command "a" [])] :=
    .cons (.plain (@ArgumentValue.nested ⟨.opening, "(", 2, 1⟩ _ .closing _ rfl hinner rfl)) .nil
  have hcommand : Atom [⟨.word, "f", 0, 1⟩, ⟨.opening, "(", 2, 1⟩, ⟨.word, "a", 3, 1⟩, .closing]
      (.command "f" [.nested (.command "a" [])]) :=
    @Atom.command ⟨.word, "f", 0, 1⟩ _ _ rfl hargs
  have hclosable : Closable (properTokens "f (a") := by
    rw [Closable, htokens]
    exact ⟨htokens ▸ hrejected, by decide, _, .of_atom hcommand _⟩
  cases h : parse "f (a" with
  | ok e => exact absurd ⟨e, parse_eq_ok_iff.1 h⟩ hrejected
  | error error =>
    obtain ⟨-, hunclosed, hlast, -⟩ := parse_error_position h
    obtain ⟨t, rfl⟩ := hunclosed.2 hclosable
    have hhead := (hlast t rfl).1
    rw [htokens] at hhead ⊢
    cases hhead
    exact ⟨rfl, rfl⟩

end Tapestry
