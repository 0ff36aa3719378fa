import Tapestry.Proofs.Reading

/-!
# What a reader looks at

A reader takes the tokens of its phrase and looks at one token more. So when it has stopped in front
of a token, it stops there whatever comes after that token: nothing that stands further behind could
have been read differently.

## Key results

- `readChain_lookahead`, `readArgument_lookahead`: a reader that stopped in front of a token does so
  whatever comes after it
- `outcome_readArgument_of_error`: an argument that fails to be read is no keyword
-/

namespace Tapestry

namespace Parse

open Grammar

variable {stop : Token}

/-- Arguments are read up to a token that stops them. -/
private theorem stops_of_readArguments {ts rest : List Token} {args : List Arg}
    (h : outcome (readArguments stop ts) = .ok (args, rest)) : Stops rest := by
  -- An argument takes a token, so the others are read from fewer.
  induction hn : ts.length using Nat.strongRecOn generalizing ts args with
  | ind n ih =>
    cases ts with
    | nil =>
      rw [outcome_readArguments_nil] at h
      cases h
      intro t ht
      cases ht
    | cons t ts =>
      rw [outcome_readArguments_cons] at h
      split at h
      · next ht =>
        cases h
        intro u hu
        rw [← Option.some.inj hu]
        exact ht
      · obtain ⟨⟨arg, us⟩, ha, h⟩ := Except.bind_eq_ok.1 h
        obtain ⟨⟨more, vs⟩, hm, h⟩ := Except.map_eq_ok.1 h
        cases h
        have hlt : us.length < (t :: ts).length := bound_of_outcome ha
        exact ih us.length (hn ▸ hlt) hm rfl

/-- Whether tokens stop arguments is decided by the first of them. -/
theorem Stops.of_head {u : Token} {rest : List Token} (h : Stops (u :: rest))
    (more : List Token) : Stops (u :: more) :=
  fun t ht => h t ht

/-- An operand is read in the same way whatever comes after the token behind it. -/
theorem readOperand_lookahead {ts rest : List Token} {u : Token} {e : Expr}
    (h : outcome (readOperand stop ts) = .ok (e, u :: rest)) :
    ∃ us, ts = us ++ u :: rest ∧ Atom us e ∧
      ∀ stop more, outcome (readOperand stop (us ++ u :: more)) = .ok (e, u :: more) := by
  obtain ⟨us, rfl, ha⟩ := atom_of_readOperand h
  refine ⟨us, rfl, ha, fun stop' more => ?_⟩
  cases ha with
  | command ht hargs =>
    -- Only behind a command does it matter which token follows: it stops the arguments.
    rw [List.cons_append, outcome_readOperand_cons, ht] at h
    obtain ⟨⟨args, vs⟩, hargs', h⟩ := Except.map_eq_ok.1 h
    cases h
    exact readOperand_of_atom stop' (.command ht hargs)
      ((stops_of_readArguments hargs').of_head more)
  | literal ht =>
    rw [List.cons_append, outcome_readOperand_cons]
    rcases ht with ht | ht <;> rw [ht] <;> rfl
  | group ht hp hu =>
    rw [List.append_assoc, List.cons_append, List.singleton_append, outcome_readOperand_cons, ht,
      readEnclosed_of_phrase stop' hp hu]
    rfl

/-- A chain likewise. -/
theorem readChain_lookahead {ts rest : List Token} {u : Token} {c : Chain}
    (h : outcome (readChain stop ts) = .ok (c, u :: rest)) :
    ∃ us, ts = us ++ u :: rest ∧ Row us c.head c.tail ∧
      ∀ stop more, outcome (readChain stop (us ++ u :: more)) = .ok (c, u :: more) := by
  rw [outcome_readChain] at h
  obtain ⟨⟨head, us⟩, ho, h⟩ := Except.bind_eq_ok.1 h
  obtain ⟨⟨tail, vs⟩, hj, h⟩ := Except.map_eq_ok.1 h
  cases h
  match us with
  | [] =>
    rw [outcome_readJoined_nil] at hj
    exact nomatch hj
  | t :: us =>
    have hlt : (t :: us).length < ts.length := bound_of_outcome ho
    obtain ⟨vs, rfl, ha, hread⟩ := readOperand_lookahead ho
    rw [outcome_readJoined_cons] at hj
    cases hk : connective? t.kind with
    | none =>
      -- The operand is the whole chain, and the token behind it joins nothing to it.
      rw [hk] at hj
      cases hj
      refine ⟨vs, rfl, .last ha, fun stop' more => ?_⟩
      have hj : outcome (readJoined stop' (u :: more)) = .ok ([], u :: more) := by
        rw [outcome_readJoined_cons, hk]
      rw [outcome_readChain]
      exact Except.bind_eq_ok.2 ⟨_, hread stop' more, Except.map_eq_ok.2 ⟨_, hj, rfl⟩⟩
    | some k =>
      rw [hk] at hj
      obtain ⟨⟨c, ws⟩, hc, hj⟩ := Except.map_eq_ok.1 hj
      cases hj
      obtain ⟨ws, rfl, hrow, hread'⟩ := readChain_lookahead hc
      refine ⟨vs ++ t :: ws, by simp, .more ha (connective?_eq_some.1 hk) hrow,
        fun stop' more => ?_⟩
      have hj : outcome (readJoined stop' (t :: (ws ++ u :: more))) =
          .ok ((k, c.head) :: c.tail, u :: more) := by
        rw [outcome_readJoined_cons, hk]
        exact Except.map_eq_ok.2 ⟨_, hread' stop' more, rfl⟩
      rw [List.append_assoc, List.cons_append, outcome_readChain]
      exact Except.bind_eq_ok.2 ⟨_, hread stop' _, Except.map_eq_ok.2 ⟨_, hj, rfl⟩⟩
termination_by ts.length

/-- An argument likewise. -/
theorem readArgument_lookahead {ts rest : List Token} {u : Token} {arg : Arg}
    (h : outcome (readArgument stop ts) = .ok (arg, u :: rest)) :
    ∃ us, ts = us ++ u :: rest ∧ Argument us arg ∧
      ∀ stop more, outcome (readArgument stop (us ++ u :: more)) = .ok (arg, u :: more) := by
  by_cases hkey : ∃ t v vs, ts = t :: v :: vs ∧ t.kind = .word ∧ v.kind = .equals
  · obtain ⟨t, v, vs, rfl, ht, hv⟩ := hkey
    rw [outcome_readArgument_keyed stop ht hv] at h
    obtain ⟨⟨value, ws⟩, hvalue, h⟩ := Except.map_eq_ok.1 h
    cases h
    obtain ⟨us, rfl, hus⟩ := value_of_readValue hvalue
    refine ⟨t :: v :: us, rfl, .keyed ht hv hus, fun stop' more => ?_⟩
    rw [List.cons_append, List.cons_append, outcome_readArgument_keyed stop' ht hv]
    exact Except.map_eq_ok.2 ⟨_, readValue_of_value stop' hus (u :: more), rfl⟩
  · rw [outcome_readArgument_plain stop fun t v vs h h' => hkey ⟨t, v, vs, h, h'⟩] at h
    obtain ⟨us, rfl, hus⟩ := value_of_readValue h
    refine ⟨us, rfl, .plain hus, fun stop' more => ?_⟩
    rw [outcome_readArgument_plain stop' ?_, readValue_of_value stop' hus (u :: more)]
    -- The first two tokens are the same as before, and they made no keyword then.
    rintro t v vs hts htv
    match us with
    | [] => exact absurd rfl (Argument.ne_nil (.plain hus))
    | [t'] =>
      cases hts
      exact hkey ⟨_, _, _, rfl, htv⟩
    | t' :: v' :: us =>
      cases hts
      exact hkey ⟨_, _, _, rfl, htv⟩

/-- Where no value can be read, no keyword starts, so that no argument can be read either. -/
theorem outcome_readArgument_of_error {ts : List Token} {error : ParseError}
    (h : outcome (readValue stop ts) = .error error) :
    outcome (readArgument stop ts) = .error error := by
  rw [outcome_readArgument_plain, h]
  rintro t u us rfl ⟨ht, -⟩
  -- A word is a value.
  rw [outcome_readValue_cons, ht] at h
  exact nomatch h

end Parse

end Tapestry
