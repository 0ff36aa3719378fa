import Tapestry.Proofs.WellFormed
import Tapestry.Evaluation

/-!
# What an expression looks up

Evaluating an expression looks up its commands and its operators. `Expr.lookups` lists what is
looked up, `Lookup.find` is the answer of a registry, and the names of an expression are those of
its look-ups. An expression that a text denotes looks up no operator without a command, so the only
fault of such a look-up is that its name has no handler.

## Key results

- `Expr.commandNames_eq`: the names of an expression are those that it looks up
- `Lookup.find_eq_ok`, `Lookup.find_eq_error`: what the answer to a look-up says about its name
- `Expr.known_of_wellFormed`: well-formed expressions look up known operators only
-/

namespace Tapestry

/-- What is looked up: a command by its name, or the command behind an infix symbol. -/
inductive Lookup where
  | command (name : String)
  | operator (symbol : String)
  deriving DecidableEq

namespace Lookup

/-- The name that is looked up. A symbol without a command stands for itself. -/
def name : Lookup → String
  | command name => name
  | operator symbol => (Operator.commandOf? symbol).getD symbol

/-- Whether there is a command to look up. -/
def Known : Lookup → Prop
  | command _ => True
  | operator symbol => ∃ o : Operator, symbol = o.symbol

/-- What a registry answers: the name and its handler, or why there is none. -/
def find (registry : Registry) : Lookup → Except EvalError (String × Handler)
  | command name =>
    match registry.get? name with
    | some handler => .ok (name, handler)
    | none => .error (.unknownCommand name)
  | operator symbol =>
    match Operator.commandOf? symbol with
    | none => .error (.unknownOperator symbol)
    | some name =>
      match registry.get? name with
      | some handler => .ok (name, handler)
      | none => .error (.operatorNotImplemented symbol name)

variable {registry : Registry} {l : Lookup}

/-- What is found is the handler of the name. -/
theorem find_eq_ok {name : String} {handler : Handler} (h : l.find registry = .ok (name, handler)) :
    name = l.name ∧ registry.get? l.name = some handler := by
  cases l with
  | command n =>
    simp only [find] at h
    split at h
    · next hget =>
      cases h
      exact ⟨rfl, hget⟩
    · cases h
  | operator s =>
    simp only [find] at h
    split at h
    · cases h
    · next n hs =>
      split at h
      · next hget =>
        cases h
        simp only [Lookup.name, hs, Option.getD_some]
        exact ⟨trivial, hget⟩
      · cases h

/-- When nothing is found, the name has no handler, or there is no name to look up. The error tells
    which. -/
theorem find_eq_error {error : EvalError} (h : l.find registry = .error error) :
    (registry.get? l.name = none ∧
        (error = .unknownCommand l.name ∨ ∃ s, error = .operatorNotImplemented s l.name)) ∨
      ∃ s, l = .operator s ∧ Operator.commandOf? s = none ∧ error = .unknownOperator s := by
  cases l with
  | command n =>
    simp only [find] at h
    split at h
    · cases h
    · next hget =>
      cases h
      exact .inl ⟨hget, .inl rfl⟩
  | operator s =>
    simp only [find] at h
    split at h
    · next hs =>
      cases h
      exact .inr ⟨s, rfl, hs, rfl⟩
    · next n hs =>
      split at h
      · cases h
      · next hget =>
        cases h
        simp only [Lookup.name, hs, Option.getD_some]
        exact .inl ⟨hget, .inr ⟨s, rfl⟩⟩

/-- A known operator has a command. -/
theorem Known.commandOf?_ne_none {s : String} (h : (operator s).Known) :
    Operator.commandOf? s ≠ none := by
  obtain ⟨o, rfl⟩ := h
  simp [Operator.commandOf?, Operator.ofSymbol?_symbol]

end Lookup

/-! ## Looking up during an evaluation -/

section Evaluation

variable {α : Type} (registry : Registry) (c : Context)

/-- Looking up a command goes on with the handler that is found, or stops. -/
theorem lookupCommand_bind (name : String) (f : Handler → EvalM α) :
    (lookupCommand registry name >>= f) c =
      match (Lookup.command name).find registry with
      | .ok (_, handler) => f handler c
      | .error e => .error e c := by
  cases hget : registry.get? name with
  | none =>
    simp only [lookupCommand, Lookup.find, hget]
    rfl
  | some handler =>
    simp only [lookupCommand, Lookup.find, hget]
    rfl

/-- Looking up an operator likewise. -/
theorem lookupOperator_bind (symbol : String) (f : String × Handler → EvalM α) :
    (lookupOperator registry symbol >>= f) c =
      match (Lookup.operator symbol).find registry with
      | .ok found => f found c
      | .error e => .error e c := by
  cases hs : Operator.commandOf? symbol with
  | none =>
    simp only [lookupOperator, Lookup.find, hs]
    rfl
  | some command =>
    cases hget : registry.get? command with
    | none =>
      simp only [lookupOperator, Lookup.find, hs, hget]
      rfl
    | some handler =>
      simp only [lookupOperator, Lookup.find, hs, hget]
      rfl

end Evaluation

/-! ## The look-ups of an expression -/

mutual

/-- What an expression looks up, with repetitions. A command stands behind what its arguments look
    up, although it is looked up before them. -/
def Expr.lookups : Expr → List Lookup
  | .command name args => Arg.listLookups args ++ [.command name]
  | .pipeline stages => Expr.listLookups stages
  | .binary l s r => l.lookups ++ r.lookups ++ [.operator s]
  | .group e => e.lookups
  | .literal value => [.command value]

/-- What a list of expressions looks up. -/
def Expr.listLookups : List Expr → List Lookup
  | [] => []
  | e :: es => e.lookups ++ Expr.listLookups es

/-- What an argument looks up. -/
def Arg.lookups : Arg → List Lookup
  | .literal _ => []
  | .keyed _ value => value.lookups
  | .nested e => e.lookups

/-- What a list of arguments looks up. -/
def Arg.listLookups : List Arg → List Lookup
  | [] => []
  | a :: as => a.lookups ++ Arg.listLookups as

end

mutual

/-- The names of an expression are those that it looks up. -/
theorem Expr.commandNames_eq : ∀ e : Expr, e.commandNames = e.lookups.map Lookup.name
  | .command name args => by
    rw [Expr.commandNames, Expr.lookups, List.map_append, Arg.listCommandNames_eq args]
    rfl
  | .pipeline stages => by
    rw [Expr.commandNames, Expr.lookups, Expr.listCommandNames_eq stages]
  | .binary l s r => by
    rw [Expr.commandNames, Expr.lookups, List.map_append, List.map_append,
      Expr.commandNames_eq l, Expr.commandNames_eq r]
    rfl
  | .group e => by rw [Expr.commandNames, Expr.lookups, Expr.commandNames_eq e]
  | .literal value => by
    rw [Expr.commandNames, Expr.lookups]
    rfl

/-- The names in a list of expressions are those that are looked up, in the same order. -/
private theorem Expr.listCommandNames_eq :
    ∀ es : List Expr, Expr.listCommandNames es = (Expr.listLookups es).map Lookup.name
  | [] => by
    rw [Expr.listCommandNames, Expr.listLookups]
    rfl
  | e :: es => by
    rw [Expr.listCommandNames, Expr.listLookups, List.map_append, Expr.commandNames_eq e,
      Expr.listCommandNames_eq es]

theorem Arg.commandNames_eq : ∀ a : Arg, a.commandNames = a.lookups.map Lookup.name
  | .literal v => by
    rw [Arg.commandNames, Arg.lookups]
    rfl
  | .keyed key value => by rw [Arg.commandNames, Arg.lookups, Arg.commandNames_eq value]
  | .nested e => by rw [Arg.commandNames, Arg.lookups, Expr.commandNames_eq e]

private theorem Arg.listCommandNames_eq :
    ∀ as : List Arg, Arg.listCommandNames as = (Arg.listLookups as).map Lookup.name
  | [] => by
    rw [Arg.listCommandNames, Arg.listLookups]
    rfl
  | a :: as => by
    rw [Arg.listCommandNames, Arg.listLookups, List.map_append, Arg.commandNames_eq a,
      Arg.listCommandNames_eq as]

end

/-- What is looked up has a name of the expression. -/
theorem Expr.name_mem_commandNames {e : Expr} {l : Lookup} (h : l ∈ e.lookups) :
    l.name ∈ e.commandNames := by
  rw [e.commandNames_eq]
  exact List.mem_map_of_mem h

mutual

/-- A well-formed expression looks up known operators only. -/
theorem Expr.known_of_wellFormed : ∀ {e : Expr}, e.WellFormed → ∀ l ∈ e.lookups, l.Known
  | .command name args, h => by
    rw [Expr.WellFormed] at h
    rw [Expr.lookups, List.forall_mem_append, List.forall_mem_singleton]
    exact ⟨Arg.known_of_listWellFormed h.2, trivial⟩
  | .pipeline stages, h => by
    rw [Expr.WellFormed] at h
    rw [Expr.lookups]
    exact Expr.known_of_listWellFormed h.2.2
  | .binary l s r, h => by
    rw [Expr.WellFormed] at h
    obtain ⟨hs, hl, hr⟩ := h
    rw [Expr.lookups, List.forall_mem_append, List.forall_mem_append, List.forall_mem_singleton]
    exact ⟨⟨Expr.known_of_wellFormed hl, Expr.known_of_wellFormed hr⟩, hs⟩
  | .group e, h => by
    rw [Expr.WellFormed] at h
    rw [Expr.lookups]
    exact Expr.known_of_wellFormed h
  | .literal v, _ => by
    rw [Expr.lookups, List.forall_mem_singleton]
    trivial

/-- Stages look up what their expressions look up. -/
private theorem Expr.known_of_listWellFormed :
    ∀ {es : List Expr}, Expr.ListWellFormed es → ∀ l ∈ Expr.listLookups es, l.Known
  | [], _ => by
    rw [Expr.listLookups]
    exact List.forall_mem_nil _
  | e :: es, h => by
    rw [Expr.ListWellFormed] at h
    rw [Expr.listLookups, List.forall_mem_append]
    exact ⟨Expr.known_of_wellFormed h.1, Expr.known_of_listWellFormed h.2⟩

/-- An argument looks up what the expression in it looks up. -/
theorem Arg.known_of_wellFormed : ∀ {a : Arg}, a.WellFormed → ∀ l ∈ a.lookups, l.Known
  | .literal v, _ => by
    rw [Arg.lookups]
    exact List.forall_mem_nil _
  | .keyed key value, h => by
    rw [Arg.WellFormed] at h
    rw [Arg.lookups]
    exact Arg.known_of_wellFormed h.2.2
  | .nested e, h => by
    rw [Arg.WellFormed] at h
    rw [Arg.lookups]
    exact Expr.known_of_wellFormed h

/-- Arguments look up what each of them looks up. -/
private theorem Arg.known_of_listWellFormed :
    ∀ {as : List Arg}, Arg.ListWellFormed as → ∀ l ∈ Arg.listLookups as, l.Known
  | [], _ => by
    rw [Arg.listLookups]
    exact List.forall_mem_nil _
  | a :: as, h => by
    rw [Arg.ListWellFormed] at h
    rw [Arg.listLookups, List.forall_mem_append]
    exact ⟨Arg.known_of_wellFormed h.1, Arg.known_of_listWellFormed h.2⟩

end

end Tapestry
