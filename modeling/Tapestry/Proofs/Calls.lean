import Tapestry.Proofs.Trace

/-!
# Which handlers an evaluation calls

The evaluation of an expression calls handlers in the order of `Expr.commandNames`. It goes through
all of these names or stops with an error on the way, and then it calls nothing more.

A command that has no handler stops the evaluation before its arguments are looked at. Hence the
arguments of such commands might as well not be there (`Expr.pruned`).

## Key results

- `Expr.evaluate_pruned`: the arguments of commands without a handler do not matter
- `evaluate_calls_commandNames`: the handlers called are those of the names, up to the first error
-/

namespace Tapestry

/-! ## Commands without a handler -/

mutual

/-- The expression without the arguments of commands that have no handler, at every depth. -/
def Expr.pruned (registry : Registry) : Expr → Expr
  | .command name args =>
    if registry.contains name then .command name (Arg.listPruned registry args)
    else .command name []
  | .pipeline stages => .pipeline (Expr.listPruned registry stages)
  | .binary l s r => .binary (l.pruned registry) s (r.pruned registry)
  | .group e => .group (e.pruned registry)
  | .literal v => .literal v

def Expr.listPruned (registry : Registry) : List Expr → List Expr
  | [] => []
  | e :: es => e.pruned registry :: Expr.listPruned registry es

def Arg.pruned (registry : Registry) : Arg → Arg
  | .literal v => .literal v
  | .keyed key value => .keyed key (value.pruned registry)
  | .nested e => .nested (e.pruned registry)

def Arg.listPruned (registry : Registry) : List Arg → List Arg
  | [] => []
  | a :: as => a.pruned registry :: Arg.listPruned registry as

end

/-- A command without a handler is an unknown command, whatever its arguments are. -/
private theorem evaluate_command_of_not_contains {registry : Registry} {name : String}
    (h : registry.contains name = false) (args : List Arg) (input : Option Image) :
    (Expr.command name args).evaluate registry input = throw (.unknownCommand name) := by
  have hget : registry.get? name = none := by
    rwa [Registry.contains, Option.isSome_eq_false_iff, Option.isNone_iff_eq_none] at h
  rw [Expr.evaluate, lookupCommand, hget]
  rfl

mutual

/-- The arguments of commands without a handler do not matter to an evaluation. -/
theorem Expr.evaluate_pruned (registry : Registry) :
    ∀ (e : Expr) (input : Option Image),
      (e.pruned registry).evaluate registry input = e.evaluate registry input
  | .command name args, input => by
    cases h : registry.contains name with
    | true =>
      rw [Expr.pruned, if_pos h, Expr.evaluate, Expr.evaluate,
        Arg.resolveList_pruned registry args input]
    | false =>
      -- Both fail before any argument is looked at.
      rw [Expr.pruned, if_neg (by rw [h]; decide), evaluate_command_of_not_contains h,
        evaluate_command_of_not_contains h]
  | .pipeline stages, input => by
    rw [Expr.pruned, Expr.evaluate, Expr.evaluate,
      Expr.evaluateStages_pruned registry stages input]
  | .binary l s r, input => by
    rw [Expr.pruned, Expr.evaluate, Expr.evaluate, Expr.evaluate_pruned registry l input,
      Expr.evaluate_pruned registry r input]
  | .group e, input => by
    rw [Expr.pruned, Expr.evaluate, Expr.evaluate, Expr.evaluate_pruned registry e input]
  | .literal v, _ => by rw [Expr.pruned]

/-- Stages are evaluated one by one, so pruning each of them is enough. -/
theorem Expr.evaluateStages_pruned (registry : Registry) :
    ∀ (es : List Expr) (input : Option Image),
      Expr.evaluateStages registry (Expr.listPruned registry es) input =
        Expr.evaluateStages registry es input
  | [], _ => by rw [Expr.listPruned]
  | e :: es, input => by
    rw [Expr.listPruned, Expr.evaluateStages, Expr.evaluateStages,
      Expr.evaluate_pruned registry e input]
    exact congrArg _ (funext fun image => Expr.evaluateStages_pruned registry es (some image))

/-- Pruning the expression in an argument leaves the text that it stands for. -/
theorem Arg.resolve_pruned (registry : Registry) :
    ∀ (a : Arg) (input : Option Image),
      (a.pruned registry).resolve registry input = a.resolve registry input
  | .literal v, _ => by rw [Arg.pruned]
  | .keyed key value, input => by
    rw [Arg.pruned, Arg.resolve, Arg.resolve, Arg.resolve_pruned registry value input]
  | .nested e, input => by
    rw [Arg.pruned, Arg.resolve, Arg.resolve, Expr.evaluate_pruned registry e input]

/-- Arguments are resolved one by one, so pruning each of them is enough. -/
theorem Arg.resolveList_pruned (registry : Registry) :
    ∀ (as : List Arg) (input : Option Image),
      Arg.resolveList registry (Arg.listPruned registry as) input =
        Arg.resolveList registry as input
  | [], _ => by rw [Arg.listPruned]
  | a :: as, input => by
    rw [Arg.listPruned, Arg.resolveList, Arg.resolveList, Arg.resolve_pruned registry a input,
      Arg.resolveList_pruned registry as input]

end

example :
    (Expr.pipeline [.literal "a", .command "f" [.nested (.literal "b")]]).pruned .empty =
      .pipeline [.literal "a", .command "f" []] :=
  rfl

/-! ## The calls -/

/-- A trace and the names of an expression, for an evaluation that stops with an error. -/
theorem Expr.exists_trace_of_error {registry : Registry} {e : Expr} {input : Option Image}
    {c c' : Context} {error : EvalError} (h : e.evaluate registry input c = .error error c') :
    ∃ earlier last, Trace registry c (earlier ++ [last]) c' ∧
      Event.names (earlier ++ [last]) <+: e.commandNames ∧
      Event.errors earlier = [] ∧ last.error? = some error := by
  obtain ⟨events, htrace, haborts⟩ := (e.performs registry input).error h
  obtain ⟨earlier, last, rfl, hearlier, hlast⟩ := haborts.last
  exact ⟨earlier, last, htrace, haborts.names_prefix, hearlier, hlast⟩

/-- Two traces between the same contexts call the same names. -/
theorem Trace.names_eq {registry : Registry} {c c' : Context} {events events' : List Event}
    (h : Trace registry c events c') (h' : Trace registry c events' c') :
    Event.names events = Event.names events' := by
  have hcalls : Event.calls events = Event.calls events' :=
    List.append_cancel_left (h.invocations_eq.symm.trans h'.invocations_eq)
  rw [Event.names, hcalls, Event.names]

/-- An evaluation calls the handlers of the names of its expression, in their order. It calls all of
    them when it gives an image. When it gives an error, this is the error of the last thing that
    happens and nothing failed before, and the handlers called are the first ones of the names. The
    arguments of commands without a handler are never looked at: without them everything is the
    same, and none of the handlers called is one of theirs. -/
theorem evaluate_calls_commandNames (registry : Registry) (e : Expr) (input : Option Image)
    (c : Context) :
    (e.pruned registry).evaluate registry input c = e.evaluate registry input c ∧
      match e.evaluate registry input c with
      | .ok _ c' =>
        ∃ events, Trace registry c events c' ∧
          c'.invocations = c.invocations ++ Event.calls events ∧
          Event.names events = e.commandNames ∧ Event.errors events = []
      | .error error c' =>
        ∃ earlier last, Trace registry c (earlier ++ [last]) c' ∧
          c'.invocations = c.invocations ++ Event.calls (earlier ++ [last]) ∧
          Event.names (earlier ++ [last]) <+: e.commandNames ∧
          Event.names (earlier ++ [last]) <+: (e.pruned registry).commandNames ∧
          Event.errors earlier = [] ∧ last.error? = some error := by
  have hpruned := congrFun (e.evaluate_pruned registry input) c
  refine ⟨hpruned, ?_⟩
  split
  · next c' h =>
    obtain ⟨events, htrace, hcompletes⟩ := (e.performs registry input).ok h
    exact ⟨events, htrace, htrace.invocations_eq, hcompletes.names_eq, hcompletes.errors_eq⟩
  · next error c' h =>
    obtain ⟨earlier, last, htrace, hnames, hearlier, hlast⟩ := Expr.exists_trace_of_error h
    obtain ⟨earlier', last', htrace', hnames', -, -⟩ :=
      Expr.exists_trace_of_error (hpruned.trans h)
    -- Both evaluations end in one context, so they called the same names.
    rw [htrace'.names_eq htrace] at hnames'
    exact ⟨earlier, last, htrace, htrace.invocations_eq, hnames, hnames', hearlier, hlast⟩

end Tapestry
