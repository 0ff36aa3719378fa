import Tapestry.Evaluation
import Tapestry.Proofs.Results

/-!
# Traces of evaluations

An evaluation acts on its context in few ways: it puts an image among the handles, and it calls
handlers, which give images or fail. `Step` says what each of these events does to a context, and
`Trace` strings them together. An evaluation also fails when it refuses to go on, which leaves the
context as it is.

What an evaluation does is then a statement about its trace: which names it calls, how many handles
it makes, and where it stops. `Performs` says this for a computation, with one lemma for each way to
make computations, and `Expr.performs` for the evaluation of every expression.

## Key results

- `Trace.invocations_eq`: a context records the calls of a trace
- `Performs.bind`: one computation after the other
- `Expr.performs`: what the evaluation of an expression calls and registers
-/

namespace Tapestry

/-! ## Events -/

/-- What happens during an evaluation. -/
inductive Event where
  | registered (handle : String) (image : Image)
  | returned (call : Invocation) (image : Image)
  | failed (call : Invocation) (error : EvalError)
  | refused (error : EvalError)

namespace Event

/-- The call of a handler. -/
def call? : Event → Option Invocation
  | returned call _ | failed call _ => some call
  | registered _ _ | refused _ => none

/-- The error that an event ends an evaluation with. -/
def error? : Event → Option EvalError
  | failed _ error | refused error => some error
  | registered _ _ | returned _ _ => none

/-- The handle that an event makes, with its image. -/
def binding? : Event → Option (String × Image)
  | registered handle image => some (handle, image)
  | returned _ _ | failed _ _ | refused _ => none

/-- The calls of handlers, in order. -/
def calls (events : List Event) : List Invocation := events.filterMap call?

/-- The names under which handlers are called, in order. -/
def names (events : List Event) : List String := (calls events).map Invocation.name

/-- The errors, in order. -/
def errors (events : List Event) : List EvalError := events.filterMap error?

/-- The handles made, with their images, in order. -/
def bindings (events : List Event) : List (String × Image) := events.filterMap binding?

variable (events later : List Event)

/-- The calls of events one after the other. -/
theorem calls_append : calls (events ++ later) = calls events ++ calls later :=
  List.filterMap_append

/-- The names of events one after the other. -/
theorem names_append : names (events ++ later) = names events ++ names later := by
  rw [names, calls_append, List.map_append, names, names]

/-- The errors of events one after the other. -/
theorem errors_append : errors (events ++ later) = errors events ++ errors later :=
  List.filterMap_append

/-- The handles that events bind, one after the other. -/
theorem bindings_append : bindings (events ++ later) = bindings events ++ bindings later :=
  List.filterMap_append

end Event

open Event (names errors bindings)

/-- Events of an evaluation that goes through: they hold no error, the names called are these, and
    so many handles are made. -/
structure Completes (events : List Event) (called : List String) (made : Nat) : Prop where
  errors_eq : errors events = []
  names_eq : names events = called
  length_bindings : (bindings events).length = made

/-- Events of an evaluation that stops with an error: the last event has this error and no other has
    one, the names called are the first of these, and at most so many handles are made. -/
structure Aborts (events : List Event) (error : EvalError) (called : List String) (made : Nat) :
    Prop where
  last : ∃ earlier event, events = earlier ++ [event] ∧ errors earlier = [] ∧
    event.error? = some error
  names_prefix : names events <+: called
  length_bindings_le : (bindings events).length ≤ made

section Events

variable {events later : List Event} {called called' : List String} {made made' : Nat}
  {error : EvalError}

/-- What was called and registered adds up. -/
theorem Completes.append (h : Completes events called made) (h' : Completes later called' made') :
    Completes (events ++ later) (called ++ called') (made + made') where
  errors_eq := by rw [Event.errors_append, h.errors_eq, h'.errors_eq, List.append_nil]
  names_eq := by rw [Event.names_append, h.names_eq, h'.names_eq]
  length_bindings := by
    rw [Event.bindings_append, List.length_append, h.length_bindings, h'.length_bindings]

/-- Events that stop may follow events that go through. -/
theorem Completes.append_aborts (h : Completes events called made)
    (h' : Aborts later error called' made') :
    Aborts (events ++ later) error (called ++ called') (made + made') where
  last := by
    obtain ⟨earlier, event, rfl, hearlier, hevent⟩ := h'.last
    refine ⟨events ++ earlier, event, (List.append_assoc _ _ _).symm, ?_, hevent⟩
    rw [Event.errors_append, h.errors_eq, hearlier, List.append_nil]
  names_prefix := by
    rw [Event.names_append, h.names_eq, List.prefix_append_right_inj]
    exact h'.names_prefix
  length_bindings_le := by
    rw [Event.bindings_append, List.length_append, h.length_bindings]
    exact Nat.add_le_add_left h'.length_bindings_le made

/-- Nothing follows events that stop, whatever was to come. -/
theorem Aborts.weaken (h : Aborts events error called made) (called' : List String) (made' : Nat) :
    Aborts events error (called ++ called') (made + made') where
  last := h.last
  names_prefix := h.names_prefix.trans (List.prefix_append _ _)
  length_bindings_le := Nat.le_add_right_of_le h.length_bindings_le

end Events

/-! ## Steps -/

section Steps

variable (registry : Registry)

/-- The errors with which an evaluation refuses to go on: a name or an operator that has no handler,
    and a pipeline without stages and without an image. -/
inductive Refuses : EvalError → Prop
  | command {name} (h : registry.get? name = none) : Refuses (.unknownCommand name)
  | symbol {s} (h : Operator.commandOf? s = none) : Refuses (.unknownOperator s)
  | operator {s command} (h : Operator.commandOf? s = some command)
      (h' : registry.get? command = none) : Refuses (.operatorNotImplemented s command)
  | input : Refuses .noInput

/-- What an event does to a context. A handler is the one that the registry has under the name of
    the call; it sees the handles made so far, and the files that it leaves stay also when it
    fails. -/
inductive Step : Context → Event → Context → Prop
  | registered {c} (image : Image) :
      Step c (.registered (c.handles.register image).1 image)
        { c with handles := (c.handles.register image).2 }
  | returned {c call handler image files} (h : registry.get? call.name = some handler)
      (h' : handler ⟨call.args, call.input, c.handles⟩ c.files = .ok image files) :
      Step c (.returned call image)
        { c with files := files, invocations := c.invocations ++ [call] }
  | failed {c call handler error files} (h : registry.get? call.name = some handler)
      (h' : handler ⟨call.args, call.input, c.handles⟩ c.files = .error error files) :
      Step c (.failed call (error.inCommand call.name))
        { c with files := files, invocations := c.invocations ++ [call] }
  | refused {c error} (h : Refuses registry error) : Step c (.refused error) c

/-- Events that lead from one context to another. -/
inductive Trace : Context → List Event → Context → Prop
  | nil {c} : Trace c [] c
  | cons {c c' c'' event events} (h : Step registry c event c') (h' : Trace c' events c'') :
      Trace c (event :: events) c''

variable {registry}

/-- One step is a trace. -/
theorem Step.trace {c c' : Context} {event : Event} (h : Step registry c event c') :
    Trace registry c [event] c' :=
  .cons h .nil

/-- Traces that follow each other are one trace. -/
theorem Trace.append {c c' c'' : Context} {events later : List Event}
    (h : Trace registry c events c') (h' : Trace registry c' later c'') :
    Trace registry c (events ++ later) c'' := by
  induction h with
  | nil => exact h'
  | cons h _ ih => exact .cons h (ih h')

/-- A step records the call that it makes. -/
theorem Step.invocations_eq {c c' : Context} {event : Event} (h : Step registry c event c') :
    c'.invocations = c.invocations ++ event.call?.toList := by
  cases h with
  | registered | refused => exact (List.append_nil _).symm
  | returned | failed => rfl

/-- A context records the calls of a trace after those that it held before. -/
theorem Trace.invocations_eq {c c' : Context} {events : List Event}
    (h : Trace registry c events c') :
    c'.invocations = c.invocations ++ Event.calls events := by
  induction h with
  | nil => exact (List.append_nil _).symm
  | @cons c c' c'' event events h _ ih =>
    rw [ih, h.invocations_eq, List.append_assoc, Event.calls, Event.calls, List.filterMap_cons]
    cases event.call? <;> rfl

end Steps

/-! ## Computations -/

/-- A computation that either goes through, with these calls and so many handles made, or stops with
    an error on the way. -/
structure Performs (registry : Registry) {α : Type} (m : EvalM α) (called : List String)
    (made : Nat) : Prop where
  ok : ∀ {c c' a}, m c = .ok a c' →
    ∃ events, Trace registry c events c' ∧ Completes events called made
  error : ∀ {c c' e}, m c = .error e c' →
    ∃ events, Trace registry c events c' ∧ Aborts events e called made

section Computations

variable {registry : Registry} {α β : Type} {called called' : List String} {made made' : Nat}

/-- A value calls nothing and registers nothing. -/
private theorem performs_pure (a : α) : Performs registry (pure a : EvalM α) [] 0 where
  ok h := by
    cases h
    exact ⟨[], .nil, rfl, rfl, rfl⟩
  error h := nomatch h

/-- An error of a look-up, or a missing input, ends a computation before anything is called. -/
private theorem performs_throw {e : EvalError} (h : Refuses registry e) :
    Performs registry (throw e : EvalM α) called made where
  ok h' := nomatch h'
  error h' := by
    cases h'
    exact ⟨[.refused e], (Step.refused h).trace, ⟨[], _, rfl, rfl, rfl⟩, List.nil_prefix,
      Nat.zero_le _⟩

/-- The value of a result, if there is one. -/
def value? {ε σ α : Type} : EStateM.Result ε σ α → Option α
  | .ok a _ => some a
  | .error _ _ => none

/-- One computation after the other: when the first one stops, the second one does not start. -/
theorem Performs.bind {m : EvalM α} {f : α → EvalM β} (h : Performs registry m called made)
    (h' : ∀ a, Performs registry (f a) called' made') :
    Performs registry (m >>= f) (called ++ called') (made + made') where
  ok {c c' b} hb := by
    cases hm : m c with
    | error e d =>
      rw [bind_error hm] at hb
      exact nomatch hb
    | ok a d =>
      rw [bind_ok hm] at hb
      obtain ⟨events, ht, hc⟩ := h.ok hm
      obtain ⟨later, ht', hc'⟩ := (h' a).ok hb
      exact ⟨events ++ later, ht.append ht', hc.append hc'⟩
  error {c c' e} hb := by
    cases hm : m c with
    | error e' d =>
      -- The second computation does not start, so its calls and handles are only allowed for.
      rw [bind_error hm] at hb
      cases hb
      obtain ⟨events, ht, hs⟩ := h.error hm
      exact ⟨events, ht, hs.weaken _ _⟩
    | ok a d =>
      -- The first computation went through, and the second one stopped.
      rw [bind_ok hm] at hb
      obtain ⟨events, ht, hc⟩ := h.ok hm
      obtain ⟨later, ht', hs⟩ := (h' a).error hb
      exact ⟨events ++ later, ht.append ht', hc.append_aborts hs⟩

/-- What is done with a result does not count when it only gives another result. -/
theorem Performs.bind_pure {m : EvalM α} (h : Performs registry m called made) (f : α → β) :
    Performs registry (m >>= fun a => pure (f a)) called made := by
  have h' := h.bind fun a => @performs_pure registry _ (f a)
  rwa [List.append_nil] at h'

/-- Registering an image takes one handle. -/
theorem performs_registerImage (image : Image) :
    Performs registry (registerImage image) [] 1 where
  ok h := by
    cases h
    exact ⟨[_], (Step.registered image).trace, rfl, rfl, rfl⟩
  error h := nomatch h

/-- Calling the handler that the registry has under a name. -/
private theorem performs_invoke {name : String} {handler : Handler}
    (hget : registry.get? name = some handler) (args : List String) (input : Option Image) :
    Performs registry (invoke name handler args input) [name] 0 where
  ok {c c' image} h := by
    rw [invoke] at h
    split at h
    -- The call is the only event, whether the handler gives an image or fails.
    · next hrun =>
      cases h
      exact ⟨[_], (@Step.returned _ c ⟨name, args, input⟩ _ _ _ hget hrun).trace, rfl, rfl, rfl⟩
    · exact nomatch h
  error {c c' e} h := by
    rw [invoke] at h
    split at h
    · exact nomatch h
    · next hrun =>
      cases h
      exact ⟨[_], (@Step.failed _ c ⟨name, args, input⟩ _ _ _ hget hrun).trace,
        ⟨[], _, rfl, rfl, rfl⟩, List.prefix_refl _, Nat.le_refl _⟩

/-- Looking up a name, and going on when it has a handler. -/
private theorem performs_lookupCommand {name : String} {f : Handler → EvalM α}
    (h : ∀ handler, registry.get? name = some handler →
      Performs registry (f handler) called made) :
    Performs registry (lookupCommand registry name >>= f) called made := by
  cases hget : registry.get? name with
  | none =>
    rw [lookupCommand, hget]
    exact performs_throw (.command hget)
  | some handler =>
    rw [lookupCommand, hget, pure_bind]
    exact h handler hget

/-- Looking up an operator, and going on when its command has a handler. -/
private theorem performs_lookupOperator {s : String} {f : String × Handler → EvalM α}
    (h : ∀ command handler, Operator.commandOf? s = some command →
      registry.get? command = some handler → Performs registry (f (command, handler)) called made) :
    Performs registry (lookupOperator registry s >>= f) called made := by
  cases hs : Operator.commandOf? s with
  | none =>
    rw [lookupOperator, hs]
    exact performs_throw (.symbol hs)
  | some command =>
    cases hget : registry.get? command with
    | none =>
      simp only [lookupOperator, hs, hget]
      exact performs_throw (.operator hs hget)
    | some handler =>
      simp only [lookupOperator, hs, hget, pure_bind]
      exact h command handler hs hget

end Computations

/-! ## Evaluations -/

mutual

/-- The number of handles that the evaluation of an expression makes: one for every expression in an
    argument, and one for the right operand of every operator. -/
def Expr.handleCount : Expr → Nat
  | .command _ args => Arg.listHandleCount args
  | .pipeline stages => Expr.listHandleCount stages
  | .binary l _ r => l.handleCount + r.handleCount + 1
  | .group e => e.handleCount
  | .literal _ => 0

def Expr.listHandleCount : List Expr → Nat
  | [] => 0
  | e :: es => e.handleCount + Expr.listHandleCount es

def Arg.handleCount : Arg → Nat
  | .literal _ => 0
  | .keyed _ value => value.handleCount
  | .nested e => e.handleCount + 1

def Arg.listHandleCount : List Arg → Nat
  | [] => 0
  | a :: as => a.handleCount + Arg.listHandleCount as

end

/-- Evaluating both operands of an operator and calling its command. -/
private theorem performs_binary {registry : Registry} {left right : EvalM Image} {s : String}
    {called called' : List String} {made made' : Nat} (hl : Performs registry left called made)
    (hr : Performs registry right called' made') :
    Performs registry
      (do
        let leftImage ← left
        let rightImage ← right
        let (command, handler) ← lookupOperator registry s
        let handle ← registerImage rightImage
        invoke command handler [handle] (some leftImage))
      (called ++ called' ++ [(Operator.commandOf? s).getD s]) (made + made' + 1) := by
  rw [List.append_assoc, Nat.add_assoc]
  -- The operator is looked up behind both operands, and before the right image is registered.
  refine hl.bind fun leftImage => hr.bind fun rightImage => ?_
  refine performs_lookupOperator fun command handler hs hget => ?_
  rw [hs]
  exact (performs_registerImage rightImage).bind fun handle =>
    performs_invoke hget [handle] (some leftImage)

mutual

/-- The evaluation of an expression calls the names of the expression in their order. -/
theorem Expr.performs (registry : Registry) :
    ∀ (e : Expr) (input : Option Image),
      Performs registry (e.evaluate registry input) e.commandNames e.handleCount
  | .command name args, input => by
    rw [Expr.evaluate, Expr.commandNames, Expr.handleCount]
    -- The name is looked up first, but its handler is called behind the arguments.
    refine performs_lookupCommand fun handler hget => ?_
    exact (Arg.listPerforms registry args input).bind fun texts => performs_invoke hget texts input
  | .literal value, input => by
    rw [Expr.evaluate, Expr.commandNames, Expr.handleCount]
    exact performs_lookupCommand fun handler hget => performs_invoke hget [] input
  | .pipeline stages, input => by
    rw [Expr.evaluate, Expr.commandNames, Expr.handleCount]
    exact Expr.stagesPerform registry stages input
  | .group e, input => by
    rw [Expr.evaluate, Expr.commandNames, Expr.handleCount]
    exact Expr.performs registry e input
  | .binary l s r, input => by
    rw [Expr.evaluate, Expr.commandNames, Expr.handleCount]
    exact performs_binary (Expr.performs registry l input) (Expr.performs registry r input)

/-- The stages of a pipeline call what they name, one after the other. -/
theorem Expr.stagesPerform (registry : Registry) :
    ∀ (es : List Expr) (input : Option Image),
      Performs registry (Expr.evaluateStages registry es input) (Expr.listCommandNames es)
        (Expr.listHandleCount es)
  | [], none => by
    rw [Expr.evaluateStages]
    exact performs_throw .input
  | [], some image => by
    rw [Expr.evaluateStages]
    exact performs_pure image
  | e :: es, input => by
    rw [Expr.evaluateStages, Expr.listCommandNames, Expr.listHandleCount]
    exact (Expr.performs registry e input).bind fun image =>
      Expr.stagesPerform registry es (some image)

/-- A nested expression takes a handle behind those of its own. -/
theorem Arg.performs (registry : Registry) :
    ∀ (a : Arg) (input : Option Image),
      Performs registry (a.resolve registry input) a.commandNames a.handleCount
  | .literal value, input => by
    rw [Arg.resolve, Arg.commandNames, Arg.handleCount]
    exact performs_pure value
  | .keyed key value, input => by
    rw [Arg.resolve, Arg.commandNames, Arg.handleCount]
    exact (Arg.performs registry value input).bind_pure _
  | .nested e, input => by
    rw [Arg.resolve, Arg.commandNames, Arg.handleCount, ← List.append_nil e.commandNames]
    exact (Expr.performs registry e input).bind performs_registerImage

/-- Arguments are resolved from left to right. -/
theorem Arg.listPerforms (registry : Registry) :
    ∀ (as : List Arg) (input : Option Image),
      Performs registry (Arg.resolveList registry as input) (Arg.listCommandNames as)
        (Arg.listHandleCount as)
  | [], input => by
    rw [Arg.resolveList]
    exact performs_pure []
  | a :: as, input => by
    rw [Arg.resolveList, Arg.listCommandNames, Arg.listHandleCount]
    exact (Arg.performs registry a input).bind fun text =>
      (Arg.listPerforms registry as input).bind_pure _

end

/-- One handle for the right operand and one for the argument in it. -/
example :
    (Expr.binary (.literal "a") "+" (.command "f" [.nested (.literal "b")])).handleCount = 2 :=
  rfl

end Tapestry
