import Mathlib.Logic.Relation
import Tapestry.Proofs.Handles

/-!
# Which expression makes a call

While an expression is evaluated, other expressions inside it are, each on its own input and in the
context that was left before it (`Visit`). A command, a literal and an operator make a call of their
own at the end, when everything inside them gave an image. `Visit.Child` says which visits a visit
leads to, and `Visit.Makes` which call it makes in which context.

Every call of an evaluation is then made by a visit that the evaluation leads to. This is one
induction over expressions (`Expr.callsBy`), so that a property of calls can be shown for each kind
of expression by itself.

## Key results

- `Visit.Makes.evaluate_eq`: the evaluation of a visit ends with the call that it makes
- `Expr.callsBy`: every call of an evaluation is made by a visit that it leads to
-/

namespace Tapestry

/-- An expression about to be evaluated, on an input and in a context. -/
structure Visit where
  expr : Expr
  input : Option Image
  context : Context

/-- The expression inside an argument. -/
def Arg.inner? : Arg → Option Expr
  | .literal _ => none
  | .keyed _ value => value.inner?
  | .nested e => some e

namespace Visit

section

variable (registry : Registry)

/-- The visits that a visit leads to directly. The right operand comes behind the left one, a stage
    behind those before it, whose image it gets, and an argument behind those before it. The
    arguments of a command without a handler are not visited. -/
inductive Child : Visit → Visit → Prop
  | group {e input c} : Child ⟨.group e, input, c⟩ ⟨e, input, c⟩
  | left {l s r input c} : Child ⟨.binary l s r, input, c⟩ ⟨l, input, c⟩
  | right {l s r input c image d} (h : l.evaluate registry input c = .ok image d) :
    Child ⟨.binary l s r, input, c⟩ ⟨r, input, d⟩
  | first {e es input c} : Child ⟨.pipeline (e :: es), input, c⟩ ⟨e, input, c⟩
  | later {f before e after input c image d}
      (h : Expr.evaluateStages registry (f :: before) input c = .ok image d) :
    Child ⟨.pipeline (f :: before ++ e :: after), input, c⟩ ⟨e, some image, d⟩
  | argument {name before a after e input c texts d} (hname : registry.contains name = true)
      (h : Arg.resolveList registry before input c = .ok texts d) (ha : a.inner? = some e) :
    Child ⟨.command name (before ++ a :: after), input, c⟩ ⟨e, input, d⟩

/-- The visits that a visit leads to, itself among them. -/
def Reaches : Visit → Visit → Prop := Relation.ReflTransGen (Child registry)

/-- The call that a visit makes itself, and the context in which it does: behind its arguments, or
    behind both operands when the right one has its handle. -/
inductive Makes : Visit → Context → Invocation → Prop
  | command {name args input c texts d} (hname : registry.contains name = true)
      (h : Arg.resolveList registry args input c = .ok texts d) :
    Makes ⟨.command name args, input, c⟩ d ⟨name, texts, input⟩
  | literal {value input c} (hname : registry.contains value = true) :
    Makes ⟨.literal value, input, c⟩ c ⟨value, [], input⟩
  | operator {l s r input c left d right d' name} (hl : l.evaluate registry input c = .ok left d)
      (hr : r.evaluate registry input d = .ok right d') (hs : Operator.commandOf? s = some name)
      (hname : registry.contains name = true) :
    Makes ⟨.binary l s r, input, c⟩ { d' with handles := (d'.handles.register right).2 }
      ⟨name, [(d'.handles.register right).1], some left⟩

/-- Whether a call in a context is made by a visit that a given one leads to. -/
def CallsBy (v : Visit) (d : Context) (call : Invocation) : Prop :=
  ∃ w, Reaches registry v w ∧ w.Makes registry d call

end

variable {registry : Registry} {v w : Visit} {d : Context} {call : Invocation}

/-- The evaluation of a visit ends with the call that it makes. -/
theorem Makes.evaluate_eq (h : v.Makes registry d call) :
    ∃ handler, registry.get? call.name = some handler ∧
      v.expr.evaluate registry v.input v.context =
        invoke call.name handler call.args call.input d := by
  cases h with
  | command hname h =>
    obtain ⟨handler, hget⟩ := Option.isSome_iff_exists.1 hname
    refine ⟨handler, hget, ?_⟩
    simp only [Expr.evaluate, lookupCommand, hget, pure_bind]
    exact bind_ok h _
  | literal hname =>
    obtain ⟨handler, hget⟩ := Option.isSome_iff_exists.1 hname
    refine ⟨handler, hget, ?_⟩
    simp only [Expr.evaluate, lookupCommand, hget, pure_bind]
  -- Both sides are evaluated and the right one is registered before the handler is called.
  | operator hl hr hs hname =>
    obtain ⟨handler, hget⟩ := Option.isSome_iff_exists.1 hname
    refine ⟨handler, hget, ?_⟩
    simp only [Expr.evaluate, lookupOperator, hs, hget, pure_bind]
    rw [bind_ok hl, bind_ok hr]
    exact bind_ok rfl _

/-- A visit makes the calls of those that it leads to. -/
private theorem CallsBy.of_child (h : Child registry v w) (hcall : w.CallsBy registry d call) :
    v.CallsBy registry d call := by
  obtain ⟨u, hreaches, hmakes⟩ := hcall
  exact ⟨u, hreaches.head h, hmakes⟩

/-- A call that a visit makes itself is made by it. -/
theorem Makes.callsBy (h : v.Makes registry d call) : v.CallsBy registry d call :=
  ⟨v, .refl, h⟩

end Visit

/-! ## Calls along an evaluation -/

section Calls

variable (registry : Registry) (P : Context → Invocation → Prop)

/-- Steps from one context to another, where every call has a property in the context in which it is
    made. -/
inductive CallTrace : Context → Context → Prop
  | nil {c} : CallTrace c c
  | cons {c c' c'' event} (h : Step registry c event c')
      (hcall : ∀ call, event.call? = some call → P c call) (h' : CallTrace c' c'') :
    CallTrace c c''

variable {registry P} {α β : Type} {c c' c'' : Context}

/-- Calls of traces that follow each other. -/
theorem CallTrace.append (h : CallTrace registry P c c') (h' : CallTrace registry P c' c'') :
    CallTrace registry P c c'' := by
  induction h with
  | nil => exact h'
  | cons h hcall _ ih => exact .cons h hcall (ih h')

/-- A weaker property of the calls will do. -/
theorem CallTrace.mono {Q : Context → Invocation → Prop} (h : CallTrace registry P c c')
    (hPQ : ∀ d call, P d call → Q d call) : CallTrace registry Q c c' := by
  induction h with
  | nil => exact .nil
  | cons h hcall _ ih => exact .cons h (fun call heq => hPQ _ call (hcall call heq)) ih

/-- A computation and then what is done with its result. -/
private theorem callTrace_bind {m : EvalM α} {f : α → EvalM β}
    (h : CallTrace registry P c (contextAfter m c))
    (h' : ∀ a d, m c = .ok a d → CallTrace registry P d (contextAfter (f a) d)) :
    CallTrace registry P c (contextAfter (m >>= f) c) := by
  cases hm : m c with
  -- What the second computation does counts only when the first one ends well.
  | ok a d =>
    rw [contextAfter, hm] at h
    rw [contextAfter, bind_ok hm]
    exact h.append (h' a d hm)
  | error e d =>
    rw [contextAfter, hm] at h
    rw [contextAfter, bind_error hm]
    exact h

/-- A value makes no call. -/
private theorem callTrace_pure (a : α) :
    CallTrace registry P c (contextAfter (pure a : EvalM α) c) :=
  .nil

private theorem callTrace_throw {e : EvalError} (h : Refuses registry e) :
    CallTrace registry P c (contextAfter (throw e : EvalM α) c) :=
  .cons (.refused h) nofun .nil

private theorem callTrace_registerImage (image : Image) :
    CallTrace registry P c (contextAfter (registerImage image) c) :=
  .cons (.registered image) nofun .nil

/-- Calling the handler that the registry has under a name. -/
private theorem callTrace_invoke {name : String} {handler : Handler}
    (hget : registry.get? name = some handler) {args : List String} {input : Option Image}
    (h : P c ⟨name, args, input⟩) :
    CallTrace registry P c (contextAfter (invoke name handler args input) c) := by
  have hcall : ∀ call, some (Invocation.mk name args input) = some call → P c call := by
    rintro _ ⟨⟩
    exact h
  rw [contextAfter, invoke]
  cases hrun : handler ⟨args, input, c.handles⟩ c.files with
  | ok image files =>
    exact .cons (@Step.returned _ c ⟨name, args, input⟩ _ _ _ hget hrun) hcall .nil
  | error e files =>
    exact .cons (@Step.failed _ c ⟨name, args, input⟩ _ _ _ hget hrun) hcall .nil

/-- Looking up a name, and going on when it has a handler. -/
private theorem callTrace_lookupCommand {name : String} {f : Handler → EvalM α}
    (h : ∀ handler, registry.get? name = some handler →
      CallTrace registry P c (contextAfter (f handler) c)) :
    CallTrace registry P c (contextAfter (lookupCommand registry name >>= f) c) := by
  cases hget : registry.get? name with
  | none =>
    rw [lookupCommand, hget]
    exact callTrace_throw (.command hget)
  | some handler =>
    rw [lookupCommand, hget, pure_bind]
    exact h handler hget

/-- Looking up an operator, and going on when its command has a handler. -/
private theorem callTrace_lookupOperator {s : String} {f : String × Handler → EvalM α}
    (h : ∀ command handler, Operator.commandOf? s = some command →
      registry.get? command = some handler →
      CallTrace registry P c (contextAfter (f (command, handler)) c)) :
    CallTrace registry P c (contextAfter (lookupOperator registry s >>= f) c) := by
  cases hs : Operator.commandOf? s with
  | none =>
    rw [lookupOperator, hs]
    exact callTrace_throw (.symbol hs)
  | some command =>
    cases hget : registry.get? command with
    | none =>
      simp only [lookupOperator, hs, hget]
      exact callTrace_throw (.operator hs hget)
    | some handler =>
      simp only [lookupOperator, hs, hget, pure_bind]
      exact h command handler hs hget

end Calls

/-! ## Evaluations -/

section Evaluations

variable (registry : Registry)

mutual

/-- Every call of an evaluation is made by a visit that the evaluation leads to. -/
theorem Expr.callsBy : ∀ (e : Expr) (input : Option Image) (c : Context),
    CallTrace registry (Visit.CallsBy registry ⟨e, input, c⟩) c
      (contextAfter (e.evaluate registry input) c)
  | .command name args, input, c => by
    rw [Expr.evaluate]
    apply callTrace_lookupCommand
    intro handler hget
    -- The name is known before the arguments are resolved, so the visits of the arguments are
    -- reached.
    have hname : registry.contains name = true := Option.isSome_iff_exists.2 ⟨handler, hget⟩
    refine callTrace_bind (Arg.listCallsBy args input c ?_) fun texts d htexts => ?_
    · rintro before a after texts d e rfl hbefore ha d' call hcall
      exact hcall.of_child (.argument hname hbefore ha)
    · exact callTrace_invoke hget (Visit.Makes.command hname htexts).callsBy
  | .literal value, input, c => by
    rw [Expr.evaluate]
    apply callTrace_lookupCommand
    intro handler hget
    have hname : registry.contains value = true := Option.isSome_iff_exists.2 ⟨handler, hget⟩
    exact callTrace_invoke hget (Visit.Makes.literal hname).callsBy
  | .group e, input, c => by
    rw [Expr.evaluate]
    exact (Expr.callsBy e input c).mono fun d call hcall => hcall.of_child .group
  | .binary l s r, input, c => by
    rw [Expr.evaluate]
    have hleft := (Expr.callsBy l input c).mono fun d call hcall =>
      Visit.CallsBy.of_child (@Visit.Child.left registry l s r input c) hcall
    refine callTrace_bind hleft fun left d hl => ?_
    have hright := (Expr.callsBy r input d).mono fun d' call hcall =>
      hcall.of_child (@Visit.Child.right registry l s r input c left d hl)
    refine callTrace_bind hright fun right d' hr => ?_
    apply callTrace_lookupOperator
    intro name handler hs hget
    have hname : registry.contains name = true := Option.isSome_iff_exists.2 ⟨handler, hget⟩
    refine callTrace_bind (callTrace_registerImage right) fun handle d'' hregister => ?_
    cases hregister
    exact callTrace_invoke hget (Visit.Makes.operator hl hr hs hname).callsBy
  | .pipeline [], none, c => by
    rw [Expr.evaluate, Expr.evaluateStages]
    exact callTrace_throw .input
  | .pipeline [], some image, c => by
    rw [Expr.evaluate, Expr.evaluateStages]
    exact callTrace_pure image
  | .pipeline (e :: es), input, c => by
    rw [Expr.evaluate, Expr.evaluateStages]
    have hfirst := (Expr.callsBy e input c).mono fun d call hcall =>
      hcall.of_child (@Visit.Child.first registry e es input c)
    -- The later stages are visits of this same pipeline, each behind the stages in front of it.
    refine callTrace_bind hfirst fun image d he => Expr.stagesCallsBy es image d ?_
    rintro before f after image' d' rfl hbefore d'' call hcall
    have hstages : Expr.evaluateStages registry (e :: before) input c = .ok image' d' := by
      rw [Expr.evaluateStages, bind_ok he, hbefore]
    exact hcall.of_child (.later hstages)

/-- So it is for stages behind the first one. -/
theorem Expr.stagesCallsBy : ∀ (es : List Expr) (image : Image) (c : Context)
    {P : Context → Invocation → Prop},
    (∀ before e after image' d, es = before ++ e :: after →
      Expr.evaluateStages registry before (some image) c = .ok image' d →
      ∀ d' call, Visit.CallsBy registry ⟨e, some image', d⟩ d' call → P d' call) →
    CallTrace registry P c (contextAfter (Expr.evaluateStages registry es (some image)) c)
  | [], image, c, P, _ => by
    rw [Expr.evaluateStages]
    exact callTrace_pure image
  | e :: es, image, c, P, hP => by
    rw [Expr.evaluateStages]
    have hfirst := (Expr.callsBy e (some image) c).mono (hP [] e es image c rfl rfl)
    refine callTrace_bind hfirst fun image' d he => Expr.stagesCallsBy es image' d ?_
    intro before f after image'' d' hes hbefore
    have hstages : Expr.evaluateStages registry (e :: before) (some image) c = .ok image'' d' := by
      rw [Expr.evaluateStages, bind_ok he, hbefore]
    exact hP (e :: before) f after image'' d' (congrArg (e :: ·) hes) hstages

/-- So it is for an argument. -/
theorem Arg.callsBy : ∀ (a : Arg) (input : Option Image) (c : Context)
    {P : Context → Invocation → Prop},
    (∀ e, a.inner? = some e →
      ∀ d call, Visit.CallsBy registry ⟨e, input, c⟩ d call → P d call) →
    CallTrace registry P c (contextAfter (a.resolve registry input) c)
  | .literal value, input, c, P, _ => by
    rw [Arg.resolve]
    exact callTrace_pure value
  | .keyed key value, input, c, P, hP => by
    rw [Arg.resolve]
    exact callTrace_bind (Arg.callsBy value input c hP) fun text d _ => callTrace_pure _
  | .nested e, input, c, P, hP => by
    rw [Arg.resolve]
    exact callTrace_bind ((Expr.callsBy e input c).mono (hP e rfl)) fun image d _ =>
      callTrace_registerImage image

/-- So it is for the arguments of a command. -/
theorem Arg.listCallsBy : ∀ (as : List Arg) (input : Option Image) (c : Context)
    {P : Context → Invocation → Prop},
    (∀ before a after texts d e, as = before ++ a :: after →
      Arg.resolveList registry before input c = .ok texts d → a.inner? = some e →
      ∀ d' call, Visit.CallsBy registry ⟨e, input, d⟩ d' call → P d' call) →
    CallTrace registry P c (contextAfter (Arg.resolveList registry as input) c)
  | [], input, c, P, _ => by
    rw [Arg.resolveList]
    exact callTrace_pure []
  | a :: as, input, c, P, hP => by
    rw [Arg.resolveList]
    have hfirst := Arg.callsBy a input c fun e he => hP [] a as [] c e rfl rfl he
    refine callTrace_bind hfirst fun text d ha => ?_
    refine callTrace_bind (Arg.listCallsBy as input d ?_) fun texts d' _ => callTrace_pure _
    intro before b after texts d' e has hbefore hb
    have htexts : Arg.resolveList registry (a :: before) input c = .ok (text :: texts) d' := by
      rw [Arg.resolveList, bind_ok ha, bind_ok hbefore]
      rfl
    exact hP (a :: before) b after _ d' e (congrArg (a :: ·) has) htexts hb

end

end Evaluations

end Tapestry
