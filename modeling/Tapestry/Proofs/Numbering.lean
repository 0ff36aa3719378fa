import Tapestry.Proofs.Trace
import Tapestry.Proofs.Uniform

/-!
# The numbers of handles do not matter

An expression is evaluated twice, in two contexts that may hold any handles already. The runs make
handles with different numbers for the same images, and hand them to handlers. When those treat
alike calls alike, the runs stay in parallel: both give the same image, or both fail alike, and no
handle is unknown to the run that made it.

`Parallel` relates the results of two computations. The values of both are related in the tables
that they leave behind, and these have all earlier handles, so that texts which were alike before
still are.

## Key results

- `Parallel.bind`: one computation after the other
- `Expr.parallel`: the evaluations of an expression in two contexts are parallel
- `evaluate_builtins_parallel`: with the built-in commands they differ in no more than the details
  of a fault
-/

namespace Tapestry

/-! ## The texts of an expression -/

mutual

/-- All texts in an expression: names, infix symbols, keywords and literals. -/
def Expr.texts : Expr → List String
  | .command name args => name :: Arg.listTexts args
  | .pipeline stages => Expr.listTexts stages
  | .binary l s r => l.texts ++ s :: r.texts
  | .group e => e.texts
  | .literal v => [v]

def Expr.listTexts : List Expr → List String
  | [] => []
  | e :: es => e.texts ++ Expr.listTexts es

def Arg.texts : Arg → List String
  | .literal v => [v]
  | .keyed key value => key :: value.texts
  | .nested e => e.texts

def Arg.listTexts : List Arg → List String
  | [] => []
  | a :: as => a.texts ++ Arg.listTexts as

end

/-! ## Parallel computations -/

/-- Whether the results of two computations, started in two contexts, are parallel: related values
    in contexts that have the handles of the first ones, or alike errors. -/
inductive Parallel {α : Type} (R : HandleTable → HandleTable → α → α → Prop) (c c' : Context) :
    EStateM.Result EvalError Context α → EStateM.Result EvalError Context α → Prop
  | ok {a a' d d'} (hd : c.handles.Extends d.handles) (hd' : c'.handles.Extends d'.handles)
      (h : R d.handles d'.handles a a') : Parallel R c c' (.ok a d) (.ok a' d')
  | error {e e' d d'} (h : e.Alike e') : Parallel R c c' (.error e d) (.error e' d')

/-- The same image in both tables. -/
def SameImage (_ _ : HandleTable) (image image' : Image) : Prop := image = image'

/-- Texts that are alike one by one. -/
def AllAlike (t t' : HandleTable) : List String → List String → Prop := List.Forall₂ (Alike t t')

section Parallel

variable {α β : Type} {R : HandleTable → HandleTable → α → α → Prop}
  {S : HandleTable → HandleTable → β → β → Prop} {c c' : Context}

/-- Values that are related in two tables are parallel results, since nothing is registered. -/
private theorem parallel_pure {a a' : α} (h : R c.handles c'.handles a a') :
    Parallel R c c' ((pure a : EvalM α) c) ((pure a' : EvalM α) c') :=
  .ok (.refl _) (.refl _) h

/-- An error that speaks of no handle is the same in any context. -/
private theorem parallel_throw {e : EvalError}
    (h : ∀ command handle, e ≠ .unknownHandle command handle) :
    Parallel R c c' ((throw e : EvalM α) c) ((throw e : EvalM α) c') :=
  .error (.same h)

/-- One computation after the other. The second one starts in contexts that have the handles of the
    first contexts. -/
theorem Parallel.bind {m m' : EvalM α} {f f' : α → EvalM β} (h : Parallel R c c' (m c) (m' c'))
    (h' : ∀ a a' d d', c.handles.Extends d.handles → c'.handles.Extends d'.handles →
      R d.handles d'.handles a a' → Parallel S d d' (f a d) (f' a' d')) :
    Parallel S c c' ((m >>= f) c) ((m' >>= f') c') := by
  generalize hm : m c = r at h
  generalize hm' : m' c' = r' at h
  cases h with
  | error h =>
    rw [bind_error hm, bind_error hm']
    exact .error h
  | @ok a a' d d' hd hd' h =>
    rw [bind_ok hm, bind_ok hm']
    have hsecond := h' a a' d d' hd hd' h
    generalize f a d = s at hsecond
    generalize f' a' d' = s' at hsecond
    -- Only where both first runs end well do the second ones start, and then from contexts that
    -- hold all the handles of before.
    cases hsecond with
    | error h => exact .error h
    | ok hd₂ hd₂' h => exact .ok (hd.trans hd₂) (hd'.trans hd₂') h

/-- Registering an image in both contexts gives alike handles. -/
private theorem parallel_registerImage (image : Image) :
    Parallel Alike c c' (registerImage image c) (registerImage image c') :=
  .ok (c.handles.extends_register image) (c'.handles.extends_register image)
    (alike_register image)

/-- A handler that treats alike calls alike is called with alike texts. -/
private theorem parallel_invoke {name : String} {handler : Handler} (hhandler : handler.Uniform)
    {args args' : List String} (h : AllAlike c.handles c'.handles args args')
    (input : Option Image) :
    Parallel SameImage c c' (invoke name handler args input c)
      (invoke name handler args' input c') := by
  obtain ⟨f, rfl, hf⟩ := hhandler
  have hagree := hf _ _ _ _ input h
  rw [invoke, invoke]
  simp only [Handler.ofFunction]
  generalize f ⟨args, input, c.handles⟩ = r at hagree
  generalize f ⟨args', input, c'.handles⟩ = r' at hagree
  cases hagree with
  | ok h => exact .ok (.refl _) (.refl _) h
  | error h => exact .error (h.inCommand name)

end Parallel

/-! ## Parallel evaluations -/

/-- Whether the handlers of a registry with one of these names treat alike calls alike. -/
def Registry.UniformOn (registry : Registry) (names : List String) : Prop :=
  ∀ name ∈ names, ∀ handler, registry.get? name = some handler → handler.Uniform

section Evaluation

variable {registry : Registry} {β : Type} {S : HandleTable → HandleTable → β → β → Prop}
  {c c' : Context}

/-- A registry is uniform on two lists of names when it is on each. -/
theorem Registry.uniformOn_append {names more : List String} :
    registry.UniformOn (names ++ more) ↔ registry.UniformOn names ∧ registry.UniformOn more :=
  List.forall_mem_append

/-- Looking up a name, and going on when it has a handler. -/
private theorem parallel_lookupCommand {name : String} {f f' : Handler → EvalM β}
    (h : ∀ handler, registry.get? name = some handler →
      Parallel S c c' (f handler c) (f' handler c')) :
    Parallel S c c' ((lookupCommand registry name >>= f) c)
      ((lookupCommand registry name >>= f') c') := by
  cases hget : registry.get? name with
  | none =>
    rw [lookupCommand, hget]
    exact parallel_throw (by simp)
  | some handler =>
    rw [lookupCommand, hget]
    exact h handler hget

/-- Looking up an operator, and going on when its command has a handler. -/
private theorem parallel_lookupOperator {s : String} {f f' : String × Handler → EvalM β}
    (h : ∀ command handler, Operator.commandOf? s = some command →
      registry.get? command = some handler →
      Parallel S c c' (f (command, handler) c) (f' (command, handler) c')) :
    Parallel S c c' ((lookupOperator registry s >>= f) c)
      ((lookupOperator registry s >>= f') c') := by
  cases hs : Operator.commandOf? s with
  | none =>
    rw [lookupOperator, hs]
    exact parallel_throw (by simp)
  | some command =>
    cases hget : registry.get? command with
    | none =>
      simp only [lookupOperator, hs, hget]
      exact parallel_throw (by simp)
    | some handler =>
      simp only [lookupOperator, hs, hget]
      exact h command handler hs hget

mutual

/-- The evaluations of an expression in two contexts are parallel, when its texts are plain and the
    handlers of its names treat alike calls alike. -/
theorem Expr.parallel :
    ∀ (e : Expr) (input : Option Image) (c c' : Context), (∀ s ∈ e.texts, Plain s) →
      registry.UniformOn e.commandNames →
      Parallel SameImage c c' (e.evaluate registry input c) (e.evaluate registry input c')
  | .command name args, input, c, c', hplain, huniform => by
    rw [Expr.texts] at hplain
    rw [Expr.commandNames, Registry.uniformOn_append] at huniform
    rw [Expr.evaluate]
    refine parallel_lookupCommand fun handler hget => ?_
    have hhandler : handler.Uniform := huniform.2 name List.mem_cons_self handler hget
    -- Handles are named after their numbers, so the texts of the arguments need only be alike.
    refine (Arg.listParallel args input c c' (List.forall_mem_cons.1 hplain).2 huniform.1).bind ?_
    intro texts texts' d d' _ _ htexts
    exact parallel_invoke hhandler htexts input
  | .literal value, input, c, c', _, huniform => by
    rw [Expr.commandNames] at huniform
    rw [Expr.evaluate]
    refine parallel_lookupCommand fun handler hget => ?_
    exact parallel_invoke (huniform value List.mem_cons_self handler hget) .nil input
  | .pipeline stages, input, c, c', hplain, huniform => by
    rw [Expr.texts] at hplain
    rw [Expr.commandNames] at huniform
    rw [Expr.evaluate]
    exact Expr.stagesParallel stages input c c' hplain huniform
  | .group e, input, c, c', hplain, huniform => by
    rw [Expr.texts] at hplain
    rw [Expr.commandNames] at huniform
    rw [Expr.evaluate]
    exact Expr.parallel e input c c' hplain huniform
  | .binary l s r, input, c, c', hplain, huniform => by
    rw [Expr.texts, List.forall_mem_append, List.forall_mem_cons] at hplain
    rw [Expr.commandNames, Registry.uniformOn_append, Registry.uniformOn_append] at huniform
    obtain ⟨hl, -, hr⟩ := hplain
    obtain ⟨⟨hul, hur⟩, hus⟩ := huniform
    rw [Expr.evaluate]
    refine (Expr.parallel l input c c' hl hul).bind ?_
    -- Both sides give the same image in both runs; the handle of the right one may differ in its
    -- number.
    rintro left _ d d' _ _ rfl
    refine (Expr.parallel r input d d' hr hur).bind ?_
    rintro right _ d d' _ _ rfl
    refine parallel_lookupOperator fun command handler hs hget => ?_
    rw [hs] at hus
    have hhandler : handler.Uniform := hus command List.mem_cons_self handler hget
    refine (parallel_registerImage right).bind ?_
    intro handle handle' d d' _ _ hhandle
    exact parallel_invoke hhandler (.cons hhandle .nil) (some left)

/-- Stages run in parallel: each gets the same image on both sides. -/
theorem Expr.stagesParallel :
    ∀ (es : List Expr) (input : Option Image) (c c' : Context),
      (∀ s ∈ Expr.listTexts es, Plain s) → registry.UniformOn (Expr.listCommandNames es) →
      Parallel SameImage c c' (Expr.evaluateStages registry es input c)
        (Expr.evaluateStages registry es input c')
  | [], none, c, c', _, _ => by
    rw [Expr.evaluateStages]
    exact parallel_throw (by simp [EvalError.noInput])
  | [], some image, c, c', _, _ => by
    rw [Expr.evaluateStages]
    exact parallel_pure rfl
  | e :: es, input, c, c', hplain, huniform => by
    rw [Expr.listTexts, List.forall_mem_append] at hplain
    rw [Expr.listCommandNames, Registry.uniformOn_append] at huniform
    rw [Expr.evaluateStages]
    refine (Expr.parallel e input c c' hplain.1 huniform.1).bind ?_
    rintro image _ d d' _ _ rfl
    exact Expr.stagesParallel es (some image) d d' hplain.2 huniform.2

/-- An argument is resolved to texts that are alike: the same text, or the handles of one image. -/
theorem Arg.parallel :
    ∀ (a : Arg) (input : Option Image) (c c' : Context), (∀ s ∈ a.texts, Plain s) →
      registry.UniformOn a.commandNames →
      Parallel Alike c c' (a.resolve registry input c) (a.resolve registry input c')
  | .literal value, input, c, c', hplain, _ => by
    rw [Arg.texts] at hplain
    rw [Arg.resolve]
    exact parallel_pure (.plain (hplain value List.mem_cons_self))
  | .keyed key value, input, c, c', hplain, huniform => by
    rw [Arg.texts, List.forall_mem_cons] at hplain
    rw [Arg.commandNames] at huniform
    rw [Arg.resolve]
    refine (Arg.parallel value input c c' hplain.2 huniform).bind ?_
    intro text text' d d' _ _ htext
    exact parallel_pure (.keyed hplain.1 htext)
  | .nested e, input, c, c', hplain, huniform => by
    rw [Arg.texts] at hplain
    rw [Arg.commandNames] at huniform
    rw [Arg.resolve]
    refine (Expr.parallel e input c c' hplain huniform).bind ?_
    rintro image _ d d' _ _ rfl
    exact parallel_registerImage image

/-- And so are arguments, where a handle of the first ones is still one of that image behind the
    others. -/
theorem Arg.listParallel :
    ∀ (as : List Arg) (input : Option Image) (c c' : Context),
      (∀ s ∈ Arg.listTexts as, Plain s) → registry.UniformOn (Arg.listCommandNames as) →
      Parallel AllAlike c c' (Arg.resolveList registry as input c)
        (Arg.resolveList registry as input c')
  | [], input, c, c', _, _ => by
    rw [Arg.resolveList]
    exact parallel_pure .nil
  | a :: as, input, c, c', hplain, huniform => by
    rw [Arg.listTexts, List.forall_mem_append] at hplain
    rw [Arg.listCommandNames, Registry.uniformOn_append] at huniform
    rw [Arg.resolveList]
    refine (Arg.parallel a input c c' hplain.1 huniform.1).bind ?_
    intro text text' d d' _ _ htext
    refine (Arg.listParallel as input d d' hplain.2 huniform.2).bind ?_
    -- More handles may have been made meanwhile, and the first text is still alike.
    intro texts texts' d d' hd hd' htexts
    exact parallel_pure (.cons (htext.mono hd hd') htexts)

end

end Evaluation

/-! ## The built-in commands -/

/-- An alike error is about no unknown handle. -/
theorem EvalError.Alike.ne_unknownHandle {e e' : EvalError} (h : e.Alike e')
    (command handle : String) :
    e ≠ .unknownHandle command handle ∧ e' ≠ .unknownHandle command handle := by
  cases h with
  | same h => exact ⟨h command handle, h command handle⟩
  | badArgument => simp

/-- Without `save`, the built-in commands do not show how handles are numbered. When no text of an
    expression holds the start of a handle, its evaluations in two contexts, whatever handles and
    files these have, give the same image, or fail with the same error up to the details of what is
    wrong with an argument of the same command. Neither finds a handle unknown. -/
theorem evaluate_builtins_parallel {e : Expr} (hplain : ∀ s ∈ e.texts, Plain s)
    (hsave : "save" ∉ e.commandNames) (input : Option Image) (c c' : Context) :
    (∃ image d d', e.evaluate .builtins input c = .ok image d ∧
      e.evaluate .builtins input c' = .ok image d') ∨
    (∃ error error' d d', e.evaluate .builtins input c = .error error d ∧
      e.evaluate .builtins input c' = .error error' d' ∧ error.Alike error' ∧
      ∀ command handle,
        error ≠ .unknownHandle command handle ∧ error' ≠ .unknownHandle command handle) := by
  have huniform : Registry.builtins.UniformOn e.commandNames := by
    intro name hname handler hget
    refine Registry.uniform_builtins hget ?_
    rintro rfl
    exact hsave hname
  have hparallel := e.parallel input c c' hplain huniform
  generalize e.evaluate .builtins input c = r at hparallel
  generalize e.evaluate .builtins input c' = r' at hparallel
  cases hparallel with
  | ok _ _ h =>
    cases h
    exact .inl ⟨_, _, _, rfl, rfl⟩
  | error h => exact .inr ⟨_, _, _, _, rfl, rfl, h, h.ne_unknownHandle⟩

/-- A sum in a context without handles, and in one where the next handle is the eighth. -/
theorem evaluate_builtins_parallel_sum :
    ∃ image d d',
      (Expr.binary (.literal "null") "+" (.literal "null")).evaluate .builtins
        (some (.blank 1 1)) ⟨.empty, ⟨[], []⟩, []⟩ = .ok image d ∧
      (Expr.binary (.literal "null") "+" (.literal "null")).evaluate .builtins
        (some (.blank 1 1)) ⟨⟨[], 7⟩, ⟨[], []⟩, []⟩ = .ok image d' := by
  have hplain : ∀ s ∈ (Expr.binary (.literal "null") "+" (.literal "null")).texts, Plain s := by
    unfold Plain
    decide
  have hok : (Expr.binary (.literal "null") "+" (.literal "null")).evaluate .builtins
      (some (.blank 1 1)) ⟨.empty, ⟨[], []⟩, []⟩ = .ok (.blank 1 1)
        ⟨⟨[("@img:0", .blank 1 1)], 1⟩, ⟨[], []⟩, [⟨"null", [], some (.blank 1 1)⟩,
          ⟨"null", [], some (.blank 1 1)⟩, ⟨"op_add", ["@img:0"], some (.blank 1 1)⟩]⟩ := rfl
  rcases evaluate_builtins_parallel hplain (by decide) (some (.blank 1 1))
    ⟨.empty, ⟨[], []⟩, []⟩ ⟨⟨[], 7⟩, ⟨[], []⟩, []⟩ with h | ⟨_, _, _, _, herror, -⟩
  · exact h
  · cases hok.symm.trans herror

end Tapestry
