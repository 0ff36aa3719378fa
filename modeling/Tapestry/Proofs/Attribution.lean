import Tapestry.Proofs.Anonymous
import Tapestry.Proofs.Lookups
import Tapestry.Proofs.Passing
import Tapestry.Proofs.Pipelines
import Tapestry.Proofs.RoundTrip

/-!
# Where an error comes from

An evaluation stops at its first error. The error is raised by one visit: its handler fails, or what
it looks up is not there, or it is a pipeline without stages and without an image. Every visit that
leads there stops with the same error and in the same context, because nothing on the way catches an
error or changes it. So an evaluation fails with an error exactly when it leads to a visit that
raises it.

A handler does not know the name that it is called by, and leaves it empty. The name is filled in
where the handler is called, so it is that of the innermost command, whose call is the last one.

## Key results

- `Visit.raises_or_child`: an error is raised by a visit itself or by one that it leads to directly
- `Visit.evaluate_eq_error_iff`: an evaluation fails with the errors of the visits that it leads to
- `evaluate_attributes_errors`: an error has the name of the last call
-/

namespace Tapestry

/-! ## Raising an error -/

namespace Visit

section

variable (registry : Registry)

/-- What a visit looks up itself, and the context in which it does. A command and a literal look
    themselves up first, an operator does so behind both operands. -/
inductive LooksUp : Visit → Lookup → Context → Prop
  | command {name args input c} : LooksUp ⟨.command name args, input, c⟩ (.command name) c
  | literal {value input c} : LooksUp ⟨.literal value, input, c⟩ (.command value) c
  | operator {l s r input c left d right d'} (hl : l.evaluate registry input c = .ok left d)
      (hr : r.evaluate registry input d = .ok right d') :
    LooksUp ⟨.binary l s r, input, c⟩ (.operator s) d'

/-- The error that a visit raises itself, and the context that it leaves: that of its handler, with
    the name of the call, or that of its look-up, or the want of an image. -/
inductive Raises : Visit → EvalError → Context → Prop
  | handler {v d call handler raised files} (h : v.Makes registry d call)
      (hget : registry.get? call.name = some handler)
      (hrun : handler ⟨call.args, call.input, d.handles⟩ d.files = .error raised files) :
    Raises v (raised.inCommand call.name)
      { d with files := files, invocations := d.invocations ++ [call] }
  | lookup {v l d error} (h : v.LooksUp registry l d) (hfind : l.find registry = .error error) :
    Raises v error d
  | empty {c} : Raises ⟨.pipeline [], none, c⟩ .noInput c

end

variable {registry : Registry} {v w : Visit} {error : EvalError} {c' : Context}

/-- A visit that raises an error fails with it. -/
theorem Raises.evaluate_eq (h : v.Raises registry error c') :
    v.expr.evaluate registry v.input v.context = .error error c' := by
  cases h with
  -- The handler is the one that the registry has, so it is the one that the call runs.
  | handler hmakes hget hrun =>
    obtain ⟨handler, hget', hevaluate⟩ := hmakes.evaluate_eq
    cases hget.symm.trans hget'
    rw [hevaluate, invoke]
    simp only [hrun]
  -- Nothing was called yet, and the look-up ends the evaluation.
  | lookup h hfind =>
    cases h with
    | command =>
      rw [Expr.evaluate, lookupCommand_bind, hfind]
    | literal =>
      rw [Expr.evaluate, lookupCommand_bind, hfind]
    | operator hl hr =>
      rw [Expr.evaluate, bind_ok hl, bind_ok hr, lookupOperator_bind, hfind]
  | empty => rfl

end Visit

/-- An operator that is found has a command, and the handler of this command. -/
private theorem Lookup.find_operator_eq_ok {registry : Registry} {s name : String}
    {handler : Handler} (h : (operator s).find registry = .ok (name, handler)) :
    Operator.commandOf? s = some name ∧ registry.get? name = some handler := by
  cases hs : Operator.commandOf? s with
  | none =>
    simp only [find, hs] at h
    cases h
  | some command =>
    obtain ⟨rfl, hget⟩ := find_eq_ok h
    simp only [Lookup.name, hs, Option.getD_some] at hget ⊢
    exact ⟨trivial, hget⟩

/-! ## Passing an error on -/

section Passing

variable {registry : Registry} {input : Option Image} {c c' : Context} {error : EvalError}

/-- Stages behind an image fail because one of them does. -/
theorem Expr.exists_stage_of_error {es : List Expr} {image : Image}
    (h : evaluateStages registry es (some image) c = .error error c') :
    ∃ before e after image' d, es = before ++ e :: after ∧
      evaluateStages registry before (some image) c = .ok image' d ∧
      e.evaluate registry (some image') d = .error error c' := by
  -- The induction is on the stages; those before the one that fails go through, each in the context
  -- behind the one before it.
  induction es generalizing image c with
  | nil => exact nomatch h
  | cons e es ih =>
    rw [evaluateStages] at h
    rcases exists_of_bind_error h with hfirst | ⟨image', d, hfirst, hrest⟩
    · exact ⟨[], e, es, image, c, rfl, rfl, hfirst⟩
    · obtain ⟨before, f, after, image'', d', rfl, hbefore, hf⟩ := ih hrest
      refine ⟨e :: before, f, after, image'', d', rfl, ?_, hf⟩
      rw [evaluateStages, bind_ok hfirst, hbefore]

/-- An argument fails because the expression in it does. -/
private theorem Arg.exists_inner_of_error :
    ∀ {a : Arg}, a.resolve registry input c = .error error c' →
    ∃ e, a.inner? = some e ∧ e.evaluate registry input c = .error error c'
  | .literal _, h => nomatch h
  | .keyed _ value, h => by
    rw [Arg.resolve] at h
    rcases exists_of_bind_error h with hvalue | ⟨text, d, -, htext⟩
    · exact Arg.exists_inner_of_error (a := value) hvalue
    -- Giving a keyword its key cannot fail.
    · exact nomatch htext
  | .nested e, h => by
    rw [Arg.resolve] at h
    rcases exists_of_bind_error h with he | ⟨image, d, -, hregister⟩
    · exact ⟨e, rfl, he⟩
    -- Nor can registering an image.
    · exact nomatch hregister

/-- Arguments fail because one of them does. -/
private theorem Arg.exists_argument_of_error {as : List Arg}
    (h : Arg.resolveList registry as input c = .error error c') :
    ∃ before a after texts d, as = before ++ a :: after ∧
      Arg.resolveList registry before input c = .ok texts d ∧
      a.resolve registry input d = .error error c' := by
  -- The induction is on the arguments, as for stages.
  induction as generalizing c with
  | nil => exact nomatch h
  | cons a as ih =>
    rw [Arg.resolveList] at h
    rcases exists_of_bind_error h with hfirst | ⟨text, d, hfirst, hmore⟩
    · exact ⟨[], a, as, [], c, rfl, rfl, hfirst⟩
    · rcases exists_of_bind_error hmore with hrest | ⟨texts, d', -, hcons⟩
      · obtain ⟨before, b, after, texts, d', rfl, hbefore, hb⟩ := ih hrest
        refine ⟨a :: before, b, after, text :: texts, d', rfl, ?_, hb⟩
        rw [Arg.resolveList, bind_ok hfirst, bind_ok hbefore]
        rfl
      -- Putting the texts together cannot fail.
      · exact nomatch hcons

/-- Calling a handler fails because the handler does. -/
private theorem exists_of_invoke_error {name : String} {handler : Handler} {args : List String}
    (h : invoke name handler args input c = .error error c') :
    ∃ raised files, handler ⟨args, input, c.handles⟩ c.files = .error raised files ∧
      error = raised.inCommand name ∧
      c' = { c with files := files, invocations := c.invocations ++ [⟨name, args, input⟩] } := by
  rw [invoke] at h
  split at h
  · cases h
  · next raised files hrun =>
    cases h
    exact ⟨raised, files, hrun, rfl, rfl⟩

/-- An argument fails when the expression in it does. -/
private theorem Arg.resolve_of_error {e : Expr}
    (he : e.evaluate registry input c = .error error c') :
    ∀ {a : Arg}, a.inner? = some e → a.resolve registry input c = .error error c'
  | .literal _, h => nomatch h
  | .keyed _ value, h => by
    rw [Arg.resolve]
    exact bind_error (Arg.resolve_of_error he (a := value) h) _
  | .nested _, rfl => by
    rw [Arg.resolve]
    exact bind_error he _

/-- Arguments fail when the first ones have texts and the next one fails. -/
private theorem Arg.resolveList_of_error {before : List Arg} {texts : List String} {d : Context}
    (hbefore : Arg.resolveList registry before input c = .ok texts d) {a : Arg}
    (ha : a.resolve registry input d = .error error c') (after : List Arg) :
    Arg.resolveList registry (before ++ a :: after) input c = .error error c' := by
  induction before generalizing c texts with
  -- Behind no arguments the one that fails is the first.
  | nil =>
    rw [Arg.resolveList] at hbefore
    cases hbefore
    rw [List.nil_append, Arg.resolveList]
    exact bind_error ha _
  -- The first argument goes through, and the others are resolved in the context that it leaves.
  | cons b before ih =>
    rw [Arg.resolveList] at hbefore
    obtain ⟨text, c'', hb, hrest⟩ := exists_of_bind_ok hbefore
    obtain ⟨texts', d', hmore, hcons⟩ := exists_of_bind_ok hrest
    cases hcons
    rw [List.cons_append, Arg.resolveList, bind_ok hb]
    exact bind_error (ih hmore) _

end Passing

namespace Visit

variable {registry : Registry} {v w : Visit} {error : EvalError} {c' : Context}

/-- A visit fails when one that it leads to directly does, with the same error in the same
    context. -/
theorem Child.evaluate_eq_error (h : Child registry v w)
    (hw : w.expr.evaluate registry w.input w.context = .error error c') :
    v.expr.evaluate registry v.input v.context = .error error c' := by
  cases h with
  | group =>
    rw [Expr.evaluate]
    exact hw
  | left =>
    rw [Expr.evaluate]
    exact bind_error hw _
  -- The right operand is evaluated behind the left one, which goes through.
  | right hl =>
    rw [Expr.evaluate, bind_ok hl]
    exact bind_error hw _
  | first =>
    rw [Expr.evaluate, Expr.evaluateStages]
    exact bind_error hw _
  -- The stages are cut in front of the one that fails, since those before it go through.
  | @later f before e after input c image d hbefore =>
    have hcut := @Expr.evaluateStages_append registry (f :: before) input nofun
    show (Expr.pipeline (f :: before ++ e :: after)).evaluate registry input c = .error error c'
    rw [Expr.evaluate, hcut, bind_ok hbefore, Expr.evaluateStages]
    exact bind_error hw _
  -- The command is there, and the arguments before the failing one go through.
  | argument hname hbefore ha =>
    obtain ⟨handler, hget⟩ := Option.isSome_iff_exists.1 hname
    rw [Expr.evaluate, lookupCommand, hget, pure_bind]
    exact bind_error (Arg.resolveList_of_error hbefore (Arg.resolve_of_error hw ha) _) _

/-- So does every visit that leads there. -/
theorem Reaches.evaluate_eq_error (h : Reaches registry v w)
    (hw : w.expr.evaluate registry w.input w.context = .error error c') :
    v.expr.evaluate registry v.input v.context = .error error c' := by
  induction h with
  | refl => exact hw
  | tail _ hchild ih => exact ih (hchild.evaluate_eq_error hw)

/-- A visit that fails raises the error itself, or one that it leads to directly fails with it. -/
theorem raises_or_child
    (h : v.expr.evaluate registry v.input v.context = .error error c') :
    v.Raises registry error c' ∨
      ∃ w, Child registry v w ∧ w.expr.evaluate registry w.input w.context = .error error c' := by
  obtain ⟨e, input, c⟩ := v
  cases e with
  | command name args =>
    simp only [Expr.evaluate, lookupCommand_bind] at h
    split at h
    · next found handler hfind =>
      obtain ⟨-, hget⟩ := Lookup.find_eq_ok hfind
      have hname : registry.contains name = true := Option.isSome_iff_exists.2 ⟨handler, hget⟩
      -- Either an argument fails, which is a visit of its own, or the handler of the call does.
      rcases exists_of_bind_error h with hargs | ⟨texts, d, htexts, hinvoke⟩
      · obtain ⟨before, a, after, texts, d, rfl, hbefore, ha⟩ :=
          Arg.exists_argument_of_error hargs
        obtain ⟨inner, hinner, hfails⟩ := Arg.exists_inner_of_error ha
        exact .inr ⟨_, .argument hname hbefore hinner, hfails⟩
      · obtain ⟨raised, files, hrun, rfl, rfl⟩ := exists_of_invoke_error hinvoke
        exact .inl (.handler (.command hname htexts) hget hrun)
    · next hfind =>
      cases h
      exact .inl (.lookup .command hfind)
  | literal value =>
    simp only [Expr.evaluate, lookupCommand_bind] at h
    split at h
    · next found handler hfind =>
      obtain ⟨-, hget⟩ := Lookup.find_eq_ok hfind
      have hname : registry.contains value = true := Option.isSome_iff_exists.2 ⟨handler, hget⟩
      obtain ⟨raised, files, hrun, rfl, rfl⟩ := exists_of_invoke_error h
      exact .inl (.handler (.literal hname) hget hrun)
    · next hfind =>
      cases h
      exact .inl (.lookup .literal hfind)
  | group e =>
    rw [Expr.evaluate] at h
    exact .inr ⟨_, .group, h⟩
  | binary l s r =>
    simp only [Expr.evaluate] at h
    rcases exists_of_bind_error h with hl | ⟨left, d, hl, hrest⟩
    · exact .inr ⟨_, .left, hl⟩
    rcases exists_of_bind_error hrest with hr | ⟨right, d', hr, hcall⟩
    · exact .inr ⟨_, .right hl, hr⟩
    -- Both operands go through; what is left is the look-up, the handle of the right one and the
    -- call.
    rw [lookupOperator_bind] at hcall
    split at hcall
    · next found hfind =>
      obtain ⟨hs, hget⟩ := Lookup.find_operator_eq_ok hfind
      obtain ⟨handle, d'', hregister, hinvoke⟩ | ⟨hregister⟩ := Or.symm (exists_of_bind_error hcall)
      · cases hregister
        obtain ⟨raised, files, hrun, rfl, rfl⟩ := exists_of_invoke_error hinvoke
        exact .inl (.handler (.operator hl hr hs (Option.isSome_iff_exists.2 ⟨_, hget⟩)) hget hrun)
      · exact nomatch hregister
    · next hfind =>
      cases hcall
      exact .inl (.lookup (.operator hl hr) hfind)
  | pipeline es =>
    cases es with
    | nil =>
      cases input with
      | none =>
        cases h
        exact .inl .empty
      | some image => exact nomatch h
    | cons e es =>
      rw [Expr.evaluate, Expr.evaluateStages] at h
      rcases exists_of_bind_error h with hfirst | ⟨image, d, hfirst, hrest⟩
      · exact .inr ⟨_, .first, hfirst⟩
      -- The stages in front of the failing one go through.
      · obtain ⟨before, f, after, image', d', rfl, hbefore, hf⟩ :=
          Expr.exists_stage_of_error hrest
        have hstages : Expr.evaluateStages registry (e :: before) input c = .ok image' d' := by
          rw [Expr.evaluateStages, bind_ok hfirst, hbefore]
        exact .inr ⟨_, .later hstages, hf⟩

/-- The expression in an argument is smaller than the argument. -/
private theorem sizeOf_inner_lt : ∀ {a : Arg} {e : Expr}, a.inner? = some e → sizeOf e < sizeOf a
  | .literal _, _, h => nomatch h
  | .keyed key value, e, h => by
    have := sizeOf_inner_lt (a := value) h
    simp only [Arg.keyed.sizeOf_spec]
    omega
  | .nested e, _, rfl => by
    simp only [Arg.nested.sizeOf_spec]
    omega

/-- A visit leads to visits of smaller expressions. -/
private theorem Child.sizeOf_lt (h : Child registry v w) : sizeOf w.expr < sizeOf v.expr := by
  -- What is visited inside is a part of the tree.
  cases h with
  | group | left | right | first =>
    simp only [Expr.group.sizeOf_spec, Expr.binary.sizeOf_spec, Expr.pipeline.sizeOf_spec,
      List.cons.sizeOf_spec]
    omega
  | @later f before e after =>
    have hmem : e ∈ f :: before ++ e :: after := by simp
    have hlt := List.sizeOf_lt_of_mem hmem
    simp only [Expr.pipeline.sizeOf_spec]
    omega
  | @argument name before a after e _ _ _ _ _ _ ha =>
    have hmem : a ∈ before ++ a :: after := by simp
    have hlt := List.sizeOf_lt_of_mem hmem
    have hinner := sizeOf_inner_lt ha
    simp only [Expr.command.sizeOf_spec]
    omega

/-- An evaluation fails with an error exactly when it leads to a visit that raises this error, in
    the context that this visit leaves. -/
theorem evaluate_eq_error_iff (v : Visit) (error : EvalError) (c' : Context) :
    v.expr.evaluate registry v.input v.context = .error error c' ↔
      ∃ w, Reaches registry v w ∧ w.Raises registry error c' := by
  constructor
  · intro h
    -- The error is followed to smaller and smaller expressions, down to the one that raises it.
    induction hn : sizeOf v.expr using Nat.strongRecOn generalizing v with
    | _ n ih =>
      rcases raises_or_child h with hraises | ⟨w, hchild, hw⟩
      · exact ⟨v, .refl, hraises⟩
      · obtain ⟨u, hreaches, hraises⟩ := ih _ (hn ▸ hchild.sizeOf_lt) w hw rfl
        exact ⟨u, hreaches.head hchild, hraises⟩
  · rintro ⟨w, hreaches, hraises⟩
    exact hreaches.evaluate_eq_error hraises.evaluate_eq

/-! ### What happens before -/

/-- What happens between two visits, where one leads to the other directly. -/
theorem Child.exists_trace (h : Child registry v w) :
    ∃ events, Trace registry v.context events w.context := by
  cases h with
  -- Nothing has happened yet where a group, a left operand or a first stage begins.
  | group | left | first => exact ⟨[], .nil⟩
  | right hl =>
    obtain ⟨events, htrace, -⟩ := (Expr.performs registry _ _).ok hl
    exact ⟨events, htrace⟩
  | later hbefore =>
    obtain ⟨events, htrace, -⟩ := (Expr.stagesPerform registry _ _).ok hbefore
    exact ⟨events, htrace⟩
  | argument _ hbefore _ =>
    obtain ⟨events, htrace, -⟩ := (Arg.listPerforms registry _ _).ok hbefore
    exact ⟨events, htrace⟩

/-- What happens between two visits. -/
theorem Reaches.exists_trace (h : Reaches registry v w) :
    ∃ events, Trace registry v.context events w.context := by
  induction h with
  | refl => exact ⟨[], .nil⟩
  | tail _ hchild ih =>
    obtain ⟨events, htrace⟩ := ih
    obtain ⟨later, htrace'⟩ := hchild.exists_trace
    exact ⟨events ++ later, htrace.append htrace'⟩

/-- What happens before a visit makes its call. -/
theorem Makes.exists_trace {d : Context} {call : Invocation} (h : v.Makes registry d call) :
    ∃ events, Trace registry v.context events d := by
  cases h with
  | command _ hargs =>
    obtain ⟨events, htrace, -⟩ := (Arg.listPerforms registry _ _).ok hargs
    exact ⟨events, htrace⟩
  | literal => exact ⟨[], .nil⟩
  | @operator l s r input c left d right d' name hl hr =>
    obtain ⟨events, htrace, -⟩ := (Expr.performs registry _ _).ok hl
    obtain ⟨later, htrace', -⟩ := (Expr.performs registry _ _).ok hr
    exact ⟨_, (htrace.append htrace').append (Step.registered right).trace⟩

end Visit

/-! ## Attribution -/

/-- The error of a look-up is not that of a command. -/
private theorem Lookup.command?_of_find_eq_error {registry : Registry} {l : Lookup}
    {error : EvalError} (h : l.find registry = .error error) : error.command? = none := by
  rcases find_eq_error h with ⟨-, rfl | ⟨s, rfl⟩⟩ | ⟨s, -, -, rfl⟩
  · rfl
  · rfl
  · rfl

/-- What a visit raises when no handler names itself: the error of its handler with the name of the
    call, or the error of its look-up. A pipeline of a well-formed expression has stages, so it does
    not want for an image. -/
private theorem Visit.Raises.cases_of_anonymous {registry : Registry}
    (hregistry : registry.Anonymous)
    {v : Visit} (hv : v.expr.WellFormed) {error : EvalError} {c' : Context}
    (h : v.Raises registry error c') :
    (∃ d call, v.Makes registry d call ∧ error.command? = some call.name ∧ call.name ≠ "" ∧
      ∃ handler raised, registry.get? call.name = some handler ∧
        handler ⟨call.args, call.input, d.handles⟩ d.files = .error raised c'.files ∧
        error = raised.inCommand call.name ∧ c'.invocations = d.invocations ++ [call]) ∨
      error.command? = none ∧ ∃ l, v.LooksUp registry l c' ∧ l.find registry = .error error := by
  cases h with
  | @handler _ d call handler raised files hmakes hget hrun =>
    -- The handler left the name open, and the evaluation filled in that of the call.
    have hraised := hregistry.handlers _ _ hget _ _ _ _ hrun
    have hname : call.name ≠ "" := by
      intro hempty
      rw [hempty, hregistry.get?_empty] at hget
      exact nomatch hget
    exact .inl ⟨d, call, hmakes, EvalError.command?_inCommand hraised _, hname, handler, raised,
      hget, hrun, rfl, rfl⟩
  | @lookup _ l d error hl hfind =>
    exact .inr ⟨Lookup.command?_of_find_eq_error hfind, l, hl, hfind⟩
  -- A well-formed pipeline has stages.
  | empty => exact absurd hv.1 (by simp)

/-- For an expression that a text denotes, and a registry that has no empty name and whose handlers
    do not name themselves, as those of the built-in commands do not: when an evaluation fails with
    the error of a command, the name in it is not empty. It is the name of the last call, which is
    made by an expression that the evaluation leads to and whose handler failed with this error but
    for the name; nothing is called behind it, so it is not that of an enclosing command. When the
    evaluation fails with another error, this is the error of a look-up. Whatever its error is, an
    expression that the evaluation leads to and that fails makes the evaluation fail with the same
    error in the same context. -/
theorem evaluate_attributes_errors {text : String} {e : Expr} (h : parse text = .ok e)
    {registry : Registry} (hregistry : registry.Anonymous) (seed : Option Image) (c : Context) :
    Registry.builtins.Anonymous ∧
    (∀ error c', e.evaluate registry seed c = .error error c' →
      (∀ command, error.command? = some command →
        command ≠ "" ∧
        ∃ w d call before, Visit.Reaches registry ⟨e, seed, c⟩ w ∧ w.Makes registry d call ∧
          call.name = command ∧ c'.invocations = c.invocations ++ before ++ [call] ∧
          ∃ handler raised, registry.get? command = some handler ∧
            handler ⟨call.args, call.input, d.handles⟩ d.files = .error raised c'.files ∧
            error = raised.inCommand command) ∧
      (error.command? = none →
        ∃ w l, Visit.Reaches registry ⟨e, seed, c⟩ w ∧ w.LooksUp registry l c' ∧
          l.find registry = .error error)) ∧
    ∀ w error c', Visit.Reaches registry ⟨e, seed, c⟩ w →
      w.expr.evaluate registry w.input w.context = .error error c' →
      e.evaluate registry seed c = .error error c' := by
  refine ⟨Registry.anonymous_builtins, ?_, fun w error c' hreaches hw =>
    hreaches.evaluate_eq_error hw⟩
  intro error c' hfails
  obtain ⟨w, hreaches, hraises⟩ :=
    (@Visit.evaluate_eq_error_iff registry ⟨e, seed, c⟩ error c').1 hfails
  have hw : w.expr.WellFormed := hreaches.wellFormed (wellFormed_of_parse h)
  rcases hraises.cases_of_anonymous hregistry hw with
    ⟨d, call, hmakes, hcommand, hname, handler, raised, hget, hrun, herror, hcalls⟩ |
    ⟨hnone, l, hl, hfind⟩
  · refine ⟨?_, fun hnone => nomatch hnone.symm.trans hcommand⟩
    intro command hcommand'
    cases hcommand.symm.trans hcommand'
    -- The call is the last one, because the handler fails right away.
    obtain ⟨events, htrace⟩ := hreaches.exists_trace
    obtain ⟨later, htrace'⟩ := hmakes.exists_trace
    have hbefore := (htrace.append htrace').invocations_eq
    rw [hbefore] at hcalls
    exact ⟨hname, w, d, call, _, hreaches, hmakes, rfl, hcalls, handler, raised, hget, hrun, herror⟩
  · refine ⟨fun command hcommand => (nomatch hnone.symm.trans hcommand), fun _ => ?_⟩
    exact ⟨w, l, hreaches, hl, hfind⟩

/-- A factor that is refused inside an argument of `null`, which is never called itself. -/
theorem evaluate_attributes_errors_nested :
    parse "null (zoom 0)" = .ok (.command "null" [.nested (.command "zoom" [.literal "0"])]) ∧
      Registry.builtins.Anonymous ∧
      ∃ c', (Expr.command "null" [.nested (.command "zoom" [.literal "0"])]).evaluate .builtins
          (some (.blank 1 1)) (.fresh ⟨[], []⟩) =
            .error (.badArgument "zoom" (.notPositive "factor")) c' ∧
        ∃ before call, c'.invocations = before ++ [call] ∧ call.name = "zoom" := by
  have hwords : IsWord "null" ∧ IsWord "zoom" := by decide +kernel
  have hwf : (Expr.command "null" [.nested (.command "zoom" [.literal "0"])]).WellFormed :=
    ⟨hwords.1, ⟨hwords.2, trivial, trivial⟩, trivial⟩
  have htext : (Expr.command "null" [.nested (.command "zoom" [.literal "0"])]).render =
      "null (zoom 0)" := by decide +kernel
  have hparse : parse "null (zoom 0)" =
      .ok (.command "null" [.nested (.command "zoom" [.literal "0"])]) := by
    rw [← htext]
    exact Expr.parse_render_eq hwf
  have hrun : ∃ c', (Expr.command "null" [.nested (.command "zoom" [.literal "0"])]).evaluate
      .builtins (some (.blank 1 1)) (.fresh ⟨[], []⟩) =
        .error (.badArgument "zoom" (.notPositive "factor")) c' := ⟨_, rfl⟩
  refine ⟨hparse, Registry.anonymous_builtins, ?_⟩
  obtain ⟨c', hrun⟩ := hrun
  obtain ⟨-, w, d, call, before, -, -, hname, hcalls, -⟩ :=
    ((evaluate_attributes_errors hparse Registry.anonymous_builtins _ _).2.1 _ _ hrun).1 _ rfl
  exact ⟨c', hrun, _, call, hcalls, hname⟩

end Tapestry
