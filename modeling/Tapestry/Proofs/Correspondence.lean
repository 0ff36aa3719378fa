import Mathlib.Data.List.Forall2
import Tapestry.Proofs.Lookups
import Tapestry.Proofs.Trace

/-!
# Evaluations that correspond

An expression is evaluated twice: on two images, in two contexts, with the handlers of two
registries. A `Correspondence` says what is compared: images with images, handles with handles,
files with files, calls with calls, and errors with errors. When the handlers under every name that
is looked up keep the correspondence, both evaluations go through and end in corresponding images,
or both stop with corresponding errors; and the contexts that they leave correspond in any case.

A property of one evaluation is the case in which both sides are the same: images then correspond
when they are equal and have the property. So invariants of an evaluation need no induction of their
own.

## Key results

- `Related.bind`: one computation after the other
- `Expr.related`: evaluations of an expression correspond when its look-ups do
-/

namespace Tapestry

/-! ## Outcomes -/

/-- Whether two computations have related values, or fail with the same error. -/
inductive SameOutcome {ε α α' : Type} (A : α → α' → Prop) : Except ε α → Except ε α' → Prop
  | ok {a a'} (h : A a a') : SameOutcome A (.ok a) (.ok a')
  | error (e) : SameOutcome A (.error e) (.error e)

section Outcomes

variable {ε α α' β β' : Type} {A : α → α' → Prop} {B : β → β' → Prop}

/-- One computation after the other. -/
theorem SameOutcome.bind {x : Except ε α} {x' : Except ε α'} {f : α → Except ε β}
    {f' : α' → Except ε β'} (h : SameOutcome A x x')
    (h' : ∀ a a', A a a' → SameOutcome B (f a) (f' a')) : SameOutcome B (x >>= f) (x' >>= f') := by
  cases h with
  | ok h => exact h' _ _ h
  | error e => exact .error e

/-- The same computation before computations that differ. -/
theorem SameOutcome.bind_same (x : Except ε α) {f : α → Except ε β} {f' : α → Except ε β'}
    (h : ∀ a, x = .ok a → SameOutcome B (f a) (f' a)) : SameOutcome B (x >>= f) (x >>= f') := by
  cases x with
  | ok a => exact h a rfl
  | error e => exact .error e

/-- Related functions of related values. -/
theorem SameOutcome.map {x : Except ε α} {x' : Except ε α'} {f : α → β} {f' : α' → β'}
    (h : SameOutcome A x x') (h' : ∀ a a', A a a' → B (f a) (f' a')) :
    SameOutcome B (x.map f) (x'.map f') := by
  cases h with
  | ok h => exact .ok (h' _ _ h)
  | error e => exact .error e

end Outcomes

/-! ## Results -/

/-- Whether two results are both values or both errors, with related values or errors and related
    states. -/
inductive Related {ε σ α : Type} (E : ε → ε → Prop) (S : σ → σ → Prop) (A : α → α → Prop) :
    EStateM.Result ε σ α → EStateM.Result ε σ α → Prop
  | ok {a a' s s'} (ha : A a a') (hs : S s s') : Related E S A (.ok a s) (.ok a' s')
  | error {e e' s s'} (he : E e e') (hs : S s s') : Related E S A (.error e s) (.error e' s')

section Results

variable {α β : Type} {E : EvalError → EvalError → Prop} {S : Context → Context → Prop}
  {A : α → α → Prop} {B : β → β → Prop} {c c' : Context}

/-- Results and contexts that are related make related outcomes. -/
private theorem related_pure {a a' : α} (ha : A a a') (hc : S c c') :
    Related E S A ((pure a : EvalM α) c) ((pure a' : EvalM α) c') :=
  .ok ha hc

private theorem related_throw {e e' : EvalError} (he : E e e') (hc : S c c') :
    Related E S A ((throw e : EvalM α) c) ((throw e' : EvalM α) c') :=
  .error he hc

/-- One computation after the other: the second ones start from related values and states. -/
theorem Related.bind {m m' : EvalM α} {f f' : α → EvalM β} (h : Related E S A (m c) (m' c'))
    (h' : ∀ a a' d d', A a a' → S d d' → Related E S B (f a d) (f' a' d')) :
    Related E S B ((m >>= f) c) ((m' >>= f') c') := by
  -- The outcomes are taken from the contexts, so that the relation decides which of the two cases
  -- it is.
  generalize hm : m c = r at h
  generalize hm' : m' c' = r' at h
  cases h with
  | ok ha hs =>
    rw [bind_ok hm, bind_ok hm']
    exact h' _ _ _ _ ha hs
  | error he hs =>
    rw [bind_error hm, bind_error hm']
    exact .error he hs

end Results

/-! ## What is compared -/

/-- What two evaluations are compared by. -/
structure Correspondence where
  image : Image → Image → Prop
  handles : HandleTable → HandleTable → Prop
  files : Workspace → Workspace → Prop
  calls : List Invocation → List Invocation → Prop
  error : EvalError → EvalError → Prop

namespace Correspondence

variable (R : Correspondence)

/-- Corresponding images, or no image on either side. -/
def input : Option Image → Option Image → Prop := Option.Rel R.image

/-- Contexts correspond part by part. -/
structure Contexts (c c' : Context) : Prop where
  handles : R.handles c.handles c'.handles
  files : R.files c.files c'.files
  calls : R.calls c.invocations c'.invocations

/-- Results of evaluations correspond. -/
abbrev Results {α : Type} (A : α → α → Prop) :
    EStateM.Result EvalError Context α → EStateM.Result EvalError Context α → Prop :=
  Related R.error R.Contexts A

/-- What an evaluation does by itself keeps a correspondence: it registers images, it records calls,
    and it refuses a pipeline without stages and without an image. -/
structure Kept : Prop where
  register {t t' image image'} (ht : R.handles t t') (himage : R.image image image') :
    (t.register image).1 = (t'.register image').1 ∧
      R.handles (t.register image).2 (t'.register image').2
  record {l l' input input'} (name : String) (args : List String) (hl : R.calls l l')
    (hinput : R.input input input') :
    R.calls (l ++ [⟨name, args, input⟩]) (l' ++ [⟨name, args, input'⟩])
  noInput : R.error .noInput .noInput

/-- Two handlers that are called under a name keep a correspondence: with the same arguments, and
    with inputs, handles and files that correspond, they have corresponding results. Their errors
    are compared once the name is filled in. -/
def Handlers (name : String) (handler handler' : Handler) : Prop :=
  ∀ args input input' t t' files files', R.input input input' → R.handles t t' →
    R.files files files' →
    Related (fun e e' => R.error (e.inCommand name) (e'.inCommand name)) R.files R.image
      (handler ⟨args, input, t⟩ files) (handler' ⟨args, input', t'⟩ files')

/-- The answers of two registries to a look-up correspond: both find handlers that keep the
    correspondence, or neither finds one. -/
inductive Finds (registry registry' : Registry) (l : Lookup) : Prop
  | found {name handler handler'} (h : l.find registry = .ok (name, handler))
      (h' : l.find registry' = .ok (name, handler')) (hh : R.Handlers name handler handler')
  | missing {e e'} (h : l.find registry = .error e) (h' : l.find registry' = .error e')
      (he : R.error e e')

/-- Registries whose handlers correspond name by name answer every look-up alike. -/
theorem finds_of_rel {R : Correspondence} {registry registry' : Registry}
    (hget : ∀ name, Option.Rel (R.Handlers name) (registry.get? name) (registry'.get? name))
    (he : ∀ e, R.error e e) (l : Lookup) : R.Finds registry registry' l := by
  -- A name has a handler in both registries or in neither.
  have hname (name : String) : (registry.get? name = none ∧ registry'.get? name = none) ∨
      ∃ handler handler', registry.get? name = some handler ∧
        registry'.get? name = some handler' ∧ R.Handlers name handler handler' := by
    have h := hget name
    generalize registry.get? name = found at h
    generalize registry'.get? name = found' at h
    cases h with
    | none => exact .inl ⟨rfl, rfl⟩
    | some hh => exact .inr ⟨_, _, rfl, rfl, hh⟩
  cases l with
  | command name =>
    rcases hname name with ⟨h, h'⟩ | ⟨handler, handler', h, h', hh⟩
    · exact .missing (by simp only [Lookup.find, h]) (by simp only [Lookup.find, h'])
        (he (.unknownCommand name))
    · exact .found (by simp only [Lookup.find, h]) (by simp only [Lookup.find, h']) hh
  | operator symbol =>
    -- An operator without a command is refused in both before any handler is looked for.
    cases hs : Operator.commandOf? symbol with
    | none =>
      exact .missing (by simp only [Lookup.find, hs]) (by simp only [Lookup.find, hs])
        (he (.unknownOperator symbol))
    | some name =>
      rcases hname name with ⟨h, h'⟩ | ⟨handler, handler', h, h', hh⟩
      · exact .missing (by simp only [Lookup.find, hs, h])
          (by simp only [Lookup.find, hs, h']) (he (.operatorNotImplemented symbol name))
      · exact .found (by simp only [Lookup.find, hs, h]) (by simp only [Lookup.find, hs, h']) hh

end Correspondence

/-- Registries that are made of corresponding handlers, name by name, find corresponding ones. -/
theorem Registry.rel_get?_ofList {H : String → Handler → Handler → Prop}
    {commands commands' : List (String × Handler)}
    (h : List.Forall₂ (fun p p' => p.1 = p'.1 ∧ H p.1 p.2 p'.2) commands commands')
    (name : String) :
    Option.Rel (H name) ((ofList commands).get? name) ((ofList commands').get? name) := by
  -- The registries that the handlers are inserted into find corresponding ones to begin with.
  suffices hfold : ∀ r r' : Registry, Option.Rel (H name) (r.get? name) (r'.get? name) →
      Option.Rel (H name)
        ((commands.foldl (fun r p => r.insert p.1 p.2) r).get? name)
        ((commands'.foldl (fun r p => r.insert p.1 p.2) r').get? name) from
    hfold _ _ .none
  induction h with
  | nil => exact fun _ _ hr => hr
  | @cons p p' commands commands' hp _ ih =>
    intro r r' hr
    obtain ⟨hname, hh⟩ := hp
    apply ih
    rw [Registry.get?_insert, Registry.get?_insert, ← hname]
    by_cases heq : name = p.1
    · rw [if_pos heq, if_pos heq, heq]
      exact .some hh
    · rw [if_neg heq, if_neg heq]
      exact hr

/-! ## Steps of an evaluation -/

section Steps

variable {R : Correspondence} {registry registry' : Registry} {c c' : Context} {β : Type}
  {B : β → β → Prop}

/-- Registering corresponding images gives the same handle. -/
private theorem related_registerImage (hR : R.Kept) {image image' : Image}
    (himage : R.image image image') (hc : R.Contexts c c') :
    R.Results Eq (registerImage image c) (registerImage image' c') := by
  obtain ⟨hhandle, htable⟩ := hR.register hc.handles himage
  exact .ok hhandle ⟨htable, hc.files, hc.calls⟩

/-- Calling handlers that keep the correspondence. -/
private theorem related_invoke (hR : R.Kept) {name : String} {handler handler' : Handler}
    (hh : R.Handlers name handler handler') (args : List String) {input input' : Option Image}
    (hinput : R.input input input') (hc : R.Contexts c c') :
    R.Results R.image (invoke name handler args input c)
      (invoke name handler' args input' c') := by
  -- The call is recorded in both contexts before the handlers run.
  have hcalls := hR.record name args hc.calls hinput
  have hresult := hh args input input' _ _ _ _ hinput hc.handles hc.files
  unfold invoke
  simp only
  generalize handler ⟨args, input, c.handles⟩ c.files = r at hresult
  generalize handler' ⟨args, input', c'.handles⟩ c'.files = r' at hresult
  cases hresult with
  | ok himage hfiles => exact .ok himage ⟨hc.handles, hfiles, hcalls⟩
  | error he hfiles => exact .error he ⟨hc.handles, hfiles, hcalls⟩

/-- Looking up a command, and going on with the handlers that are found. -/
private theorem related_lookupCommand {name : String} {f f' : Handler → EvalM β}
    (hfinds : R.Finds registry registry' (.command name)) (hc : R.Contexts c c')
    (h : ∀ handler handler', R.Handlers name handler handler' →
      R.Results B (f handler c) (f' handler' c')) :
    R.Results B ((lookupCommand registry name >>= f) c)
      ((lookupCommand registry' name >>= f') c') := by
  rw [lookupCommand_bind, lookupCommand_bind]
  cases hfinds with
  | found hfound hfound' hh =>
    -- The look-up changed nothing, so the contexts are those from before.
    obtain ⟨rfl, -⟩ := Lookup.find_eq_ok hfound
    rw [hfound, hfound']
    exact h _ _ hh
  | missing hmissing hmissing' he =>
    rw [hmissing, hmissing']
    exact .error he hc

/-- Looking up an operator likewise. -/
private theorem related_lookupOperator {s : String} {f f' : String × Handler → EvalM β}
    (hfinds : R.Finds registry registry' (.operator s)) (hc : R.Contexts c c')
    (h : ∀ name handler handler', R.Handlers name handler handler' →
      R.Results B (f (name, handler) c) (f' (name, handler') c')) :
    R.Results B ((lookupOperator registry s >>= f) c)
      ((lookupOperator registry' s >>= f') c') := by
  -- As for commands; the command of the operator is found along the way.
  rw [lookupOperator_bind, lookupOperator_bind]
  cases hfinds with
  | found hfound hfound' hh =>
    rw [hfound, hfound']
    exact h _ _ _ hh
  | missing hmissing hmissing' he =>
    rw [hmissing, hmissing']
    exact .error he hc

end Steps

/-! ## Evaluations -/

section Evaluations

variable {R : Correspondence} {registry registry' : Registry}

mutual

/-- Evaluations of an expression correspond when everything that it looks up is found alike. -/
theorem Expr.related (hR : R.Kept) :
    ∀ (e : Expr) {input input' : Option Image} {c c' : Context},
      (∀ l ∈ e.lookups, R.Finds registry registry' l) → R.input input input' → R.Contexts c c' →
      R.Results R.image (e.evaluate registry input c) (e.evaluate registry' input' c')
  | .command name args, input, input', c, c', hfinds, hinput, hc => by
    rw [Expr.lookups, List.forall_mem_append, List.forall_mem_singleton] at hfinds
    rw [Expr.evaluate, Expr.evaluate]
    refine related_lookupCommand hfinds.2 hc fun handler handler' hh => ?_
    refine (Arg.listRelated hR args hfinds.1 hinput hc).bind ?_
    rintro texts _ d d' rfl hd
    exact related_invoke hR hh texts hinput hd
  | .literal value, input, input', c, c', hfinds, hinput, hc => by
    rw [Expr.lookups, List.forall_mem_singleton] at hfinds
    rw [Expr.evaluate, Expr.evaluate]
    exact related_lookupCommand hfinds hc fun handler handler' hh =>
      related_invoke hR hh [] hinput hc
  | .pipeline stages, input, input', c, c', hfinds, hinput, hc => by
    rw [Expr.lookups] at hfinds
    rw [Expr.evaluate, Expr.evaluate]
    exact Expr.stagesRelated hR stages hfinds hinput hc
  | .group e, input, input', c, c', hfinds, hinput, hc => by
    rw [Expr.lookups] at hfinds
    rw [Expr.evaluate, Expr.evaluate]
    exact Expr.related hR e hfinds hinput hc
  | .binary l s r, input, input', c, c', hfinds, hinput, hc => by
    rw [Expr.lookups, List.forall_mem_append, List.forall_mem_append,
      List.forall_mem_singleton] at hfinds
    obtain ⟨⟨hl, hr⟩, hs⟩ := hfinds
    rw [Expr.evaluate, Expr.evaluate]
    -- Both operands come first, then the operator is looked up, and the right image is registered.
    refine (Expr.related hR l hl hinput hc).bind fun left left' d d' hleft hd => ?_
    refine (Expr.related hR r hr hinput hd).bind fun right right' d d' hright hd => ?_
    refine related_lookupOperator hs hd fun name handler handler' hh => ?_
    refine (related_registerImage hR hright hd).bind ?_
    rintro handle _ d d' rfl hd
    exact related_invoke hR hh [handle] (.some hleft) hd

/-- The stages of a pipeline, one after the other, each with the image of the one before. -/
theorem Expr.stagesRelated (hR : R.Kept) :
    ∀ (es : List Expr) {input input' : Option Image} {c c' : Context},
      (∀ l ∈ Expr.listLookups es, R.Finds registry registry' l) → R.input input input' →
      R.Contexts c c' →
      R.Results R.image (Expr.evaluateStages registry es input c)
        (Expr.evaluateStages registry' es input' c')
  | [], _, _, c, c', _, .none, hc => by
    rw [Expr.evaluateStages, Expr.evaluateStages]
    exact related_throw hR.noInput hc
  | [], _, _, c, c', _, .some himage, hc => by
    rw [Expr.evaluateStages, Expr.evaluateStages]
    exact related_pure himage hc
  -- The induction is on the stages: the image of the first one is the input of the next.
  | e :: es, input, input', c, c', hfinds, hinput, hc => by
    rw [Expr.listLookups, List.forall_mem_append] at hfinds
    rw [Expr.evaluateStages, Expr.evaluateStages]
    exact (Expr.related hR e hfinds.1 hinput hc).bind fun image image' d d' himage hd =>
      Expr.stagesRelated hR es hfinds.2 (.some himage) hd

/-- An argument is resolved to the same text: a nested expression registers related images under the
    same handle. -/
theorem Arg.related (hR : R.Kept) :
    ∀ (a : Arg) {input input' : Option Image} {c c' : Context},
      (∀ l ∈ a.lookups, R.Finds registry registry' l) → R.input input input' → R.Contexts c c' →
      R.Results Eq (a.resolve registry input c) (a.resolve registry' input' c')
  | .literal value, input, input', c, c', _, _, hc => by
    rw [Arg.resolve, Arg.resolve]
    exact related_pure rfl hc
  | .keyed key value, input, input', c, c', hfinds, hinput, hc => by
    rw [Arg.lookups] at hfinds
    rw [Arg.resolve, Arg.resolve]
    refine (Arg.related hR value hfinds hinput hc).bind ?_
    -- A text that was resolved is the same in both.
    rintro text _ d d' rfl hd
    exact related_pure rfl hd
  | .nested e, input, input', c, c', hfinds, hinput, hc => by
    rw [Arg.lookups] at hfinds
    rw [Arg.resolve, Arg.resolve]
    -- The image of the expression is registered in both tables.
    exact (Expr.related hR e hfinds hinput hc).bind fun image image' d d' himage hd =>
      related_registerImage hR himage hd

/-- The arguments of a call, one after the other. -/
theorem Arg.listRelated (hR : R.Kept) :
    ∀ (as : List Arg) {input input' : Option Image} {c c' : Context},
      (∀ l ∈ Arg.listLookups as, R.Finds registry registry' l) → R.input input input' →
      R.Contexts c c' →
      R.Results Eq (Arg.resolveList registry as input c)
        (Arg.resolveList registry' as input' c')
  | [], input, input', c, c', _, _, hc => by
    rw [Arg.resolveList, Arg.resolveList]
    exact related_pure rfl hc
  | a :: as, input, input', c, c', hfinds, hinput, hc => by
    rw [Arg.listLookups, List.forall_mem_append] at hfinds
    rw [Arg.resolveList, Arg.resolveList]
    refine (Arg.related hR a hfinds.1 hinput hc).bind ?_
    -- The text of the first argument is the same in both, and so are those behind it.
    rintro text _ d d' rfl hd
    refine (Arg.listRelated hR as hfinds.2 hinput hd).bind ?_
    rintro texts _ d d' rfl hd
    exact related_pure rfl hd

end

end Evaluations

end Tapestry
