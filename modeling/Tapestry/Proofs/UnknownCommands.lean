import Tapestry.Command.Transform
import Tapestry.Proofs.Correspondence
import Tapestry.Proofs.RoundTrip

/-!
# Unknown commands

`unknownCommands` lists, without evaluating anything, the names of an expression that a registry
cannot look up. An evaluation finds such a name in the middle of its work: a command before its
arguments, the command of an operator behind both operands. The list and the evaluation agree as
long as no handler fails with the error of a look-up.

An evaluation that goes through has called every name, so that none is missing; and one that fails
in a look-up has looked up a name of the expression.

## Key results

- `Collected.foldl`: what is collected of a list of names
- `mem_unknownCommands`, `pairwise_unknownCommands`: what is in the list, and in which order
- `error_of_evaluate`: the errors of an evaluation come from handlers and from look-ups
- `unknownCommands_agrees_with_evaluate`: the list agrees with every evaluation
-/

namespace Tapestry

/-! ## The list -/

/-- What has been collected of the names that are done: those that pass a test, each where it occurs
    first. -/
structure Collected (p : String → Bool) (done seen : List String) : Prop where
  mem : ∀ n, n ∈ seen ↔ n ∈ done ∧ p n = true
  sorted : seen.Pairwise fun m n => done.idxOf m < done.idxOf n

namespace Collected

variable {p : String → Bool} {done seen : List String} {x : String}

/-- Nothing is collected from no names. -/
theorem nil : Collected p [] [] := ⟨by simp, .nil⟩

/-- One more name changes nothing about where the others occur first. -/
private theorem sorted_append (h : Collected p done seen) :
    seen.Pairwise fun m n => (done ++ [x]).idxOf m < (done ++ [x]).idxOf n := by
  refine h.sorted.imp_of_mem fun {m n} hm hn hlt => ?_
  have hm' : m ∈ done := ((h.mem m).1 hm).1
  have hn' : n ∈ done := ((h.mem n).1 hn).1
  rwa [List.idxOf_append_of_mem hm', List.idxOf_append_of_mem hn']

/-- A name that does not pass, or is there already, is left out. -/
theorem skip (h : Collected p done seen) (hx : p x = true → x ∈ seen) :
    Collected p (done ++ [x]) seen := by
  refine ⟨fun n => ?_, h.sorted_append⟩
  rw [h.mem, List.mem_append, List.mem_singleton]
  constructor
  · exact fun hn => ⟨.inl hn.1, hn.2⟩
  · rintro ⟨hn | rfl, hp⟩
    · exact ⟨hn, hp⟩
    · exact (h.mem n).1 (hx hp)

/-- A new name that passes comes behind the others. -/
theorem add (h : Collected p done seen) (hx : p x = true) (hnew : x ∉ seen) :
    Collected p (done ++ [x]) (seen ++ [x]) := by
  have hdone : x ∉ done := fun hmem => hnew ((h.mem x).2 ⟨hmem, hx⟩)
  constructor
  · intro n
    rw [List.mem_append, List.mem_append, h.mem, List.mem_singleton]
    constructor
    · rintro (hn | rfl)
      · exact ⟨.inl hn.1, hn.2⟩
      · exact ⟨.inr rfl, hx⟩
    · rintro ⟨hn | rfl, hp⟩
      · exact .inl ⟨hn, hp⟩
      · exact .inr rfl
  · rw [List.pairwise_append]
    refine ⟨h.sorted_append, List.pairwise_singleton _ _, fun m hm n hn => ?_⟩
    rw [List.mem_singleton] at hn
    subst hn
    -- The others occur among the names that were done before, and this one behind all of them.
    have hm' : m ∈ done := ((h.mem m).1 hm).1
    have hlt : done.idxOf m < done.length := List.idxOf_lt_length_of_mem hm'
    have hlast : (done ++ [n]).idxOf n = done.length := by
      simp [List.idxOf_append, hdone]
    rw [List.idxOf_append_of_mem hm', hlast]
    exact hlt

/-- Going through more names collects those of them that pass and are new. -/
theorem foldl (h : Collected p done seen) (xs : List String) :
    Collected p (done ++ xs) ((xs.filter p).foldl
      (fun seen name => if seen.contains name then seen else seen ++ [name]) seen) := by
  induction xs generalizing done seen with
  | nil => simpa using h
  | cons x xs ih =>
    have happend : done ++ x :: xs = (done ++ [x]) ++ xs := by simp
    rw [happend]
    -- A name counts when it is unknown and not yet listed.
    by_cases hx : p x = true
    · rw [List.filter_cons_of_pos hx, List.foldl_cons]
      by_cases hmem : seen.contains x = true
      · rw [if_pos hmem]
        exact ih (h.skip fun _ => by simpa using hmem)
      · rw [if_neg hmem]
        exact ih (h.add hx (by simpa using hmem))
    · rw [List.filter_cons_of_neg hx]
      exact ih (h.skip fun hp => absurd hp hx)

end Collected

section List

variable (registry : Registry) (e : Expr)

/-- The unknown commands are collected from all names in the expression. -/
theorem collected_unknownCommands :
    Collected (fun n => !registry.contains n) e.commandNames (unknownCommands registry e) :=
  Collected.nil.foldl e.commandNames

/-- The list holds the names of an expression that have no handler. -/
theorem mem_unknownCommands (n : String) :
    n ∈ unknownCommands registry e ↔ n ∈ e.commandNames ∧ registry.get? n = none := by
  rw [(collected_unknownCommands registry e).mem, Registry.contains]
  simp

/-- The list is in the order in which its names occur first. -/
theorem pairwise_unknownCommands :
    (unknownCommands registry e).Pairwise fun m n =>
      e.commandNames.idxOf m < e.commandNames.idxOf n :=
  (collected_unknownCommands registry e).sorted

/-- No name is in the list twice. -/
theorem nodup_unknownCommands : (unknownCommands registry e).Nodup := by
  refine (pairwise_unknownCommands registry e).imp fun {m n} hlt heq => ?_
  rw [heq] at hlt
  omega

end List

/-! ## The errors of an evaluation -/

/-- Whether an error is that of a look-up: a command or an operator is unknown, or the command of an
    operator has no handler. -/
def EvalError.IsLookup : EvalError → Prop
  | .unknownCommand _ | .unknownOperator _ | .operatorNotImplemented _ _ => True
  | .missingInput _ | .badArgument _ _ | .unknownHandle _ _ | .writeFailed _ _ _ => False

/-- Whether no handler of a registry fails with the error of a look-up. -/
def Registry.LeavesLookups (registry : Registry) : Prop :=
  ∀ name handler, registry.get? name = some handler → ∀ call files error files',
    handler call files = .error error files' → ¬ error.IsLookup

/-- Naming the command does not make the error of a look-up. -/
private theorem EvalError.isLookup_inCommand {error : EvalError} (name : String) :
    (error.inCommand name).IsLookup ↔ error.IsLookup := by
  unfold inCommand
  split <;> simp [IsLookup]

/-- Two evaluations that are the same, and whose errors have a property. -/
private def failing (P : EvalError → Prop) : Correspondence where
  image := Eq
  handles := Eq
  files := Eq
  calls := Eq
  error e e' := e = e' ∧ P e

/-- Inputs correspond when they are the same. -/
private theorem input_failing {P : EvalError → Prop} {input input' : Option Image} :
    (failing P).input input input' ↔ input = input' := by
  constructor
  · intro h
    cases h with
    | none => rfl
    | some himage => exact congrArg some himage
  · rintro rfl
    cases input with
    | none => exact .none
    | some image => exact .some rfl

/-- What is registered and recorded is the same, and a missing input is one of the errors. -/
private theorem failing_kept {P : EvalError → Prop} (hinput : P .noInput) : (failing P).Kept where
  register ht himage := by
    cases ht
    cases himage
    exact ⟨rfl, rfl⟩
  record name args hl hinput := by
    rw [input_failing.1 hinput]
    exact congrArg (· ++ _) hl
  noInput := ⟨rfl, hinput⟩

/-- A look-up keeps a property of errors when its error has it, and the errors of its handler. -/
private theorem failing_finds {P : EvalError → Prop} {registry : Registry} {l : Lookup}
    (hmissing : ∀ error, l.find registry = .error error → P error)
    (hhandler : ∀ name handler, registry.get? name = some handler → ∀ call files error files',
      handler call files = .error error files' → P (error.inCommand name)) :
    (failing P).Finds registry registry l := by
  cases hfind : l.find registry with
  | error error => exact .missing hfind hfind ⟨rfl, hmissing error hfind⟩
  | ok found =>
    obtain ⟨name, handler⟩ := found
    obtain ⟨rfl, hget⟩ := Lookup.find_eq_ok hfind
    refine .found hfind hfind ?_
    -- Both runs are one and the same, so all that is left to show is what the handler's errors are.
    intro args input input' t _ files _ hinput ht hfiles
    cases input_failing.1 hinput
    cases ht
    cases hfiles
    cases hrun : handler ⟨args, input, t⟩ files with
    | ok image files' => exact .ok rfl rfl
    | error error files' => exact .error ⟨rfl, hhandler _ _ hget _ _ _ _ hrun⟩ rfl

/-- An evaluation fails with an error of a handler, with that of a look-up of the expression, or for
    want of an image. What all of these have is true of every error of the evaluation. -/
theorem error_of_evaluate {P : EvalError → Prop} {registry : Registry} {e : Expr}
    (hinput : P .noInput)
    (hmissing : ∀ l ∈ e.lookups, ∀ error, l.find registry = .error error → P error)
    (hhandler : ∀ name handler, registry.get? name = some handler → ∀ call files error files',
      handler call files = .error error files' → P (error.inCommand name))
    {input : Option Image} {c c' : Context} {error : EvalError}
    (h : e.evaluate registry input c = .error error c') : P error := by
  -- A run in step with itself: whatever it fails with has the property.
  have hsame : (failing P).input input input := input_failing.2 rfl
  have hcontexts : (failing P).Contexts c c := ⟨rfl, rfl, rfl⟩
  have hresult := e.related (failing_kept hinput)
    (fun l hl => failing_finds (hmissing l hl) hhandler) hsame hcontexts
  rw [h] at hresult
  cases hresult with
  | error he _ => exact he.2

/-- Whether the error of a look-up is about a name of a list. An unknown operator has no name. -/
def EvalError.Blames (names : List String) : EvalError → Prop
  | .unknownCommand n | .operatorNotImplemented _ n => n ∈ names
  | .unknownOperator _ => False
  | .missingInput _ | .badArgument _ _ | .unknownHandle _ _ | .writeFailed _ _ _ => True

/-- Only the error of a look-up can be about a name that is not in a list. -/
private theorem EvalError.blames_of_not_isLookup {error : EvalError} (h : ¬ error.IsLookup)
    (names : List String) : error.Blames names := by
  cases error with
  | unknownCommand | unknownOperator | operatorNotImplemented => exact absurd trivial h
  | missingInput | badArgument | unknownHandle | writeFailed => trivial

/-- When no look-up is of an unknown operator, an evaluation that fails in a look-up blames a name
    of the list. -/
private theorem blames_unknownCommands {registry : Registry} (hregistry : registry.LeavesLookups)
    {e : Expr} (hknown : ∀ l ∈ e.lookups, l.Known) {input : Option Image} {c c' : Context}
    {error : EvalError} (h : e.evaluate registry input c = .error error c') :
    error.Blames (unknownCommands registry e) := by
  refine error_of_evaluate (P := EvalError.Blames (unknownCommands registry e)) trivial ?_ ?_ h
  · intro l hl error hfind
    -- A look-up can only miss a name that the registry does not have, since the parser knows every
    -- sign.
    rcases Lookup.find_eq_error hfind with ⟨hget, herror⟩ | ⟨s, rfl, hs, -⟩
    · have hmem : l.name ∈ unknownCommands registry e :=
        (mem_unknownCommands registry e l.name).2 ⟨Expr.name_mem_commandNames hl, hget⟩
      rcases herror with rfl | ⟨s, rfl⟩
      · exact hmem
      · exact hmem
    · exact absurd hs (hknown _ hl).commandOf?_ne_none
  · intro name handler hget call files error files' hrun
    have hnot : ¬ error.IsLookup := hregistry name handler hget call files error files' hrun
    exact EvalError.blames_of_not_isLookup (mt (EvalError.isLookup_inCommand name).1 hnot) _

/-! ## Agreement -/

/-- Every name that is called in a trace has a handler. -/
private theorem Trace.get?_ne_none {registry : Registry} {c c' : Context} {events : List Event}
    (h : Trace registry c events c') : ∀ n ∈ Event.names events, registry.get? n ≠ none := by
  induction h with
  | nil => exact fun n hn => nomatch hn
  | @cons c c' c'' event events hstep _ ih =>
    -- Only calls have names, and a call is made with a handler of the registry.
    have hevent : ∀ n ∈ Event.names [event], registry.get? n ≠ none := by
      cases hstep with
      | registered | refused => exact fun n hn => nomatch hn
      | returned hget | failed hget =>
        intro n hn
        rw [List.mem_singleton.1 hn]
        simp [hget]
    rw [← List.singleton_append, Event.names_append, List.forall_mem_append]
    exact ⟨hevent, ih⟩

/-- An evaluation that goes through has found all names of the expression. -/
theorem unknownCommands_eq_nil {registry : Registry} {e : Expr} {input : Option Image}
    {c c' : Context} {image : Image} (h : e.evaluate registry input c = .ok image c') :
    unknownCommands registry e = [] := by
  obtain ⟨events, htrace, hcompletes⟩ := (e.performs registry input).ok h
  have hfound := htrace.get?_ne_none
  rw [hcompletes.names_eq] at hfound
  refine List.eq_nil_iff_forall_not_mem.2 fun n hn => ?_
  obtain ⟨hmem, hget⟩ := (mem_unknownCommands registry e n).1 hn
  exact hfound n hmem hget

/-- For an expression that a text denotes, and a registry whose handlers leave the errors of
    look-ups alone: the unknown commands are the names of the expression without a handler, each
    once, in the order of their first occurrence. When there are none, no evaluation fails in a
    look-up. An evaluation that goes through shows that there are none, and one that fails because a
    command is unknown, or because the command of an operator is, blames one of them. -/
theorem unknownCommands_agrees_with_evaluate {text : String} {e : Expr} (h : parse text = .ok e)
    {registry : Registry} (hregistry : registry.LeavesLookups) :
    ((unknownCommands registry e).Nodup ∧
      (∀ n, n ∈ unknownCommands registry e ↔
        n ∈ e.commandNames ∧ registry.contains n = false) ∧
      (unknownCommands registry e).Pairwise fun m n =>
        e.commandNames.idxOf m < e.commandNames.idxOf n) ∧
    ∀ (input : Option Image) (c : Context),
      match e.evaluate registry input c with
      | .ok _ _ => unknownCommands registry e = []
      | .error error _ =>
        (unknownCommands registry e = [] →
          (∀ n, error ≠ .unknownCommand n) ∧ (∀ s, error ≠ .unknownOperator s) ∧
            ∀ s n, error ≠ .operatorNotImplemented s n) ∧
        (∀ n, error = .unknownCommand n → n ∈ unknownCommands registry e) ∧
        ∀ s n, error = .operatorNotImplemented s n → n ∈ unknownCommands registry e := by
  refine ⟨⟨nodup_unknownCommands registry e, fun n => ?_, pairwise_unknownCommands registry e⟩,
    fun input c => ?_⟩
  · rw [mem_unknownCommands, Registry.contains, Option.isSome_eq_false_iff,
      Option.isNone_iff_eq_none]
  · have hknown := Expr.known_of_wellFormed (wellFormed_of_parse h)
    split
    · next hrun => exact unknownCommands_eq_nil hrun
    · next error c' hrun =>
      have hblames := blames_unknownCommands hregistry hknown hrun
      refine ⟨fun hnil => ?_, ?_, ?_⟩
      · -- Nothing is in an empty list, so no error blames a name of it.
        rw [hnil] at hblames
        refine ⟨?_, ?_, ?_⟩
        · rintro n rfl
          exact absurd hblames List.not_mem_nil
        · rintro s rfl
          exact hblames
        · rintro s n rfl
          exact absurd hblames List.not_mem_nil
      · rintro n rfl
        exact hblames
      · rintro s n rfl
        exact hblames

/-- The second stage of `f | g` is unknown where only `f` is registered. -/
theorem unknownCommands_agrees_with_evaluate_stage :
    parse "f | g" = .ok (.pipeline [.command "f" [], .command "g" []]) ∧
      (Registry.empty.insert "f" Command.passOn).LeavesLookups ∧
      (∃ c, (Expr.pipeline [.command "f" [], .command "g" []]).evaluate
        (Registry.empty.insert "f" Command.passOn) (some (.blank 1 1)) (.fresh ⟨[], []⟩) =
          .error (.unknownCommand "g") c) ∧
      "g" ∈ unknownCommands (Registry.empty.insert "f" Command.passOn)
        (.pipeline [.command "f" [], .command "g" []]) := by
  have hwf : (Expr.pipeline [.command "f" [], .command "g" []]).WellFormed := by
    have hwords : IsWord "f" ∧ IsWord "g" := by decide +kernel
    exact ⟨by decide, by simp [Expr.isPipeline], ⟨hwords.1, trivial⟩, ⟨hwords.2, trivial⟩, trivial⟩
  have htext : (Expr.pipeline [.command "f" [], .command "g" []]).render = "f | g" := by
    decide +kernel
  have hparse : parse "f | g" = .ok (.pipeline [.command "f" [], .command "g" []]) := by
    rw [← htext]
    exact Expr.parse_render_eq hwf
  have hregistry : (Registry.empty.insert "f" Command.passOn).LeavesLookups := by
    intro name handler hget call files error files' hrun
    rw [Registry.get?_insert] at hget
    split at hget
    · cases hget
      obtain ⟨args, input, handles⟩ := call
      cases input with
      | none =>
        cases hrun
        exact id
      | some image => cases hrun
    · cases hget
  have hrun : ∃ c, (Expr.pipeline [.command "f" [], .command "g" []]).evaluate
      (Registry.empty.insert "f" Command.passOn) (some (.blank 1 1)) (.fresh ⟨[], []⟩) =
        .error (.unknownCommand "g") c := ⟨_, rfl⟩
  refine ⟨hparse, hregistry, hrun, ?_⟩
  obtain ⟨c, hrun⟩ := hrun
  have h := (unknownCommands_agrees_with_evaluate hparse hregistry).2 (some (.blank 1 1))
    (.fresh ⟨[], []⟩)
  rw [hrun] at h
  exact h.2.1 "g" rfl

end Tapestry
