import Tapestry.Command
import Tapestry.Proofs.Correspondence

/-!
# An evaluation depends only on the handlers that it names

An evaluation asks a registry for the names of its expression and for no others. So two registries
that have the same handlers under these names cannot be told apart by it: the images, the errors,
the calls, the handles and the files are the same. Whatever calls were made before is only kept in
front of the new ones.

Handlers get texts, an image, the handles and the files, but no registry, so what they do does not
depend on other handlers either.

## Key results

- `Expr.finds_same`: what an expression looks up is found alike
- `evaluate_congr_registry`: evaluations with registries that agree on the names of an expression
-/

namespace Tapestry

/-- Evaluations that are the same, and whose calls are made behind those of two earlier contexts. -/
def same (before before' : List Invocation) : Correspondence where
  image := Eq
  handles := Eq
  files := Eq
  calls l l' := ∃ new, l = before ++ new ∧ l' = before' ++ new
  error := Eq

section Same

variable (before before' : List Invocation)

/-- Inputs correspond when they are the same. -/
private theorem input_same {input input' : Option Image} :
    (same before before').input input input' ↔ input = input' := by
  constructor
  · intro h
    cases h with
    | none => rfl
    | some himage => exact congrArg some himage
  · rintro rfl
    cases input with
    | none => exact .none
    | some image => exact .some rfl

/-- Registering an image and recording a call keep contexts the same. -/
private theorem same_kept : (same before before').Kept where
  register ht himage := by
    obtain rfl := ht
    obtain rfl := himage
    exact ⟨rfl, rfl⟩
  record name args hl hinput := by
    obtain rfl := (input_same before before').1 hinput
    obtain ⟨new, rfl, rfl⟩ := hl
    exact ⟨_, List.append_assoc _ _ _, List.append_assoc _ _ _⟩
  noInput := rfl

/-- A handler does the same when it is called in the same way. -/
private theorem handlers_same (name : String) (handler : Handler) :
    (same before before').Handlers name handler handler := by
  intro args input input' t t' files files' hinput ht hfiles
  obtain rfl := (input_same before before').1 hinput
  obtain rfl := ht
  obtain rfl := hfiles
  cases handler ⟨args, input, t⟩ files with
  | ok image files => exact .ok rfl rfl
  | error e files => exact .error rfl rfl

variable {registry registry' : Registry}

/-- The answer to a look-up depends on the handler of its name alone. -/
theorem Lookup.find_congr {l : Lookup} (h : registry.get? l.name = registry'.get? l.name) :
    l.find registry = l.find registry' := by
  cases l with
  | command name =>
    rw [Lookup.name] at h
    simp only [Lookup.find, h]
  | operator s =>
    -- An operator is looked up under the name of its command, if it has one.
    cases hs : Operator.commandOf? s with
    | none => simp only [Lookup.find, hs]
    | some command =>
      rw [Lookup.name, hs, Option.getD_some] at h
      simp only [Lookup.find, hs, h]

/-- What an expression looks up is found alike by registries that agree on its names. -/
theorem Expr.finds_same {e : Expr}
    (h : ∀ name ∈ e.commandNames, registry.get? name = registry'.get? name) :
    ∀ l ∈ e.lookups, (same before before').Finds registry registry' l := by
  intro l hl
  have hfind := Lookup.find_congr (h l.name (e.name_mem_commandNames hl))
  cases hanswer : l.find registry' with
  | ok found =>
    obtain ⟨name, handler⟩ := found
    exact .found (hfind.trans hanswer) hanswer (handlers_same before before' name handler)
  | error e => exact .missing (hfind.trans hanswer) hanswer rfl

end Same

/-! ## Evaluations -/

section Evaluations

variable {registry registry' : Registry} {e : Expr} {input : Option Image} {c c' : Context}

/-- Evaluations with registries that agree on the names of an expression are the same. -/
private theorem Expr.results_same
    (h : ∀ name ∈ e.commandNames, registry.get? name = registry'.get? name)
    (hhandles : c.handles = c'.handles) (hfiles : c.files = c'.files) :
    (same c.invocations c'.invocations).Results Eq (e.evaluate registry input c)
      (e.evaluate registry' input c') := by
  -- No call is made yet.
  have hcalls : (same c.invocations c'.invocations).calls c.invocations c'.invocations :=
    ⟨[], by simp, by simp⟩
  exact e.related (same_kept _ _) (Expr.finds_same _ _ h) ((input_same _ _).2 rfl)
    ⟨hhandles, hfiles, hcalls⟩

/-- From one context, results that are the same are equal. -/
private theorem eq_of_results_same {before : List Invocation}
    {r r' : EStateM.Result EvalError Context Image}
    (h : (same before before).Results Eq r r') : r = r' := by
  -- Handles and files are equal, and the calls are those from before and the same new ones.
  have hcontexts {d d' : Context} (hd : (same before before).Contexts d d') : d = d' := by
    obtain ⟨handles, files, calls⟩ := d
    obtain ⟨handles', files', calls'⟩ := d'
    obtain ⟨hhandles, hfiles, new, hcalls, hcalls'⟩ := hd
    obtain rfl : handles = handles' := hhandles
    obtain rfl : files = files' := hfiles
    obtain rfl : calls = calls' := hcalls.trans hcalls'.symm
    rfl
  cases h with
  | ok himage hd =>
    obtain rfl := himage
    rw [hcontexts hd]
  | @error error error' d d' he hd =>
    obtain rfl : error = error' := he
    rw [hcontexts hd]

/-- A handler that is put in under another name changes nothing, and neither does taking it out. -/
theorem Expr.evaluate_of_not_mem {name : String} (hname : name ∉ e.commandNames) :
    (∀ handler, e.evaluate (registry.insert name handler) input c = e.evaluate registry input c) ∧
      e.evaluate (registry.remove name) input c = e.evaluate registry input c := by
  have hne : ∀ other ∈ e.commandNames, other ≠ name := fun other hother heq =>
    hname (heq ▸ hother)
  constructor
  · intro handler
    refine eq_of_results_same (Expr.results_same (fun other hother => ?_) rfl rfl)
    rw [Registry.get?_insert, if_neg (hne other hother)]
  · refine eq_of_results_same (Expr.results_same (fun other hother => ?_) rfl rfl)
    rw [Registry.get?_remove, if_neg (hne other hother)]

end Evaluations

/-- Let two registries have the same handlers, or both none, under every name of an expression. From
    the same image, or from none, and with the same handles and files, the two evaluations have the
    same image or the same error. They make the same calls, behind whatever calls were made before,
    and they leave the same handles and files. So an evaluation is the same when a handler is put in
    or taken out under a name that the expression does not have. -/
theorem evaluate_congr_registry (e : Expr) (input : Option Image) :
    (∀ registry registry' : Registry,
      (∀ name ∈ e.commandNames, registry.get? name = registry'.get? name) →
      ∀ c c' : Context, c.handles = c'.handles → c.files = c'.files →
        ∃ d d' new,
          ((∃ image, e.evaluate registry input c = .ok image d ∧
              e.evaluate registry' input c' = .ok image d') ∨
            ∃ error, e.evaluate registry input c = .error error d ∧
              e.evaluate registry' input c' = .error error d') ∧
          d.handles = d'.handles ∧ d.files = d'.files ∧
          d.invocations = c.invocations ++ new ∧ d'.invocations = c'.invocations ++ new) ∧
    ∀ (registry : Registry) (name : String), name ∉ e.commandNames → ∀ c : Context,
      (∀ handler, e.evaluate (registry.insert name handler) input c =
        e.evaluate registry input c) ∧
      e.evaluate (registry.remove name) input c = e.evaluate registry input c := by
  constructor
  -- Two runs of one expression in step with each other, over registries that agree on its names.
  · intro registry registry' h c c' hhandles hfiles
    have hresults : (same c.invocations c'.invocations).Results Eq (e.evaluate registry input c)
        (e.evaluate registry' input c') := Expr.results_same h hhandles hfiles
    generalize e.evaluate registry input c = r at hresults
    generalize e.evaluate registry' input c' = r' at hresults
    cases hresults with
    | @ok image _ d d' himage hd =>
      obtain rfl := himage
      obtain ⟨new, hnew, hnew'⟩ := hd.calls
      exact ⟨d, d', new, .inl ⟨image, rfl, rfl⟩, hd.handles, hd.files, hnew, hnew'⟩
    | @error error _ d d' he hd =>
      obtain rfl : error = _ := he
      obtain ⟨new, hnew, hnew'⟩ := hd.calls
      exact ⟨d, d', new, .inr ⟨error, rfl, rfl⟩, hd.handles, hd.files, hnew, hnew'⟩
  -- A name that the expression does not look up is neither missed nor found.
  · intro registry name hname c
    exact Expr.evaluate_of_not_mem hname

/-- A sum, with another command in place of one that it does not name, and behind a call that was
    made before; and the sum without that command. -/
theorem evaluate_congr_registry_sum :
    let e := Expr.binary (.literal "null") "+" (.command "join" [.literal "over",
      .nested (.literal "null")])
    let registry := Registry.builtins.insert "zoom" Command.passOn
    let c : Context := .fresh ⟨[], []⟩
    let c' : Context := ⟨.empty, ⟨[], []⟩, [⟨"null", [], none⟩]⟩
    (∀ name ∈ e.commandNames, registry.get? name = Registry.builtins.get? name) ∧
      (∃ d d' new,
        ((∃ image, e.evaluate registry (some (.blank 1 1)) c = .ok image d ∧
            e.evaluate .builtins (some (.blank 1 1)) c' = .ok image d') ∨
          ∃ error, e.evaluate registry (some (.blank 1 1)) c = .error error d ∧
            e.evaluate .builtins (some (.blank 1 1)) c' = .error error d') ∧
        d.handles = d'.handles ∧ d.files = d'.files ∧
        d.invocations = [] ++ new ∧ d'.invocations = [⟨"null", [], none⟩] ++ new) ∧
      "zoom" ∉ e.commandNames ∧
      e.evaluate (Registry.builtins.remove "zoom") (some (.blank 1 1)) c =
        e.evaluate .builtins (some (.blank 1 1)) c := by
  intro e registry c c'
  have hname : "zoom" ∉ e.commandNames := by decide +kernel
  have hget : ∀ name ∈ e.commandNames, registry.get? name = Registry.builtins.get? name := by
    intro name hmem
    rw [Registry.get?_insert, if_neg fun heq : name = "zoom" => hname (heq ▸ hmem)]
  obtain ⟨hagree, hother⟩ := evaluate_congr_registry e (some (.blank 1 1))
  exact ⟨hget, hagree registry .builtins hget c c' rfl rfl, hname,
    (hother .builtins "zoom" hname c).2⟩

end Tapestry
