import Tapestry.Command
import Tapestry.Evaluation
import Tapestry.Proofs.Equivalence

/-!
# Parentheses do not change a result

A group evaluates what is in it, on the same image and in the same context. So an expression
evaluates like the one without any of its groups, wherever they stand: around stages of a pipeline,
around operands, in nested expressions and in the values of keywords. Equivalent expressions are the
same without their groups, and so nothing can tell their evaluations apart.

## Key results

- `Expr.evaluate_withoutGroups`: groups do not matter to an evaluation
- `evaluate_eq_of_equivalent`: equivalent expressions have the same evaluation
-/

namespace Tapestry

mutual

/-- An expression evaluates like the one without its groups. -/
theorem Expr.evaluate_withoutGroups (registry : Registry) :
    ∀ (e : Expr) (input : Option Image),
      e.withoutGroups.evaluate registry input = e.evaluate registry input
  | .command name args, input => by
    rw [Expr.withoutGroups, Expr.evaluate, Expr.evaluate,
      Arg.resolveList_withoutGroups registry args input]
  | .pipeline stages, input => by
    rw [Expr.withoutGroups, Expr.evaluate, Expr.evaluate,
      Expr.evaluateStages_withoutGroups registry stages input]
  | .binary l s r, input => by
    rw [Expr.withoutGroups, Expr.evaluate, Expr.evaluate,
      Expr.evaluate_withoutGroups registry l input, Expr.evaluate_withoutGroups registry r input]
  | .group e, input => by
    -- The group is gone on the left, and on the right it hands everything to what is in it.
    rw [Expr.withoutGroups, Expr.evaluate, Expr.evaluate_withoutGroups registry e input]
  | .literal v, _ => by rw [Expr.withoutGroups]

/-- The stages of a pipeline go through the same values without groups. -/
theorem Expr.evaluateStages_withoutGroups (registry : Registry) :
    ∀ (es : List Expr) (input : Option Image),
      Expr.evaluateStages registry (Expr.listWithoutGroups es) input =
        Expr.evaluateStages registry es input
  | [], _ => by rw [Expr.listWithoutGroups]
  | e :: es, input => by
    rw [Expr.listWithoutGroups, Expr.evaluateStages, Expr.evaluateStages,
      Expr.evaluate_withoutGroups registry e input]
    exact congrArg _
      (funext fun image => Expr.evaluateStages_withoutGroups registry es (some image))

/-- An argument stands for the same text without groups. -/
theorem Arg.resolve_withoutGroups (registry : Registry) :
    ∀ (a : Arg) (input : Option Image),
      a.withoutGroups.resolve registry input = a.resolve registry input
  | .literal v, _ => by rw [Arg.withoutGroups]
  | .keyed key value, input => by
    rw [Arg.withoutGroups, Arg.resolve, Arg.resolve, Arg.resolve_withoutGroups registry value input]
  | .nested e, input => by
    rw [Arg.withoutGroups, Arg.resolve, Arg.resolve, Expr.evaluate_withoutGroups registry e input]

theorem Arg.resolveList_withoutGroups (registry : Registry) :
    ∀ (as : List Arg) (input : Option Image),
      Arg.resolveList registry (Arg.listWithoutGroups as) input =
        Arg.resolveList registry as input
  | [], _ => by rw [Arg.listWithoutGroups]
  | a :: as, input => by
    rw [Arg.listWithoutGroups, Arg.resolveList, Arg.resolveList,
      Arg.resolve_withoutGroups registry a input, Arg.resolveList_withoutGroups registry as input]

end

/-- Equivalent expressions evaluate in the same way from every context: to the same image or the
    same error, by the same calls of the same handlers with the same arguments and inputs in the
    same order, and they leave the same handles and the same files. -/
theorem evaluate_eq_of_equivalent {e f : Expr} (h : e.equivalent f = true) (registry : Registry)
    (input : Option Image) (c : Context) :
    e.evaluate registry input c = f.evaluate registry input c := by
  have hsame : e.withoutGroups = f.withoutGroups := (Expr.equivalent_iff e f).1 h
  calc
    e.evaluate registry input c
    _ = e.withoutGroups.evaluate registry input c := by rw [Expr.evaluate_withoutGroups]
    _ = f.withoutGroups.evaluate registry input c := by rw [hsame]
    _ = f.evaluate registry input c := by rw [Expr.evaluate_withoutGroups]

/-- Parentheses around a stage, around an operand, and around a nested expression. -/
theorem evaluate_eq_of_equivalent_stages :
    (Expr.pipeline [.group (.literal "blank"), .command "mask" [.nested
        (.binary (.group (.group (.literal "null"))) "+" (.literal "null"))]]).equivalent
      (.pipeline [.literal "blank", .group (.command "mask" [.nested (.group
        (.binary (.literal "null") "+" (.group (.literal "null"))))])]) = true ∧
    (Expr.pipeline [.group (.literal "blank"), .command "mask" [.nested
        (.binary (.group (.group (.literal "null"))) "+" (.literal "null"))]]).evaluate
        .builtins (some (.blank 2 1)) (.fresh ⟨[], []⟩) =
      (Expr.pipeline [.literal "blank", .group (.command "mask" [.nested (.group
        (.binary (.literal "null") "+" (.group (.literal "null"))))])]).evaluate
        .builtins (some (.blank 2 1)) (.fresh ⟨[], []⟩) := by
  -- The groups stand at different places, and without groups the trees are the same.
  have h : (Expr.pipeline [.group (.literal "blank"), .command "mask" [.nested
      (.binary (.group (.group (.literal "null"))) "+" (.literal "null"))]]).equivalent
    (.pipeline [.literal "blank", .group (.command "mask" [.nested (.group
      (.binary (.literal "null") "+" (.group (.literal "null"))))])]) = true :=
    (Expr.equivalent_iff _ _).2 rfl
  exact ⟨h, evaluate_eq_of_equivalent h .builtins (some (.blank 2 1)) (.fresh ⟨[], []⟩)⟩

end Tapestry
