import Tapestry.Command
import Tapestry.Proofs.Trace

/-!
# Pipelines put together

Joining two expressions with a pipe takes their stages into one flat list, and which expression a
stage came from is forgotten. Evaluation does not need to know: the image is threaded through the
list from the left, so the list can be cut at any place, and what is behind the cut starts with the
image and in the context that the stages before it left.

## Key results

- `Expr.pipe_assoc`: it does not matter how pipes are bracketed
- `Expr.evaluateStages_append`: a list of stages can be cut anywhere behind its first stage
- `evaluate_pipe`: a pipe evaluates its left side and then its right side
-/

namespace Tapestry

namespace Expr

/-- The stages of a pipe are those of its two sides. -/
theorem stages_pipe (a b : Expr) : (a.pipe b).stages = a.stages ++ b.stages := by
  rw [pipe, stages]

/-- Either way of bracketing two pipes gives the stages of all three sides in one list. -/
theorem pipe_assoc (a b c : Expr) : (a.pipe b).pipe c = a.pipe (b.pipe c) := by
  calc
    (a.pipe b).pipe c
    _ = pipeline (a.stages ++ b.stages ++ c.stages) := by rw [pipe, stages_pipe]
    _ = pipeline (a.stages ++ (b.stages ++ c.stages)) := by rw [List.append_assoc]
    _ = a.pipe (b.pipe c) := by rw [pipe, stages_pipe]

/-- Only a pipeline without stages has none. -/
theorem stages_ne_nil {e : Expr} (h : e ≠ .pipeline []) : e.stages ≠ [] := by
  cases e with
  | pipeline es =>
    rintro rfl
    exact h rfl
  | command | binary | group | literal => exact List.cons_ne_nil _ _

section Evaluation

variable (registry : Registry)

/-- The stages in front of a cut give an image to those behind it. Without a stage in front there
    has to be an image already, because nothing would make one. -/
theorem evaluateStages_append {es : List Expr} {input : Option Image}
    (h : es = [] → input.isSome = true) (fs : List Expr) :
    evaluateStages registry (es ++ fs) input =
      evaluateStages registry es input >>=
        fun image => evaluateStages registry fs (some image) := by
  induction es generalizing input with
  | nil =>
    obtain ⟨image, rfl⟩ := Option.isSome_iff_exists.1 (h rfl)
    rw [List.nil_append, evaluateStages, pure_bind]
  | cons e es ih =>
    -- Behind the first stage there is an image, so the rest can be cut even if it is empty.
    have hrest (image : Image) := @ih (some image) fun _ => rfl
    simp only [List.cons_append, evaluateStages, bind_assoc, hrest]

/-- An expression evaluates like its stages, be it that it is its only stage. -/
theorem evaluate_eq_evaluateStages (e : Expr) (input : Option Image) :
    e.evaluate registry input = evaluateStages registry e.stages input := by
  have hlone : e.evaluate registry input = evaluateStages registry [e] input := by
    simp only [evaluateStages, bind_pure]
  cases e with
  | pipeline es => rw [stages, evaluate]
  | command | binary | group | literal => exact hlone

/-- A pipe is its left side and then its right side, on the image of the left one. -/
theorem evaluate_pipe_eq_bind {a : Expr} (ha : a ≠ .pipeline []) (b : Expr)
    (input : Option Image) :
    (a.pipe b).evaluate registry input =
      a.evaluate registry input >>= fun image => b.evaluate registry (some image) := by
  have hstages : a.stages = [] → input.isSome = true := fun h => absurd h (stages_ne_nil ha)
  simp only [evaluate_eq_evaluateStages, stages_pipe, evaluateStages_append registry hstages]

end Evaluation

end Expr

/-- Pipes are associative. When the left side of a pipe is not a pipeline without stages, the pipe
    evaluates its left side in the context and on the image that it gets itself, and if this gives
    an image, the right side on that image in the context that the left side left: so the two make
    the same calls, handles and files one after the other. If the left side fails, the pipe fails
    with the same error in the same context, and nothing of the right side is evaluated. -/
theorem evaluate_pipe :
    (∀ a b c : Expr, (a.pipe b).pipe c = a.pipe (b.pipe c)) ∧
      ∀ (registry : Registry) (a b : Expr), a ≠ .pipeline [] →
        ∀ (seed : Option Image) (c : Context),
          (a.pipe b).evaluate registry seed c =
            match a.evaluate registry seed c with
            | .ok image c' => b.evaluate registry (some image) c'
            | .error error c' => .error error c' := by
  refine ⟨Expr.pipe_assoc, fun registry a b ha seed c => ?_⟩
  rw [Expr.evaluate_pipe_eq_bind registry ha]
  cases h : a.evaluate registry seed c with
  | ok image c' => exact bind_ok h _
  | error error c' => exact bind_error h _

/-- A pipeline whose second stage is unknown, in front of another one: only its first stage runs. -/
theorem evaluate_pipe_unknown :
    Expr.pipeline [.literal "null", .literal "g"] ≠ .pipeline [] ∧
      ((Expr.pipeline [.literal "null", .literal "g"]).pipe
          (.pipeline [.literal "invert", .literal "null"])).evaluate .builtins
        (some (.blank 1 1)) (.fresh ⟨[], []⟩) =
          .error (.unknownCommand "g")
            ⟨.empty, ⟨[], []⟩, [⟨"null", [], some (.blank 1 1)⟩]⟩ := by
  have hstages : Expr.pipeline [.literal "null", .literal "g"] ≠ .pipeline [] := by simp
  refine ⟨hstages, ?_⟩
  rw [evaluate_pipe.2 .builtins _ _ hstages]
  rfl

end Tapestry
