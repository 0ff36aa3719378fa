import Tapestry.Proofs.Handles
import Tapestry.Proofs.Pipelines
import Tapestry.Proofs.RoundTrip

/-!
# Stages of words

A pipeline can be given as a list of stages that were already split into words: the name of a
command, and texts to pass on as they are. It is evaluated as an expression, but what happens can be
said without one: go through the list from the front, look the name up, and call the handler with
the other words and the image so far. `runStages` does this, and the expression of the stages does
the same in every context.

Where all words are single words and values, the list is also what a text denotes: the words with
blanks between them, and the stages with pipes between them.

## Key results

- `evaluateStages_flatStages`: the expressions of the stages are evaluated as the list is run
- `handles_contextAfter_runStages`: a list of stages makes no handle
- `parse_textOfStages`: the text of a list denotes its expression
- `flatPipeline_runs_stages`: the pipeline of a list of stages
-/

namespace Tapestry

/-! ## Running a list of stages -/

/-- Run stages one after the other. The first word of a stage is looked up, and its handler is
    called with the other words and the image so far. Stages without words are skipped. -/
def runStages (registry : Registry) : List (List String) → Option Image → EvalM Image
  | [], some image => fun c => .ok image c
  | [], none => fun c => .error .noInput c
  | [] :: stages, input => runStages registry stages input
  | (name :: words) :: stages, input => fun c =>
    match registry.get? name with
    | none => .error (.unknownCommand name) c
    | some handler =>
      let invocations := c.invocations ++ [⟨name, words, input⟩]
      match handler ⟨words, input, c.handles⟩ c.files with
      | .error e files => .error (e.inCommand name) { c with files, invocations }
      | .ok image files => runStages registry stages (some image) { c with files, invocations }

section Evaluation

variable (registry : Registry)

/-- Literal arguments are passed as they are. -/
private theorem resolveList_literal (words : List String) (input : Option Image) :
    Arg.resolveList registry (words.map .literal) input = pure words := by
  induction words with
  | nil => rfl
  | cons word words ih =>
    simp only [List.map_cons, Arg.resolveList, Arg.resolve, pure_bind, ih]

/-- The expressions of the stages are evaluated as the list is run. -/
theorem evaluateStages_flatStages (stages : List (List String)) (input : Option Image)
    (c : Context) :
    Expr.evaluateStages registry (stages.filterMap flatStage?) input c =
      runStages registry stages input c := by
  induction stages generalizing input c with
  | nil => cases input <;> rfl
  | cons stage stages ih =>
    match stage with
    | [] => exact ih input c
    | name :: words =>
      show Expr.evaluateStages registry
        (.command name (words.map .literal) :: stages.filterMap flatStage?) input c = _
      simp only [Expr.evaluateStages, Expr.evaluate, resolveList_literal, pure_bind, runStages]
      cases hget : registry.get? name with
      | none =>
        rw [lookupCommand, hget]
        rfl
      | some handler =>
        simp only [lookupCommand, hget, pure_bind]
        -- The call either fails, or it gives the image that the rest of the list starts with.
        cases hrun : handler ⟨words, input, c.handles⟩ c.files with
        | error e files =>
          have hinvoke : invoke name handler words input c = .error (e.inCommand name)
              ⟨c.handles, files, c.invocations ++ [⟨name, words, input⟩]⟩ := by
            simp only [invoke, hrun]
          exact bind_error hinvoke _
        | ok image files =>
          have hinvoke : invoke name handler words input c = .ok image
              ⟨c.handles, files, c.invocations ++ [⟨name, words, input⟩]⟩ := by
            simp only [invoke, hrun]
          rw [bind_ok hinvoke]
          exact ih (some image) _

/-- A list of stages makes no handle, whether it ends with an image or not. -/
theorem handles_contextAfter_runStages (stages : List (List String)) (input : Option Image)
    (c : Context) : (contextAfter (runStages registry stages input) c).handles = c.handles := by
  induction stages generalizing input c with
  | nil => cases input <;> rfl
  | cons stage stages ih =>
    match stage with
    | [] => exact ih input c
    | name :: words =>
      cases hget : registry.get? name with
      | none => simp only [contextAfter, runStages, hget]
      | some handler =>
        -- A handler gives an image and files, and the handles are not its to change.
        cases hrun : handler ⟨words, input, c.handles⟩ c.files with
        | error e files => simp only [contextAfter, runStages, hget, hrun]
        | ok image files =>
          have hrest := ih (some image)
            ⟨c.handles, files, c.invocations ++ [⟨name, words, input⟩]⟩
          simpa only [contextAfter, runStages, hget, hrun] using hrest

end Evaluation

/-! ## The expression of a list -/

/-- Expressions that are no pipelines are appended to the stages of a pipeline. -/
private theorem Expr.foldl_pipe (fs : List Expr) {es : List Expr}
    (h : ∀ e ∈ es, e.isPipeline = false) : es.foldl pipe (.pipeline fs) = .pipeline (fs ++ es) := by
  induction es generalizing fs with
  | nil => simp
  | cons e es ih =>
    obtain ⟨he, hes⟩ := List.forall_mem_cons.1 h
    rw [List.foldl_cons, pipe, stages_of_isPipeline he, stages, ih _ hes, List.append_assoc,
      List.singleton_append]

/-- A stage with words becomes a command with literal arguments, which is no pipeline. -/
private theorem isPipeline_of_flatStage? {stage : List String} {e : Expr}
    (h : flatStage? stage = some e) : e.isPipeline = false := by
  cases stage with
  | nil => cases h
  | cons name words =>
    cases h
    rfl

/-- No stage of a flat pipeline is a pipeline of its own. -/
private theorem isPipeline_flatStages {stages : List (List String)} :
    ∀ e ∈ stages.filterMap flatStage?, e.isPipeline = false := by
  intro e he
  obtain ⟨stage, -, hstage⟩ := List.mem_filterMap.1 he
  exact isPipeline_of_flatStage? hstage

/-- There is no pipeline exactly when no stage has words. -/
theorem flatPipeline_eq_none {stages : List (List String)} :
    flatPipeline stages = none ↔ ∀ stage ∈ stages, stage = [] := by
  have hstage (stage : List String) : flatStage? stage = none ↔ stage = [] := by
    cases stage <;> simp [flatStage?]
  have hnone : flatPipeline stages = none ↔ stages.filterMap flatStage? = [] := by
    rw [flatPipeline]
    split <;> simp [*]
  simp only [hnone, List.filterMap_eq_nil_iff, hstage]

/-- The pipeline of one stage with words is its command alone. -/
private theorem flatPipeline_cases {stages : List (List String)} {e : Expr}
    (h : flatPipeline stages = some e) :
    stages.filterMap flatStage? = [e] ∨
      2 ≤ (stages.filterMap flatStage?).length ∧ e = .pipeline (stages.filterMap flatStage?) := by
  have hflat := @isPipeline_flatStages stages
  rw [flatPipeline] at h
  generalize stages.filterMap flatStage? = es at h hflat
  -- There may be no stage, which is no pipeline, or one, which is alone, or several.
  match es with
  | [] => cases h
  | [first] =>
    cases h
    exact .inl rfl
  | first :: second :: more =>
    cases h
    right
    -- No stage is a pipeline, so piping them puts one behind the other.
    obtain ⟨hfirst, hsecond, hmore⟩ := by simpa only [List.forall_mem_cons] using hflat
    refine ⟨by simp, ?_⟩
    rw [List.foldl_cons, Expr.pipe, Expr.stages_of_isPipeline hfirst,
      Expr.stages_of_isPipeline hsecond, Expr.foldl_pipe _ hmore]
    rfl

/-- The pipeline of a list of stages is evaluated as the list is run. -/
theorem evaluate_flatPipeline {stages : List (List String)} {e : Expr}
    (h : flatPipeline stages = some e) (registry : Registry) (input : Option Image)
    (c : Context) : e.evaluate registry input c = runStages registry stages input c := by
  rw [← evaluateStages_flatStages]
  rcases flatPipeline_cases h with hlone | ⟨-, rfl⟩
  · rw [hlone]
    simp only [Expr.evaluateStages, bind_pure]
  · rw [Expr.evaluate]

/-! ## The text of a list -/

/-- Whether a text is read as one value. -/
def IsValue (s : String) : Prop :=
  tokenize s = [⟨.value, s, 0, Text.utf8Length s.toList⟩, .finish (Text.utf8Length s.toList)]

instance (s : String) : Decidable (IsValue s) := inferInstanceAs (Decidable (tokenize s = _))

/-- Whether a stage is a word and behind it single words and values. -/
def IsPlainStage : List String → Prop
  | [] => False
  | name :: words => IsWord name ∧ ∀ word ∈ words, IsWord word ∨ IsValue word

/-- The text of stages: words with blanks between them, and stages with pipes between them. -/
def textOfStages (stages : List (List String)) : String :=
  " | ".intercalate (stages.map (" ".intercalate ·))

/-- A stage that another one follows has a pipe behind it. -/
private theorem textOfStages_cons_cons (stage next : List String) (stages : List (List String)) :
    textOfStages (stage :: next :: stages) =
      " ".intercalate stage ++ " | " ++ textOfStages (next :: stages) := by
  rw [textOfStages, List.map_cons, List.map_cons, String.intercalate_cons_cons]
  rfl

/-- A single word or value is written as it is. -/
private theorem renderLiteral_of_isWord_or_isValue {s : String} (h : IsWord s ∨ IsValue s) :
    renderLiteral s = s := by
  have hbare : isBareWord s = true := by
    unfold IsWord IsValue at h
    rcases h with h | h <;> simp [isBareWord, h]
  rw [renderLiteral, if_pos hbare]

/-- What a plain stage becomes can be written down, and its text is that of the stage. -/
private theorem IsPlainStage.exists_flatStage? {stage : List String} (h : IsPlainStage stage) :
    ∃ e, flatStage? stage = some e ∧ e.WellFormed ∧ e.OperandsGrouped ∧
      e.render = " ".intercalate stage := by
  match stage with
  | name :: words =>
    obtain ⟨hname, hwords⟩ := h
    have hargs : Arg.ListWellFormed (words.map .literal) ∧
        Arg.ListOperandsGrouped (words.map .literal) := by
      clear hwords
      induction words with
      | nil => exact ⟨trivial, trivial⟩
      | cons word words ih => exact ⟨⟨trivial, ih.1⟩, trivial, ih.2⟩
    refine ⟨_, rfl, ⟨hname, hargs.1⟩, hargs.2, ?_⟩
    -- Every word brings the blank in front of it, so the name is any text.
    rw [Expr.render]
    clear hname hargs
    induction words generalizing name with
    | nil => simp [Arg.renderList]
    | cons word words ih =>
      obtain ⟨hword, hwords⟩ := List.forall_mem_cons.1 hwords
      rw [String.intercalate_cons_cons, ← ih word hwords, List.map_cons, Arg.renderList,
        Arg.render, renderLiteral_of_isWord_or_isValue hword]
      simp only [String.append_assoc]

/-- What plain stages become can be written down, and the text is that of the stages. -/
private theorem flatStages_of_isPlainStage {stages : List (List String)}
    (h : ∀ stage ∈ stages, IsPlainStage stage) :
    Expr.ListWellFormed (stages.filterMap flatStage?) ∧
      Expr.ListOperandsGrouped (stages.filterMap flatStage?) ∧
      (Expr.pipeline (stages.filterMap flatStage?)).render = textOfStages stages := by
  induction stages with
  | nil => exact ⟨trivial, trivial, rfl⟩
  | cons stage stages ih =>
    obtain ⟨hstage, hstages⟩ := List.forall_mem_cons.1 h
    obtain ⟨e, he, hwell, hgrouped, hrender⟩ := hstage.exists_flatStage?
    obtain ⟨hwells, hgroupeds, hrenders⟩ := ih hstages
    rw [List.filterMap_cons_some he]
    refine ⟨⟨hwell, hwells⟩, ⟨hgrouped, hgroupeds⟩, ?_⟩
    cases stages with
    | nil => simp [Expr.render, Expr.renderStages, textOfStages, hrender]
    | cons next stages =>
      -- The text of the other stages starts with the next one, without a pipe in front of it.
      obtain ⟨f, hf, -⟩ := (hstages next List.mem_cons_self).exists_flatStage?
      rw [List.filterMap_cons_some hf] at hrenders ⊢
      rw [textOfStages_cons_cons, ← hrenders]
      simp only [Expr.render, Expr.renderStages, hrender, String.append_assoc]

/-- The text of plain stages denotes their pipeline. -/
theorem parse_textOfStages {stages : List (List String)}
    (h : ∀ stage ∈ stages, IsPlainStage stage) {e : Expr} (he : flatPipeline stages = some e) :
    parse (textOfStages stages) = .ok e := by
  obtain ⟨hwell, hgrouped, hrender⟩ := flatStages_of_isPlainStage h
  have hdenoted : e.WellFormed ∧ e.OperandsGrouped ∧ e.render = textOfStages stages := by
    -- A stage alone is rendered as itself, and several as a pipeline.
    rcases flatPipeline_cases he with hlone | ⟨hlength, rfl⟩
    · rw [hlone] at hwell hgrouped hrender
      refine ⟨hwell.1, hgrouped.1, ?_⟩
      rw [← hrender]
      simp [Expr.render, Expr.renderStages]
    · exact ⟨⟨hlength, isPipeline_flatStages, hwell⟩, hgrouped, hrender⟩
  obtain ⟨hwell, hgrouped, hrender⟩ := hdenoted
  -- The tree reads back from its rendering, with its operands grouped, as they are already.
  have hparse := Expr.parse_render_eq hwell
  rwa [hrender, Expr.grouped_of_operandsGrouped hgrouped] at hparse

/-- There is no pipeline of stages that all have no words. Any other list of stages has one, and in
    every context and from every image this is evaluated as the stages are run one after the other:
    the same calls are made, the result and the files are the same, and no handle is made. Where
    every stage is a word and behind it single words and values, the pipeline is what the text
    denotes that has blanks between the words and pipes between the stages. -/
theorem flatPipeline_runs_stages :
    (∀ stages, flatPipeline stages = none ↔ ∀ stage ∈ stages, stage = []) ∧
      ∀ stages e, flatPipeline stages = some e →
        (∀ registry seed c,
          e.evaluate registry seed c = runStages registry stages seed c ∧
            (contextAfter (e.evaluate registry seed) c).handles = c.handles) ∧
          ((∀ stage ∈ stages, IsPlainStage stage) → parse (textOfStages stages) = .ok e) := by
  refine ⟨fun stages => flatPipeline_eq_none, fun stages e he => ⟨fun registry seed c => ?_, ?_⟩⟩
  · have hrun := evaluate_flatPipeline he registry seed c
    exact ⟨hrun, by rw [contextAfter, hrun]; exact handles_contextAfter_runStages ..⟩
  · exact fun hplain => parse_textOfStages hplain he

/-- Three stages, of which the first gives an image, the second fails and the third does not run. -/
theorem flatPipeline_runs_stages_failed :
    flatPipeline [["null"], ["zoom", "-2", "x"], ["tile", "2"]] = some (.pipeline
        [.command "null" [], .command "zoom" [.literal "-2", .literal "x"],
          .command "tile" [.literal "2"]]) ∧
      (∀ stage ∈ [["null"], ["zoom", "-2", "x"], ["tile", "2"]], IsPlainStage stage) ∧
      parse "null | zoom -2 x | tile 2" = .ok (.pipeline
        [.command "null" [], .command "zoom" [.literal "-2", .literal "x"],
          .command "tile" [.literal "2"]]) ∧
      (Expr.pipeline [.command "null" [], .command "zoom" [.literal "-2", .literal "x"],
          .command "tile" [.literal "2"]]).evaluate .builtins (some (.blank 1 1))
            (.fresh ⟨[], []⟩) =
        .error (.badArgument "zoom" (.notAnInteger "factor" "-2"))
          ⟨.empty, ⟨[], []⟩, [⟨"null", [], some (.blank 1 1)⟩,
            ⟨"zoom", ["-2", "x"], some (.blank 1 1)⟩]⟩ := by
  have hflat : flatPipeline [["null"], ["zoom", "-2", "x"], ["tile", "2"]] = some (.pipeline
      [.command "null" [], .command "zoom" [.literal "-2", .literal "x"],
        .command "tile" [.literal "2"]]) := rfl
  have hnames : IsWord "null" ∧ IsWord "zoom" ∧ IsWord "tile" := by decide +kernel
  have hwords : IsValue "-2" ∧ IsWord "x" ∧ IsValue "2" := by decide +kernel
  have hplain : ∀ stage ∈ [["null"], ["zoom", "-2", "x"], ["tile", "2"]], IsPlainStage stage := by
    simp [IsPlainStage, hnames, hwords]
  -- The second stage fails, so the third one is never called.
  obtain ⟨hrun, hparse⟩ := flatPipeline_runs_stages.2 _ _ hflat
  obtain ⟨heval, -⟩ := hrun .builtins (some (.blank 1 1)) (.fresh ⟨[], []⟩)
  refine ⟨hflat, hplain, hparse hplain, ?_⟩
  rw [heval]
  rfl

end Tapestry
