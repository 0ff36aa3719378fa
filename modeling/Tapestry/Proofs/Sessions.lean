import Tapestry.Proofs.ProgramSteps

/-!
# Sessions

The lines of the standard input are expressions that have nothing to do with each other, except that
they work on the same files. A session is described here by what is evaluated in it: the lines up to
the first one that ends it, blank ones left out, each run for itself on the files that those before
it left. What is shown and written follows from these runs line by line, and nothing of what comes
behind the end of a session has any influence on it.

## Key results

- `splitLines_spec`: where one line of the input ends and the next one begins
- `converse_eq`: what a session leaves, by induction on its lines
- `converse_append`: what comes behind the line that ends a session does not count
- `repl_isolates_lines`: the same for the program, on any bytes
-/

namespace Tapestry.Program

/-! ## Lines of bytes -/

/-- The lines of some bytes are these bytes again. A line is not empty and has no line feed but at
    its end, and every line that is not the last one ends with a line feed. -/
theorem splitLines_spec (bytes : List UInt8) :
    (splitLines bytes).flatten = bytes ∧
      (∀ line ∈ splitLines bytes, line ≠ [] ∧ 10 ∉ line.dropLast) ∧
      ∀ line ∈ (splitLines bytes).dropLast, line.getLast? = some 10 := by
  fun_induction splitLines bytes with
  | case1 => simp
  | case2 bs ih =>
    obtain ⟨hflatten, hlines, hends⟩ := ih
    refine ⟨by simp [hflatten], by simpa using hlines, ?_⟩
    cases hrest : splitLines bs with
    | nil => simp
    | cons l ls =>
      rw [hrest] at hends
      simpa using hends
  | case3 b bs hb hnil ih =>
    -- Bytes without lines are no bytes, so this line is the last one.
    obtain ⟨hflatten, -, -⟩ := ih
    rw [hnil] at hflatten
    simp [← hflatten]
  | case4 b bs hb l ls hcons ih =>
    rw [hcons] at ih
    obtain ⟨hflatten, hlines, hends⟩ := ih
    obtain ⟨⟨hne, hfeed⟩, hmore⟩ := List.forall_mem_cons.1 hlines
    obtain ⟨c, cs, rfl⟩ := List.exists_cons_of_ne_nil hne
    refine ⟨by simpa using hflatten, List.forall_mem_cons.2 ⟨⟨by simp, ?_⟩, hmore⟩, ?_⟩
    · rw [List.dropLast_cons_cons, List.mem_cons, not_or]
      exact ⟨fun h => hb h.symm, hfeed⟩
    · cases ls with
      | nil => simp
      | cons m ms => simpa using hends

/-! ## What a line asks for -/

/-- Whether a session goes on behind what the input gave. -/
def Answer.goesOn : Answer → Bool
  | .line text => Text.trimmed text ∉ ["exit", "quit", ":q"]
  | .notText => false

/-- The expression that a line holds, unless it is blank. -/
def Answer.expr? : Answer → Option String
  | .line text => if Text.trimmed text = "" then none else some (Text.trimmed text)
  | .notText => none

/-- The lines that are handled before a session ends. -/
def handled (answers : List Answer) : List Answer := answers.takeWhile Answer.goesOn

/-- The expressions that are evaluated in a session. -/
def evaluated (answers : List Answer) : List String := (handled answers).filterMap Answer.expr?

/-- The files that are left when some texts are run one after the other. -/
def filesAfter (seed : Option Image) (files : Workspace) (exprs : List String) : Workspace :=
  exprs.foldl (fun files expr => (Tapestry.run .builtins expr seed files).2) files

/-- What is shown of the result of a line: the size of its image, or the report of its failure. -/
def shown (terminal : Terminal) : Except Failure Image → Notice
  | .ok image => .line (terminal.line .status "Ok" image.size.render)
  | .error e => .report e.diagnostic

/-- What is shown of each of some texts, where each is run on the files that those before it
    left. -/
def shownAll (terminal : Terminal) (seed : Option Image) (files : Workspace)
    (exprs : List String) : List Notice :=
  exprs.mapIdx fun i expr =>
    shown terminal (Tapestry.run .builtins expr seed (filesAfter seed files (exprs.take i))).1

/-- The first expression is evaluated on the files as they are, the others on what it leaves. -/
private theorem shownAll_cons (terminal : Terminal) (seed : Option Image) (files : Workspace)
    (expr : String) (exprs : List String) :
    shownAll terminal seed files (expr :: exprs) =
      shown terminal (Tapestry.run .builtins expr seed files).1 ::
        shownAll terminal seed (Tapestry.run .builtins expr seed files).2 exprs := by
  rw [shownAll, List.mapIdx_cons]
  rfl

/-- Expressions behind others are evaluated on what those leave. -/
private theorem shownAll_append (terminal : Terminal) (seed : Option Image) (files : Workspace)
    (exprs more : List String) :
    shownAll terminal seed files (exprs ++ more) =
      shownAll terminal seed files exprs ++
        shownAll terminal seed (filesAfter seed files exprs) more := by
  induction exprs generalizing files with
  | nil => rfl
  | cons expr exprs ih =>
    rw [List.cons_append, shownAll_cons, shownAll_cons, ih]
    rfl

/-! ## One line -/

section Line

variable (terminal : Terminal) (seed : Option Image) (t : Transcript)

/-- Evaluating a line leaves its files and one notice. -/
private theorem evaluateLine_eq (expr : String) :
    evaluateLine terminal seed expr t =
      .ok () { t with
        files := (Tapestry.run .builtins expr seed t.files).2
        notices :=
          t.notices ++ [shown terminal (Tapestry.run .builtins expr seed t.files).1] } := by
  rw [evaluateLine, bind_ok (attempt_eq t .builtins expr seed)]
  cases (Tapestry.run .builtins expr seed t.files).1 with
  | ok image => rfl
  | error e => rfl

/-- What a line asks for, in terms of the text that it holds. -/
private theorem ofLine_eq (text : String) :
    Wish.ofLine text =
      if Answer.goesOn (.line text) then
        match Answer.expr? (.line text) with
        | some expr => .evaluate expr
        | none => .nothing
      else .leave := by
  -- The words that end a session and the blank line come first, and every other line is an
  -- expression.
  rw [Wish.ofLine, Answer.goesOn, Answer.expr?]
  split
  · next h => simp [h]
  · next h => simp [h]
  · next h => simp [h]
  · next h => simp [h]
  · next hblank hexit hquit hq =>
    have hne : Text.trimmed text ≠ "" := hblank
    have hexit : Text.trimmed text ≠ "exit" := hexit
    have hquit : Text.trimmed text ≠ "quit" := hquit
    have hq : Text.trimmed text ≠ ":q" := hq
    simp [hne, hexit, hquit, hq]

/-- A line that does not end the session is evaluated unless it is blank, and the session goes
    on. -/
private theorem answer_of_goesOn {a : Answer} (h : a.goesOn = true) :
    answer terminal seed a t =
      .ok true { t with
        files := filesAfter seed t.files a.expr?.toList
        notices := t.notices ++ shownAll terminal seed t.files a.expr?.toList } := by
  cases a with
  | notText => cases h
  | line text =>
    rw [answer, ofLine_eq, if_pos h]
    cases Answer.expr? (.line text) with
    | none =>
      -- A blank line shows nothing and leaves the files alone.
      have hnotices : t.notices ++ shownAll terminal seed t.files [] = t.notices :=
        List.append_nil _
      simp only [Option.toList_none, hnotices]
      rfl
    | some expr => exact bind_ok (evaluateLine_eq terminal seed t expr) _

/-- A line that ends the session has no other effect. -/
private theorem answer_of_not_goesOn {text : String} (h : Answer.goesOn (.line text) = false) :
    answer terminal seed (.line text) t = .ok false t := by
  rw [answer, ofLine_eq, h]
  rfl

end Line

/-! ## All lines -/

/-- How a session ends: with a failure when it comes to bytes that are not text. -/
def ending (answers : List Answer) : Except Failure Unit :=
  if answers[(handled answers).length]? = some .notText then
    .error (.unreadable .terminal inputName .notText)
  else .ok ()

/-- What a session leaves: the files behind its last line, one prompt for each answer that it asked
    for, and one notice for each expression. -/
def leftBy (terminal : Terminal) (seed : Option Image) (answers : List Answer) (t : Transcript) :
    Transcript where
  files := filesAfter seed t.files (evaluated answers)
  output := t.output ++ String.join (List.replicate ((handled answers).length + 1) prompt)
  notices := t.notices ++ shownAll terminal seed t.files (evaluated answers)

section All

variable (terminal : Terminal) (seed : Option Image) {a : Answer} {as : List Answer}

/-- An answer after which the session goes on is handled, and the next one is asked for. -/
private theorem handled_cons_of_pos (h : a.goesOn = true) : handled (a :: as) = a :: handled as :=
  List.takeWhile_cons_of_pos h

/-- Behind any other answer nothing is handled. -/
private theorem handled_cons_of_neg (h : ¬ a.goesOn = true) : handled (a :: as) = [] :=
  List.takeWhile_cons_of_neg h

/-- An answer after which the session goes on does not end it. -/
private theorem ending_cons_of_pos (h : a.goesOn = true) : ending (a :: as) = ending as := by
  rw [ending, handled_cons_of_pos h, List.length_cons, List.getElem?_cons_succ, ending]

/-- A session without lines leaves a prompt. -/
private theorem leftBy_of_handled_nil {answers : List Answer} (h : handled answers = [])
    (t : Transcript) :
    leftBy terminal seed answers t = { t with output := t.output ++ prompt } := by
  have hprompt : String.join (List.replicate 1 prompt) = prompt := by decide
  have hnotices : t.notices ++ shownAll terminal seed t.files [] = t.notices :=
    List.append_nil _
  simp only [leftBy, evaluated, h, List.length_nil, hprompt, List.filterMap_nil, hnotices]
  rfl

/-- What a session leaves, it leaves line by line. -/
private theorem leftBy_cons_of_pos (h : a.goesOn = true) (t : Transcript) :
    leftBy terminal seed (a :: as) t =
      leftBy terminal seed as
        { files := filesAfter seed t.files a.expr?.toList
          output := t.output ++ prompt
          notices := t.notices ++ shownAll terminal seed t.files a.expr?.toList } := by
  have hevaluated : evaluated (a :: as) = a.expr?.toList ++ evaluated as := by
    rw [evaluated, handled_cons_of_pos h, List.filterMap_cons, evaluated]
    -- Only an expression adds something to evaluate; every line adds a prompt.
    cases a.expr? with
    | none => rfl
    | some expr => rfl
  have houtput : String.join (List.replicate ((handled as).length + 1 + 1) prompt) =
      prompt ++ String.join (List.replicate ((handled as).length + 1) prompt) := by
    rw [List.replicate_succ, String.join_cons]
  simp only [leftBy, hevaluated, handled_cons_of_pos h, List.length_cons, houtput, filesAfter,
    shownAll_append, List.foldl_append, List.append_assoc, String.append_assoc]

/-- A session does what its lines ask for, up to the first one that ends it. -/
theorem converse_eq (answers : List Answer) (t : Transcript) :
    converse terminal seed answers t =
      ofExcept (ending answers) (leftBy terminal seed answers t) := by
  induction answers generalizing t with
  | nil =>
    rw [leftBy_of_handled_nil terminal seed rfl]
    rfl
  | cons a as ih =>
    -- The prompt is written before anything is known about the answer.
    rw [converse, bind_ok (print_eq t prompt)]
    by_cases h : a.goesOn = true
    · have hanswer := answer_of_goesOn terminal seed { t with output := t.output ++ prompt } h
      rw [bind_ok hanswer, if_pos rfl, ih, ending_cons_of_pos h, leftBy_cons_of_pos _ _ h]
    · have hended : handled (a :: as) = [] := handled_cons_of_neg h
      rw [leftBy_of_handled_nil terminal seed hended, ending, hended]
      cases a with
      | notText => rfl
      | line text =>
        have hanswer := answer_of_not_goesOn terminal seed { t with output := t.output ++ prompt }
          (Bool.not_eq_true _ ▸ h)
        rw [bind_ok hanswer]
        rfl

/-- What comes behind the answer that ends a session is not looked at. -/
theorem converse_append {a : Answer} (h : a.goesOn = false) (before rest : List Answer) :
    converse terminal seed (before ++ a :: rest) = converse terminal seed (before ++ [a]) := by
  induction before with
  | nil =>
    have hended (as : List Answer) : handled (a :: as) = [] := handled_cons_of_neg (by simp [h])
    funext t
    rw [List.nil_append, List.nil_append, converse_eq, converse_eq,
      leftBy_of_handled_nil _ _ (hended rest), leftBy_of_handled_nil _ _ (hended []), ending,
      ending, hended, hended]
    rfl
  | cons b before ih => rw [List.cons_append, List.cons_append, converse, converse, ih]

end All

/-! ## The program -/

/-- What is shown when a session starts. -/
def greeting (terminal : Terminal) : Notice :=
  .line (terminal.line .info "Ready"
    (terminal.paint .dim "type an expression, or 'exit' to quit"))

/-- A session starts with the seed of the manifest and a greeting. -/
theorem repl_eq (terminal : Terminal) {options : SeedOptions} {t : Transcript} {m : Manifest}
    (h : manifestFor options t.files = .ok m) (answers : List Answer) :
    repl terminal options answers t =
      converse terminal m.seedImage answers
        { t with notices := t.notices ++ [greeting terminal] } := by
  have hmanifest := seededManifest_eq t options
  rw [h, ofExcept_ok] at hmanifest
  rw [repl, greet, bind_assoc, bind_ok hmanifest]
  rfl

/-- A session greets, asks line by line and leaves what its lines leave. -/
theorem run_repl_eq (terminal : Terminal) {options : SeedOptions} {files : Workspace}
    {m : Manifest} (h : manifestFor options files = .ok m) (answers : List Answer) :
    run terminal answers files (.repl options) =
      (ending answers, leftBy terminal m.seedImage answers ⟨files, "", [greeting terminal]⟩) := by
  have hrepl := repl_eq terminal (t := ⟨files, "", []⟩) h answers
  rw [run, perform, hrepl, converse_eq]
  cases ending answers with
  | ok u => rfl
  | error e => rfl

/-- Let the options of a session and the manifest among the files be understood, and let the
    standard input hold any bytes. The input is cut into lines behind its line feeds. The lines are
    handled up to the first one that asks to leave, that is not text, or that is not there; only one
    that is not text makes the session fail. Each of these lines that is not blank is shown with one
    notice: the size or the report that come of its trimmed text when it is run in a fresh context,
    with the built-in commands and the seed of the session, on the files that the lines before it
    left. The files of the last line stay, a prompt is written for each line that is handled and for
    the answer that ends the session, and nothing behind this answer is looked at. -/
theorem repl_isolates_lines (terminal : Terminal) {options : SeedOptions} {files : Workspace}
    {m : Manifest} (h : manifestFor options files = .ok m) (input : ByteArray) :
    ((splitLines input.toList).flatten = input.toList ∧
      (∀ line ∈ splitLines input.toList, line ≠ [] ∧ 10 ∉ line.dropLast) ∧
      ∀ line ∈ (splitLines input.toList).dropLast, line.getLast? = some 10) ∧
    run terminal (Answer.all input) files (.repl options) =
      (if (Answer.all input)[(handled (Answer.all input)).length]? = some .notText then
          .error (.unreadable .terminal inputName .notText)
        else .ok (),
        { files := filesAfter m.seedImage files (evaluated (Answer.all input))
          output := String.join (List.replicate ((handled (Answer.all input)).length + 1) prompt)
          notices := greeting terminal ::
            (evaluated (Answer.all input)).mapIdx fun i expr =>
              shown terminal (Tapestry.run .builtins expr m.seedImage
                (filesAfter m.seedImage files ((evaluated (Answer.all input)).take i))).1 }) ∧
    ∀ a before rest, Answer.goesOn a = false →
      run terminal (before ++ a :: rest) files (.repl options) =
        run terminal (before ++ [a]) files (.repl options) := by
  refine ⟨splitLines_spec _, ?_, ?_⟩
  · have houtput (prompts : String) : "" ++ prompts = prompts := String.empty_append
    rw [run_repl_eq terminal h, leftBy, houtput, ending]
    rfl
  · intro a before rest ha
    have hrepl := repl_eq terminal (t := ⟨files, "", []⟩) h
    simp only [run, perform, hrepl, converse_append terminal _ ha]

/-- An unknown command and a blank line in front of `exit`, and a line behind it. -/
theorem repl_isolates_lines_unknown :
    manifestFor ⟨none, false⟩ ⟨[], []⟩ = .ok .standard ∧
      (run ⟨false⟩ (Answer.all "nope\n \nexit\nnull\n".toUTF8) ⟨[], []⟩
          (.repl ⟨none, false⟩)).2.notices =
        [greeting ⟨false⟩,
          shown ⟨false⟩ (Tapestry.run .builtins "nope" Manifest.standard.seedImage ⟨[], []⟩).1] ∧
      (run ⟨false⟩ (Answer.all "nope\n \nexit\nnull\n".toUTF8) ⟨[], []⟩
          (.repl ⟨none, false⟩)).2.output = "weave> weave> weave> " := by
  have hmanifest : manifestFor ⟨none, false⟩ ⟨[], []⟩ = .ok .standard := rfl
  have hanswers : Answer.all "nope\n \nexit\nnull\n".toUTF8 =
      [.line "nope\n", .line " \n", .line "exit\n", .line "null\n"] := by decide +kernel
  have hevaluated : evaluated (Answer.all "nope\n \nexit\nnull\n".toUTF8) = ["nope"] := by
    rw [hanswers]
    decide +kernel
  have hhandled : (handled (Answer.all "nope\n \nexit\nnull\n".toUTF8)).length = 2 := by
    rw [hanswers]
    decide +kernel
  have hsession := (repl_isolates_lines ⟨false⟩ hmanifest "nope\n \nexit\nnull\n".toUTF8).2.1
  rw [hevaluated, hhandled] at hsession
  refine ⟨hmanifest, ?_, ?_⟩
  · rw [hsession]
    rfl
  · rw [hsession]
    decide

end Tapestry.Program
