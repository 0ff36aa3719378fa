import Tapestry.Proofs.Containment
import Tapestry.Proofs.ProgramSteps
import Tapestry.Proofs.RoundTrip

/-!
# Batches

A batch runs its scripts one after the other. Each is read and evaluated on the files that those
before it left, whether they failed or not, and reported once. Only at the end does the number of
failures decide on the result.

## Key results

- `runScripts_eq`: what is left of some scripts, and how many of them failed
- `countP_isFailedLine_reports`: a failure is reported with one line of its own
- `batch_runs_all`: the result of a batch, and all that it leaves behind
-/

namespace Tapestry

/-- A run leaves the files that the evaluation leaves. -/
private theorem files_run {text : String} {e : Expr} (h : parse text = .ok e) (registry : Registry)
    (seed : Option Image) (files : Workspace) :
    (run registry text seed files).2 =
      (contextAfter (e.evaluate registry seed) (.fresh files)).files := by
  rw [run_of_parse h, contextAfter]
  cases e.evaluate registry seed (.fresh files) <;> rfl

/-- A run leaves the working directory what it was. -/
private theorem Registry.SavesBelow.current_run {registry : Registry} {directory : PathName}
    (h : registry.SavesBelow directory) (text : String) (seed : Option Image) (files : Workspace) :
    (run registry text seed files).2.current = files.current := by
  cases hparse : parse text with
  | error e => simp only [run, hparse]
  | ok e =>
    obtain ⟨events, htrace⟩ := (e.performs registry seed).exists_trace (.fresh files)
    obtain ⟨puts, hfills, -⟩ := htrace.exists_fills h
    rw [files_run hparse]
    exact hfills.current_eq

namespace Program

/-! ## One script -/

/-- What comes of a script, its image or its failure, and the files that it leaves. -/
def outcome (registry : Registry) (seed : Option Image) (files : Workspace) (script : PathName) :
    Except Failure Image × Workspace :=
  match Script.load files script with
  | .error e => (.error e, files)
  | .ok text => Tapestry.run registry text seed files

/-- Whether there is a failure instead of an image. -/
def isFailure : Except Failure Image → Bool
  | .ok _ => false
  | .error _ => true

/-- What is shown of a script: a line with the size of its image, or a line and the report of its
    failure. -/
def reported (terminal : Terminal) (script : String) : Except Failure Image → List Notice
  | .ok image =>
    [.line (terminal.line .status "Evaluated"
      s!"{script} {terminal.paint .dim image.size.render}")]
  | .error e => [.line (terminal.line .error "Failed" script), .report e.diagnostic]

/-- The files that are left when some scripts are run one after the other. -/
def filesBehind (registry : Registry) (seed : Option Image) (files : Workspace)
    (scripts : List PathName) : Workspace :=
  scripts.foldl (fun files script => (outcome registry seed files script).2) files

/-- What comes of some scripts, each run on the files that those before it left. -/
def results (registry : Registry) (seed : Option Image) (files : Workspace)
    (scripts : List PathName) : List (Except Failure Image) :=
  scripts.mapIdx fun i script =>
    (outcome registry seed (filesBehind registry seed files (scripts.take i)) script).1

/-- What is shown of some scripts. -/
def reports (terminal : Terminal) (shown : PathName → String) (scripts : List PathName)
    (results : List (Except Failure Image)) : List Notice :=
  (List.zipWith (fun script result => reported terminal (shown script) result)
    scripts results).flatten

section Scripts

variable (terminal : Terminal) (registry : Registry) (seed : Option Image)

/-- The first script is run on the files as they are, the others on what it leaves. -/
private theorem results_cons (files : Workspace) (script : PathName) (scripts : List PathName) :
    results registry seed files (script :: scripts) =
      (outcome registry seed files script).1 ::
        results registry seed (outcome registry seed files script).2 scripts := by
  rw [results, List.mapIdx_cons]
  rfl

/-- Each script has its lines, in the order in which the scripts were run. -/
private theorem reports_cons (shown : PathName → String) (script : PathName)
    (scripts : List PathName)
    (result : Except Failure Image) (results : List (Except Failure Image)) :
    reports terminal shown (script :: scripts) (result :: results) =
      reported terminal (shown script) result ++ reports terminal shown scripts results := rfl

/-- Running a script leaves its files and its report, and says whether it failed. -/
private theorem runScript_eq (script : PathName) (t : Transcript) :
    runScript terminal registry seed script t =
      .ok (isFailure (outcome registry seed t.files script).1)
        { t with
          files := (outcome registry seed t.files script).2
          notices := t.notices ++ reported terminal (t.files.displayPath script)
            (outcome registry seed t.files script).1 } := by
  -- The files are read from the state, so the script runs on those that are there.
  have hfiles : files t = .ok t.files t := rfl
  have hevaluate : evaluateScript registry seed script t =
      .ok (outcome registry seed t.files script).1
        { t with files := (outcome registry seed t.files script).2 } := by
    rw [evaluateScript, bind_ok hfiles, outcome]
    cases Script.load t.files script with
    | error e => rfl
    | ok text => exact attempt_eq t registry text seed
  -- The notices are shown behind the run, and those of a failure are two.
  rw [runScript, bind_ok hfiles, bind_ok hevaluate]
  cases (outcome registry seed t.files script).1 with
  | ok image => rfl
  | error e =>
    simp only [say, bind_ok (notify_eq _ _)]
    rw [report, bind_ok (notify_eq _ _)]
    simp only [List.append_assoc]
    rfl

/-- Running scripts leaves their files and their reports, and counts those that failed. -/
theorem runScripts_eq {directory : PathName} (hregistry : registry.SavesBelow directory)
    {shown : PathName → String} (scripts : List PathName) {t : Transcript}
    (ht : t.files.displayPath = shown) :
    runScripts terminal registry seed scripts t =
      .ok ((results registry seed t.files scripts).countP isFailure)
        { t with
          files := filesBehind registry seed t.files scripts
          notices := t.notices ++
            reports terminal shown scripts (results registry seed t.files scripts) } := by
  induction scripts generalizing t with
  | nil => simp [runScripts, results, reports, filesBehind, pure, EStateM.pure]
  | cons script scripts ih =>
    -- How path names are shown depends on the working directory only, which stays.
    have hcurrent : (outcome registry seed t.files script).2.current = t.files.current := by
      rw [outcome]
      cases Script.load t.files script with
      | error e => rfl
      | ok text => exact hregistry.current_run text seed t.files
    have hshown : (outcome registry seed t.files script).2.displayPath = shown := by
      rw [← ht]
      funext p
      rw [Workspace.displayPath, Workspace.displayPath, hcurrent]
    have hfirst := runScript_eq terminal registry seed script t
    generalize hr : outcome registry seed t.files script = r at hfirst hshown
    obtain ⟨result, after⟩ := r
    have hbehind : filesBehind registry seed t.files (script :: scripts) =
        filesBehind registry seed after scripts := by
      rw [filesBehind, List.foldl_cons, hr, filesBehind]
    have hrest := @ih { t with
      files := after
      notices := t.notices ++ reported terminal (t.files.displayPath script) result } hshown
    rw [runScripts, bind_ok hfirst, bind_ok hrest, results_cons, hr, reports_cons, hbehind,
      List.countP_cons, ← List.append_assoc, ← ht]
    cases isFailure result with
    | true => rfl
    | false => rfl

end Scripts

/-! ## Counting failures -/

/-- Whether a notice is the line of a script that failed. -/
def isFailedLine (terminal : Terminal) : Notice → Bool
  | .line text => (terminal.line .error "Failed" "").toList.isPrefixOf text.toList
  | .report _ => false

section Counting

variable (terminal : Terminal)

/-- A line goes on with its message. -/
private theorem toList_line (tone : Tone) (verb message : String) :
    (terminal.line tone verb message).toList =
      (terminal.line tone verb "").toList ++ message.toList := by
  unfold Terminal.line Terminal.lineWith
  by_cases h : terminal.colour <;> simp [h]

/-- A line with another verb of the same width is not the line of a script that failed. -/
private theorem isFailedLine_line (tone : Tone) (verb message : String)
    (hlength : (terminal.line .error "Failed" "").toList.length =
      (terminal.line tone verb "").toList.length)
    (hne : terminal.line .error "Failed" "" ≠ terminal.line tone verb "") :
    isFailedLine terminal (.line (terminal.line tone verb message)) = false := by
  rw [isFailedLine, toList_line terminal tone verb message, Bool.eq_false_iff]
  intro h
  have hfirst := List.prefix_of_prefix_length_le (List.isPrefixOf_iff_prefix.1 h)
    (List.prefix_append _ _) (Nat.le_of_eq hlength)
  exact hne (String.toList_inj.1 (hfirst.eq_of_length hlength))

/-- What is shown of a script has such a line exactly when it failed. -/
private theorem countP_isFailedLine_reported (script : String) (result : Except Failure Image) :
    (reported terminal script result).countP (isFailedLine terminal) =
      if isFailure result then 1 else 0 := by
  cases result with
  | ok image =>
    -- Both labels have the same width, in colours or without, and are not the same.
    have hline : isFailedLine terminal (.line (terminal.line .status "Evaluated"
        s!"{script} {terminal.paint .dim image.size.render}")) = false := by
      obtain ⟨colour⟩ := terminal
      apply isFailedLine_line
      · cases colour <;> decide
      · cases colour <;> decide
    rw [reported, List.countP_singleton, hline]
    rfl
  | error e =>
    have hline : isFailedLine terminal (.line (terminal.line .error "Failed" script)) = true := by
      rw [isFailedLine, toList_line terminal .error "Failed" script]
      exact List.isPrefixOf_iff_prefix.2 (List.prefix_append _ _)
    rw [reported, List.countP_cons, List.countP_singleton, hline]
    rfl

/-- There are as many such lines as failures. -/
theorem countP_isFailedLine_reports (shown : PathName → String) (scripts : List PathName)
    (results : List (Except Failure Image)) (hlength : results.length = scripts.length) :
    (reports terminal shown scripts results).countP (isFailedLine terminal) =
      results.countP isFailure := by
  -- Scripts and results run in parallel, one report for each pair.
  induction scripts generalizing results with
  | nil =>
    rw [List.length_eq_zero_iff.1 hlength]
    rfl
  | cons script scripts ih =>
    cases results with
    | nil => cases hlength
    | cons result results =>
      rw [reports_cons, List.countP_append, countP_isFailedLine_reported,
        ih results (Nat.succ.inj hlength), List.countP_cons, Nat.add_comm]

end Counting

/-! ## The whole batch -/

/-- The line at the end of a batch in which no script failed. -/
def finished (terminal : Terminal) (n : Nat) : Notice :=
  .line (terminal.line .status "Finished" (Failure.scripts n))

/-- The last line of a batch reports no script. -/
private theorem isFailedLine_finished (terminal : Terminal) (n : Nat) :
    isFailedLine terminal (finished terminal n) = false := by
  obtain ⟨colour⟩ := terminal
  apply isFailedLine_line
  · cases colour <;> decide
  · cases colour <;> decide

/-- What a batch does with scripts that are not none at all. -/
private theorem batch_eq (terminal : Terminal) {t : Transcript} {found : Option Manifest}
    (h : Manifest.find t.files (Location.path t.files.current) = .ok found)
    {paths : List PathName} (hscripts : scriptsOf t.files (found.getD .standard) paths ≠ [])
    (output : Option PathName) :
    let m := found.getD .standard
    let scripts := scriptsOf t.files m paths
    let registry := batchRegistry ((Location.path t.files.current).join (output.getD m.output))
    batch terminal paths output t =
      (do
        let failed ← runScripts terminal registry m.seedImage scripts
        if failed = 0 then notify (finished terminal scripts.length)
        else throw (Failure.batch failed scripts.length)) t := by
  intro m scripts registry
  -- Reading the manifest changes nothing, and the scripts are those of the files as they are.
  have hfiles : files t = .ok t.files t := rfl
  have hmanifest : manifest t = .ok m t := by
    rw [manifest, bind_ok hfiles, h]
    rfl
  rw [batch, bind_ok hmanifest, bind_ok hfiles]
  cases hs : scriptsOf t.files m paths with
  | nil => exact absurd hs hscripts
  | cons script rest =>
    have hcons : scripts = script :: rest := hs
    rw [hcons]
    rfl

/-- Let the manifest among the files be understood, or let there be none and the standard one be
    used, and let the path names of a request, or the sources of the manifest, lead to a list of
    scripts that is not empty. Each of them is read and run in a fresh context, with the built-in
    commands and a `save` that puts relative path names below the output directory, with the seed of
    the manifest, and on the files that the scripts before it left, whatever came of those. It is
    reported in its turn, by one line when there is an image and by a line and the report of the
    failure when there is none. When no script failed, the batch succeeds and a last line says so;
    otherwise it fails, and says how many of the scripts did: as many as there are lines of failed
    scripts. -/
theorem batch_runs_all (terminal : Terminal) (input : List Answer) {files : Workspace}
    {found : Option Manifest} (h : Manifest.find files (Location.path files.current) = .ok found)
    {paths : List PathName} (hscripts : scriptsOf files (found.getD .standard) paths ≠ [])
    (output : Option PathName) :
    let m := found.getD .standard
    let scripts := scriptsOf files m paths
    let registry := batchRegistry ((Location.path files.current).join (output.getD m.output))
    let results := scripts.mapIdx fun i script =>
      (outcome registry m.seedImage (filesBehind registry m.seedImage files (scripts.take i))
        script).1
    let failed := results.countP isFailure
    let shown := (List.zipWith
      (fun script result => reported terminal (files.displayPath script) result)
      scripts results).flatten
    run terminal input files (.batch paths output) =
        (if failed = 0 then .ok () else .error (.batch failed scripts.length),
          { files := filesBehind registry m.seedImage files scripts
            output := ""
            notices := shown ++ if failed = 0 then [finished terminal scripts.length] else [] }) ∧
      (run terminal input files (.batch paths output)).2.notices.countP (isFailedLine terminal) =
        failed ∧
      (Failure.batch failed scripts.length).message =
        "Build error: " ++ toString failed ++ " of " ++ Failure.scripts scripts.length ++
          " failed" := by
  intro m scripts registry results' failed shown
  -- Scripts are saved below the output directory, so none of them moves the working directory.
  have hregistry := savesBelow_batchRegistry
    ((Location.path files.current).join (output.getD m.output))
  have hruns : runScripts terminal registry m.seedImage scripts ⟨files, "", []⟩ =
      .ok failed ⟨filesBehind registry m.seedImage files scripts, "", [] ++ shown⟩ :=
    runScripts_eq terminal registry m.seedImage hregistry scripts rfl
  have hbatch : batch terminal paths output ⟨files, "", []⟩ = _ :=
    batch_eq terminal (t := ⟨files, "", []⟩) h hscripts output
  have hcount : shown.countP (isFailedLine terminal) = failed :=
    countP_isFailedLine_reports terminal files.displayPath scripts results' (by simp [results'])
  -- A batch ends with its last line, or with a failure that counts.
  have hrun : run terminal input files (.batch paths output) =
      (if failed = 0 then .ok () else .error (.batch failed scripts.length),
        ⟨filesBehind registry m.seedImage files scripts, "",
          shown ++ if failed = 0 then [finished terminal scripts.length] else []⟩) := by
    rw [run, perform, hbatch, bind_ok hruns]
    by_cases hfailed : failed = 0
    · simp only [if_pos hfailed]
      rfl
    · simp only [if_neg hfailed, List.append_nil]
      rfl
  refine ⟨hrun, ?_, rfl⟩
  rw [hrun]
  simp only
  rw [List.countP_append, hcount]
  by_cases hfailed : failed = 0
  · rw [if_pos hfailed, List.countP_singleton, isFailedLine_finished]
    rfl
  · rw [if_neg hfailed]
    rfl

/-- A script that is no text, and one behind it that is. -/
theorem batch_runs_all_unreadable :
    let files : Workspace := ⟨[(["a.weave"], .file (.picture (.blank 1 1))),
      (["b.weave"], .file (.bytes "null".toUTF8))], []⟩
    let paths : List PathName := [⟨"a.weave"⟩, ⟨"b.weave"⟩]
    Manifest.find files (Location.path files.current) = .ok none ∧
      scriptsOf files .standard paths = paths ∧
      (run ⟨false⟩ [] files (.batch paths none)).1 = .error (.batch 1 2) ∧
      (run ⟨false⟩ [] files (.batch paths none)).2.notices =
        [.line "      Failed a.weave",
          .report (Failure.diagnostic (.unreadable .script ⟨"a.weave"⟩ .notText)),
          .line "   Evaluated b.weave 256x256"] := by
  intro files paths
  have hmanifest : Manifest.find files (Location.path files.current) = .ok none := by
    decide +kernel
  have hscripts : scriptsOf files .standard paths = paths := by decide +kernel
  have hne : scriptsOf files ((none : Option Manifest).getD .standard) paths ≠ [] := by
    rw [Option.getD_none, hscripts]
    exact List.cons_ne_nil _ _
  -- The first script cannot be read, and the second one passes the seed on.
  have hfirst (registry : Registry) (seed : Option Image) :
      outcome registry seed files ⟨"a.weave"⟩ =
        (.error (.unreadable .script ⟨"a.weave"⟩ .notText), files) := by
    have hload : Script.load files ⟨"a.weave"⟩ =
        .error (.unreadable .script ⟨"a.weave"⟩ .notText) := by decide +kernel
    rw [outcome, hload]
  have hsecond (directory : PathName) :
      (outcome (batchRegistry directory) Manifest.standard.seedImage files ⟨"b.weave"⟩).1 =
        .ok (.blank 256 256) := by
    have hload : Script.load files ⟨"b.weave"⟩ = .ok "null" := by decide +kernel
    have hnull : IsWord "null" := by decide +kernel
    have hparse : parse "null" = .ok (.command "null" []) := by
      have hrender : (Expr.command "null" []).render = "null" := by decide +kernel
      have hread := Expr.parse_render_eq (e := .command "null" []) ⟨hnull, trivial⟩
      rwa [hrender] at hread
    rw [outcome, hload]
    simp only
    rw [run_of_parse hparse]
    rfl
  obtain ⟨hrun, -, -⟩ := batch_runs_all ⟨false⟩ [] hmanifest hne none
  simp only [Option.getD_none, hscripts, paths, List.mapIdx_cons, List.mapIdx_nil, List.take_zero,
    List.take_succ_cons, filesBehind, List.foldl_nil, List.foldl_cons, hfirst, hsecond] at hrun
  refine ⟨hmanifest, hscripts, ?_, ?_⟩
  · rw [hrun]
    rfl
  · rw [hrun]
    decide +kernel

end Program

end Tapestry
