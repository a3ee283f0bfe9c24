import SelfCapture.Command
import SelfCapture.Proofs.Run.Report
import Mathlib.Algebra.BigOperators.Group.List.Basic

/-! # What a run shows, file by file

  What each outcome adds to what is shown does not depend on the outcomes
  around it: its text for the output, its text for the error output, its
  share of the summary and its reports for the JSON list.  One step of
  `Display.showOutcome` adds just that, so by induction what is shown of
  outcomes is the sum of what they add, and what is shown of two runs of
  outcomes one after the other is put together from what is shown of each.
-/

namespace SelfCapture

/-! ## Section 1: What one outcome adds -/

namespace Summary

/-- Counts added field by field. -/
def add (a b : Summary) : Summary where
  files := a.files + b.files
  errors := a.errors + b.errors
  warnings := a.warnings + b.warnings
  readFailures := a.readFailures + b.readFailures

instance : Add Summary := ⟨add⟩

instance : Zero Summary := ⟨{}⟩

theorem add_eq (a b : Summary) :
    a + b = ⟨a.files + b.files, a.errors + b.errors, a.warnings + b.warnings,
      a.readFailures + b.readFailures⟩ := rfl

instance : AddCommMonoid Summary where
  add_assoc a b c := by simp only [add_eq, Nat.add_assoc]
  add_comm a b := by simp only [add_eq, Nat.add_comm]
  zero_add a := by
    change add {} a = a
    simp only [add, Nat.zero_add]
  add_zero a := rfl
  nsmul := nsmulRec

end Summary

/-- The reports counted as errors and those counted as warnings. -/
def Summary.ofReports (reports : List Report) : Summary where
  errors := reports.countP (·.isError)
  warnings := reports.countP (!·.isError)

namespace Outcome

/-- The reports of a file that could be checked. -/
def readableReports (outcome : Outcome) : List Report :=
  match outcome.result with
  | .ok _ => outcome.reports
  | .error _ => []

/-- What a file adds to the counts. -/
def counts (outcome : Outcome) : Summary :=
  match outcome.result with
  | .ok _ => { files := 1 } + Summary.ofReports outcome.reports
  | .error _ => { files := 1, readFailures := 1 }

end Outcome

namespace Layout

/-- The progress line of a file, unless progress is left out. -/
def progress (layout : Layout) (directory path : String) : String :=
  if layout.silent then "" else progressLine directory path

/-- What a file adds to the output. -/
def outputOf (layout : Layout) (directory : String) (outcome : Outcome) : String :=
  match layout.format with
  | .lines =>
    layout.progress directory outcome.path ++
      Report.renderAll layout.colour outcome.readableReports
  | .json => ""

/-- What a file adds to the error output. -/
def errorsOf (layout : Layout) (directory : String) (outcome : Outcome) : String :=
  (match layout.format with
    | .lines => ""
    | .json => layout.progress directory outcome.path) ++
  match outcome.result with
    | .ok _ => ""
    | .error failure => failure.line

/-- The reports of a file that wait for the JSON list. -/
def waitingOf (layout : Layout) (outcome : Outcome) : List Report :=
  match layout.format with
  | .lines => []
  | .json => outcome.readableReports

end Layout

/-! ## Section 2: Showing outcomes -/

theorem Summary.foldl_countReport (summary : Summary) (reports : List Report) :
    reports.foldl countReport summary = summary + ofReports reports := by
  induction reports generalizing summary with
  | nil => rfl
  | cons report others ih =>
    rw [List.foldl_cons, ih]
    unfold countReport
    cases herror : report.isError <;>
      simp [add_eq, ofReports, herror] <;> omega

namespace Display

variable (layout : Layout) (directory : String)

/-- Showing an outcome adds what is its own. -/
theorem showOutcome_eq (d : Display) (outcome : Outcome) :
    d.showOutcome layout directory outcome =
      { out := d.out ++ layout.outputOf directory outcome
        err := d.err ++ layout.errorsOf directory outcome
        summary := d.summary + outcome.counts
        waiting := d.waiting ++ layout.waitingOf outcome } := by
  obtain ⟨path, reports, result⟩ := outcome
  obtain ⟨format, silent, colour⟩ := layout
  cases result <;> cases format <;> cases silent <;>
    simp [showOutcome, showProgress, showFailure, showReports, Summary.foldl_countReport,
      Layout.outputOf, Layout.errorsOf, Layout.waitingOf, Layout.progress,
      Outcome.readableReports, Outcome.counts, Report.renderAll, Summary.add_eq,
      String.append_assoc, Nat.add_assoc]

/-- Showing outcomes in order adds what each of them adds. -/
theorem foldl_showOutcome (d : Display) (outcomes : List Outcome) :
    outcomes.foldl (showOutcome layout directory) d =
      { out := d.out ++ String.join (outcomes.map (layout.outputOf directory))
        err := d.err ++ String.join (outcomes.map (layout.errorsOf directory))
        summary := d.summary + (outcomes.map Outcome.counts).sum
        waiting := d.waiting ++ outcomes.flatMap layout.waitingOf } := by
  induction outcomes generalizing d with
  | nil => simp
  | cons outcome others ih =>
    rw [List.foldl_cons, ih, showOutcome_eq]
    simp only [List.map_cons, List.flatMap_cons, List.sum_cons, String.join_cons,
      String.append_assoc, List.append_assoc, add_assoc]

end Display

namespace Output

variable (layout : Layout) (directory : String) (outcomes : List Outcome)

/-! ## Section 3: The whole output -/

theorem err_ofOutcomes :
    (ofOutcomes layout directory outcomes).err =
      String.join (outcomes.map (layout.errorsOf directory)) := by
  unfold ofOutcomes Display.toOutput
  rw [Display.foldl_showOutcome]
  cases layout.format <;> exact String.empty_append

theorem summary_ofOutcomes :
    (ofOutcomes layout directory outcomes).summary = (outcomes.map Outcome.counts).sum := by
  unfold ofOutcomes Display.toOutput
  rw [Display.foldl_showOutcome]
  cases layout.format <;> exact zero_add _

/-- Nothing is put out before the JSON list. -/
theorem join_outputOf_json (hjson : layout.format = .json) :
    String.join (outcomes.map (layout.outputOf directory)) = "" := by
  induction outcomes with
  | nil => rfl
  | cons outcome others ih =>
    rw [List.map_cons, String.join_cons, ih, Layout.outputOf, hjson, String.append_empty]

theorem out_ofOutcomes :
    (ofOutcomes layout directory outcomes).out =
      match layout.format with
      | .lines => String.join (outcomes.map (layout.outputOf directory))
      | .json => Report.renderJson (outcomes.flatMap Outcome.readableReports) := by
  unfold ofOutcomes Display.toOutput
  rw [Display.foldl_showOutcome]
  cases hformat : layout.format with
  | lines => exact String.empty_append
  | json =>
    have hwaiting : layout.waitingOf = Outcome.readableReports := by
      unfold Layout.waitingOf
      simp only [hformat]
    simp only [join_outputOf_json layout directory outcomes hformat, hwaiting,
      String.empty_append, List.nil_append]

end Output

/-! ## Section 4: Counts and the exit status -/

/-- All files could be checked, and none has an error. -/
def AllClean (outcomes : List Outcome) : Prop :=
  ∀ outcome ∈ outcomes, (∃ statistics, outcome.result = .ok statistics) ∧
    ∀ report ∈ outcome.reports, report.severity ≠ .error

namespace Outcome

theorem files_counts (outcome : Outcome) : outcome.counts.files = 1 := by
  unfold counts
  cases outcome.result <;> rfl

theorem errors_add_warnings_counts (outcome : Outcome) :
    outcome.counts.errors + outcome.counts.warnings = outcome.readableReports.length := by
  unfold counts readableReports
  cases outcome.result with
  | error failure => rfl
  | ok statistics =>
    have hlength := List.length_eq_countP_add_countP (·.isError) (l := outcome.reports)
    simp_all [Summary.add_eq, Summary.ofReports]

theorem isClean_counts (outcome : Outcome) :
    outcome.counts.isClean = true ↔ (∃ statistics, outcome.result = .ok statistics) ∧
      ∀ report ∈ outcome.reports, report.severity ≠ .error := by
  unfold counts
  cases outcome.result with
  | error failure => simp [Summary.isClean]
  | ok statistics =>
    simp [Summary.isClean, Summary.add_eq, Summary.ofReports, Report.isError]

end Outcome

namespace Summary

theorem isClean_add (a b : Summary) :
    (a + b).isClean = true ↔ a.isClean = true ∧ b.isClean = true := by
  simp only [isClean, add_eq, Bool.and_eq_true, beq_iff_eq]
  omega

/-- Counts of outcomes: each file once, each report of a file that could be checked once. -/
theorem sum_counts (outcomes : List Outcome) :
    (outcomes.map Outcome.counts).sum.files = outcomes.length ∧
    (outcomes.map Outcome.counts).sum.errors + (outcomes.map Outcome.counts).sum.warnings =
      (outcomes.flatMap Outcome.readableReports).length := by
  induction outcomes with
  | nil => exact ⟨rfl, rfl⟩
  | cons outcome others ih =>
    have hfiles := outcome.files_counts
    have hreports := outcome.errors_add_warnings_counts
    simp only [List.map_cons, List.sum_cons, add_eq, List.length_cons, List.flatMap_cons,
      List.length_append]
    omega

theorem isClean_sum (outcomes : List Outcome) :
    (outcomes.map Outcome.counts).sum.isClean = true ↔ AllClean outcomes := by
  induction outcomes with
  | nil => exact ⟨fun _ _ hmem => absurd hmem List.not_mem_nil, fun _ => rfl⟩
  | cons outcome others ih =>
    rw [List.map_cons, List.sum_cons, isClean_add, ih, Outcome.isClean_counts, AllClean,
      AllClean, List.forall_mem_cons]

end Summary

/-- The exit status is 0 if all files are clean, else 1. -/
theorem Reply.status_ofRun (layout : Layout) (directory : String) (outcomes : List Outcome) :
    ((ofRun (.ok (Output.ofOutcomes layout directory outcomes))).status = 0 ↔
      AllClean outcomes) ∧
    ((ofRun (.ok (Output.ofOutcomes layout directory outcomes))).status = 1 ↔
      ¬ AllClean outcomes) := by
  rw [← Summary.isClean_sum, ← Output.summary_ofOutcomes layout directory]
  cases hclean : (Output.ofOutcomes layout directory outcomes).summary.isClean <;>
    simp [ofRun, hclean]

/-- Carrying out a plan shows what came of each file. -/
theorem Plan.carryOut_eq (plan : Plan) (fs : FileSystem Id) (arguments : Arguments)
    (surroundings : Surroundings) (root : String) :
    plan.carryOut fs arguments surroundings root =
      let store : Option Index.Store := openIndex fs (findIndex fs surroundings arguments.index)
      let files : List String := sourceFiles fs plan.excluded root
      Output.ofOutcomes
        { format := arguments.format
          silent := plan.silent
          colour := arguments.pretty && surroundings.colour }
        surroundings.directory (files.map (checkFile fs plan.policy store)) :=
  congrArg (Output.ofOutcomes _ _) List.idRun_mapM

/-- A run that gets to check files shows what came of each of them. -/
theorem run_ok (fs : FileSystem Id) (arguments : Arguments) (surroundings : Surroundings)
    (output : Output) (hrun : run fs arguments surroundings = .ok output) :
    ∃ layout policy store, ∃ files : List String, layout.format = arguments.format ∧
      output = Output.ofOutcomes layout surroundings.directory
        (files.map (checkFile fs policy store)) := by
  simp only [run, bind, pure] at hrun
  split at hrun
  · cases hrun
  · split at hrun
    · cases hrun
    · split at hrun
      · injection hrun with hcarried
        rw [Plan.carryOut_eq] at hcarried
        exact ⟨_, _, _, _, rfl, hcarried.symm⟩
      · cases hrun

namespace Output

/-! ## Section 5: Composition -/

variable (layout : Layout) (directory : String) (a b : List Outcome)

theorem err_append :
    (ofOutcomes layout directory (a ++ b)).err =
      (ofOutcomes layout directory a).err ++ (ofOutcomes layout directory b).err := by
  simp only [err_ofOutcomes, List.map_append, String.join_append]

theorem summary_append :
    (ofOutcomes layout directory (a ++ b)).summary =
      (ofOutcomes layout directory a).summary + (ofOutcomes layout directory b).summary := by
  simp only [summary_ofOutcomes, List.map_append, List.sum_append]

theorem out_append_lines (hlines : layout.format = .lines) :
    (ofOutcomes layout directory (a ++ b)).out =
      (ofOutcomes layout directory a).out ++ (ofOutcomes layout directory b).out := by
  simp only [out_ofOutcomes, hlines, List.map_append, String.join_append]

theorem out_append_json (hjson : layout.format = .json) :
    (ofOutcomes layout directory (a ++ b)).out = Report.renderJson
      (a.flatMap Outcome.readableReports ++ b.flatMap Outcome.readableReports) := by
  simp only [out_ofOutcomes, hjson, List.flatMap_append]

/-- A file that could not be checked adds its progress line, the line of its
    failure and itself to the counts. -/
theorem ofOutcomes_failed (path : String) (reports : List Report) (failure : CheckFailure) :
    ofOutcomes layout directory [⟨path, reports, .error failure⟩] =
      { out := match layout.format with
          | .lines => layout.progress directory path
          | .json => Report.renderJson []
        err := match layout.format with
          | .lines => failure.line
          | .json => layout.progress directory path ++ failure.line
        summary := { files := 1, readFailures := 1 } } := by
  have hout := out_ofOutcomes layout directory [⟨path, reports, .error failure⟩]
  have herr := err_ofOutcomes layout directory [⟨path, reports, .error failure⟩]
  have hsummary := summary_ofOutcomes layout directory [⟨path, reports, .error failure⟩]
  cases hshown : ofOutcomes layout directory [⟨path, reports, .error failure⟩]
  rw [hshown] at hout herr hsummary
  subst hout herr hsummary
  cases hformat : layout.format <;>
    simp [Layout.outputOf, Layout.errorsOf, Outcome.readableReports, Outcome.counts, hformat,
      Report.renderAll]

/-- A file that could not be checked changes nothing that is shown of the
    files before and after it. -/
theorem ofOutcomes_insert_failed (path : String) (reports : List Report) (failure : CheckFailure) :
    let more := ofOutcomes layout directory (a ++ ⟨path, reports, .error failure⟩ :: b)
    let line := layout.progress directory path
    (more.out = match layout.format with
      | .lines => (ofOutcomes layout directory a).out ++ line ++ (ofOutcomes layout directory b).out
      | .json => (ofOutcomes layout directory (a ++ b)).out) ∧
    (more.err = (ofOutcomes layout directory a).err ++ (match layout.format with
      | .lines => failure.line
      | .json => line ++ failure.line) ++ (ofOutcomes layout directory b).err) ∧
    more.summary =
      (ofOutcomes layout directory (a ++ b)).summary + { files := 1, readFailures := 1 } := by
  intro more line
  have hparts : a ++ ⟨path, reports, .error failure⟩ :: b =
      a ++ ([⟨path, reports, .error failure⟩] ++ b) := rfl
  refine ⟨?_, ?_, ?_⟩
  · cases hformat : layout.format with
    | lines =>
      simp only [more, hparts, out_append_lines _ _ _ _ hformat, ofOutcomes_failed, hformat,
        String.append_assoc, line]
    | json =>
      -- The one list of all reports has none of this file.
      simp [more, out_ofOutcomes, hformat, Outcome.readableReports]
  · simp only [more, hparts, err_append, ofOutcomes_failed, String.append_assoc, line]
  · simp only [more, hparts, summary_append, ofOutcomes_failed]
    rw [add_left_comm, add_comm]

/-- What is shown of outcomes is put together from what is shown of any two
    parts: the error outputs follow one another, so do the outputs when each
    report has a line, and the counts are added.  JSON output is one list,
    which is read as the reports of both parts if their lines and columns are
    words.  A file that could not be checked adds its progress line, the line
    of its failure and itself to the counts, none of its reports; each report
    of the others is counted once.  The exit status of a command line that is
    carried out is 0 if all files are clean, else 1. -/
theorem ofOutcomes_compositional (layout : Layout) (directory : String) (a b : List Outcome) :
    let whole := ofOutcomes layout directory (a ++ b)
    let first := ofOutcomes layout directory a
    let second := ofOutcomes layout directory b
    whole.err = first.err ++ second.err ∧
    (layout.format = .lines → whole.out = first.out ++ second.out) ∧
    (layout.format = .json →
      let reports := a.flatMap Outcome.readableReports ++ b.flatMap Outcome.readableReports
      whole.out = Report.renderJson reports ∧
        ((∀ report ∈ reports, report.InWords) →
          ∃ items, Json.parse? whole.out = some (.array items) ∧
            items.mapM Report.ofJson? = some reports)) ∧
    whole.summary = first.summary + second.summary ∧
    (∀ path reports failure,
      let more := ofOutcomes layout directory (a ++ ⟨path, reports, .error failure⟩ :: b)
      let progress :=
        if layout.silent then ""
        else "[weak self check] checking: " ++ (Path.relativeTo? directory path).getD path ++ "\n"
      let error := "error: " ++ failure.message ++ "\n"
      (more.out = match layout.format with
        | .lines => first.out ++ progress ++ second.out
        | .json => whole.out) ∧
      (more.err = first.err ++ (match layout.format with
        | .lines => error
        | .json => progress ++ error) ++ second.err) ∧
      more.summary = whole.summary + { files := 1, readFailures := 1 }) ∧
    whole.summary.files = (a ++ b).length ∧
    whole.summary.errors + whole.summary.warnings =
      ((a ++ b).flatMap Outcome.readableReports).length ∧
    ((Reply.ofRun (.ok whole)).status = 0 ↔ AllClean (a ++ b)) ∧
    ((Reply.ofRun (.ok whole)).status = 1 ↔ ¬ AllClean (a ++ b)) ∧
    ∀ (fs : FileSystem Id) (env : Environment) (texts : List String) (arguments : Arguments)
      (output : Output), Arguments.parse texts = .ok arguments →
      run fs arguments env.surroundings = .ok output →
      command fs env texts = Reply.ofRun (.ok output) ∧
        ∃ layout policy store, ∃ files : List String, layout.format = arguments.format ∧
          output = ofOutcomes layout env.directory (files.map (checkFile fs policy store)) := by
  intro whole first second
  have hcounts := Summary.sum_counts (a ++ b)
  rw [← summary_ofOutcomes layout directory] at hcounts
  refine ⟨err_append .., fun hlines => out_append_lines _ _ _ _ hlines, fun hjson => ?_,
    summary_append .., fun path reports failure => ofOutcomes_insert_failed ..,
    hcounts.1, hcounts.2, (Reply.status_ofRun ..).1, (Reply.status_ofRun ..).2,
    fun fs env texts arguments output hparse hrun => ⟨?_, ?_⟩⟩
  · intro reports
    have hout : whole.out = Report.renderJson reports := out_append_json _ _ _ _ hjson
    rw [hout]
    exact ⟨rfl, Report.parse?_renderJson⟩
  · simp only [command, hparse, hrun, bind, pure]
  · exact run_ok fs arguments env.surroundings output hrun

/-- What is shown of a file whose bytes are not text, alone or after a file
    with an error. -/
theorem ofOutcomes_compositional_unreadable :
    let report : Report := .capture "/w/B.swift" 2 7 .error
    let found : Outcome := { path := "/w/B.swift", reports := [report], result := .ok {} }
    let unreadable : Outcome :=
      { path := "/w/A.swift", result := .error (.unreadable "/w/A.swift" .notText) }
    let fs : FileSystem Id :=
      { kind? path := if path = "/w/A.swift" then some EntryKind.file else none
        read _ := Except.error ReadFailure.notText
        names? _ := none
        canonical? path := some path
        depthLimit := 1 }
    (ofOutcomes {} "/w" ([found] ++ [unreadable])).out =
      (ofOutcomes {} "/w" [found]).out ++ "[weak self check] checking: A.swift\n" ∧
    (∃ items, Json.parse? (ofOutcomes { format := .json } "/w" ([found] ++ [unreadable])).out =
      some (.array items) ∧ items.mapM Report.ofJson? = some [report]) ∧
    (ofOutcomes { format := .json } "/w" [unreadable]).err =
      "[weak self check] checking: A.swift\n" ++
        "error: failed to read /w/A.swift: stream did not contain valid UTF-8\n" ∧
    command fs { directory := "/w" } ["A.swift"] =
      Reply.ofRun (.ok (ofOutcomes {} "/w" [unreadable])) := by
  intro report found unreadable fs
  have hjson := (ofOutcomes_compositional { format := .json } "/w" [found] [unreadable]).2.2.1 rfl
  have hwords : ∀ report ∈ ([found].flatMap Outcome.readableReports ++
      [unreadable].flatMap Outcome.readableReports), report.InWords := by
    intro report hmem
    obtain rfl := List.mem_singleton.mp hmem
    exact ⟨by decide, fun column hcolumn => by cases hcolumn; decide⟩
  have hlines := (ofOutcomes_compositional {} "/w" [found] []).2.2.2.2.1 "/w/A.swift" []
    (.unreadable "/w/A.swift" .notText)
  have herror := (ofOutcomes_compositional { format := .json } "/w" [] []).2.2.2.2.1 "/w/A.swift" []
    (.unreadable "/w/A.swift" .notText)
  refine ⟨hlines.1.trans ?_, hjson.2 hwords, herror.2.1.trans ?_, ?_⟩
  · decide +kernel
  · decide +kernel
  · have hparse : Arguments.parse ["A.swift"] = .ok { path := some "A.swift" } := by
      decide +kernel
    have hrun : @Eq (Except RunFailure Output)
        (run fs { path := some "A.swift" } (Environment.surroundings { directory := "/w" }))
        (.ok (ofOutcomes {} "/w" [unreadable])) := by
      decide +kernel
    obtain ⟨-, -, -, -, -, -, -, -, -, hcommand⟩ := ofOutcomes_compositional {} "/w" [] []
    exact (hcommand fs { directory := "/w" } ["A.swift"] _ _ hparse hrun).1

end Output
end SelfCapture
