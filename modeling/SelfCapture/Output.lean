import SelfCapture.Arguments
import SelfCapture.Check.Inspection
import SelfCapture.Files.System
import SelfCapture.Path

/-! # What a run shows

  The outcome of each file is shown in order.  Reports and progress lines go
  to the output, failures to the error output; when reports are shown as
  JSON, they wait for one list at the end and progress lines go to the error
  output too.
-/

namespace SelfCapture

/-- Why a file could not be checked. -/
inductive CheckFailure where
  | unreadable (path : String) (failure : ReadFailure)
  /-- A pattern of a rule is invalid, for the given reason. -/
  | invalidPattern (pattern reason : String)
  deriving DecidableEq, Repr

/-- Wording of a failure to check a file. -/
def CheckFailure.message : CheckFailure → String
  | .unreadable path failure => "failed to read " ++ path ++ ": " ++ failure.message
  | .invalidPattern pattern reason => "invalid whitelist pattern '" ++ pattern ++ "': " ++ reason

/-- What came of checking a file. -/
structure Outcome where
  path : String
  reports : List Report := []
  /-- What was counted, unless the file could not be checked. -/
  result : Except CheckFailure Statistics

/-- How outcomes are shown. -/
structure Layout where
  format : OutputFormat := .lines
  /-- Whether progress lines are left out. -/
  silent : Bool := false
  /-- Whether severities are coloured. -/
  colour : Bool := false
  deriving DecidableEq, Repr

/-- What a run counts. -/
structure Summary where
  files : Nat := 0
  errors : Nat := 0
  warnings : Nat := 0
  readFailures : Nat := 0
  deriving DecidableEq, Repr

namespace Summary

/-- Counts a report. -/
def countReport (summary : Summary) (report : Report) : Summary :=
  if report.isError then { summary with errors := summary.errors + 1 }
  else { summary with warnings := summary.warnings + 1 }

/-- Whether there is neither an error nor a file that could not be checked. -/
def isClean (summary : Summary) : Bool := summary.errors == 0 && summary.readFailures == 0

end Summary

/-- What a run shows. -/
structure Output where
  out : String
  err : String
  summary : Summary
  deriving DecidableEq, Repr

/-! ## Section 1: Lines -/

/-- A path as seen from a directory, if it lies inside. -/
def shownPath (directory path : String) : String := (Path.relativeTo? directory path).getD path

/-- The line that tells that a file is checked. -/
def progressLine (directory path : String) : String :=
  "[weak self check] checking: " ++ shownPath directory path ++ "\n"

/-- The line that tells why a file could not be checked. -/
def CheckFailure.line (failure : CheckFailure) : String := "error: " ++ failure.message ++ "\n"

/-! ## Section 2: Showing outcomes -/

/-- What has been shown of a run so far. -/
structure Display where
  out : String := ""
  err : String := ""
  summary : Summary := {}
  /-- Reports that wait for the JSON list. -/
  waiting : List Report := []

namespace Display

/-- Shows that a file is checked, unless progress is left out. -/
def showProgress (d : Display) (layout : Layout) (directory path : String) : Display :=
  if layout.silent then d
  else
    match layout.format with
    | .lines => { d with out := d.out ++ progressLine directory path }
    | .json => { d with err := d.err ++ progressLine directory path }

/-- Shows why a file could not be checked. -/
def showFailure (d : Display) (failure : CheckFailure) : Display :=
  { d with
    err := d.err ++ failure.line
    summary := { d.summary with readFailures := d.summary.readFailures + 1 } }

/-- Shows the reports of a file, or lets them wait. -/
def showReports (d : Display) (layout : Layout) (reports : List Report) : Display :=
  let d := { d with summary := reports.foldl Summary.countReport d.summary }
  match layout.format with
  | .lines => { d with out := d.out ++ Report.renderAll layout.colour reports }
  | .json => { d with waiting := d.waiting ++ reports }

/-- Shows what came of a file. -/
def showOutcome (layout : Layout) (directory : String) (d : Display) (outcome : Outcome) :
    Display :=
  let d := { d with summary := { d.summary with files := d.summary.files + 1 } }
  let d := d.showProgress layout directory outcome.path
  match outcome.result with
  | .error failure => d.showFailure failure
  | .ok _ => d.showReports layout outcome.reports

/-- Shows the reports that wait, at the end of a run. -/
def toOutput (d : Display) (layout : Layout) : Output :=
  match layout.format with
  | .lines => { out := d.out, err := d.err, summary := d.summary }
  | .json => { out := d.out ++ Report.renderJson d.waiting, err := d.err, summary := d.summary }

end Display

/-- Shows outcomes in order; paths are shown as seen from a directory. -/
def Output.ofOutcomes (layout : Layout) (directory : String) (outcomes : List Outcome) : Output :=
  (outcomes.foldl (Display.showOutcome layout directory) {}).toOutput layout

end SelfCapture
