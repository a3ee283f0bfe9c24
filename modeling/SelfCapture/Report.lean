import SelfCapture.Json.Printer
import SelfCapture.Json.Record

/-! # Reports

  A `Report` is a finding at a place in a file.  Reports are shown one per
  line, as compilers show their diagnostics, or as a JSON list.
-/

namespace SelfCapture

/-- How serious a finding is. -/
inductive Severity where
  | warning | error
  deriving DecidableEq, Repr

/-- Name of a severity. -/
def Severity.name : Severity → String
  | .warning => "warning"
  | .error => "error"

/-- The severity with a name. -/
def Severity.ofName? : String → Option Severity
  | "warning" => some .warning
  | "error" => some .error
  | _ => none

/-- A finding. -/
structure Report where
  file : String
  /-- Line number, counted from one. -/
  line : Nat
  /-- Byte column, counted from one, when it is known. -/
  column : Option Nat
  severity : Severity
  message : String
  deriving DecidableEq, Repr

namespace Report

/-! ## Section 1: The finding of this program -/

/-- The message of a closure that holds on to the instance it is written in. -/
def captureMessage : String :=
  "Use a weak reference to the enclosing instance to avoid memory leaks."

/-- The report of a closure that holds on to the instance it is written in. -/
def capture (file : String) (line column : Nat) (severity : Severity) : Report :=
  { file, line, column := some column, severity, message := captureMessage }

/-- Whether the finding is an error. -/
def isError (report : Report) : Bool := report.severity == .error

/-! ## Section 2: Lines -/

/-- The escape character that starts a colour code. -/
def escape : String := String.ofList [Char.ofNat 0x1B]

/-- A severity in bold red or yellow. -/
def colouredName (severity : Severity) : String :=
  let code := match severity with
    | .error => "1;31"
    | .warning => "1;33"
  escape ++ "[" ++ code ++ "m" ++ severity.name ++ escape ++ "[0m"

/-- A report on one line. -/
def render (colour : Bool) (report : Report) : String :=
  let column := match report.column with
    | some column => ":" ++ toString column
    | none => ""
  let severity := if colour then colouredName report.severity else report.severity.name
  report.file ++ ":" ++ toString report.line ++ column ++ ": " ++ severity ++ ": " ++
    report.message ++ "\n"

/-- Reports, one on each line. -/
def renderAll (colour : Bool) (reports : List Report) : String :=
  String.join (reports.map (render colour))

/-! ## Section 3: JSON -/

/-- A report as a JSON object; an unknown column is left out. -/
def toJson (report : Report) : Json :=
  .object ([("file", .string report.file), ("line", .nat report.line)] ++
    report.column.toList.map (fun column => ("column", .nat column)) ++
    [("severity", .string report.severity.name), ("message", .string report.message)])

/-- Reports as the text of a JSON list. -/
def renderJson (reports : List Report) : String :=
  (Json.array (reports.map toJson)).pretty 0 ++ "\n"

/-- A column, which may be null. -/
def column? : Json → Option (Option Nat)
  | .null => some none
  | json => (json.natBelow? Json.wordBound).map some

/-- Reads a report. -/
def ofJson? (json : Json) : Option Report :=
  match Json.fields? ["file", "line", "column", "severity", "message"] json with
  | some [file, line, column, severity, message] => do
    some {
      file := ← Json.required Json.string? file
      line := ← Json.required (Json.natBelow? Json.wordBound) line
      column := ← Json.defaulted column? none column
      severity := ← Json.required
        (fun j => (Json.choice? j).bind Severity.ofName?) severity
      message := ← Json.required Json.string? message }
  | _ => none

end Report
end SelfCapture
