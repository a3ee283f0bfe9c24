import SelfCapture.Report
import SelfCapture.Proofs.Json.RoundTrip

/-! # Reports in JSON

  The text that is shown for reports holds these reports: it is read as a
  JSON list, and each item of the list is read as its report.  Lines and
  columns have to be words, as they are where reports are read.
-/

namespace SelfCapture

open Json (wordBound)

theorem Json.natBelow?_nat {n bound : Nat} (hn : n < bound) :
    (Json.nat n).natBelow? bound = some n := by
  have hdigits : (toString n).all Char.isDigit = true := by
    rw [String.all_bool_eq, Nat.toString_eq_ofList_toDigits, String.toList_ofList,
      List.all_eq_true]
    exact fun c => Json.isDigit_of_mem
  have hvalue : (toString n).toNat? = some n := Nat.toNat?_repr n
  rw [nat, natBelow?, if_pos hdigits, hvalue, Option.filter_some, decide_eq_true hn]
  rfl

namespace Report

/-- The line and the column of a report are words. -/
structure InWords (report : Report) : Prop where
  line : report.line < wordBound
  column : ∀ column ∈ report.column, column < wordBound

/-- A report has its fields, each once; the column only if it is known. -/
theorem fields?_toJson (report : Report) :
    Json.fields? ["file", "line", "column", "severity", "message"] report.toJson =
      some [some (.string report.file), some (.nat report.line), report.column.map Json.nat,
        some (.string report.severity.name), some (.string report.message)] := by
  obtain ⟨file, line, column, severity, message⟩ := report
  cases column <;> rfl

theorem ofName?_name (severity : Severity) : Severity.ofName? severity.name = some severity := by
  cases severity <;> rfl

theorem defaulted_column {column : Option Nat} (h : ∀ value ∈ column, value < wordBound) :
    Json.defaulted column? none (column.map Json.nat) = some column := by
  cases column with
  | none => rfl
  | some value =>
    have hvalue := Json.natBelow?_nat (h value rfl)
    change ((Json.nat value).natBelow? wordBound).map some = _
    rw [hvalue, Option.map_some]

/-- A report is read back from its object. -/
theorem ofJson?_toJson {report : Report} (h : report.InWords) :
    ofJson? report.toJson = some report := by
  have hline := Json.natBelow?_nat h.line
  have hcolumn := defaulted_column h.column
  have hseverity := ofName?_name report.severity
  simp only [ofJson?, fields?_toJson, hcolumn, Json.required, Json.string?, hline, Json.choice?,
    Option.bind_eq_bind, Option.bind_some, hseverity]

theorem legible_toJson {report : Report} (h : report.InWords) (depth : Nat) :
    Json.Legible (depth + 1) report.toJson := by
  obtain ⟨file, line, column, severity, message⟩ := report
  have hline : Json.Legible depth (.nat line) := .word h.line
  cases column with
  | none => exact .object (by simp [Json.Legible.string, hline])
  | some column =>
    have hcolumn : Json.Legible depth (.nat column) := .word (h.column column rfl)
    exact .object (by simp [Json.Legible.string, hline, hcolumn])

theorem mapM_ofJson? {reports : List Report} (h : ∀ report ∈ reports, report.InWords) :
    (reports.map toJson).mapM ofJson? = some reports := by
  induction reports with
  | nil => rfl
  | cons report reports ih =>
    rw [List.forall_mem_cons] at h
    rw [List.map_cons, List.mapM_cons, ofJson?_toJson h.1, ih h.2]
    rfl

/-- What is shown for reports is read as a list with an item for each report,
    and these are read as the reports. -/
theorem parse?_renderJson {reports : List Report} (h : ∀ report ∈ reports, report.InWords) :
    ∃ items, Json.parse? (renderJson reports) = some (.array items) ∧
      items.mapM ofJson? = some reports := by
  have hlegible : Json.Legible (Json.depthLimit - 1) (.array (reports.map toJson)) := by
    apply Json.Legible.array
    intro item hmem
    obtain ⟨report, hreport, rfl⟩ := List.mem_map.mp hmem
    exact legible_toJson (h report hreport) 125
  exact ⟨reports.map toJson, hlegible.parse?_pretty, mapM_ofJson? h⟩

end Report
end SelfCapture
