import SelfCapture.Proofs.Check.Inspection
import SelfCapture.Proofs.Grammar.SourceOrder
import SelfCapture.Proofs.Text.LineMap

/-! # Reports in source order

  The reported closures are among the closures of the tree, in preorder, so
  their braces have ascending offsets, and the locations of these ascend.
-/

namespace SelfCapture

/-- The first report comes before the second one, by line and then by column. -/
def Report.Before (a b : Report) : Prop :=
  a.line < b.line ∨ a.line = b.line ∧ a.column < b.column

/-- Where the reported closures open. -/
def Setting.reportedOffsets (s : Setting) (rules : List Rule) (root : Nat) : List Nat :=
  (s.reportedClosures rules root).filterMap s.tree.pos?

theorem reportedOffsets_sublist {s : Setting} (hl : s.tree.Linked) (hs : s.tree.Sound)
    (rules : List Rule) (root : Nat) :
    (s.reportedOffsets rules root).Sublist (s.tree.openings [root]) := by
  have hself : s.reportedClosures rules root =
      (s.reportedClosures rules root).filter s.tree.isClosure := by
    refine (List.filter_eq_self.mpr fun closure hmem => ?_).symm
    exact isClosure_of_mem_reportedClosures hl hs hmem
  rw [Setting.reportedOffsets, hself, Tree.openings, List.flatMap_singleton]
  exact (List.filter_sublist.filter _).filterMap _

theorem inspect_reports_eq_map (policy : Policy) (index : Index.Lookup) (file text : String) :
    let s := Setting.ofText index file text
    (inspect policy index file text).reports =
      (s.reportedOffsets policy.rules (SourceFile.parse text).root).map
        (s.reportAt policy.severity) := by
  intro s
  rw [inspect_reports, Setting.reportedOffsets, List.map_filterMap]
  exact List.filterMap_congr fun closure _ => s.reportOf?_eq policy.severity closure

theorem reportAt_before {s : Setting} (hs : LineMap.Ascending s.lines.starts) (severity : Severity)
    {a b : Nat} (h : a < b) (hb : b ≤ s.lines.length) :
    (s.reportAt severity a).Before (s.reportAt severity b) := by
  rcases LineMap.location_before hs h hb with hline | ⟨hline, hcolumn⟩
  · exact .inl hline
  · exact .inr ⟨hline, Option.some_lt_some.mpr hcolumn⟩

/-- The reports of a check ascend, because the offsets of the reported closures do. -/
theorem inspect_reports_pairwise (policy : Policy) (index : Index.Lookup) (file text : String) :
    (inspect policy index file text).reports.Pairwise Report.Before := by
  have hascends := Grammar.parse_openings text
  have hsub := reportedOffsets_sublist (s := .ofText index file text) (Grammar.parse_linked text)
    (Grammar.parse_sound text) policy.rules (SourceFile.parse text).root
  rw [inspect_reports_eq_map policy index file text, List.pairwise_map]
  refine (hascends.pairwise.sublist hsub).imp_of_mem ?_
  intro a b _ hb hlt
  have hbound := hascends.lt_high (hsub.subset hb)
  exact reportAt_before (LineMap.ofText_ascending text) policy.severity hlt (Nat.le_of_lt hbound)

/-- The reports of a check ascend by line and column, so no place is reported
    twice, and each is at the location of the brace that opens a closure of
    the tree. -/
theorem inspect_in_source_order (policy : Policy) (index : Index.Lookup) (file text : String) :
    (inspect policy index file text).reports.Pairwise Report.Before ∧
      ∀ report ∈ (inspect policy index file text).reports,
        ∃ closure ∈ (SourceFile.parse text).tree.preorder (SourceFile.parse text).root,
          (SourceFile.parse text).tree.isClosure closure = true ∧
          ∃ offset, (SourceFile.parse text).tree.pos? closure = some offset ∧
            text.toByteArray[offset]? = some 0x7B ∧
            report.line = ((LineMap.ofText text).location offset).line ∧
            report.column = some ((LineMap.ofText text).location offset).column := by
  refine ⟨inspect_reports_pairwise policy index file text, ?_⟩
  intro report hreport
  have hl := Grammar.parse_linked text
  have hs := Grammar.parse_sound text
  rw [inspect_reports_eq_map policy index file text] at hreport
  obtain ⟨offset, hoffset, rfl⟩ := List.mem_map.mp hreport
  obtain ⟨closure, hclosure, hpos⟩ := List.mem_filterMap.mp hoffset
  have hkind := isClosure_of_mem_reportedClosures hl hs hclosure
  obtain ⟨node, hnode, hstart⟩ := Option.map_eq_some_iff.mp hpos
  have hbrace := hs.brace hnode hkind
  rw [hstart, Grammar.parse_bytes] at hbrace
  exact ⟨closure, (List.mem_filter.mp hclosure).1, hkind, offset, hpos, hbrace, rfl, rfl⟩

theorem inspect_reports_second_line :
    let text := "f { self.x }\n  g { self.y }"
    let reports := (inspect {} .absent "a.swift" text).reports
    reports.map (fun report => (report.line, report.column)) = [(1, some 3), (2, some 5)] ∧
      ∃ offset, text.toByteArray[offset]? = some 0x7B ∧
        2 = ((LineMap.ofText text).location offset).line := by
  intro text reports
  refine ⟨by decide +kernel, ?_⟩
  have hlast : ∃ report ∈ reports, report.line = 2 := by decide +kernel
  obtain ⟨report, hmem, hline⟩ := hlast
  obtain ⟨-, -, -, offset, -, hbrace, hat, -⟩ :=
    (inspect_in_source_order {} .absent "a.swift" text).2 report hmem
  exact ⟨offset, hbrace, hline.symm.trans hat⟩

end SelfCapture
