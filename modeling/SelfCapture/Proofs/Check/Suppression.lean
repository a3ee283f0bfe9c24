import Mathlib.Data.List.Pairwise
import SelfCapture.Proofs.Check.SourceOrder

/-! # Suppression of reports

  The symbol index and the rules can only take reports away.

  The index is asked twice about a closure: whether an extended type is a
  reference type, and how the called function is declared.  Without an
  index the first question stays open and the closure is taken to escape,
  so no verdict becomes a report through what an index answers,
  `Setting.verdict_withoutIndex`.

  A further rule exempts calls that no rule exempted before.  The closures
  passed to these calls, and no others, are no longer reported.
-/

namespace SelfCapture

/-! ## Section 1: Answers of an index -/

namespace Setting

variable {s : Setting}

/-- The setting without its index. -/
def withoutIndex (s : Setting) : Setting := { s with index := .absent }

theorem extendedType_withoutIndex (s : Setting) (type : Nat) :
    s.withoutIndex.extendedType type = .indeterminate := by
  unfold extendedType
  split
  · rfl
  · simp [withoutIndex, Index.Lookup.absent]

theorem escapes_withoutIndex (s : Setting) (call : Nat) (label : Option String) :
    s.withoutIndex.escapes call label = .definitely := by
  unfold escapes
  split
  · rfl
  · simp [withoutIndex, Index.Lookup.absent, Index.calleeOf]

/-- A type declaration is one with and without an index, and what the text
    alone clears is cleared with any index. -/
theorem typeAnswer?_withoutIndex (s : Setting) (id : Nat) :
    (s.withoutIndex.typeAnswer? id = none ∧ s.typeAnswer? id = none) ∨
      ∃ alone answer, s.withoutIndex.typeAnswer? id = some alone ∧
        s.typeAnswer? id = some answer ∧ (alone = .definitelyNot → answer = .definitelyNot) := by
  have htree : s.withoutIndex.tree = s.tree := rfl
  unfold typeAnswer?
  rw [htree]
  split
  · rename_i sort name inherited members hform
    refine .inr ⟨_, _, rfl, rfl, ?_⟩
    cases sort with
    | classType | actor | struct | enum => exact fun h => h
    | extension | protocol =>
      intro h
      rw [extendedType_withoutIndex] at h
      cases h
  · exact .inl ⟨rfl, rfl⟩

theorem inReferenceType_withoutIndex {closure : Nat}
    (h : s.withoutIndex.inReferenceType closure = .definitelyNot) :
    s.inReferenceType closure = .definitelyNot := by
  have htree : s.withoutIndex.tree = s.tree := rfl
  unfold inReferenceType at h ⊢
  rw [htree] at h
  generalize s.tree.ancestors closure = ancestors at h ⊢
  -- The nearest type declaration is the same one with and without an index.
  induction ancestors with
  | nil => cases h
  | cons id ancestors ih =>
    rw [List.findSome?_cons] at h ⊢
    rcases s.typeAnswer?_withoutIndex id with
      ⟨halone, hanswer⟩ | ⟨alone, answer, halone, hanswer, himp⟩
    · rw [halone] at h
      rw [hanswer]
      exact ih h
    · rw [halone] at h
      rw [hanswer]
      exact himp h

theorem verdict_withoutIndex {closure call : Nat} {label : Option String}
    (h : s.verdict closure call label = .report) :
    s.withoutIndex.verdict closure call label = .report := by
  have htree : s.withoutIndex.tree = s.tree := rfl
  unfold verdict at h ⊢
  rw [htree, escapes_withoutIndex]
  split at h
  · rename_i captures parameters result statements hform
    -- The first three tests look at the text only.
    by_cases huses : (!s.tree.usesSelf statements) = true
    · simp [huses] at h
    by_cases hweak : s.tree.capturesSelfWeakly captures = true
    · simp [huses, hweak] at h
    by_cases hshadows : s.tree.shadowsSelf parameters = true
    · simp [huses, hweak, hshadows] at h
    by_cases hvalue : s.inReferenceType closure = .definitelyNot
    · simp [huses, hweak, hshadows, hvalue] at h
    · have halone : s.withoutIndex.inReferenceType closure ≠ .definitelyNot := by
        intro heq
        exact hvalue (inReferenceType_withoutIndex heq)
      simp [huses, hweak, hshadows, halone]
  · cases h

end Setting

/-! ## Section 2: Fewer reports -/

theorem reportedClosures_sublist {s s' : Setting} {rules rules' : List Rule} {root : Nat}
    (htree : s'.tree = s.tree)
    (h : ∀ closure, s'.isReported rules' root closure = true →
      s.isReported rules root closure = true) :
    (s'.reportedClosures rules' root).Sublist (s.reportedClosures rules root) := by
  unfold Setting.reportedClosures
  rw [htree]
  exact List.monotone_filter_right _ h

theorem isReported_withoutIndex {s : Setting} {rules : List Rule} {root closure : Nat}
    (h : s.isReported rules root closure = true) :
    s.withoutIndex.isReported rules root closure = true := by
  obtain ⟨site, hmem, hverdict⟩ := Setting.isReported_iff.mp h
  exact Setting.isReported_iff.mpr ⟨site, hmem, Setting.verdict_withoutIndex hverdict⟩

theorem inspect_sublist_absent (policy : Policy) (index : Index.Lookup) (file text : String) :
    (inspect policy index file text).reports.Sublist
      (inspect policy .absent file text).reports := by
  rw [inspect_reports policy index, inspect_reports policy .absent]
  apply List.Sublist.filterMap
  exact reportedClosures_sublist (s := (Setting.ofText index file text).withoutIndex) rfl
    fun _ => isReported_withoutIndex

/-! ## Section 3: Further rules -/

section

variable {t : Tree} {rules added rules' : List Rule} {call : Nat}

theorem isExempt_append (t : Tree) (rules added : List Rule) (call : Nat) :
    isExempt t (rules ++ added) call = (isExempt t rules call || isExempt t added call) := by
  unfold isExempt
  split
  · exact List.any_append
  · rfl

theorem isExempt_perm (t : Tree) (h : rules'.Perm rules) (call : Nat) :
    isExempt t rules' call = isExempt t rules call := by
  unfold isExempt
  split
  · exact h.any_eq
  · rfl

/-- Further rules exempt the calls that they apply to, besides those exempted before. -/
theorem isExempt_further (h : rules'.Perm (rules ++ added)) :
    isExempt t rules' call = false ↔
      isExempt t rules call = false ∧ isExempt t added call = false := by
  rw [isExempt_perm t h, isExempt_append, Bool.or_eq_false_iff]

end

/-- The closure is passed to a call of the tree that an added rule exempts and
    that no rule exempted before. -/
def NewlyExempt (t : Tree) (root : Nat) (rules added : List Rule) (closure : Nat) : Prop :=
  ∃ call ∈ t.preorder root, (∃ site, (closure, site) ∈ t.closureArguments call) ∧
    isExempt t rules call = false ∧ isExempt t added call = true

section

variable {s : Setting} {rules added rules' : List Rule} {root closure : Nat}

theorem mem_further_iff (hl : s.tree.Linked) (hs : s.tree.Sound)
    (h : rules'.Perm (rules ++ added)) :
    closure ∈ s.reportedClosures rules' root ↔
      closure ∈ s.reportedClosures rules root ∧ ¬ NewlyExempt s.tree root rules added closure := by
  rw [mem_reportedClosures hl hs, mem_reportedClosures hl hs]
  constructor
  · rintro ⟨call, hcall, hexempt, label, hmem, hverdict⟩
    obtain ⟨hbefore, hadded⟩ := (isExempt_further h).mp hexempt
    refine ⟨⟨call, hcall, hbefore, label, hmem, hverdict⟩, ?_⟩
    rintro ⟨call', -, ⟨site, hmem'⟩, -, hnewly⟩
    -- The closure has one call only, and no added rule applies to it.
    obtain ⟨rfl, -⟩ := closureArguments_unique hl hs hmem hmem'
    rw [hadded] at hnewly
    cases hnewly
  · rintro ⟨⟨call, hcall, hbefore, label, hmem, hverdict⟩, hnot⟩
    have hadded : isExempt s.tree added call = false := by
      refine Bool.eq_false_iff.mpr fun hadded => hnot ?_
      exact ⟨call, hcall, ⟨_, hmem⟩, hbefore, hadded⟩
    exact ⟨call, hcall, (isExempt_further h).mpr ⟨hbefore, hadded⟩, label, hmem, hverdict⟩

theorem reportedClosures_further_sublist (hl : s.tree.Linked) (hs : s.tree.Sound)
    (h : rules'.Perm (rules ++ added)) :
    (s.reportedClosures rules' root).Sublist (s.reportedClosures rules root) := by
  apply reportedClosures_sublist rfl
  intro closure hreported
  obtain ⟨site, hmem, -⟩ := Setting.isReported_iff.mp hreported
  have hclosure := (Setting.of_mem_passed hl hs hmem).2.1
  have hafter : closure ∈ s.reportedClosures rules' root :=
    List.mem_filter.mpr ⟨hclosure, hreported⟩
  exact (List.mem_filter.mp ((mem_further_iff hl hs h).mp hafter).1).2

end

/-! ## Section 4: The reports that go -/

theorem Report.not_before_self (report : Report) : ¬ report.Before report := by
  rintro (hline | ⟨-, hcolumn⟩)
  · exact Nat.lt_irrefl _ hline
  · cases hcolumn' : report.column with
    | none =>
      rw [hcolumn'] at hcolumn
      exact Option.not_lt_none hcolumn
    | some column =>
      rw [hcolumn', Option.some_lt_some] at hcolumn
      exact Nat.lt_irrefl _ hcolumn

/-- Two reported closures do not share their report. -/
theorem reportOf?_unique (policy : Policy) (index : Index.Lookup) (file text : String)
    {closure closure' : Nat} {report : Report} :
    let s := Setting.ofText index file text
    let reported := s.reportedClosures policy.rules (SourceFile.parse text).root
    closure ∈ reported → closure' ∈ reported →
      s.reportOf? policy.severity closure = some report →
      s.reportOf? policy.severity closure' = some report → closure = closure' := by
  intro s reported hmem hmem' hreport hreport'
  have hpairwise := inspect_reports_pairwise policy index file text
  rw [inspect_reports, List.pairwise_filterMap] at hpairwise
  have hdistinct : reported.Pairwise fun a b =>
      ¬ (s.reportOf? policy.severity a = some report ∧
        s.reportOf? policy.severity b = some report) := by
    refine hpairwise.imp fun hbefore hboth => ?_
    exact report.not_before_self (hbefore report hboth.1 report hboth.2)
  have hsymm : Std.Symm fun a b =>
      ¬ (s.reportOf? policy.severity a = some report ∧
        s.reportOf? policy.severity b = some report) := ⟨fun _ _ h hboth => h hboth.symm⟩
  by_contra hne
  exact hdistinct.forall hmem hmem' hne ⟨hreport, hreport'⟩

/-- Suppression is monotone.  The reports with any index are among those
    without one, in their order.  When further rules are put anywhere among
    the rules, the reports are among the former ones, and those that go are
    the reports of the closures whose call an added rule exempts and no
    former rule did. -/
theorem suppression_is_monotone (policy : Policy) (index : Index.Lookup) (file text : String) :
    (inspect policy index file text).reports.Sublist (inspect policy .absent file text).reports ∧
      ∀ added rules' : List Rule, rules'.Perm (policy.rules ++ added) →
        let s := Setting.ofText index file text
        let root := (SourceFile.parse text).root
        let before := (inspect policy index file text).reports
        let after := (inspect { policy with rules := rules' } index file text).reports
        after.Sublist before ∧
          ∀ report ∈ before, report ∉ after ↔
            ∃ closure ∈ s.reportedClosures policy.rules root,
              s.reportOf? policy.severity closure = some report ∧
              NewlyExempt s.tree root policy.rules added closure := by
  refine ⟨inspect_sublist_absent policy index file text, ?_⟩
  intro added rules' hperm s root before after
  have hl : s.tree.Linked := Grammar.parse_linked text
  have hs : s.tree.Sound := Grammar.parse_sound text
  have hbefore : before =
      (s.reportedClosures policy.rules root).filterMap (s.reportOf? policy.severity) :=
    inspect_reports policy index file text
  have hafter : after = (s.reportedClosures rules' root).filterMap (s.reportOf? policy.severity) :=
    inspect_reports { policy with rules := rules' } index file text
  constructor
  · rw [hbefore, hafter]
    exact (reportedClosures_further_sublist hl hs hperm).filterMap _
  · intro report hreport
    rw [hbefore] at hreport
    obtain ⟨closure, hclosure, hof⟩ := List.mem_filterMap.mp hreport
    rw [hafter, List.mem_filterMap]
    constructor
    · intro hgone
      refine ⟨closure, hclosure, hof, ?_⟩
      by_contra hnot
      exact hgone ⟨closure, (mem_further_iff hl hs hperm).mpr ⟨hclosure, hnot⟩, hof⟩
    · rintro ⟨closure₁, hclosure₁, hof₁, hnewly⟩ ⟨closure₂, hclosure₂, hof₂⟩
      -- The report belongs to one closure, which was reported before as well.
      obtain ⟨hformer, hnot⟩ := (mem_further_iff hl hs hperm).mp hclosure₂
      obtain rfl := reportOf?_unique policy index file text hclosure₁ hformer hof₁ hof₂
      exact hnot hnewly

/-- A rule for `g` takes the report of the second line away, and that report is
    of a closure that the rule newly exempts. -/
theorem suppression_by_added_rule :
    let text := "f { self.x }\ng { self.y }"
    let rules : List Rule := [⟨none, (· == "g")⟩]
    let s := Setting.ofText .absent "a.swift" text
    let root := (SourceFile.parse text).root
    let before := (inspect {} .absent "a.swift" text).reports
    let after := (inspect { rules } .absent "a.swift" text).reports
    (rules.Perm ([] ++ rules) ∧ before.map Report.line = [1, 2] ∧ after.map Report.line = [1]) ∧
      ∀ report ∈ before, report.line = 2 → ∃ closure ∈ s.reportedClosures [] root,
        s.reportOf? .error closure = some report ∧ NewlyExempt s.tree root [] rules closure := by
  intro text rules s root before after
  have hperm : rules.Perm ([] ++ rules) := .refl _
  have hlines : before.map Report.line = [1, 2] ∧ after.map Report.line = [1] := by
    decide +kernel
  have hsuppressed := (suppression_is_monotone {} .absent "a.swift" text).2 rules rules hperm
  refine ⟨⟨hperm, hlines⟩, fun report hmem hline => ?_⟩
  refine (hsuppressed.2 report hmem).mp fun hafter => ?_
  have hmap := List.mem_map_of_mem (f := Report.line) hafter
  rw [hlines.2, hline] at hmap
  cases hmap with
  | tail _ h => cases h

end SelfCapture
