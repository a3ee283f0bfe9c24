import SelfCapture.Proofs.Grammar.Nesting
import SelfCapture.Proofs.Grammar.Rescanning
import SelfCapture.Proofs.Grammar.SourceOrder
import SelfCapture.Proofs.Grammar.TypedTrees

/-! # Diagnostics of a text

  The grammar and the scanner each find at most one issue at a place, and
  find them in the order of the text.  The diagnostics of a text are the
  two lists merged, with those of the grammar first where both have one.

  The grammar remembers only the last place at which it found something.
  That suffices, because it never comes back to an earlier token without
  dropping what it has found since; and after the expressions in a string
  literal the next token is behind the literal.

  `parse_diagnostics` also says that nothing is missing in the tree without
  a diagnostic at its place.
-/

namespace SelfCapture

/-! ## Section 1: Merging -/

section merging

variable {α : Type} {le : α → α → Bool}

/-- An element that comes before all others is merged in where it does not
    come after any. -/
theorem merge_cons_eq {x : α} {xs ys front back : List α}
    (htrans : ∀ a b c, le a b → le b c → le a c)
    (hxs : ∀ b ∈ xs, le x b) (hys : ys.Pairwise (le · ·))
    (hmerge : xs.merge ys le = front ++ back) (hfront : ∀ b ∈ front, ¬ le x b)
    (hback : ∀ b ∈ back, le x b) : (x :: xs).merge ys le = front ++ x :: back := by
  induction ys generalizing front with
  | nil =>
    -- Nothing of `xs` comes before `x`.
    rw [List.merge_right] at hmerge ⊢
    cases front with
    | nil => rw [hmerge]; rfl
    | cons b front =>
      have hmem : b ∈ xs := by simp [hmerge]
      exact absurd (hxs b hmem) (hfront b List.mem_cons_self)
  | cons y ys ih =>
    by_cases hle : le x y
    · rw [List.cons_merge_cons_pos le xs ys hle, hmerge]
      cases front with
      | nil => rfl
      | cons b front =>
        have hmem : b ∈ xs.merge (y :: ys) le := by simp [hmerge]
        refine absurd ?_ (hfront b List.mem_cons_self)
        rcases List.mem_merge.mp hmem with hb | hb
        · exact hxs b hb
        · rcases List.mem_cons.mp hb with rfl | hb
          · exact hle
          · exact htrans x y b hle (List.rel_of_pairwise_cons hys hb)
    · rw [List.cons_merge_cons_neg le xs ys hle]
      have hhead : xs.merge (y :: ys) le = y :: xs.merge ys le := by
        cases xs with
        | nil => simp
        | cons x' xs =>
          have hle' : ¬ le x' y := fun h => hle (htrans x x' y (hxs x' List.mem_cons_self) h)
          exact List.cons_merge_cons_neg le xs ys hle'
      rw [hhead] at hmerge
      cases front with
      | nil =>
        have hmem : y ∈ back := by
          rw [← show y :: xs.merge ys le = back from hmerge]
          exact List.mem_cons_self
        exact absurd (hback y hmem) hle
      | cons b front =>
        obtain ⟨rfl, hrest⟩ := List.cons.inj hmerge
        rw [ih hys.of_cons hrest fun b hb => hfront b (List.mem_cons_of_mem _ hb)]
        rfl

/-- Sorting two sorted lists together merges them. -/
theorem mergeSort_append_eq {xs ys : List α} (htrans : ∀ a b c, le a b → le b c → le a c)
    (htotal : ∀ a b, le a b || le b a) (hxs : xs.Pairwise (le · ·)) (hys : ys.Pairwise (le · ·)) :
    (xs ++ ys).mergeSort le = xs.merge ys le := by
  induction xs with
  | nil => rw [List.nil_append, List.mergeSort_of_pairwise hys, List.nil_merge]
  | cons x xs ih =>
    obtain ⟨front, back, hsort, hrest, hfront⟩ :=
      List.mergeSort_cons htrans htotal x (xs ++ ys)
    have hsorted := List.pairwise_mergeSort htrans htotal (x :: (xs ++ ys))
    rw [hsort] at hsorted
    have hback := (List.pairwise_cons.mp (List.pairwise_append.mp hsorted).2.1).1
    rw [List.cons_append, hsort]
    rw [ih hxs.of_cons] at hrest
    refine (merge_cons_eq htrans (List.pairwise_cons.mp hxs).1 hys hrest ?_ hback).symm
    intro b hb hle
    have hno := hfront b hb
    simp [hle] at hno

end merging

namespace Grammar

/-! ## Section 2: The grammar's diagnostics -/

/-- The diagnostics ascend, the last one was recorded at `lastIssueAt`, and
    that is not after `bound`. -/
structure State.Ordered (bound : Nat) (s : State) : Prop where
  pairwise : s.diagnostics.toList.Pairwise fun a b => a.start < b.start
  last : ∀ d ∈ s.diagnostics.toList, ∃ pos, s.lastIssueAt = some pos ∧ d.start ≤ pos
  last_le : ∀ pos, s.lastIssueAt = some pos → pos ≤ bound
  stop_le : ∀ d ∈ s.diagnostics.toList, d.start + d.length ≤ s.scanner.bytes.size

namespace State.Ordered

variable {s s' : State} {bound bound' : Nat}

theorem mono (h : s.Ordered bound) (hle : bound ≤ bound') : s.Ordered bound' :=
  { h with last_le := fun pos hpos => Nat.le_trans (h.last_le pos hpos) hle }

/-- Tokens, nodes and context do not matter. -/
theorem kept (h : s.Ordered bound) (hdiagnostics : s'.diagnostics = s.diagnostics)
    (hlast : s'.lastIssueAt = s.lastIssueAt) (hbytes : s'.scanner.bytes = s.scanner.bytes) :
    s'.Ordered bound := by
  refine ⟨?_, ?_, ?_, ?_⟩
  · exact hdiagnostics ▸ h.pairwise
  · exact hdiagnostics ▸ hlast ▸ h.last
  · exact hlast ▸ h.last_le
  · exact hdiagnostics ▸ hbytes ▸ h.stop_le

/-- A report at a later token than the last one is added at the end; at the
    same token it is dropped. -/
theorem reported (h : s.Ordered s.offset) (hs : s.Settled) (issue : Issue) :
    (s.reported issue).Ordered s.offset := by
  unfold State.reported
  split
  · exact h
  · rename_i hnew
    have hbefore : ∀ d ∈ s.diagnostics.toList, d.start < s.offset := by
      intro d hd
      obtain ⟨pos, hpos, hle⟩ := h.last d hd
      refine Nat.lt_of_le_of_lt hle (Nat.lt_of_le_of_ne (h.last_le pos hpos) ?_)
      rintro rfl
      exact hnew (beq_iff_eq.mpr hpos)
    have hwithin : s.offset + (s.scanner.token.stop - s.offset) ≤ s.scanner.bytes.size := by
      have htoken : s.offset ≤ s.scanner.token.stop := hs.token_le
      have hstop := Nat.le_trans hs.token_stop_le hs.stop_le
      omega
    refine ⟨?_, fun d hd => ⟨s.offset, rfl, ?_⟩, ?_, fun d hd => ?_⟩
    · rw [Array.toList_push]
      refine List.pairwise_append.mpr ⟨h.pairwise, List.pairwise_singleton .., ?_⟩
      intro d hd d' hd'
      rw [List.mem_singleton.mp hd']
      exact hbefore d hd
    · rw [Array.toList_push] at hd
      rcases List.mem_append.mp hd with hd | hd
      · exact Nat.le_of_lt (hbefore d hd)
      · rw [List.mem_singleton.mp hd]
    · rintro pos ⟨⟩
      exact Nat.le_refl _
    · rw [Array.toList_push] at hd
      rcases List.mem_append.mp hd with hd | hd
      · exact h.stop_le d hd
      · rw [List.mem_singleton.mp hd]
        exact hwithin

end State.Ordered

/-- Reading keeps the diagnostics in order: the tokens that it reads lie
    between `low` and `high`, or the windows do. -/
theorem Derives.ordered {task : Task} {s s' : State} {ids : List Nat}
    (h : Derives task s ids s') {low high : Nat} (hspans : task.Spans s s' low high)
    (hs : s.Ordered low) : s'.Ordered high := by
  induction h generalizing low high with
  | stay _ => exact hs.mono (Nat.le_trans hspans.1 hspans.2)
  | @advance s hsettled =>
    have hnext := (Onward.advanced hsettled).offset_le
    have hle : low ≤ high := Nat.le_trans hspans.1 (Nat.le_trans hnext hspans.2)
    exact (hs.mono hle).kept rfl rfl rfl
  | @report s hsettled issue =>
    have hoffset := (Onward.reported hsettled issue).offset_le
    exact ((hs.mono hspans.1).reported hsettled issue).mono (Nat.le_trans hoffset hspans.2)
  | append _ _ ih ih' => exact ih' ⟨Nat.le_refl _, hspans.2⟩ (ih ⟨hspans.1, Nat.le_refl _⟩ hs)
  | forget _ ih => exact ih hspans hs
  | finish _ _ ih =>
    exact (ih hspans hs).kept rfl rfl rfl
  | @closure s s₁ _ _ _ _ hsettled _ _ ih =>
    have hnext := (Onward.advanced hsettled).offset_le
    have hbody := ih ⟨Nat.le_trans hspans.1 hnext, hspans.2⟩ (hs.kept rfl rfl rfl)
    exact hbody.kept rfl rfl rfl
  | @name s hsettled =>
    have hnext := (Onward.advanced hsettled).offset_le
    have hle : low ≤ high := Nat.le_trans hspans.1 (Nat.le_trans hnext hspans.2)
    exact (hs.mono hle).kept rfl rfl rfl
  | missing _ =>
    exact (hs.mono (Nat.le_trans hspans.1 hspans.2)).kept rfl rfl rfl
  | under _ _ ih =>
    exact (ih hspans (hs.kept rfl rfl rfl)).kept rfl rfl rfl
  | deeper _ _ ih =>
    exact (ih hspans (hs.kept rfl rfl rfl)).kept rfl rfl rfl
  | @interpolate s s₁ ids hsettled h ih =>
    -- The windows lie inside the literal, and the next token is after it.
    have hbound := Nat.le_trans hsettled.token_stop_le hsettled.stop_le
    have hall := ih ⟨hsettled.inside, hbound⟩ (hs.mono hspans.1)
    exact (hall.mono (Nat.le_trans (h.stop_le_returned hsettled) hspans.2)).kept rfl rfl rfl
  | noWindow _ => exact hs.mono hspans.1
  | @window s s₁ s₂ segment rest ids more h h' ih ih' =>
    obtain ⟨⟨hstart, hle, hrest⟩, hbound⟩ := hspans
    have hstop := hrest.le
    have hwithin : segment.stop ≤ s.scanner.bytes.size := by omega
    have hfirst := s.le_offset_entered hle hwithin
    have hbytes : s₁.scanner.bytes = s.scanner.bytes := h.keeps.bytes_eq
    have hinner := ih ⟨Nat.le_trans (Nat.le_of_lt hstart) hfirst, h.offset_le_window⟩
      (hs.kept rfl rfl rfl)
    refine ih' ⟨hrest, ?_⟩ (hinner.mono (Nat.le_succ _))
    rw [hbytes]
    exact hbound

/-! ## Section 3: Whole texts -/

/-- What the grammar and the scanner have each found ascends. -/
theorem sourceFile_ordered (text : String) :
    let final := (sourceFile (State.ofText text)).2
    final.Ordered final.scanner.bytes.size ∧ final.scanner.Ascending ∧
      final.scanner.bytes = text.toByteArray := by
  intro final
  obtain ⟨statements, s', hread, -, -, hfinal⟩ := (sourceFile_derives text).holds
  have hs : (State.ofText text).advanced.Settled := ofText_settled text
  obtain ⟨n, hn⟩ := hread.scans rfl
  have hstart : (State.ofText text).advanced.Ordered 0 := ⟨.nil, nofun, nofun, nofun⟩
  have hend : s'.offset ≤ s'.scanner.bytes.size :=
    Nat.le_trans hread.settled.token_pos_le hread.settled.stop_le
  have hordered : s'.Ordered s'.scanner.bytes.size :=
    hread.ordered ⟨Nat.zero_le _, hend⟩ hstart
  have hascending : s'.scanner.Ascending := by
    rw [hn]
    exact ((Scanner.ascending_ofText text).scan (Scanner.within_ofText text)).iterate hs n
  have hbytes : s'.scanner.bytes = text.toByteArray := hread.keeps.bytes_eq
  rw [show final = _ from hfinal]
  exact ⟨hordered.kept rfl rfl rfl, hascending, hbytes⟩

end Grammar

theorem mem_parse_diagnostics {text : String} {d : Diagnostic} :
    let final := (Grammar.sourceFile (Grammar.State.ofText text)).2
    d ∈ (SourceFile.parse text).diagnostics ↔
      d ∈ final.diagnostics.toList ∨ d ∈ final.scanner.diagnostics.toList := by
  intro final
  have hsort : (SourceFile.parse text).diagnostics =
      (final.diagnostics.toList ++ final.scanner.diagnostics.toList).mergeSort
        (fun a b => decide (a.start ≤ b.start)) := rfl
  rw [hsort, List.mem_mergeSort, List.mem_append]

/-- What is missing in the tree has been reported where it is missing. -/
theorem exists_diagnostic_of_missing {text : String} {id : Nat} {node : Node}
    (hnode : (SourceFile.parse text).tree.get? id = some node) (hmissing : node.form = .missing) :
    ∃ d ∈ (SourceFile.parse text).diagnostics, d.start = node.pos := by
  have haccounted := Grammar.sourceFile_accounted text
  have hform : (SourceFile.parse text).tree.form? id = some .missing := by
    rw [Tree.form?, hnode, ← hmissing]
    rfl
  rcases haccounted.missing hform (Tree.range?_of_get? hnode) with hcut | ⟨d, hd, hstart⟩
  · -- Nothing is cut off, since the levels last to the end of the text.
    rw [Grammar.sourceFile_lasts text] at hcut
    cases hcut
  · exact ⟨d, mem_parse_diagnostics.mpr (Or.inl hd), hstart⟩

/-- The diagnostics of a text are those of the grammar and those of the
    scanner, merged by their places.  Each of the two finds at most one at a
    place; where both find one, that of the grammar comes first.  They lie
    inside the text, and whatever is missing in the tree has a diagnostic at
    its place. -/
theorem parse_diagnostics (text : String) :
    let final := (Grammar.sourceFile.run (Grammar.State.ofText text)).2
    let file := SourceFile.parse text
    (final.diagnostics.toList.Pairwise (fun a b => a.start < b.start) ∧
      final.scanner.diagnostics.toList.Pairwise (fun a b => a.start < b.start)) ∧
    file.diagnostics =
      final.diagnostics.toList.merge final.scanner.diagnostics.toList
        (fun a b => decide (a.start ≤ b.start)) ∧
    file.diagnostics.Pairwise (fun a b => a.start ≤ b.start) ∧
    (∀ d ∈ file.diagnostics, d.start + d.length ≤ text.utf8ByteSize) ∧
    (∀ (id : Nat) (node : Node), file.tree.get? id = some node → node.form = .missing →
      ∃ d ∈ file.diagnostics, d.start = node.pos) ∧
    (file.diagnostics = [] → ∀ id : Nat, file.tree.form? id ≠ some .missing) := by
  intro final file
  obtain ⟨hordered, hascending, hbytes⟩ :
      final.Ordered final.scanner.bytes.size ∧ final.scanner.Ascending ∧
        final.scanner.bytes = text.toByteArray :=
    Grammar.sourceFile_ordered text
  have htrans (a b c : Diagnostic) (hab : decide (a.start ≤ b.start))
      (hbc : decide (b.start ≤ c.start)) : decide (a.start ≤ c.start) :=
    decide_eq_true (Nat.le_trans (of_decide_eq_true hab) (of_decide_eq_true hbc))
  have htotal (a b : Diagnostic) : decide (a.start ≤ b.start) || decide (b.start ≤ a.start) := by
    simpa using Nat.le_total a.start b.start
  have hsort : file.diagnostics =
      (final.diagnostics.toList ++ final.scanner.diagnostics.toList).mergeSort
        (fun a b => decide (a.start ≤ b.start)) := rfl
  refine ⟨⟨hordered.pairwise, hascending.pairwise_lt⟩, ?_, ?_, fun d hd => ?_,
    fun id node => exists_diagnostic_of_missing, fun hnone id hform => ?_⟩
  · rw [hsort]
    refine mergeSort_append_eq htrans htotal ?_ ?_
    · exact hordered.pairwise.imp fun h => decide_eq_true (Nat.le_of_lt h)
    · exact hascending.pairwise.imp fun h => decide_eq_true h
  · rw [hsort]
    exact (List.pairwise_mergeSort htrans htotal _).imp of_decide_eq_true
  · have hsize : final.scanner.bytes.size = text.utf8ByteSize := by rw [hbytes]; rfl
    rw [← hsize]
    rcases mem_parse_diagnostics.mp hd with hd | hd
    · exact hordered.stop_le d hd
    · exact hascending.stop_le d hd
  · obtain ⟨node, hnode, hmissing⟩ := Option.map_eq_some_iff.mp hform
    obtain ⟨d, hd, -⟩ := exists_diagnostic_of_missing hnode hmissing
    rw [hnone] at hd
    cases hd

/-- A name is missing where a string literal is not closed. -/
theorem parse_diagnostics_open_string :
    let final := (Grammar.sourceFile.run (Grammar.State.ofText "let \"x")).2
    let file := SourceFile.parse "let \"x"
    (final.diagnostics = #[⟨4, 2, .expected "Identifier"⟩] ∧
      final.scanner.diagnostics = #[⟨4, 2, .openString⟩]) ∧
      ∃ node, (file.tree.get? 0 = some node ∧ node.form = .missing ∧ node.pos = 4) ∧
        ∃ d ∈ file.diagnostics, d.start = node.pos := by
  intro final file
  have hown : final.diagnostics = #[⟨4, 2, .expected "Identifier"⟩] := by decide +kernel
  have hscanned : final.scanner.diagnostics = #[⟨4, 2, .openString⟩] := by decide +kernel
  have hform : file.tree.form? 0 = some .missing := by decide +kernel
  have hpos : file.tree.pos? 0 = some 4 := by decide +kernel
  obtain ⟨node, hnode, hmissing⟩ := Option.map_eq_some_iff.mp hform
  have hplace : node.pos = 4 := by simpa [Tree.pos?, hnode] using hpos
  exact ⟨⟨hown, hscanned⟩, node, ⟨hnode, hmissing, hplace⟩,
    (parse_diagnostics _).2.2.2.2.1 0 node hnode hmissing⟩

end SelfCapture
