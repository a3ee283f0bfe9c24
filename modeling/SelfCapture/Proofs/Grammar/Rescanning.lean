import Mathlib.Logic.Function.Iterate
import SelfCapture.Proofs.Grammar.SourceFile

/-! # Scanning again

  Reading a text scans much of it more than once: to look ahead, for an
  attempt that is given up, and inside the interpolated expressions of a
  string literal.  Each time the scanner comes back to a saved position,
  which drops the diagnostics found since.

  `Derives.scans` shows, by induction over derivations, that the scanner
  is nevertheless where scanning straight on would have brought it.  At the
  end of the text further scans find nothing.  So reading a text finds the
  scanner's diagnostics of a single straight scan, `parse_scans_straight`.
-/

namespace SelfCapture

/-! ## Section 1: Straight scans -/

namespace Scanner

variable {s : Scanner}

/-- The scanner is within its window, and the window within the text. -/
structure Within (s : Scanner) : Prop where
  pos_le : s.pos ≤ s.stop
  stop_le : s.stop ≤ s.bytes.size

theorem within_ofText (text : String) : (ofText text).Within :=
  ⟨Grammar.startOffset_le _, Nat.le_refl _⟩

theorem Settled.within (h : s.Settled) : s.Within := ⟨h.pos_le, h.stop_le⟩

theorem Within.settled (h : s.Within) : s.scan.Settled := scan_settled h.pos_le h.stop_le

/-- Once a token has been read, the scanner stays settled. -/
theorem Settled.iterate (h : s.Settled) (count : Nat) : (Scanner.scan^[count] s).Settled := by
  induction count with
  | zero => exact h
  | succ count ih =>
    rw [Function.iterate_succ_apply']
    exact ih.scan

/-- A scan at the end of the window finds the end again, and nothing wrong. -/
theorem Settled.scan_end (h : s.Settled) (hend : s.token.kind = .endOfFile) :
    s.scan.token.kind = .endOfFile ∧ s.scan.diagnostics = s.diagnostics := by
  have hpos : s.token.pos = s.stop := h.atEnd_iff.mp hend
  have hgap := Token.gapAt_bounds (w := s.window) h.within.pos_le
  have hle : s.window.stop ≤ (Token.gapAt s.window s.pos).stop := by
    have htoken := h.token_le
    have hlow := hgap.1
    rw [h.pos_eq] at hlow ⊢
    rw [hpos] at htoken
    exact Nat.le_trans htoken hlow
  rcases Token.lexemeAt_cases h.stop_le s.token hgap.2 with ⟨hlt, -⟩ | ⟨-, hlexeme⟩
  · exact absurd hlt (Nat.not_lt_of_le hle)
  · simp [Scanner.scan, hlexeme]

theorem Settled.iterate_end (h : s.Settled) (hend : s.token.kind = .endOfFile) (count : Nat) :
    (Scanner.scan^[count] s).token.kind = .endOfFile ∧
      (Scanner.scan^[count] s).diagnostics = s.diagnostics := by
  induction count with
  | zero => exact ⟨hend, rfl⟩
  | succ count ih =>
    rw [Function.iterate_succ_apply']
    obtain ⟨hkind, hdiagnostics⟩ := (h.iterate count).scan_end ih.1
    exact ⟨hkind, hdiagnostics.trans ih.2⟩

/-- Two scans that reach the end find the same, however often they go on there. -/
theorem Settled.diagnostics_eq_of_end (h : s.Settled) {m n : Nat} (hle : m ≤ n)
    (hm : (Scanner.scan^[m] s).token.kind = .endOfFile) :
    (Scanner.scan^[n] s).diagnostics = (Scanner.scan^[m] s).diagnostics := by
  obtain ⟨more, rfl⟩ := Nat.exists_eq_add_of_le hle
  rw [Nat.add_comm, Function.iterate_add_apply]
  exact ((h.iterate m).iterate_end hm more).2

/-- With more states allowed than there are bytes left, the last state is at the end. -/
theorem Within.getLast?_run (h : s.Within) {count : Nat} (hcount : s.stop - s.pos < count) :
    ∃ n, (run count s).getLast? = some (scan^[n] s.scan) ∧
      (scan^[n] s.scan).token.kind = .endOfFile := by
  induction count generalizing s with
  | zero => exact absurd hcount (Nat.not_lt_zero _)
  | succ count ih =>
    rw [run]
    by_cases hend : s.scan.token.kind = .endOfFile
    · refine ⟨0, ?_, hend⟩
      simp [hend]
    · -- A token other than the end covers a byte, so less is left after it.
      have hsettled := h.settled
      have hnext := hsettled.within
      have hlow := le_scan_pos h.pos_le
      have hcovers := hsettled.covers hend
      have hpos := hsettled.pos_eq
      have hless : s.scan.stop - s.scan.pos < count := by
        have hstop : s.scan.stop = s.stop := rfl
        have hle := hnext.pos_le
        omega
      obtain ⟨n, hlast, hkind⟩ := ih hnext hless
      refine ⟨n + 1, ?_, hkind⟩
      rw [if_neg (by simpa using hend), List.getLast?_cons, hlast]
      rfl

theorem getLast?_states (text : String) :
    ∃ n, (states text).getLast? = some (scan^[n] (ofText text).scan) ∧
      (scan^[n] (ofText text).scan).token.kind = .endOfFile := by
  refine (within_ofText text).getLast?_run ?_
  have hstop : (ofText text).stop = (ofText text).bytes.size := rfl
  omega

end Scanner

/-! ## Section 2: Order of the diagnostics -/

/-- An issue is placed at its token. -/
theorem Token.lexemeAt_issue {w : Window} {previous : Token} {start : Nat} {d : Diagnostic}
    (h : (lexemeAt w previous start).issue = some d) :
    d.start = start ∧ d.length = (lexemeAt w previous start).stop - start := by
  have hstring (hashes : Nat) (h : (stringAt w hashes start).issue = some d) :
      d.start = start ∧ d.length = (stringAt w hashes start).stop - start := by
    unfold stringAt at h
    dsimp only at h
    split at h
    · cases h
    · cases h
      exact ⟨rfl, rfl⟩
  have hchar (length : Nat) : length = start + length - start := by omega
  revert h
  unfold lexemeAt
  split
  · rename_i c hc
    -- An open string, a backquote that opens no name, an open raw string and a character that fits
    -- nowhere carry an issue; each one covers its whole lexeme.
    fun_cases lexemeOf w previous start c with
    | case2 => exact hstring 0
    | case3 =>
      unfold hashAt
      dsimp only
      split
      · exact hstring _
      · rintro ⟨⟩
    | case4 =>
      unfold escapedNameAt
      dsimp only
      split
      · rintro ⟨⟩
      · rintro ⟨⟩
        exact ⟨rfl, hchar 1⟩
    | case6 =>
      unfold numberAt decimalAt
      dsimp only
      intro h
      repeat' split at h
      all_goals cases h
    | case14 =>
      unfold otherAt
      split
      · split
        · rintro ⟨⟩
        · rintro ⟨⟩
          exact ⟨rfl, hchar _⟩
      · rintro ⟨⟩
    | _ => rintro ⟨⟩
  · rintro ⟨⟩

namespace Scanner

variable {s : Scanner}

/-- The diagnostics ascend, and all of them are placed in what has been read. -/
structure Ascending (s : Scanner) : Prop where
  pairwise_lt : s.diagnostics.toList.Pairwise fun a b => a.start < b.start
  start_lt : ∀ d ∈ s.diagnostics.toList, d.start < s.pos
  stop_le : ∀ d ∈ s.diagnostics.toList, d.start + d.length ≤ s.bytes.size

theorem ascending_ofText (text : String) : (ofText text).Ascending :=
  ⟨List.Pairwise.nil, nofun, nofun⟩

theorem Ascending.pairwise (h : s.Ascending) :
    s.diagnostics.toList.Pairwise fun a b => a.start ≤ b.start :=
  h.pairwise_lt.imp Nat.le_of_lt

theorem Ascending.scan (h : s.Ascending) (hs : s.Within) : s.scan.Ascending := by
  have hlow := le_scan_pos hs.pos_le
  have hsettled := hs.settled
  have htoken := hsettled.token_le
  have hpos := hsettled.pos_eq
  have hold : ∀ d ∈ s.diagnostics.toList, d.start < s.scan.token.pos :=
    fun d hd => Nat.lt_of_lt_of_le (h.start_lt d hd) hlow
  cases hissue : (Token.lexemeAt s.window s.token (Token.gapAt s.window s.pos).stop).issue with
  | none =>
    have hsame : s.scan.diagnostics = s.diagnostics := by simp [Scanner.scan, hissue]
    refine ⟨hsame ▸ h.pairwise_lt, fun d hd => ?_, hsame ▸ h.stop_le⟩
    rw [hsame] at hd
    have hlt := hold d hd
    omega
  | some new =>
    obtain ⟨hstart, hlength⟩ : new.start = s.scan.token.pos ∧
        new.length = s.scan.token.stop - s.scan.token.pos := Token.lexemeAt_issue hissue
    have hpushed : s.scan.diagnostics.toList = s.diagnostics.toList ++ [new] := by
      simp [Scanner.scan, hissue]
    -- At the end of the window there is nothing wrong, so the token covers a byte.
    have hcovers : s.scan.token.pos < s.scan.token.stop := by
      refine hsettled.covers fun hend => ?_
      have hgap : (Token.gapAt s.window s.pos).stop ≤ s.window.stop :=
        (Token.gapAt_bounds hs.pos_le).2
      rcases Token.lexemeAt_cases hs.stop_le s.token hgap with ⟨-, hcovers⟩ | ⟨-, hlexeme⟩
      · exact hcovers.kind_ne hend
      · rw [hlexeme] at hissue
        cases hissue
    have hstop : s.scan.token.stop ≤ s.scan.bytes.size :=
      Nat.le_trans hsettled.token_stop_le hsettled.stop_le
    constructor
    · rw [hpushed]
      refine List.pairwise_append.mpr ⟨h.pairwise_lt, List.pairwise_singleton .., ?_⟩
      intro d hd d' hd'
      rw [List.mem_singleton.mp hd', hstart]
      exact hold d hd
    · intro d hd
      rw [hpushed] at hd
      rcases List.mem_append.mp hd with hd | hd
      · have hlt := hold d hd
        omega
      · rw [List.mem_singleton.mp hd]
        omega
    · intro d hd
      rw [hpushed] at hd
      rcases List.mem_append.mp hd with hd | hd
      · exact h.stop_le d hd
      · rw [List.mem_singleton.mp hd]
        omega

theorem Ascending.iterate (h : s.Ascending) (hs : s.Settled) (count : Nat) :
    (Scanner.scan^[count] s).Ascending := by
  induction count with
  | zero => exact h
  | succ count ih =>
    rw [Function.iterate_succ_apply']
    exact ih.scan (hs.iterate count).within

end Scanner

/-! ## Section 3: Derivations -/

namespace Grammar

/-- Whatever has been scanned in between, the scanner is where scanning
    straight on brings it. -/
theorem Derives.scans {task : Task} {s s' : State} {ids : List Nat} (h : Derives task s ids s')
    (htask : task = .tokens) : ∃ n, s'.scanner = Scanner.scan^[n] s.scanner := by
  induction h with
  | stay => exact ⟨0, rfl⟩
  | advance => exact ⟨1, rfl⟩
  | report _ issue => exact ⟨0, State.scanner_reported _ issue⟩
  | append _ _ ih ih' =>
    obtain ⟨n, hn⟩ := ih rfl
    obtain ⟨m, hm⟩ := ih' rfl
    exact ⟨m + n, by rw [hm, hn, Function.iterate_add_apply]⟩
  | forget _ ih => exact ih rfl
  | finish _ _ ih => exact ih rfl
  | closure _ _ _ ih =>
    -- The brace is one token more.
    obtain ⟨n, hn⟩ := ih rfl
    exact ⟨n + 1, hn⟩
  | name => exact ⟨1, rfl⟩
  | missing => exact ⟨0, rfl⟩
  | under _ _ ih => exact ih rfl
  | deeper _ _ ih => exact ih rfl
  | interpolate _ h _ =>
    -- Back from the windows, the scanner is at the literal as it was before them.
    exact ⟨1, congrArg Scanner.scan h.keeps.restore_eq⟩
  | noWindow => cases htask
  | window => cases htask

/-! ## Section 4: Whole texts -/

/-- Reading a text leaves the scanner with the diagnostics of a straight
    scan of the same text up to its end.  They are merged with those of the
    grammar, and stay in their order. -/
theorem parse_scans_straight (text : String) :
    let final := (sourceFile.run (State.ofText text)).2
    ∃ last, (Scanner.states text).getLast? = some last ∧ last.token.kind = .endOfFile ∧
      final.scanner.diagnostics = last.diagnostics ∧
      (SourceFile.parse text).diagnostics =
        sortDiagnostics (final.diagnostics.toList ++ last.diagnostics.toList) ∧
      last.diagnostics.toList.Sublist (SourceFile.parse text).diagnostics := by
  intro final
  obtain ⟨n, hlast, hend⟩ := Scanner.getLast?_states text
  obtain ⟨statements, s', hread, hkind, -, hfinal⟩ := (sourceFile_derives text).holds
  obtain ⟨m, hm⟩ := hread.scans rfl
  have hs : (Scanner.ofText text).scan.Settled := ofText_settled text
  have hscanner : final.scanner = Scanner.scan^[m] (Scanner.ofText text).scan := by
    show (sourceFile (State.ofText text)).2.scanner = _
    rw [hfinal]
    exact hm
  -- Both scans have reached the end, so the longer one has found nothing more.
  have hsame : final.scanner.diagnostics =
      (Scanner.scan^[n] (Scanner.ofText text).scan).diagnostics := by
    rw [hscanner]
    rcases Nat.le_total n m with hle | hle
    · exact hs.diagnostics_eq_of_end hle hend
    · exact (hs.diagnostics_eq_of_end hle (hm ▸ hkind)).symm
  have hmerged : (SourceFile.parse text).diagnostics = sortDiagnostics
      (final.diagnostics.toList ++
        (Scanner.scan^[n] (Scanner.ofText text).scan).diagnostics.toList) := by
    rw [← hsame]
    rfl
  refine ⟨_, hlast, hend, hsame, hmerged, ?_⟩
  rw [hmerged, sortDiagnostics]
  have hascending := ((Scanner.ascending_ofText text).scan (Scanner.within_ofText text)).iterate hs n
  refine List.sublist_mergeSort ?_ ?_ ?_ (List.sublist_append_right _ _)
  · intro a b c hab hbc
    simp only [decide_eq_true_eq] at hab hbc ⊢
    omega
  · intro a b
    simp only [Bool.or_eq_true, decide_eq_true_eq]
    omega
  · exact hascending.pairwise.imp fun h => decide_eq_true h

end Grammar
end SelfCapture
