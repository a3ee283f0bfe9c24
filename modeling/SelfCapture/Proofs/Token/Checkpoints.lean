import SelfCapture.Proofs.Token.Streams

/-! # Going back to saved positions

  A scanner reads on, is restricted to windows, and goes back to positions
  that were saved, each as often as wanted and in any order.  A `Session` is
  a scanner together with all positions saved so far; `Session.run` carries
  out a list of moves.

  - `Session.Continues` : no move changes the text or a saved position.
  - `Session.Retains` : what was found wrong stays found, as long as the
    scanner goes back to positions saved later only.
  - `Session.restore_resumes` : a saved position reads on as it would have
    when it was saved, and under that condition it has the same diagnostics.
-/

namespace SelfCapture.Scanner

/-! ## Section 1: Sessions -/

/-- A move by which a scanner reads. -/
inductive Reading where
  | scan
  | restrict (start stop : Nat)
  deriving DecidableEq

/-- The scanner after a reading move. -/
def read (s : Scanner) : Reading → Scanner
  | .scan => s.scan
  | .restrict start stop => s.restrict start stop

/-- What can be done with a scanner and its saved positions. -/
inductive Move where
  | read (reading : Reading)
  | save
  /-- Goes back to the saved position with a number, counted from zero. -/
  | restore (index : Nat)
  deriving DecidableEq

/-- A scanner and the positions that were saved, in the order of saving. -/
structure Session where
  scanner : Scanner
  saved : List Checkpoint

namespace Session

/-- The session in which nothing of the text has been read. -/
def ofText (text : String) : Session := ⟨Scanner.ofText text, []⟩

/-- Carries out a move.  There is no way back to a position never saved. -/
def step (s : Session) : Move → Option Session
  | .read reading => some { s with scanner := s.scanner.read reading }
  | .save => some { s with saved := s.saved ++ [s.scanner.save] }
  | .restore index =>
    s.saved[index]?.map fun saved => { s with scanner := s.scanner.restore saved }

/-- Carries out a list of moves. -/
def run (s : Session) (moves : List Move) : Option Session := moves.foldlM step s

variable {s s' : Session} {move : Move} {moves : List Move}

theorem run_cons : s.run (move :: moves) = (s.step move).bind (·.run moves) :=
  List.foldlM_cons

theorem run_append (more : List Move) : s.run (moves ++ more) = (s.run moves).bind (·.run more) :=
  List.foldlM_append

/-- What a move does, one case for each sort of move. -/
theorem step_cases (h : s.step move = some s') :
    (∃ reading, move = .read reading ∧ s' = { s with scanner := s.scanner.read reading }) ∨
    (move = .save ∧ s' = { s with saved := s.saved ++ [s.scanner.save] }) ∨
    (∃ index saved, move = .restore index ∧ s.saved[index]? = some saved ∧
      s' = { s with scanner := s.scanner.restore saved }) := by
  cases move with
  | read reading =>
    left
    exact ⟨reading, rfl, (Option.some.inj h).symm⟩
  | save =>
    right; left
    exact ⟨rfl, (Option.some.inj h).symm⟩
  | restore index =>
    right; right
    obtain ⟨saved, hsaved, heq⟩ := Option.map_eq_some_iff.mp h
    exact ⟨index, saved, rfl, hsaved, heq.symm⟩

/-- What every move keeps, a run keeps. -/
theorem run_induction (P : Session → Prop) (allowed : Move → Prop)
    (hstep : ∀ {s s' move}, P s → allowed move → s.step move = some s' → P s')
    (hs : P s) (hmoves : ∀ move ∈ moves, allowed move) (h : s.run moves = some s') : P s' := by
  induction moves generalizing s with
  | nil =>
    obtain rfl : s = s' := Option.some.inj h
    exact hs
  | cons move moves ih =>
    rw [run_cons] at h
    obtain ⟨next, hnext, hrest⟩ := Option.bind_eq_some_iff.mp h
    have hmove : allowed move := hmoves move List.mem_cons_self
    apply ih (hstep hs hmove hnext)
    · intro move hmem
      exact hmoves move (List.mem_cons_of_mem _ hmem)
    · exact hrest

/-! ## Section 2: The text and the saved positions -/

theorem bytes_read (s : Scanner) (reading : Reading) : (s.read reading).bytes = s.bytes := by
  cases reading <;> rfl

/-- The second session has the text of the first one and all its saved positions. -/
structure Continues (s s' : Session) : Prop where
  bytes_eq : s'.scanner.bytes = s.scanner.bytes
  saved : s.saved <+: s'.saved

theorem Continues.step {first : Session} (hfirst : first.Continues s)
    (h : s.step move = some s') : first.Continues s' := by
  rcases step_cases h with ⟨reading, -, rfl⟩ | ⟨-, rfl⟩ | ⟨index, saved, -, -, rfl⟩
  · exact ⟨(bytes_read _ _).trans hfirst.bytes_eq, hfirst.saved⟩
  · exact ⟨hfirst.bytes_eq, hfirst.saved.trans (List.prefix_append _ _)⟩
  · exact ⟨hfirst.bytes_eq, hfirst.saved⟩

theorem continues_run (h : s.run moves = some s') : s.Continues s' := by
  have hself : s.Continues s := ⟨rfl, List.prefix_refl _⟩
  apply run_induction s.Continues (fun _ => True) _ hself _ h
  · intro s₁ s₂ move h₁ _ hstep
    exact h₁.step hstep
  · intro _ _
    trivial

/-- The number of a saved position is the number of positions saved before it. -/
theorem length_saved (h : s.run moves = some s') :
    s'.saved.length = s.saved.length + moves.count .save := by
  induction moves generalizing s with
  | nil =>
    obtain rfl : s = s' := Option.some.inj h
    simp
  | cons move moves ih =>
    rw [run_cons] at h
    obtain ⟨next, hnext, hrest⟩ := Option.bind_eq_some_iff.mp h
    rw [ih hrest]
    rcases step_cases hnext with ⟨reading, rfl, rfl⟩ | ⟨rfl, rfl⟩ | ⟨index, saved, rfl, -, rfl⟩
    · simp
    · simp
      omega
    · simp

/-! ## Section 3: What was found wrong -/

/-- Reading adds to what was found wrong, and takes nothing away. -/
theorem diagnostics_read (s : Scanner) (reading : Reading) :
    s.diagnostics.toList <+: (s.read reading).diagnostics.toList := by
  cases reading with
  | scan =>
    show s.diagnostics.toList <+: s.scan.diagnostics.toList
    unfold Scanner.scan
    dsimp only
    split
    · rw [Array.toList_push]
      exact List.prefix_append _ _
    · exact List.prefix_refl _
  | restrict start stop => exact List.prefix_refl _

/-- The session still knows of the given diagnostics, and so does every
    saved position from number `first` on. -/
structure Retains (first : Nat) (found : List Diagnostic) (s : Session) : Prop where
  found_prefix : found <+: s.scanner.diagnostics.toList
  saved_count : ∀ index saved, first ≤ index → s.saved[index]? = some saved →
    found.length ≤ saved.diagnosticCount

variable {first : Nat} {found : List Diagnostic}

theorem Retains.step (hs : s.Retains first found)
    (hmove : ∀ index, move = .restore index → first ≤ index) (h : s.step move = some s') :
    s'.Retains first found := by
  rcases step_cases h with ⟨reading, -, rfl⟩ | ⟨-, rfl⟩ | ⟨index, saved, rfl, hsaved, rfl⟩
  · exact ⟨hs.found_prefix.trans (diagnostics_read _ _), hs.saved_count⟩
  · refine ⟨hs.found_prefix, ?_⟩
    intro index saved hindex hsaved
    rw [List.getElem?_append] at hsaved
    split at hsaved
    · exact hs.saved_count index saved hindex hsaved
    · -- The position saved just now counts what has been found up to now.
      obtain rfl : s.scanner.save = saved := by
        rw [List.getElem?_singleton] at hsaved
        split at hsaved
        · exact Option.some.inj hsaved
        · cases hsaved
      exact hs.found_prefix.length_le
  · refine ⟨?_, hs.saved_count⟩
    have hcount := hs.saved_count index saved (hmove index rfl) hsaved
    show found <+: (s.scanner.diagnostics.shrink saved.diagnosticCount).toList
    rw [Array.toList_shrink]
    exact List.prefix_take_iff.mpr ⟨hs.found_prefix, hcount⟩

theorem Retains.run (hs : s.Retains first found)
    (hmoves : ∀ index, .restore index ∈ moves → first ≤ index) (h : s.run moves = some s') :
    s'.Retains first found := by
  let allowed := fun move => ∀ index, move = Move.restore index → first ≤ index
  apply run_induction (·.Retains first found) allowed _ hs _ h
  · intro s₁ s₂ move h₁ hmove hstep
    exact h₁.step hmove hstep
  · rintro move hmem index rfl
    exact hmoves index hmem

/-! ## Section 4: Going back -/

/-- Scanners at the same place stay at the same place when they read alike. -/
theorem agrees_reads {a b : Scanner} (h : Agrees a b) (readings : List Reading) :
    Agrees (readings.foldl read a) (readings.foldl read b) := by
  induction readings generalizing a b with
  | nil => exact h
  | cons reading readings ih =>
    apply ih
    cases reading with
    | scan => exact h.scan
    | restrict start stop => exact .restrict h.bytes_eq start stop

/-- Once a position has been saved, whatever follows, going back to it
    restores the place, and under the condition on the moves in between also
    what was found wrong. -/
theorem restore_saved {a b : Session} (h : a.run (.save :: moves) = some b) :
    b.saved[a.saved.length]? = some a.scanner.save ∧
      Agrees (b.scanner.restore a.scanner.save) a.scanner ∧
      ((∀ index, .restore index ∈ moves → a.saved.length ≤ index) →
        (b.scanner.restore a.scanner.save).diagnostics = a.scanner.diagnostics) := by
  let saved : Session := { a with saved := a.saved ++ [a.scanner.save] }
  have hrest : saved.run moves = some b := h
  have hcontinues : saved.Continues b := continues_run hrest
  refine ⟨?_, Agrees.restore hcontinues.bytes_eq, ?_⟩
  · obtain ⟨later, hlater⟩ := hcontinues.saved
    rw [← hlater]
    simp [saved]
  · intro hmoves
    have hstart : saved.Retains a.saved.length a.scanner.diagnostics.toList := by
      refine ⟨List.prefix_refl _, ?_⟩
      intro index checkpoint hindex hcheckpoint
      rw [List.getElem?_append_right hindex, List.getElem?_singleton] at hcheckpoint
      split at hcheckpoint
      · obtain rfl := Option.some.inj hcheckpoint
        exact Nat.le_refl _
      · cases hcheckpoint
    have hend := hstart.run hmoves hrest
    exact Grammar.Keeps.shrink_eq hend.found_prefix

/-- Saved positions bring a scanner back.  After any moves on a text, and any
    further ones since a position was saved, going back to it is possible;
    from there every token is read as it would have been read right after the
    saving, in whatever windows, with its text and its interpolated
    expressions.  The diagnostics are those at the time of the saving, if the
    scanner went back since then only to positions saved then or later. -/
theorem restore_resumes {text : String} {before after : List Move} {b : Session}
    (h : (ofText text).run (before ++ .save :: after) = some b) :
    ∃ a c, (ofText text).run before = some a ∧
      b.step (.restore (before.count .save)) = some c ∧
      (∀ readings : List Reading,
        let resumed := readings.foldl read c.scanner
        let direct := readings.foldl read a.scanner
        resumed.token = direct.token ∧ resumed.segments = direct.segments ∧
          resumed.tokenText = direct.tokenText) ∧
      ((∀ index, .restore index ∈ after → before.count .save ≤ index) →
        c.scanner.diagnostics = a.scanner.diagnostics) := by
  rw [run_append] at h
  obtain ⟨a, hbefore, hafter⟩ := Option.bind_eq_some_iff.mp h
  have hcount : a.saved.length = before.count .save := by
    rw [length_saved hbefore]
    simp [ofText]
  obtain ⟨hsaved, hagrees, hdiagnostics⟩ := restore_saved hafter
  rw [hcount] at hsaved hdiagnostics
  refine ⟨a, { b with scanner := b.scanner.restore a.scanner.save }, hbefore, ?_, ?_, hdiagnostics⟩
  · simp [step, hsaved]
  · intro readings
    have hsame := agrees_reads hagrees readings
    refine ⟨hsame.token_eq, hsame.segments_eq, ?_⟩
    simp only [tokenText, hsame.bytes_eq, hsame.token_eq]

/-- An unterminated string is found again after the scanner has been in a
    window, has saved another position and has gone back to it. -/
theorem restore_resumes_openString :
    let text := "a \"b c"
    let before := [.save, .read .scan]
    let after := [.read .scan, .save, .read (.restrict 0 1), .read .scan, .restore 2]
    ∃ a b c, (ofText text).run before = some a ∧
      (ofText text).run (before ++ .save :: after) = some b ∧
      b.scanner.diagnostics.size = 1 ∧ b.step (.restore 1) = some c ∧
      c.scanner.scan.token = a.scanner.scan.token ∧
      c.scanner.diagnostics = a.scanner.diagnostics := by
  intro text before after
  have hsome : ((ofText text).run (before ++ .save :: after)).isSome := by decide +kernel
  obtain ⟨b, hb⟩ := Option.isSome_iff_exists.mp hsome
  have hsize : ((ofText text).run (before ++ .save :: after)).map
      (·.scanner.diagnostics.size) = some 1 := by decide +kernel
  rw [hb] at hsize
  have hlater : ∀ index, .restore index ∈ after → before.count .save ≤ index := by
    intro index hmem
    obtain rfl : index = 2 := by simpa [after] using hmem
    decide
  obtain ⟨a, c, ha, hc, hreadings, hdiagnostics⟩ := restore_resumes hb
  exact ⟨a, b, c, ha, hb, Option.some.inj hsize, hc, (hreadings [.scan]).1, hdiagnostics hlater⟩

end Session
end SelfCapture.Scanner
