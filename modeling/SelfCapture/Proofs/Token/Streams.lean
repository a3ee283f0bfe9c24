import SelfCapture.Proofs.Grammar.Rescanning

/-! # Token streams

  A text has more than one stream of tokens: its own, and one for each
  expression interpolated in a string literal, whose window is scanned by
  itself.  Windows nest as literals do.

  - `Starts text w` : the scanner `w` stands at the start of such a window.
  - `stream w` : the states of the scanner after each token of the window.
  - `IsToken text k r` : the range `r` is that of one token of a stream.
  - `Streams text s` : the scanner is somewhere in one of these streams,
    which is shown by what can happen to a scanner while a text is read.

  What a scanner has found wrong so far has no part in this, since the
  windows of a literal are read one after the other by the same scanner.
-/

/-- Where segments lie each lies. -/
theorem SelfCapture.Token.Inside.of_mem {low high : Nat} {segments : List Segment}
    (h : Inside low segments high) {segment : Segment} (hmem : segment ∈ segments) :
    low < segment.start ∧ segment.start ≤ segment.stop ∧ segment.stop < high := by
  induction segments generalizing low with
  | nil => cases hmem
  | cons first rest ih =>
    obtain ⟨hlow, hle, hrest⟩ := h
    rcases List.mem_cons.mp hmem with rfl | hmem
    · have hhigh := hrest.le
      omega
    · obtain ⟨hstart, hinner, hhigh⟩ := ih hrest hmem
      omega

namespace SelfCapture.Scanner

/-! ## Section 1: Scanners at the same place -/

/-- The scanners are at the same token of the same window. -/
structure Agrees (s s' : Scanner) : Prop where
  bytes_eq : s.bytes = s'.bytes
  pos_eq : s.pos = s'.pos
  stop_eq : s.stop = s'.stop
  token_eq : s.token = s'.token
  segments_eq : s.segments = s'.segments

variable {text : String} {s s' w : Scanner}

namespace Agrees

theorem refl (s : Scanner) : Agrees s s := ⟨rfl, rfl, rfl, rfl, rfl⟩

theorem trans {s'' : Scanner} (h : Agrees s s') (h' : Agrees s' s'') : Agrees s s'' where
  bytes_eq := h.bytes_eq.trans h'.bytes_eq
  pos_eq := h.pos_eq.trans h'.pos_eq
  stop_eq := h.stop_eq.trans h'.stop_eq
  token_eq := h.token_eq.trans h'.token_eq
  segments_eq := h.segments_eq.trans h'.segments_eq

/-- The next token depends on the place alone. -/
theorem scan (h : Agrees s s') : Agrees s.scan s'.scan := by
  have hwindow : s.window = s'.window := by rw [window, window, h.bytes_eq, h.stop_eq]
  refine ⟨h.bytes_eq, ?_, h.stop_eq, ?_, ?_⟩
  all_goals simp only [Scanner.scan, hwindow, h.pos_eq, h.token_eq]

theorem restrict (hbytes : s.bytes = s'.bytes) (start stop : Nat) :
    Agrees (s.restrict start stop) (s'.restrict start stop) := by
  refine ⟨hbytes, ?_, ?_, rfl, rfl⟩
  all_goals simp only [Scanner.restrict, hbytes]

/-- A saved place is found again. -/
theorem restore (hbytes : s'.bytes = s.bytes) : Agrees (s'.restore s.save) s :=
  ⟨hbytes, rfl, rfl, rfl, rfl⟩

end Agrees

/-! ## Section 2: Windows and their streams -/

/-- The states of a scanner after each token of its window, the end included. -/
def stream (w : Scanner) : List Scanner := run (w.bytes.size + 1) w

/-- A scanner at the start of a window: the whole text, or an expression
    interpolated in a token of another window. -/
inductive Starts (text : String) : Scanner → Prop
  | whole : Starts text (ofText text)
  | part {w s : Scanner} {segment : Segment} (hw : Starts text w) (hs : s ∈ w.stream)
      (hsegment : segment ∈ s.segments) :
      Starts text ((ofText text).restrict segment.start segment.stop)

theorem Starts.bytes_eq (h : Starts text w) : w.bytes = text.toByteArray := by
  cases h with
  | whole => rfl
  | part => rfl

theorem Starts.within (h : Starts text w) : w.Within := by
  cases h with
  | whole => exact within_ofText text
  | part => exact ⟨Nat.min_le_right .., Nat.min_le_right ..⟩

/-- Up to the end, what scanning on reaches is one of the states of the run. -/
theorem Within.mem_run (h : w.Within) {count n : Nat} (hcount : w.stop - w.pos < count)
    (hne : (Scanner.scan^[n] w.scan).token.kind ≠ .endOfFile) :
    Scanner.scan^[n] w.scan ∈ run count w := by
  induction count generalizing w n with
  | zero => exact absurd hcount (Nat.not_lt_zero _)
  | succ count ih =>
    have hend : w.scan.token.kind ≠ .endOfFile :=
      fun hend => hne (h.settled.iterate_end hend n).1
    rw [run, if_neg (by simpa using hend)]
    cases n with
    | zero => exact List.mem_cons_self
    | succ n =>
      -- A token other than the end covers a byte, so less is left after it.
      have hcovers := h.settled.covers hend
      have hpos := h.settled.pos_eq
      have hlow := le_scan_pos h.pos_le
      have hstop : w.scan.stop = w.stop := rfl
      have hle := h.settled.within.pos_le
      rw [Function.iterate_succ_apply] at hne ⊢
      exact List.mem_cons_of_mem _ (ih h.settled.within (by omega) hne)

theorem iterate_scan_bytes (s : Scanner) (n : Nat) : (Scanner.scan^[n] s).bytes = s.bytes := by
  induction n with
  | zero => rfl
  | succ n ih =>
    rw [Function.iterate_succ_apply']
    exact ih

theorem Starts.mem_stream (h : Starts text w) {n : Nat}
    (hne : (Scanner.scan^[n] w.scan).token.kind ≠ .endOfFile) :
    Scanner.scan^[n] w.scan ∈ w.stream := by
  refine h.within.mem_run ?_ hne
  have hle := h.within.stop_le
  omega

theorem Within.settled_of_mem_run (h : w.Within) {count : Nat} (hs : s ∈ run count w) :
    s.Settled ∧ s.stop = w.stop := by
  induction count generalizing w with
  | zero => cases hs
  | succ count ih =>
    rw [run] at hs
    split at hs
    · obtain rfl := List.mem_singleton.mp hs
      exact ⟨h.settled, rfl⟩
    · rcases List.mem_cons.mp hs with rfl | hrest
      · exact ⟨h.settled, rfl⟩
      · have hnext := ih h.settled.within hrest
        exact ⟨hnext.1, hnext.2⟩

/-- The windows of interpolated expressions end before the text does. -/
theorem Starts.stop_lt (h : Starts text w) (hne : w ≠ ofText text) :
    w.stop < text.toByteArray.size := by
  cases h with
  | whole => exact absurd rfl hne
  | @part outer s segment hw hs hsegment =>
    obtain ⟨hsettled, hstop⟩ := hw.within.settled_of_mem_run hs
    have hbefore := (hsettled.inside.of_mem hsegment).2.2
    have hwindow := hsettled.token_stop_le
    have hsize := hw.within.stop_le
    rw [hw.bytes_eq] at hsize
    show min segment.stop text.toByteArray.size < text.toByteArray.size
    omega

/-- The scanner is as after some token of a window. -/
def InStream (text : String) (s : Scanner) : Prop := ∃ w, Starts text w ∧ s ∈ w.stream

/-- A range of the text covers exactly one token, which is of the given kind,
    in one of the streams of the text. -/
def IsToken (text : String) (k : Token.Kind) (r : Nat × Nat) : Prop :=
  ∃ s, InStream text s ∧ s.token.kind = k ∧ r = (s.token.pos, s.token.stop)

/-- A token at the end of a text is one of the stream of the whole text. -/
theorem IsToken.mem_states {k : Token.Kind} {r : Nat × Nat} (h : IsToken text k r)
    (hstop : r.2 = text.toByteArray.size) :
    ∃ s ∈ states text, s.token.kind = k ∧ r = (s.token.pos, s.token.stop) := by
  obtain ⟨s, ⟨w, hw, hs⟩, hk, rfl⟩ := h
  by_cases hwhole : w = ofText text
  · subst hwhole
    exact ⟨s, hs, hk, rfl⟩
  · obtain ⟨hsettled, hwindow⟩ := hw.within.settled_of_mem_run hs
    have hlt := hw.stop_lt hwhole
    have hle := hsettled.token_stop_le
    omega

/-! ## Section 3: Scanners in a stream -/

/-- The scanner is at a token of one of the streams of the text. -/
def Streams (text : String) (s : Scanner) : Prop :=
  ∃ w n, Starts text w ∧ s.Agrees (Scanner.scan^[n] w.scan)

namespace Streams

theorem ofText (text : String) : Streams text (Scanner.ofText text).scan :=
  ⟨_, 0, .whole, .refl _⟩

theorem congr (h : Streams text s) (hsame : s'.Agrees s) : Streams text s' := by
  obtain ⟨w, n, hw, hs⟩ := h
  exact ⟨w, n, hw, hsame.trans hs⟩

theorem scan (h : Streams text s) : Streams text s.scan := by
  obtain ⟨w, n, hw, hs⟩ := h
  refine ⟨w, n + 1, hw, ?_⟩
  rw [Function.iterate_succ_apply']
  exact hs.scan

theorem bytes_eq (h : Streams text s) : s.bytes = text.toByteArray := by
  obtain ⟨w, n, hw, hs⟩ := h
  rw [hs.bytes_eq, iterate_scan_bytes, ← hw.bytes_eq]
  rfl

/-- The state of the stream that the scanner is at. -/
theorem exists_inStream (h : Streams text s) (hne : s.token.kind ≠ .endOfFile) :
    ∃ s', InStream text s' ∧ s.Agrees s' := by
  obtain ⟨w, n, hw, hs⟩ := h
  rw [hs.token_eq] at hne
  exact ⟨_, ⟨w, hw, hw.mem_stream hne⟩, hs⟩

theorem isToken (h : Streams text s) (hne : s.token.kind ≠ .endOfFile) :
    IsToken text s.token.kind (s.token.pos, s.token.stop) := by
  obtain ⟨s', hin, hsame⟩ := h.exists_inStream hne
  refine ⟨s', hin, ?_, ?_⟩
  all_goals rw [hsame.token_eq]

/-- Entering the window of an interpolated expression. -/
theorem enter (h : Streams text s) (hne : s.token.kind ≠ .endOfFile) {segment : Segment}
    (hsegment : segment ∈ s.segments) (hbytes : s'.bytes = s.bytes) :
    Streams text (s'.restrict segment.start segment.stop).scan := by
  obtain ⟨found, ⟨w, hw, hfound⟩, hsame⟩ := h.exists_inStream hne
  rw [hsame.segments_eq] at hsegment
  refine ⟨_, 0, .part hw hfound hsegment, ?_⟩
  exact (Agrees.restrict (hbytes.trans h.bytes_eq) ..).scan

end Streams
end SelfCapture.Scanner
