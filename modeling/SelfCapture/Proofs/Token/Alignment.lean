import SelfCapture.Proofs.Text.Boundary
import SelfCapture.Proofs.Token.Extent

/-! # Tokens and characters

  Tokens consist of whole characters.  The scanner looks at single bytes,
  and only the letters of a name and characters that start no token are
  decoded; everything else that ends a gap, a string literal or a lexeme is
  a byte below `U+0080`, or the end of the window.  So the ends of tokens
  and of interpolated expressions are aligned.

  `Scanner.Aligned` collects what holds of a scanner on a text, from its
  start on, also inside the window of an interpolated expression.
-/

namespace SelfCapture.Token

open Text (Aligned)

variable {text : String} {w : Window}

/-! ## Section 1: Gaps -/

/-- A block comment ends after its last delimiter, or with the window. -/
theorem blockComment_aligned (hw : w.Fits text) (count depth : Nat) {offset : Nat}
    (lineFeed : Bool) (hle : offset ≤ w.stop) (hcount : w.stop - offset ≤ count)
    (hdepth : depth = 0 → Aligned text offset) :
    Aligned text (blockComment w count depth offset lineFeed).1 := by
  fun_induction blockComment w count depth offset lineFeed with
  | case1 depth offset lineFeed =>
    obtain rfl : offset = w.stop := by omega
    exact hw.stop
  | case2 count offset lineFeed => exact hdepth rfl
  | case3 count depth offset lineFeed hopen hstart ih =>
    have hlen : offset + 2 ≤ w.stop := Window.startsWith_le hstart (by simp)
    exact ih hlen (by omega) (by omega)
  | case4 count depth offset lineFeed hopen hstart hclose ih =>
    have hlen : offset + 2 ≤ w.stop := Window.startsWith_le hclose (by simp)
    exact ih hlen (by omega) fun _ => hw.of_startsWith hclose (by simp) (by simp)
  | case5 count depth offset lineFeed hopen hstart hclose c hc ih =>
    -- Inside the comment the bytes of a character are passed one by one.
    have hlen : offset + 1 ≤ w.stop := Window.lt_stop_of_get? hc
    exact ih hlen (by omega) fun hzero => absurd hzero hopen
  | case6 count depth offset lineFeed hopen hstart hclose hnone =>
    exact hw.of_get?_none hnone hle

theorem Gap.extend_aligned (hw : w.Fits text) (count : Nat) {gap : Gap} (hle : gap.stop ≤ w.stop)
    (hcount : w.stop - gap.stop ≤ count) (h : Aligned text gap.stop) :
    Aligned text (Gap.extend w count gap).stop := by
  have hblank {count : Nat} {c : Char} {gap : Gap} (hc : w.get? gap.stop = some c)
      (hlow : c.toNat < 0x80) (hcount : w.stop - gap.stop ≤ count + 1) :
      gap.stop + 1 ≤ w.stop ∧ w.stop - (gap.stop + 1) ≤ count ∧ Aligned text (gap.stop + 1) :=
    ⟨Window.lt_stop_of_get? hc, by omega, hw.after_get? hc hlow⟩
  -- Blanks and line breaks are single bytes; a comment ends at a line feed or behind its closing mark.
  fun_induction Gap.extend w count gap with
  | case1 | case10 | case11 => exact h
  | case2 count gap hc ih | case3 count gap hc ih | case4 count gap hc ih | case5 count gap hc ih
  | case6 count gap hc ih | case7 count gap hc ih =>
    obtain ⟨hlen, hleft, hnext⟩ := hblank hc (by decide) hcount
    exact ih hlen hleft hnext
  | case8 count gap hc hd ih =>
    have hlen : w.skipWhile (· != '\n') gap.stop ≤ w.stop := Window.skipWhile_le hle
    have hlow : gap.stop < w.skipWhile (· != '\n') gap.stop :=
      Window.lt_skipWhile hc (by decide)
    have hleft : w.stop - w.skipWhile (· != '\n') gap.stop ≤ count := by omega
    refine ih hlen hleft (hw.skipWhile_until ?_ hle)
    intro c hstop
    obtain rfl : c = '\n' := by simpa using hstop
    decide
  | case9 count gap hc hd comment ih =>
    have hlen : gap.stop + 2 ≤ w.stop := Window.lt_stop_of_get? hd
    have hbounds : gap.stop + 2 ≤ comment.1 ∧ comment.1 ≤ w.stop :=
      blockComment_bounds count 1 false hlen
    have hleft : w.stop - comment.1 ≤ count := by omega
    exact ih hbounds.2 hleft (blockComment_aligned hw count 1 false hlen (by omega) (by omega))

theorem gapAt_aligned (hw : w.Fits text) {offset : Nat} (hle : offset ≤ w.stop)
    (h : Aligned text offset) : Aligned text (gapAt w offset).stop :=
  Gap.extend_aligned hw _ hle (Nat.le_refl _) h

/-! ## Section 2: String literals -/

/-- The ends of all segments are aligned. -/
def SegmentsAligned (text : String) (segments : List Segment) : Prop :=
  ∀ segment ∈ segments, Aligned text segment.start ∧ Aligned text segment.stop

theorem SegmentsAligned.nil : SegmentsAligned text [] := nofun

theorem SegmentsAligned.snoc {segments : List Segment} {start stop : Nat}
    (h : SegmentsAligned text segments) (hstart : Aligned text start) (hstop : Aligned text stop) :
    SegmentsAligned text (segments ++ [⟨start, stop⟩]) := by
  intro segment hsegment
  rcases List.mem_append.mp hsegment with hmem | hmem
  · exact h segment hmem
  · rw [List.mem_singleton.mp hmem]
    exact ⟨hstart, hstop⟩

/-- Where a string literal and the interpolated expressions in it end. -/
structure Quoted.Aligned (text : String) (quoted : Quoted) : Prop where
  stop : Text.Aligned text quoted.stop
  segments : SegmentsAligned text quoted.segments

theorem closesAt_aligned (hw : w.Fits text) {quote : Quote} {offset : Nat}
    (h : closesAt w quote offset = true) :
    Aligned text (offset + quote.width + quote.hashes) := by
  have hpos : 0 < quote.width := by unfold Quote.width; split <;> decide
  have hend := hw.of_startsWith h ?_ ?_
  · simpa [Nat.add_assoc] using hend
  · intro c hc
    simp only [List.mem_append, List.mem_replicate] at hc
    rcases hc with ⟨-, rfl⟩ | ⟨-, rfl⟩
    · decide
    · decide
  · simp
    omega

/-- Where the body of a literal ends, and where an interpolated expression
    does: at a line break, after the delimiter, at the parenthesis, or with
    the window. -/
theorem quoted_aligned (hw : w.Fits text) (count : Nat) :
    (∀ quote segments offset, SegmentsAligned text segments →
      (quotedBody w quote segments count offset).Aligned text) ∧
    (∀ depth offset close,
      interpolationEnd w count depth offset = some close → Aligned text close) := by
  induction count with
  | zero =>
    refine ⟨fun quote segments offset h => ?_, fun depth offset close h => ?_⟩
    · rw [quotedBody]
      exact ⟨hw.stop, h⟩
    · rw [interpolationEnd] at h
      cases h
  | succ count ih =>
    obtain ⟨hbody, hend⟩ := ih
    refine ⟨fun quote segments offset h => ?_, fun depth offset close h => ?_⟩
    · rw [quotedBody]
      split
      · exact ⟨hw.stop, h⟩
      · rename_i hc
        split
        · exact hbody quote segments _ h
        · exact ⟨(hw.of_get? hc (by decide)).1, h⟩
      · rename_i hc
        split
        · exact hbody quote segments _ h
        · exact ⟨(hw.of_get? hc (by decide)).1, h⟩
      · dsimp only
        split
        · exact hbody quote segments _ h
        · split
          · rename_i hopen
            split
            · rename_i close hclose
              -- The expression lies between its parentheses.
              refine hbody quote _ _ (h.snoc ?_ (hend _ _ _ hclose))
              exact hw.after_get? (eq_of_beq hopen) (by decide)
            · exact ⟨hw.stop, h⟩
          · exact hbody quote segments _ h
      · split
        · rename_i hclose
          exact ⟨closesAt_aligned hw hclose, h⟩
        · exact hbody quote segments _ h
      · exact hbody quote segments _ h
    · rw [interpolationEnd] at h
      split at h
      · cases h
      · exact hend _ _ _ h
      · rename_i hc
        split at h
        · cases h
          exact (hw.of_get? hc (by decide)).1
        · exact hend _ _ _ h
      · simp only at h
        split at h
        · exact hend _ _ _ h
        · cases h
      · exact hend _ _ _ h

/-! ## Section 3: Lexemes -/

/-- Where a lexeme and the interpolated expressions in it end. -/
structure Lexeme.Aligned (text : String) (lexeme : Lexeme) : Prop where
  stop : Text.Aligned text lexeme.stop
  segments : SegmentsAligned text lexeme.segments

/-- A lexeme that is not a string literal. -/
theorem Lexeme.Aligned.plain {stop : Nat} {kind : Kind} {issue : Option Diagnostic}
    (h : Text.Aligned text stop) : Lexeme.Aligned text { kind, stop, issue } :=
  ⟨h, .nil⟩

theorem lt_of_le_ascii {c last : Char} (hlast : last.toNat < 0x80) (h : c.val ≤ last.val) :
    c.toNat < 0x80 :=
  Nat.lt_of_le_of_lt (UInt32.le_iff_toNat_le.mp h) hlast

theorem lt_of_isDigit {c : Char} (h : c.isDigit = true) : c.toNat < 0x80 :=
  lt_of_le_ascii (by decide) (of_decide_eq_true ((Bool.and_eq_true _ _).mp h).2)

/-- Letters, digits and the separator of digits are below `U+0080`. -/
theorem lt_of_isNamePart {c : Char} (h : isNamePart c = true) : c.toNat < 0x80 := by
  rcases (Bool.or_eq_true _ _).mp h with hletter | hmark
  · rcases (Bool.or_eq_true _ _).mp hletter with halpha | hdigit
    · rcases (Bool.or_eq_true _ _).mp halpha with hupper | hlower
      · exact lt_of_le_ascii (by decide) (of_decide_eq_true hupper).2
      · exact lt_of_le_ascii (by decide) (of_decide_eq_true ((Bool.and_eq_true _ _).mp hlower).2)
    · exact lt_of_isDigit hdigit
  · rw [eq_of_beq hmark]
    decide

theorem lt_of_isDigitPart {c : Char} (h : isDigitPart c = true) : c.toNat < 0x80 := by
  rcases (Bool.or_eq_true _ _).mp h with h | h
  · exact lt_of_isDigit h
  · rw [eq_of_beq h]
    decide

theorem lt_of_isRadixDigitPart {c : Char} (h : isRadixDigitPart c = true) : c.toNat < 0x80 := by
  simp only [isRadixDigitPart, Bool.or_eq_true, Bool.and_eq_true, decide_eq_true_eq,
    beq_iff_eq] at h
  rcases h with ((h | h) | h) | rfl
  · exact lt_of_isDigit h
  · exact lt_of_le_ascii (by decide) h.2
  · exact lt_of_le_ascii (by decide) h.2
  · decide

theorem lt_of_isOperatorPart {c : Char} (h : isOperatorPart c = true) : c.toNat < 0x80 := by
  have hall : ∀ c ∈ ['=', '-', '+', '*', '%', '&', '|', '^', '~', '/'], c.toNat < 0x80 := by simp
  exact hall c (List.contains_iff_mem.mp h)

theorem nameEnd_aligned (hw : w.Fits text) (count : Nat) {offset : Nat}
    (h : Aligned text offset) : Aligned text (nameEnd w count offset) := by
  fun_induction nameEnd w count offset with
  | case3 count offset b hb hpart ih => exact ih (hw.after_get? hb (lt_of_isNamePart hpart))
  | case5 count offset b hb hpart hhigh c hc halpha ih => exact ih (hw.of_char? hc)
  | _ => exact h

theorem nameAt_aligned (hw : w.Fits text) {start : Nat} (h : Aligned text start) :
    (nameAt w start).Aligned text :=
  .plain (nameEnd_aligned hw _ h)

theorem escapedNameAt_aligned (hw : w.Fits text) {start : Nat}
    (hb : w.get? start = some '`') : (escapedNameAt w start).Aligned text := by
  unfold escapedNameAt
  dsimp only
  split
  · rename_i hclose
    simp only [Bool.and_eq_true, beq_iff_eq] at hclose
    exact .plain (hw.after_get? hclose.1 (by decide))
  · exact .plain (hw.after_get? hb (by decide))

theorem exponentEnd?_aligned (hw : w.Fits text) {offset stop : Nat}
    (h : exponentEnd? w offset = some stop) : Aligned text stop := by
  have hdigits {digits : Nat}
      (h : (if digitAt w digits then some (w.skipWhile Char.isDigit digits) else none) =
        some stop) : Aligned text stop := by
    split at h
    · rename_i hdigit
      cases h
      obtain ⟨c, hc, hpass⟩ := (Option.any_eq_true _ _).mp hdigit
      exact hw.skipWhile (fun c => lt_of_isDigit) (hw.of_get? hc (lt_of_isDigit hpass)).1
    · cases h
  unfold exponentEnd? at h
  split at h
  case h_3 => cases h
  all_goals
    dsimp only at h
    exact hdigits h

theorem decimalAt_aligned (hw : w.Fits text) (afterMemberDot : Bool) {start : Nat}
    (h : Aligned text start) : (decimalAt w afterMemberDot start).Aligned text := by
  have hwhole : Aligned text (w.skipWhile isDigitPart start) :=
    hw.skipWhile (fun c => lt_of_isDigitPart) h
  have hexponent {fraction : Nat} (h : Aligned text fraction) :
      Aligned text ((exponentEnd? w fraction).getD fraction) := by
    cases hend : exponentEnd? w fraction with
    | none => exact h
    | some stop => exact exponentEnd?_aligned hw hend
  unfold decimalAt
  dsimp only
  split
  · exact .plain hwhole
  · refine .plain (hexponent ?_)
    split
    · rename_i hdot
      simp only [Bool.and_eq_true, beq_iff_eq] at hdot
      exact hw.skipWhile (fun c => lt_of_isDigitPart) (hw.after_get? hdot.1 (by decide))
    · exact hwhole

theorem numberAt_aligned (hw : w.Fits text) (previous : Token) {start : Nat}
    (h : Aligned text start) : (numberAt w previous start).Aligned text := by
  have hradix {c : Char} (hc : w.get? (start + 1) = some c) (hlow : c.toNat < 0x80) :
      Lexeme.Aligned text
        { kind := .integerLiteral, stop := w.skipWhile isRadixDigitPart (start + 2) } :=
    .plain (hw.skipWhile (fun c => lt_of_isRadixDigitPart) (hw.after_get? hc hlow))
  unfold numberAt
  dsimp only
  split
  · split
    · exact hradix ‹_› (by decide)
    · exact hradix ‹_› (by decide)
    · exact hradix ‹_› (by decide)
    · exact decimalAt_aligned hw _ h
  · exact decimalAt_aligned hw _ h

theorem operatorEnd_aligned (hw : w.Fits text) (count : Nat) {offset : Nat}
    (h : Aligned text offset) : Aligned text (operatorEnd w count offset) := by
  fun_induction operatorEnd w count offset with
  | case4 count offset c hc hpart hcomment ih =>
    exact ih (hw.after_get? hc (lt_of_isOperatorPart hpart))
  | _ => exact h

theorem operatorAt_aligned (hw : w.Fits text) (start : Nat) {body : Nat}
    (h : Aligned text body) : (operatorAt w start body).Aligned text :=
  .plain (operatorEnd_aligned hw _ h)

theorem stringAt_aligned (hw : w.Fits text) (hashes start : Nat) :
    (stringAt w hashes start).Aligned text := by
  have hquoted : (quotedAt w hashes start).Aligned text :=
    (quoted_aligned hw _).1 _ _ _ .nil
  exact ⟨hquoted.stop, hquoted.segments⟩

theorem hashAt_aligned (hw : w.Fits text) {start : Nat} (hb : w.get? start = some '#') :
    (hashAt w start).Aligned text := by
  unfold hashAt
  dsimp only
  split
  · exact stringAt_aligned hw _ _
  · exact .plain (hw.after_get? hb (by decide))

theorem otherAt_aligned (hw : w.Fits text) {start : Nat} (h : Aligned text start)
    (hlt : start < w.stop) : (otherAt w start).Aligned text := by
  -- A whole character is there, so no single byte of one is taken for a token.
  obtain ⟨c, hc⟩ := hw.exists_char? h hlt
  unfold otherAt
  rw [hc]
  dsimp only
  split
  · exact nameAt_aligned hw h
  · exact .plain (hw.of_char? hc)

theorem lt_of_punctuation? {c : Char} {kind : Kind} (h : punctuation? c = some kind) :
    c.toNat < 0x80 := by
  revert h
  fun_cases punctuation? c with
  | case13 => rintro ⟨⟩
  | _ => exact fun _ => by decide

theorem lexemeOf_aligned (hw : w.Fits text) (previous : Token) {start : Nat} {b : Char}
    (hb : w.get? start = some b) (h : Aligned text start) :
    (lexemeOf w previous start b).Aligned text := by
  have hone {kind : Kind} (hlow : b.toNat < 0x80) :
      Lexeme.Aligned text { kind, stop := start + 1 } := .plain (hw.after_get? hb hlow)
  -- A lexeme ends behind an ASCII character, which is a boundary, or behind a whole character.
  fun_cases lexemeOf w previous start b with
  | case1 kind hkind => exact hone (lt_of_punctuation? hkind)
  | case2 => exact stringAt_aligned hw _ _
  | case3 =>
    rename_i hhash
    exact hashAt_aligned hw (eq_of_beq hhash ▸ hb)
  | case4 =>
    rename_i hmark
    exact escapedNameAt_aligned hw (eq_of_beq hmark ▸ hb)
  | case5 =>
    rename_i hdollar
    have hnext := hw.after_get? hb (by rw [eq_of_beq hdollar]; decide)
    exact .plain (hw.skipWhile (fun c => lt_of_isNamePart) hnext)
  | case6 => exact numberAt_aligned hw previous h
  | case7 =>
    rename_i hdots
    rcases (Bool.or_eq_true _ _).mp hdots with hdots | hdots
    · exact .plain (hw.of_startsWith hdots (by simp) (by simp))
    · exact .plain (hw.of_startsWith hdots (by simp) (by simp))
  | case8 =>
    rename_i hdot _
    exact hone (by rw [eq_of_beq hdot]; decide)
  | case9 =>
    rename_i harrow
    simp only [Bool.and_eq_true, beq_iff_eq] at harrow
    exact .plain (hw.after_get? harrow.2 (by decide))
  | case10 =>
    rename_i hdouble
    exact operatorAt_aligned hw start (hw.after_get? (eq_of_beq hdouble) (by decide))
  | case11 =>
    rename_i hquestion _
    exact hone (by rw [eq_of_beq hquestion]; decide)
  | case12 =>
    rename_i hoperator
    refine operatorAt_aligned hw start (hw.after_get? hb ?_)
    simp only [isOperatorStart, Bool.or_eq_true, beq_iff_eq] at hoperator
    rcases hoperator with (hpart | rfl) | rfl
    · exact lt_of_isOperatorPart hpart
    · decide
    · decide
  | case13 => exact nameAt_aligned hw h
  | case14 => exact otherAt_aligned hw h (Window.lt_stop_of_get? hb)

theorem lexemeAt_aligned (hw : w.Fits text) (previous : Token) {start : Nat}
    (h : Aligned text start) : (lexemeAt w previous start).Aligned text := by
  unfold lexemeAt
  split
  · rename_i b hb
    exact lexemeOf_aligned hw previous hb h
  · exact .plain h

end SelfCapture.Token

/-! ## Section 4: Scanners -/

namespace SelfCapture.Scanner

variable {text : String} {s : Scanner}

/-- What holds of a scanner on a text. -/
structure Aligned (text : String) (s : Scanner) : Prop where
  bytes_eq : s.bytes = text.toByteArray
  pos : Text.Aligned text s.pos
  stop : Text.Aligned text s.stop
  token_pos : Text.Aligned text s.token.pos
  token_stop : Text.Aligned text s.token.stop
  segments : Token.SegmentsAligned text s.segments

theorem Aligned.fits (h : s.Aligned text) : s.window.Fits text := ⟨h.bytes_eq, h.stop⟩

theorem Aligned.scan (h : s.Aligned text) (hle : s.pos ≤ s.stop) : s.scan.Aligned text := by
  have hgap : Text.Aligned text (Token.gapAt s.window s.pos).stop :=
    Token.gapAt_aligned h.fits hle h.pos
  have hlexeme := Token.lexemeAt_aligned h.fits s.token hgap
  exact ⟨h.bytes_eq, hlexeme.stop, h.stop, hgap, hlexeme.stop, hlexeme.segments⟩

/-- A window between two characters of the text. -/
theorem aligned_restrict (hbytes : s.bytes = text.toByteArray) {start stop : Nat}
    (hle : start ≤ stop) (hstart : Text.Aligned text start) (hstop : Text.Aligned text stop) :
    (s.restrict start stop).Aligned text := by
  have hend : min stop s.bytes.size = stop := by
    rw [hbytes]
    exact Nat.min_eq_left hstop.le
  refine ⟨hbytes, ?_, ?_, Text.aligned_zero, Text.aligned_zero, .nil⟩
  · simp only [Scanner.restrict, hend, Nat.min_eq_left hle]
    exact hstart
  · simp only [Scanner.restrict, hend]
    exact hstop

/-- The window of an interpolated expression. -/
theorem Aligned.restrict (h : s.Aligned text) {start stop : Nat} (hle : start ≤ stop)
    (hstart : Text.Aligned text start) (hstop : Text.Aligned text stop) :
    (s.restrict start stop).Aligned text :=
  aligned_restrict h.bytes_eq hle hstart hstop

/-- A byte order mark is one character. -/
theorem markLength_aligned {w : Window} (hw : w.Fits text) :
    Text.Aligned text (markLength w) := by
  unfold markLength
  split
  · rename_i hmark
    simp only [Window.startsWith, Bool.and_eq_true, beq_iff_eq] at hmark
    have hlt := Window.lt_stop_of_get? hmark.1
    obtain ⟨c, hc⟩ := hw.exists_char? Text.aligned_zero hlt
    obtain ⟨byte, hbyte, hval⟩ := hw.exists_byte hmark.1
    obtain rfl : byte = 0xEF := UInt8.toNat_inj.mp hval
    have hsize := Text.utf8Size_of_mark (hw.decode_of_char? hc) hbyte
    have hnext := hw.of_char? hc
    rwa [Nat.zero_add, hsize] at hnext
  · exact Text.aligned_zero

theorem startOffset_aligned {w : Window} (hw : w.Fits text) :
    Text.Aligned text (startOffset w) := by
  have hmark := markLength_aligned hw
  unfold startOffset
  dsimp only
  split
  · rename_i hscript
    have hle : markLength w ≤ w.stop :=
      Nat.le_of_add_right_le (Window.startsWith_le hscript (by simp))
    refine hw.skipWhile_until (fun c hstop => ?_) hle
    obtain rfl : c = '\n' := by simpa using hstop
    decide
  · exact hmark

theorem ofText_aligned (text : String) : (ofText text).Aligned text := by
  have hw : Window.Fits ⟨text.toByteArray, text.toByteArray.size⟩ text := ⟨rfl, Text.aligned_size⟩
  exact ⟨rfl, startOffset_aligned hw, Text.aligned_size, Text.aligned_zero, Text.aligned_zero, .nil⟩

end SelfCapture.Scanner
