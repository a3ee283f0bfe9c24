import SelfCapture.Proofs.Text.Window
import SelfCapture.Token.Scanner

/-! # Where tokens end

  Gaps, string literals and lexemes stay inside the window that is read,
  and a lexeme covers at least one byte.  The interpolated expressions of a
  string literal lie inside it, in order and apart from each other.

  `Scanner.Settled` collects what holds of a scanner whenever a token has
  been read; `Scanner.scan_settled` shows that reading a token from any
  offset of the window brings it about.
-/

namespace SelfCapture.Token

variable {w : Window}

/-! ## Section 1: Gaps -/

theorem blockComment_bounds (count depth : Nat) {offset : Nat} (lineFeed : Bool)
    (h : offset ≤ w.stop) :
    offset ≤ (blockComment w count depth offset lineFeed).1 ∧
      (blockComment w count depth offset lineFeed).1 ≤ w.stop := by
  fun_induction blockComment w count depth offset lineFeed with
  | case1 | case2 | case6 => exact ⟨Nat.le_refl _, h⟩
  | case3 count depth offset lineFeed hdepth hopen ih =>
    -- A nested opening has two bytes, as a closing has; both are inside.
    have hle : offset + 2 ≤ w.stop := Window.startsWith_le hopen (by simp)
    have hrest := ih hle
    exact ⟨by omega, hrest.2⟩
  | case4 count depth offset lineFeed hdepth hopen hclose ih =>
    have hle : offset + 2 ≤ w.stop := Window.startsWith_le hclose (by simp)
    have hrest := ih hle
    exact ⟨by omega, hrest.2⟩
  | case5 count depth offset lineFeed hdepth hopen hclose c hc ih =>
    have hle : offset + 1 ≤ w.stop := Window.lt_stop_of_get? hc
    have hrest := ih hle
    exact ⟨by omega, hrest.2⟩

theorem Gap.extend_bounds (count : Nat) {gap : Gap} (h : gap.stop ≤ w.stop) :
    gap.stop ≤ (Gap.extend w count gap).stop ∧ (Gap.extend w count gap).stop ≤ w.stop := by
  fun_induction Gap.extend w count gap with
  | case1 | case10 | case11 => exact ⟨Nat.le_refl _, h⟩
  | case2 count gap hc ih | case3 count gap hc ih | case4 count gap hc ih | case5 count gap hc ih
  | case6 count gap hc ih | case7 count gap hc ih =>
    have hrest := ih (Window.lt_stop_of_get? hc)
    exact ⟨Nat.le_of_succ_le hrest.1, hrest.2⟩
  | case8 count gap hc hd ih =>
    have hrest := ih (Window.skipWhile_le h)
    exact ⟨Nat.le_trans (w.le_skipWhile _ _) hrest.1, hrest.2⟩
  | case9 count gap hc hd comment ih =>
    have hle : gap.stop + 2 ≤ w.stop := Window.lt_stop_of_get? hd
    have hcomment := blockComment_bounds count 1 false hle
    have hrest := ih hcomment.2
    refine ⟨?_, hrest.2⟩
    calc gap.stop ≤ gap.stop + 2 := Nat.le_add_right ..
      _ ≤ comment.1 := hcomment.1
      _ ≤ _ := hrest.1

/-- A gap stays inside the window. -/
theorem gapAt_bounds {offset : Nat} (h : offset ≤ w.stop) :
    offset ≤ (gapAt w offset).stop ∧ (gapAt w offset).stop ≤ w.stop := by
  have hstart : ({ stop := offset } : Gap).stop ≤ w.stop := h
  exact Gap.extend_bounds (w.left offset) hstart

/-- A gap that is extended at all is blank. -/
theorem Gap.extend_eq_or (count : Nat) (gap : Gap) :
    Gap.extend w count gap = gap ∨ (Gap.extend w count gap).blank = true := by
  fun_induction Gap.extend w count gap with
  | case1 | case10 | case11 => exact .inl rfl
  | case2 _ _ _ ih | case3 _ _ _ ih | case4 _ _ _ ih | case5 _ _ _ ih | case6 _ _ _ ih
  | case7 _ _ _ ih | case8 _ _ _ _ ih | case9 _ _ _ _ _ ih =>
    exact .inr (ih.elim (fun heq => by rw [heq]) id)

/-- A gap that is not blank is empty. -/
theorem gapAt_stop_eq {offset : Nat} (h : (gapAt w offset).blank = false) :
    (gapAt w offset).stop = offset := by
  rcases Gap.extend_eq_or (w.left offset) { stop := offset } with heq | hblank
  · rw [gapAt, heq]
  · rw [gapAt, hblank] at h
    cases h

/-! ## Section 2: String literals -/

/-- The segments lie in order between two offsets, each after the one before it. -/
def Inside (low : Nat) : List Segment → (high : Nat) → Prop
  | [], high => low ≤ high
  | segment :: rest, high =>
    low < segment.start ∧ segment.start ≤ segment.stop ∧ Inside (segment.stop + 1) rest high

theorem Inside.mono {low low' high : Nat} {segments : List Segment} (hlow : low' ≤ low)
    (h : Inside low segments high) : Inside low' segments high := by
  cases segments with
  | nil => exact Nat.le_trans hlow h
  | cons segment rest => exact ⟨Nat.lt_of_le_of_lt hlow h.1, h.2⟩

theorem Inside.le {low high : Nat} {segments : List Segment} (h : Inside low segments high) :
    low ≤ high := by
  induction segments generalizing low with
  | nil => exact h
  | cons segment rest ih =>
    have hrest := ih h.2.2
    have hstart := h.1
    have hstop := h.2.1
    omega

/-- Where reading a string literal on from an offset ends: inside the
    window, not before the offset, with the new segments in between. -/
structure Reaches (w : Window) (offset : Nat) (segments : List Segment) (quoted : Quoted) :
    Prop where
  stop_le : quoted.stop ≤ w.stop
  le_stop : min offset w.stop ≤ quoted.stop
  inside : ∃ added, quoted.segments = segments ++ added ∧
    Inside (min offset w.stop) added quoted.stop

theorem Reaches.ends {offset stop : Nat} {closed : Bool} {segments : List Segment}
    (hle : stop ≤ w.stop) (hlow : min offset w.stop ≤ stop) :
    Reaches w offset segments { stop, closed, segments } :=
  ⟨hle, hlow, [], by simp, hlow⟩

theorem Reaches.later {offset next : Nat} {segments : List Segment} {quoted : Quoted}
    (h : Reaches w next segments quoted) (hle : offset ≤ next) :
    Reaches w offset segments quoted := by
  have hmin : min offset w.stop ≤ min next w.stop := by omega
  obtain ⟨added, heq, hin⟩ := h.inside
  exact ⟨h.stop_le, Nat.le_trans hmin h.le_stop, added, heq, hin.mono hmin⟩

/-- An interpolated expression that has been read counts among the segments. -/
theorem Reaches.segment {offset start close : Nat} {segments : List Segment} {quoted : Quoted}
    (h : Reaches w (close + 1) (segments ++ [⟨start, close⟩]) quoted) (hlow : offset < start)
    (hle : start ≤ close) (hhigh : close < w.stop) : Reaches w offset segments quoted := by
  obtain ⟨added, heq, hin⟩ := h.inside
  have hstop := h.le_stop
  rw [Nat.min_eq_left hhigh] at hin hstop
  refine ⟨h.stop_le, by omega, ⟨start, close⟩ :: added, ?_, ?_, hle, hin⟩
  · rw [heq, List.append_assoc]
    rfl
  · exact Nat.lt_of_le_of_lt (Nat.min_le_left ..) hlow

theorem closesAt_le {quote : Quote} {offset : Nat} (h : closesAt w quote offset = true) :
    offset + quote.width + quote.hashes ≤ w.stop := by
  have hpos : 0 < quote.width := by unfold Quote.width; split <;> decide
  have hne : List.replicate quote.width '"' ++ List.replicate quote.hashes '#' ≠ [] := by
    simp
    omega
  have hle := Window.startsWith_le h hne
  simp only [List.length_append, List.length_replicate] at hle
  omega

/-- What a step of `quotedBody` does when the rest of the body and of the
    interpolated expressions is known to stay inside the window. -/
theorem quotedBody_step {count : Nat}
    (hbody : ∀ quote segments offset,
      Reaches w offset segments (quotedBody w quote segments count offset))
    (hend : ∀ depth offset close,
      interpolationEnd w count depth offset = some close → offset ≤ close ∧ close < w.stop)
    (quote : Quote) (segments : List Segment) (offset : Nat) :
    Reaches w offset segments (quotedBody w quote segments (count + 1) offset) := by
  have hnext := (hbody quote segments (offset + 1)).later (Nat.le_succ offset)
  have hopen : Reaches w offset segments { stop := w.stop, closed := false, segments } :=
    Reaches.ends (Nat.le_refl _) (Nat.min_le_right ..)
  have hline {c : Char} (hc : w.get? offset = some c) :
      Reaches w offset segments { stop := offset, closed := false, segments } :=
    Reaches.ends (Nat.le_of_lt (Window.lt_stop_of_get? hc)) (Nat.min_le_left ..)
  rw [quotedBody]
  split
  · exact hopen
  · rename_i hc
    split
    · exact hnext
    · exact hline hc
  · rename_i hc
    split
    · exact hnext
    · exact hline hc
  · rename_i hc
    -- The escape is read as a whole: either it opens an interpolated
    -- expression, which is skipped, or its character is.
    have hesc := w.le_skipUpTo (· == '#') quote.hashes (offset + 1)
    dsimp only
    split
    · exact hnext
    · split
      · split
        · rename_i close hclose
          obtain ⟨hlow, hhigh⟩ := hend _ _ _ hclose
          exact (hbody quote _ (close + 1)).segment (by omega) hlow hhigh
        · exact hopen
      · exact (hbody quote segments _).later (by have := Window.lt_stop_of_get? hc; omega)
  · split
    · rename_i hclose
      exact Reaches.ends (closesAt_le hclose) (by omega)
    · exact hnext
  · exact hnext

theorem interpolationEnd_step {count : Nat}
    (hbody : ∀ quote segments offset,
      Reaches w offset segments (quotedBody w quote segments count offset))
    (hend : ∀ depth offset close,
      interpolationEnd w count depth offset = some close → offset ≤ close ∧ close < w.stop)
    (depth offset close : Nat) (h : interpolationEnd w (count + 1) depth offset = some close) :
    offset ≤ close ∧ close < w.stop := by
  have hnext {depth : Nat} (h : interpolationEnd w count depth (offset + 1) = some close) :
      offset ≤ close ∧ close < w.stop := by
    obtain ⟨hlow, hhigh⟩ := hend _ _ _ h
    exact ⟨by omega, hhigh⟩
  rw [interpolationEnd] at h
  split at h
  · cases h
  · exact hnext h
  · rename_i hc
    split at h
    · cases h
      exact ⟨Nat.le_refl _, Window.lt_stop_of_get? hc⟩
    · exact hnext h
  · rename_i hc
    -- A string literal inside the expression is skipped as a whole.
    have hlt := Window.lt_stop_of_get? hc
    have hinner := (hbody (quoteAt w 0 offset) [] (offset + (quoteAt w 0 offset).width)).later
      (Nat.le_add_right offset _)
    simp only at h
    split at h
    · obtain ⟨hlow, hhigh⟩ := hend _ _ _ h
      have hle := hinner.le_stop
      exact ⟨by omega, hhigh⟩
    · cases h
  · exact hnext h

/-- Reading the body of a string literal stays inside the window, and so
    does the search for the end of an interpolated expression. -/
theorem quoted_bounds (w : Window) (count : Nat) :
    (∀ quote segments offset,
      Reaches w offset segments (quotedBody w quote segments count offset)) ∧
    (∀ depth offset close,
      interpolationEnd w count depth offset = some close → offset ≤ close ∧ close < w.stop) := by
  induction count with
  | zero =>
    refine ⟨fun quote segments offset => ?_, fun depth offset close h => ?_⟩
    · rw [quotedBody]
      exact Reaches.ends (Nat.le_refl _) (Nat.min_le_right ..)
    · rw [interpolationEnd] at h
      cases h
  | succ count ih => exact ⟨quotedBody_step ih.1 ih.2, interpolationEnd_step ih.1 ih.2⟩

theorem quotedAt_reaches (w : Window) (hashes offset : Nat) :
    Reaches w (offset + 1) [] (quotedAt w hashes offset) := by
  have hwidth : 0 < (quoteAt w hashes offset).width := by unfold Quote.width; split <;> decide
  exact ((quoted_bounds w _).1 _ _ _).later (by omega)

/-! ## Section 3: Lexemes -/

/-- What a lexeme that starts at an offset covers: at least one byte, all
    inside the window, and the segments in order. -/
structure Lexeme.Covers (w : Window) (start : Nat) (lexeme : Lexeme) : Prop where
  lt_stop : start < lexeme.stop
  stop_le : lexeme.stop ≤ w.stop
  kind_ne : lexeme.kind ≠ .endOfFile
  inside : Inside start lexeme.segments lexeme.stop
  brace : lexeme.kind = .openBrace → w.get? start = some '\x7b'

/-- A lexeme that is neither a string literal nor an opening brace. -/
theorem Lexeme.Covers.plain {start stop : Nat} {kind : Kind} {issue : Option Diagnostic}
    (hlt : start < stop) (hle : stop ≤ w.stop) (hend : kind ≠ .endOfFile)
    (hbrace : kind ≠ .openBrace) : Lexeme.Covers w start { kind, stop, issue } :=
  ⟨hlt, hle, hend, Nat.le_of_lt hlt, fun h => absurd h hbrace⟩

/-- A reserved word is neither the end of the text nor a brace. -/
theorem Kind.ofWord?_getD (word : String) :
    (Kind.ofWord? word).getD .identifier ≠ .endOfFile ∧
      (Kind.ofWord? word).getD .identifier ≠ .openBrace := by
  have hall : ∀ entry ∈ Kind.reservedWords,
      entry.2 ≠ Kind.endOfFile ∧ entry.2 ≠ Kind.openBrace := by decide
  cases h : Kind.ofWord? word with
  | none => decide
  | some kind =>
    have hmem : (word, kind) ∈ Kind.reservedWords := by
      unfold Kind.ofWord? at h
      obtain ⟨l₁, l₂, heq, -⟩ := List.lookup_eq_some_iff.mp h
      rw [heq]
      simp
    exact hall _ hmem

theorem le_nameEnd (w : Window) (count offset : Nat) : offset ≤ nameEnd w count offset := by
  fun_induction nameEnd w count offset with
  | case3 count offset b hb hpart ih => omega
  | case5 count offset b hb hpart hlow c hc halpha ih => omega
  | _ => exact Nat.le_refl _

theorem nameEnd_le {count offset : Nat} (h : offset ≤ w.stop) :
    nameEnd w count offset ≤ w.stop := by
  fun_induction nameEnd w count offset with
  | case3 count offset b hb hpart ih => exact ih (Window.lt_stop_of_get? hb)
  | case5 count offset b hb hpart hlow c hc halpha ih => exact ih (Window.char?_le hc)
  | _ => exact h

/-- A name that starts covers its first character. -/
theorem lt_nameEnd {start : Nat} {b : Char} (hb : w.get? start = some b)
    (h : isNamePart b = true ∨
      ¬ b.toNat < 0x80 ∧ ∃ c, w.char? start = some c ∧ Text.isAlphanumeric c = true) :
    start < nameEnd w (w.left start) start := by
  have hlt := Window.lt_stop_of_get? hb
  -- There is a byte at the start, so at least one step is taken.
  obtain ⟨n, hn⟩ : ∃ n, w.left start = n + 1 :=
    ⟨w.stop - start - 1, by unfold Window.left; omega⟩
  rw [hn]
  unfold nameEnd
  rw [hb]
  dsimp only
  split
  · exact le_nameEnd w n (start + 1)
  · rename_i hpart
    obtain ⟨hhigh, c, hc, halpha⟩ := h.resolve_left hpart
    rw [if_neg hhigh, hc]
    dsimp only
    rw [if_pos halpha]
    have hsize := c.utf8Size_pos
    have hle := le_nameEnd w n (start + c.utf8Size)
    omega

theorem nameAt_covers {start : Nat} {b : Char} (hb : w.get? start = some b)
    (h : isNamePart b = true ∨
      ¬ b.toNat < 0x80 ∧ ∃ c, w.char? start = some c ∧ Text.isAlphanumeric c = true) :
    (nameAt w start).Covers w start := by
  have hkind := Kind.ofWord?_getD (Text.slice w.bytes start (nameEnd w (w.left start) start))
  exact .plain (lt_nameEnd hb h) (nameEnd_le (Nat.le_of_lt (Window.lt_stop_of_get? hb)))
    hkind.1 hkind.2

theorem escapedNameAt_covers {start : Nat} {b : Char} (hb : w.get? start = some b) :
    (escapedNameAt w start).Covers w start := by
  have hlt : start + 1 ≤ w.stop := Window.lt_stop_of_get? hb
  unfold escapedNameAt
  dsimp only
  split
  · rename_i h
    simp only [Bool.and_eq_true, beq_iff_eq, decide_eq_true_eq] at h
    have hclose := Window.lt_stop_of_get? h.1
    exact .plain (by omega) hclose (by decide) (by decide)
  · exact .plain (Nat.lt_succ_self _) hlt (by decide) (by decide)

theorem digitAt_lt {offset : Nat} (h : digitAt w offset = true) : offset < w.stop := by
  obtain ⟨c, hc, -⟩ := (Option.any_eq_true _ _).mp h
  exact Window.lt_stop_of_get? hc

theorem exponentEnd?_bounds {offset stop : Nat} (h : exponentEnd? w offset = some stop) :
    offset ≤ stop ∧ stop ≤ w.stop := by
  have hskip {digits : Nat} (hle : offset ≤ digits)
      (h : (if digitAt w digits then some (w.skipWhile Char.isDigit digits) else none) = some stop) :
      offset ≤ stop ∧ stop ≤ w.stop := by
    split at h
    · rename_i hdigit
      cases h
      exact ⟨Nat.le_trans hle (w.le_skipWhile ..),
        Window.skipWhile_le (Nat.le_of_lt (digitAt_lt hdigit))⟩
    · cases h
  unfold exponentEnd? at h
  split at h
  case h_3 => cases h
  all_goals
    -- After the letter, with a sign or without one, the digits come later.
    dsimp only at h
    split at h
    · exact hskip (Nat.le_add_right ..) h
    · exact hskip (Nat.le_add_right ..) h
    · exact hskip (Nat.le_add_right ..) h

theorem decimalAt_covers {start : Nat} {b : Char} (afterMemberDot : Bool)
    (hb : w.get? start = some b) (hdigit : b.isDigit = true) :
    (decimalAt w afterMemberDot start).Covers w start := by
  have hle := Nat.le_of_lt (Window.lt_stop_of_get? hb)
  have hwhole : start < w.skipWhile isDigitPart start :=
    Window.lt_skipWhile hb (by simp [isDigitPart, hdigit])
  have hstop : w.skipWhile isDigitPart start ≤ w.stop := Window.skipWhile_le hle
  have hkind (stop whole : Nat) :
      (if stop = whole then Kind.integerLiteral else .floatLiteral) ≠ .endOfFile ∧
        (if stop = whole then Kind.integerLiteral else .floatLiteral) ≠ .openBrace := by
    split <;> decide
  -- With or without an exponent, a number ends no earlier than its fraction.
  have hexp (whole fraction : Nat) (hlow : start < fraction) (hhigh : fraction ≤ w.stop) :
      Lexeme.Covers w start
        { kind := if (exponentEnd? w fraction).getD fraction = whole then .integerLiteral
            else .floatLiteral
          stop := (exponentEnd? w fraction).getD fraction } := by
    have hend : start < (exponentEnd? w fraction).getD fraction ∧
        (exponentEnd? w fraction).getD fraction ≤ w.stop := by
      cases h : exponentEnd? w fraction with
      | none => exact ⟨hlow, hhigh⟩
      | some stop =>
        have hbounds := exponentEnd?_bounds h
        exact ⟨Nat.lt_of_lt_of_le hlow hbounds.1, hbounds.2⟩
    exact .plain hend.1 hend.2 (hkind _ _).1 (hkind _ _).2
  unfold decimalAt
  dsimp only
  split
  · exact .plain hwhole hstop (by decide) (by decide)
  · split
    · rename_i hfraction
      simp only [Bool.and_eq_true] at hfraction
      have hskip := w.le_skipWhile isDigitPart (w.skipWhile isDigitPart start + 1)
      exact hexp _ _ (by omega) (Window.skipWhile_le (Nat.le_of_lt (digitAt_lt hfraction.2)))
    · exact hexp _ _ hwhole hstop

theorem numberAt_covers {start : Nat} {b : Char} (previous : Token)
    (hb : w.get? start = some b) (hdigit : b.isDigit = true) :
    (numberAt w previous start).Covers w start := by
  have hradix {c : Char} (hc : w.get? (start + 1) = some c) :
      Lexeme.Covers w start
        { kind := .integerLiteral, stop := w.skipWhile isRadixDigitPart (start + 2) } := by
    have hlt : start + 2 ≤ w.stop := Window.lt_stop_of_get? hc
    have hskip := w.le_skipWhile isRadixDigitPart (start + 2)
    exact .plain (by omega) (Window.skipWhile_le hlt) (by decide) (by decide)
  unfold numberAt
  dsimp only
  split
  · split
    · exact hradix ‹_›
    · exact hradix ‹_›
    · exact hradix ‹_›
    · exact decimalAt_covers _ hb hdigit
  · exact decimalAt_covers _ hb hdigit

theorem operatorEnd_bounds (count : Nat) {offset : Nat} (h : offset ≤ w.stop) :
    offset ≤ operatorEnd w count offset ∧ operatorEnd w count offset ≤ w.stop := by
  fun_induction operatorEnd w count offset with
  | case4 count offset c hc hpart hcomment ih =>
    have hrest := ih (Window.lt_stop_of_get? hc)
    exact ⟨by omega, hrest.2⟩
  | _ => exact ⟨Nat.le_refl _, h⟩

theorem operatorAt_covers {start body : Nat} (hlt : start < body) (hle : body ≤ w.stop) :
    (operatorAt w start body).Covers w start := by
  have hend := operatorEnd_bounds (w.left body) hle
  have hkind : (operatorAt w start body).kind ≠ .endOfFile ∧
      (operatorAt w start body).kind ≠ .openBrace := by
    unfold operatorAt
    dsimp only
    split
    · split <;> decide
    · decide
  exact .plain (Nat.lt_of_lt_of_le hlt hend.1) hend.2 hkind.1 hkind.2

theorem stringAt_covers {start : Nat} {b : Char} (hashes : Nat) (hb : w.get? start = some b) :
    (stringAt w hashes start).Covers w start := by
  have hlt := Window.lt_stop_of_get? hb
  have hquoted := quotedAt_reaches w hashes start
  obtain ⟨added, heq, hin⟩ := hquoted.inside
  have hle := hquoted.le_stop
  rw [Nat.min_eq_left hlt] at hle hin
  rw [List.nil_append] at heq
  refine ⟨hle, hquoted.stop_le, by simp [stringAt], ?_, by simp [stringAt]⟩
  rw [← heq] at hin
  exact hin.mono (Nat.le_succ start)

theorem hashAt_covers {start : Nat} {b : Char} (hb : w.get? start = some b) :
    (hashAt w start).Covers w start := by
  unfold hashAt
  dsimp only
  split
  · exact stringAt_covers _ hb
  · exact .plain (Nat.lt_succ_self _) (Window.lt_stop_of_get? hb) (by decide) (by decide)

theorem otherAt_covers {start : Nat} {b : Char} (hb : w.get? start = some b)
    (hname : isNameStart b = false) : (otherAt w start).Covers w start := by
  have hlt : start + 1 ≤ w.stop := Window.lt_stop_of_get? hb
  unfold otherAt
  split
  · rename_i c hc
    have hsize := c.utf8Size_pos
    split
    · rename_i halpha
      refine nameAt_covers hb (Or.inr ⟨?_, c, hc, by simp [Text.isAlphanumeric, halpha]⟩)
      -- A byte below `U+0080` would be the letter itself, and so start a name.
      intro hlow
      obtain rfl := Window.char?_eq_of_lt hb hc hlow
      simp only [Text.isAlphabetic, hlow, if_true] at halpha
      simp [isNameStart, halpha] at hname
    · exact .plain (by omega) (Window.char?_le hc) (by decide) (by decide)
  · exact .plain (Nat.lt_succ_self _) hlt (by decide) (by decide)

/-- A punctuation character is a token of its own, and only the opening
    brace is an opening brace. -/
theorem punctuation?_kind {c : Char} {kind : Kind} (h : punctuation? c = some kind) :
    kind ≠ .endOfFile ∧ (kind = .openBrace → c = '\x7b') := by
  revert h
  fun_cases punctuation? c with
  | case13 => exact fun h => nomatch h
  | _ =>
    rintro ⟨⟩
    exact ⟨by decide, by decide⟩

theorem lexemeOf_covers {start : Nat} {b : Char} (previous : Token) (hb : w.get? start = some b) :
    (lexemeOf w previous start b).Covers w start := by
  have hlt : start + 1 ≤ w.stop := Window.lt_stop_of_get? hb
  have hone {kind : Kind} (hend : kind ≠ .endOfFile) (hbrace : kind ≠ .openBrace) :
      Lexeme.Covers w start { kind, stop := start + 1 } :=
    .plain (Nat.lt_succ_self _) hlt hend hbrace
  -- In each case the lexeme takes at least the byte it starts with; only punctuation can be a brace.
  fun_cases lexemeOf w previous start b with
  | case1 kind hkind =>
    obtain ⟨hend, hbrace⟩ := punctuation?_kind hkind
    exact ⟨Nat.lt_succ_self _, hlt, hend, Nat.le_succ start, fun h => by rw [hb, hbrace h]⟩
  | case2 => exact stringAt_covers 0 hb
  | case3 => exact hashAt_covers hb
  | case4 => exact escapedNameAt_covers hb
  | case5 =>
    have hskip := w.le_skipWhile isNamePart (start + 1)
    exact .plain hskip (Window.skipWhile_le hlt) (by decide) (by decide)
  | case6 => exact numberAt_covers previous hb ‹_›
  | case7 =>
    rename_i hdots
    have hthree : start + 3 ≤ w.stop := by
      rcases (Bool.or_eq_true _ _).mp hdots with h | h
      · exact Window.startsWith_le h (by simp)
      · exact Window.startsWith_le h (by simp)
    exact .plain (by omega) hthree (by decide) (by decide)
  | case8 => exact hone (by decide) (by decide)
  | case9 =>
    rename_i harrow
    simp only [Bool.and_eq_true, beq_iff_eq] at harrow
    have htwo : start + 2 ≤ w.stop := Window.lt_stop_of_get? harrow.2
    exact .plain (by omega) htwo (by decide) (by decide)
  | case10 =>
    rename_i hdouble
    have htwo : start + 2 ≤ w.stop := Window.lt_stop_of_get? (eq_of_beq hdouble)
    exact operatorAt_covers (by omega) htwo
  | case11 => exact hone (by decide) (by decide)
  | case12 => exact operatorAt_covers (Nat.lt_succ_self _) hlt
  | case13 =>
    rename_i hname
    refine nameAt_covers hb (Or.inl ?_)
    simp only [isNameStart, Bool.or_eq_true] at hname
    rcases hname with hname | hname
    · simp [isNamePart, Char.isAlphanum, hname]
    · simp [isNamePart, hname]
  | case14 =>
    rename_i hname
    exact otherAt_covers hb (by simpa using hname)

/-- The lexeme where a byte is, and the end of the window where none is. -/
theorem lexemeAt_cases (hw : w.stop ≤ w.bytes.size) (previous : Token) {start : Nat}
    (h : start ≤ w.stop) :
    (start < w.stop ∧ (lexemeAt w previous start).Covers w start) ∨
      (start = w.stop ∧ lexemeAt w previous start = { kind := .endOfFile, stop := start }) := by
  unfold lexemeAt
  split
  · rename_i b hb
    exact Or.inl ⟨Window.lt_stop_of_get? hb, lexemeOf_covers previous hb⟩
  · rename_i hnone
    have hge := (Window.get?_eq_none_iff hw).mp hnone
    exact Or.inr ⟨by omega, rfl⟩

end SelfCapture.Token

/-! ## Section 4: Scanners -/

namespace SelfCapture.Scanner

/-- What holds of a scanner whenever a token has been read. -/
structure Settled (s : Scanner) : Prop where
  stop_le : s.stop ≤ s.bytes.size
  pos_eq : s.pos = s.token.stop
  token_le : s.token.pos ≤ s.token.stop
  token_stop_le : s.token.stop ≤ s.stop
  /-- Exactly the end of the window is at the end of the window. -/
  atEnd_iff : s.token.kind = .endOfFile ↔ s.token.pos = s.stop
  covers : s.token.kind ≠ .endOfFile → s.token.pos < s.token.stop
  inside : Token.Inside s.token.pos s.segments s.token.stop
  brace : s.token.kind = .openBrace → s.window.get? s.token.pos = some '\x7b'

theorem le_scan_pos {s : Scanner} (hpos : s.pos ≤ s.stop) : s.pos ≤ s.scan.token.pos :=
  (Token.gapAt_bounds (w := s.window) hpos).1

/-- A token without a blank before it starts where the one before it ends. -/
theorem scan_pos_eq {s : Scanner} (h : s.scan.token.afterBlank = false) : s.scan.token.pos = s.pos :=
  Token.gapAt_stop_eq h

/-- Reading a token settles the scanner. -/
theorem scan_settled {s : Scanner} (hpos : s.pos ≤ s.stop) (hstop : s.stop ≤ s.bytes.size) :
    s.scan.Settled := by
  have hgap : (Token.gapAt s.window s.pos).stop ≤ s.window.stop := (Token.gapAt_bounds hpos).2
  rcases Token.lexemeAt_cases hstop s.token hgap with ⟨hlt, hcovers⟩ | ⟨heq, hlexeme⟩
  · refine ⟨hstop, rfl, Nat.le_of_lt hcovers.lt_stop, hcovers.stop_le, ?_,
      fun _ => hcovers.lt_stop, hcovers.inside, hcovers.brace⟩
    exact ⟨fun h => absurd h hcovers.kind_ne, fun h => absurd h (Nat.ne_of_lt hlt)⟩
  · -- At the end of the window the token is empty.
    have hkind : s.scan.token.kind = .endOfFile := by simp [scan, hlexeme]
    have hend : s.scan.token.stop = (Token.gapAt s.window s.pos).stop := by simp [scan, hlexeme]
    have hsegments : s.scan.segments = [] := by simp [scan, hlexeme]
    refine ⟨hstop, rfl, ?_, ?_, ?_, ?_, ?_, ?_⟩
    · rw [hend]
      exact Nat.le_refl _
    · rw [hend]
      exact hgap
    · exact ⟨fun _ => heq, fun _ => hkind⟩
    · exact fun h => absurd hkind h
    · rw [hsegments, hend]
      exact Nat.le_refl _
    · intro h
      rw [hkind] at h
      cases h

theorem Settled.pos_le {s : Scanner} (h : s.Settled) : s.pos ≤ s.stop := by
  rw [h.pos_eq]
  exact h.token_stop_le

theorem Settled.scan {s : Scanner} (h : s.Settled) : s.scan.Settled :=
  scan_settled h.pos_le h.stop_le

theorem Settled.token_pos_le {s : Scanner} (h : s.Settled) : s.token.pos ≤ s.stop :=
  Nat.le_trans h.token_le h.token_stop_le

/-- The next token starts where the current one ends, or later. -/
theorem Settled.stop_le_scan {s : Scanner} (h : s.Settled) : s.token.stop ≤ s.scan.token.pos := by
  rw [← h.pos_eq]
  exact le_scan_pos h.pos_le

end SelfCapture.Scanner
