import SelfCapture.Proofs.Text.Displacement
import SelfCapture.Proofs.Token.Extent

/-! # Tokens of displaced texts

  A token that is scanned in a window is scanned again in every window that
  shows the same, at offsets moved alike: blanks, string literals with their
  interpolated expressions, every family of lexemes, and so a step of the
  scanner.  A text that is put behind another one is such a window.

  - `Scanner.scan_shown` : one step of scanning in a window that shows the same.
  - `Scanner.scan_behind` : one step of scanning behind another text.
  - `Scanner.scan_ofText_behind` : the first step in a text that begins with
    a line feed, behind further line feeds.
-/

namespace SelfCapture

variable (front : ByteArray) (w : Window)

/-! ## Section 1: Moved offsets -/

/-- The token at an offset moved by `n`. -/
def Token.moved (n : Nat) (t : Token) : Token := { t with pos := n + t.pos, stop := n + t.stop }

/-- The range moved by `n`. -/
def Segment.moved (n : Nat) (s : Segment) : Segment := ⟨n + s.start, n + s.stop⟩

/-- The diagnostic at an offset moved by `n`. -/
def Diagnostic.moved (n : Nat) (d : Diagnostic) : Diagnostic := { d with start := n + d.start }

namespace Token

/-- The gap that ends at an offset moved by `n`. -/
def Gap.moved (n : Nat) (gap : Gap) : Gap := { gap with stop := n + gap.stop }

/-- The string literal at an offset moved by `n`. -/
def Quoted.moved (n : Nat) (quoted : Quoted) : Quoted :=
  { stop := n + quoted.stop
    closed := quoted.closed
    segments := quoted.segments.map (Segment.moved n) }

/-- The lexeme at an offset moved by `n`. -/
def Lexeme.moved (n : Nat) (lexeme : Lexeme) : Lexeme :=
  { kind := lexeme.kind
    stop := n + lexeme.stop
    segments := lexeme.segments.map (Segment.moved n)
    issue := lexeme.issue.map (Diagnostic.moved n) }

/-! ## Section 2: Blanks -/

section

variable {n : Nat} {w w' : Window}

theorem blockComment_shown (h : w.Shows n w') (count depth offset : Nat) (lineFeed : Bool) :
    blockComment w' count depth (n + offset) lineFeed =
      (n + (blockComment w count depth offset lineFeed).1,
        (blockComment w count depth offset lineFeed).2) := by
  induction count generalizing depth offset lineFeed with
  | zero => rfl
  | succ count ih =>
    simp only [blockComment, h.startsWith_eq, h.get?_eq, Nat.add_assoc, ih]
    split
    · rfl
    split
    · rfl
    split
    · rfl
    cases w.get? offset with
    | some c => rfl
    | none => rfl

theorem Gap.extend_shown (h : w.Shows n w') (count : Nat) (gap : Gap) :
    Gap.extend w' count (gap.moved n) = (Gap.extend w count gap).moved n := by
  induction count generalizing gap with
  | zero => rfl
  | succ count ih =>
    have hread := h.get?_eq gap.stop
    have hnext := h.get?_eq (gap.stop + 1)
    have hstep (stop : Nat) (blank lineBreak : Bool) :
        Gap.extend w' count { stop := n + stop, blank, lineBreak } =
          (Gap.extend w count { stop, blank, lineBreak }).moved n :=
      ih { stop, blank, lineBreak }
    have hskip := h.skipWhile_eq (· != '\n') gap.stop
    simp only [Gap.extend, Gap.moved, Nat.add_assoc, hread, hnext, hstep, hskip,
      blockComment_shown h]
    split <;> first | rfl | (split <;> rfl)

theorem gapAt_shown (h : w.Shows n w') (offset : Nat) :
    gapAt w' (n + offset) = (gapAt w offset).moved n := by
  rw [gapAt, gapAt, h.left_eq]
  exact Gap.extend_shown h (w.left offset) { stop := offset }

/-! ## Section 3: String literals -/

theorem closesAt_shown (h : w.Shows n w') (quote : Quote) (offset : Nat) :
    closesAt w' quote (n + offset) = closesAt w quote offset :=
  h.startsWith_eq ..

theorem quoteAt_shown (h : w.Shows n w') (hashes offset : Nat) :
    quoteAt w' hashes (n + offset) = quoteAt w hashes offset := by
  simp only [quoteAt, Nat.add_assoc, h.startsWith_eq]

/-- Bodies of string literals and interpolated expressions, which contain each other. -/
theorem quoted_shown (h : w.Shows n w') (count : Nat) :
    (∀ quote segments offset,
      quotedBody w' quote (segments.map (Segment.moved n)) count (n + offset) =
        (quotedBody w quote segments count offset).moved n) ∧
    ∀ depth offset,
      interpolationEnd w' count depth (n + offset) =
        (interpolationEnd w count depth offset).map (n + ·) := by
  induction count with
  | zero =>
    refine ⟨fun _ _ _ => ?_, fun _ _ => rfl⟩
    simp only [quotedBody, h.stop_eq]
    rfl
  | succ count ih =>
    obtain ⟨hbody, hend⟩ := ih
    constructor
    · intro quote segments offset
      unfold quotedBody
      simp only [h.get?_eq, h.skipUpTo_eq, Nat.add_assoc, hbody, hend, h.stop_eq,
        Nat.add_min_add_left, closesAt_shown h, Nat.add_lt_add_iff_left]
      split
      · rfl
      · split <;> rfl
      · split <;> rfl
      · split
        · rfl
        split
        · -- The range of the expression is one more segment.
          generalize w.skipUpTo (· == '#') quote.hashes (offset + 1) + 1 = inside
          cases interpolationEnd w count 1 inside with
          | none => rfl
          | some close =>
            have hrest := hbody quote (segments ++ [⟨inside, close⟩]) (close + 1)
            rw [List.map_append] at hrest
            exact hrest
        · rfl
      · split <;> rfl
      · rfl
    · intro depth offset
      unfold interpolationEnd
      simp only [h.get?_eq, Nat.add_assoc, hend, quoteAt_shown h]
      split
      · rfl
      · rfl
      · split <;> rfl
      · have hinner := hbody (quoteAt w 0 offset) [] (offset + (quoteAt w 0 offset).width)
        rw [List.map_nil] at hinner
        simp only [hinner, Quoted.moved, hend]
        split <;> rfl
      · rfl

theorem quotedAt_shown (h : w.Shows n w') (hashes offset : Nat) :
    quotedAt w' hashes (n + offset) = (quotedAt w hashes offset).moved n := by
  simp only [quotedAt, quoteAt_shown h, h.left_eq, Nat.add_assoc]
  exact (quoted_shown h (w.left offset)).1 _ [] _

/-! ## Section 4: Lexemes -/

theorem nameEnd_shown (h : w.Shows n w') (count offset : Nat) :
    nameEnd w' count (n + offset) = n + nameEnd w count offset := by
  induction count generalizing offset with
  | zero => rfl
  | succ count ih =>
    simp only [nameEnd, h.get?_eq, h.char?_eq, Nat.add_assoc, ih]
    cases w.get? offset with
    | none => rfl
    | some b =>
      dsimp only
      split
      · rfl
      split
      · rfl
      cases w.char? offset with
      | none => rfl
      | some c => dsimp only; split <;> rfl

/-- The word that a name is compared with lies inside the window. -/
theorem nameAt_shown (h : w.Shows n w') {start : Nat} (hle : start ≤ w.stop) :
    nameAt w' (n + start) = (nameAt w start).moved n := by
  have hend : nameEnd w (w.left start) start ≤ w.stop := nameEnd_le hle
  have hslice := h.slice_eq start hend
  simp only [nameAt, h.left_eq, nameEnd_shown h, hslice, Lexeme.moved, List.map_nil,
    Option.map_none]

theorem escapedNameAt_shown (h : w.Shows n w') (start : Nat) :
    escapedNameAt w' (n + start) = (escapedNameAt w start).moved n := by
  simp only [escapedNameAt, Nat.add_assoc, h.skipWhile_eq, h.get?_eq, Nat.add_lt_add_iff_left]
  split <;> rfl

theorem digitAt_shown (h : w.Shows n w') (offset : Nat) :
    digitAt w' (n + offset) = digitAt w offset := by
  simp only [digitAt, h.get?_eq]

theorem exponentEnd?_shown (h : w.Shows n w') (offset : Nat) :
    exponentEnd? w' (n + offset) = (exponentEnd? w offset).map (n + ·) := by
  simp only [exponentEnd?, h.get?_eq, Nat.add_assoc]
  split
  · split <;> simp only [digitAt_shown h, h.skipWhile_eq] <;> split <;> rfl
  · split <;> simp only [digitAt_shown h, h.skipWhile_eq] <;> split <;> rfl
  · rfl

theorem decimalAt_shown (h : w.Shows n w') (afterMemberDot : Bool) (start : Nat) :
    decimalAt w' afterMemberDot (n + start) = (decimalAt w afterMemberDot start).moved n := by
  -- The exponent starts where the fraction ends, if there is one.
  have hexponent (whole fraction : Nat) :
      ({ kind := if (exponentEnd? w' (n + fraction)).getD (n + fraction) = n + whole then
            Kind.integerLiteral
          else .floatLiteral
         stop := (exponentEnd? w' (n + fraction)).getD (n + fraction) } : Lexeme) =
        Lexeme.moved n
          { kind := if (exponentEnd? w fraction).getD fraction = whole then .integerLiteral
              else .floatLiteral
            stop := (exponentEnd? w fraction).getD fraction } := by
    rw [exponentEnd?_shown h]
    cases exponentEnd? w fraction with
    | none => simp [Lexeme.moved]
    | some stop => simp [Lexeme.moved]
  simp only [decimalAt, Nat.add_assoc, h.skipWhile_eq, h.get?_eq, digitAt_shown h]
  split
  · rfl
  split
  · exact hexponent _ _
  · exact hexponent _ _

/-- The two tokens are the same member dot as far as the offset is concerned. -/
theorem numberAt_shown (h : w.Shows n w') {previous previous' : Token} {start : Nat}
    (hdot : (previous'.kind == .dot && previous'.stop == n + start) =
      (previous.kind == .dot && previous.stop == start)) :
    numberAt w' previous' (n + start) = (numberAt w previous start).moved n := by
  simp only [numberAt, h.get?_eq, Nat.add_assoc, hdot, decimalAt_shown h, h.skipWhile_eq]
  split
  · split <;> rfl
  · rfl

/-- Only the look for a comment goes past the end of the window, where it
    finds none. -/
theorem operatorEnd_shown (h : w.Shows n w') (count offset : Nat) :
    operatorEnd w' count (n + offset) = n + operatorEnd w count offset := by
  induction count generalizing offset with
  | zero => rfl
  | succ count ih =>
    simp only [operatorEnd, h.get?_eq, Nat.add_assoc, ih]
    cases hc : w.get? offset with
    | none => rfl
    | some c =>
      have hpeek := h.peek?_any (Window.lt_stop_of_get? hc) (fun d => d == '/' || d == '*') rfl
      dsimp only
      rw [hpeek]
      split
      · split <;> rfl
      · rfl

theorem operatorAt_shown (h : w.Shows n w') (start body : Nat) :
    operatorAt w' (n + start) (n + body) = (operatorAt w start body).moved n := by
  simp only [operatorAt, h.left_eq, operatorEnd_shown h, h.get?_eq, Nat.add_assoc,
    Nat.add_left_cancel_iff]
  rfl

theorem stringAt_shown (h : w.Shows n w') (hashes start : Nat) :
    stringAt w' hashes (n + start) = (stringAt w hashes start).moved n := by
  simp only [stringAt, quotedAt_shown h, Quoted.moved, Nat.add_sub_add_left, Lexeme.moved]
  split <;> rfl

/-- The quote that is looked for past the end of the window is not there. -/
theorem hashAt_shown (h : w.Shows n w') {start : Nat} (hle : start ≤ w.stop) :
    hashAt w' (n + start) = (hashAt w start).moved n := by
  have hquote (found : Option Char) : (found == some '"') = found.any (· == '"') := by
    cases found <;> rfl
  have hend : w.skipWhile (· == '#') start ≤ w.stop := Window.skipWhile_le hle
  have hpeek := h.peek?_any hend (· == '"') rfl
  simp only [hashAt, h.skipWhile_eq, hquote, hpeek, Nat.add_sub_add_left, stringAt_shown h]
  split <;> rfl

theorem otherAt_shown (h : w.Shows n w') {start : Nat} (hle : start ≤ w.stop) :
    otherAt w' (n + start) = (otherAt w start).moved n := by
  simp only [otherAt, h.char?_eq, nameAt_shown h hle, Nat.add_assoc]
  cases w.char? start with
  | none => rfl
  | some c => dsimp only; split <;> rfl

/-- Of the token before only a member dot matters. -/
theorem lexemeAt_shown (h : w.Shows n w') {previous previous' : Token} {start : Nat}
    (hdot : (previous'.kind == .dot && previous'.stop == n + start) =
      (previous.kind == .dot && previous.stop == start)) :
    lexemeAt w' previous' (n + start) = (lexemeAt w previous start).moved n := by
  simp only [lexemeAt, h.get?_eq]
  cases hc : w.get? start with
  | none => rfl
  | some c =>
    have hle := Nat.le_of_lt (Window.lt_stop_of_get? hc)
    have hoperator := operatorAt_shown h start
    simp only [lexemeOf, stringAt_shown h, hashAt_shown h hle, escapedNameAt_shown h,
      numberAt_shown h hdot, Nat.add_assoc, h.skipWhile_eq, h.startsWith_eq, h.get?_eq,
      hoperator, nameAt_shown h hle, otherAt_shown h hle]
    cases punctuation? c with
    | some kind => rfl
    | none =>
      simp only [apply_ite (Lexeme.moved n)]
      rfl

end
end Token

/-! ## Section 5: Scanning -/

namespace Scanner

/-- The scan of a text whose part shows the same at offsets moved by `n`.
    What was found wrong there is added to what had been found before. -/
def shown (bytes : ByteArray) (n : Nat) (found : Array Diagnostic) (s : Scanner) : Scanner where
  bytes := bytes
  pos := n + s.pos
  stop := n + s.stop
  token := s.token.moved n
  segments := s.segments.map (Segment.moved n)
  diagnostics := found ++ s.diagnostics.map (Diagnostic.moved n)

section

variable {bytes : ByteArray} {n : Nat} {found : Array Diagnostic} {s : Scanner}

/-- What is scanned does not depend on the offset of the token before, unless it is a member dot. -/
theorem scan_shown_after (h : s.window.Shows n ⟨bytes, n + s.stop⟩) (previous : Token)
    (hdot : ∀ start, (previous.kind == .dot && previous.stop == n + start) =
      (s.token.kind == .dot && s.token.stop == start)) :
    { s.shown bytes n found with token := previous }.scan = s.scan.shown bytes n found := by
  have hgap := Token.gapAt_shown h s.pos
  have hlexeme := Token.lexemeAt_shown h (hdot (Token.gapAt s.window s.pos).stop)
  have hwindow : { s.shown bytes n found with token := previous }.window =
      ⟨bytes, n + s.stop⟩ := rfl
  have hpos : (s.shown bytes n found).pos = n + s.pos := rfl
  rw [scan, hwindow]
  dsimp only
  rw [hpos, hgap]
  dsimp only [Token.Gap.moved]
  rw [hlexeme]
  -- A diagnostic of the token is recorded behind those recorded before.
  simp only [scan, shown, Token.Lexeme.moved, Token.moved, mk.injEq, Option.isSome_map, true_and]
  cases (Token.lexemeAt s.window s.token (Token.gapAt s.window s.pos).stop).issue with
  | none => rfl
  | some issue =>
    simp only [Option.map_some, Array.map_push]
    exact (Array.append_push ..).symm

theorem scan_shown (h : s.window.Shows n ⟨bytes, n + s.stop⟩) :
    (s.shown bytes n found).scan = s.scan.shown bytes n found := by
  refine scan_shown_after h (s.token.moved n) fun start => ?_
  simp only [Token.moved, Text.add_beq_add]

end

/-- The same scan of the text that stands behind `front`. -/
def behind (front : ByteArray) (s : Scanner) : Scanner where
  bytes := front ++ s.bytes
  pos := front.size + s.pos
  stop := front.size + s.stop
  token := s.token.moved front.size
  segments := s.segments.map (Segment.moved front.size)
  diagnostics := s.diagnostics.map (Diagnostic.moved front.size)

theorem behind_eq_shown (s : Scanner) :
    s.behind front = s.shown (front ++ s.bytes) front.size #[] := by
  rw [behind, shown, Array.empty_append]

variable (s : Scanner)

theorem scan_behind_after (previous : Token)
    (hdot : ∀ start, (previous.kind == .dot && previous.stop == front.size + start) =
      (s.token.kind == .dot && s.token.stop == start)) :
    { s.behind front with token := previous }.scan = s.scan.behind front := by
  rw [behind_eq_shown, behind_eq_shown]
  exact scan_shown_after (s.window.shows_behind front) previous hdot

/-- One step of scanning. -/
theorem scan_behind : (s.behind front).scan = s.scan.behind front := by
  rw [behind_eq_shown, behind_eq_shown]
  exact scan_shown (s.window.shows_behind front)

/-- The first step of scanning in a part of the text. -/
theorem scan_restrict_behind (start stop : Nat) :
    ((s.behind front).restrict (front.size + start) (front.size + stop)).scan =
      (s.restrict start stop).scan.behind front := by
  rw [← scan_behind_after front (s.restrict start stop) Token.initial fun _ => rfl]
  simp only [restrict, behind, ByteArray.size_append, Nat.add_min_add_left, List.map_nil]

/-! ## Section 6: The first token -/

/-- A text that begins with a line feed has no mark and no interpreter line to skip. -/
theorem startOffset_of_lineFeed (h : w.get? 0 = some '\n') : startOffset w = 0 := by
  have hmark : markLength w = 0 := by simp [markLength, Window.startsWith, h]
  simp [startOffset, hmark, Window.startsWith, h]

/-- As long as line feeds follow, a gap goes on. -/
theorem extend_lineFeeds (n start : Nat) (blank lineBreak : Bool)
    (h : ∀ i ≤ n, w.get? (start + i) = some '\n') (count : Nat) :
    Token.Gap.extend w (n + 1 + count) { stop := start, blank, lineBreak } =
      Token.Gap.extend w count { stop := start + n + 1, blank := true, lineBreak := true } := by
  induction n generalizing start blank lineBreak with
  | zero =>
    have hfirst : w.get? start = some '\n' := h 0 (Nat.le_refl _)
    rw [Nat.zero_add, Nat.add_comm 1 count]
    simp only [Token.Gap.extend, hfirst, Nat.add_zero]
  | succ n ih =>
    have hfirst : w.get? start = some '\n' := h 0 (Nat.zero_le _)
    have hrest := ih (start + 1) true true fun i hi => by
      rw [Nat.add_assoc, Nat.add_comm 1 i]
      exact h (i + 1) (Nat.succ_le_succ hi)
    rw [show n + 1 + 1 + count = n + 1 + count + 1 by omega]
    simp only [Token.Gap.extend, hfirst, hrest]
    congr 2
    omega

theorem get?_lineFeeds {k offset : Nat} (h : w.get? 0 = some '\n') (hle : offset ≤ k) :
    (w.behind (lineFeeds k).toByteArray).get? offset = some '\n' := by
  rcases Nat.lt_or_eq_of_le hle with hlt | rfl
  · have hbound : offset < (w.behind (lineFeeds k).toByteArray).stop := by
      rw [Window.behind_stop, size_lineFeeds]
      omega
    rw [Window.get?, if_pos hbound]
    show ((lineFeeds k).toByteArray ++ w.bytes)[offset]?.map _ = _
    rw [getElem?_lineFeeds hlt]
    rfl
  · have hbehind := Window.get?_behind (lineFeeds offset).toByteArray w 0
    rw [size_lineFeeds, Nat.add_zero] at hbehind
    rw [hbehind, h]

/-- The blanks before the first token begin with the line feeds in front. -/
theorem gapAt_lineFeeds (k : Nat) (h : w.get? 0 = some '\n') :
    Token.gapAt (w.behind (lineFeeds k).toByteArray) 0 = (Token.gapAt w 0).moved k := by
  obtain ⟨rest, hrest⟩ : ∃ rest, w.stop = rest + 1 :=
    Nat.exists_eq_add_of_lt (Window.lt_stop_of_get? h) |>.imp fun _ h => by omega
  have hleft : (w.behind (lineFeeds k).toByteArray).left 0 = k + 1 + rest := by
    rw [Window.left, Window.behind_stop, size_lineFeeds]
    omega
  have hfront := extend_lineFeeds (w.behind (lineFeeds k).toByteArray) k 0 false false
    (fun i hi => by rw [Nat.zero_add]; exact get?_lineFeeds w h hi) rest
  have hown := extend_lineFeeds w 0 0 false false
    (fun i hi => by rwa [Nat.le_zero.mp hi]) rest
  have hmoved := Token.Gap.extend_shown (w.shows_behind (lineFeeds k).toByteArray) rest
    { stop := 1, blank := true, lineBreak := true }
  rw [size_lineFeeds] at hmoved
  rw [Token.gapAt, Token.gapAt, hleft, hfront]
  rw [show w.left 0 = 0 + 1 + rest by unfold Window.left; omega, hown, ← hmoved, Nat.zero_add]
  rfl

theorem get?_ofText (rest : String) : (ofText ("\n" ++ rest)).window.get? 0 = some '\n' := by
  have hlt : 0 < ("\n" ++ rest).toByteArray.size := by
    rw [String.toByteArray_append, ByteArray.size_append]
    exact Nat.add_pos_left (by decide) _
  have hbyte : ("\n" ++ rest).toByteArray[0]? = some 0x0A := by
    rw [getElem?_pos _ 0 hlt]
    simp only [String.toByteArray_append]
    rw [ByteArray.getElem_append_left (by decide)]
    rfl
  show Window.get? ⟨("\n" ++ rest).toByteArray, ("\n" ++ rest).toByteArray.size⟩ 0 = _
  rw [Window.get?, if_pos hlt, hbyte]
  rfl

/-- The first token of a text that begins with a line feed, behind `k` further line feeds. -/
theorem scan_ofText_behind (k : Nat) (rest : String) :
    (ofText (lineFeeds k ++ ("\n" ++ rest))).scan =
      (ofText ("\n" ++ rest)).scan.behind (lineFeeds k).toByteArray := by
  have hfirst := get?_ofText rest
  have hpos : (ofText ("\n" ++ rest)).pos = 0 := startOffset_of_lineFeed _ hfirst
  have hwindow : (ofText (lineFeeds k ++ ("\n" ++ rest))).window =
      (ofText ("\n" ++ rest)).window.behind (lineFeeds k).toByteArray := by
    simp only [ofText, window, Window.behind, String.toByteArray_append, ByteArray.size_append]
  have hpos' : (ofText (lineFeeds k ++ ("\n" ++ rest))).pos = 0 := by
    refine startOffset_of_lineFeed (ofText (lineFeeds k ++ ("\n" ++ rest))).window ?_
    rw [hwindow]
    exact get?_lineFeeds _ hfirst (Nat.zero_le k)
  -- Scanning from the start of the line feeds or after them makes no difference.
  have hgap : Token.gapAt (ofText (lineFeeds k ++ ("\n" ++ rest))).window 0 =
      Token.gapAt (ofText (lineFeeds k ++ ("\n" ++ rest))).window k := by
    have hmoved := Token.gapAt_shown
      ((ofText ("\n" ++ rest)).window.shows_behind (lineFeeds k).toByteArray) 0
    rw [size_lineFeeds, Nat.add_zero] at hmoved
    rw [hwindow, gapAt_lineFeeds _ k hfirst, hmoved]
  rw [← scan_behind_after _ (ofText ("\n" ++ rest)) Token.initial fun _ => rfl]
  have hstart : { (ofText ("\n" ++ rest)).behind (lineFeeds k).toByteArray with
      token := Token.initial } = { ofText (lineFeeds k ++ ("\n" ++ rest)) with pos := k } := by
    simp only [behind, hpos, Nat.add_zero, size_lineFeeds]
    simp only [ofText, String.toByteArray_append, ByteArray.size_append, size_lineFeeds,
      List.map_nil, Array.map_empty]
  rw [hstart, scan, hpos', hgap]
  rfl

end Scanner
end SelfCapture
