import SelfCapture.Proofs.Text.Excerpt
import SelfCapture.Proofs.Token.Displacement
import SelfCapture.Proofs.Token.LexemeKinds
import SelfCapture.Proofs.Token.Tiling

/-! # Interpolated expressions

  The segments that are recorded for a string literal lie inside of it, one
  after the other, each between the parentheses of an escape that has the
  number signs of the literal.  Scanning such a window gives what scanning
  its text alone gives, at offsets moved by the start of the window.
-/

namespace SelfCapture

/-- The window of a whole text. -/
def Window.whole (text : String) : Window := ⟨text.toByteArray, text.toByteArray.size⟩

namespace Token

variable {w : Window}

/-! ## Section 1: Escapes -/

/-- The range lies between the parentheses of an escape with some number signs. -/
structure Escaped (w : Window) (hashes : Nat) (segment : Segment) : Prop where
  opening : ∃ escape, segment.start = escape + (hashes + 2) ∧
    w.startsWith escape ('\\' :: (List.replicate hashes '#' ++ ['('])) = true
  closing : w.get? segment.stop = some ')'

/-- Where an expression ends there is a closing parenthesis. -/
theorem get?_interpolationEnd {count depth offset close : Nat}
    (h : interpolationEnd w count depth offset = some close) : w.get? close = some ')' := by
  induction count generalizing depth offset with
  | zero =>
    rw [interpolationEnd] at h
    cases h
  | succ count ih =>
    rw [interpolationEnd] at h
    split at h
    · cases h
    · exact ih h
    · rename_i hc
      split at h
      · cases h
        exact hc
      · exact ih h
    · simp only at h
      split at h
      · exact ih h
      · cases h
    · exact ih h

/-- An escape that has all the number signs and a parenthesis after them. -/
theorem startsWith_escape {hashes offset : Nat} (hslash : w.get? offset = some '\\')
    (hsigns : ¬ w.skipUpTo (· == '#') hashes (offset + 1) < offset + 1 + hashes)
    (hopen : w.get? (w.skipUpTo (· == '#') hashes (offset + 1)) = some '(') :
    w.skipUpTo (· == '#') hashes (offset + 1) + 1 = offset + (hashes + 2) ∧
      w.startsWith offset ('\\' :: (List.replicate hashes '#' ++ ['('])) = true := by
  have hle := w.skipUpTo_le_add (· == '#') hashes (offset + 1)
  have hend : w.skipUpTo (· == '#') hashes (offset + 1) = offset + 1 + hashes := by omega
  have hsign : ∀ k < hashes, w.get? (offset + 1 + k) = some '#' := by
    intro k hk
    have hpass := Window.any_of_lt_skipUpTo (Nat.le_add_right (offset + 1) k)
      (show offset + 1 + k < w.skipUpTo (· == '#') hashes (offset + 1) by omega)
    obtain ⟨c, hc, hsame⟩ := (Option.any_eq_true _ _).mp hpass
    rw [hc, eq_of_beq hsame]
  rw [hend] at hopen ⊢
  refine ⟨by omega, ?_⟩
  rw [Window.startsWith, hslash, Window.startsWith_append, Window.startsWith_replicate hsign,
    List.length_replicate, Window.startsWith, hopen]
  rfl

/-- Every segment that is added while the body is read is that of an escape. -/
theorem quotedBody_escaped (quote : Quote) {segments : List Segment} {count offset : Nat}
    (h : ∀ segment ∈ segments, Escaped w quote.hashes segment) :
    ∀ segment ∈ (quotedBody w quote segments count offset).segments,
      Escaped w quote.hashes segment := by
  induction count generalizing segments offset with
  | zero =>
    rw [quotedBody]
    exact h
  | succ count ih =>
    rw [quotedBody]
    split
    · exact h
    · split
      · exact ih h
      · exact h
    · split
      · exact ih h
      · exact h
    · rename_i hslash
      dsimp only
      split
      · exact ih h
      · rename_i hsigns
        split
        · rename_i hopen
          split
          · -- The only branch that adds a segment, with the escape in front and `)` behind it.
            rename_i close hclose
            obtain ⟨hstart, hspelled⟩ := startsWith_escape hslash hsigns (eq_of_beq hopen)
            apply ih
            intro segment hsegment
            rcases List.mem_append.mp hsegment with hbefore | hlast
            · exact h segment hbefore
            · obtain rfl := List.mem_singleton.mp hlast
              exact ⟨⟨offset, hstart, hspelled⟩, get?_interpolationEnd hclose⟩
          · exact h
        · exact ih h
    · split
      · exact h
      · exact ih h
    · exact ih h

/-- The segments of a string literal are those of its escapes. -/
theorem stringAt_escaped (hashes start : Nat) :
    ∀ segment ∈ (stringAt w hashes start).segments, Escaped w hashes segment :=
  quotedBody_escaped (quoteAt w hashes start) (List.forall_mem_nil _)

/-- The segments of a lexeme lie inside of it. -/
theorem lexemeAt_inside (previous : Token) (start : Nat) :
    Inside start (lexemeAt w previous start).segments (lexemeAt w previous start).stop := by
  unfold lexemeAt
  split
  · rename_i c hc
    exact (lexemeOf_covers previous hc).inside
  · exact Nat.le_refl start

/-! ## Section 2: The whole text -/

variable {text : String}

theorem whole_fits (text : String) : (Window.whole text).Fits text := ⟨rfl, Text.aligned_size⟩

/-- A byte of a text can be read in the window of the whole text. -/
theorem get?_whole {offset : Nat} {c : Char} (hbytes : w.bytes = text.toByteArray)
    (h : w.peek? offset = some c) : (Window.whole text).get? offset = some c := by
  unfold Window.peek? at h
  rw [hbytes] at h
  obtain ⟨byte, hbyte, -⟩ := Option.map_eq_some_iff.mp h
  obtain ⟨hlt, -⟩ := getElem?_eq_some_iff.mp hbyte
  rw [Window.get?]
  exact (if_pos hlt).trans h

theorem startsWith_whole {offset : Nat} {expected : List Char}
    (hbytes : w.bytes = text.toByteArray) (h : w.startsWith offset expected = true) :
    (Window.whole text).startsWith offset expected = true := by
  induction expected generalizing offset with
  | nil => rfl
  | cons c rest ih =>
    simp only [Window.startsWith, Bool.and_eq_true, beq_iff_eq] at h ⊢
    exact ⟨get?_whole hbytes (Window.peek?_of_get? h.1), ih h.2⟩

theorem Escaped.whole {hashes : Nat} {segment : Segment} (hbytes : w.bytes = text.toByteArray)
    (h : Escaped w hashes segment) : Escaped (Window.whole text) hashes segment := by
  obtain ⟨escape, hstart, hspelled⟩ := h.opening
  exact ⟨⟨escape, hstart, startsWith_whole hbytes hspelled⟩,
    get?_whole hbytes (Window.peek?_of_get? h.closing)⟩

/-- The number signs and the quote that a string literal opens with. -/
theorem Opens.whole {hashes start : Nat} (hbytes : w.bytes = text.toByteArray)
    (h : Opens w hashes start) :
    (Window.whole text).startsWith start (List.replicate hashes '#' ++ ['"']) = true := by
  have hsigns := startsWith_whole hbytes (Window.startsWith_replicate h.sign)
  have hquote := get?_whole hbytes h.quote
  rw [Window.startsWith_append, hsigns, List.length_replicate, Window.startsWith, hquote]
  rfl

/-- An interpolated expression begins and ends between two characters. -/
theorem Escaped.aligned {hashes : Nat} {segment : Segment}
    (h : Escaped (Window.whole text) hashes segment) :
    Text.Aligned text segment.start ∧ Text.Aligned text segment.stop := by
  have hfits := whole_fits text
  constructor
  · obtain ⟨escape, hstart, hspelled⟩ := h.opening
    have hend := hfits.of_startsWith hspelled ?_ (by simp)
    · simpa [hstart, Nat.add_assoc] using hend
    · intro c hc
      simp only [List.mem_cons, List.mem_append, List.mem_replicate, List.not_mem_nil,
        or_false] at hc
      rcases hc with rfl | ⟨-, rfl⟩ | rfl
      all_goals decide
  · exact (hfits.of_get? h.closing (by decide)).1

end Token

namespace Scanner

variable {text : String} {bytes : ByteArray} {n : Nat} {found : Array Diagnostic} {s : Scanner}

/-! ## Section 3: Scanning a window -/

/-- A run over a window that shows another one is the other run, moved. -/
theorem run_shown (h : s.window.Shows n ⟨bytes, n + s.stop⟩) (previous : Token)
    (hdot : ∀ start, (previous.kind == .dot && previous.stop == n + start) =
      (s.token.kind == .dot && s.token.stop == start)) (count : Nat) :
    run count { s.shown bytes n found with token := previous } =
      (run count s).map (shown bytes n found) := by
  induction count generalizing s previous with
  | zero => rfl
  | succ count ih =>
    have hscan : { s.shown bytes n found with token := previous }.scan =
        s.scan.shown bytes n found := scan_shown_after h previous hdot
    have hkind : (s.scan.shown bytes n found).token.kind = s.scan.token.kind := rfl
    rw [run, run, hscan, hkind]
    split
    · rfl
    · -- From the second token on the token before has moved too.
      rw [List.map_cons]
      congr 1
      apply ih (s := s.scan) h (s.scan.token.moved n)
      intro start
      simp only [Token.moved, Text.add_beq_add]

/-- A window of the text between two characters, with a closing parenthesis
    after it, shows what its text shows alone. -/
theorem shows_slice {segment : Segment} (hstart : Text.Aligned text segment.start)
    (hstop : Text.Aligned text segment.stop) (hle : segment.start ≤ segment.stop)
    (hclose : (Window.whole text).get? segment.stop = some ')') :
    let part := Text.slice text.toByteArray segment.start segment.stop
    part.toByteArray.size = segment.stop - segment.start ∧
      Window.Shows segment.start (Window.whole part) ⟨text.toByteArray, segment.stop⟩ := by
  intro part
  have hpart : part.toByteArray = text.toByteArray.extract segment.start segment.stop :=
    Text.toByteArray_slice hstart hstop hle
  have hbound : segment.stop ≤ text.toByteArray.size := hstop.le
  have hsize : part.toByteArray.size = segment.stop - segment.start := by
    rw [hpart, ByteArray.size_extract, Nat.min_eq_left hbound]
  -- The text is what stands in front, the part, and a rest that starts with the parenthesis.
  let front := text.toByteArray.extract 0 segment.start
  let rest := text.toByteArray.extract segment.stop text.toByteArray.size
  have hfront : front.size = segment.start := by
    rw [ByteArray.size_extract]
    omega
  have hsplit : text.toByteArray = front ++ (part.toByteArray ++ rest) := by
    rw [hpart, ← ByteArray.extract_eq_extract_append_extract segment.stop hle hbound,
      ← ByteArray.extract_eq_extract_append_extract segment.start (Nat.zero_le _) (by omega),
      ByteArray.extract_zero_size]
  have hnext : rest[0]? = some 0x29 := by
    obtain ⟨byte, hbyte, hval⟩ := (Token.whole_fits text).exists_byte hclose
    obtain rfl : byte = 0x29 := UInt8.toNat_inj.mp hval
    rw [← Text.getElem?_behind part.toByteArray, ← Text.getElem?_behind front, ← hsplit, hfront,
      hsize, Nat.add_zero, Nat.add_sub_cancel' hle]
    exact hbyte
  refine ⟨hsize, ?_⟩
  have hshows := Window.shows_excerpt front part.toByteArray rest hnext
  rw [← hsplit, hfront] at hshows
  have hstop' : segment.start + part.toByteArray.size = segment.stop := by omega
  rw [hstop'] at hshows
  exact hshows

/-- A scanner at the start of the window stands where the scanner of the part
    alone does, moved. -/
theorem restrict_eq_shown {segment : Segment} {part : String} (hbytes : s.bytes = text.toByteArray)
    (hle : segment.start ≤ segment.stop) (hbound : segment.stop ≤ text.toByteArray.size)
    (hsize : part.toByteArray.size = segment.stop - segment.start) :
    s.restrict segment.start segment.stop =
      { ((ofText part).restrict 0 part.toByteArray.size).shown text.toByteArray segment.start
          s.diagnostics with token := Token.initial } := by
  have hstop : min segment.stop text.toByteArray.size = segment.stop := Nat.min_eq_left hbound
  have hstart : min segment.start segment.stop = segment.start := Nat.min_eq_left hle
  have hend : segment.start + min part.toByteArray.size (ofText part).bytes.size =
      segment.stop := by
    show segment.start + min part.toByteArray.size part.toByteArray.size = segment.stop
    rw [Nat.min_self]
    omega
  simp only [restrict, shown, hstop, hstart, hbytes, hend, Nat.zero_min, Nat.add_zero,
    List.map_nil]
  simp [ofText]

/-- The run over a part of a text ends at the end of the part. -/
theorem run_part_ends (part : String) {count : Nat} (hcount : part.toByteArray.size < count) :
    ∃ inner last, run count ((ofText part).restrict 0 part.toByteArray.size) = inner ++ [last] ∧
      last.token.kind = .endOfFile := by
  let alone := (ofText part).restrict 0 part.toByteArray.size
  have haligned : alone.Aligned part :=
    aligned_restrict rfl (Nat.zero_le _) Text.aligned_zero Text.aligned_size
  have hwithin : alone.Within := ⟨Nat.min_le_right .., Nat.min_le_right ..⟩
  have hleft : alone.stop - alone.pos < count := by
    have hle : alone.stop ≤ part.toByteArray.size := Nat.min_le_left ..
    omega
  obtain ⟨inner, last, hrun, -, hkind, -⟩ := (haligned.run_tiles hwithin hleft).last
  obtain ⟨states, final, hstates, -, hfinal⟩ := List.map_eq_append_iff.mp hrun
  obtain ⟨state, rfl, rfl⟩ := List.map_eq_singleton_iff.mp hfinal
  exact ⟨states, state, hstates, hkind⟩

/-- The segments of a string literal are well placed.  They lie inside the
    literal, in order and apart.  Each follows the opening of an escape that
    has as many number signs as the literal, and a closing parenthesis
    follows it.  And scanning the window of a segment to its end gives the
    tokens and the diagnostics that scanning its text alone gives, at offsets
    moved by the start of the segment. -/
theorem interpolations_well_placed (text : String) (s : Scanner)
    (hbytes : s.bytes = text.toByteArray) (hkind : s.scan.token.kind = .stringLiteral) :
    Token.Inside s.scan.token.pos s.scan.segments s.scan.token.stop ∧
    (∃ hashes, (Window.whole text).startsWith s.scan.token.pos
        (List.replicate hashes '#' ++ ['"']) = true ∧
      ∀ segment ∈ s.scan.segments, Token.Escaped (Window.whole text) hashes segment) ∧
    ∀ segment ∈ s.scan.segments, ∀ outer : Scanner, outer.bytes = text.toByteArray →
      let part := Text.slice text.toByteArray segment.start segment.stop
      let alone := (ofText part).restrict 0 part.toByteArray.size
      (∀ count, run count (outer.restrict segment.start segment.stop) =
        (run count alone).map (shown text.toByteArray segment.start outer.diagnostics)) ∧
      ∀ count, part.toByteArray.size < count → ∃ inner last,
        run count alone = inner ++ [last] ∧ last.token.kind = .endOfFile := by
  have hinside : Token.Inside s.scan.token.pos s.scan.segments s.scan.token.stop :=
    Token.lexemeAt_inside ..
  obtain ⟨hashes, hlexeme, hopens⟩ := Token.lexemeAt_string hkind
  have hescaped : ∀ segment ∈ s.scan.segments,
      Token.Escaped (Window.whole text) hashes segment := by
    intro segment hsegment
    have hsame : s.scan.segments = (Token.stringAt s.window hashes s.scan.token.pos).segments :=
      congrArg Token.Lexeme.segments hlexeme
    rw [hsame] at hsegment
    exact (Token.stringAt_escaped _ _ segment hsegment).whole hbytes
  refine ⟨hinside, ⟨hashes, hopens.whole hbytes, hescaped⟩, ?_⟩
  intro segment hsegment outer houter part alone
  obtain ⟨-, hle, -⟩ := hinside.of_mem hsegment
  obtain ⟨hstart, hstop⟩ := (hescaped segment hsegment).aligned
  -- The part is text of its own, since both its ends are at character boundaries; reading it inside
  -- the literal is then reading it alone, with every offset moved.
  obtain ⟨hsize, hshows⟩ := shows_slice hstart hstop hle (hescaped segment hsegment).closing
  refine ⟨fun count => ?_, fun count hcount => run_part_ends part hcount⟩
  rw [restrict_eq_shown houter hle hstop.le hsize]
  apply run_shown
  · have hend : alone.stop = part.toByteArray.size := Nat.min_self _
    have hwindow : alone.window = Window.whole part := by
      rw [window, hend]
      rfl
    have hsame : segment.start + alone.stop = segment.stop := by
      rw [hend]
      exact (congrArg (segment.start + ·) hsize).trans (Nat.add_sub_cancel' hle)
    show alone.window.Shows segment.start ⟨text.toByteArray, segment.start + alone.stop⟩
    rw [hwindow, hsame]
    exact hshows
  · intro start
    rfl

/-- Two expressions in a literal with a number sign; the first one has a
    string literal with a parenthesis in it. -/
theorem interpolations_well_placed_raw :
    let text := "#\"a\\#(f(\")\"))\\#(y)\"#"
    let literal := (ofText text).scan
    (literal.token.kind = .stringLiteral ∧ literal.segments = [⟨6, 12⟩, ⟨16, 17⟩]) ∧
    (∃ hashes, (Window.whole text).startsWith 0 (List.replicate hashes '#' ++ ['"']) = true ∧
      ∀ segment ∈ literal.segments, Token.Escaped (Window.whole text) hashes segment) ∧
    run 7 (literal.restrict 6 12) =
      (run 7 ((ofText (Text.slice text.toByteArray 6 12)).restrict 0
        (Text.slice text.toByteArray 6 12).toByteArray.size)).map
        (shown text.toByteArray 6 literal.diagnostics) := by
  intro text literal
  have hread : literal.token.kind = .stringLiteral ∧ literal.segments = [⟨6, 12⟩, ⟨16, 17⟩] ∧
      literal.token.pos = 0 := by
    decide +kernel
  obtain ⟨hkind, hsegments, hpos⟩ := hread
  obtain ⟨-, hplaced, hruns⟩ := interpolations_well_placed text (ofText text) rfl hkind
  rw [hpos] at hplaced
  have hfirst : (⟨6, 12⟩ : Segment) ∈ literal.segments := by
    rw [hsegments]
    exact List.mem_cons_self
  exact ⟨⟨hkind, hsegments⟩, hplaced, (hruns ⟨6, 12⟩ hfirst literal rfl).1 7⟩

end Scanner
end SelfCapture
