import SelfCapture.Proofs.Grammar.Rescanning
import SelfCapture.Proofs.Token.Alignment

/-! # Tokens tile a window

  Read up to its end, a window falls into tokens and what separates them.
  A token covers a byte, starts where the one before it ends or later, and
  its ends lie between characters; what is left between two tokens is
  blanks and comments.  Only the last token is empty, and it stands at the
  end of the window.

  - `Trivia` : blanks and comments, told without a scanner.
  - `Gap.Extends` : how a gap is extended, and what it takes note of.
  - `gapAt_trivia` : a gap is made of them and of nothing else.
  - `Tiles` : tokens in order, with blanks and comments in between.
  - `Scanner.run_tiles` : one token after the other, up to the end.
  - `Scanner.tokens_tile_window` : a window on a text, from its start on.
-/

namespace SelfCapture.Token

variable {w : Window}

/-! ## Section 1: Blanks and comments -/

/-- From `start` a line goes on up to `stop`, where a line feed stands or
    the window ends. -/
structure RestOfLine (w : Window) (start stop : Nat) : Prop where
  le : start ≤ stop
  inner : ∀ offset, start ≤ offset → offset < stop → w.get? offset ≠ some '\n'
  ends : stop = w.stop ∨ w.get? stop = some '\n'

/-- From `start` a block comment of which `depth` openings are still to be
    closed goes on up to `stop`.  Unless they are all closed, it goes on up
    to the end of the window. -/
inductive RestOfComment (w : Window) : (depth start stop : Nat) → Prop
  | closed (offset : Nat) : RestOfComment w 0 offset offset
  | opening {depth start stop : Nat} (hopen : w.startsWith start ['/', '*'] = true)
      (hrest : RestOfComment w (depth + 2) (start + 2) stop) :
      RestOfComment w (depth + 1) start stop
  | closing {depth start stop : Nat} (hclose : w.startsWith start ['*', '/'] = true)
      (hrest : RestOfComment w depth (start + 2) stop) :
      RestOfComment w (depth + 1) start stop
  | inner {depth start stop : Nat} (hlt : start < w.stop)
      (hopen : w.startsWith start ['/', '*'] = false)
      (hclose : w.startsWith start ['*', '/'] = false)
      (hrest : RestOfComment w (depth + 1) (start + 1) stop) :
      RestOfComment w (depth + 1) start stop
  | unterminated (depth : Nat) : RestOfComment w (depth + 1) w.stop w.stop

/-- The bytes that separate tokens: space, tab, vertical tab, form feed,
    line feed and carriage return. -/
def blanks : List Char := [' ', '\t', '\x0b', '\x0c', '\n', '\r']

/-- From `start` to `stop` there are only blanks and comments. -/
inductive Trivia (w : Window) : (start stop : Nat) → Prop
  | nothing (offset : Nat) : Trivia w offset offset
  | blank {start stop : Nat} {c : Char} (hc : w.get? start = some c) (hblank : c ∈ blanks)
      (hrest : Trivia w (start + 1) stop) : Trivia w start stop
  | lineComment {start close stop : Nat} (hopen : w.startsWith start ['/', '/'] = true)
      (hline : RestOfLine w start close) (hrest : Trivia w close stop) : Trivia w start stop
  | blockComment {start close stop : Nat} (hopen : w.startsWith start ['/', '*'] = true)
      (hcomment : RestOfComment w 1 (start + 2) close) (hrest : Trivia w close stop) :
      Trivia w start stop

/-- Skipping to a line feed goes to the end of the line. -/
theorem skipWhile_restOfLine (hw : w.stop ≤ w.bytes.size) {start : Nat} (hle : start ≤ w.stop) :
    RestOfLine w start (w.skipWhile (· != '\n') start) := by
  have hstop : w.skipWhile (· != '\n') start ≤ w.stop := Window.skipWhile_le hle
  have hstops : (w.get? (w.skipWhile (· != '\n') start)).any (· != '\n') = false :=
    Window.skipUpTo_stops (Nat.le_refl _)
  refine ⟨w.le_skipWhile _ _, ?_, ?_⟩
  · intro offset hlow hhigh hfeed
    have hpass := Window.any_of_lt_skipUpTo hlow hhigh
    simp [hfeed] at hpass
  · cases hget : w.get? (w.skipWhile (· != '\n') start) with
    | none =>
      have hge := (Window.get?_eq_none_iff hw).mp hget
      exact Or.inl (Nat.le_antisymm hstop hge)
    | some c =>
      rw [hget] at hstops
      right
      simpa using hstops

theorem blockComment_rest (hw : w.stop ≤ w.bytes.size) (count depth : Nat) {offset : Nat}
    (lineFeed : Bool) (hle : offset ≤ w.stop) (hcount : w.stop - offset ≤ count) :
    RestOfComment w depth offset (blockComment w count depth offset lineFeed).1 := by
  fun_induction blockComment w count depth offset lineFeed with
  | case1 depth offset lineFeed =>
    -- No byte is left in the window, whatever is still open.
    obtain rfl : offset = w.stop := by omega
    cases depth with
    | zero => exact .closed _
    | succ depth => exact .unterminated depth
  | case2 count offset lineFeed => exact .closed offset
  | case3 count depth offset lineFeed hopen hstart ih =>
    have hlen : offset + 2 ≤ w.stop := Window.startsWith_le hstart (by simp)
    obtain ⟨depth, rfl⟩ := Nat.exists_eq_succ_of_ne_zero hopen
    exact .opening hstart (ih hlen (by omega))
  | case4 count depth offset lineFeed hopen hstart hclose ih =>
    have hlen : offset + 2 ≤ w.stop := Window.startsWith_le hclose (by simp)
    obtain ⟨depth, rfl⟩ := Nat.exists_eq_succ_of_ne_zero hopen
    exact .closing hclose (ih hlen (by omega))
  | case5 count depth offset lineFeed hopen hstart hclose c hc ih =>
    have hlt : offset < w.stop := Window.lt_stop_of_get? hc
    obtain ⟨depth, rfl⟩ := Nat.exists_eq_succ_of_ne_zero hopen
    exact .inner hlt (by simpa using hstart) (by simpa using hclose) (ih hlt (by omega))
  | case6 count depth offset lineFeed hopen hstart hclose hnone =>
    have hge := (Window.get?_eq_none_iff hw).mp hnone
    obtain rfl : offset = w.stop := Nat.le_antisymm hle hge
    obtain ⟨depth, rfl⟩ := Nat.exists_eq_succ_of_ne_zero hopen
    exact .unterminated depth

/-- How a gap is extended up to the next token: over blanks, of which it
    notes the line breaks, and over comments. -/
inductive Gap.Extends (w : Window) : (gap last : Gap) → Prop
  | done {gap : Gap} (hstop : ∀ c ∈ blanks, w.get? gap.stop ≠ some c) : Extends w gap gap
  | blank {gap last : Gap} {c : Char} {lineBreak : Bool} (hc : w.get? gap.stop = some c)
      (hblank : c ∈ blanks) (hbreak : lineBreak = (gap.lineBreak || c == '\n' || c == '\r'))
      (hrest : Extends w { stop := gap.stop + 1, blank := true, lineBreak } last) :
      Extends w gap last
  | lineComment {gap last : Gap} {close : Nat}
      (hopen : w.startsWith gap.stop ['/', '/'] = true) (hline : RestOfLine w gap.stop close)
      (hrest : Extends w { gap with stop := close, blank := true } last) : Extends w gap last
  | blockComment {gap last : Gap} {count close : Nat} {lineFeed : Bool}
      (hopen : w.startsWith gap.stop ['/', '*'] = true)
      (hcomment : RestOfComment w 1 (gap.stop + 2) close)
      (hread : Token.blockComment w count 1 (gap.stop + 2) false = (close, lineFeed))
      (hrest : Extends w
        { stop := close, blank := true, lineBreak := gap.lineBreak || lineFeed } last) :
      Extends w gap last

theorem Gap.extend_extends (hw : w.stop ≤ w.bytes.size) (count : Nat) {gap : Gap}
    (hle : gap.stop ≤ w.stop) (hcount : w.stop - gap.stop ≤ count) :
    Extends w gap (Gap.extend w count gap) := by
  fun_induction Gap.extend w count gap with
  | case1 gap =>
    apply Extends.done
    intro c _ hc
    have hlt := Window.lt_stop_of_get? hc
    omega
  | case2 count gap hc ih | case3 count gap hc ih | case4 count gap hc ih | case5 count gap hc ih
  | case6 count gap hc ih | case7 count gap hc ih =>
    have hlt : gap.stop < w.stop := Window.lt_stop_of_get? hc
    have hleft : w.stop - (gap.stop + 1) ≤ count := by omega
    exact .blank hc (by decide) (by simp) (ih hlt hleft)
  | case8 count gap hc hd ih =>
    -- The two slashes belong to the rest of their line.
    have hopen : w.startsWith gap.stop ['/', '/'] = true := by
      simp [Window.startsWith, hc, hd]
    have hstop : w.skipWhile (· != '\n') gap.stop ≤ w.stop := Window.skipWhile_le hle
    have hlow : gap.stop < w.skipWhile (· != '\n') gap.stop :=
      Window.lt_skipWhile hc (by decide)
    have hleft : w.stop - w.skipWhile (· != '\n') gap.stop ≤ count := by omega
    exact .lineComment hopen (skipWhile_restOfLine hw hle) (ih hstop hleft)
  | case9 count gap hc hd comment ih =>
    have hopen : w.startsWith gap.stop ['/', '*'] = true := by
      simp [Window.startsWith, hc, hd]
    have hlen : gap.stop + 2 ≤ w.stop := Window.lt_stop_of_get? hd
    have hbounds : gap.stop + 2 ≤ comment.1 ∧ comment.1 ≤ w.stop :=
      blockComment_bounds count 1 false hlen
    have hrest := blockComment_rest hw count 1 false hlen (by omega)
    have hleft : w.stop - comment.1 ≤ count := by omega
    exact .blockComment hopen hrest rfl (ih hbounds.2 hleft)
  | case10 count gap hc hline hblock =>
    -- A slash that opens no comment is a token.
    apply Extends.done
    intro c hblank hslash
    rw [hc] at hslash
    obtain rfl := Option.some.inj hslash
    exact absurd hblank (by decide)
  | case11 count gap =>
    apply Extends.done
    intro c hblank hc
    simp [blanks] at hblank
    simp_all

theorem gapAt_extends (hw : w.stop ≤ w.bytes.size) {offset : Nat} (hle : offset ≤ w.stop) :
    Gap.Extends w { stop := offset } (gapAt w offset) := by
  have hstart : ({ stop := offset } : Gap).stop ≤ w.stop := hle
  exact Gap.extend_extends hw (w.left offset) hstart (Nat.le_refl _)

theorem Gap.Extends.trivia {gap last : Gap} (h : Gap.Extends w gap last) :
    Trivia w gap.stop last.stop := by
  induction h with
  | done _ => exact .nothing _
  | blank hc hblank _ _ ih => exact .blank hc hblank ih
  | lineComment hopen hline _ ih => exact .lineComment hopen hline ih
  | blockComment hopen hcomment _ _ ih => exact .blockComment hopen hcomment ih

/-- A gap consists of blanks and comments. -/
theorem gapAt_trivia (hw : w.stop ≤ w.bytes.size) {offset : Nat} (hle : offset ≤ w.stop) :
    Trivia w offset (gapAt w offset).stop := (gapAt_extends hw hle).trivia

/-! ## Section 2: Tokens in order -/

/-- From an offset on the tokens follow each other, with blanks and
    comments before each of them. -/
def Tiles (w : Window) : (offset : Nat) → List Token → Prop
  | _, [] => True
  | offset, token :: rest =>
    offset ≤ token.pos ∧ Trivia w offset token.pos ∧ Tiles w token.stop rest

end SelfCapture.Token

namespace SelfCapture.Scanner

open Token (Tiles Trivia)

variable {text : String} {s : Scanner}

/-- What is read of a window: tokens that cover a byte, and the empty one
    at the end of the window. -/
structure ReadsWindow (text : String) (w : Window) (start : Nat) (tokens : List Token) :
    Prop where
  tiles : Tiles w start tokens
  count_le : tokens.length ≤ w.stop - start + 1
  bounds : ∀ token ∈ tokens, start ≤ token.pos ∧ token.stop ≤ w.stop ∧
    Text.Aligned text token.pos ∧ Text.Aligned text token.stop
  last : ∃ inner last, tokens = inner ++ [last] ∧
    (∀ token ∈ inner, token.kind ≠ .endOfFile ∧ token.pos < token.stop) ∧
    last.kind = .endOfFile ∧ last.pos = w.stop ∧ last.stop = w.stop

/-- What one scan does: blanks and comments are passed, and the token after
    them lies inside the window. -/
theorem Aligned.scan_tiles (h : s.Aligned text) (hs : s.Within) :
    Trivia s.window s.pos s.scan.token.pos ∧ s.pos ≤ s.scan.token.pos ∧
      s.scan.token.stop ≤ s.stop ∧ Text.Aligned text s.scan.token.pos ∧
      Text.Aligned text s.scan.token.stop := by
  have hnext := h.scan hs.pos_le
  have hgap : Trivia s.window s.pos (Token.gapAt s.window s.pos).stop :=
    Token.gapAt_trivia hs.stop_le hs.pos_le
  exact ⟨hgap, le_scan_pos hs.pos_le, hs.settled.token_stop_le, hnext.token_pos, hnext.token_stop⟩

/-- Scan after scan, the rest of the window is read up to its end. -/
theorem Aligned.run_tiles (h : s.Aligned text) (hs : s.Within) {count : Nat}
    (hcount : s.stop - s.pos < count) :
    ReadsWindow text s.window s.pos ((run count s).map token) := by
  induction count generalizing s with
  | zero => omega
  | succ count ih =>
    obtain ⟨htrivia, hlow, hhigh, hpos, hstop⟩ := h.scan_tiles hs
    have hsettled := hs.settled
    by_cases hend : s.scan.token.kind = .endOfFile
    · -- The end of the window: nothing is read after it.
      have hrun : (run (count + 1) s).map token = [s.scan.token] := by
        simp [run, hend]
      have hat : s.scan.token.pos = s.stop := hsettled.atEnd_iff.mp hend
      have hempty : s.scan.token.stop = s.stop := by
        have hle := hsettled.token_le
        omega
      rw [hrun]
      refine ⟨⟨hlow, htrivia, trivial⟩, ?_, ?_, [], s.scan.token, rfl, List.forall_mem_nil _,
        hend, hat, hempty⟩
      · simp
      · intro token htoken
        obtain rfl := List.mem_singleton.mp htoken
        exact ⟨hlow, hhigh, hpos, hstop⟩
    · have hrun : (run (count + 1) s).map token =
          s.scan.token :: (run count s.scan).map token := by
        simp [run, hend]
      -- The token covers a byte, so less is left after it.
      have hcovers : s.scan.token.pos < s.scan.token.stop := hsettled.covers hend
      have hat : s.scan.pos = s.scan.token.stop := hsettled.pos_eq
      have hwindow : s.scan.window = s.window := rfl
      have hsame : s.scan.stop = s.stop := rfl
      have hrest := ih (h.scan hs.pos_le) hsettled.within (by omega)
      rw [hwindow, hat] at hrest
      obtain ⟨inner, last, hlast, hinner, hkind, hlastAt, hlastEmpty⟩ := hrest.last
      rw [hrun]
      refine ⟨⟨hlow, htrivia, hrest.tiles⟩, ?_, ?_, s.scan.token :: inner, last, ?_, ?_,
        hkind, hlastAt, hlastEmpty⟩
      · have hlength := hrest.count_le
        have hstopEq : s.window.stop = s.stop := rfl
        simp only [List.length_cons]
        omega
      · intro token htoken
        rcases List.mem_cons.mp htoken with rfl | htoken
        · exact ⟨hlow, hhigh, hpos, hstop⟩
        · obtain ⟨hafter, hwithin⟩ := hrest.bounds token htoken
          exact ⟨by omega, hwithin⟩
      · rw [hlast, List.cons_append]
      · intro token htoken
        rcases List.mem_cons.mp htoken with rfl | htoken
        · exact ⟨hend, hcovers⟩
        · exact hinner token htoken

/-! ## Section 3: Windows on a text -/

/-- The scanner stands at the start of a window on the text, which is the
    whole text without the mark and the script line it may begin with, or a
    part of it between two characters. -/
inductive Opens (text : String) : Scanner → (start stop : Nat) → Prop
  | whole : Opens text (ofText text)
      (startOffset ⟨text.toByteArray, text.toByteArray.size⟩) text.toByteArray.size
  | part {s : Scanner} {start stop : Nat} (hbytes : s.bytes = text.toByteArray)
      (hle : start ≤ stop) (hstart : Text.Aligned text start) (hstop : Text.Aligned text stop) :
      Opens text (s.restrict start stop) start stop

theorem Opens.bounds {start stop : Nat} (h : Opens text s start stop) :
    s.pos = start ∧ s.stop = stop ∧ s.Aligned text ∧ s.Within := by
  cases h with
  | whole => exact ⟨rfl, rfl, ofText_aligned text, within_ofText text⟩
  | @part s _ _ hbytes hle hstart hstop =>
    have hend : min stop s.bytes.size = stop := by
      rw [hbytes]
      exact Nat.min_eq_left hstop.le
    have hpos : (s.restrict start stop).pos = start := by
      simp [Scanner.restrict, hend, Nat.min_eq_left hle]
    have hat : (s.restrict start stop).stop = stop := by
      simp [Scanner.restrict, hend]
    refine ⟨hpos, hat, aligned_restrict hbytes hle hstart hstop, ?_, ?_⟩
    · rw [hpos, hat]
      exact hle
    · exact Nat.min_le_right ..

/-- A window on a text is read in tokens that tile it: each but the last
    covers whole characters after the one before it, only blanks and
    comments are left out, and the last is the empty one at the end, found
    after at most one scan more than there are bytes. -/
theorem tokens_tile_window {start stop count : Nat} (h : Opens text s start stop)
    (hcount : stop - start < count) :
    ReadsWindow text ⟨text.toByteArray, stop⟩ start ((run count s).map token) := by
  obtain ⟨rfl, rfl, haligned, hs⟩ := h.bounds
  have hread := haligned.run_tiles hs hcount
  have hwindow : s.window = ⟨text.toByteArray, s.stop⟩ := by
    rw [← haligned.bytes_eq]
    rfl
  rwa [hwindow] at hread

/-- The window of an interpolated expression, a comment in it. -/
theorem tokens_tile_interpolation :
    let text := "\"\\(a /* b */)\""
    ReadsWindow text ⟨text.toByteArray, 12⟩ 3
      ((run 10 ((ofText text).scan.restrict 3 12)).map token) := by
  intro text
  have hfirst : text.toByteArray[3]? = some 97 := by decide +kernel
  have hclose : text.toByteArray[12]? = some 41 := by decide +kernel
  have hstart : Text.Aligned text 3 := (Text.aligned_of_ascii hfirst (by decide)).1
  have hstop : Text.Aligned text 12 := (Text.aligned_of_ascii hclose (by decide)).1
  exact tokens_tile_window (.part rfl (by decide) hstart hstop) (by decide)

end SelfCapture.Scanner
