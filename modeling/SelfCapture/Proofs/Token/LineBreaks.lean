import SelfCapture.Proofs.Text.LineBreaks
import SelfCapture.Proofs.Token.Tiling

/-! # Line breaks before a token

  A token is marked if a line break precedes it, which the gap before it
  decides.  The line map decides by the bytes alone on which line a token
  is.  The two look at the same line breaks, except that inside a comment a
  gap takes note of line feeds only.

  - `InComment` : the offsets that lie in a comment.
  - `gapAt_lineBreak_iff` : a gap notes line feeds, and carriage returns
    outside comments.
  - `line_lt_iff_break` : the line map notes both, wherever they stand.
  - `Scanner.afterLineBreak_iff_later_line` : the mark says that the token is
    on a later line, unless all that makes it so are carriage returns inside
    comments.
-/

namespace SelfCapture.Token

variable {w : Window}

/-! ## Section 1: Comments -/

/-- A comment goes from the first offset up to the second one. -/
inductive Comment (w : Window) (start stop : Nat) : Prop
  | line (hopen : w.startsWith start ['/', '/'] = true) (hline : RestOfLine w start stop)
  | block (hopen : w.startsWith start ['/', '*'] = true)
      (hcomment : RestOfComment w 1 (start + 2) stop)

/-- The offset lies in a comment, which only blanks and comments separate from `start`. -/
def InComment (w : Window) (start offset : Nat) : Prop :=
  ∃ opening closing, Trivia w start opening ∧ Comment w opening closing ∧
    opening ≤ offset ∧ offset < closing

theorem RestOfLine.le_stop {start stop : Nat} (h : RestOfLine w start stop) : stop ≤ w.stop := by
  rcases h.ends with hend | hfeed
  · omega
  · exact Nat.le_of_lt (Window.lt_stop_of_get? hfeed)

/-- The rest of a line does not go on beyond another one. -/
theorem RestOfLine.le_of_rest {start stop stop' : Nat} (h : RestOfLine w start stop)
    (h' : RestOfLine w start stop') : stop' ≤ stop := by
  apply Nat.le_of_not_lt
  intro hlt
  rcases h.ends with hend | hfeed
  · have hle := h'.le_stop
    omega
  · exact h'.inner stop h.le hlt hfeed

theorem RestOfComment.le {depth start stop : Nat} (h : RestOfComment w depth start stop) :
    start ≤ stop := by
  induction h with
  | closed | unterminated => exact Nat.le_refl _
  | opening | closing | inner => omega

/-- No opening of a comment is also a closing. -/
theorem startsWith_closing {offset : Nat} (h : w.startsWith offset ['/', '*'] = true) :
    w.startsWith offset ['*', '/'] = false := by
  simp only [Window.startsWith, Bool.and_eq_true, beq_iff_eq] at h
  simp [Window.startsWith, h.1]

/-- Nothing starts at the end of a window. -/
theorem startsWith_stop (c : Char) (text : List Char) :
    w.startsWith w.stop (c :: text) = false := by
  have hnone : w.get? w.stop = none := if_neg (Nat.lt_irrefl _)
  simp [Window.startsWith, hnone]

/-- The rest of a comment ends at one place. -/
theorem RestOfComment.unique {depth start stop stop' : Nat} (h : RestOfComment w depth start stop)
    (h' : RestOfComment w depth start stop') : stop = stop' := by
  -- At each offset the marks that open and close a comment, and the end of the window, exclude each
  -- other, so both derivations take the same step.
  induction h with
  | closed offset =>
    cases h'
    rfl
  | opening hopen hrest ih =>
    have hclose := startsWith_closing hopen
    cases h' with
    | opening _ hrest' => exact ih hrest'
    | closing hclose' _ => simp [hclose] at hclose'
    | inner _ hopen' _ _ => simp [hopen] at hopen'
    | unterminated => simp [startsWith_stop] at hopen
  | closing hclose hrest ih =>
    cases h' with
    | opening hopen' _ => simp [startsWith_closing hopen'] at hclose
    | closing _ hrest' => exact ih hrest'
    | inner _ _ hclose' _ => simp [hclose] at hclose'
    | unterminated => simp [startsWith_stop] at hclose
  | inner hlt hopen hclose hrest ih =>
    cases h' with
    | opening hopen' _ => simp [hopen] at hopen'
    | closing hclose' _ => simp [hclose] at hclose'
    | inner _ _ _ hrest' => exact ih hrest'
    | unterminated => exact absurd hlt (Nat.lt_irrefl _)
  | unterminated depth =>
    cases h' with
    | opening hopen' _ => simp [startsWith_stop] at hopen'
    | closing hclose' _ => simp [startsWith_stop] at hclose'
    | inner hlt _ _ _ => exact absurd hlt (Nat.lt_irrefl _)
    | unterminated => rfl

namespace Comment

variable {start close offset : Nat}

theorem get? (h : Comment w start close) : w.get? start = some '/' := by
  cases h with
  | line hopen _ | block hopen _ =>
    simp only [Window.startsWith, Bool.and_eq_true, beq_iff_eq] at hopen
    exact hopen.1

/-- A comment ends at one place. -/
theorem unique {close' : Nat} (h : Comment w start close) (h' : Comment w start close') :
    close = close' := by
  cases h with
  | line hopen hline =>
    cases h' with
    | line _ hline' =>
      exact Nat.le_antisymm (hline'.le_of_rest hline) (hline.le_of_rest hline')
    | block hopen' _ => simp_all [Window.startsWith]
  | block hopen hcomment =>
    cases h' with
    | line hopen' _ => simp_all [Window.startsWith]
    | block _ hcomment' => exact hcomment.unique hcomment'

theorem not_blank (h : Comment w start close) {c : Char} (hc : w.get? start = some c) :
    c ∉ blanks := by
  rw [h.get?] at hc
  obtain rfl := Option.some.inj hc
  decide

/-- What follows a comment begins where the comment ends. -/
theorem trivia (h : Comment w start close) {stop : Nat} (ht : Trivia w start stop) :
    stop = start ∨ Trivia w close stop := by
  cases ht with
  | nothing => exact Or.inl rfl
  | blank hc hblank _ => exact absurd hblank (h.not_blank hc)
  | lineComment hopen hline hrest =>
    rw [h.unique (.line hopen hline)]
    exact Or.inr hrest
  | blockComment hopen hcomment hrest =>
    rw [h.unique (.block hopen hcomment)]
    exact Or.inr hrest

theorem trivia_cons (h : Comment w start close) {stop : Nat} (ht : Trivia w close stop) :
    Trivia w start stop := by
  cases h with
  | line hopen hline => exact .lineComment hopen hline ht
  | block hopen hcomment => exact .blockComment hopen hcomment ht

/-- From where a comment opens, an offset in a comment is in this one or in a later one. -/
theorem inComment_iff (h : Comment w start close) :
    InComment w start offset ↔ (start ≤ offset ∧ offset < close) ∨ InComment w close offset := by
  constructor
  · rintro ⟨opening, closing, htrivia, hcomment, hlow, hhigh⟩
    rcases h.trivia htrivia with rfl | hrest
    · rw [h.unique hcomment]
      exact Or.inl ⟨hlow, hhigh⟩
    · exact Or.inr ⟨opening, closing, hrest, hcomment, hlow, hhigh⟩
  · rintro (⟨hlow, hhigh⟩ | ⟨opening, closing, htrivia, hcomment, hlow, hhigh⟩)
    · exact ⟨start, close, .nothing start, h, hlow, hhigh⟩
    · exact ⟨opening, closing, h.trivia_cons htrivia, hcomment, hlow, hhigh⟩

end Comment

/-- A blank is in no comment. -/
theorem inComment_blank_iff {start offset : Nat} {c : Char} (hc : w.get? start = some c)
    (hblank : c ∈ blanks) : InComment w start offset ↔ InComment w (start + 1) offset := by
  constructor
  · rintro ⟨opening, closing, htrivia, hcomment, hlow, hhigh⟩
    cases htrivia with
    | nothing => exact absurd hblank (hcomment.not_blank hc)
    | blank _ _ hrest => exact ⟨opening, closing, hrest, hcomment, hlow, hhigh⟩
    | lineComment hopen hline _ => exact absurd hblank ((Comment.line hopen hline).not_blank hc)
    | blockComment hopen hcomment' _ =>
      exact absurd hblank ((Comment.block hopen hcomment').not_blank hc)
  · rintro ⟨opening, closing, htrivia, hcomment, hlow, hhigh⟩
    exact ⟨opening, closing, .blank hc hblank htrivia, hcomment, hlow, hhigh⟩

/-! ## Section 2: Line breaks that a gap notes -/

/-- The byte is a line break that a gap from `start` on takes note of. -/
def Noted (w : Window) (start offset : Nat) : Prop :=
  w.get? offset = some '\n' ∨ w.get? offset = some '\r' ∧ ¬ InComment w start offset

/-- The property is met at an offset between two others, the second one excluded. -/
def Between (start stop : Nat) (P : Nat → Prop) : Prop :=
  ∃ offset, start ≤ offset ∧ offset < stop ∧ P offset

theorem between_self (start : Nat) (P : Nat → Prop) : ¬ Between start start P := by
  rintro ⟨offset, hlow, hhigh, -⟩
  omega

/-- The first offset is met, or a later one. -/
theorem between_succ (start stop : Nat) (P : Nat → Prop) :
    Between start stop P ↔ (start < stop ∧ P start) ∨ Between (start + 1) stop P := by
  constructor
  · rintro ⟨offset, hlow, hhigh, hP⟩
    rcases Nat.lt_or_eq_of_le hlow with hlt | rfl
    · exact Or.inr ⟨offset, hlt, hhigh, hP⟩
    · exact Or.inl ⟨hhigh, hP⟩
  · rintro (⟨hlt, hP⟩ | ⟨offset, hlow, hhigh, hP⟩)
    · exact ⟨start, Nat.le_refl _, hlt, hP⟩
    · exact ⟨offset, by omega, hhigh, hP⟩

theorem Trivia.le {start stop : Nat} (h : Trivia w start stop) : start ≤ stop := by
  induction h with
  | nothing => exact Nat.le_refl _
  | blank _ _ _ ih => omega
  | lineComment _ hline _ ih => exact Nat.le_trans hline.le ih
  | blockComment _ hcomment _ ih =>
    have hle := hcomment.le
    omega

theorem noted_blank_iff {start offset : Nat} {c : Char} (hc : w.get? start = some c)
    (hblank : c ∈ blanks) : Noted w start offset ↔ Noted w (start + 1) offset := by
  simp only [Noted, inComment_blank_iff hc hblank]

/-- A blank that is a line break is noted, and no other blank is. -/
theorem noted_self_iff {start : Nat} {c : Char} (hc : w.get? start = some c)
    (hblank : c ∈ blanks) : Noted w start start ↔ c = '\n' ∨ c = '\r' := by
  have houtside : ¬ InComment w start start := by
    rw [inComment_blank_iff hc hblank]
    rintro ⟨opening, closing, htrivia, -, hlow, -⟩
    have hle := htrivia.le
    omega
  simp [Noted, hc, houtside]

/-- Over a comment only line feeds are noted, and after it all that the rest of the gap notes. -/
theorem Comment.between_noted_iff {start close stop : Nat} (h : Comment w start close)
    (hstart : start ≤ close) (hclose : close ≤ stop) :
    Between start stop (Noted w start) ↔
      Between start close (w.get? · = some '\n') ∨ Between close stop (Noted w close) := by
  constructor
  · rintro ⟨offset, hlow, hhigh, hnoted⟩
    by_cases hin : offset < close
    · left
      rcases hnoted with hfeed | ⟨-, houtside⟩
      · exact ⟨offset, hlow, hin, hfeed⟩
      · exact absurd (h.inComment_iff.mpr (Or.inl ⟨hlow, hin⟩)) houtside
    · right
      refine ⟨offset, Nat.le_of_not_lt hin, hhigh, hnoted.imp_right ?_⟩
      rintro ⟨hreturn, houtside⟩
      exact ⟨hreturn, fun hinside => houtside (h.inComment_iff.mpr (Or.inr hinside))⟩
  · rintro (⟨offset, hlow, hhigh, hfeed⟩ | ⟨offset, hlow, hhigh, hnoted⟩)
    · exact ⟨offset, hlow, by omega, Or.inl hfeed⟩
    · refine ⟨offset, by omega, hhigh, hnoted.imp_right ?_⟩
      rintro ⟨hreturn, houtside⟩
      refine ⟨hreturn, fun hinside => ?_⟩
      rcases h.inComment_iff.mp hinside with ⟨-, hbefore⟩ | hlater
      · omega
      · exact houtside hlater

/-- A block comment takes note of the line feeds in it. -/
theorem blockComment_lineFeed_iff (count depth : Nat) {offset : Nat} (lineFeed : Bool)
    (hle : offset ≤ w.stop) :
    (blockComment w count depth offset lineFeed).2 = true ↔
      lineFeed = true ∨
        Between offset (blockComment w count depth offset lineFeed).1 (w.get? · = some '\n') := by
  fun_induction blockComment w count depth offset lineFeed with
  | case1 | case2 | case6 => simp [between_self]
  | case3 count depth offset lineFeed hdepth hopen ih =>
    have hlen : offset + 2 ≤ w.stop := Window.startsWith_le hopen (by simp)
    simp only [Window.startsWith, Bool.and_eq_true, beq_iff_eq] at hopen
    apply (ih hlen).trans
    rw [between_succ offset, between_succ (offset + 1)]
    simp [hopen]
  | case4 count depth offset lineFeed hdepth hopen hclose ih =>
    have hlen : offset + 2 ≤ w.stop := Window.startsWith_le hclose (by simp)
    simp only [Window.startsWith, Bool.and_eq_true, beq_iff_eq] at hclose
    apply (ih hlen).trans
    rw [between_succ offset, between_succ (offset + 1)]
    simp [hclose]
  | case5 count depth offset lineFeed hdepth hopen hclose c hc ih =>
    -- The byte itself may be the line feed; a mark that opens or closes a comment never is.
    have hlt : offset + 1 ≤ w.stop := Window.lt_stop_of_get? hc
    have hcovered : offset < (blockComment w count depth (offset + 1) (lineFeed || c == '\n')).1 :=
      (blockComment_bounds count depth (lineFeed || c == '\n') hlt).1
    apply (ih hlt).trans
    rw [between_succ offset]
    simp [hc, hcovered, or_assoc]

/-- A gap that is extended notes the line breaks that it is extended over. -/
theorem Gap.Extends.lineBreak_iff {gap last : Gap} (h : Gap.Extends w gap last) :
    last.lineBreak = true ↔
      gap.lineBreak = true ∨ Between gap.stop last.stop (Noted w gap.stop) := by
  induction h with
  | done _ => simp [between_self]
  | @blank gap last c lineBreak hc hblank hbreak hrest ih =>
    have hcovered : gap.stop < last.stop := hrest.trivia.le
    have hnoted : Noted w (gap.stop + 1) = Noted w gap.stop := by
      funext offset
      exact propext (noted_blank_iff hc hblank).symm
    apply ih.trans
    rw [hnoted, between_succ gap.stop, noted_self_iff hc hblank]
    simp [hbreak, hcovered, or_assoc]
  | @lineComment gap last close hopen hline hrest ih =>
    -- No line feed lies in the rest of a line.
    have hnone : ¬ Between gap.stop close (w.get? · = some '\n') := by
      rintro ⟨offset, hlow, hhigh, hfeed⟩
      exact hline.inner offset hlow hhigh hfeed
    apply ih.trans
    rw [(Comment.line hopen hline).between_noted_iff hline.le hrest.trivia.le]
    simp [hnone]
  | @blockComment gap last count close lineFeed hopen hcomment hread hrest ih =>
    have hlen : gap.stop + 2 ≤ w.stop := Window.startsWith_le hopen (by simp)
    have hclose : gap.stop + 2 ≤ close := hcomment.le
    -- The two bytes that open the comment are no line feeds.
    have hfeed : lineFeed = true ↔ Between gap.stop close (w.get? · = some '\n') := by
      have hrestFeed := blockComment_lineFeed_iff count 1 false hlen
      simp only [Window.startsWith, Bool.and_eq_true, beq_iff_eq] at hopen
      rw [hread] at hrestFeed
      apply hrestFeed.trans
      rw [between_succ gap.stop, between_succ (gap.stop + 1)]
      simp [hopen]
    apply ih.trans
    rw [(Comment.block hopen hcomment).between_noted_iff (by omega) hrest.trivia.le, ← hfeed]
    simp [or_assoc]

/-- A gap notes line feeds, and carriage returns outside comments. -/
theorem gapAt_lineBreak_iff (hw : w.stop ≤ w.bytes.size) {offset : Nat} (hle : offset ≤ w.stop) :
    (gapAt w offset).lineBreak = true ↔ Between offset (gapAt w offset).stop (Noted w offset) := by
  apply (gapAt_extends hw hle).lineBreak_iff.trans
  simp

/-- A gap ends at a byte that is no blank, or at the end of the window. -/
theorem Gap.Extends.stops {gap last : Gap} (h : Gap.Extends w gap last) :
    ∀ c ∈ blanks, w.get? last.stop ≠ some c := by
  induction h with
  | done hstop => exact hstop
  | blank _ _ _ _ ih | lineComment _ _ _ ih | blockComment _ _ _ _ ih => exact ih

/-! ## Section 3: Line breaks that the line map notes -/

/-- The window on a whole text. -/
def wholeText (text : String) : Window := ⟨text.toByteArray, text.toByteArray.size⟩

/-- A line feed or a carriage return. -/
def IsBreak (w : Window) (offset : Nat) : Prop :=
  w.get? offset = some '\n' ∨ w.get? offset = some '\r'

theorem get?_wholeText_iff (text : String) (offset : Nat) (byte : UInt8) :
    (wholeText text).get? offset = some (Char.ofUInt8 byte) ↔
      text.toByteArray[offset]? = some byte := by
  have hget : (wholeText text).get? offset = text.toByteArray[offset]?.map Char.ofUInt8 := by
    by_cases hlt : offset < text.toByteArray.size
    · exact if_pos hlt
    · rw [getElem?_neg text.toByteArray offset hlt]
      exact if_neg hlt
  rw [hget]
  constructor
  · intro h
    obtain ⟨found, hfound, heq⟩ := Option.map_eq_some_iff.mp h
    have hnat : found.toNat = byte.toNat := by
      rw [← Text.toNat_ofUInt8 found, ← Text.toNat_ofUInt8 byte, heq]
    rw [hfound, UInt8.toNat_inj.mp hnat]
  · intro h
    rw [h]
    rfl

/-- A break is complete after a line feed, and after a carriage return without one. -/
theorem breaksAfter_iff (text : String) (offset : Nat) :
    LineMap.breaksAfter text.toByteArray offset = true ↔
      (wholeText text).get? offset = some '\n' ∨
        (wholeText text).get? offset = some '\r' ∧
          (wholeText text).get? (offset + 1) ≠ some '\n' := by
  have hfeed (offset : Nat) := get?_wholeText_iff text offset 0x0A
  have hreturn := get?_wholeText_iff text offset 0x0D
  rw [show '\n' = Char.ofUInt8 0x0A from rfl, show '\r' = Char.ofUInt8 0x0D from rfl, hfeed,
    hreturn, ne_eq, hfeed]
  simp [LineMap.breaksAfter]

/-- If no line feed stands at the second offset, it is on a later line just
    if there is a line feed or a carriage return in between. -/
theorem line_lt_iff_break {text : String} {a b : Nat} (hab : a ≤ b)
    (hb : b ≤ text.toByteArray.size) (hfeed : (wholeText text).get? b ≠ some '\n') :
    ((LineMap.ofText text).location a).line < ((LineMap.ofText text).location b).line ↔
      Between a b (IsBreak (wholeText text)) := by
  rw [LineMap.line_lt_iff hab hb]
  constructor
  · rintro ⟨stop, hstop, hlow, hhigh⟩
    obtain ⟨offset, -, hbreak, rfl⟩ := LineMap.mem_breaks.mp hstop
    refine ⟨offset, by omega, by omega, ?_⟩
    exact ((breaksAfter_iff text offset).mp hbreak).imp_right And.left
  · rintro ⟨offset, hlow, hhigh, hbreak⟩
    -- A carriage return before a line feed is completed by it, which is before `b` too.
    have hcomplete : ∃ last, a ≤ last ∧ last < b ∧
        LineMap.breaksAfter text.toByteArray last = true := by
      by_cases hpair : (wholeText text).get? (offset + 1) = some '\n'
      · have hne : offset + 1 ≠ b := by
          rintro rfl
          exact hfeed hpair
        exact ⟨offset + 1, by omega, by omega, (breaksAfter_iff text _).mpr (Or.inl hpair)⟩
      · refine ⟨offset, hlow, hhigh, (breaksAfter_iff text _).mpr ?_⟩
        exact hbreak.imp_right fun hreturn => ⟨hreturn, hpair⟩
    obtain ⟨last, hfrom, hto, hafter⟩ := hcomplete
    exact ⟨last + 1, LineMap.mem_breaks.mpr ⟨last, by omega, hafter, rfl⟩, by omega, hto⟩

/-- Between two offsets there are line breaks, and all of them are carriage
    returns inside comments. -/
def OnlyInComments (w : Window) (start stop : Nat) : Prop :=
  Between start stop (IsBreak w) ∧
    ∀ offset, start ≤ offset → offset < stop → IsBreak w offset →
      w.get? offset = some '\r' ∧ InComment w start offset

/-- A break is noted unless all breaks are carriage returns inside comments. -/
theorem between_noted_iff (start stop : Nat) :
    Between start stop (Noted w start) ↔
      Between start stop (IsBreak w) ∧ ¬ OnlyInComments w start stop := by
  have hnoted {offset : Nat} : Noted w start offset ↔
      IsBreak w offset ∧ ¬ (w.get? offset = some '\r' ∧ InComment w start offset) := by
    unfold Noted IsBreak
    by_cases hfeed : w.get? offset = some '\n'
    · simp [hfeed]
    · by_cases hreturn : w.get? offset = some '\r'
      · simp [hreturn]
      · simp [hfeed, hreturn]
  constructor
  · rintro ⟨offset, hlow, hhigh, h⟩
    obtain ⟨hbreak, hnot⟩ := hnoted.mp h
    refine ⟨⟨offset, hlow, hhigh, hbreak⟩, ?_⟩
    rintro ⟨-, honly⟩
    exact hnot (honly offset hlow hhigh hbreak)
  · rintro ⟨hbetween, hnot⟩
    -- If no break were noted, each of them would be a return inside a comment.
    apply Classical.byContradiction
    intro hnone
    apply hnot
    refine ⟨hbetween, ?_⟩
    intro offset hlow hhigh hbreak
    apply Classical.byContradiction
    intro hfree
    exact hnone ⟨offset, hlow, hhigh, hnoted.mpr ⟨hbreak, hfree⟩⟩

end SelfCapture.Token

/-! ## Section 4: Tokens in a row -/

namespace SelfCapture.Scanner

open Token (Between IsBreak Noted OnlyInComments wholeText)

variable {s : Scanner} {first second : Token}

/-- Of two tokens in a row the second is scanned from where the first was read. -/
theorem exists_scan_of_infix (hs : s.Within) {count : Nat}
    (h : [first, second] <:+: (run count s).map token) :
    ∃ s' : Scanner, s'.Settled ∧ s'.window = s.window ∧ s'.token = first ∧
      s'.scan.token = second := by
  induction count generalizing s with
  | zero => simp [run] at h
  | succ count ih =>
    rw [run] at h
    by_cases hend : s.scan.token.kind = .endOfFile
    · -- After the end of the window nothing is read.
      simp only [hend, beq_self_eq_true, if_true, List.map_cons, List.map_nil] at h
      have hlength := h.length_le
      simp at hlength
    · have hsettled := hs.settled
      simp only [beq_iff_eq, hend, if_false, List.map_cons] at h
      rcases List.infix_cons_iff.mp h with hfirst | hlater
      · obtain ⟨heq, hnext⟩ := List.cons_prefix_cons.mp hfirst
        refine ⟨s.scan, hsettled, rfl, heq.symm, ?_⟩
        cases count with
        | zero => simp [run] at hnext
        | succ count =>
          rw [run] at hnext
          split at hnext
          all_goals
            rw [List.map_cons] at hnext
            exact (List.cons_prefix_cons.mp hnext).1.symm
      · have hrest := ih hsettled.within hlater
        exact hrest

/-- A token that follows another one is marked if it is on a later line,
    unless all that makes it so are carriage returns inside comments; and it
    is marked in no other case. -/
theorem afterLineBreak_iff_later_line {text : String}
    (h : [first, second] <:+: (states text).map token) :
    let line offset := ((LineMap.ofText text).location offset).line
    (second.afterLineBreak = true → line first.stop < line second.pos) ∧
      ((line first.stop < line second.pos → second.afterLineBreak = true) ↔
        ¬ OnlyInComments (wholeText text) first.stop second.pos) := by
  intro line
  obtain ⟨s, hs, hwindow, rfl, rfl⟩ := exists_scan_of_infix (within_ofText text) h
  have hw : s.window = wholeText text := hwindow
  have hle : s.pos ≤ (wholeText text).stop := by
    rw [← hw]
    exact hs.pos_le
  have hgap := Token.gapAt_bounds hle
  have hbefore : s.token.stop = s.pos := hs.pos_eq.symm
  have hpos : s.scan.token.pos = (Token.gapAt (wholeText text) s.pos).stop := by rw [← hw]; rfl
  have hmark : s.scan.token.afterLineBreak = (Token.gapAt (wholeText text) s.pos).lineBreak := by
    rw [← hw]
    rfl
  -- The mark on the token is that of the gap in front of it; the rest is a statement about the gap.
  have hstops := (Token.gapAt_extends (Nat.le_refl _) hle).stops
  rw [hbefore, hpos, hmark, Token.gapAt_lineBreak_iff (Nat.le_refl _) hle, Token.between_noted_iff]
  have hlater : line s.pos < line (Token.gapAt (wholeText text) s.pos).stop ↔
      Between s.pos (Token.gapAt (wholeText text) s.pos).stop (IsBreak (wholeText text)) :=
    Token.line_lt_iff_break hgap.1 hgap.2 (hstops '\n' (by decide))
  rw [hlater]
  constructor
  · exact And.left
  · constructor
    · intro himp honly
      exact (himp honly.1).2 honly
    · intro hnot hbetween
      exact ⟨hbetween, hnot⟩

/-- A carriage return in the comment before the second token, and a line feed
    before the third one. -/
theorem afterLineBreak_iff_later_line_returns :
    let text := "a/*\r*/b\nc"
    let tokens := (states text).map token
    let first : Token := { kind := .identifier, pos := 0, stop := 1 }
    let second : Token := { kind := .identifier, pos := 6, stop := 7, afterBlank := true }
    let third : Token :=
      { kind := .identifier, pos := 8, stop := 9, afterBlank := true, afterLineBreak := true }
    ([first, second] <:+: tokens ∧ [second, third] <:+: tokens) ∧
      OnlyInComments (wholeText text) 1 6 ∧ ¬ OnlyInComments (wholeText text) 7 8 ∧
      ((LineMap.ofText text).location 7).line < ((LineMap.ofText text).location 8).line := by
  intro text tokens first second third
  let last : Token := { kind := .endOfFile, pos := 9, stop := 9 }
  have htokens : tokens = [first, second, third, last] := by decide +kernel
  have hfirst : [first, second] <:+: tokens := by
    rw [htokens]
    exact ⟨[], [third, last], rfl⟩
  have hsecond : [second, third] <:+: tokens := by
    rw [htokens]
    exact ⟨[first], [last], rfl⟩
  obtain ⟨-, hcomment⟩ := afterLineBreak_iff_later_line hfirst
  obtain ⟨hlater, hfeed⟩ := afterLineBreak_iff_later_line hsecond
  refine ⟨⟨hfirst, hsecond⟩, ?_, hfeed.mp fun _ => rfl, hlater rfl⟩
  -- The second token is on a later line, and it is not marked.
  have hline : ((LineMap.ofText text).location 1).line < ((LineMap.ofText text).location 6).line := by
    decide +kernel
  apply Classical.byContradiction
  intro hnot
  have hmark : second.afterLineBreak = true := hcomment.mpr hnot hline
  exact absurd hmark (by decide)

/-- A carriage return inside a comment brings the next token to a later line
    and leaves it unmarked. -/
theorem return_in_comment_unmarked :
    let text := "a/*\r*/b"
    let first : Token := { kind := .identifier, pos := 0, stop := 1 }
    let second : Token := { kind := .identifier, pos := 6, stop := 7, afterBlank := true }
    [first, second] <:+: (states text).map token ∧
      ((LineMap.ofText text).location first.stop).line <
        ((LineMap.ofText text).location second.pos).line ∧
      second.afterLineBreak = false := by
  intro text first second
  let last : Token := { kind := .endOfFile, pos := 7, stop := 7 }
  have htokens : (states text).map token = [first, second, last] := by decide +kernel
  refine ⟨?_, by decide +kernel, rfl⟩
  rw [htokens]
  exact ⟨[], [last], rfl⟩

end SelfCapture.Scanner
