import SelfCapture.Grammar.Phrase
import SelfCapture.Grammar.Speculation
import SelfCapture.Proofs.Token.Extent
import SelfCapture.Proofs.Tree.Growth

/-! # Derivations

  `Derives` says what reading can do to the state, whichever rules of the
  grammar are at work: consume a token, report an issue, make a node of
  what has been read, read under another context or one level deeper, and
  read the expressions inside a string literal.  `Reads s ids s'` is a
  derivation from `s` to `s'` that leaves the new nodes `ids`, in the order
  of the text, for an enclosing construct to take.

  Every rule of the grammar is shown to be a derivation, once.  What holds
  of all readings is then shown by induction over derivations; this module
  shows that they keep the surroundings of the state, move on in the text,
  and let the tree grow.  So a derivation can be undone, `Derives.rewind_eq`.
-/

namespace SelfCapture.Grammar

open Token (Kind)

/-! ## Section 1: Steps of reading -/

namespace State

/-- The kind of the current token. -/
abbrev kind (s : State) : Kind := s.scanner.token.kind

/-- Offset of the current token. -/
abbrev offset (s : State) : Nat := s.scanner.token.pos

/-- A token has been read. -/
abbrev Settled (s : State) : Prop := s.scanner.Settled

/-- Number of bytes from the current token to the end of the text.  Inside
    a string literal this is less than at the literal. -/
def ahead (s : State) : Nat := s.scanner.bytes.size - s.offset

/-- The state after the current token has been consumed. -/
def advanced (s : State) : State :=
  { s with previousStop := s.scanner.token.stop, scanner := s.scanner.scan }

/-- The state after an issue has been recorded. -/
def reported (s : State) (issue : Issue) : State :=
  if s.lastIssueAt == some s.offset then s
  else
    { s with
      lastIssueAt := some s.offset
      diagnostics :=
        s.diagnostics.push ⟨s.offset, s.scanner.token.stop - s.offset, issue⟩ }

theorem scanner_reported (s : State) (issue : Issue) : (s.reported issue).scanner = s.scanner := by
  unfold reported
  split
  · rfl
  · rfl

/-- The state after a node has been made. -/
def made (s : State) (form : Form) (pos stop : Nat) : State :=
  { s with tree := s.tree.add form pos stop }

/-- The state under another context. -/
def under (s : State) (context : Context) : State := { s with context }

/-- The state one level deeper. -/
def deeper (s : State) : State := { s with depth := s.depth + 1 }

/-- The state one level up. -/
def shallower (s : State) : State := { s with depth := s.depth - 1 }

/-- The state at the first token of an interpolated expression. -/
def entered (s : State) (segment : Segment) : State :=
  { s with scanner := s.scanner.restrict segment.start segment.stop }.advanced

/-- The state back at the literal, after its interpolated expressions. -/
def returned (s literal : State) : State :=
  { s with
    scanner := s.scanner.restore literal.scanner.save
    previousStop := literal.previousStop }

end State

/-! ## Section 2: Derivations -/

/-- What a derivation reads. -/
inductive Task where
  /-- Tokens of the current window. -/
  | tokens
  /-- The expressions in the given places, each in its own window. -/
  | windows (segments : List Segment)

/-- Reading takes the first state to the second and leaves some new nodes. -/
inductive Derives : Task → State → List Nat → State → Prop where
  | stay {s : State} (hs : s.Settled) : Derives .tokens s [] s
  | advance {s : State} (hs : s.Settled) : Derives .tokens s [] s.advanced
  | report {s : State} (hs : s.Settled) (issue : Issue) : Derives .tokens s [] (s.reported issue)
  | append {s s₁ s₂ : State} {ids more : List Nat} (h : Derives .tokens s ids s₁)
      (h' : Derives .tokens s₁ more s₂) : Derives .tokens s (ids ++ more) s₂
  /-- The new nodes are not used. -/
  | forget {s s₁ : State} {ids : List Nat} (h : Derives .tokens s ids s₁) :
      Derives .tokens s [] s₁
  /-- A node from the first token read to the last. -/
  | finish {s s₁ : State} {form : Form} (h : Derives .tokens s form.children s₁)
      (hfits : s₁.tree.Fits form) :
      Derives .tokens s [s₁.tree.nextId]
        (s₁.made form s.offset (max s₁.previousStop s.offset))
  /-- A closure, whose parts come after its brace. -/
  | closure {s s₁ : State} {captures : List Nat} {parameters : ClosureParameters}
      {result : Option Nat} {statements : List Nat} (hs : s.Settled)
      (hbrace : s.kind = .openBrace)
      (h : Derives .tokens s.advanced
        (Form.closure captures parameters result statements).children s₁) :
      Derives .tokens s [s₁.tree.nextId]
        (s₁.made (.closure captures parameters result statements) s.offset
          (max s₁.previousStop s.offset))
  | name {s : State} (hs : s.Settled) :
      Derives .tokens s [s.tree.nextId]
        (s.advanced.made (.identifier s.kind) s.offset s.scanner.token.stop)
  | missing {s : State} (hs : s.Settled) :
      Derives .tokens s [s.tree.nextId] (s.made .missing s.offset s.offset)
  | under {s s₁ : State} {ids : List Nat} (context : Context)
      (h : Derives .tokens (s.under context) ids s₁) :
      Derives .tokens s ids (s₁.under s.context)
  | deeper {s s₁ : State} {ids : List Nat} (hdepth : s.depth < maxDepth)
      (h : Derives .tokens s.deeper ids s₁) : Derives .tokens s ids s₁.shallower
  /-- A string literal, after the expressions in it. -/
  | interpolate {s s₁ : State} {ids : List Nat} (hs : s.Settled)
      (h : Derives (.windows s.scanner.segments) s ids s₁) :
      Derives .tokens s ids (s₁.returned s).advanced
  | noWindow (s : State) : Derives (.windows []) s [] s
  | window {s s₁ s₂ : State} {segment : Segment} {rest : List Segment} {ids more : List Nat}
      (h : Derives .tokens (s.entered segment) ids s₁)
      (h' : Derives (.windows rest) s₁ more s₂) :
      Derives (.windows (segment :: rest)) s (ids ++ more) s₂

/-- A derivation within one window. -/
abbrev Reads (s : State) (ids : List Nat) (s' : State) : Prop := Derives .tokens s ids s'

/-! ## Section 3: What reading keeps -/

/-- What no derivation changes, and what it only adds to. -/
structure Keeps (s s' : State) : Prop where
  bytes_eq : s'.scanner.bytes = s.scanner.bytes
  context_eq : s'.context = s.context
  depth_eq : s'.depth = s.depth
  exhausted_eq : s'.exhausted = s.exhausted
  diagnostics : s.diagnostics.toList <+: s'.diagnostics.toList
  scanned : s.scanner.diagnostics.toList <+: s'.scanner.diagnostics.toList

namespace Keeps

theorem refl (s : State) : Keeps s s :=
  ⟨rfl, rfl, rfl, rfl, List.prefix_refl _, List.prefix_refl _⟩

theorem trans {s s₁ s₂ : State} (h : Keeps s s₁) (h' : Keeps s₁ s₂) : Keeps s s₂ where
  bytes_eq := h'.bytes_eq.trans h.bytes_eq
  context_eq := h'.context_eq.trans h.context_eq
  depth_eq := h'.depth_eq.trans h.depth_eq
  exhausted_eq := h'.exhausted_eq.trans h.exhausted_eq
  diagnostics := h.diagnostics.trans h'.diagnostics
  scanned := h.scanned.trans h'.scanned

theorem advanced (s : State) : Keeps s s.advanced where
  bytes_eq := rfl
  context_eq := rfl
  depth_eq := rfl
  exhausted_eq := rfl
  diagnostics := List.prefix_refl _
  scanned := by
    simp only [State.advanced, Scanner.scan]
    split
    · rw [Array.toList_push]
      exact List.prefix_append _ _
    · exact List.prefix_refl _

theorem reported (s : State) (issue : Issue) : Keeps s (s.reported issue) := by
  unfold State.reported
  split
  · exact refl s
  · refine ⟨rfl, rfl, rfl, rfl, ?_, List.prefix_refl _⟩
    rw [Array.toList_push]
    exact List.prefix_append _ _

theorem made (s : State) (form : Form) (pos stop : Nat) : Keeps s (s.made form pos stop) :=
  ⟨rfl, rfl, rfl, rfl, List.prefix_refl _, List.prefix_refl _⟩

/-- Dropping what an array has gained gives it back. -/
theorem shrink_eq {α : Type} {xs ys : Array α} (h : xs.toList <+: ys.toList) :
    ys.shrink xs.size = xs := by
  apply Array.toList_inj.mp
  rw [Array.toList_shrink, ← Array.length_toList]
  exact (List.prefix_iff_eq_take.mp h).symm

theorem restore_eq {s s' : State} (h : Keeps s s') :
    s'.scanner.restore s.scanner.save = s.scanner := by
  simp only [Scanner.restore, Scanner.save, h.bytes_eq, shrink_eq h.scanned]

end Keeps

theorem Derives.keeps {task : Task} {s s' : State} {ids : List Nat}
    (h : Derives task s ids s') : Keeps s s' := by
  induction h with
  | stay _ => exact .refl _
  | advance _ => exact .advanced _
  | report _ issue => exact .reported _ issue
  | append _ _ ih ih' => exact ih.trans ih'
  | forget _ ih => exact ih
  | finish _ _ ih => exact ih.trans (.made ..)
  | closure _ _ _ ih => exact ((Keeps.advanced _).trans ih).trans (.made ..)
  | name _ => exact (Keeps.advanced _).trans (.made ..)
  | missing _ => exact .made ..
  | under context _ ih =>
    -- The context is put back at the end, whatever it was in between.
    exact ⟨ih.bytes_eq, rfl, ih.depth_eq, ih.exhausted_eq, ih.diagnostics, ih.scanned⟩
  | deeper _ _ ih =>
    refine ⟨ih.bytes_eq, ih.context_eq, ?_, ih.exhausted_eq, ih.diagnostics, ih.scanned⟩
    have hdepth := ih.depth_eq
    simp only [State.deeper] at hdepth
    simp only [State.shallower, hdepth, Nat.add_sub_cancel]
  | @interpolate s s₁ ids _ _ ih =>
    -- What the windows have added to the scanner is dropped on the way back.
    have hback : Keeps s (s₁.returned s) := by
      refine ⟨ih.bytes_eq, ih.context_eq, ih.depth_eq, ih.exhausted_eq, ih.diagnostics, ?_⟩
      simp only [State.returned, ih.restore_eq]
      exact List.prefix_refl _
    exact hback.trans (.advanced _)
  | noWindow => exact .refl _
  | @window s s₁ s₂ segment rest ids more _ _ ih ih' =>
    have hrestrict : Keeps s
        { s with scanner := s.scanner.restrict segment.start segment.stop } :=
      ⟨rfl, rfl, rfl, rfl, List.prefix_refl _, List.prefix_refl _⟩
    exact ((hrestrict.trans (.advanced _)).trans ih).trans ih'

/-! ## Section 4: Moving on in the text -/

/-- The second state is at or after the token of the first one, in the same window. -/
structure Onward (s s' : State) : Prop where
  start : s.Settled
  settled : s'.Settled
  stop_eq : s'.scanner.stop = s.scanner.stop
  offset_le : s.offset ≤ s'.offset

namespace Onward

theorem advanced {s : State} (hs : s.Settled) : Onward s s.advanced where
  start := hs
  settled := hs.scan
  stop_eq := rfl
  offset_le := Nat.le_trans hs.token_le hs.stop_le_scan

theorem reported {s : State} (hs : s.Settled) (issue : Issue) : Onward s (s.reported issue) := by
  have hscanner := s.scanner_reported issue
  refine ⟨hs, ?_, ?_, ?_⟩
  · rw [State.Settled, hscanner]
    exact hs
  · rw [hscanner]
  · exact Nat.le_of_eq (congrArg (·.token.pos) hscanner.symm)

theorem trans {s s₁ s₂ : State} (h : Onward s s₁) (h' : Onward s₁ s₂) : Onward s s₂ where
  start := h.start
  settled := h'.settled
  stop_eq := h'.stop_eq.trans h.stop_eq
  offset_le := Nat.le_trans h.offset_le h'.offset_le

end Onward

/-- A token other than the end is left behind when it is consumed. -/
theorem State.Settled.offset_lt {s : State} (hs : s.Settled) (h : s.kind ≠ .endOfFile) :
    s.offset < s.advanced.offset :=
  Nat.lt_of_lt_of_le (hs.covers h) hs.stop_le_scan

theorem Derives.onward {task : Task} {s s' : State} {ids : List Nat} (h : Derives task s ids s')
    (htask : task = .tokens) : Onward s s' := by
  induction h with
  | stay hs => exact ⟨hs, hs, rfl, Nat.le_refl _⟩
  | advance hs => exact .advanced hs
  | report hs issue => exact .reported hs issue
  | append _ _ ih ih' => exact (ih rfl).trans (ih' rfl)
  | forget _ ih => exact ih rfl
  | finish _ _ ih => exact ⟨(ih rfl).start, (ih rfl).settled, (ih rfl).stop_eq, (ih rfl).offset_le⟩
  | closure hs _ _ ih =>
    have hbody := (Onward.advanced hs).trans (ih rfl)
    exact ⟨hs, hbody.settled, hbody.stop_eq, hbody.offset_le⟩
  | name hs =>
    have hnext := Onward.advanced hs
    exact ⟨hs, hnext.settled, hnext.stop_eq, hnext.offset_le⟩
  | missing hs => exact ⟨hs, hs, rfl, Nat.le_refl _⟩
  | under _ _ ih => exact ⟨(ih rfl).start, (ih rfl).settled, (ih rfl).stop_eq, (ih rfl).offset_le⟩
  | deeper _ _ ih => exact ⟨(ih rfl).start, (ih rfl).settled, (ih rfl).stop_eq, (ih rfl).offset_le⟩
  | @interpolate s s₁ ids hs h _ =>
    -- Inside the windows the offset goes back; coming out, the scanner is at
    -- the literal again.
    have hback : (s₁.returned s).scanner = s.scanner := h.keeps.restore_eq
    have hsettled : (s₁.returned s).Settled := by
      rw [State.Settled, hback]
      exact hs
    have hnext := Onward.advanced hsettled
    refine ⟨hs, hnext.settled, ?_, ?_⟩
    · rw [hnext.stop_eq, hback]
    · have hle := hnext.offset_le
      rw [State.offset, hback] at hle
      exact hle
  | noWindow => cases htask
  | window => cases htask

namespace Derives

variable {s s₁ s₂ : State} {ids more : List Nat}

/-- What is read after the nodes and makes none. -/
theorem skip (h : Reads s ids s₁) (h' : Reads s₁ [] s₂) : Reads s ids s₂ := by
  have hall := h.append h'
  rw [List.append_nil] at hall
  exact hall

theorem start (h : Reads s ids s₁) : s.Settled := (h.onward rfl).start

theorem settled (h : Reads s ids s₁) : s₁.Settled := (h.onward rfl).settled

theorem stop_eq (h : Reads s ids s₁) : s₁.scanner.stop = s.scanner.stop := (h.onward rfl).stop_eq

theorem offset_le (h : Reads s ids s₁) : s.offset ≤ s₁.offset := (h.onward rfl).offset_le

/-- What was left behind before stays behind. -/
theorem offset_lt {s₀ : State} (h : Reads s ids s₁) (hlt : s₀.offset < s.offset) :
    s₀.offset < s₁.offset :=
  Nat.lt_of_lt_of_le hlt h.offset_le

theorem ahead_le (h : Reads s ids s₁) : s₁.ahead ≤ s.ahead := by
  rw [State.ahead, State.ahead, h.keeps.bytes_eq]
  exact Nat.sub_le_sub_left h.offset_le _

/-- Progress in the text leaves less ahead. -/
theorem ahead_lt (h : Reads s ids s₁) (hlt : s.offset < s₁.offset) : s₁.ahead < s.ahead := by
  have hle := Nat.le_trans h.settled.token_pos_le h.settled.stop_le
  rw [h.keeps.bytes_eq] at hle
  rw [State.ahead, State.ahead, h.keeps.bytes_eq]
  exact Nat.sub_lt_sub_left (Nat.lt_of_lt_of_le hlt hle) hlt

theorem offset_lt_of_ne (h : Reads s ids s₁) (hne : s₁.offset ≠ s.offset) : s.offset < s₁.offset :=
  Nat.lt_of_le_of_ne h.offset_le (Ne.symm hne)

end Derives

theorem State.entered_settled (s : State) (segment : Segment) : (s.entered segment).Settled :=
  Scanner.scan_settled (Nat.min_le_right _ _) (Nat.min_le_right _ _)

/-- An interpolated expression is read from its start on. -/
theorem State.le_offset_entered (s : State) {segment : Segment}
    (hle : segment.start ≤ segment.stop) (hstop : segment.stop ≤ s.scanner.bytes.size) :
    segment.start ≤ (s.entered segment).offset := by
  have hpos : (s.scanner.restrict segment.start segment.stop).pos = segment.start := by
    simp only [Scanner.restrict, Nat.min_eq_left hstop, Nat.min_eq_left hle]
  rw [← hpos]
  exact Scanner.le_scan_pos (Nat.min_le_right _ _)

theorem State.stop_entered_le (s : State) (segment : Segment) :
    (s.entered segment).scanner.stop ≤ segment.stop :=
  Nat.min_le_left _ _

/-- What is read in a window stays before its end. -/
theorem Derives.offset_le_window {s s₁ : State} {segment : Segment} {ids : List Nat}
    (h : Reads (s.entered segment) ids s₁) : s₁.offset ≤ segment.stop := by
  have hend := s.stop_entered_le segment
  rw [← h.stop_eq] at hend
  exact Nat.le_trans h.settled.token_pos_le hend

/-- The windows of a literal lie inside it, and the next token is after it. -/
theorem Derives.stop_le_returned {s s₁ : State} {task : Task} {ids : List Nat} (hs : s.Settled)
    (h : Derives task s ids s₁) : s.scanner.token.stop ≤ (s₁.returned s).advanced.offset := by
  have hback : (s₁.returned s).scanner = s.scanner := h.keeps.restore_eq
  rw [State.offset, State.advanced, hback]
  exact hs.stop_le_scan

/-! ## Section 5: The tree -/

theorem Derives.grows {task : Task} {s s' : State} {ids : List Nat}
    (h : Derives task s ids s') : s.tree.Grows ids s'.tree := by
  induction h with
  | stay _ | advance _ => exact .refl _
  | @report s _ issue =>
    have htree : (s.reported issue).tree = s.tree := by
      unfold State.reported
      split
      · rfl
      · rfl
    rw [htree]
    exact .refl _
  | append _ _ ih ih' => exact ih.append ih'
  | forget _ ih => exact ih.forget
  | finish _ _ ih => exact ih.add
  | closure _ _ _ ih => exact Tree.Grows.add ih
  | name _ | missing _ =>
    -- A node without children is made of nothing.
    refine Tree.Grows.add ?_
    exact .refl _
  | under _ _ ih => exact ih
  | deeper _ _ ih => exact ih
  | interpolate _ _ ih => exact ih
  | noWindow => exact .refl _
  | window _ _ ih ih' => exact Tree.Grows.append ih ih'

/-- The byte at an opening brace. -/
theorem State.Settled.byte_eq {s : State} (hs : s.Settled) (h : s.kind = .openBrace) :
    s.scanner.bytes[s.offset]? = some 0x7B := by
  have hget := hs.brace h
  rw [Window.get?, if_pos (Window.lt_stop_of_get? hget), Option.map_eq_some_iff] at hget
  obtain ⟨byte, hbyte, hchar⟩ := hget
  have hval : byte.toNat = 0x7B := by
    rw [← Text.toNat_ofUInt8, hchar]
    rfl
  exact hbyte.trans (congrArg some (UInt8.toNat_inj.mp hval))

theorem Derives.sound {task : Task} {s s' : State} {ids : List Nat} (h : Derives task s ids s')
    (hbytes : s.tree.bytes = s.scanner.bytes) (hs : s.tree.Sound) : s'.tree.Sound := by
  induction h with
  | stay _ | advance _ => exact hs
  | @report s _ issue =>
    unfold State.reported
    split
    · exact hs
    · exact hs
  | append h _ ih ih' =>
    -- Tree and scanner read the same bytes, which neither of them changes.
    refine ih' ?_ (ih hbytes hs)
    rw [h.grows.bytes_eq, h.keeps.bytes_eq, hbytes]
  | forget _ ih => exact ih hbytes hs
  | finish _ hfits ih => exact (ih hbytes hs).add_fits hfits
  | @closure s _ _ _ _ _ hsettled hbrace h ih =>
    -- This is the only rule that makes a closure, and it starts at a brace.
    refine (ih hbytes hs).add ?_ ?_
    · intro _ _ _ _ hform
      cases hform
    · intro _ _ _ _ _
      have htree := h.grows.bytes_eq
      rw [htree]
      exact (congrArg (·[s.offset]?) hbytes).trans (hsettled.byte_eq hbrace)
  | name _ | missing _ =>
    refine Tree.Sound.add_fits hs ?_
    exact trivial
  | under _ _ ih => exact ih hbytes hs
  | deeper _ _ ih => exact ih hbytes hs
  | interpolate _ _ ih => exact ih hbytes hs
  | noWindow => exact hs
  | window h _ ih ih' =>
    refine ih' ?_ (ih hbytes hs)
    rw [h.grows.bytes_eq, h.keeps.bytes_eq]
    exact hbytes

/-! ## Section 6: Coming back -/

/-- Going back to where a reading started undoes it. -/
theorem Derives.rewind_eq {s s' : State} {ids : List Nat} (h : Reads s ids s') :
    s'.rewind s.save = s := by
  have hkeeps := h.keeps
  have htree : s'.tree.truncate s.tree.nodes.size = s.tree := h.grows.truncate
  simp only [State.rewind, State.save, hkeeps.restore_eq, htree,
    Keeps.shrink_eq hkeeps.diagnostics, hkeeps.depth_eq, hkeeps.exhausted_eq]

end SelfCapture.Grammar
