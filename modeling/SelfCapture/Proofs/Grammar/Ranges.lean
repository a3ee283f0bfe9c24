import Mathlib.Data.List.Basic
import SelfCapture.Proofs.Grammar.SourceFile
import SelfCapture.Proofs.Token.Alignment

/-! # Ranges of nodes

  The new nodes of a derivation stand in a row: one after the other, from
  the first token read on, and none reaches over the token after the last
  one.  A node that is not empty ends with a token that has been consumed,
  so it also ends where the last consumed token does, or before.  An empty
  node may stand after that, at the token where something was missing.

  A node is made of such a row, so its children stand in a row from its
  start on; those that are not empty end inside it.  This holds of every
  node of a tree, `Tree.InRows`.

  All offsets come from the scanner, so they lie between characters of the
  text; `Derives.aligned` shows this by another induction.
-/

namespace SelfCapture

/-! ## Section 1: Rows -/

/-- The ranges follow each other between `low` and `high`; those that are
    not empty end at `mark` or before. -/
structure InRow (low : Nat) (ranges : List (Nat × Nat)) (mark high : Nat) : Prop where
  pairwise : ranges.Pairwise fun a b => a.2 ≤ b.1
  low_le : ∀ {r}, r ∈ ranges → low ≤ r.1
  le : ∀ {r}, r ∈ ranges → r.1 ≤ r.2
  le_high : ∀ {r}, r ∈ ranges → r.2 ≤ high
  le_mark : ∀ {r}, r ∈ ranges → r.1 < r.2 → r.2 ≤ mark

namespace InRow

variable {low low' mark mark' high high' pos stop : Nat} {xs ys : List (Nat × Nat)}

theorem nil (low mark high : Nat) : InRow low [] mark high :=
  ⟨List.Pairwise.nil, nofun, nofun, nofun, nofun⟩

theorem single (hlow : low ≤ pos) (hle : pos ≤ stop) (hhigh : stop ≤ high)
    (hmark : pos < stop → stop ≤ mark) : InRow low [(pos, stop)] mark high where
  pairwise := List.pairwise_singleton ..
  low_le := fun hmem => List.mem_singleton.mp hmem ▸ hlow
  le := fun hmem => List.mem_singleton.mp hmem ▸ hle
  le_high := fun hmem => List.mem_singleton.mp hmem ▸ hhigh
  le_mark := fun hmem => List.mem_singleton.mp hmem ▸ hmark

theorem mono (h : InRow low xs mark high) (hlow : low' ≤ low) (hmark : mark ≤ mark')
    (hhigh : high ≤ high') : InRow low' xs mark' high' where
  pairwise := h.pairwise
  low_le := fun hmem => Nat.le_trans hlow (h.low_le hmem)
  le := h.le
  le_high := fun hmem => Nat.le_trans (h.le_high hmem) hhigh
  le_mark := fun hmem hlt => Nat.le_trans (h.le_mark hmem hlt) hmark

/-- A row that starts where another one has ended continues it. -/
theorem append (h : InRow low xs mark high) (h' : InRow low' ys mark' high') (hlow : low ≤ low')
    (hmeet : high ≤ low') (hmark : mark ≤ mark') (hhigh : high ≤ high') :
    InRow low (xs ++ ys) mark' high' := by
  have hfirst := h.mono (Nat.le_refl low) hmark hhigh
  have hsecond := h'.mono hlow (Nat.le_refl mark') (Nat.le_refl high')
  constructor
  · refine List.pairwise_append.mpr ⟨h.pairwise, h'.pairwise, fun x hx y hy => ?_⟩
    exact Nat.le_trans (h.le_high hx) (Nat.le_trans hmeet (h'.low_le hy))
  · intro r hmem
    exact (List.mem_append.mp hmem).elim hfirst.low_le hsecond.low_le
  · intro r hmem
    exact (List.mem_append.mp hmem).elim hfirst.le hsecond.le
  · intro r hmem
    exact (List.mem_append.mp hmem).elim hfirst.le_high hsecond.le_high
  · intro r hmem
    exact (List.mem_append.mp hmem).elim hfirst.le_mark hsecond.le_mark

end InRow

/-! ## Section 2: Ranges in a tree -/

namespace Tree

variable {t t' : Tree} {ids more : List Nat} {form : Form} {pos stop : Nat}

/-- Where a node starts and ends. -/
def range? (t : Tree) (id : Nat) : Option (Nat × Nat) :=
  (t.get? id).map fun node => (node.pos, node.stop)

/-- Where some nodes start and end. -/
def ranges (t : Tree) (ids : List Nat) : List (Nat × Nat) := ids.filterMap t.range?

theorem range?_add (t : Tree) (form : Form) (pos stop id : Nat) :
    (t.add form pos stop).range? id =
      if id = t.nextId then some (pos, max stop pos) else t.range? id := by
  rw [range?, get?_add]
  split
  · rfl
  · -- Adoption changes the parent and leaves the range.
    rw [range?]
    cases t.get? id with
    | none => rfl
    | some node =>
      simp only [Option.map_some]
      split
      · rfl
      · rfl

theorem ranges_append (t : Tree) (ids more : List Nat) :
    t.ranges (ids ++ more) = t.ranges ids ++ t.ranges more := List.filterMap_append

theorem ranges_congr (h : ∀ id ∈ ids, t'.range? id = t.range? id) :
    t'.ranges ids = t.ranges ids := List.filterMap_congr h

theorem Grows.ranges_eq (h : Grows t more t') (hids : ∀ {id}, id ∈ ids → id < t.nextId) :
    t'.ranges ids = t.ranges ids :=
  ranges_congr fun id hid => by rw [range?, range?, h.kept (hids hid)]

theorem ranges_made : (t.add form pos stop).ranges [t.nextId] = [(pos, max stop pos)] := by
  simp [ranges, range?_add]

/-- The children of every node stand in a row from its start on, in which
    those that are not empty end inside the node. -/
structure InRows (t : Tree) : Prop where
  row : ∀ {id : Nat} {node : Node}, t.get? id = some node →
    InRow node.pos (t.ranges (t.children id)) node.stop t.bytes.size

theorem inRows_empty (bytes : ByteArray) : (Tree.mk bytes #[]).InRows := ⟨nofun⟩

theorem InRows.add (h : t.InRows) (hlinked : t.Linked)
    (hlt : ∀ {child}, child ∈ form.children → child < t.nextId)
    (hrow : InRow pos (t.ranges form.children) (max stop pos) t.bytes.size) :
    (t.add form pos stop).InRows := by
  refine ⟨fun {id node} hnode => ?_⟩
  have hsame {ids : List Nat} (hids : ∀ id ∈ ids, id < t.nextId) :
      (t.add form pos stop).ranges ids = t.ranges ids := by
    refine ranges_congr fun id hid => ?_
    rw [range?_add, if_neg (Nat.ne_of_lt (hids id hid))]
  rw [children_add]
  by_cases hid : id = t.nextId
  · rw [get?_add, if_pos hid] at hnode
    rw [if_pos hid, hsame fun child => hlt, ← Option.some.inj hnode]
    exact hrow
  · -- An earlier node keeps its place and its children.
    rw [get?_add, if_neg hid, Option.map_eq_some_iff] at hnode
    obtain ⟨old, hold, hnode⟩ := hnode
    have hplace : node.pos = old.pos ∧ node.stop = old.stop := by
      rw [← hnode]
      split
      · exact ⟨rfl, rfl⟩
      · exact ⟨rfl, rfl⟩
    have hbelow := lt_nextId_of_get? hold
    rw [if_neg hid, hplace.1, hplace.2]
    rw [hsame fun child hchild => Nat.lt_trans (hlinked.child_lt hchild) hbelow]
    exact h.row hold

/-- Every node starts and ends between characters of the text. -/
structure Aligned (text : String) (t : Tree) : Prop where
  ends : ∀ {id : Nat} {r : Nat × Nat}, t.range? id = some r →
    Text.Aligned text r.1 ∧ Text.Aligned text r.2 ∧ r.1 ≤ r.2

theorem aligned_empty (text : String) (bytes : ByteArray) :
    (Tree.mk bytes #[]).Aligned text := ⟨nofun⟩

theorem Aligned.add {text : String} (h : t.Aligned text) (hpos : Text.Aligned text pos)
    (hstop : Text.Aligned text stop) : (t.add form pos stop).Aligned text := by
  refine ⟨fun {id r} hr => ?_⟩
  rw [range?_add] at hr
  split at hr
  · rw [← Option.some.inj hr]
    exact ⟨hpos, hstop.max hpos, Nat.le_max_right ..⟩
  · exact h.ends hr

end Tree

namespace Grammar

/-! ## Section 3: Derivations -/

/-- The last token consumed in the window ends before the current one. -/
def State.Behind (s : State) : Prop := s.previousStop ≤ s.offset

theorem State.advanced_behind {s : State} (hs : s.Settled) : s.advanced.Behind :=
  hs.stop_le_scan

theorem State.entered_behind (s : State) (segment : Segment) : (s.entered segment).Behind :=
  Nat.zero_le _

/-- In a window the end of the last consumed token only moves on. -/
theorem Derives.previousStop_le {task : Task} {s s' : State} {ids : List Nat}
    (h : Derives task s ids s') (htask : task = .tokens) (hs : s.Behind) :
    s.previousStop ≤ s'.previousStop ∧ s'.Behind := by
  have hstep {s : State} (hsettled : s.Settled) (hs : s.Behind) :
      s.previousStop ≤ s.advanced.previousStop ∧ s.advanced.Behind :=
    ⟨Nat.le_trans hs hsettled.token_le, State.advanced_behind hsettled⟩
  induction h with
  | stay => exact ⟨Nat.le_refl _, hs⟩
  | advance hsettled => exact hstep hsettled hs
  | report _ issue =>
    unfold State.reported
    split
    · exact ⟨Nat.le_refl _, hs⟩
    · exact ⟨Nat.le_refl _, hs⟩
  | append _ _ ih ih' =>
    obtain ⟨hle, hmid⟩ := ih rfl hs
    obtain ⟨hle', hend⟩ := ih' rfl hmid
    exact ⟨Nat.le_trans hle hle', hend⟩
  | forget _ ih => exact ih rfl hs
  | finish _ _ ih => exact ih rfl hs
  | closure hsettled _ _ ih =>
    obtain ⟨hle, hmid⟩ := hstep hsettled hs
    obtain ⟨hle', hend⟩ := ih rfl hmid
    exact ⟨Nat.le_trans hle hle', hend⟩
  | name hsettled => exact hstep hsettled hs
  | missing => exact ⟨Nat.le_refl _, hs⟩
  | under _ _ ih => exact ih rfl hs
  | deeper _ _ ih => exact ih rfl hs
  | @interpolate s s₁ ids hsettled h _ =>
    -- What the windows made of it is put back before the literal is consumed.
    have hback : (s₁.returned s).scanner = s.scanner := h.keeps.restore_eq
    have hsettled' : (s₁.returned s).Settled := by
      rw [State.Settled, hback]
      exact hsettled
    have hbehind : (s₁.returned s).Behind := by
      rw [State.Behind, State.offset, hback]
      exact hs
    exact hstep hsettled' hbehind
  | noWindow => cases htask
  | window => cases htask

/-- Where the new nodes of a derivation stand: its tokens lie between `low`
    and `high` and end at `mark`, or the windows that it reads do. -/
def Task.Rows (task : Task) (s s' : State) (low mark high : Nat) : Prop :=
  match task with
  | .tokens => s.Behind ∧ low ≤ s.offset ∧ s'.previousStop ≤ mark ∧ s'.offset ≤ high
  | .windows segments =>
    Token.Inside low segments mark ∧ mark ≤ s.scanner.bytes.size ∧ mark ≤ high

theorem State.inRow_made {s : State} {form : Form} {pos stop low mark high : Nat}
    (hlow : low ≤ pos) (hhigh : max stop pos ≤ high) (hmark : pos < stop → stop ≤ mark) :
    InRow low ((s.made form pos stop).tree.ranges [s.tree.nextId]) mark high := by
  rw [State.made, Tree.ranges_made]
  refine .single hlow (Nat.le_max_right ..) hhigh fun hlt => ?_
  have hstop := hmark (by omega)
  omega

theorem Derives.inRow {task : Task} {s s' : State} {ids : List Nat} (h : Derives task s ids s')
    {low mark high : Nat} (hrows : task.Rows s s' low mark high) :
    InRow low (s'.tree.ranges ids) mark high := by
  induction h generalizing low mark high with
  | stay _ | advance _ | report _ _ | forget _ _ | noWindow _ => exact .nil _ _ _
  | @append s s₁ s₂ ids more h h' ih ih' =>
    -- The second row starts at the token that the first one has come to.
    obtain ⟨hs, hlow, hmark, hhigh⟩ := hrows
    obtain ⟨-, hmid⟩ := h.previousStop_le rfl hs
    obtain ⟨hle, -⟩ := h'.previousStop_le rfl hmid
    have hkept : s₂.tree.ranges ids = s₁.tree.ranges ids :=
      h'.grows.ranges_eq fun hid => (h.grows.new hid).2
    rw [Tree.ranges_append, hkept]
    have hoffset := h.offset_le
    have hoffset' := h'.offset_le
    exact (ih ⟨hs, hlow, Nat.le_refl _, Nat.le_refl _⟩).append
      (ih' ⟨hmid, Nat.le_refl _, hmark, hhigh⟩) (by omega) (Nat.le_refl _) (by omega) (by omega)
  | @finish s s₁ form h hfits ih =>
    obtain ⟨hs, hlow, hmark, hhigh⟩ := hrows
    have hmark : s₁.previousStop ≤ mark := hmark
    have hhigh : s₁.offset ≤ high := hhigh
    have hend : s₁.previousStop ≤ s₁.offset := (h.previousStop_le rfl hs).2
    have hoffset := h.offset_le
    exact State.inRow_made hlow (by omega) (by omega)
  | @closure s s₁ captures parameters result statements hsettled hbrace h ih =>
    obtain ⟨hs, hlow, hmark, hhigh⟩ := hrows
    have hmark : s₁.previousStop ≤ mark := hmark
    have hhigh : s₁.offset ≤ high := hhigh
    have hend : s₁.previousStop ≤ s₁.offset :=
      (h.previousStop_le rfl (State.advanced_behind hsettled)).2
    have hoffset := Nat.le_trans (Onward.advanced hsettled).offset_le h.offset_le
    exact State.inRow_made hlow (by omega) (by omega)
  | @name s hsettled =>
    obtain ⟨hs, hlow, hmark, hhigh⟩ := hrows
    have hhigh : s.advanced.offset ≤ high := hhigh
    have hnext : s.scanner.token.stop ≤ s.advanced.offset := hsettled.stop_le_scan
    have hself : s.offset ≤ s.scanner.token.stop := hsettled.token_le
    exact State.inRow_made hlow (by omega) fun _ => hmark
  | @missing s hsettled =>
    obtain ⟨hs, hlow, hmark, hhigh⟩ := hrows
    have hhigh : s.offset ≤ high := hhigh
    exact State.inRow_made hlow (by omega) (by omega)
  | under _ _ ih => exact ih hrows
  | deeper _ _ ih => exact ih hrows
  | @interpolate s s₁ ids hsettled h ih =>
    -- The windows lie inside the literal, which ends where it is consumed.
    obtain ⟨hs, hlow, hmark, hhigh⟩ := hrows
    have hbound := Nat.le_trans hsettled.token_stop_le hsettled.stop_le
    have hnext := h.stop_le_returned hsettled
    have hstop : (s₁.returned s).advanced.previousStop = s.scanner.token.stop :=
      congrArg (·.token.stop) h.keeps.restore_eq
    rw [hstop] at hmark
    exact (ih ⟨hsettled.inside, hbound, Nat.le_refl _⟩).mono hlow hmark (Nat.le_trans hnext hhigh)
  | @window s s₁ s₂ segment rest ids more h h' ih ih' =>
    -- The first expression ends within its window; the others are in later ones.
    obtain ⟨⟨hstart, hle, hrest⟩, hbound, hhigh⟩ := hrows
    have hstop := hrest.le
    have hwithin : segment.stop ≤ s.scanner.bytes.size := by omega
    have hfirst := s.le_offset_entered hle hwithin
    have hbehind := s.entered_behind segment
    have hend : s₁.previousStop ≤ s₁.offset := (h.previousStop_le rfl hbehind).2
    have hoffset : s₁.offset ≤ segment.stop := h.offset_le_window
    have hbytes : s₁.scanner.bytes = s.scanner.bytes := h.keeps.bytes_eq
    have hkept : s₂.tree.ranges ids = s₁.tree.ranges ids :=
      h'.grows.ranges_eq fun hid => (h.grows.new hid).2
    rw [Tree.ranges_append, hkept]
    have hinner : InRow low (s₁.tree.ranges ids) segment.stop segment.stop :=
      ih ⟨hbehind, by omega, Nat.le_trans hend hoffset, hoffset⟩
    have houter : InRow (segment.stop + 1) (s₂.tree.ranges more) mark high :=
      ih' ⟨hrest, hbytes ▸ hbound, hhigh⟩
    exact hinner.append houter (by omega) (by omega) (by omega) (by omega)

/-- A node made of what has been read since `s`, in a tree of the same text. -/
theorem Derives.inRows_made {s s₁ : State} {form : Form} {pos : Nat}
    (h : Reads s form.children s₁) (hpos : pos ≤ s.offset) (hbehind : s.Behind)
    (hbytes : s.tree.bytes = s.scanner.bytes) (hlinked : s.tree.Linked) (hs : s₁.tree.InRows) :
    (s₁.made form pos (max s₁.previousStop pos)).tree.InRows := by
  have hend : s₁.offset ≤ s₁.tree.bytes.size := by
    rw [h.grows.bytes_eq, hbytes, ← h.keeps.bytes_eq]
    exact Nat.le_trans h.settled.token_pos_le h.settled.stop_le
  have hrow := h.inRow ⟨hbehind, Nat.le_refl _, Nat.le_refl _, Nat.le_refl _⟩
  refine hs.add (h.grows.linked hlinked) (fun hchild => (h.grows.new hchild).2) ?_
  exact hrow.mono hpos (by omega) hend

/-- Every node that a derivation makes has its children in a row. -/
theorem Derives.inRows {task : Task} {s s' : State} {ids : List Nat} (h : Derives task s ids s')
    (hbytes : s.tree.bytes = s.scanner.bytes) (hlinked : s.tree.Linked)
    (hbehind : task = .tokens → s.Behind) (hs : s.tree.InRows) : s'.tree.InRows := by
  have hleaf {t : Tree} {form : Form} {pos stop : Nat} (hlinked : t.Linked) (hs : t.InRows)
      (hform : form.children = []) : (t.add form pos stop).InRows := by
    refine hs.add hlinked ?_ ?_
    · rw [hform]
      exact fun hchild => absurd hchild List.not_mem_nil
    · rw [hform]
      exact .nil _ _ _
  induction h with
  | stay _ | advance _ | noWindow _ => exact hs
  | report _ issue =>
    unfold State.reported
    split
    · exact hs
    · exact hs
  | append h _ ih ih' =>
    refine ih' ?_ (h.grows.linked hlinked) (fun _ => ?_) (ih hbytes hlinked hbehind hs)
    · rw [h.grows.bytes_eq, h.keeps.bytes_eq, hbytes]
    · exact (h.previousStop_le rfl (hbehind rfl)).2
  | forget _ ih => exact ih hbytes hlinked hbehind hs
  | finish h _ ih =>
    exact h.inRows_made (Nat.le_refl _) (hbehind rfl) hbytes hlinked (ih hbytes hlinked hbehind hs)
  | closure hsettled _ h ih =>
    -- The row of the parts starts after the brace, and the node at it.
    have hnext := State.advanced_behind hsettled
    exact h.inRows_made (Onward.advanced hsettled).offset_le hnext hbytes hlinked
      (ih hbytes hlinked (fun _ => hnext) hs)
  | name _ | missing _ =>
    refine hleaf hlinked hs ?_
    rfl
  | under _ _ ih => exact ih hbytes hlinked hbehind hs
  | deeper _ _ ih => exact ih hbytes hlinked hbehind hs
  | interpolate _ _ ih => exact ih hbytes hlinked nofun hs
  | @window s s₁ s₂ segment rest ids more h _ ih ih' =>
    refine ih' ?_ (h.grows.linked hlinked) nofun ?_
    · rw [h.grows.bytes_eq, h.keeps.bytes_eq]
      exact hbytes
    · exact ih hbytes hlinked (fun _ => s.entered_behind segment) hs

/-! ## Section 4: Alignment -/

/-- What holds of every state while a text is read. -/
structure State.Aligned (text : String) (s : State) : Prop where
  scanner : s.scanner.Aligned text
  previousStop : Text.Aligned text s.previousStop
  tree : s.tree.Aligned text

namespace State.Aligned

variable {text : String} {s : State}

theorem advanced (h : s.Aligned text) (hle : s.scanner.pos ≤ s.scanner.stop) :
    s.advanced.Aligned text :=
  ⟨h.scanner.scan hle, h.scanner.token_stop, h.tree⟩

theorem ofText (text : String) : (State.ofText text).Aligned text :=
  ⟨Scanner.ofText_aligned text, Text.aligned_zero, Tree.aligned_empty text _⟩

theorem made (h : s.Aligned text) {form : Form} {pos stop : Nat} (hpos : Text.Aligned text pos)
    (hstop : Text.Aligned text stop) : (s.made form pos stop).Aligned text :=
  ⟨h.scanner, h.previousStop, h.tree.add hpos hstop⟩

theorem entered (h : s.Aligned text) {segment : Segment} (hle : segment.start ≤ segment.stop)
    (hstart : Text.Aligned text segment.start) (hstop : Text.Aligned text segment.stop) :
    (s.entered segment).Aligned text := by
  have hwindow := h.scanner.restrict hle hstart hstop
  exact ⟨hwindow.scan (Nat.min_le_right _ _), hwindow.token_stop, h.tree⟩

end State.Aligned

/-- The windows that a derivation reads lie between characters. -/
def Task.Aligned (text : String) (task : Task) : Prop :=
  match task with
  | .tokens => True
  | .windows segments =>
    Token.SegmentsAligned text segments ∧ ∃ low high, Token.Inside low segments high

theorem Derives.aligned {text : String} {task : Task} {s s' : State} {ids : List Nat}
    (h : Derives task s ids s') (htask : task.Aligned text) (hs : s.Aligned text) :
    s'.Aligned text := by
  induction h with
  | stay _ | noWindow _ => exact hs
  | advance hsettled => exact hs.advanced hsettled.pos_le
  | report _ issue =>
    unfold State.reported
    split
    · exact hs
    · exact ⟨hs.scanner, hs.previousStop, hs.tree⟩
  | append _ _ ih ih' => exact ih' trivial (ih trivial hs)
  | forget _ ih => exact ih trivial hs
  | finish _ _ ih =>
    have hend := ih trivial hs
    exact hend.made hs.scanner.token_pos (hend.previousStop.max hs.scanner.token_pos)
  | closure hsettled _ _ ih =>
    have hend := ih trivial (hs.advanced hsettled.pos_le)
    exact hend.made hs.scanner.token_pos (hend.previousStop.max hs.scanner.token_pos)
  | name hsettled =>
    have hnext := hs.advanced hsettled.pos_le
    exact hnext.made hs.scanner.token_pos hs.scanner.token_stop
  | missing _ => exact hs.made hs.scanner.token_pos hs.scanner.token_pos
  | under _ _ ih =>
    have hend := ih trivial ⟨hs.scanner, hs.previousStop, hs.tree⟩
    exact ⟨hend.scanner, hend.previousStop, hend.tree⟩
  | deeper _ _ ih =>
    have hend := ih trivial ⟨hs.scanner, hs.previousStop, hs.tree⟩
    exact ⟨hend.scanner, hend.previousStop, hend.tree⟩
  | @interpolate s s₁ ids hsettled h ih =>
    -- The scanner goes back to the literal, whose ends are aligned, and on to the next token.
    have hback : (s₁.returned s).scanner = s.scanner := h.keeps.restore_eq
    have hend := ih ⟨hs.scanner.segments, _, _, hsettled.inside⟩ hs
    have hreturned : (s₁.returned s).Aligned text :=
      ⟨hback ▸ hs.scanner, hs.previousStop, hend.tree⟩
    exact hreturned.advanced (hback ▸ hsettled.pos_le)
  | @window s s₁ s₂ segment rest ids more h _ ih ih' =>
    obtain ⟨hsegments, low, high, hstart, hle, hrest⟩ := htask
    -- A window has the ends of its segment, which were found to be aligned.
    obtain ⟨hfirst, hlast⟩ := hsegments segment List.mem_cons_self
    have hothers : Token.SegmentsAligned text rest :=
      fun other hother => hsegments other (List.mem_cons_of_mem _ hother)
    exact ih' ⟨hothers, _, high, hrest⟩ (ih trivial (hs.entered hle hfirst hlast))

/-! ## Section 5: The tree of a text -/

theorem parse_inRows (text : String) : (SourceFile.parse text).tree.InRows := by
  obtain ⟨statements, s', hread, -, htree⟩ := parse_derives text
  have hlinked := Tree.linked_empty text.toByteArray
  have hs : (State.ofText text).advanced.Behind := Nat.zero_le _
  have hbytes : s'.tree.bytes = s'.scanner.bytes :=
    hread.grows.bytes_eq.trans hread.keeps.bytes_eq.symm
  have hrow := hread.inRow ⟨hs, Nat.zero_le _, Nat.le_refl _, Nat.le_refl _⟩
  have hend := Nat.le_trans hread.settled.token_pos_le hread.settled.stop_le
  have hmark : s'.previousStop ≤ s'.scanner.bytes.size :=
    Nat.le_trans (hread.previousStop_le rfl hs).2 hend
  rw [htree]
  refine (hread.inRows rfl hlinked (fun _ => hs) (Tree.inRows_empty _)).add
    (hread.grows.linked hlinked) (fun hchild => (hread.grows.new hchild).2) ?_
  rw [hbytes]
  exact hrow.mono (Nat.le_refl 0) (Nat.le_trans hmark (Nat.le_max_left ..)) hend

theorem parse_aligned (text : String) : (SourceFile.parse text).tree.Aligned text := by
  obtain ⟨statements, s', hread, -, htree⟩ := parse_derives text
  have hstart := (State.Aligned.ofText text).advanced (startOffset_le _)
  have hend := hread.aligned trivial hstart
  rw [htree]
  refine hend.tree.add Text.aligned_zero ?_
  rw [hend.scanner.bytes_eq]
  exact Text.aligned_size

end Grammar
end SelfCapture
