import SelfCapture.Grammar.SourceFile
import SelfCapture.Proofs.Grammar.Declaration
import SelfCapture.Proofs.Grammar.Expression

/-! # Reading ends

  `Phrase.cost` measures a phrase at a state: twice the bytes ahead, and
  one more for a statement, which may start with an expression at the same
  token.  Every phrase reads its nested phrases at a smaller cost, so with
  as many nested phrases allowed as the cost of the whole text, reading
  never uses up its allowance and ends at the end of the text.
-/

namespace SelfCapture.Grammar

open Token (Kind)

variable {n : Nat} {s s' : State} {nested : Readers} {ids : List Nat}

/-! ## Section 1: Statements -/

theorem atLabelledStatement_eq (hs : s.Settled) :
    Ensures atLabelledStatement s fun _ s' => s' = s := by
  unfold atLabelledStatement
  refine (nextIs_eq (R := fun _ => True) hs ?_).mono fun _ _ h => h.1
  refine (accept_reads hs.scan _).bind fun _ s₁ h₁ => ?_
  refine .ite (fun _ => .peek ?_) (fun _ => .pure ⟨h₁.1, trivial⟩)
  split <;> exact .pure ⟨h₁.1, trivial⟩

theorem controlStatement?_reads (hn : nested.Below n) (hs : Ready (n + 1) s) :
    Ensures (controlStatement? nested) s fun r s' => Reads s r.toList s' := by
  unfold controlStatement?
  refine .peek ?_
  split
  · exact .map (branchStatement_reads hn hs (ne_end_of_kind ‹_› (by decide)))
  · exact .map (guardStatement_reads hn hs (ne_end_of_kind ‹_› (by decide)))
  · exact .map (whileStatement_reads hn hs (ne_end_of_kind ‹_› (by decide)))
  · exact .map (repeatStatement_reads hn hs (ne_end_of_kind ‹_› (by decide)))
  · exact .map (forStatement_reads hn hs (ne_end_of_kind ‹_› (by decide)))
  · exact .map (switchStatement_reads hn hs (ne_end_of_kind ‹_› (by decide)))
  · exact .map (doStatement_reads hn hs (ne_end_of_kind ‹_› (by decide)))
  · exact .map (deferStatement_reads hn hs (ne_end_of_kind ‹_› (by decide)))
  · exact .map (exitStatement_reads hn hs (ne_end_of_kind ‹_› (by decide)) _)
  · exact .map (exitStatement_reads hn hs (ne_end_of_kind ‹_› (by decide)) _)
  · exact .map (jumpStatement_reads hs.settled _)
  · exact .map (jumpStatement_reads hs.settled _)
  · exact .map (fallthroughStatement_reads hs.settled)
  · exact .pure (.stay hs.settled)

/-- The one rule that reads a nested phrase at its own first token. -/
theorem plainStatement_reads (hn : nested.Below n) (hs : Ready (n + 1) s)
    (hexpression : ∀ s', Ready (n + 1) s' → Serves nested .expression s') :
    Ensures (plainStatement nested) s fun r s' => Reads s r.toList s' := by
  unfold plainStatement
  refine (atDeclaration_eq hs.settled).bind fun _ s₁ h₁ => ?_
  subst h₁
  exact .ite (fun _ => declaration_reads hn hs) (fun _ => hexpression s₁ hs)

theorem anyStatement_reads (hn : nested.Below n) (hs : Ready (n + 1) s)
    (hexpression : ∀ s', Ready (n + 1) s' → Serves nested .expression s') :
    Ensures (anyStatement nested) s fun r s' => Reads s r.toList s' := by
  unfold anyStatement
  refine .peek ?_
  split
  · refine (atDirective_eq hs.settled).bind fun _ s₁ h₁ => ?_
    subst h₁
    refine .ite (fun _ => ?_) (fun _ => plainStatement_reads hn hs hexpression)
    exact (skipLine_reads hs.settled).bind fun _ _ h => .pure h
  · refine (atLabelledStatement_eq hs.settled).bind fun _ s₁ h₁ => ?_
    subst h₁
    refine .ite (fun _ => ?_) (fun _ => plainStatement_reads hn hs hexpression)
    refine (advance_skips hs.settled).bind fun _ s₂ h₂ => ?_
    refine (advance_skips h₂.settled).bind fun _ s₃ h₃ => ?_
    have hlabel := h₂.append h₃
    exact (controlStatement?_reads hn (hs.reads hlabel)).mono fun _ _ h => hlabel.append h
  · refine (controlStatement?_reads hn hs).bind fun r s₁ h₁ => ?_
    cases r with
    | some statement => exact .pure h₁
    | none =>
      -- No control statement starts here, and no node has been made.
      refine (plainStatement_reads hn (hs.reads h₁) hexpression).mono fun _ _ h => ?_
      exact Derives.append h₁ h

theorem statement_reads (hn : nested.Below n) (hs : Ready (n + 1) s)
    (hexpression : ∀ s', Ready (n + 1) s' → Serves nested .expression s') :
    Ensures (statement nested) s fun r s' => Reads s r.toList s' :=
  guarded_reads hs.settled (fun _ h₁ => .pure (.stay h₁.settled))
    (anyStatement_reads hn hs.deeper hexpression)

/-! ## Section 2: The measure -/

/-- What reading a phrase at a state may cost. -/
def Phrase.cost (phrase : Phrase) (s : State) : Nat :=
  2 * s.ahead + match phrase with
    | .statement => 1
    | _ => 0

theorem Phrase.two_mul_ahead_le (phrase : Phrase) (s : State) : 2 * s.ahead ≤ phrase.cost s :=
  Nat.le_add_right _ _

theorem Phrase.cost_le (phrase : Phrase) (s : State) : phrase.cost s ≤ 2 * s.ahead + 1 := by
  cases phrase <;> simp [cost]

/-- A phrase is read by reading nested phrases of smaller cost. -/
theorem phrase_serves (phrase : Phrase) (hs : s.Settled) (hstart : phrase.StartsAt s)
    (hnested : ∀ inner s', s'.Settled → inner.StartsAt s' → inner.cost s' < phrase.cost s →
      Serves nested inner s') :
    Serves (Grammar.phrase nested) phrase s := by
  -- After a token has been consumed every phrase costs less; only a statement
  -- reads a phrase before that, and an expression costs less at the same token.
  have hself := phrase.two_mul_ahead_le s
  have hn : nested.Below s.ahead := by
    intro inner s' hs' hinner
    have hcost := inner.cost_le s'
    have hlt := hs'.ahead_lt
    exact hnested inner s' hs'.settled hinner (by omega)
  have hready : Ready (s.ahead + 1) s := ⟨hs, Nat.lt_succ_self _⟩
  cases phrase with
  | expression => exact expression_reads hn hready
  | operand => exact operand_reads hn hready
  | type => exact type_reads hn hready
  | composition => exact compositionType_reads hn hready
  | branch => exact branchStatement_reads hn hready (ne_end_of_kind hstart (by decide))
  | statement =>
    refine statement_reads hn hready fun s' hs' => ?_
    refine hnested .expression s' hs'.settled trivial ?_
    have hlt := hs'.ahead_lt
    simp only [Phrase.cost]
    omega

/-- An allowance above the cost is enough. -/
theorem reader_serves (count : Nat) (phrase : Phrase) (hs : s.Settled) (hstart : phrase.StartsAt s)
    (hcost : phrase.cost s < count) : Serves (reader count) phrase s := by
  induction count generalizing phrase s with
  | zero => exact absurd hcost (Nat.not_lt_zero _)
  | succ count ih =>
    -- One level of nesting takes one from the allowance and from the cost.
    refine phrase_serves phrase hs hstart fun inner s' hs' hinner hless => ?_
    exact ih inner hs' hinner (by omega)

/-! ## Section 3: Whole texts -/

theorem startOffset_le (w : Window) : Scanner.startOffset w ≤ w.stop := by
  have hmark : Scanner.markLength w ≤ w.stop := by
    unfold Scanner.markLength
    split
    · rename_i h
      exact Window.startsWith_le h (by simp)
    · exact Nat.zero_le _
  unfold Scanner.startOffset
  dsimp only
  split
  · exact Window.skipWhile_le hmark
  · exact hmark

theorem ofText_settled (text : String) : (State.ofText text).advanced.Settled :=
  Scanner.scan_settled (startOffset_le _) (Nat.le_refl _)

/-- The readers of a whole text serve all of it. -/
theorem reader_below (length : Nat) : (reader (2 * length + 2)).Below (length + 1) := by
  intro phrase s hs hstart
  refine reader_serves _ phrase hs.settled hstart ?_
  have hcost := phrase.cost_le s
  have hlt := hs.ahead_lt
  omega

/-- Reading a text is a derivation from its first token to its end, whose
    nodes become the children of the root. -/
theorem sourceFile_derives (text : String) :
    Ensures sourceFile (State.ofText text) fun root final =>
      ∃ statements s', Reads (State.ofText text).advanced statements s' ∧ s'.kind = .endOfFile ∧
        root = s'.tree.nextId ∧
        final = s'.made (.sourceFile statements) 0 s'.scanner.bytes.size := by
  unfold sourceFile
  refine .modify _ (.peek ?_)
  have hs := ofText_settled text
  have hready : Ready ((State.ofText text).advanced.scanner.bytes.size + 1)
      (State.ofText text).advanced := ⟨hs, Nat.lt_succ_of_le (Nat.sub_le _ _)⟩
  refine (statementsUntil_reads (reader_below _) hready _).bind fun statements s' h => ?_
  refine ⟨statements, s', h.1, ?_, rfl, ?_⟩
  · rcases h.2 with hend | hend
    · exact hend
    · exact kind_eq_of_isAt hend
  · rw [h.1.keeps.bytes_eq]
    rfl

/-- The allowance of a whole text lasts. -/
theorem sourceFile_lasts (text : String) :
    (sourceFile (State.ofText text)).2.exhausted = false := by
  obtain ⟨statements, s', hread, -, -, hfinal⟩ := (sourceFile_derives text).holds
  rw [hfinal]
  exact hread.keeps.exhausted_eq

/-- Reading ends, for every text.  A phrase reads nested phrases of smaller
    cost only: whatever the readers do elsewhere, it is read without using
    up an allowance.  So an allowance above the cost, which is bounded by
    the bytes ahead, is never used up at any state, also inside a string
    literal; and every repetition moves on in the text, as `loop_ensures`
    asks.  Nothing of a whole text is cut short, and its last token is the
    end of the text. -/
theorem sourceFile_reads_to_end :
    (∀ (nested : Readers) (phrase : Phrase) (s : State), s.Settled → phrase.StartsAt s →
      (∀ inner s', s'.Settled → inner.StartsAt s' → inner.cost s' < phrase.cost s →
        Serves nested inner s') →
      Serves (Grammar.phrase nested) phrase s) ∧
    (∀ (count : Nat) (phrase : Phrase) (s : State), s.Settled → phrase.StartsAt s →
      2 * s.ahead + 1 < count →
      Serves (reader count) phrase s ∧
        ((reader count phrase).run s).2.exhausted = s.exhausted) ∧
    ∀ text : String,
      (sourceFile.run (State.ofText text)).2.exhausted = false ∧
        (sourceFile.run (State.ofText text)).2.scanner.token.kind = .endOfFile := by
  refine ⟨fun nested phrase s hs hstart hnested => phrase_serves phrase hs hstart hnested, ?_, ?_⟩
  · intro count phrase s hs hstart hcount
    have hserves : Serves (reader count) phrase s :=
      reader_serves count phrase hs hstart (Nat.lt_of_le_of_lt (phrase.cost_le s) hcount)
    exact ⟨hserves, hserves.holds.keeps.exhausted_eq⟩
  · intro text
    obtain ⟨statements, s', hread, hend, -, hfinal⟩ := (sourceFile_derives text).holds
    show (sourceFile (State.ofText text)).2.exhausted = false ∧
      (sourceFile (State.ofText text)).2.kind = .endOfFile
    rw [hfinal]
    exact ⟨hread.keeps.exhausted_eq, hend⟩

/-- A statement that breaks off inside an interpolation is read, from its first token. -/
theorem broken_off_statement_served :
    let s := (State.ofText "f \x7b \"\\(").advanced
    (s.Settled ∧ Phrase.statement.StartsAt s ∧ s.ahead = 7) ∧ Serves (reader 16) .statement s := by
  intro s
  have hs : s.Settled := ofText_settled _
  have hahead : s.ahead = 7 := by decide +kernel
  refine ⟨⟨hs, trivial, hahead⟩, ?_⟩
  have hcount : 2 * s.ahead + 1 < 16 := by omega
  exact (sourceFile_reads_to_end.2.1 16 .statement s hs trivial hcount).1

/-! ## Section 4: The tree of a text -/

theorem parse_tree (text : String) :
    (SourceFile.parse text).tree = (sourceFile (State.ofText text)).2.tree := rfl

theorem parse_root (text : String) :
    (SourceFile.parse text).root = (sourceFile (State.ofText text)).1 := rfl

/-- The tree of a text is what was read, with the root on top. -/
theorem parse_derives (text : String) :
    ∃ statements s',
      Reads (State.ofText text).advanced (Form.sourceFile statements).children s' ∧
      (SourceFile.parse text).root = s'.tree.nextId ∧
      (SourceFile.parse text).tree =
        s'.tree.add (.sourceFile statements) 0 s'.scanner.bytes.size := by
  obtain ⟨statements, s', hread, -, hroot, hfinal⟩ := (sourceFile_derives text).holds
  have hchildren : (Form.sourceFile statements).children = statements := by simp
  rw [← hchildren] at hread
  refine ⟨statements, s', hread, hroot, ?_⟩
  rw [parse_tree, hfinal]
  rfl

theorem parse_grows (text : String) :
    (Tree.mk text.toByteArray #[]).Grows [(SourceFile.parse text).root]
      (SourceFile.parse text).tree := by
  obtain ⟨statements, s', hread, hroot, htree⟩ := parse_derives text
  rw [hroot, htree]
  exact Tree.Grows.add hread.grows

theorem parse_linked (text : String) : (SourceFile.parse text).tree.Linked :=
  (parse_grows text).linked (Tree.linked_empty _)

theorem parse_sound (text : String) : (SourceFile.parse text).tree.Sound := by
  obtain ⟨statements, s', hread, -, htree⟩ := parse_derives text
  rw [htree]
  exact (hread.sound rfl (Tree.sound_empty _)).add_fits trivial

theorem parse_bytes (text : String) : (SourceFile.parse text).tree.bytes = text.toByteArray :=
  (parse_grows text).bytes_eq

end SelfCapture.Grammar
