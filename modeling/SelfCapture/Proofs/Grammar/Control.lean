import SelfCapture.Grammar.Control
import SelfCapture.Proofs.Grammar.Nested

/-! # Control statements are derivations

  A control statement starts with its keyword, so everything nested in it
  comes after a token that has been consumed.
-/

namespace SelfCapture.Grammar

open Token (Kind)

variable {n : Nat} {s s' : State} {nested : Readers} {ids : List Nat}

/-! ## Section 1: Conditions -/

theorem asCondition_reads {α : Type} {body : Parse α} {nodes : α → List Nat} (hs : Ready n s)
    (h : ∀ s₁, Ready n s₁ → Ensures body s₁ fun r s' => Reads s₁ (nodes r) s') :
    Ensures (asCondition body) s fun r s' => Reads s (nodes r) s' :=
  within_reads _ (h _ (hs.under _))

theorem optionalBinding_reads (hn : nested.Below n) (hs : Ready n s) :
    Ensures (optionalBinding nested) s fun id s' => Reads s [id] s' := by
  unfold optionalBinding
  refine .peek ((advance_reads hs.settled).bind fun _ s₁ h₁ => ?_)
  refine (bindingPattern_reads hn (hs.reads h₁.2)).bind fun pattern s₂ h₂ => ?_
  have hpattern := h₁.2.append h₂
  refine (typeClause_reads hn (hs.reads hpattern)).bind fun type s₃ h₃ => ?_
  have htype := hpattern.append h₃
  refine (initialValue_reads hn (hs.reads htype)).bind fun initial s₄ h₄ => ?_
  exact finish_reads (htype.append h₄) (by simp) trivial

theorem condition_reads (hn : nested.Below n) (hs : Ready n s) :
    Ensures (condition nested) s fun r s' => Reads s r.toList s' := by
  unfold condition
  refine .peek ?_
  split
  · exact .map (optionalBinding_reads hn hs)
  · exact .map (optionalBinding_reads hn hs)
  · refine (advance_reads hs.settled).bind fun _ s₁ h₁ => ?_
    exact (hn.expression (hs.reads h₁.2)).mono fun _ _ h => h₁.2.append h
  · exact hn.expression hs

theorem conditions_reads (hn : nested.Below n) (hs : Ready n s) :
    Ensures (conditions nested) s fun ids s' => Reads s ids s' := by
  unfold conditions
  refine asCondition_reads hs fun s₁ hs₁ => separated_reads hs₁.settled fun ids s₂ h₂ => ?_
  exact (condition_reads hn (hs₁.reads h₂)).bind fun _ _ h => .pure h

theorem headExpression_reads (hn : nested.Below n) (hs : Ready n s) :
    Ensures (headExpression nested) s fun ids s' => Reads s ids s' := by
  unfold headExpression
  refine asCondition_reads hs fun s₁ hs₁ => ?_
  exact (hn.expression hs₁).bind fun _ _ h => .pure h

theorem expressions_reads (hn : nested.Below n) (hs : Ready n s) :
    Ensures (expressions nested) s fun ids s' => Reads s ids s' := by
  unfold expressions
  refine separated_reads hs.settled fun ids s₁ h₁ => ?_
  exact (hn.expression (hs.reads h₁)).bind fun _ _ h => .pure h

theorem whereCondition_reads (hn : nested.Below n) (hs : Ready n s) :
    Ensures (whereCondition nested) s fun ids s' => Reads s ids s' := by
  unfold whereCondition
  refine (accept_reads hs.settled _).bind fun _ s₁ h₁ => .ite (fun _ => ?_) (fun _ => .pure h₁.1)
  exact (hn.expression (hs.reads h₁.1)).bind fun _ _ h => .pure (h₁.1.append h)

/-! ## Section 2: Branches and loops -/

theorem alternative_reads (hn : nested.Below n) (hs : Ready n s) :
    Ensures (alternative nested) s fun ids s' => Reads s ids s' := by
  unfold alternative
  refine (accept_reads hs.settled _).bind fun _ s₁ h₁ => .ite (fun _ => ?_) (fun _ => .pure h₁.1)
  have hs₁ := hs.reads h₁.1
  refine .peek (.ite (fun hif => ?_) (fun _ => ?_))
  · -- `else if` is a nested phrase of its own, not a further round.
    exact (hn.branch hs₁ (kind_eq_of_isAt hif)).bind fun _ _ h => .pure (h₁.1.append h)
  · exact (block_reads hn hs₁.succ).bind fun _ _ h => .pure (h₁.1.append h)

theorem branchStatement_reads (hn : nested.Below n) (hs : Ready (n + 1) s)
    (hk : s.kind ≠ .endOfFile) :
    Ensures (branchStatement nested) s fun id s' => Reads s [id] s' := by
  unfold branchStatement
  refine .peek ((advance_moves hs.settled hk).bind fun _ s₁ h₁ => ?_)
  have hs₁ := hs.moved h₁.1 h₁.2
  refine (conditions_reads hn hs₁).bind fun conditions s₂ h₂ => ?_
  have hs₂ := hs₁.reads h₂
  refine (block_reads hn hs₂.succ).bind fun body s₃ h₃ => ?_
  refine (alternative_reads hn (hs₂.reads h₃)).bind fun alternative s₄ h₄ => ?_
  exact finish_reads (h₁.1.append (h₂.append (h₃.append h₄))) (by simp) trivial

theorem guardStatement_reads (hn : nested.Below n) (hs : Ready (n + 1) s)
    (hk : s.kind ≠ .endOfFile) :
    Ensures (guardStatement nested) s fun id s' => Reads s [id] s' := by
  unfold guardStatement
  refine .peek ((advance_moves hs.settled hk).bind fun _ s₁ h₁ => ?_)
  have hs₁ := hs.moved h₁.1 h₁.2
  refine (conditions_reads hn hs₁).bind fun conditions s₂ h₂ => ?_
  refine (expect_reads h₂.settled (by decide) _).bind fun _ s₃ h₃ => ?_
  have hhead := h₂.append h₃.1
  refine (block_reads hn (hs₁.reads hhead).succ).bind fun body s₄ h₄ => ?_
  exact finish_reads (h₁.1.append (hhead.append h₄)) (by simp) trivial

theorem whileStatement_reads (hn : nested.Below n) (hs : Ready (n + 1) s)
    (hk : s.kind ≠ .endOfFile) :
    Ensures (whileStatement nested) s fun id s' => Reads s [id] s' := by
  unfold whileStatement
  refine .peek ((advance_moves hs.settled hk).bind fun _ s₁ h₁ => ?_)
  have hs₁ := hs.moved h₁.1 h₁.2
  refine (conditions_reads hn hs₁).bind fun conditions s₂ h₂ => ?_
  refine (block_reads hn (hs₁.reads h₂).succ).bind fun body s₃ h₃ => ?_
  exact finish_reads (h₁.1.append (h₂.append h₃)) (by simp) trivial

theorem repeatStatement_reads (hn : nested.Below n) (hs : Ready (n + 1) s)
    (hk : s.kind ≠ .endOfFile) :
    Ensures (repeatStatement nested) s fun id s' => Reads s [id] s' := by
  unfold repeatStatement
  refine .peek ((advance_moves hs.settled hk).bind fun _ s₁ h₁ => ?_)
  have hs₁ := hs.moved h₁.1 h₁.2
  refine (block_reads hn hs₁.succ).bind fun body s₂ h₂ => ?_
  refine (expect_reads h₂.settled (by decide) _).bind fun _ s₃ h₃ => ?_
  have hbody := h₂.append h₃.1
  refine .branch (P := fun condition s₄ => Reads s₃ condition s₄)
    (fun _ => headExpression_reads hn (hs₁.reads hbody)) (fun _ => .pure (.stay hbody.settled))
    fun condition s₄ h₄ => ?_
  exact finish_reads (h₁.1.append (hbody.append h₄)) (by simp) trivial

theorem forHead_reads (hn : nested.Below n) (hs : Ready n s) :
    Ensures (forHead nested) s fun ids s' => Reads s ids s' := by
  unfold forHead
  refine asCondition_reads hs fun s₁ hs₁ => ?_
  refine (hn.expression hs₁).bind fun pattern s₂ h₂ => ?_
  refine (typeClause_reads hn (hs₁.reads h₂)).bind fun type s₃ h₃ => ?_
  refine (expect_reads h₃.settled (by decide) _).bind fun _ s₄ h₄ => ?_
  have hhead := (h₂.append h₃).append h₄.1
  refine .branch (P := fun values s₅ => Reads s₄ (Option.toList values) s₅)
    (fun _ => hn.expression (hs₁.reads hhead)) (fun _ => .pure (.stay hhead.settled))
    fun values s₅ h₅ => ?_
  have hvalues := hhead.append h₅
  refine (whereCondition_reads hn (hs₁.reads hvalues)).bind fun filter s₆ h₆ => .pure ?_
  simpa using hvalues.append h₆

theorem forStatement_reads (hn : nested.Below n) (hs : Ready (n + 1) s)
    (hk : s.kind ≠ .endOfFile) :
    Ensures (forStatement nested) s fun id s' => Reads s [id] s' := by
  unfold forStatement
  refine .peek ((advance_moves hs.settled hk).bind fun _ s₁ h₁ => ?_)
  refine (accept_reads h₁.1.settled _).bind fun _ s₂ h₂ => ?_
  refine (accept_reads h₂.1.settled _).bind fun _ s₃ h₃ => ?_
  refine (accept_reads h₃.1.settled _).bind fun _ s₄ h₄ => ?_
  have hmarks := (h₂.1.append h₃.1).append h₄.1
  have hs₄ := (hs.moved h₁.1 h₁.2).reads hmarks
  refine (forHead_reads hn hs₄).bind fun head s₅ h₅ => ?_
  refine (block_reads hn (hs₄.reads h₅).succ).bind fun body s₆ h₆ => ?_
  exact finish_reads ((h₁.1.append hmarks).append (h₅.append h₆)) (by simp) trivial

/-! ## Section 3: `switch` and `do` -/

instance : Peeks endsCase where
  state_eq s := by
    have h : Ensures endsCase s fun _ s' => s' = s := by
      unfold endsCase
      refine .peek ?_
      split
      · exact .pure rfl
      · exact .pure rfl
      · exact .pure rfl
      · exact .peek (.pure rfl)
      · exact .pure rfl
    exact h.holds

theorem switchCase_reads (hn : nested.Below n) (hs : Ready n s) :
    Ensures (switchCase nested) s fun id s' => Reads s [id] s' := by
  unfold switchCase
  refine .peek ((advance_reads hs.settled).bind fun _ s₁ h₁ => ?_)
  have hs₁ := hs.reads h₁.2
  refine (expressions_reads hn hs₁).bind fun patterns s₂ h₂ => ?_
  refine (whereCondition_reads hn (hs₁.reads h₂)).bind fun filter s₃ h₃ => ?_
  refine (expect_reads h₃.settled (by decide) _).bind fun _ s₄ h₄ => ?_
  have hhead := (h₂.append h₃).append h₄.1
  refine (statementsUntil_reads hn (hs₁.reads hhead) endsCase).bind fun statements s₅ h₅ => ?_
  exact finish_reads (h₁.2.append (hhead.append h₅.1)) (by simp) trivial

theorem switchDefault_reads (hn : nested.Below n) (hs : Ready n s) :
    Ensures (switchDefault nested) s fun id s' => Reads s [id] s' := by
  unfold switchDefault
  refine .peek ((advance_reads hs.settled).bind fun _ s₁ h₁ => ?_)
  refine (expect_reads h₁.2.settled (by decide) _).bind fun _ s₂ h₂ => ?_
  have hhead := h₁.2.append h₂.1
  refine (statementsUntil_reads hn (hs.reads hhead) endsCase).bind fun statements s₃ h₃ => ?_
  exact finish_reads (hhead.append h₃.1) (by simp) trivial

theorem atDirective_eq (hs : s.Settled) : Ensures atDirective s fun _ s' => s' = s := by
  unfold atDirective
  refine (nextIs_eq (R := fun _ => True) hs ?_).mono fun _ _ h => h.1
  have hstay : Reads s.advanced [] s.advanced := .stay hs.scan
  refine .peek (.ite (fun _ => .pure ⟨hstay, trivial⟩) (fun _ => .peek (.peek ?_)))
  exact .ite (fun _ => .pure ⟨hstay, trivial⟩) (fun _ => .look ⟨hstay, trivial⟩)

theorem strayInSwitch_reads (hn : nested.Below n) (hs : Ready n s) :
    Ensures (strayInSwitch nested) s fun ids s' => Reads s ids s' := by
  unfold strayInSwitch
  refine (reportExpected_reads hs.settled _).bind fun _ s₁ h₁ => ?_
  exact (hn.statement (hs.reads h₁.1)).bind fun _ _ h => .pure (h₁.1.append h)

theorem switchEntry_reads (hn : nested.Below n) (hs : Ready n s) (hk : s.kind ≠ .endOfFile) :
    Ensures (switchEntry nested) s fun ids s' => Reads s ids s' := by
  unfold switchEntry
  refine .peek ?_
  split
  · refine (atDirective_eq hs.settled).bind fun _ s₁ h₁ => ?_
    subst h₁
    refine .ite (fun _ => ?_) (fun _ => strayInSwitch_reads hn hs)
    exact (skipLine_reads hs.settled).bind fun _ _ h => .pure h
  · exact (skipAttribute_moves hs.settled hk).bind fun _ _ h => .pure h.1
  · exact (switchCase_reads hn hs).bind fun _ _ h => .pure h
  · exact (switchDefault_reads hn hs).bind fun _ _ h => .pure h
  · exact strayInSwitch_reads hn hs

theorem switchEntries_reads (hn : nested.Below n) (hs : Ready n s) :
    Ensures (switchEntries nested) s fun ids s' => Reads s ids s' := by
  unfold switchEntries
  refine gatherWhile_reads hs.settled fun ids s₁ h₁ => .look ⟨.stay h₁.settled, fun hfound => ?_⟩
  have hk : s₁.kind ≠ .endOfFile := ne_end_of_stuck hfound
  -- An entry may consume nothing, in which case a token is skipped.
  refine .peek ((switchEntry_reads hn (hs.reads h₁) hk).bind fun entry s₂ h₂ => ?_)
  exact unstuck_moves h₂ hk

theorem switchStatement_reads (hn : nested.Below n) (hs : Ready (n + 1) s)
    (hk : s.kind ≠ .endOfFile) :
    Ensures (switchStatement nested) s fun id s' => Reads s [id] s' := by
  unfold switchStatement
  refine .peek ((advance_moves hs.settled hk).bind fun _ s₁ h₁ => ?_)
  have hs₁ := hs.moved h₁.1 h₁.2
  refine (headExpression_reads hn hs₁).bind fun value s₂ h₂ => ?_
  refine (expect_reads h₂.settled (by decide) _).bind fun _ s₃ h₃ => ?_
  have hhead := h₂.append h₃.1
  -- Without the brace there are no cases to read.
  refine .ite (fun _ => ?_) (fun _ => ?_)
  · have hentries := switchEntries_reads hn ((hs₁.reads hhead).under {})
    refine (unrestricted_reads hentries).bind fun cases s₄ h₄ => ?_
    refine (expect_reads h₄.settled (by decide) _).bind fun _ s₅ h₅ => ?_
    exact finish_reads (h₁.1.append (hhead.append (h₄.append h₅.1))) (by simp) trivial
  · exact finish_reads (h₁.1.append hhead) (by simp) trivial

theorem handlerHead_reads (hn : nested.Below n) (hs : Ready n s) :
    Ensures (handlerHead nested) s fun ids s' => Reads s ids s' := by
  unfold handlerHead
  refine asCondition_reads hs fun s₁ hs₁ => .peek ?_
  refine .branch (P := fun patterns s₂ => Reads s₁ patterns s₂)
    (fun _ => .pure (.stay hs₁.settled)) (fun _ => expressions_reads hn hs₁)
    fun patterns s₂ h₂ => ?_
  exact (whereCondition_reads hn (hs₁.reads h₂)).bind fun filter s₃ h₃ => .pure (h₂.append h₃)

theorem handler_moves (hn : nested.Below n) (hs : Ready n s) (hk : s.kind ≠ .endOfFile) :
    Ensures (handler nested) s fun id s' => Reads s [id] s' ∧ s.offset < s'.offset := by
  unfold handler
  refine .peek ((advance_moves hs.settled hk).bind fun _ s₁ h₁ => ?_)
  have hs₁ := hs.reads h₁.1
  refine (handlerHead_reads hn hs₁).bind fun head s₂ h₂ => ?_
  refine (block_reads hn (hs₁.reads h₂).succ).bind fun body s₃ h₃ => ?_
  have hrest := h₂.append h₃
  exact finish_moves (h₁.1.append hrest) (hrest.offset_lt h₁.2) (by simp) trivial

theorem doStatement_reads (hn : nested.Below n) (hs : Ready (n + 1) s)
    (hk : s.kind ≠ .endOfFile) :
    Ensures (doStatement nested) s fun id s' => Reads s [id] s' := by
  unfold doStatement
  refine .peek ((advance_moves hs.settled hk).bind fun _ s₁ h₁ => ?_)
  have hs₁ := hs.moved h₁.1 h₁.2
  -- Three ways lead to the body: `do`, `do throws` and `do throws(...)`.
  refine (accept_reads hs₁.settled _).bind fun _ s₂ h₂ => ?_
  extract_lets rest
  have hrest : ∀ s₃, Reads s₁ [] s₃ → Ensures (rest ()) s₃ fun id s' => Reads s [id] s' := by
    intro s₃ h₃
    have hs₃ := hs₁.reads h₃
    refine (block_reads hn hs₃.succ).bind fun body s₄ h₄ => ?_
    have hs₄ := hs₃.reads h₄
    refine (gatherWhile_reads hs₄.settled fun ids s₅ h₅ => .look ⟨.stay h₅.settled, ?_⟩).bind
      fun handlers s₅ h₅ => ?_
    · intro hcatch
      have hk₅ := ne_end_of_isAt hcatch (by decide)
      exact (handler_moves hn (hs₄.reads h₅) hk₅).bind fun id s₆ h₆ => .pure h₆
    · exact finish_reads ((h₁.1.append h₃).append (h₄.append h₅)) (by simp) trivial
  refine .ite (fun _ => .peek (.ite (fun _ => hrest s₂ h₂.1) (fun _ => ?_)))
    (fun _ => hrest s₂ h₂.1)
  exact (skipParens_reads h₂.1.settled).bind fun _ s₃ h₃ => hrest s₃ (h₂.1.append h₃)

/-! ## Section 4: Leaving a block -/

theorem deferStatement_reads (hn : nested.Below n) (hs : Ready (n + 1) s)
    (hk : s.kind ≠ .endOfFile) :
    Ensures (deferStatement nested) s fun id s' => Reads s [id] s' := by
  unfold deferStatement
  refine .peek ((advance_moves hs.settled hk).bind fun _ s₁ h₁ => ?_)
  refine (block_reads hn (hs.moved h₁.1 h₁.2).succ).bind fun body s₂ h₂ => ?_
  exact finish_reads (h₁.1.append h₂) (by simp) trivial

instance : Peeks operandFollows where
  state_eq s := by
    have h : Ensures operandFollows s fun _ s' => s' = s := by
      unfold operandFollows
      refine .peek (.ite (fun _ => .pure rfl) (fun _ => .peek ?_))
      split <;> exact .pure rfl
    exact h.holds

theorem exitStatement_reads (hn : nested.Below n) (hs : Ready (n + 1) s)
    (hk : s.kind ≠ .endOfFile) (sort : ControlSort) :
    Ensures (exitStatement nested sort) s fun id s' => Reads s [id] s' := by
  unfold exitStatement
  refine .peek ((advance_moves hs.settled hk).bind fun _ s₁ h₁ => .peek ?_)
  refine .branch (P := fun value s₂ => Reads s₁ (Option.toList value) s₂)
    (fun _ => hn.expression (hs.moved h₁.1 h₁.2)) (fun _ => .pure (.stay h₁.1.settled))
    fun value s₂ h₂ => ?_
  exact finish_reads (h₁.1.append h₂) (by simp) trivial

theorem jumpStatement_reads (hs : s.Settled) (sort : ControlSort) :
    Ensures (jumpStatement sort) s fun id s' => Reads s [id] s' := by
  unfold jumpStatement
  refine .peek ((advance_reads hs).bind fun _ s₁ h₁ => .peek (.peek ?_))
  refine .ite (fun _ => ?_) (fun _ => finish_reads h₁.2 (by simp) trivial)
  refine (name_reads h₁.2.settled).bind fun label s₂ h₂ => ?_
  exact finish_reads (h₁.2.append h₂.1) (by simp) trivial

theorem fallthroughStatement_reads (hs : s.Settled) :
    Ensures fallthroughStatement s fun id s' => Reads s [id] s' := by
  unfold fallthroughStatement
  refine .peek ((advance_reads hs).bind fun _ s₁ h₁ => ?_)
  exact finish_reads h₁.2 (by simp) trivial

end SelfCapture.Grammar
