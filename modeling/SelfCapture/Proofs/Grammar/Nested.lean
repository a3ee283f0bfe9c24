import SelfCapture.Grammar.Argument
import SelfCapture.Grammar.Block
import SelfCapture.Proofs.Grammar.Skipping

/-! # Nested phrases

  A rule of the grammar is followed under an assumption on the readers of
  the phrases nested in it: they serve every state with less than `n` bytes
  ahead, `Readers.Below`.  A rule that consumes a token before it reads a
  nested phrase can itself start with `n` bytes ahead.  So the number of
  bytes ahead goes down along every chain of nested phrases.

  With that assumption, this module follows lists of arguments and of
  statements.
-/

namespace SelfCapture.Grammar

open Token (Kind)

/-! ## Section 1: Readers of nested phrases -/

namespace Phrase

/-- The nodes that a result stands for. -/
def nodes : (phrase : Phrase) → phrase.Result → List Nat
  | .expression, result | .operand, result | .statement, result => Option.toList result
  | .type, result | .composition, result | .branch, result => [result]

/-- Where a phrase is read: the `if` after an `else` only at its keyword. -/
def StartsAt : Phrase → State → Prop
  | .branch, s => s.kind = .ifKeyword
  | _, _ => True

end Phrase

/-- The reader of a phrase, run from a state, is a derivation. -/
def Serves (nested : Readers) (phrase : Phrase) (s : State) : Prop :=
  Ensures (nested phrase) s fun r s' => Reads s (phrase.nodes r) s'

/-- A token has been read, and less than `n` bytes are ahead. -/
structure Ready (n : Nat) (s : State) : Prop where
  settled : s.Settled
  ahead_lt : s.ahead < n

/-- The readers serve every state with less than `n` bytes ahead. -/
def Readers.Below (nested : Readers) (n : Nat) : Prop :=
  ∀ phrase s, Ready n s → phrase.StartsAt s → Serves nested phrase s

variable {n : Nat} {s s' : State} {nested : Readers} {ids : List Nat}

namespace Ready

theorem reads (hs : Ready n s) (h : Reads s ids s') : Ready n s' :=
  ⟨h.settled, Nat.lt_of_le_of_lt h.ahead_le hs.ahead_lt⟩

theorem succ (hs : Ready n s) : Ready (n + 1) s := ⟨hs.settled, Nat.lt_succ_of_lt hs.ahead_lt⟩

/-- Once a token has been consumed, nested phrases can be read. -/
theorem moved (hs : Ready (n + 1) s) (h : Reads s ids s') (hlt : s.offset < s'.offset) :
    Ready n s' := by
  refine ⟨h.settled, ?_⟩
  have hless := h.ahead_lt hlt
  have hbound := hs.ahead_lt
  omega

theorem under (hs : Ready n s) (context : Context) : Ready n (s.under context) :=
  ⟨hs.settled, hs.ahead_lt⟩

theorem deeper (hs : Ready n s) : Ready n s.deeper := ⟨hs.settled, hs.ahead_lt⟩

end Ready

namespace Readers.Below

theorem expression (hn : nested.Below n) (hs : Ready n s) :
    Ensures (nested .expression) s fun r s' => Reads s (Option.toList r) s' :=
  hn .expression s hs trivial

theorem operand (hn : nested.Below n) (hs : Ready n s) :
    Ensures (nested .operand) s fun r s' => Reads s (Option.toList r) s' :=
  hn .operand s hs trivial

theorem statement (hn : nested.Below n) (hs : Ready n s) :
    Ensures (nested .statement) s fun r s' => Reads s (Option.toList r) s' :=
  hn .statement s hs trivial

theorem type (hn : nested.Below n) (hs : Ready n s) :
    Ensures (nested .type) s fun r s' => Reads s [r] s' :=
  hn .type s hs trivial

theorem composition (hn : nested.Below n) (hs : Ready n s) :
    Ensures (nested .composition) s fun r s' => Reads s [r] s' :=
  hn .composition s hs trivial

theorem branch (hn : nested.Below n) (hs : Ready n s) (hk : s.kind = .ifKeyword) :
    Ensures (nested .branch) s fun r s' => Reads s [r] s' :=
  hn .branch s hs hk

end Readers.Below

/-! ## Section 2: Arguments -/

instance : Peeks argumentEnds where
  state_eq s := by
    have h : Ensures argumentEnds s fun _ s' => s' = s := by
      unfold argumentEnds
      refine .peek ?_
      split <;> exact .pure rfl
    exact h.holds

/-- A name that a certain token follows is read together with that token. -/
theorem nameBefore_reads (hs : s.Settled) (k : Kind) :
    Ensures
      (do
        if ← isName then
          if ← nextIs (isAt k) then
            let label ← name
            advance
            return some label
          else
            return none
        else
          return none)
      s fun r s' => Reads s r.toList s' := by
  refine .peek (.ite (fun _ => ?_) (fun _ => .pure (.stay hs)))
  refine (nextIs_eq (R := fun _ => True) hs (.look ⟨.stay hs.scan, trivial⟩)).bind fun _ s₁ h₁ => ?_
  obtain ⟨rfl, -⟩ := h₁
  refine .ite (fun _ => ?_) (fun _ => .pure (.stay hs))
  refine (name_reads hs).bind fun label s₂ h₂ => ?_
  refine (advance_reads h₂.1.settled).bind fun _ s₃ h₃ => .pure ?_
  exact h₂.1.append h₃.2

theorem argumentLabel_reads (hs : s.Settled) :
    Ensures argumentLabel s fun r s' => Reads s r.toList s' :=
  nameBefore_reads hs .colon

theorem argument_reads (hn : nested.Below n) (hs : Ready n s) :
    Ensures (argument nested) s fun id s' => Reads s [id] s' := by
  unfold argument
  refine .peek ((argumentLabel_reads hs.settled).bind fun label s₁ h₁ => ?_)
  -- Whether the argument ends at its label is only looked up.
  refine .branch (P := fun _ s₂ => s₂ = s₁) (fun _ => .look rfl) (fun _ => .pure rfl)
    fun _ s₂ h₂ => ?_
  subst h₂
  refine .branch (P := fun expression s₃ => Reads s₂ expression.toList s₃)
    (fun _ => .pure (.stay h₁.settled)) (fun _ => hn.expression (hs.reads h₁))
    fun expression s₃ h₃ => ?_
  exact finish_reads (h₁.append h₃) (by simp) trivial

/-- The opening bracket, at least, is left behind. -/
theorem argumentList_moves (hn : nested.Below n) (hs : Ready (n + 1) s)
    (hk : s.kind ≠ .endOfFile) (opener closer : Kind) (what : String) :
    Ensures (argumentList nested opener closer what) s fun arguments s' =>
      Reads s arguments s' ∧ s.offset < s'.offset := by
  unfold argumentList
  -- The bracket is consumed, so that less is ahead of the arguments.
  refine (advance_moves hs.settled hk).bind fun _ s₁ h₁ => ?_
  have hs₁ := (hs.moved h₁.1 h₁.2).under {}
  refine (unrestricted_reads (separatedUntil_reads hs₁.settled fun ids s₂ h₂ => ?_)).bind
    fun arguments s₂ h₂ => ?_
  · exact (argument_reads hn (hs₁.reads h₂)).bind fun id s₃ h₃ => .pure h₃
  refine (closeList_reads h₂.settled opener closer what).bind fun _ s₃ h₃ => .pure ?_
  have hrest := h₂.skip h₃
  exact ⟨h₁.1.append hrest, hrest.offset_lt h₁.2⟩

theorem tupleExpression_reads (hn : nested.Below n) (hs : Ready (n + 1) s)
    (hk : s.kind ≠ .endOfFile) :
    Ensures (tupleExpression nested) s fun id s' => Reads s [id] s' := by
  unfold tupleExpression
  refine .peek ((argumentList_moves hn hs hk _ _ _).bind fun elements s₁ h₁ => ?_)
  exact finish_reads h₁.1 (by simp) trivial

theorem collectionElement_reads (hn : nested.Below n) (hs : Ready n s) :
    Ensures (collectionElement nested) s fun r s' => Reads s r.toList s' := by
  unfold collectionElement
  refine .peek ((hn.expression hs).bind fun key s₁ h₁ => ?_)
  refine (accept_reads h₁.settled _).bind fun _ s₂ h₂ => ?_
  have hkey := h₁.skip h₂.1
  refine .ite (fun _ => ?_) (fun _ => .pure hkey)
  refine (hn.expression (hs.reads hkey)).bind fun value s₃ h₃ => .map ?_
  exact finish_reads (hkey.append h₃) (by simp) trivial

theorem collectionElements_reads (hn : nested.Below n) (hs : Ready n s) :
    Ensures (collectionElements nested) s fun elements s' => Reads s elements s' := by
  unfold collectionElements
  refine (accept_reads hs.settled _).bind fun _ s₁ h₁ => .ite (fun _ => .pure h₁.1) (fun _ => ?_)
  have hs₁ := hs.reads h₁.1
  refine (separatedUntil_reads hs₁.settled fun ids s₂ h₂ => ?_).mono fun _ _ h => h₁.1.append h
  exact (collectionElement_reads hn (hs₁.reads h₂)).bind fun element s₃ h₃ => .pure h₃

theorem collectionExpression_reads (hn : nested.Below n) (hs : Ready (n + 1) s)
    (hk : s.kind ≠ .endOfFile) :
    Ensures (collectionExpression nested) s fun id s' => Reads s [id] s' := by
  unfold collectionExpression
  refine .peek ((advance_moves hs.settled hk).bind fun _ s₁ h₁ => ?_)
  have hs₁ := (hs.moved h₁.1 h₁.2).under {}
  refine (unrestricted_reads (collectionElements_reads hn hs₁)).bind fun elements s₂ h₂ => ?_
  refine (closeList_reads h₂.settled _ _ _).bind fun _ s₃ h₃ => ?_
  exact finish_reads ((h₁.1.append h₂).append h₃) (by simp) trivial

theorem bindingPattern_reads (hn : nested.Below n) (hs : Ready n s) :
    Ensures (bindingPattern nested) s fun id s' => Reads s [id] s' := by
  unfold bindingPattern
  refine .peek (.ite (fun hat => ?_) (fun _ => nameOr_reads hs.settled _))
  exact tupleExpression_reads hn hs.succ (ne_end_of_isAt hat (by decide))

theorem initialValue_reads (hn : nested.Below n) (hs : Ready n s) :
    Ensures (initialValue nested) s fun r s' => Reads s r.toList s' := by
  unfold initialValue
  refine (accept_reads hs.settled _).bind fun _ s₁ h₁ => .ite (fun _ => ?_) (fun _ => .pure h₁.1)
  exact (hn.expression (hs.reads h₁.1)).mono fun _ _ h => h₁.1.append h

theorem typeClause_reads (hn : nested.Below n) (hs : Ready n s) :
    Ensures (typeClause nested) s fun r s' => Reads s r.toList s' := by
  unfold typeClause
  refine (accept_reads hs.settled _).bind fun _ s₁ h₁ => .ite (fun _ => ?_) (fun _ => .pure h₁.1)
  exact .map ((hn.type (hs.reads h₁.1)).mono fun _ _ h => h₁.1.append h)

/-! ## Section 3: Statement lists -/

theorem ne_end_of_stuck {b : Bool} (h : (b && !(atEnd s).1) = true) : s.kind ≠ .endOfFile := by
  refine kind_ne_of_isAt fun hend => ?_
  have hnot := (Bool.and_eq_true_iff.mp h).2
  rw [show (atEnd s).1 = true from hend] at hnot
  cases hnot

/-- A reading that has consumed nothing is not at the end. -/
theorem Derives.ne_end_of_offset_eq (h : Reads s ids s') (hk : s.kind ≠ .endOfFile)
    (heq : s'.offset = s.offset) : s'.kind ≠ .endOfFile := by
  -- The end is the only token at the end of the window.
  intro hend
  rw [h.settled.atEnd_iff, h.stop_eq] at hend
  exact hk (h.start.atEnd_iff.mpr (heq.symm.trans hend))

/-- A reading that is not stuck at its first token has moved on. -/
theorem Derives.offset_lt_of_free (h : Reads s ids s') (hk : s.kind ≠ .endOfFile)
    (hfree : ¬ ((position s').1 == s.offset && !(atEnd s').1) = true) : s.offset < s'.offset := by
  refine h.offset_lt_of_ne fun hstuck => hfree ?_
  have hend := beq_eq_false_iff_ne.mpr (h.ne_end_of_offset_eq hk hstuck)
  show (s'.offset == s.offset && !(s'.kind == .endOfFile)) = true
  rw [hstuck, hend, BEq.rfl]
  rfl

/-- An entry that consumed nothing is followed by a token that is skipped. -/
theorem unstuck_moves {s₁ : State} {entry : List Nat} (h₁ : Reads s entry s₁)
    (hk : s.kind ≠ .endOfFile) :
    Ensures
      (do
        if (← position) == s.offset && !(← atEnd) then advance
        return entry)
      s₁ fun ids s' => Reads s ids s' ∧ s.offset < s'.offset := by
  refine .peek (.peek ?_)
  refine .ifThen (P := fun s₂ => Reads s entry s₂ ∧ s.offset < s₂.offset) (fun hstuck => ?_)
    (fun hfree => ⟨h₁, h₁.offset_lt_of_free hk hfree⟩) (fun s₂ h₂ => .pure h₂)
  refine (advance_moves h₁.settled (ne_end_of_stuck hstuck)).mono fun _ s₂ h₂ => ⟨?_, ?_⟩
  · exact h₁.skip h₂.1
  · exact Nat.lt_of_le_of_lt h₁.offset_le h₂.2

/-- An entry of a statement list is left behind: a statement that consumed
    nothing is followed by a token that is skipped. -/
theorem listEntry_moves (hn : nested.Below n) (hs : Ready n s) (hk : s.kind ≠ .endOfFile) :
    Ensures (listEntry nested) s fun ids s' => Reads s ids s' ∧ s.offset < s'.offset := by
  unfold listEntry
  refine .peek (.ite (fun _ => ?_) (fun _ => .peek ?_))
  · -- A stray closing brace is reported and skipped.
    refine (report_reads hs.settled _).bind fun _ s₁ h₁ => ?_
    exact (skipReported_moves h₁ hk).bind fun _ s₂ h₂ => .pure h₂
  · refine (hn.statement hs).bind fun statement s₁ h₁ => .peek (.peek ?_)
    extract_lets rest
    refine .ite (fun hstuck => ?_) (fun hfree => .pure ⟨h₁, h₁.offset_lt_of_free hk hfree⟩)
    have hk₁ := ne_end_of_stuck hstuck
    refine (reportExpected_reads h₁.settled _).bind fun _ s₂ h₂ => ?_
    refine (skipReported_moves h₂ hk₁).bind fun _ s₃ h₃ => .pure ?_
    exact ⟨h₁.skip h₃.1, Nat.lt_of_le_of_lt h₁.offset_le h₃.2⟩

/-- The list ends at the end of the window or where the test holds. -/
theorem statementsUntil_reads (hn : nested.Below n) (hs : Ready n s) (stops : Parse Bool)
    [Peeks stops] :
    Ensures (statementsUntil nested stops) s fun ids s' =>
      Reads s ids s' ∧ (s'.kind = .endOfFile ∨ (stops s').1 = true) := by
  unfold statementsUntil
  refine loop_ensures (I := fun ids s' => Reads s ids s') hs.settled (.stay hs.settled)
    fun ids s₁ h₁ hs₁ => ?_
  have hsemicolons : Ensures (repeatWhile (accept .semicolon) (pure ())) s₁
      fun _ s' => Reads s₁ [] s' := by
    refine repeatWhile_reads hs₁ fun s₂ h₂ => ?_
    refine (accept_moves h₂.settled (by decide)).mono fun found s₃ h₃ => ⟨h₃.1, fun hfound => ?_⟩
    exact .pure ⟨.stay h₃.1.settled, h₃.2 hfound⟩
  refine hsemicolons.bind fun _ s₂ h₂ => ?_
  have hread := h₁.skip h₂
  -- The loop is left in two places; both are in the conclusion.
  refine .peek (.ite (fun hend => .pure ⟨hread, Or.inl (kind_eq_of_isAt hend)⟩) (fun hend => ?_))
  refine .peek (.ite (fun hstop => .pure ⟨hread, Or.inr hstop⟩) (fun _ => ?_))
  refine (listEntry_moves hn (hs.reads hread) (kind_ne_of_isAt hend)).bind fun more s₃ h₃ => ?_
  have hstep := h₂.append h₃.1
  exact .pure ⟨h₁.append hstep, hstep.moved (Nat.lt_of_le_of_lt h₂.offset_le h₃.2)⟩

theorem statementsInBraces_reads (hn : nested.Below n) (hs : Ready (n + 1) s)
    (hk : s.kind ≠ .endOfFile) (change : Context → Context) :
    Ensures (statementsInBraces nested change) s fun ids s' => Reads s ids s' := by
  unfold statementsInBraces
  refine (advance_moves hs.settled hk).bind fun _ s₁ h₁ => ?_
  have hs₁ := (hs.moved h₁.1 h₁.2).under (change s₁.context)
  have hbody := (statementsUntil_reads hn hs₁ (isAt .closeBrace)).mono fun _ _ h => h.1
  refine (within_reads change hbody).bind fun ids s₂ h₂ => ?_
  refine (expect_reads h₂.settled (by decide) _).bind fun _ s₃ h₃ => .pure ?_
  exact (h₁.1.append h₂).skip h₃.1

theorem block_reads (hn : nested.Below n) (hs : Ready (n + 1) s) :
    Ensures (block nested) s fun id s' => Reads s [id] s' := by
  unfold block
  refine .peek (.ite (fun hat => .peek ?_) (fun _ => missing_reads hs.settled _))
  refine (statementsInBraces_reads hn hs (ne_end_of_isAt hat (by decide)) _).bind
    fun ids s₁ h₁ => ?_
  exact finish_reads h₁ (by simp) trivial

theorem functionBody_reads (hn : nested.Below n) (hs : Ready (n + 1) s) :
    Ensures (functionBody nested) s fun r s' => Reads s r.toList s' := by
  unfold functionBody
  refine .peek (.ite (fun _ => .map (block_reads hn hs)) (fun _ => .pure (.stay hs.settled)))

end SelfCapture.Grammar
