import SelfCapture.Grammar.DeclarationStart
import SelfCapture.Proofs.Grammar.Ensures

/-! # Reading without making nodes

  Skipped constructs, and the tests that look ahead for a declaration.
  None of them leaves a node, and those that are repeated move on in the
  text whenever they find what they skip.
-/

namespace SelfCapture.Grammar

open Token (Kind)

variable {s : State}

/-! ## Section 1: Balanced groups -/

/-- One step of skipping that consumes a token. -/
theorem advance_yield {β : Type} {R : β → State → Prop} {s₁ : State} (value : β)
    (h : Reads s [] s₁) (hk : s₁.kind ≠ .endOfFile) :
    Ensures (do advance; return .yield value) s₁ (Advances (fun _ s' => Reads s [] s') R s₁) := by
  refine (advance_moves h.settled hk).bind fun _ s₂ h₂ => .pure ?_
  exact ⟨h.append h₂.1, h₂.1.moved h₂.2⟩

theorem skipBalanced_reads (hs : s.Settled) (opener closer : Kind) :
    Ensures (skipBalanced opener closer) s fun _ s' => Reads s [] s' := by
  unfold skipBalanced
  refine .peek (.ite (fun _ => ?_) (fun _ => .pure (.stay hs)))
  refine (loop_ensures (I := fun _ s' => Reads s [] s') (R := fun _ s' => Reads s [] s')
    hs (.stay hs) fun depth s₁ h₁ _ => ?_).bind fun _ _ h => .pure h
  refine .peek (.ite (fun _ => .pure h₁) (fun hk => ?_))
  have hk : s₁.kind ≠ .endOfFile := fun h => hk (beq_iff_eq.mpr h)
  refine .ite (fun _ => advance_yield _ h₁ hk) (fun _ => ?_)
  refine .ite (fun _ => ?_) (fun _ => advance_yield _ h₁ hk)
  -- The closer that matches the first opener ends the group and is consumed with it.
  refine (advance_moves h₁.settled hk).bind fun _ s₂ h₂ => .pure ?_
  split
  · exact h₁.append h₂.1
  · exact ⟨h₁.append h₂.1, h₂.1.moved h₂.2⟩

theorem skipParens_reads (hs : s.Settled) : Ensures skipParens s fun _ s' => Reads s [] s' :=
  skipBalanced_reads hs _ _

theorem skipAttachedParens_reads (hs : s.Settled) :
    Ensures skipAttachedParens s fun _ s' => Reads s [] s' := by
  unfold skipAttachedParens
  refine .peek (.peek (.ite (fun _ => ?_) (fun _ => .pure (.stay hs))))
  exact skipParens_reads hs

theorem skipGenerics_reads (hs : s.Settled) : Ensures skipGenerics s fun _ s' => Reads s [] s' :=
  skipBalanced_reads hs _ _

theorem skipToCloser_reads (hs : s.Settled) (opener closer : Kind) :
    Ensures (skipToCloser opener closer) s fun _ s' => Reads s [] s' := by
  unfold skipToCloser
  refine (loop_ensures (I := fun _ s' => Reads s [] s') (R := fun _ s' => Reads s [] s')
    hs (.stay hs) fun depth s₁ h₁ _ => ?_).bind fun _ _ h => .pure h
  refine .peek (.ite (fun _ => .pure h₁) (fun hk => ?_))
  have hk : s₁.kind ≠ .endOfFile := fun h => hk (beq_iff_eq.mpr h)
  refine .ite (fun _ => .ite (fun _ => .pure h₁) (fun _ => advance_yield _ h₁ hk)) (fun _ => ?_)
  refine .ite (fun _ => advance_yield _ h₁ hk) (fun _ => ?_)
  exact .ite (fun _ => .pure h₁) (fun _ => advance_yield _ h₁ hk)

theorem closeList_reads (hs : s.Settled) (opener closer : Kind) (what : String) :
    Ensures (closeList opener closer what) s fun _ s' => Reads s [] s' := by
  unfold closeList
  refine .peek ?_
  -- Both ways lead to the closer, which is consumed if it is there.
  extract_lets rest
  have hrest : ∀ s₁, Reads s [] s₁ → Ensures (rest ()) s₁ fun _ s' => Reads s [] s' := by
    intro s₁ h₁
    exact (accept_reads h₁.settled closer).bind fun _ s₂ h₂ => .pure (h₁.append h₂.1)
  refine .ite (fun _ => hrest s (.stay hs)) (fun _ => ?_)
  refine (reportExpected_reads hs what).bind fun _ s₁ h₁ => ?_
  refine (skipToCloser_reads h₁.1.settled opener closer).bind fun _ s₂ h₂ => ?_
  exact hrest s₂ (h₁.1.append h₂)

/-! ## Section 2: Lines, attributes and effects -/

theorem skipLine_reads (hs : s.Settled) : Ensures skipLine s fun _ s' => Reads s [] s' := by
  unfold skipLine
  refine loop_ensures (I := fun _ s' => Reads s [] s') hs (.stay hs) fun _ s₁ h₁ _ => ?_
  refine .peek (.ite (fun _ => .pure h₁) (fun hk => ?_))
  have hk : s₁.kind ≠ .endOfFile := kind_ne_of_isAt hk
  -- The token is consumed before the test, so also the last round moves on.
  refine (advance_moves h₁.settled hk).bind fun _ s₂ h₂ => .peek (.pure ?_)
  split
  · exact h₁.append h₂.1
  · exact ⟨h₁.append h₂.1, h₂.1.moved h₂.2⟩

/-- A token that may be skipped if it can serve as a name. -/
theorem skipName_reads (hs : s.Settled) :
    Ensures (do if ← isName then advance) s fun _ s' => Reads s [] s' :=
  .peek (.ite (fun _ => advance_skips hs) (fun _ => .pure (.stay hs)))

/-- An attribute is left behind. -/
theorem skipAttribute_moves (hs : s.Settled) (hk : s.kind ≠ .endOfFile) :
    Ensures skipAttribute s fun _ s' => Reads s [] s' ∧ s.offset < s'.offset := by
  unfold skipAttribute
  refine (advance_moves hs hk).bind fun _ s₁ h₁ => .peek ?_
  refine .ifThen (P := fun s₂ => Reads s₁ [] s₂) (fun _ => advance_skips h₁.1.settled)
    (fun _ => .stay h₁.1.settled) fun s₂ h₂ => ?_
  have hmembers : Ensures (repeatWhile (do return (← isAt .dot) && !(← afterBlank)) do
      advance
      if ← isName then advance) s₂ fun _ s' => Reads s₂ [] s' := by
    refine repeatWhile_reads h₂.settled fun s₃ h₃ => .peek (.peek (.pure ⟨.stay h₃.settled, ?_⟩))
    -- A further name may be missing, but its dot is consumed.
    intro hdot
    have hk₃ := ne_end_of_isAt (Bool.and_eq_true_iff.mp hdot).1 (by decide)
    refine (advance_moves h₃.settled hk₃).bind fun _ s₄ h₄ => ?_
    refine (skipName_reads h₄.1.settled).mono fun _ s₅ h₅ => ⟨h₄.1.append h₅, ?_⟩
    exact h₅.offset_lt h₄.2
  refine hmembers.bind fun _ s₃ h₃ => ?_
  refine (skipAttachedParens_reads h₃.settled).mono fun _ s₄ h₄ => ?_
  have hrest := (h₂.append h₃).append h₄
  exact ⟨h₁.1.append hrest, hrest.offset_lt h₁.2⟩

theorem skipAttributes_reads (hs : s.Settled) :
    Ensures skipAttributes s fun _ s' => Reads s [] s' := by
  unfold skipAttributes
  refine repeatWhile_reads hs fun s₁ h₁ => .look ⟨.stay h₁.settled, fun hat => ?_⟩
  exact skipAttribute_moves h₁.settled (ne_end_of_isAt hat (by decide))

theorem skipEffects_reads (hs : s.Settled) : Ensures skipEffects s fun _ s' => Reads s [] s' := by
  unfold skipEffects
  refine loop_ensures (I := fun _ s' => Reads s [] s') hs (.stay hs) fun skipped s₁ h₁ _ => ?_
  refine .peek (.ite (fun hword => ?_) (fun _ => ?_))
  · exact advance_yield _ h₁ (by rw [kind_eq_of_isOneOf hword]; decide)
  · refine .peek (.ite (fun hat => ?_) (fun _ => .peek (.ite (fun hat => ?_) (fun _ => .pure h₁))))
    · have hk := ne_end_of_isAt hat (by decide)
      refine (advance_moves h₁.settled hk).bind fun _ s₂ h₂ => ?_
      refine (skipAttachedParens_reads h₂.1.settled).bind fun _ s₃ h₃ => .pure ?_
      have hstep := h₂.1.append h₃
      exact ⟨h₁.append hstep, hstep.moved (h₃.offset_lt h₂.2)⟩
    · exact advance_yield _ h₁ (ne_end_of_isAt hat (by decide))

theorem skipVariadicMark_reads (hs : s.Settled) :
    Ensures skipVariadicMark s fun _ s' => Reads s [] s' := by
  unfold skipVariadicMark
  exact .peek (.peek (.ite (fun _ => advance_skips hs) (fun _ => .pure (.stay hs))))

theorem opensObservers_eq (hs : s.Settled) : Ensures opensObservers s fun _ s' => s' = s := by
  unfold opensObservers
  refine (lookAhead_eq (R := fun _ => True) ?_).mono fun _ _ h => h.1
  refine (advance_reads hs).bind fun _ s₁ h₁ => .peek (.ite (fun _ => ?_) (fun _ => ?_))
  · refine (advance_reads h₁.2.settled).bind fun _ s₂ h₂ => .peek (.peek (.pure ?_))
    exact ⟨h₁.2.append h₂.2, trivial⟩
  · exact .pure ⟨h₁.2, trivial⟩

/-! ## Section 3: Where declarations start -/

theorem atDeclarationKeyword_eq (hs : s.Settled) :
    Ensures atDeclarationKeyword s fun _ s' => s' = s := by
  unfold atDeclarationKeyword
  refine .peek (.ite (fun _ => .pure rfl) (fun _ => ?_))
  refine .ite (fun _ => .peek (.pure rfl)) (fun _ => .peek (.ite (fun _ => ?_) (fun _ => .pure rfl)))
  refine (nextIs_eq (R := fun _ => True) hs ?_).mono fun _ _ h => h.1
  exact .look ⟨.stay hs.scan, trivial⟩

theorem classIsModifier_eq (hs : s.Settled) : Ensures classIsModifier s fun _ s' => s' = s := by
  unfold classIsModifier
  refine (nextIs_eq (R := fun _ => True) hs (.peek ?_)).mono fun _ _ h => h.1
  have hstay : Reads s.advanced [] s.advanced := .stay hs.scan
  split
  -- Any other token has to be a modifier itself.
  all_goals first | exact .pure ⟨hstay, trivial⟩ | skip
  unfold atModifierWord
  exact .look ⟨hstay, trivial⟩

theorem modifierDetail_reads (hs : s.Settled) :
    Ensures modifierDetail s fun _ s' => Reads s [] s' := by
  unfold modifierDetail
  refine .peek (.peek (.ite (fun _ => ?_) (fun _ => .pure (.stay hs))))
  refine (advance_reads hs).bind fun _ s₁ h₁ => ?_
  refine (accept_reads h₁.2.settled _).bind fun _ s₂ h₂ => .ite (fun _ => ?_) (fun _ => ?_)
  · exact (accept_reads h₂.1.settled _).mono fun _ s₃ h₃ => (h₁.2.append h₂.1).append h₃.1
  · exact .pure (h₁.2.append h₂.1)

theorem modifierPrecedesDeclaration_eq (hs : s.Settled) :
    Ensures modifierPrecedesDeclaration s fun _ s' => s' = s := by
  unfold modifierPrecedesDeclaration
  refine (lookAhead_eq (R := fun _ => True) ?_).mono fun _ _ h => h.1
  refine (advance_reads hs).bind fun _ s₁ h₁ => ?_
  refine (modifierDetail_reads h₁.2.settled).bind fun _ s₂ h₂ => ?_
  have hread : Reads s [] s₂ := h₁.2.append h₂
  refine .ite (fun _ => .peek (.ite (fun _ => .pure ⟨hread, trivial⟩) (fun _ => .peek ?_)))
    (fun _ => .pure ⟨hread, trivial⟩)
  split
  all_goals first | exact .pure ⟨hread, trivial⟩ | skip
  unfold atModifierWord
  refine .peek (.ite (fun _ => .pure ⟨hread, trivial⟩) (fun _ => ?_))
  refine (atDeclarationKeyword_eq h₂.settled).mono fun _ s₃ h₃ => ?_
  rw [h₃]
  exact ⟨hread, trivial⟩

/-- A modifier that is found is left behind. -/
theorem skipModifier_moves (hs : s.Settled) :
    Ensures skipModifier s fun found s' =>
      Reads s [] s' ∧ (found = true → s.offset < s'.offset) := by
  have hnone : Ensures (pure false : Parse Bool) s fun found s' =>
      Reads s [] s' ∧ (found = true → s.offset < s'.offset) := .pure ⟨.stay hs, nofun⟩
  -- A modifier that is a keyword is one token.
  have hadvance : s.kind ≠ .endOfFile → Ensures (do advance; return true) s fun found s' =>
      Reads s [] s' ∧ (found = true → s.offset < s'.offset) := by
    intro hk
    exact (advance_moves hs hk).bind fun _ s₁ h₁ => .pure ⟨h₁.1, fun _ => h₁.2⟩
  unfold skipModifier
  refine .peek ?_
  split
  · rename_i hk
    refine (skipAttribute_moves hs ?_).bind fun _ s₁ h₁ => .pure ⟨h₁.1, fun _ => h₁.2⟩
    exact (ne_end_of_kind hk (by decide))
  · rename_i hk
    exact hadvance (ne_end_of_kind hk (by decide))
  · -- `class` is a modifier before another declaration, and looking ahead reads nothing.
    rename_i hk
    refine (classIsModifier_eq hs).bind fun _ s₁ h₁ => ?_
    subst h₁
    exact .ite (fun _ => hadvance (ne_end_of_kind hk (by decide))) (fun _ => hnone)
  · rename_i hk
    unfold atModifierWord
    refine .peek (.ite (fun _ => ?_) (fun _ => hnone))
    refine (modifierPrecedesDeclaration_eq hs).bind fun _ s₁ h₁ => ?_
    subst h₁
    refine .ite (fun _ => ?_) (fun _ => hnone)
    refine (advance_moves hs (ne_end_of_kind hk (by decide))).bind fun _ s₂ h₂ => ?_
    refine (skipAttachedParens_reads h₂.1.settled).bind fun _ s₃ h₃ => .pure ?_
    exact ⟨h₂.1.append h₃, fun _ => h₃.offset_lt h₂.2⟩
  · exact hnone

theorem skipModifiers_reads (hs : s.Settled) :
    Ensures skipModifiers s fun _ s' => Reads s [] s' := by
  unfold skipModifiers
  refine repeatWhile_reads hs fun s₁ h₁ => ?_
  refine (skipModifier_moves h₁.settled).mono fun found s₂ h₂ => ⟨h₂.1, fun hfound => .pure ?_⟩
  exact ⟨.stay h₂.1.settled, h₂.2 hfound⟩

theorem atDeclaration_eq (hs : s.Settled) : Ensures atDeclaration s fun _ s' => s' = s := by
  have hlook : Ensures (lookAhead do skipModifiers; atDeclarationKeyword) s
      fun _ s' => s' = s := by
    refine (lookAhead_eq (R := fun _ => True) ?_).mono fun _ _ h => h.1
    refine (skipModifiers_reads hs).bind fun _ s₁ h₁ => ?_
    refine (atDeclarationKeyword_eq h₁.settled).mono fun _ s₂ h₂ => ?_
    rw [h₂]
    exact ⟨h₁, trivial⟩
  unfold atDeclaration
  refine .peek ?_
  split
  · exact hlook
  · exact hlook
  · exact hlook
  · exact hlook
  · exact atDeclarationKeyword_eq hs

theorem skipWhereClause_reads (hs : s.Settled) :
    Ensures skipWhereClause s fun _ s' => Reads s [] s' := by
  unfold skipWhereClause
  refine (accept_reads hs _).bind fun _ s₁ h₁ => .ite (fun _ => ?_) (fun _ => .pure h₁.1)
  refine loop_ensures (I := fun _ s' => Reads s [] s') h₁.1.settled h₁.1 fun _ s₂ h₂ hs₂ => ?_
  refine .peek ?_
  split
  · exact .pure h₂
  · exact .pure h₂
  · exact .pure h₂
  · -- Any other token is skipped, unless a declaration starts there.
    rename_i hk _ _
    refine .peek (.branch (P := fun _ s₃ => s₃ = s₂) (fun _ => atDeclaration_eq hs₂)
      (fun _ => .pure rfl) fun _ s₃ h₃ => ?_)
    subst h₃
    exact .ite (fun _ => .pure h₂) (fun _ => advance_yield _ h₂ hk)

end SelfCapture.Grammar
