import SelfCapture.Proofs.Grammar.Coverage

/-! # What the rules consume

  The rules of the grammar, judged one by one.  A phrase other than a
  statement covers a token, or there is trouble; so does every rule that
  ends with a closing bracket, with a block or with a name, since each of
  them is consumed or reported.  A rule that makes its node of the current
  token alone has to be at a token, which the rule that chooses it has
  seen.
-/

-- A rule is judged in one search, through all its parts.
set_option synthInstance.maxSize 1000

namespace SelfCapture.Grammar

open Token (Kind)

variable {stage : Stage} {q : Nat}

/-! ## Section 1: Tokens and skipped constructs -/

theorem isAt_sees {k : Kind} (hk : k ≠ .endOfFile) : Sees (isAt k) where
  state_eq _ _ := rfl
  ne_end _ _ h := ne_end_of_isAt h hk

instance : Sees (isAt .identifier) := isAt_sees (by decide)
instance : Sees (isAt .selfKeyword) := isAt_sees (by decide)
instance : Sees (isAt .integerLiteral) := isAt_sees (by decide)

instance (what : String) : Covers q (expect .closeBrace what) := expect_covers (by decide) what
instance (what : String) : Covers q (expect .openParen what) := expect_covers (by decide) what
instance (what : String) : Covers q (expect .closeParen what) := expect_covers (by decide) what
instance (what : String) : Covers q (expect .colon what) := expect_covers (by decide) what

instance (opener closer : Kind) : Orderly stage q (skipBalanced opener closer) := by
  unfold skipBalanced
  infer_instance

instance : Orderly stage q skipParens := inferInstanceAs (Orderly stage q (skipBalanced _ _))

instance : Orderly stage q skipAttachedParens := by
  unfold skipAttachedParens
  infer_instance

instance : Orderly stage q skipGenerics := inferInstanceAs (Orderly stage q (skipBalanced _ _))

instance (opener closer : Kind) : Orderly stage q (skipToCloser opener closer) := by
  unfold skipToCloser
  infer_instance

instance : Orderly stage q skipLine := by
  unfold skipLine
  infer_instance

instance : Orderly stage q skipAttribute := by
  unfold skipAttribute
  dsimp only
  infer_instance

instance : Orderly stage q skipAttributes := by
  unfold skipAttributes
  infer_instance

instance : Orderly stage q skipEffects := by
  unfold skipEffects
  infer_instance

instance : Orderly stage q skipVariadicMark := by
  unfold skipVariadicMark
  infer_instance

theorem accept_consumes {s : State} (hs : s.Sane) (hq : q ≤ s.offset) {k : Kind}
    (hat : (isAt k s).1 = true) (hk : k ≠ .endOfFile) :
    Ensures (accept k) s fun _ s' => Consumes q s s' := by
  unfold accept
  refine .peek (.ite (fun _ => ?_) (fun hnot => absurd hat hnot))
  exact ⟨.advanced hs hq (ne_end_of_isAt hat hk)⟩

/-- A list ends with its closing token, or with an issue. -/
theorem closeList_covers (opener : Kind) {closer : Kind} (hk : closer ≠ .endOfFile)
    (what : String) : Covers q (closeList opener closer what) where
  consumes s hs hq := by
    have hclose : Ensures (closeList opener closer what) s fun _ s' => Consumes q s s' := by
      unfold closeList
      dsimp only
      refine .peek (.ite (fun hat => ?_) (fun _ => ⟨Covers.consumes s hs hq⟩))
      exact (accept_consumes hs hq hat hk).bind fun _ _ h => .pure h
    exact hclose.holds

instance (opener : Kind) (what : String) : Covers q (closeList opener .closeParen what) :=
  closeList_covers opener (by decide) what
instance (opener : Kind) (what : String) : Covers q (closeList opener .closeBracket what) :=
  closeList_covers opener (by decide) what

-- Looking ahead comes back to the same state, whatever it has read.
instance : Looks opensObservers := ⟨fun _ hs => (opensObservers_eq hs).holds⟩
instance : Looks classIsModifier := ⟨fun _ hs => (classIsModifier_eq hs).holds⟩
instance : Looks modifierPrecedesDeclaration :=
  ⟨fun _ hs => (modifierPrecedesDeclaration_eq hs).holds⟩
instance : Looks atDeclaration := ⟨fun _ hs => (atDeclaration_eq hs).holds⟩
instance : Peeks atModifierWord := inferInstanceAs (Peeks (isOneOf _))

instance : Orderly stage q skipModifier := by
  unfold skipModifier
  refine .seq inferInstance fun k => ?_
  split
  all_goals infer_instance

instance : Orderly stage q skipModifiers := by
  unfold skipModifiers
  infer_instance

instance : Orderly stage q skipWhereClause := by
  unfold skipWhereClause
  refine .seq inferInstance fun found => ?_
  split
  · refine loop_orderly fun _ => .seq inferInstance fun k => ?_
    split
    all_goals infer_instance
  · infer_instance

/-! ## Section 2: Nested phrases -/

/-- Every phrase but a statement covers a token. -/
class Readers.Consume (nested : Readers) : Prop where
  covers : ∀ (phrase : Phrase) (q : Nat), phrase ≠ .statement → Covers q (nested phrase)
  orderly : ∀ (stage : Stage) (q : Nat), Orderly stage q (nested .statement)

variable {nested : Readers} [hn : nested.Consume]

instance : Covers q (nested .expression) := hn.covers .expression q nofun
instance : Covers q (nested .operand) := hn.covers .operand q nofun
instance : Covers q (nested .type) := hn.covers .type q nofun
instance : Covers q (nested .composition) := hn.covers .composition q nofun
instance : Covers q (nested .branch) := hn.covers .branch q nofun
instance : Orderly stage q (nested .statement) := hn.orderly stage q

/-! ## Section 3: Blocks and arguments -/

instance : Orderly stage q (listEntry nested) := by
  unfold listEntry
  dsimp only
  infer_instance

instance (stops : Parse Bool) [Orderly stage q stops] :
    Orderly stage q (statementsUntil nested stops) := by
  unfold statementsUntil
  infer_instance

instance (change : Context → Context) : Covers q (statementsInBraces nested change) := by
  -- Without its opening brace, the closing one still counts.
  unfold statementsInBraces
  infer_instance

instance : Covers q (block nested) := by
  -- There is a closing brace, or an issue in place of it, or of the whole block.
  unfold block
  infer_instance

instance : Orderly stage q (functionBody nested) := by
  unfold functionBody
  infer_instance

/-- A name that is read before a certain token is consumed. -/
theorem nameBefore_follows {s : State} (hs : s.Sane) (hq : q ≤ s.offset) (k : Kind) :
    Ensures
      (do
        if ← isName then
          if ← nextIs (isAt k) then
            let label ← name
            advance
            return some label
          else
            return none
        else
          return none)
      s fun r s' => Follows s s' ∧ (r ≠ none → Consumes q s s') := by
  have hnone : Ensures (pure none : Parse (Option Nat)) s fun r s' =>
      Follows s s' ∧ (r ≠ none → Consumes q s s') := .pure ⟨.refl hs, fun h => absurd rfl h⟩
  refine .peek (.ite (fun hname => ?_) (fun _ => hnone))
  refine (nextIs_eq (R := fun _ => True) hs.settled
    (.look ⟨.stay hs.settled.scan, trivial⟩)).bind fun _ s₁ h₁ => ?_
  obtain ⟨rfl, -⟩ := h₁
  refine .ite (fun _ => ?_) (fun _ => hnone)
  have htakes : Takes q (do let label ← name; advance; return some label) := inferInstance
  have hread := htakes.consumes s₁ hs hq (ne_end_of_isName hname)
  exact ⟨hread.toFollows, fun _ => hread⟩

/-- An argument has a value, unless it has a label. -/
instance : Covers q (argument nested) where
  consumes s hs hq := by
    have hargument : Ensures (argument nested) s fun _ s' => Consumes s.offset s s' := by
      unfold argument
      refine .peek ((nameBefore_follows hs (Nat.le_refl s.offset) .colon).bind
        fun label s₁ h₁ => ?_)
      have hq₁ : s.offset ≤ s₁.offset := h₁.1.offset_le
      cases label with
      | none =>
        have hvalue : Covers s.offset (do
            let expression ← nested .expression
            finish (.argument none expression) s.offset) := inferInstance
        exact ⟨h₁.1.then_consumes (hvalue.consumes s₁ h₁.1.sane hq₁)⟩
      | some label =>
        have hlabel := h₁.2 (Option.some_ne_none label)
        have hrest : Orderly .covered s.offset (do
            let labelAlone ← argumentEnds
            let expression ← if labelAlone then pure none else nested .expression
            finish (.argument (some label) expression) s.offset) := by
          dsimp only
          infer_instance
        exact ⟨hlabel.then_follows
          (hrest.follows s₁ hlabel.sane (Stage.reached_covered hlabel (Nat.le_refl s.offset)))⟩
    exact hargument.holds.mono hq

instance : Covers q (parenArguments nested) := by
  -- The closing bracket, or the issue in its place.
  unfold parenArguments argumentList
  infer_instance

instance : Covers q (bracketArguments nested) := by
  unfold bracketArguments argumentList
  infer_instance

instance : Covers q (tupleExpression nested) := by
  unfold tupleExpression
  infer_instance

instance : Covers q (collectionElement nested) := by
  unfold collectionElement
  infer_instance

instance : Orderly stage q (collectionElements nested) := by
  unfold collectionElements
  infer_instance

instance : Covers q (collectionExpression nested) := by
  unfold collectionExpression
  infer_instance

instance : Covers q (bindingPattern nested) := by
  unfold bindingPattern
  infer_instance

instance : Orderly stage q (initialValue nested) := by
  unfold initialValue
  infer_instance

instance : Orderly stage q (typeClause nested) := by
  unfold typeClause
  infer_instance

/-! ## Section 4: Closures -/

instance : Orderly stage q ownershipDetail := by
  unfold ownershipDetail
  infer_instance

instance : Orderly stage q captureName :=
  ⟨fun _ hs h => (nameBefore_follows hs h.started .equals).holds.1⟩

instance : Orderly stage q (captureItem nested) := by
  -- A captured name is covered by its value, which is an expression.
  unfold captureItem
  infer_instance

instance : Orderly stage q (captureList nested) := by
  unfold captureList
  infer_instance

instance : Orderly stage q (closureParameter nested) := by
  -- The node is only made after a name has been seen.
  unfold closureParameter
  infer_instance

instance : Sees atBareParameter := by
  unfold atBareParameter
  infer_instance

instance : Orderly stage q bareParameters := by
  unfold bareParameters
  infer_instance

instance : Orderly stage q (closureParameters nested) := by
  unfold closureParameters
  infer_instance

instance : Orderly stage q (closureSignature nested) := by
  unfold closureSignature
  refine .seq inferInstance fun _ => .seq inferInstance fun captures => ?_
  cases captures with
  | none => infer_instance
  | some captures =>
    refine .seq inferInstance fun parameters => ?_
    cases parameters with
    | none => infer_instance
    | some parameters => infer_instance

instance : Orderly stage q (optionalSignature nested) := by
  unfold optionalSignature
  infer_instance

instance : Covers q (closure nested) := by
  -- The closing brace, or the issue in its place.
  unfold closure
  infer_instance

instance : Sees atLabelledClosure where
  state_eq _ hs := (atLabelledClosure_eq hs).holds.1
  ne_end _ hs h := ((atLabelledClosure_eq hs).holds.2 h).1

instance : Takes q (labelledClosure nested) := by
  unfold labelledClosure
  infer_instance

instance : Covers q (trailingClosures nested) := by
  unfold trailingClosures
  infer_instance

/-! ## Section 5: Control statements -/

instance : Covers q (optionalBinding nested) := by
  unfold optionalBinding
  infer_instance

instance : Covers q (condition nested) := by
  unfold condition
  refine .after inferInstance fun k => ?_
  split
  all_goals infer_instance

instance : Covers q (conditions nested) := by
  unfold conditions
  infer_instance

instance : Covers q (headExpression nested) := by
  unfold headExpression
  infer_instance

instance : Covers q (expressions nested) := by
  unfold expressions
  infer_instance

instance : Orderly stage q (whereCondition nested) := by
  unfold whereCondition
  infer_instance

instance : Orderly stage q (alternative nested) := by
  unfold alternative
  infer_instance

instance : Covers q (branchStatement nested) := by
  -- The conditions, since at least one is read, or its block.
  unfold branchStatement
  infer_instance

instance : Covers q (guardStatement nested) := by
  unfold guardStatement
  infer_instance

instance : Covers q (whileStatement nested) := by
  unfold whileStatement
  infer_instance

instance : Covers q (repeatStatement nested) := by
  unfold repeatStatement
  dsimp only
  infer_instance

instance : Covers q (forHead nested) := by
  unfold forHead
  dsimp only
  infer_instance

instance : Covers q (forStatement nested) := by
  unfold forStatement
  infer_instance

instance : Covers q (switchCase nested) := by
  unfold switchCase
  infer_instance

instance : Covers q (switchDefault nested) := by
  -- The colon, since there may be no statements.
  unfold switchDefault
  infer_instance

instance : Looks atDirective := ⟨fun _ hs => (atDirective_eq hs).holds⟩

instance : Orderly stage q (strayInSwitch nested) := by
  unfold strayInSwitch
  infer_instance

instance : Orderly stage q (switchEntry nested) := by
  unfold switchEntry
  refine .seq inferInstance fun k => ?_
  split
  all_goals infer_instance

instance : Orderly stage q (switchEntries nested) := by
  unfold switchEntries
  dsimp only
  infer_instance

instance : Covers q (switchStatement nested) := by
  unfold switchStatement
  infer_instance

instance : Orderly stage q (handlerHead nested) := by
  unfold handlerHead
  dsimp only
  infer_instance

instance : Covers q (handler nested) := by
  unfold handler
  infer_instance

instance : Covers q (doStatement nested) := by
  unfold doStatement
  dsimp only
  infer_instance

instance : Covers q (deferStatement nested) := by
  unfold deferStatement
  infer_instance

instance (sort : ControlSort) : Takes q (exitStatement nested sort) := by
  -- Nothing but the keyword need be there.
  unfold exitStatement
  dsimp only
  infer_instance

instance : Takes q fallthroughStatement := by
  unfold fallthroughStatement
  infer_instance

instance (sort : ControlSort) : Takes q (jumpStatement sort) := by
  unfold jumpStatement
  infer_instance

/-! ## Section 6: Types -/

instance : Looks atOpaque := ⟨fun _ hs => (atOpaque_eq hs).holds⟩

instance : Sees atSpecifier where
  state_eq _ hs := (atSpecifier_eq hs).holds
  ne_end s _ h := by
    have hat : Ensures atSpecifier s fun found _ => found = true → s.kind ≠ .endOfFile := by
      unfold atSpecifier
      refine .peek (.ite (fun hinout => .pure fun _ => ne_end_of_isAt hinout (by decide)) ?_)
      refine fun _ => .peek (.ite (fun hword => ⟨fun _ => ?_⟩) (fun _ => .pure nofun))
      rw [kind_eq_of_isOneOf hword]
      decide
    exact hat.holds h

instance : Covers q typeAttribute := by
  unfold typeAttribute
  infer_instance

instance : Orderly stage q (genericArguments nested) := by
  unfold genericArguments
  infer_instance

/-- A label of a tuple element is found with the token after it. -/
theorem atElementLabel_ne_end {s : State} (hs : s.Settled) :
    Ensures atElementLabel s fun found s' => s' = s ∧
      (found = true → s.kind ≠ .endOfFile ∧ s.advanced.kind ≠ .endOfFile) := by
  unfold atElementLabel
  refine .peek (.ite (fun hname => ?_) (fun _ => .pure ⟨rfl, nofun⟩))
  have hk := ne_end_of_isName hname
  refine lookAhead_eq ((advance_reads hs).bind fun _ s₁ h₁ => .peek ?_)
  obtain ⟨rfl, hread⟩ := h₁
  refine .ite (fun hcolon => .pure ⟨hread, fun _ => ⟨hk, ne_end_of_isAt hcolon (by decide)⟩⟩)
    (fun _ => .peek (.ite (fun hname' => ?_) (fun _ => .pure ⟨hread, nofun⟩)))
  refine (advance_reads hread.settled).bind fun _ s₂ h₂ => .look ?_
  exact ⟨hread.append h₂.2, fun _ => ⟨hk, ne_end_of_isName hname'⟩⟩

instance : Orderly stage q elementLabels where
  follows s hs _ := by
    have hlabels : Ensures elementLabels s fun _ s' => Follows s s' := by
      unfold elementLabels
      refine (atElementLabel_ne_end hs.settled).bind fun found s₁ h₁ => ?_
      obtain ⟨rfl, hfound⟩ := h₁
      refine .ite (fun htrue => ?_) (fun _ => .pure (.refl hs))
      obtain ⟨hk, hk'⟩ := hfound htrue
      -- The second name is the token after the first, which is no colon.
      have hfirst : Ensures name s₁ fun _ s₂ => Follows s₁ s₂ ∧ s₂.kind ≠ .endOfFile :=
        ⟨(Takes.consumes s₁ hs (Nat.le_refl s₁.offset) hk).toFollows, hk'⟩
      refine hfirst.bind fun first s₂ h₂ => .peek ?_
      refine .branch (P := fun _ s₃ => Follows s₂ s₃) (fun _ => .pure (.refl h₂.1.sane))
        (fun _ => ?_) fun second s₃ h₃ => ?_
      · exact .map ⟨(Takes.consumes s₂ h₂.1.sane (Nat.le_refl s₂.offset) h₂.2).toFollows⟩
      · exact ⟨(h₂.1.trans h₃).trans (.advanced h₃.sane)⟩
    exact hlabels.holds

instance : Covers q (tupleTypeElement nested) := by
  unfold tupleTypeElement
  dsimp only
  infer_instance

instance : Covers q (tupleTypeElements nested) := by
  unfold tupleTypeElements
  infer_instance

instance : Covers q (tupleType nested) := by
  unfold tupleType
  infer_instance

instance : Covers q (tupleOrFunctionType nested) := by
  unfold tupleOrFunctionType
  infer_instance

instance : Covers q (collectionType nested) := by
  unfold collectionType
  dsimp only
  infer_instance

instance : Covers q (primaryType nested) := by
  unfold primaryType
  -- At the end of the text no type starts.
  refine .fromHere fun pos => .onKind (inferInstanceAs (Covers pos (missing "Type"))) fun k => ?_
  split
  all_goals infer_instance

instance : Covers q (suffixedType nested) := by
  unfold suffixedType
  -- Each suffix makes a node from the start of the primary type on.
  refine .fromHere fun pos => .seq inferInstance fun base => loop_orderly fun type => ?_
  refine .seq inferInstance fun k => ?_
  split
  all_goals infer_instance

instance : Covers q (compositionType nested) := by
  -- The first member.
  unfold compositionType
  infer_instance

instance : Covers q (attributedType nested) := by
  -- What the attributes and the specifier stand before is a type.
  unfold attributedType
  dsimp only
  infer_instance

instance : Covers q (type nested) := by
  unfold type
  infer_instance

end SelfCapture.Grammar
