import SelfCapture.Proofs.Grammar.BodyBraces

/-! # Rules that count braces

  The rules for arguments, closures, control statements and types, judged
  one by one.  Most are tidy because their parts are.  Where a rule consumes
  a token that it has only looked at from before, the token is known from
  there: the colon after a label, the brace of a labelled closure.
-/

-- A rule is judged in one search, through all its parts.
set_option synthInstance.maxSize 1000

namespace SelfCapture.Grammar

open Token (Kind)

variable {q : Nat} {nested : Readers} [nested.Count]

/-! ## Section 1: Arguments -/

/-- A name and the token after it, which has been looked at. -/
theorem nameBefore_tidy {k : Kind} (hk : k.isBrace = false) :
    Tidy .any q (do
      if ← isName then
        if ← nextIs (isAt k) then
          let label ← name
          advance
          return some label
        else
          return none
      else
        return none) where
  tallies s hs hq _ := by
    refine Ensures.holds (Q := fun _ s' => Tallies q s s') ?_
    have hstay : Ensures (pure none : Parse (Option Nat)) s fun _ s' => Tallies q s s' :=
      .pure (.refl hs q)
    refine .peek (.ite (fun hname => ?_) fun _ => hstay)
    refine (nextIs_eq (R := fun found => found = true → s.advanced.kind = k) hs.settled
      (.look ⟨.stay hs.settled.scan, kind_eq_of_isAt⟩)).bind fun found s₁ h₁ => ?_
    obtain ⟨rfl, hnext⟩ := h₁
    refine .ite (fun hfound => ?_) fun _ => hstay
    have htidy : Tidy .plain q name := inferInstance
    have hread := htidy.tallies s₁ hs hq (Spots.admits s₁ hs.settled hname)
    -- The token after the name is no brace, so it can be consumed as well.
    have hplain : (name s₁).2.kind.isBrace = false := by
      show s₁.advanced.kind.isBrace = false
      rw [hnext hfound]
      exact hk
    exact ⟨hread.trans (.advanced hread.steady q hplain)⟩

instance : Tidy .any q argumentLabel := nameBefore_tidy rfl

instance : Tidy .any q (argument nested) := by
  unfold argument
  dsimp only
  infer_instance

instance (opener closer : Kind) [IsFalse closer.isBrace] (what : String) :
    Tidy .plain q (argumentList nested opener closer what) := by
  unfold argumentList
  infer_instance

instance : Tidy .plain q (parenArguments nested) := by
  unfold parenArguments
  infer_instance

instance : Tidy .plain q (bracketArguments nested) := by
  unfold bracketArguments
  infer_instance

instance : Tidy .plain q (tupleExpression nested) := by
  unfold tupleExpression
  infer_instance

instance : Tidy .any q (collectionElement nested) := by
  unfold collectionElement
  infer_instance

instance : Tidy .any q (collectionElements nested) := by
  unfold collectionElements
  infer_instance

instance : Tidy .plain q (collectionExpression nested) := by
  unfold collectionExpression
  infer_instance

instance : Tidy .any q (bindingPattern nested) := by
  unfold bindingPattern
  infer_instance

instance : Tidy .any q (initialValue nested) := by
  unfold initialValue
  infer_instance

instance : Tidy .any q (typeClause nested) := by
  unfold typeClause
  infer_instance

/-! ## Section 2: Closures -/

instance : Tidy .any q ownershipDetail := by
  unfold ownershipDetail
  infer_instance

instance : Tidy .any q captureName := nameBefore_tidy rfl

/-- An ownership that is written is a word. -/
theorem kind_eq_of_ownership {s : State} (h : ¬ ((ownership s).1 == .strong) = true) :
    s.kind = .identifier := by
  have hword : Ensures ownership s fun r _ => ¬ (r == .strong) = true → s.kind = .identifier := by
    unfold ownership
    refine .peek (.ite (fun hweak => .pure fun _ => kind_eq_of_isWord hweak) fun _ => ?_)
    refine .peek (.ite (fun hunowned => .pure fun _ => kind_eq_of_isWord hunowned) fun _ => ?_)
    exact .pure fun hstrong => absurd rfl hstrong
  exact hword.holds h

instance : Tidy .any q (captureItem nested) := by
  unfold captureItem
  refine .fromHere fun pos => ⟨fun s hs hq _ => ?_⟩
  refine Ensures.holds (Q := fun _ s' => Tallies pos s s') (.peek ?_)
  refine .branch (P := fun _ s₁ => Tallies pos s s₁) (fun _ => .pure (.refl hs pos))
    (fun hword => ?_) fun acceptable s₁ h₁ => ?_
  · have hdetail : Tidy .plain pos (do advance; ownershipDetail) := inferInstance
    have hplain : s.kind.isBrace = false := by rw [kind_eq_of_ownership hword]
    exact ⟨hdetail.tallies s hs hq hplain⟩
  · have hitem : Tidy .any pos (if acceptable = true then do
        let name ← captureName
        let expression ← nested .expression
        if ← isMissing expression then
          return none
        else
          some <$> finish (.captureItem (ownership s).1 name expression) pos
      else
        return none) := inferInstance
    exact ⟨h₁.trans (hitem.tallies s₁ h₁.steady (Nat.le_trans hq h₁.offset_le) trivial)⟩

instance : Tidy .any q (captureList nested) := by
  unfold captureList
  infer_instance

instance : Tidy .any q (closureParameter nested) := by
  unfold closureParameter
  infer_instance

instance : Spots .plain atBareParameter := by
  unfold atBareParameter
  infer_instance

instance : Tidy .any q bareParameters := by
  unfold bareParameters
  infer_instance

instance : Tidy .any q (closureParameters nested) := by
  unfold closureParameters
  infer_instance

instance : Tidy .any q (closureSignature nested) := by
  unfold closureSignature
  refine .seq inferInstance fun _ => .seq inferInstance fun captures => ?_
  cases captures with
  | none => infer_instance
  | some captures =>
    refine .seq inferInstance fun parameters => ?_
    cases parameters with
    | none => infer_instance
    | some parameters => infer_instance

instance : Tidy .any q (optionalSignature nested) := by
  unfold optionalSignature
  infer_instance

/-- What a closure encloses is its signature and its statements. -/
instance : Tidy .opening q (closure nested) where
  tallies s hs hq hk := by
    refine Ensures.holds (Q := fun _ s' => Tallies q s s') ?_
    have hsignature : Tidy .any q (optionalSignature nested) := inferInstance
    have hstatements : Tidy .any q (unrestricted (statementsUntil nested (isAt .closeBrace))) :=
      inferInstance
    have hopen := Moves.advanced hs q
    have hread := hsignature.tallies _ hopen.steady (Nat.le_trans hq hopen.offset_le) trivial
    unfold closure
    refine .peek (.modify _ (.bind (P := fun _ s₁ => Tallies q s.advanced s₁) ⟨hread⟩
      fun signature s₁ h₁ => ?_))
    have hq₁ := Nat.le_trans hq (Nat.le_trans hopen.offset_le h₁.offset_le)
    have hrest := h₁.trans (hstatements.tallies s₁ h₁.steady hq₁ trivial)
    refine .bind (P := fun _ s₂ => Tallies q s.advanced s₂) ⟨hrest⟩ fun statements s₂ h₂ => ?_
    refine (expect_encloses hs hk h₂ _).bind fun _ s₃ h₃ => ?_
    exact ⟨h₃.made hs hq hk fun _ _ => rfl⟩

/-- Before a labelled closure there are a name and a colon. -/
theorem atLabelledClosure_finds {s : State} (hs : s.Settled) :
    Ensures atLabelledClosure s fun found s' => s' = s ∧
      (found = true → s.kind.isBrace = false ∧ s.advanced.kind = .colon ∧
        s.advanced.advanced.kind = .openBrace) := by
  unfold atLabelledClosure
  refine .peek (.ite (fun hname => ?_) (fun _ => .pure ⟨rfl, nofun⟩))
  have hplain : s.kind.isBrace = false := by
    simp only [Bool.and_eq_true] at hname
    have hspots : Spots .plain isName := inferInstance
    exact hspots.admits s hs hname.1.1
  refine lookAhead_eq ((advance_reads hs).bind fun _ s₁ h₁ => ?_)
  obtain ⟨rfl, hread⟩ := h₁
  refine (accept_reads hread.settled _).bind fun colon s₂ h₂ => ?_
  have hread₂ := hread.append h₂.1
  refine .ite (fun hcolon => .look ⟨hread₂, fun hbrace => ?_⟩) (fun _ => .pure ⟨hread₂, nofun⟩)
  obtain ⟨hk, rfl⟩ := h₂.2.1 hcolon
  exact ⟨hplain, hk, kind_eq_of_isAt hbrace⟩

theorem labelledClosure_tallies {s : State} (hs : s.Steady) (hplain : s.kind.isBrace = false)
    (hcolon : s.advanced.kind = .colon) (hbrace : s.advanced.advanced.kind = .openBrace) :
    Ensures (labelledClosure nested) s fun _ s' => Tallies s.offset s s' := by
  have hname : Tidy .plain s.offset name := inferInstance
  have hclosure : Tidy .opening s.offset (closure nested) := inferInstance
  have hlabel : Ensures name s fun _ s₁ => Tallies s.offset s s₁ ∧ s₁.kind = .colon ∧
      s₁.advanced.kind = .openBrace :=
    ⟨hname.tallies s hs (Nat.le_refl _) hplain, hcolon, hbrace⟩
  unfold labelledClosure
  refine .peek (hlabel.bind fun label s₁ h₁ => .modify _ ?_)
  obtain ⟨hread, hkind, hnext⟩ := h₁
  have hafter : Tallies s.offset s s₁.advanced :=
    hread.trans (.advanced hread.steady _ (by rw [hkind]))
  have hbody : Ensures (closure nested) s₁.advanced fun _ s₂ => Tallies s.offset s s₂ :=
    ⟨hafter.trans (hclosure.tallies s₁.advanced hafter.steady hafter.offset_le hnext)⟩
  refine hbody.bind fun expression s₂ h₂ => ?_
  have hfinish : Tidy .any s.offset
      (finish (.argument (some label) (some expression)) s.offset) := inferInstance
  exact ⟨h₂.trans (hfinish.tallies s₂ h₂.steady h₂.offset_le trivial)⟩

theorem labelledClosures_tidy :
    Tidy .any q (gatherWhile atLabelledClosure do return [← labelledClosure nested]) := by
  unfold gatherWhile
  refine loop_tidy fun nodes => ⟨fun s hs hq _ => ?_⟩
  refine Ensures.holds (Q := fun _ s' => Tallies q s s') ?_
  refine (atLabelledClosure_finds hs.settled).bind fun found s₁ h₁ => ?_
  obtain ⟨rfl, hfinds⟩ := h₁
  refine .ite (fun hfound => ?_) fun _ => .pure (.refl hs q)
  obtain ⟨hplain, hcolon, hbrace⟩ := hfinds hfound
  have hread : Ensures (labelledClosure nested) s₁ fun _ s₂ => Tallies q s₁ s₂ :=
    (labelledClosure_tallies hs hplain hcolon hbrace).mono fun _ _ h => h.mono hq
  refine .bind (P := fun _ s₂ => Tallies q s₁ s₂) ?_ fun _ _ h => .pure h
  exact hread.bind fun _ _ h => .pure h

instance : Tidy .opening q (trailingClosures nested) := by
  unfold trailingClosures
  refine .seq inferInstance fun first => .seq labelledClosures_tidy fun additional => ?_
  infer_instance

/-! ## Section 3: Types -/

instance : Spots .plain atSpecifier where
  state_eq _ hs := (atSpecifier_eq hs).holds
  admits s _ h := by
    have hat : Ensures atSpecifier s fun found _ => found = true → s.kind.isBrace = false := by
      unfold atSpecifier
      refine .peek (.ite (fun hinout => .pure fun _ => ?_) fun _ => ?_)
      · rw [kind_eq_of_isAt hinout]
      · refine .peek (.ite (fun hword => ⟨fun _ => ?_⟩) (fun _ => .pure nofun))
        rw [kind_eq_of_isOneOf hword]
    exact hat.holds h

instance : Tidy .plain q typeAttribute := by
  unfold typeAttribute
  infer_instance

instance : Tidy .any q (genericArguments nested) := by
  unfold genericArguments
  infer_instance

/-- Before an element of a tuple type there are one or two names and a colon. -/
theorem atElementLabel_finds {s : State} (hs : s.Settled) :
    Ensures atElementLabel s fun found s' => s' = s ∧
      (found = true → s.kind.isBrace = false ∧
        (s.advanced.kind = .colon ∨
          s.advanced.kind.isBrace = false ∧ s.advanced.advanced.kind = .colon)) := by
  have hspots : Spots .plain isName := inferInstance
  unfold atElementLabel
  refine .peek (.ite (fun hname => ?_) (fun _ => .pure ⟨rfl, nofun⟩))
  have hplain : s.kind.isBrace = false := hspots.admits s hs hname
  refine lookAhead_eq ((advance_reads hs).bind fun _ s₁ h₁ => ?_)
  obtain ⟨rfl, hread⟩ := h₁
  refine .peek (.ite (fun hcolon => .pure ⟨hread, fun _ => ⟨hplain, Or.inl ?_⟩⟩) fun _ => ?_)
  · exact kind_eq_of_isAt hcolon
  refine .peek (.ite (fun hname => ?_) (fun _ => .pure ⟨hread, nofun⟩))
  have hplain₁ : s.advanced.kind.isBrace = false := hspots.admits _ hread.settled hname
  refine (advance_reads hread.settled).bind fun _ s₂ h₂ => ?_
  obtain ⟨rfl, hread₂⟩ := h₂
  exact .look ⟨hread.append hread₂, fun hcolon =>
    ⟨hplain, Or.inr ⟨hplain₁, kind_eq_of_isAt hcolon⟩⟩⟩

instance : Tidy .any q elementLabels where
  tallies s hs hq _ := by
    refine Ensures.holds (Q := fun _ s' => Tallies q s s') ?_
    have hname : Tidy .plain q name := inferInstance
    unfold elementLabels
    refine (atElementLabel_finds hs.settled).bind fun found s₁ h₁ => ?_
    obtain ⟨rfl, hfinds⟩ := h₁
    refine .ite (fun hfound => ?_) fun _ => .pure (.refl hs q)
    obtain ⟨hplain, hnext⟩ := hfinds hfound
    have hfirst := hname.tallies s₁ hs hq hplain
    -- The token after the first name, and the one after the second.
    have hkind : (name s₁).2.kind = s₁.advanced.kind := rfl
    refine .bind (P := fun _ s₂ => s₂ = (name s₁).2) ⟨rfl⟩ fun first s₂ h₂ => ?_
    subst h₂
    refine .peek (.branch (P := fun _ s₂ => Tallies q s₁ s₂ ∧ s₂.kind = .colon)
      (fun hcolon => .pure ⟨hfirst, kind_eq_of_isAt hcolon⟩) (fun hno => ?_)
      fun second s₂ h₂ => ⟨h₂.1.trans (.advanced h₂.1.steady q (by rw [h₂.2]))⟩)
    obtain ⟨hplain₁, hcolon⟩ := hnext.resolve_left (kind_ne_of_isAt hno)
    have hsecond := hname.tallies _ hfirst.steady (Nat.le_trans hq hfirst.offset_le) hplain₁
    exact .map ⟨hfirst.trans hsecond, hcolon⟩

instance : Tidy .any q (tupleTypeElement nested) := by
  unfold tupleTypeElement
  dsimp only
  infer_instance

instance : Tidy .plain q (tupleTypeElements nested) := by
  unfold tupleTypeElements
  infer_instance

instance : Tidy .plain q (tupleType nested) := by
  unfold tupleType
  infer_instance

instance : Tidy .plain q (tupleOrFunctionType nested) := by
  unfold tupleOrFunctionType
  infer_instance

instance : Tidy .plain q (collectionType nested) := by
  unfold collectionType
  dsimp only
  infer_instance

instance : Tidy .any q (primaryType nested) := by
  unfold primaryType
  refine .fromHere fun pos => .onKind (inferInstanceAs (Tidy _ pos (missing "Type")))
    (inferInstanceAs (Tidy _ pos (missing "Type"))) fun k _ => ?_
  split
  all_goals infer_instance

instance : Tidy .any q (suffixedType nested) := by
  unfold suffixedType
  refine .fromHere fun pos => .seq inferInstance fun base => loop_tidy fun type => ?_
  have hdone : Tidy .any pos (pure (ForInStep.done type)) := inferInstance
  refine .onKind .of_any hdone fun k _ => ?_
  split
  all_goals infer_instance

instance : Tidy .any q (compositionType nested) := by
  unfold compositionType
  infer_instance

instance : Tidy .any q (attributedType nested) := by
  unfold attributedType
  dsimp only
  infer_instance

instance : Tidy .any q (type nested) := by
  unfold type
  infer_instance

/-! ## Section 4: Conditions, branches and loops -/

instance : Tidy .plain q (optionalBinding nested) := by
  unfold optionalBinding
  infer_instance

instance : Tidy .any q (condition nested) := by
  unfold condition
  refine .onKind (inferInstanceAs (Tidy _ q (nested .expression)))
    (inferInstanceAs (Tidy _ q (nested .expression))) fun k _ => ?_
  split
  all_goals infer_instance

instance : Tidy .any q (conditions nested) := by
  unfold conditions
  infer_instance

instance : Tidy .any q (headExpression nested) := by
  unfold headExpression
  infer_instance

instance : Tidy .any q (expressions nested) := by
  unfold expressions
  infer_instance

instance : Tidy .any q (whereCondition nested) := by
  unfold whereCondition
  infer_instance

instance : Tidy .any q (alternative nested) := by
  unfold alternative
  infer_instance

instance : Tidy .plain q (branchStatement nested) := by
  unfold branchStatement
  infer_instance

instance : Tidy .plain q (guardStatement nested) := by
  unfold guardStatement
  infer_instance

instance : Tidy .plain q (whileStatement nested) := by
  unfold whileStatement
  infer_instance

instance : Tidy .plain q (repeatStatement nested) := by
  unfold repeatStatement
  infer_instance

instance : Tidy .any q (forHead nested) := by
  unfold forHead
  infer_instance

instance : Tidy .plain q (forStatement nested) := by
  unfold forStatement
  infer_instance

/-! ## Section 5: `switch`, `do` and leaving a block -/

instance : Tidy .plain q (switchCase nested) := by
  unfold switchCase
  infer_instance

instance : Tidy .plain q (switchDefault nested) := by
  unfold switchDefault
  infer_instance

/-- The token after the number sign of a directive names it. -/
theorem atDirective_finds {s : State} (hs : s.Settled) :
    Ensures atDirective s fun found s' => s' = s ∧
      (found = true →
        Token.namesDirective s.scanner.bytes s.advanced.scanner.token = true) := by
  unfold atDirective
  have hstay : Reads s.advanced [] s.advanced := .stay hs.scan
  refine nextIs_eq (R := fun found => found = true →
    Token.namesDirective s.scanner.bytes s.advanced.scanner.token = true) hs ?_
  refine .peek (.ite (fun _ => .pure ⟨hstay, nofun⟩) fun hblank => ?_)
  have hblank : s.advanced.scanner.token.afterBlank = false := eq_false_of_ne_true hblank
  refine .peek (.peek (.ite (fun hword => .pure ⟨hstay, fun _ => ?_⟩) fun _ => ?_))
  · have hword : (s.advanced.scanner.token.kind == .ifKeyword ||
      s.advanced.scanner.token.kind == .elseKeyword) = true := hword
    rw [Token.namesDirective, hblank, hword]
    rfl
  · refine .look ⟨hstay, fun hword => ?_⟩
    rw [isOneOf_eq, Bool.and_eq_true, Scanner.tokenText] at hword
    rw [Token.namesDirective, hblank, show s.scanner.bytes = s.advanced.scanner.bytes from rfl,
      hword.2, show (s.advanced.scanner.token.kind == .identifier) = true from hword.1]
    simp

/-- A directive is skipped with the rest of its line. -/
theorem directive_tidy {α : Type} {result : α} {other : Parse α} (hother : Tidy .plain q other) :
    Tidy (.exactly .hash) q (do
      if ← atDirective then
        skipLine
        return result
      else
        other) where
  tallies s hs hq hk := by
    have hk : s.kind = .hash := hk
    refine Ensures.holds (Q := fun _ s' => Tallies q s s') ?_
    refine (atDirective_finds hs.settled).bind fun found s₁ h₁ => ?_
    obtain ⟨rfl, hfinds⟩ := h₁
    refine .ite (fun hfound => ?_) fun _ => ⟨hother.tallies s₁ hs hq (hk ▸ rfl)⟩
    refine .bind (P := fun _ s' => Tallies q s₁ s') ⟨skipLine_tallies hs fun hat => ?_⟩
      fun _ _ h => .pure h
    obtain ⟨rest, rfl, hat₁⟩ := hat.advanced hs (hk ▸ by decide)
    obtain ⟨rest, rfl⟩ := hat₁.eq_cons
    rw [Token.startsSkippedLine, show s₁.scanner.token.kind = .hash from hk]
    exact hfinds hfound

instance : Spoils q (strayInSwitch nested) := by
  unfold strayInSwitch
  infer_instance

instance : Tidy .item q (switchEntry nested) := by
  unfold switchEntry
  have hstray : Tidy .any q (strayInSwitch nested) := inferInstance
  refine .onExactly .of_any hstray fun k hk => ?_
  split
  · exact directive_tidy inferInstance
  · exact .of_plain hk inferInstance
  · exact .of_plain hk inferInstance
  · exact .of_plain hk inferInstance
  · exact .of_any

instance : Leaves q (switchCase nested) := by
  unfold switchCase
  infer_instance

instance : Leaves q (switchDefault nested) := by
  unfold switchDefault
  infer_instance

instance : Leaves q (switchEntry nested) := by
  unfold switchEntry
  have hkind : Steps q kind := inferInstance
  refine @Leaves.bind_steps _ _ _ _ _ hkind fun k => ?_
  split
  all_goals infer_instance

instance : Tidy .any q (switchEntries nested) := by
  unfold switchEntries
  have hentry : Tidy .item q _ := @entry_tidy q (switchEntry nested) _ _
  infer_instance

instance : Tidy .plain q (switchStatement nested) := by
  unfold switchStatement
  refine .fromHere fun pos => .seq inferInstance fun _ => .seq inferInstance fun value => ?_
  exact braces_tidy inferInstance (fun _ => inferInstance) inferInstance

instance : Tidy .any q (handlerHead nested) := by
  unfold handlerHead
  infer_instance

instance : Tidy .plain q (handler nested) := by
  unfold handler
  infer_instance

instance : Tidy .plain q (doStatement nested) := by
  unfold doStatement
  dsimp only
  infer_instance

instance : Tidy .plain q (deferStatement nested) := by
  unfold deferStatement
  infer_instance

instance (sort : ControlSort) : Tidy .plain q (exitStatement nested sort) := by
  unfold exitStatement
  infer_instance

instance (sort : ControlSort) : Tidy .plain q (jumpStatement sort) := by
  unfold jumpStatement
  infer_instance

instance : Tidy .plain q fallthroughStatement := by
  unfold fallthroughStatement
  infer_instance

end SelfCapture.Grammar
