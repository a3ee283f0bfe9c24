import SelfCapture.Proofs.Grammar.Consumption

/-! # Texts without empty nodes

  The rest of the grammar: expressions, declarations and statements.  Every
  choice of a primary expression covers a token, and so do the suffixes
  after it, since they make their nodes from its start on.

  The expressions in a string literal are read in windows of their own, in
  which nothing has been consumed at first.  Afterwards the token of the
  literal is the current one again, and covers the literal.

  With `parse_full`, a text without diagnostics has no empty node below its
  root.
-/

set_option synthInstance.maxSize 1000

namespace SelfCapture.Grammar

open Token (Kind)

variable {stage : Stage} {q : Nat} {nested : Readers} [nested.Consume]

/-! ## Section 1: String literals -/

/-- At the start of a window nothing has been consumed in it. -/
theorem State.Clean.entered {s : State} (hs : s.Clean) (segment : Segment) :
    (s.entered segment).Sane ∧ Gains s (s.entered segment) :=
  ⟨⟨⟨hs.issue, hs.full⟩, s.entered_settled segment, s.entered_behind segment⟩,
    ⟨rfl, Nat.le_refl _, id, Nat.le_refl _, fun _ => rfl⟩⟩

theorem windowArguments_orderly (nested : Readers) [nested.Consume] :
    Orderly .started 0 (windowArguments nested) := by
  unfold windowArguments interpolatedArgument
  dsimp only
  infer_instance

theorem interpolations_gains (segments : List Segment) {s : State} (hs : s.Clean) :
    Ensures (interpolations nested segments) s fun _ s' => Gains s s' ∧ s'.Clean := by
  induction segments generalizing s with
  | nil => exact .pure ⟨.refl s, hs⟩
  | cons segment rest ih =>
    -- The offset goes back at each window, so only what is gained is carried on.
    obtain ⟨hsane, hgains⟩ := hs.entered segment
    have hread := (windowArguments_orderly nested).follows _ hsane (Nat.zero_le _)
    have hwindow : Ensures (windowArguments nested) (s.entered segment) fun _ s' =>
        Follows (s.entered segment) s' := ⟨hread⟩
    refine interpolations_cons hwindow fun arguments s₁ h₁ => ?_
    refine (ih h₁.sane.toClean).mono fun others s₂ h₂ => ?_
    exact ⟨(hgains.trans h₁.toGains).trans h₂.1, h₂.2⟩

/-- Back at the literal, its token is the current one. -/
theorem interpolatedParts_follows (segments : List Segment) {s : State} (hs : s.Sane) :
    Ensures (interpolatedParts nested segments) s fun _ s' =>
      Follows s s' ∧ s'.kind = s.kind := by
  unfold interpolatedParts
  refine .peek ((interpolations_gains segments hs.toClean).bind fun parts s₁ h₁ => ?_)
  obtain ⟨hgains, hclean⟩ := h₁
  have hback : Gains s (s₁.returned s) :=
    ⟨hgains.bytes_eq, hgains.diagnostics_le, hgains.exhausted_imp, hgains.nextId_le,
      hgains.range_eq⟩
  have hsane : (s₁.returned s).Sane :=
    ⟨⟨hclean.issue, hclean.full⟩, hs.settled.restore hgains.bytes_eq, hs.behind⟩
  exact ⟨⟨hback, hsane, Nat.le_refl _, Nat.le_refl _⟩, rfl⟩

/-- The parts of a literal with the token that the literal is. -/
theorem stringParts_consumes (segments : List Segment) {s : State} (hs : s.Sane)
    (hk : s.kind ≠ .endOfFile) :
    Ensures (guarded (pure []) (interpolatedParts nested segments)) s fun _ s' =>
      Consumes s.offset s s'.advanced := by
  refine guarded_cases (fun _ => ?_) fun _ => ?_
  · have hdeep := (giveUp_covers (pure ([] : List Nat))).consumes s hs (Nat.le_refl s.offset)
    exact ⟨hdeep.then_follows (.advanced hdeep.sane)⟩
  · have hdeeper : Follows s s.deeper := (Follows.refl hs).surround s.context (s.depth + 1)
    refine (interpolatedParts_follows segments hdeeper.sane).mono fun parts s₁ h₁ => ?_
    have hback : Follows s s₁.shallower := (hdeeper.trans h₁.1).surround _ _
    exact hback.then_consumes (.advanced hback.sane hback.offset_le (h₁.2 ▸ hk))

instance : Takes q (stringExpression nested) where
  consumes s hs hq hk := by
    have hstring : Ensures (stringExpression nested) s fun _ s' => Consumes s.offset s s' := by
      unfold stringExpression
      refine .peek (.peek (.branch (P := fun _ s₁ => Consumes s.offset s s₁.advanced)
        (fun _ => .pure (.advanced hs (Nat.le_refl s.offset) hk))
        (fun _ => stringParts_consumes _ hs hk) fun parts s₁ h₁ => .modify _ ?_))
      have hfinish : Orderly .covered s.offset (finish (.stringLiteral parts) s.offset) :=
        inferInstance
      exact ⟨h₁.then_follows
        (hfinish.follows _ h₁.sane (Stage.reached_covered h₁ (Nat.le_refl s.offset)))⟩
    exact hstring.holds.mono hq

/-! ## Section 2: Expressions -/

instance : Takes q skipOperator := by
  unfold skipOperator
  infer_instance

instance : Takes q operatorNode := by
  unfold operatorNode
  infer_instance

instance : Orderly stage q skipMark := by
  unfold skipMark
  infer_instance

instance : Covers q (castNode nested) := by
  unfold castNode
  dsimp only
  infer_instance

instance : Covers q implicitMember := by
  unfold implicitMember
  infer_instance

instance : Covers q poundExpression := by
  -- The name after the number sign, or the issue in its place.
  unfold poundExpression
  dsimp only
  infer_instance

instance : Covers q (bindingExpression nested) := by
  unfold bindingExpression
  infer_instance

instance : Takes q literal := by
  unfold literal
  infer_instance

instance (statement : Parse Nat) [Covers q statement] :
    Covers q (statementExpression statement) := by
  unfold statementExpression
  infer_instance

instance : Covers q (plainPrimary nested) := by
  -- Every token starts an expression or is reported, and so is the end.
  unfold plainPrimary
  refine .onKind (inferInstanceAs (Covers q (some <$> missing "Expression"))) fun k => ?_
  split
  all_goals infer_instance

instance : Covers q (primary nested) := by
  unfold primary
  infer_instance

instance : Orderly stage q (typeList nested) := by
  unfold typeList
  infer_instance

instance : Orderly stage q (specialization nested) := by
  -- What an attempt has consumed may be given back, so it does not count.
  unfold specialization
  refine attempt_orderly (.seq inferInstance fun _ => .seq inferInstance fun types => ?_)
  cases types with
  | none => infer_instance
  | some types => infer_instance

instance : Looks atTrailingClosure := ⟨fun _ hs => (atTrailingClosure_eq hs).holds.1⟩
instance : Looks isInfixHere := ⟨fun _ hs => (isInfixHere_eq hs).holds⟩

section suffixes

variable (pos : Nat) (base : Option Nat)

instance : Orderly .covered pos (memberSuffix pos base) := by
  unfold memberSuffix
  dsimp only
  infer_instance

instance : Covers pos (callSuffix nested pos base) := by
  unfold callSuffix
  dsimp only
  infer_instance

instance : Covers pos (trailingSuffix nested pos base) := by
  unfold trailingSuffix
  dsimp only
  infer_instance

instance : Covers pos (subscriptSuffix nested pos base) := by
  unfold subscriptSuffix
  infer_instance

instance : Orderly .covered pos (operatorSuffix pos base) := by
  unfold operatorSuffix
  infer_instance

instance : Orderly .covered pos (genericSuffix nested pos base) := by
  unfold genericSuffix
  refine .seq inferInstance fun arguments => ?_
  cases arguments with
  | none => infer_instance
  | some arguments => infer_instance

instance : Orderly .covered pos (suffix? nested pos base) := by
  unfold suffix?
  refine .seq inferInstance fun k => ?_
  split
  all_goals infer_instance

end suffixes

instance : Covers q (suffixedExpression nested) := by
  -- The primary expression is consumed before any suffix makes a node at its start.
  unfold suffixedExpression
  refine .fromHere fun pos => .seq inferInstance fun base => loop_orderly fun expression => ?_
  refine .seq inferInstance fun extended => ?_
  cases extended with
  | none => infer_instance
  | some extended => infer_instance

instance : Covers q (prefixedExpression nested) := by
  -- An operator that stands alone is covered by its own token.
  unfold prefixedExpression
  refine .fromHere fun pos => .onKind (inferInstanceAs (Covers pos (suffixedExpression nested)))
    fun k => ?_
  split
  all_goals infer_instance

instance : Covers q (ternaryPart nested) := by
  unfold ternaryPart
  infer_instance

instance : Takes q (infixPart nested) := by
  unfold infixPart
  infer_instance

instance : Orderly stage q (sequencePart nested) := by
  -- An operator is only read where there is one, which the end is not.
  unfold sequencePart
  refine .onKind (inferInstanceAs (Orderly stage q (pure []))) fun k => ?_
  split
  all_goals infer_instance

instance : Covers q (sequenceExpression nested) := by
  unfold sequenceExpression
  infer_instance

instance : Covers q missingExpression := by
  unfold missingExpression
  infer_instance

instance : Covers q (expression nested) := by
  unfold expression
  infer_instance

instance : Covers q (operand nested) := by
  unfold operand
  infer_instance

/-! ## Section 3: Declarations -/

instance : Covers q (parameter nested) := by
  -- The name, or the issue in its place.
  unfold parameter
  dsimp only
  infer_instance

instance : Covers q (parameterClause nested) := by
  unfold parameterClause
  infer_instance

instance : Orderly stage q (resultClause nested) := by
  unfold resultClause
  infer_instance

instance : Orderly stage q skipAccessorModifiers := by
  unfold skipAccessorModifiers
  infer_instance

instance : Looks opensAccessors := ⟨fun _ hs => (opensAccessors_eq hs).holds⟩

instance : Orderly stage q accessorParameter := by
  unfold accessorParameter
  dsimp only
  infer_instance

instance : Orderly stage q (accessor nested) := by
  unfold accessor
  infer_instance

instance : Covers q (accessorBlock nested) := by
  -- The closing brace, also if there are no accessors.
  unfold accessorBlock
  dsimp only
  infer_instance

/-- An operator starts the name of a function with a token. -/
instance : Covers q functionName where
  consumes s hs hq := by
    have hname : Ensures functionName s fun _ s' => Consumes q s s' := by
      unfold functionName
      refine .peek (.ite (fun hname => ?_) (fun _ => .peek (.ite (fun hoperator => ?_) (fun _ => ?_))))
      · exact ⟨Takes.consumes s hs hq (ne_end_of_isName hname)⟩
      · exact ⟨Takes.consumes s hs hq (ne_end_of_inOperatorName hoperator)⟩
      · exact ⟨Covers.consumes s hs hq⟩
    exact hname.holds

section declarations

variable (pos : Nat)

instance : Covers pos (functionDeclaration nested pos) := by
  unfold functionDeclaration
  infer_instance

instance : Takes pos (initializerDeclaration nested pos) := by
  unfold initializerDeclaration
  dsimp only
  infer_instance

instance : Takes pos (deinitializerDeclaration nested pos) := by
  unfold deinitializerDeclaration
  infer_instance

instance : Takes pos (subscriptDeclaration nested pos) := by
  unfold subscriptDeclaration
  dsimp only
  infer_instance

instance : Orderly stage q (inheritanceClause nested) := by
  unfold inheritanceClause
  infer_instance

instance : Covers q (memberBlock nested) := by
  unfold memberBlock
  infer_instance

instance (sort : TypeSort) : Covers pos (typeDeclaration nested sort pos) := by
  unfold typeDeclaration
  dsimp only
  infer_instance

instance : Covers pos (typeAliasDeclaration nested pos) := by
  unfold typeAliasDeclaration
  dsimp only
  infer_instance

instance : Covers q (patternBinding nested) := by
  unfold patternBinding
  dsimp only
  infer_instance

instance : Covers pos (variableDeclaration nested pos) := by
  unfold variableDeclaration
  infer_instance

instance : Covers q (enumCaseElement nested) := by
  unfold enumCaseElement
  dsimp only
  infer_instance

instance : Covers pos (enumCaseDeclaration nested pos) := by
  unfold enumCaseDeclaration
  infer_instance

end declarations

instance : Orderly stage q skipPrecedenceGroup := by
  unfold skipPrecedenceGroup
  dsimp only
  infer_instance

instance : Orderly stage q (declaration nested) := by
  -- Modifiers may have been skipped, so the node starts before the keyword.
  unfold declaration
  refine .fromHere fun pos => .seq inferInstance fun _ => .onKind ?_ fun k => ?_
  · dsimp only
    infer_instance
  · split
    all_goals infer_instance

/-! ## Section 4: Statements -/

instance : Looks atLabelledStatement := ⟨fun _ hs => (atLabelledStatement_eq hs).holds⟩

instance : Orderly stage q (controlStatement? nested) := by
  unfold controlStatement?
  refine .onKind (inferInstanceAs (Orderly stage q (pure none))) fun k => ?_
  split
  all_goals infer_instance

instance : Orderly stage q (plainStatement nested) := by
  unfold plainStatement
  infer_instance

instance : Orderly stage q (anyStatement nested) := by
  -- A statement need not cover anything: the text may be at its end.
  unfold anyStatement
  refine .seq inferInstance fun k => ?_
  split
  · infer_instance
  · infer_instance
  · refine .seq inferInstance fun statement => ?_
    cases statement with
    | none => infer_instance
    | some statement => infer_instance

instance : Orderly stage q (statement nested) := by
  unfold statement
  infer_instance

instance : Readers.Consume (phrase nested) where
  covers p q hp := by
    cases p with
    | expression => exact inferInstanceAs (Covers q (expression nested))
    | operand => exact inferInstanceAs (Covers q (operand nested))
    | statement => exact absurd rfl hp
    | type => exact inferInstanceAs (Covers q (type nested))
    | composition => exact inferInstanceAs (Covers q (compositionType nested))
    | branch => exact inferInstanceAs (Covers q (branchStatement nested))
  orderly stage q := inferInstanceAs (Orderly stage q (statement nested))

/-! ## Section 5: Whole texts -/

/-- What is not read because the allowance is used up. -/
instance : noReader.Consume where
  covers p q hp := by
    have hmissing : Covers q (do exhaust; let pos ← position; make .missing pos pos) := by
      refine ⟨fun s hs _ => ?_⟩
      have hread := Consumes.exhausted hs q
      exact hread.then_follows (.made hread.sane (Or.inl (Or.inr rfl)))
    cases p with
    | expression | operand => exact inferInstanceAs (Covers q (do exhaust; return none))
    | statement => exact absurd rfl hp
    | type | composition | branch => exact hmissing
  orderly stage q := inferInstanceAs (Orderly stage q (do exhaust; return none))

instance (count : Nat) : (reader count).Consume := by
  induction count with
  | zero => exact inferInstanceAs noReader.Consume
  | succ count ih => exact inferInstanceAs (phrase (reader count)).Consume

theorem State.ofText_sane (text : String) : (State.ofText text).advanced.Sane where
  issue := fun h => absurd rfl h
  full := Or.inr (Tree.full_empty _)
  settled := ofText_settled text
  behind := Nat.zero_le _

/-- Without trouble, only the root can be empty. -/
theorem sourceFile_full (text : String) :
    Ensures sourceFile (State.ofText text) fun root s' =>
      s'.Troubled ∨ ∀ id r, id ≠ root → s'.tree.range? id = some r → r.1 < r.2 := by
  have hs := State.ofText_sane text
  have hread (count : Nat) :
      Ensures (statementsUntil (reader count) (isAt .endOfFile)) (State.ofText text).advanced
        fun _ s' => s'.Sane := by
    have horderly : Orderly .started 0 (statementsUntil (reader count) (isAt .endOfFile)) :=
      inferInstance
    exact ⟨(horderly.follows _ hs (Nat.zero_le _)).sane⟩
  unfold sourceFile
  refine .modify _ (.peek ((hread _).bind fun statements s₁ hs₁ => ⟨?_⟩))
  refine hs₁.full.imp_right fun hfull id r hid hr => ?_
  -- The root is made last and takes the whole text.
  have hid : id ≠ s₁.tree.nextId := hid
  have hadd := s₁.tree.range?_add (.sourceFile statements) 0 text.toByteArray.size id
  rw [if_neg hid] at hadd
  exact hfull.lt (hadd.symm.trans hr)

/-- Reading a text is never cut short, so trouble leaves a diagnostic. -/
theorem parse_untroubled {text : String} (h : (SourceFile.parse text).diagnostics = []) :
    ¬ (sourceFile (State.ofText text)).2.Troubled := by
  have hlength : (sortDiagnostics ((sourceFile (State.ofText text)).2.diagnostics.toList ++
      (sourceFile (State.ofText text)).2.scanner.diagnostics.toList)).length = 0 :=
    congrArg List.length h
  rw [sortDiagnostics, List.length_mergeSort, List.length_append, Array.length_toList] at hlength
  rintro (hlt | htrue)
  · omega
  · rw [sourceFile_lasts] at htrue
    cases htrue

theorem parse_full (text : String) (h : (SourceFile.parse text).diagnostics = []) {id : Nat}
    {r : Nat × Nat} (hid : id ≠ (SourceFile.parse text).root)
    (hr : (SourceFile.parse text).tree.range? id = some r) : r.1 < r.2 := by
  rcases (sourceFile_full text).holds with htrouble | hfull
  · exact absurd htrouble (parse_untroubled h)
  · exact hfull id r hid hr

end SelfCapture.Grammar
