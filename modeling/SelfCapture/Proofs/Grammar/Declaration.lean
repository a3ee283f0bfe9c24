import SelfCapture.Grammar.Declaration
import SelfCapture.Proofs.Grammar.TypeName

/-! # Declarations are derivations

  A declaration starts with its modifiers, which have been skipped when its
  own rule begins: below, `h₀` is the reading of the modifiers.
-/

namespace SelfCapture.Grammar

open Token (Kind)

variable {n : Nat} {s₀ s s' : State} {nested : Readers} {ids : List Nat}

/-! ## Section 1: Parameters -/

theorem parameter_reads (hn : nested.Below n) (hs : Ready n s) :
    Ensures (parameter nested) s fun id s' => Reads s [id] s' := by
  unfold parameter
  refine .peek ((skipAttributes_reads hs.settled).bind fun _ s₁ h₁ => ?_)
  refine (nameOr_reads h₁.settled _).bind fun first s₂ h₂ => ?_
  refine (name?_reads h₂.settled).bind fun second s₃ h₃ => ?_
  refine (expect_reads h₃.settled (by decide) _).bind fun _ s₄ h₄ => ?_
  have hnames := ((h₁.append h₂).append h₃).append h₄.1
  refine .branch (P := fun type s₅ => Reads s₄ (Option.toList type) s₅)
    (fun _ => .map (hn.type (hs.reads hnames))) (fun _ => .pure (.stay hnames.settled))
    fun type s₅ h₅ => ?_
  refine (skipVariadicMark_reads h₅.settled).bind fun _ s₆ h₆ => ?_
  have htype := (hnames.append h₅).append h₆
  refine (initialValue_reads hn (hs.reads htype)).bind fun default s₇ h₇ => ?_
  exact finish_reads (htype.append h₇) (by simp) trivial

theorem parameterClause_reads (hn : nested.Below n) (hs : Ready n s) :
    Ensures (parameterClause nested) s fun ids s' => Reads s ids s' := by
  unfold parameterClause
  refine (expect_reads hs.settled (by decide) _).bind fun _ s₁ h₁ => ?_
  refine .ite (fun _ => ?_) (fun _ => .pure h₁.1)
  have hs₁ := (hs.reads h₁.1).under {}
  refine (unrestricted_reads (separatedUntil_reads hs₁.settled fun ids s₂ h₂ => ?_)).bind
    fun parameters s₂ h₂ => ?_
  · exact (parameter_reads hn (hs₁.reads h₂)).bind fun _ _ h => .pure h
  · refine (closeList_reads h₂.settled _ _ _).bind fun _ s₃ h₃ => .pure ?_
    simpa using (h₁.1.append h₂).append h₃

theorem resultClause_reads (hn : nested.Below n) (hs : Ready n s) :
    Ensures (resultClause nested) s fun r s' => Reads s r.toList s' := by
  unfold resultClause
  refine (accept_reads hs.settled _).bind fun _ s₁ h₁ => .ite (fun _ => ?_) (fun _ => .pure h₁.1)
  exact .map ((hn.type (hs.reads h₁.1)).mono fun _ _ h => h₁.1.append h)

/-! ## Section 2: Accessors -/

/-- Tokens that are skipped one by one as long as a test holds. -/
theorem skipWhile_reads {test : Parse Bool} [Peeks test] (hs : s.Settled)
    (htest : ∀ s₁ : State, (test s₁).1 = true → s₁.kind ≠ .endOfFile) :
    Ensures (repeatWhile test advance) s fun _ s' => Reads s [] s' :=
  repeatWhile_reads hs fun s₁ h₁ => .look ⟨.stay h₁.settled, fun hfound =>
    advance_moves h₁.settled (htest s₁ hfound)⟩

theorem skipAccessorModifiers_reads (hs : s.Settled) :
    Ensures skipAccessorModifiers s fun _ s' => Reads s [] s' := by
  unfold skipAccessorModifiers
  refine (skipAttributes_reads hs).bind fun _ s₁ h₁ => ?_
  refine (skipWhile_reads h₁.settled fun s₂ hfound => ?_).mono fun _ _ h => h₁.append h
  rw [kind_eq_of_isOneOf hfound]
  decide

theorem opensAccessors_eq (hs : s.Settled) : Ensures opensAccessors s fun _ s' => s' = s := by
  unfold opensAccessors
  refine (lookAhead_eq (R := fun _ => True) ?_).mono fun _ _ h => h.1
  refine (advance_reads hs).bind fun _ s₁ h₁ => ?_
  refine (skipAccessorModifiers_reads h₁.2.settled).bind fun _ s₂ h₂ => .peek (.peek ?_)
  have hread := h₁.2.append h₂
  refine .ite (fun _ => ?_) (fun _ => .pure ⟨hread, trivial⟩)
  refine (advance_reads h₂.settled).bind fun _ s₃ h₃ => .peek ?_
  have hname := hread.append h₃.2
  refine .ite (fun _ => .pure ⟨hname, trivial⟩) (fun _ => .peek ?_)
  split <;> exact .pure ⟨hname, trivial⟩

theorem accessorParameter_reads (hs : s.Settled) :
    Ensures accessorParameter s fun ids s' => Reads s ids s' := by
  unfold accessorParameter
  refine .peek (.ite (fun _ => .peek ?_) (fun _ => .pure (.stay hs)))
  refine (advance_reads hs).bind fun _ s₁ h₁ => .peek ?_
  extract_lets rest
  have hrest : ∀ parameters s₂, Reads s parameters s₂ →
      Ensures (rest parameters) s₂ fun ids s' => Reads s ids s' := by
    intro parameters s₂ h₂
    refine (expect_reads h₂.settled (by decide) _).bind fun _ s₃ h₃ => .pure ?_
    simpa using h₂.append h₃.1
  refine .ite (fun _ => ?_) (fun _ => hrest [] s₁ h₁.2)
  refine (name_reads h₁.2.settled).bind fun first s₂ h₂ => ?_
  refine (finish_reads (h₁.2.append h₂.1) (by simp) (by trivial)).bind fun parameter s₃ h₃ => ?_
  exact hrest [parameter] s₃ h₃

theorem accessor_reads (hn : nested.Below n) (hs : Ready n s) :
    Ensures (accessor nested) s fun ids s' => Reads s ids s' := by
  unfold accessor
  refine .peek ((skipAccessorModifiers_reads hs.settled).bind fun _ s₁ h₁ => .peek ?_)
  refine .ite (fun _ => ?_) (fun _ => ?_)
  · refine (name_reads h₁.settled).bind fun name s₂ h₂ => ?_
    refine (accessorParameter_reads h₂.1.settled).bind fun parameters s₃ h₃ => ?_
    refine (skipEffects_reads h₃.settled).bind fun _ s₄ h₄ => ?_
    have hhead := ((h₁.append h₂.1).append h₃).append h₄
    refine (functionBody_reads hn (hs.reads hhead).succ).bind fun body s₅ h₅ => ?_
    exact (finish_reads (hhead.append h₅) (by simp) (by trivial)).bind fun _ _ h => .pure h
  · exact (reportExpected_reads h₁.settled _).bind fun _ _ h => .pure (h₁.append h.1)

theorem accessorBlock_reads (hn : nested.Below n) (hs : Ready n s) :
    Ensures (accessorBlock nested) s fun id s' => Reads s [id] s' := by
  unfold accessorBlock
  refine (opensAccessors_eq hs.settled).bind fun _ s₁ h₁ => ?_
  subst h₁
  -- A block without accessors is the body of a getter.
  refine .ite (fun _ => .peek ?_) (fun _ => block_reads hn hs.succ)
  refine (advance_reads hs.settled).bind fun _ s₂ h₂ => ?_
  have hs₂ := hs.reads h₂.2
  refine (gatherWhile_reads hs₂.settled fun ids s₃ h₃ => .look ⟨.stay h₃.settled, ?_⟩).bind
    fun accessors s₃ h₃ => ?_
  · intro hfound
    refine .peek ((accessor_reads hn (hs₂.reads h₃)).bind fun accessors s₄ h₄ => ?_)
    exact unstuck_moves h₄ (ne_end_of_stuck hfound)
  · refine (expect_reads h₃.settled (by decide) _).bind fun _ s₄ h₄ => ?_
    exact finish_reads ((h₂.2.append h₃).append h₄.1) (by simp) trivial

/-! ## Section 3: Functions -/

theorem ne_end_of_inOperatorName (h : inOperatorName s.kind = true) : s.kind ≠ .endOfFile := by
  intro hend
  rw [hend] at h
  cases h

theorem functionName_reads (hs : s.Settled) :
    Ensures functionName s fun id s' => Reads s [id] s' := by
  unfold functionName
  refine .peek (.ite (fun _ => ?_) (fun _ => .peek (.ite (fun _ => .peek ?_) (fun _ => ?_))))
  · exact (name_reads hs).mono fun _ _ h => h.1
  · refine (advance_reads hs).bind fun _ s₁ h₁ => ?_
    refine (skipWhile_reads h₁.2.settled fun s₂ hfound => ?_).bind fun _ s₂ h₂ => ?_
    · exact ne_end_of_inOperatorName (Bool.and_eq_true_iff.mp hfound).1
    · exact finish_reads (h₁.2.append h₂) (by simp) trivial
  · exact missing_reads hs _

theorem functionDeclaration_reads (hn : nested.Below n) (h₀ : Reads s₀ [] s)
    (hs : Ready (n + 1) s) (hk : s.kind ≠ .endOfFile) :
    Ensures (functionDeclaration nested s₀.offset) s fun id s' => Reads s₀ [id] s' := by
  unfold functionDeclaration
  -- The node starts at `s₀`, where the modifiers before the keyword were.
  refine (advance_moves hs.settled hk).bind fun _ s₁ h₁ => ?_
  have hs₁ := hs.moved h₁.1 h₁.2
  refine (functionName_reads h₁.1.settled).bind fun name s₂ h₂ => ?_
  refine (skipGenerics_reads h₂.settled).bind fun _ s₃ h₃ => ?_
  have hname := h₂.append h₃
  refine (parameterClause_reads hn (hs₁.reads hname)).bind fun parameters s₄ h₄ => ?_
  refine (skipEffects_reads h₄.settled).bind fun _ s₅ h₅ => ?_
  have hparameters := (hname.append h₄).append h₅
  refine (resultClause_reads hn (hs₁.reads hparameters)).bind fun result s₆ h₆ => ?_
  refine (skipWhereClause_reads h₆.settled).bind fun _ s₇ h₇ => ?_
  have hresult := (hparameters.append h₆).append h₇
  refine (functionBody_reads hn (hs₁.reads hresult).succ).bind fun body s₈ h₈ => ?_
  exact finish_reads ((h₀.append h₁.1).append (hresult.append h₈)) (by simp) trivial

theorem initializerDeclaration_reads (hn : nested.Below n) (h₀ : Reads s₀ [] s)
    (hs : Ready (n + 1) s) (hk : s.kind ≠ .endOfFile) :
    Ensures (initializerDeclaration nested s₀.offset) s fun id s' => Reads s₀ [id] s' := by
  unfold initializerDeclaration
  refine (name_moves hs.settled hk).bind fun name s₁ h₁ => .peek (.peek (.peek ?_))
  have hs₁ := hs.moved h₁.1 h₁.2
  refine .ifThen (P := fun s₂ => Reads s₁ [] s₂) (fun _ => advance_skips h₁.1.settled)
    (fun _ => .stay h₁.1.settled) fun s₂ h₂ => ?_
  refine (skipGenerics_reads h₂.settled).bind fun _ s₃ h₃ => ?_
  have hname := h₂.append h₃
  refine (parameterClause_reads hn (hs₁.reads hname)).bind fun parameters s₄ h₄ => ?_
  refine (skipEffects_reads h₄.settled).bind fun _ s₅ h₅ => ?_
  refine (skipWhereClause_reads h₅.settled).bind fun _ s₆ h₆ => ?_
  have hparameters := ((hname.append h₄).append h₅).append h₆
  refine (functionBody_reads hn (hs₁.reads hparameters).succ).bind fun body s₇ h₇ => ?_
  exact finish_reads ((h₀.append h₁.1).append (hparameters.append h₇)) (by simp) trivial

theorem deinitializerDeclaration_reads (hn : nested.Below n) (h₀ : Reads s₀ [] s)
    (hs : Ready (n + 1) s) (hk : s.kind ≠ .endOfFile) :
    Ensures (deinitializerDeclaration nested s₀.offset) s fun id s' => Reads s₀ [id] s' := by
  unfold deinitializerDeclaration
  refine (name_moves hs.settled hk).bind fun name s₁ h₁ => ?_
  refine (functionBody_reads hn (hs.moved h₁.1 h₁.2).succ).bind fun body s₂ h₂ => ?_
  exact finish_reads ((h₀.append h₁.1).append h₂) (by simp) trivial

theorem subscriptDeclaration_reads (hn : nested.Below n) (h₀ : Reads s₀ [] s)
    (hs : Ready (n + 1) s) (hk : s.kind ≠ .endOfFile) :
    Ensures (subscriptDeclaration nested s₀.offset) s fun id s' => Reads s₀ [id] s' := by
  unfold subscriptDeclaration
  refine (name_moves hs.settled hk).bind fun name s₁ h₁ => ?_
  have hs₁ := hs.moved h₁.1 h₁.2
  refine (skipGenerics_reads h₁.1.settled).bind fun _ s₂ h₂ => ?_
  refine (parameterClause_reads hn (hs₁.reads h₂)).bind fun parameters s₃ h₃ => ?_
  have hparameters := h₂.append h₃
  refine (resultClause_reads hn (hs₁.reads hparameters)).bind fun result s₄ h₄ => ?_
  refine (skipWhereClause_reads h₄.settled).bind fun _ s₅ h₅ => .peek ?_
  have hresult := (hparameters.append h₄).append h₅
  refine .branch (P := fun body s₆ => Reads s₅ (Option.toList body) s₆)
    (fun _ => .map (accessorBlock_reads hn (hs₁.reads hresult)))
    (fun _ => .pure (.stay hresult.settled)) fun body s₆ h₆ => ?_
  exact finish_reads ((h₀.append h₁.1).append (hresult.append h₆)) (by simp) trivial

/-! ## Section 4: Types -/

theorem inheritanceClause_reads (hn : nested.Below n) (hs : Ready n s) :
    Ensures (inheritanceClause nested) s fun ids s' => Reads s ids s' := by
  unfold inheritanceClause
  refine (accept_reads hs.settled _).bind fun _ s₁ h₁ => .ite (fun _ => ?_) (fun _ => .pure h₁.1)
  have hs₁ := hs.reads h₁.1
  refine (separated_reads hs₁.settled fun ids s₂ h₂ => ?_).mono fun _ _ h => h₁.1.append h
  exact (hn.type (hs₁.reads h₂)).bind fun _ _ h => .pure h

theorem memberBlock_reads (hn : nested.Below n) (hs : Ready n s) :
    Ensures (memberBlock nested) s fun ids s' => Reads s ids s' := by
  unfold memberBlock
  refine .peek (.ite (fun hat => ?_) (fun _ => ?_))
  · exact statementsInBraces_reads hn hs.succ (ne_end_of_isAt hat (by decide)) _
  · exact (reportExpected_reads hs.settled _).bind fun _ _ h => .pure h.1

theorem typeDeclaration_reads (hn : nested.Below n) (h₀ : Reads s₀ [] s)
    (hs : Ready (n + 1) s) (hk : s.kind ≠ .endOfFile) (sort : TypeSort) :
    Ensures (typeDeclaration nested sort s₀.offset) s fun id s' => Reads s₀ [id] s' := by
  unfold typeDeclaration
  refine (advance_moves hs.settled hk).bind fun _ s₁ h₁ => ?_
  have hs₁ := hs.moved h₁.1 h₁.2
  refine .branch (P := fun name s₂ => Reads s₁ [name] s₂) (fun _ => hn.type hs₁)
    (fun _ => nameOr_reads hs₁.settled _) fun name s₂ h₂ => ?_
  refine (skipGenerics_reads h₂.settled).bind fun _ s₃ h₃ => ?_
  have hname := h₂.append h₃
  refine (inheritanceClause_reads hn (hs₁.reads hname)).bind fun inherits s₄ h₄ => ?_
  refine (skipWhereClause_reads h₄.settled).bind fun _ s₅ h₅ => ?_
  have hhead := (hname.append h₄).append h₅
  refine (memberBlock_reads hn (hs₁.reads hhead)).bind fun members s₆ h₆ => ?_
  exact finish_reads ((h₀.append h₁.1).append (hhead.append h₆)) (by simp) trivial

theorem typeAliasDeclaration_reads (hn : nested.Below n) (h₀ : Reads s₀ [] s)
    (hs : Ready (n + 1) s) (hk : s.kind ≠ .endOfFile) :
    Ensures (typeAliasDeclaration nested s₀.offset) s fun id s' => Reads s₀ [id] s' := by
  unfold typeAliasDeclaration
  refine (advance_moves hs.settled hk).bind fun _ s₁ h₁ => ?_
  refine (nameOr_reads h₁.1.settled _).bind fun name s₂ h₂ => ?_
  refine (skipGenerics_reads h₂.settled).bind fun _ s₃ h₃ => ?_
  refine (expect_reads h₃.settled (by decide) _).bind fun _ s₄ h₄ => ?_
  have hhead := (h₂.append h₃).append h₄.1
  refine .branch (P := fun type s₅ => Reads s₄ (Option.toList type) s₅)
    (fun _ => .map (hn.type ((hs.moved h₁.1 h₁.2).reads hhead)))
    (fun _ => .pure (.stay hhead.settled)) fun type s₅ h₅ => ?_
  exact finish_reads ((h₀.append h₁.1).append (hhead.append h₅)) (by simp) trivial

/-! ## Section 5: Variables and enum cases -/

theorem patternBinding_reads (hn : nested.Below n) (hs : Ready n s) :
    Ensures (patternBinding nested) s fun id s' => Reads s [id] s' := by
  unfold patternBinding
  refine .peek ((bindingPattern_reads hn hs).bind fun pattern s₁ h₁ => ?_)
  refine (typeClause_reads hn (hs.reads h₁)).bind fun type s₂ h₂ => ?_
  have htype := h₁.append h₂
  refine (initialValue_reads hn (hs.reads htype)).bind fun initial s₃ h₃ => .peek ?_
  have hinitial := htype.append h₃
  have hs₃ := hs.reads hinitial
  extract_lets made rest
  have hrest : ∀ hasAccessors s₄, s₄ = s₃ →
      Ensures (rest hasAccessors) s₄ fun id s' => Reads s [id] s' := by
    rintro hasAccessors s₄ rfl
    refine .branch (P := fun accessors s₅ => Reads s₄ (Option.toList accessors) s₅)
      (fun _ => .map (accessorBlock_reads hn hs₃)) (fun _ => .pure (.stay hs₃.settled))
      fun accessors s₅ h₅ => ?_
    exact finish_reads (hinitial.append h₅) (by simp) trivial
  -- The branches differ in what they tell the rest, whose text does not matter any more.
  clear_value rest
  refine .ite (fun _ => .ite (fun _ => ?_) (fun _ => ?_)) (fun _ => ?_)
  · exact hrest true s₃ rfl
  · exact (opensObservers_eq hs₃.settled).bind hrest
  · exact hrest false s₃ rfl

theorem variableDeclaration_reads (hn : nested.Below n) (h₀ : Reads s₀ [] s)
    (hs : Ready (n + 1) s) (hk : s.kind ≠ .endOfFile) :
    Ensures (variableDeclaration nested s₀.offset) s fun id s' => Reads s₀ [id] s' := by
  unfold variableDeclaration
  refine (advance_moves hs.settled hk).bind fun _ s₁ h₁ => ?_
  have hs₁ := hs.moved h₁.1 h₁.2
  refine (separated_reads hs₁.settled fun ids s₂ h₂ => ?_).bind fun bindings s₂ h₂ => ?_
  · exact (patternBinding_reads hn (hs₁.reads h₂)).bind fun _ _ h => .pure h
  · exact finish_reads ((h₀.append h₁.1).append h₂) (by simp) trivial

theorem enumCaseElement_reads (hn : nested.Below n) (hs : Ready n s) :
    Ensures (enumCaseElement nested) s fun id s' => Reads s [id] s' := by
  unfold enumCaseElement
  refine .peek ((nameOr_reads hs.settled _).bind fun name s₁ h₁ => .peek ?_)
  have hs₁ := hs.reads h₁
  refine .branch (P := fun associated s₂ => Reads s₁ (Option.toList associated) s₂)
    (fun hat => .map (tupleType_reads hn hs₁.succ (ne_end_of_isAt hat (by decide))))
    (fun _ => .pure (.stay hs₁.settled)) fun associated s₂ h₂ => ?_
  refine (initialValue_reads hn (hs₁.reads h₂)).bind fun raw s₃ h₃ => ?_
  exact finish_reads (h₁.append (h₂.append h₃)) (by simp) trivial

theorem enumCaseDeclaration_reads (hn : nested.Below n) (h₀ : Reads s₀ [] s)
    (hs : Ready (n + 1) s) (hk : s.kind ≠ .endOfFile) :
    Ensures (enumCaseDeclaration nested s₀.offset) s fun id s' => Reads s₀ [id] s' := by
  unfold enumCaseDeclaration
  refine (advance_moves hs.settled hk).bind fun _ s₁ h₁ => ?_
  have hs₁ := hs.moved h₁.1 h₁.2
  refine (separated_reads hs₁.settled fun ids s₂ h₂ => ?_).bind fun elements s₂ h₂ => ?_
  · exact (enumCaseElement_reads hn (hs₁.reads h₂)).bind fun _ _ h => .pure h
  · exact finish_reads ((h₀.append h₁.1).append h₂) (by simp) trivial

/-! ## Section 6: Any declaration -/

theorem skipPrecedenceGroup_reads (hs : s.Settled) :
    Ensures skipPrecedenceGroup s fun _ s' => Reads s [] s' := by
  unfold skipPrecedenceGroup
  refine (advance_reads hs).bind fun _ s₁ h₁ => .peek ?_
  refine .ifThen (P := fun s₂ => Reads s₁ [] s₂) (fun _ => advance_skips h₁.2.settled)
    (fun _ => .stay h₁.2.settled) fun s₂ h₂ => ?_
  exact (skipBalanced_reads h₂.settled _ _).mono fun _ _ h => h₁.2.append (h₂.append h)

theorem declaration_reads (hn : nested.Below n) (hs : Ready (n + 1) s) :
    Ensures (declaration nested) s fun r s' => Reads s r.toList s' := by
  unfold declaration
  refine .peek ((skipModifiers_reads hs.settled).bind fun _ s₁ h₁ => .peek ?_)
  have hs₁ := hs.reads h₁
  split
  · exact .map (typeDeclaration_reads hn h₁ hs₁ (ne_end_of_kind ‹_› (by decide)) _)
  · exact .map (typeDeclaration_reads hn h₁ hs₁ (ne_end_of_kind ‹_› (by decide)) _)
  · exact .map (typeDeclaration_reads hn h₁ hs₁ (ne_end_of_kind ‹_› (by decide)) _)
  · exact .map (typeDeclaration_reads hn h₁ hs₁ (ne_end_of_kind ‹_› (by decide)) _)
  · exact .map (typeDeclaration_reads hn h₁ hs₁ (ne_end_of_kind ‹_› (by decide)) _)
  · exact .map (functionDeclaration_reads hn h₁ hs₁ (ne_end_of_kind ‹_› (by decide)))
  · exact .map (initializerDeclaration_reads hn h₁ hs₁ (ne_end_of_kind ‹_› (by decide)))
  · exact .map (deinitializerDeclaration_reads hn h₁ hs₁ (ne_end_of_kind ‹_› (by decide)))
  · exact .map (subscriptDeclaration_reads hn h₁ hs₁ (ne_end_of_kind ‹_› (by decide)))
  · exact .map (variableDeclaration_reads hn h₁ hs₁ (ne_end_of_kind ‹_› (by decide)))
  · exact .map (variableDeclaration_reads hn h₁ hs₁ (ne_end_of_kind ‹_› (by decide)))
  · exact .map (enumCaseDeclaration_reads hn h₁ hs₁ (ne_end_of_kind ‹_› (by decide)))
  · exact .map (typeAliasDeclaration_reads hn h₁ hs₁ (ne_end_of_kind ‹_› (by decide)))
  · exact (skipLine_reads h₁.settled).bind fun _ _ h => .pure (h₁.append h)
  · exact (skipLine_reads h₁.settled).bind fun _ _ h => .pure (h₁.append h)
  · exact (skipLine_reads h₁.settled).bind fun _ _ h => .pure (h₁.append h)
  · exact (skipPrecedenceGroup_reads h₁.settled).bind fun _ _ h => .pure (h₁.append h)
  · refine .peek (.ite (fun hactor => ?_) (fun _ => ?_))
    · have hk := ne_end_of_kind (kind_eq_of_isWord hactor) (by decide)
      exact .map (typeDeclaration_reads hn h₁ hs₁ hk _)
    · exact (reportExpected_reads h₁.settled _).bind fun _ _ h => .pure (h₁.append h.1)

end SelfCapture.Grammar
