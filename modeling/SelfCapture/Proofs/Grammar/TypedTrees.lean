import SelfCapture.Proofs.Grammar.TypedExpressions

/-! # Typed trees

  The rules for statements and declarations follow the schema, and with
  them every text, `parse_typed`.  A clause stands nowhere until the
  statement it belongs to is made: the cases of a `switch` while its body
  is read, the handlers of a `do` while more of them follow, and an enum
  case until the end of the type body.  An enum case is only read directly
  in such a body.
-/

set_option synthInstance.maxSize 1000

namespace SelfCapture

namespace Grammar

open Token (Kind)

variable {plan : FormPlan} {inBody : Bool} {given : Prop} {nested : Readers} [nested.Build plan]

/-! ## Section 1: Branches and loops -/

instance : Plain plan inBody (optionalBinding nested) := by
  unfold optionalBinding
  infer_instance

instance : Plain plan inBody (condition nested) := by
  unfold condition
  refine .seq inferInstance fun k => ?_
  split
  all_goals infer_instance

instance : Plain plan inBody (conditions nested) := by
  unfold conditions
  infer_instance

instance : Plain plan inBody (headExpression nested) := by
  unfold headExpression
  infer_instance

instance : Plain plan inBody (expressions nested) := by
  unfold expressions
  infer_instance

instance : Plain plan inBody (whereCondition nested) := by
  unfold whereCondition
  infer_instance

instance : Plain plan inBody (alternative nested) := by
  unfold alternative
  infer_instance

instance : Plain plan inBody (branchStatement nested) := by
  unfold branchStatement
  infer_instance

instance : Plain plan inBody (guardStatement nested) := by
  unfold guardStatement
  infer_instance

instance : Plain plan inBody (whileStatement nested) := by
  unfold whileStatement
  infer_instance

instance : Plain plan inBody (repeatStatement nested) := by
  unfold repeatStatement
  dsimp only
  infer_instance

instance : Plain plan inBody (forHead nested) := by
  unfold forHead
  dsimp only
  infer_instance

instance : Plain plan inBody (forStatement nested) := by
  unfold forStatement
  infer_instance

/-! ## Section 2: `switch` and `do` -/

/-- A new clause, which stands nowhere yet. -/
theorem Builds.clause {form : Form} {clause : ClauseSort} {s : State} (hs : s.Settled)
    (pos stop : Nat) (hconforms : given → form.Conforms plan)
    (hclause : form.clause? = some clause) :
    Builds plan given [(clause, s.tree.nextId)] s (s.made form pos stop) := by
  refine .made hs (fun _ => hconforms) (fun clause' h => ?_) ?_
  · rw [hclause] at h
    rw [← Option.some.inj h]
    exact List.mem_singleton_self _
  · rintro rfl
    cases hclause

theorem Owes.clause {form : Form} {clause : ClauseSort} (pos : Nat)
    (hconforms : form.Conforms plan) (hclause : form.clause? = some clause) :
    Owes plan inBody (fun id => [(clause, id)]) (finish form pos) :=
  fun _ hs _ => ⟨.clause hs pos _ (fun _ => hconforms) hclause⟩

theorem switchCase_owes :
    Owes plan false (fun id => [(.switchCase, id)]) (switchCase nested) := by
  unfold switchCase
  refine .after fun pos => .after fun _ => .after fun patterns => .after fun filter => ?_
  exact .after fun _ => .after fun statements => .clause pos trivial rfl

theorem switchDefault_owes :
    Owes plan false (fun id => [(.switchCase, id)]) (switchDefault nested) := by
  unfold switchDefault
  refine .after fun pos => .after fun _ => .after fun _ => .after fun statements => ?_
  exact .clause pos trivial rfl

instance : Plain plan inBody atDirective := by
  unfold atDirective
  infer_instance

instance : Plain plan false (strayInSwitch nested) := by
  unfold strayInSwitch
  infer_instance

/-- All of the nodes may be clauses of a sort. -/
def clauses (clause : ClauseSort) (ids : List Nat) : List (ClauseSort × Nat) :=
  ids.map (clause, ·)

theorem clauses_append (clause : ClauseSort) (ids more : List Nat) :
    clauses clause (ids ++ more) = clauses clause ids ++ clauses clause more := List.map_append

theorem mem_clauses {clause clause' : ClauseSort} {ids : List Nat} {id : Nat}
    (h : (clause', id) ∈ clauses clause ids) : clause' = clause ∧ id ∈ ids := by
  obtain ⟨n, hn, heq⟩ := List.mem_map.mp h
  cases heq
  exact ⟨rfl, hn⟩

/-- A list of one clause. -/
theorem Owes.single {clause : ClauseSort} {item : Parse Nat}
    (h : Owes plan inBody (fun id => [(clause, id)]) item) :
    Owes plan inBody (clauses clause) (do return [← item]) :=
  fun s hs hbody => ⟨(h s hs hbody).holds⟩

theorem switchEntry_owes : Owes plan false (clauses .switchCase) (switchEntry nested) := by
  unfold switchEntry
  refine .after fun k => ?_
  split
  · exact .of_plain inferInstance
  · exact .of_plain inferInstance
  · exact .single switchCase_owes
  · exact .single switchDefault_owes
  · exact .of_plain inferInstance

/-- A list whose items may be clauses. -/
theorem Owes.gatherWhile {clause : ClauseSort} {test : Parse Bool} {items : Parse (List Nat)}
    [Plain plan inBody test] (hitems : Owes plan inBody (clauses clause) items) :
    Owes plan inBody (clauses clause) (gatherWhile test items) := by
  intro s hs hbody
  have hnone : Builds plan True (clauses clause []) s s := .refl hs
  unfold Grammar.gatherWhile
  refine loop_keeps (I := fun ids s' => Builds plan True (clauses clause ids) s s')
    (fun ids s₁ h₁ => h₁.skip (.exhausted h₁.settled)) (fun ids s₁ h₁ => ?_) hnone
  have htest : Ensures test s₁ fun _ s' => Builds plan True (clauses clause ids) s s' :=
    h₁.followed hbody
  refine htest.bind fun found s₂ h₂ => .ite (fun _ => ?_) fun _ => .pure h₂
  have hbody₂ : s₂.context.inTypeBody = inBody := by rw [h₂.context_eq, hbody]
  refine (hitems s₂ h₂.settled hbody₂).bind fun more s₃ h₃ => .pure ?_
  show Builds plan True (clauses clause (ids ++ more)) s s₃
  rw [clauses_append]
  exact h₂.trans h₃

theorem switchEntries_owes : Owes plan false (clauses .switchCase) (switchEntries nested) := by
  have hentry : Owes plan false (clauses .switchCase) (switchEntry nested) := switchEntry_owes
  unfold switchEntries
  dsimp only
  refine .gatherWhile (.after fun before => ?_)
  intro s hs hbody
  refine (hentry s hs hbody).bind fun entry s₁ h₁ => ?_
  refine .peek (.peek (.ite (fun _ => ?_) fun _ => .pure h₁))
  exact (h₁.followed hbody).bind fun _ s₂ h₂ => .pure h₂

instance : Plain plan inBody (switchStatement nested) := by
  have hcases : Owes plan inBody (clauses .switchCase) (unrestricted (switchEntries nested)) :=
    .within (fun _ _ => rfl) switchEntries_owes
  unfold switchStatement
  refine .seq inferInstance fun pos => .seq inferInstance fun _ => .seq inferInstance fun value => ?_
  refine .seq inferInstance fun found => ?_
  split
  · refine Owes.plain fun s hs hbody => ?_
    refine (hcases s hs hbody).bind fun cases s₁ h₁ => (h₁.followed hbody).bind fun _ s₂ h₂ => ?_
    refine ⟨h₂.house rfl (fun clause id hid => ?_) ..⟩
    obtain ⟨rfl, hmem⟩ := mem_clauses hid
    exact List.mem_append_right value hmem
  · infer_instance

instance : Plain plan inBody (handlerHead nested) := by
  unfold handlerHead
  dsimp only
  infer_instance

theorem handler_owes : Owes plan inBody (fun id => [(.handler, id)]) (handler nested) := by
  unfold handler
  refine .after fun pos => .after fun _ => .after fun head => .after fun body => ?_
  exact .clause pos trivial rfl

instance : Plain plan inBody (doStatement nested) := by
  have hhandlers : Owes plan inBody (clauses .handler)
      (gatherWhile (isAt .catchKeyword) (do return [← handler nested])) :=
    .gatherWhile (.single handler_owes)
  have hrest (pos body : Nat) : Plain plan inBody (do
      let handlers ← gatherWhile (isAt .catchKeyword) (do return [← handler nested])
      finish (.control .block (body :: handlers)) pos) := by
    refine Owes.plain fun s hs hbody => ?_
    refine (hhandlers s hs hbody).bind fun handlers s₁ h₁ => ?_
    refine ⟨h₁.house rfl (fun clause id hid => ?_) ..⟩
    obtain ⟨rfl, hmem⟩ := mem_clauses hid
    exact List.mem_cons_of_mem body hmem
  unfold doStatement
  dsimp only
  infer_instance

instance : Plain plan inBody (deferStatement nested) := by
  unfold deferStatement
  infer_instance

instance (sort : ControlSort) [∀ children, IsFalse (Form.isBound (.control sort children))] :
    Plain plan inBody (exitStatement nested sort) := by
  unfold exitStatement
  dsimp only
  infer_instance

instance (sort : ControlSort) [∀ children, IsFalse (Form.isBound (.control sort children))] :
    Plain plan inBody (jumpStatement sort) := by
  unfold jumpStatement
  infer_instance

instance : Plain plan inBody fallthroughStatement := by
  unfold fallthroughStatement
  infer_instance

/-! ## Section 3: Expressions -/

instance (statement : Parse Nat) [Plain plan inBody statement] :
    Plain plan inBody (statementExpression statement) := by
  unfold statementExpression
  infer_instance

instance : Plain plan inBody (plainPrimary nested) := by
  unfold plainPrimary
  refine .seq inferInstance fun k => ?_
  split
  all_goals infer_instance

instance : Plain plan inBody (primary nested) := by
  unfold primary
  infer_instance

instance : Plain plan inBody (suffixedExpression nested) := by
  unfold suffixedExpression
  refine .seq inferInstance fun pos => .seq inferInstance fun base => .loop fun expression => ?_
  refine .seq inferInstance fun extended => ?_
  cases extended with
  | none => infer_instance
  | some extended => infer_instance

instance : Plain plan inBody (prefixedExpression nested) := by
  unfold prefixedExpression
  refine .seq inferInstance fun pos => .seq inferInstance fun k => ?_
  split
  all_goals infer_instance

instance : Plain plan inBody (ternaryPart nested) := by
  have hthen : Plain plan inBody
      (within (fun context => { context with noTrailingClosure := false })
        (nested .expression)) := .within _ (fun _ h => h) inferInstance
  unfold ternaryPart
  infer_instance

instance : Plain plan inBody (infixPart nested) := by
  unfold infixPart
  infer_instance

instance : Plain plan inBody (sequencePart nested) := by
  unfold sequencePart
  refine .seq inferInstance fun k => ?_
  split
  all_goals infer_instance

instance : Plain plan inBody (sequenceExpression nested) := by
  unfold sequenceExpression
  infer_instance

instance : Plain plan inBody missingExpression := by
  unfold missingExpression
  infer_instance

instance : Plain plan inBody (expression nested) := by
  unfold expression
  infer_instance

instance : Plain plan inBody (operand nested) := by
  unfold operand
  infer_instance

/-! ## Section 4: Declarations -/

theorem parameter_yields : Yields plan inBody given (plan.Is .parameter) (parameter nested) := by
  unfold parameter
  dsimp only
  refine .after fun pos => .after fun _ => .after fun first => .after fun second => ?_
  refine .after fun found => .ite (.after fun type => ?_) (.after fun type => ?_)
  all_goals exact .after fun _ => .after fun default => .finish_sort pos rfl rfl

theorem parameterClause_yields :
    Yields plan inBody given (plan.All .parameter) (parameterClause nested) := by
  unfold parameterClause
  refine .after fun found => .ite ?_ (.pure fun _ => List.forall_mem_nil _)
  refine .bind (.unrestricted (.separatedUntil (.single parameter_yields))) fun parameters => ?_
  exact .after fun _ => .pure fun h => h.2

instance : Plain plan inBody (resultClause nested) := by
  unfold resultClause
  infer_instance

instance : Plain plan inBody skipAccessorModifiers := by
  unfold skipAccessorModifiers
  infer_instance

theorem accessorParameter_yields :
    Yields plan inBody given (plan.All .parameter) accessorParameter := by
  unfold accessorParameter
  dsimp only
  have hdone (parameters : List Nat) :
      Yields plan inBody (given ∧ plan.All .parameter parameters) (plan.All .parameter) (do
        let _ ← expect .closeParen "')'"
        return parameters) := .after fun _ => .pure fun h => h.2
  have hone (id : Nat) : Yields plan inBody (given ∧ plan.Is .parameter id) (plan.All .parameter)
      (pure [id]) := .pure fun h => List.forall_mem_singleton.mpr h.2
  refine .after fun found => .ite ?_ (.pure fun _ => List.forall_mem_nil _)
  refine .after fun pos => .after fun _ => .after fun named => .ite (.after fun first => ?_) ?_
  · refine .bind (.finish_sort pos rfl rfl) fun id => .bind (hone id) fun parameters => ?_
    exact (hdone parameters).weaken fun h => ⟨h.1.1, h.2⟩
  · exact .bind (.pure fun _ => List.forall_mem_nil _) hdone

/-- A function whose parameters are parameters. -/
theorem Yields.finish_function {sort : FunctionSort} {name : Nat} {parameters : List Nat}
    {result body : Option Nat} (pos : Nat) (h : given → plan.All .parameter parameters) :
    Yields plan inBody given (fun _ => True)
      (Grammar.finish (.functionDecl sort name parameters result body) pos) :=
  .finish_any pos h rfl nofun

instance : Plain plan inBody (accessor nested) := by
  unfold accessor
  refine .seq inferInstance fun pos => .seq inferInstance fun _ => .seq inferInstance fun found => ?_
  split
  · refine .seq inferInstance fun name => Yields.to_plain (.bind accessorParameter_yields ?_)
    intro parameters
    refine .after fun _ => .after fun body => .bind (.finish_function pos fun h => h.2) fun id => ?_
    exact .of_plain
  · infer_instance

instance : Plain plan inBody opensAccessors := .of_looks

instance : Plain plan inBody (accessorBlock nested) := by
  unfold accessorBlock
  dsimp only
  infer_instance

instance : Plain plan inBody functionName := by
  unfold functionName
  infer_instance

section declarations

variable (pos : Nat)

instance : Plain plan inBody skipWhereClause := by
  unfold skipWhereClause
  refine .seq inferInstance fun found => ?_
  split
  · refine .loop fun _ => .seq inferInstance fun k => ?_
    split
    all_goals infer_instance
  · infer_instance

instance : Plain plan inBody (functionDeclaration nested pos) := by
  unfold functionDeclaration
  refine Yields.to_plain (.after fun _ => .after fun name => .after fun _ => ?_)
  refine .bind parameterClause_yields fun parameters => .after fun _ => .after fun result => ?_
  exact .after fun _ => .after fun body => .finish_function pos fun h => h.2

instance : Plain plan inBody (initializerDeclaration nested pos) := by
  unfold initializerDeclaration
  dsimp only
  have hrest (name : Nat) : Plain plan inBody (do
      skipGenerics
      let parameters ← parameterClause nested
      let _ ← skipEffects
      skipWhereClause
      let body ← functionBody nested
      finish (.functionDecl .initializer name parameters none body) pos) := by
    refine Yields.to_plain (.after fun _ => .bind parameterClause_yields fun parameters => ?_)
    exact .after fun _ => .after fun _ => .after fun body => .finish_function pos fun h => h.2
  infer_instance

instance : Plain plan inBody (deinitializerDeclaration nested pos) := by
  unfold deinitializerDeclaration
  refine Yields.to_plain (.after fun name => .after fun body => .finish_function pos fun _ => ?_)
  nofun

instance : Plain plan inBody (subscriptDeclaration nested pos) := by
  unfold subscriptDeclaration
  dsimp only
  refine Yields.to_plain (.after fun name => .after fun _ => ?_)
  refine .bind parameterClause_yields fun parameters => .after fun result => .after fun _ => ?_
  refine .after fun found => .ite (.after fun body => ?_) (.after fun body => ?_)
  all_goals exact .finish_function pos fun h => h.2

instance : Plain plan inBody (inheritanceClause nested) := by
  unfold inheritanceClause
  infer_instance

theorem memberBlock_owes : Owes plan inBody (members true) (memberBlock nested) := by
  unfold memberBlock
  refine .after fun found => .ite (statementsInBraces_owes fun _ => rfl) (.of_plain inferInstance)

instance (sort : TypeSort) : Plain plan inBody (typeDeclaration nested sort pos) := by
  have hmembers : Owes plan inBody (members true) (memberBlock nested) := memberBlock_owes
  have hrest (name : Nat) (inherits : List Nat) : Plain plan inBody (do
      let members ← memberBlock nested
      finish (.typeDecl sort name inherits members) pos) := by
    refine Owes.plain fun s hs hbody => (hmembers s hs hbody).bind fun members s₁ h₁ => ?_
    refine ⟨h₁.house rfl (fun clause id hid => ?_) ..⟩
    obtain ⟨rfl, hmem⟩ := mem_clauses hid
    exact hmem
  unfold typeDeclaration
  dsimp only
  infer_instance

instance : Plain plan inBody (typeAliasDeclaration nested pos) := by
  unfold typeAliasDeclaration
  dsimp only
  infer_instance

theorem patternBinding_yields :
    Yields plan inBody given (plan.Is .patternBinding) (patternBinding nested) := by
  unfold patternBinding
  dsimp only
  have hrest (pos pattern : Nat) (type initial : Option Nat) (hasAccessors : Bool) :
      Yields plan inBody given (plan.Is .patternBinding) (do
        let accessors ← if hasAccessors then some <$> accessorBlock nested else pure none
        finish (.patternBinding pattern type initial accessors) pos) := by
    dsimp only
    refine .ite (.after fun accessors => ?_) (.after fun accessors => ?_)
    all_goals exact .finish_sort pos rfl rfl
  refine .after fun pos => .after fun pattern => .after fun type => .after fun initial => ?_
  refine .after fun found => .ite (.ite (.after fun has => ?_) (.after fun has => ?_))
    (.after fun has => ?_)
  all_goals exact hrest pos pattern type initial has

instance : Plain plan inBody (variableDeclaration nested pos) := by
  unfold variableDeclaration
  refine Yields.to_plain (.after fun _ => ?_)
  refine .bind (.separated (.single patternBinding_yields)) fun bindings => ?_
  exact .finish_any pos (fun h => h.2) rfl nofun

theorem enumCaseElement_yields :
    Yields plan inBody given (plan.Is .enumCaseElement) (enumCaseElement nested) := by
  unfold enumCaseElement
  dsimp only
  refine .after fun pos => .after fun name => .after fun found => ?_
  refine .ite (.after fun associated => ?_) (.after fun associated => ?_)
  all_goals exact .after fun raw => .finish_sort pos rfl rfl

theorem enumCaseDeclaration_owes :
    Owes plan inBody (fun id => [(.enumCase, id)]) (enumCaseDeclaration nested pos) := by
  have helements : Yields plan inBody True (plan.All .enumCaseElement)
      (separated (do return [← enumCaseElement nested])) := .separated (.single enumCaseElement_yields)
  unfold enumCaseDeclaration
  refine .after fun _ => fun s hs hbody => ?_
  refine (helements s hs hbody).bind fun elements s₁ h₁ => ?_
  have hmade : Builds plan (plan.All .enumCaseElement elements) [(.enumCase, s₁.tree.nextId)] s₁
      (s₁.made (.enumCase elements) pos (max s₁.previousStop pos)) :=
    .clause h₁.1.settled pos _ (fun h => h) rfl
  refine ⟨h₁.1.trans (hmade.weaken fun hplan _ => ?_)⟩
  exact h₁.2 (hmade.tree.matches_plan hplan) trivial

end declarations

instance : Plain plan inBody skipPrecedenceGroup := by
  unfold skipPrecedenceGroup
  dsimp only
  infer_instance

/-- A `case` declares something only in the body of a type. -/
theorem case_not_declares {s : State} (hbody : s.context.inTypeBody = false)
    (h : (atDeclarationKeyword s).1 = true) : s.kind ≠ .caseKeyword := by
  have hkeyword : Ensures atDeclarationKeyword s fun found _ =>
      found = true → s.kind ≠ .caseKeyword := by
    unfold atDeclarationKeyword
    refine .peek (.ite (fun hstarts => .pure fun _ hk => ?_) fun _ => .ite (fun _ => ?_) fun hno => ?_)
    · rw [show (kind s).1 = .caseKeyword from hk] at hstarts
      cases hstarts
    · exact .peek (.pure fun hin => absurd (hbody.symm.trans hin) Bool.false_ne_true)
    · have hne : s.kind ≠ .caseKeyword := fun hk => hno (beq_iff_eq.mpr hk)
      exact ⟨fun _ => hne⟩
  exact hkeyword.holds h

/-- Where no modifier stands, none is skipped. -/
theorem skipModifiers_stays {s : State} (h : Ensures skipModifier s fun found s' =>
    found = false ∧ s' = s) : (skipModifiers s).2 = s := by
  have hskip : Ensures skipModifiers s fun _ s' => s' = s := by
    unfold skipModifiers repeatWhile loop iterate
    refine .peek (.bind (P := fun r s' => r = .done () ∧ s' = s) ?_ ?_)
    · refine h.bind fun found s₁ h₁ => ?_
      rw [h₁.1]
      exact .pure ⟨rfl, h₁.2⟩
    · rintro r s₁ ⟨rfl, hs₁⟩
      exact .pure hs₁
  exact hskip.holds

/-- What follows the modifiers of a declaration outside a type body is no `case`. -/
theorem declares_no_case {s : State} (hs : s.Settled) (hbody : s.context.inTypeBody = false)
    (h : (atDeclaration s).1 = true) : (skipModifiers s).2.kind ≠ .caseKeyword := by
  have hskipped : (skipModifiers s).2.context.inTypeBody = false := by
    obtain ⟨hread⟩ := skipModifiers_reads hs
    rw [hread.keeps.context_eq, hbody]
  have hlook : (lookAhead (do skipModifiers; atDeclarationKeyword) s).1 = true →
      (skipModifiers s).2.kind ≠ .caseKeyword := case_not_declares hskipped
  have hdeclaration : Ensures atDeclaration s fun found _ =>
      found = true → (skipModifiers s).2.kind ≠ .caseKeyword := by
    unfold atDeclaration
    refine .peek ?_
    split
    · exact ⟨hlook⟩
    · exact ⟨hlook⟩
    · exact ⟨hlook⟩
    · exact ⟨hlook⟩
    · rename_i hat hstatic hclass hidentifier
      -- No modifier stands here, so the keyword is the current token.
      have hstays : (skipModifiers s).2 = s := by
        refine skipModifiers_stays ?_
        unfold skipModifier
        refine .peek ?_
        split
        · exact absurd ‹_› hat
        · exact absurd ‹_› hstatic
        · exact absurd ‹_› hclass
        · exact absurd ‹_› hidentifier
        · exact .pure ⟨rfl, rfl⟩
      rw [hstays]
      exact ⟨case_not_declares hbody⟩
  exact hdeclaration.holds h

instance : Plain plan inBody skipModifier := by
  unfold skipModifier
  refine .seq inferInstance fun k => ?_
  split
  all_goals infer_instance

instance : Plain plan inBody skipModifiers := by
  unfold skipModifiers
  infer_instance

theorem declaration_builds {s : State} (hs : s.Settled) (hbody : s.context.inTypeBody = inBody)
    (hcase : inBody = false → (skipModifiers s).2.kind ≠ .caseKeyword) :
    Ensures (declaration nested) s fun r s' => Builds plan True (members inBody r.toList) s s' := by
  have hskip : Ensures skipModifiers s fun _ s' => Builds plan True [] s s' :=
    (Builds.refl hs).followed hbody
  have hstart := hskip.holds
  have hbody₁ : (skipModifiers s).2.context.inTypeBody = inBody := by
    rw [hstart.context_eq, hbody]
  have hplain {p : Parse (Option Nat)} (hp : Plain plan inBody p) :
      Ensures p (skipModifiers s).2 fun r s' => Builds plan True (members inBody r.toList) s s' :=
    (hstart.followed hbody).mono fun _ _ h => h.mono (List.nil_subset _)
  unfold declaration
  refine .peek ?_
  refine Ensures.bind (P := fun _ s' => s' = (skipModifiers s).2) ⟨rfl⟩ fun _ s₁ h₁ => ?_
  subst h₁
  refine .peek ?_
  -- Only a case of an enumeration owes the type around it anything; every other declaration is plain.
  by_cases hk : (kind (skipModifiers s).2).1 = .caseKeyword
  · have hclause : Owes plan inBody (fun id => [(.enumCase, id)])
        (enumCaseDeclaration nested (position s).1) := enumCaseDeclaration_owes _
    cases inBody with
    | false => exact absurd hk (hcase rfl)
    | true =>
      rw [hk]
      exact .map ((hclause _ hstart.settled hbody₁).mono fun id s₂ h₂ => hstart.trans h₂)
  · split
    case h_12 => exact absurd ‹_› hk
    all_goals exact hplain inferInstance

/-! ## Section 5: Statements -/

instance : Plain plan inBody (controlStatement? nested) := by
  unfold controlStatement?
  refine .seq inferInstance fun k => ?_
  split
  all_goals infer_instance

theorem plainStatement_owes :
    Owes plan inBody (fun r => members inBody r.toList) (plainStatement nested) := by
  intro s hs hbody
  have hlook : Ensures atDeclaration s fun found s' => found = (atDeclaration s).1 ∧ s' = s :=
    ⟨rfl, Looks.state_eq s hs⟩
  unfold plainStatement
  refine hlook.bind fun found s₁ h₁ => ?_
  obtain ⟨rfl, rfl⟩ := h₁
  refine .ite (fun hdeclares => ?_) fun _ => ?_
  · refine declaration_builds hs hbody fun hfalse => ?_
    exact declares_no_case hs (hbody.trans hfalse) hdeclares
  · exact Owes.of_plain inferInstance s₁ hs hbody

theorem anyStatement_owes :
    Owes plan inBody (fun r => members inBody r.toList) (anyStatement nested) := by
  unfold anyStatement
  refine .after fun k => ?_
  split
  · exact .after fun found => .ite (.of_plain inferInstance) plainStatement_owes
  · exact .after fun found => .ite (.of_plain inferInstance) plainStatement_owes
  · refine .after fun found => ?_
    cases found with
    | none => exact plainStatement_owes
    | some statement => exact .of_plain inferInstance

theorem statement_owes :
    Owes plan inBody (fun r => members inBody r.toList) (statement nested) :=
  .guarded anyStatement_owes

instance : Readers.Build plan (phrase nested) where
  plain p inBody hp := by
    cases p with
    | expression => exact inferInstanceAs (Plain plan inBody (expression nested))
    | operand => exact inferInstanceAs (Plain plan inBody (operand nested))
    | statement => exact absurd rfl hp
    | type => exact inferInstanceAs (Plain plan inBody (type nested))
    | composition => exact inferInstanceAs (Plain plan inBody (compositionType nested))
    | branch => exact inferInstanceAs (Plain plan inBody (branchStatement nested))
  statement _ := statement_owes

/-! ## Section 6: Whole texts -/

/-- What is not read because the allowance is used up is missing without a diagnostic. -/
instance : Readers.Build plan noReader where
  plain p inBody hp := by
    have hmissing : Plain plan inBody (do exhaust; let pos ← position; make .missing pos pos) := by
      refine ⟨fun s hs _ => ?_⟩
      have hstart : Builds plan True [] s { s with exhausted := true } := .exhausted hs
      have hmade : Builds plan True [] { s with exhausted := true }
          (State.made { s with exhausted := true } .missing s.offset s.offset) :=
        .made hstart.settled (fun _ _ => trivial) nofun fun _ => Or.inl rfl
      exact hstart.skip hmade
    cases p with
    | expression | operand => exact inferInstanceAs (Plain plan inBody (do exhaust; return none))
    | statement => exact absurd rfl hp
    | type | composition | branch => exact hmissing
  statement inBody := .of_plain (inferInstanceAs (Plain plan inBody (do exhaust; return none)))

instance (count : Nat) : Readers.Build plan (reader count) := by
  induction count with
  | zero => exact inferInstanceAs (Readers.Build plan noReader)
  | succ count ih => exact inferInstanceAs (Readers.Build plan (phrase (reader count)))

/-- Reading a text builds its tree from nothing. -/
theorem sourceFile_builds (plan : FormPlan) (text : String) :
    Ensures sourceFile (State.ofText text) fun _ s' =>
      Builds plan True [] (State.ofText text).advanced s' := by
  have hs : (State.ofText text).advanced.Settled := ofText_settled text
  have hbody : (State.ofText text).advanced.context.inTypeBody = false := rfl
  have hread (count : Nat) : Ensures (statementsUntil (reader count) (isAt .endOfFile))
      (State.ofText text).advanced
      fun _ s' => Builds plan True [] (State.ofText text).advanced s' :=
    (Builds.refl hs).followed hbody
  unfold sourceFile
  refine .modify _ (.peek ((hread _).bind fun statements s₁ h₁ => ?_))
  exact ⟨h₁.skip (.made_free h₁.settled rfl ..)⟩

/-- In the end nothing is missing without a diagnostic. -/
theorem sourceFile_accounted (text : String) :
    (sourceFile (State.ofText text)).2.Accounted := by
  refine (sourceFile_builds (fun _ => none) text).holds.accounted ⟨nofun, ?_⟩
  intro id r hform
  cases hform

end Grammar

/-- The tree of every text follows the schema.  Parts are of the sorts that
    their forms ask for.  A case of a `switch`, a `catch` and an enum case
    have a parent, which is a `switch`, a `do` or a type declaration, and
    stand there among the entries, the handlers or the members; they are
    parts of no other node. -/
theorem parse_typed (text : String) :
    let t := (SourceFile.parse text).tree
    (∀ (id : Nat) (form : Form), t.form? id = some form → form.Conforms t.form?) ∧
      ∀ (id : Nat) (form : Form) (clause : ClauseSort), t.form? id = some form →
        form.clause? = some clause →
        ∃ parent holder, t.parent? id = some parent ∧ t.form? parent = some holder ∧
          id ∈ holder.clauses clause ∧ ∀ other, id ∈ t.children other → other = parent := by
  intro t
  have hread := (Grammar.sourceFile_builds t.form? text).holds
  have hlinked : t.Linked := Grammar.parse_linked text
  constructor
  · intro id form hform
    exact hread.conforms (fun hform => hform) trivial (Nat.zero_le id) hform
  · intro id form clause hform hclause
    rcases hread.housed (Nat.zero_le id) hform hclause with hloose | ⟨parent, holder, hholder, hmem⟩
    · cases hloose
    · have hchild : id ∈ t.children parent := by
        rw [Tree.children, show t.form? parent = some holder from hholder]
        exact holder.clauses_subset clause hmem
      refine ⟨parent, holder, hlinked.parent_iff.mpr hchild, hholder, hmem, fun other hother => ?_⟩
      exact hlinked.parent_unique hother hchild

/-- The argument of a call in a case, and the `switch` that the case stands in. -/
theorem parse_typed_switch :
    let t := (SourceFile.parse "switch a \x7b case b: c(d) \x7d").tree
    (t.form? 5 = some (.call (some 2) [4] none []) ∧ t.form? 6 = some (.control .case [1, 5])) ∧
      FormPlan.Is t.form? .argument 4 ∧
      ∃ parent holder, t.parent? 6 = some parent ∧ t.form? parent = some holder ∧
        6 ∈ holder.clauses .switchCase := by
  intro t
  have hcall : t.form? 5 = some (.call (some 2) [4] none []) := by decide +kernel
  have hcase : t.form? 6 = some (.control .case [1, 5]) := by decide +kernel
  obtain ⟨harguments, -, -⟩ := (parse_typed _).1 5 _ hcall
  obtain ⟨parent, holder, hparent, hholder, hmem, -⟩ := (parse_typed _).2 6 _ .switchCase hcase rfl
  exact ⟨⟨hcall, hcase⟩, harguments 4 (List.mem_singleton_self 4),
    parent, holder, hparent, hholder, hmem⟩

end SelfCapture
