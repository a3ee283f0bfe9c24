import SelfCapture.Proofs.Grammar.Fullness
import SelfCapture.Proofs.Grammar.Typing

/-! # Typed trees of types and expressions

  The rules for types, arguments, closures and expressions follow the
  schema.  Most rules make nodes of which the schema asks nothing, and are
  judged in one search.  A rule that makes a list for another one to take,
  such as the arguments of a call, is shown to yield nodes of the sort that
  is asked for.
-/

-- A rule is judged in one search, through all its parts.
set_option synthInstance.maxSize 1000

namespace SelfCapture.Grammar

open Token (Kind)

/-! ## Section 1: Nested phrases -/

/-- Among the statements of a type body, some may be enum cases. -/
def members (inBody : Bool) (ids : List Nat) : List (ClauseSort × Nat) :=
  if inBody then ids.map (.enumCase, ·) else []

theorem members_append (inBody : Bool) (ids more : List Nat) :
    members inBody (ids ++ more) = members inBody ids ++ members inBody more := by
  cases inBody with
  | false => rfl
  | true => exact List.map_append

/-- The readers of nested phrases build typed trees. -/
class Readers.Build (plan : FormPlan) (nested : Readers) : Prop where
  plain : ∀ (phrase : Phrase) (inBody : Bool), phrase ≠ .statement →
    Plain plan inBody (nested phrase)
  statement : ∀ inBody : Bool,
    Owes plan inBody (fun r => members inBody r.toList) (nested .statement)

variable {plan : FormPlan} {inBody : Bool} {given : Prop} {nested : Readers} [hn : nested.Build plan]

instance : Plain plan inBody (nested .expression) := hn.plain .expression inBody nofun
instance : Plain plan inBody (nested .operand) := hn.plain .operand inBody nofun
instance : Plain plan inBody (nested .type) := hn.plain .type inBody nofun
instance : Plain plan inBody (nested .composition) := hn.plain .composition inBody nofun
instance : Plain plan inBody (nested .branch) := hn.plain .branch inBody nofun
instance : Plain plan false (nested .statement) := (hn.statement false).plain

/-! ## Section 2: Skipped constructs -/

instance (opener closer : Kind) : Plain plan inBody (skipBalanced opener closer) := by
  unfold skipBalanced
  infer_instance

instance : Plain plan inBody skipParens := inferInstanceAs (Plain plan inBody (skipBalanced _ _))

instance : Plain plan inBody skipAttachedParens := by
  unfold skipAttachedParens
  infer_instance

instance : Plain plan inBody skipGenerics := inferInstanceAs (Plain plan inBody (skipBalanced _ _))

instance (opener closer : Kind) : Plain plan inBody (skipToCloser opener closer) := by
  unfold skipToCloser
  infer_instance

instance (opener closer : Kind) (what : String) :
    Plain plan inBody (closeList opener closer what) := by
  unfold closeList
  dsimp only
  infer_instance

instance : Plain plan inBody skipLine := by
  unfold skipLine
  infer_instance

instance : Plain plan inBody skipAttribute := by
  unfold skipAttribute
  dsimp only
  infer_instance

instance : Plain plan inBody skipAttributes := by
  unfold skipAttributes
  infer_instance

instance : Plain plan inBody skipEffects := by
  unfold skipEffects
  infer_instance

instance : Plain plan inBody skipVariadicMark := by
  unfold skipVariadicMark
  infer_instance

/-! ## Section 3: Types -/

instance : Plain plan inBody atSpecifier := by
  unfold atSpecifier typeFollows
  infer_instance

instance : Plain plan inBody atOpaque := by
  unfold atOpaque typeFollows
  infer_instance

instance : Plain plan inBody atElementLabel := by
  unfold atElementLabel
  infer_instance

theorem typeAttribute_yields : Yields plan inBody given (plan.Is .typeAttribute) typeAttribute := by
  unfold typeAttribute
  exact .after fun pos => .after fun _ => .after fun _ => .after fun _ => .finish_sort pos rfl rfl

instance : Plain plan inBody (genericArguments nested) := by
  unfold genericArguments
  infer_instance

instance : Plain plan inBody elementLabels := by
  unfold elementLabels
  dsimp only
  infer_instance

theorem tupleTypeElement_yields :
    Yields plan inBody given (plan.Is .tupleTypeElement) (tupleTypeElement nested) := by
  unfold tupleTypeElement
  dsimp only
  refine .after fun pos => .after fun labels => .after fun type => .after fun _ => ?_
  refine .after fun found => .ite (.after fun _ => ?_) ?_
  all_goals exact .finish_sort pos rfl rfl

/-- A single item of a list. -/
theorem Yields.single {P : Nat → Prop} {item : Parse Nat} (h : Yields plan inBody given P item) :
    Yields plan inBody given (fun ids => ∀ id ∈ ids, P id) (do return [← item]) :=
  .bind h fun _ => .pure fun h => List.forall_mem_singleton.mpr h.2

theorem tupleTypeElements_yields :
    Yields plan inBody given (plan.All .tupleTypeElement) (tupleTypeElements nested) := by
  unfold tupleTypeElements
  refine .after fun _ => .bind (.separatedUntil (.single tupleTypeElement_yields)) fun elements => ?_
  exact .after fun _ => .pure fun h => h.2

instance : Plain plan inBody (tupleType nested) := by
  unfold tupleType
  refine Yields.to_plain (.after fun pos => .bind tupleTypeElements_yields fun elements => ?_)
  exact .finish_any pos (fun h => h.2) rfl nofun

instance : Plain plan inBody (tupleOrFunctionType nested) := by
  unfold tupleOrFunctionType
  refine Yields.to_plain (.after fun pos => .bind tupleTypeElements_yields fun elements => ?_)
  refine .after fun effects => .after fun arrow => .ite (.after fun result => ?_) (.ite ?_ ?_)
  · exact .finish_any pos (fun h => h.2) rfl nofun
  · exact .after fun _ => .finish_any pos (fun h => h.2) rfl nofun
  · exact .finish_any pos (fun h => h.2) rfl nofun

instance : Plain plan inBody (collectionType nested) := by
  unfold collectionType
  dsimp only
  infer_instance

instance : Plain plan inBody (primaryType nested) := by
  unfold primaryType
  refine .seq inferInstance fun pos => .seq inferInstance fun k => ?_
  split
  all_goals infer_instance

instance : Plain plan inBody (suffixedType nested) := by
  unfold suffixedType
  refine .seq inferInstance fun pos => .seq inferInstance fun base => .loop fun type => ?_
  refine .seq inferInstance fun k => ?_
  split
  all_goals infer_instance

instance : Plain plan inBody (compositionType nested) := by
  unfold compositionType
  infer_instance

instance : Plain plan inBody (attributedType nested) := by
  have hattributes : Yields plan inBody True (plan.All .typeAttribute)
      (gatherWhile (isAt .atSign) (do return [← typeAttribute])) :=
    .gatherWhile (.single typeAttribute_yields)
  unfold attributedType
  dsimp only
  refine Yields.to_plain (.after fun pos => .bind hattributes fun attributes => ?_)
  have hfinish (specifier : Option Nat) (base : Nat) :
      Yields plan inBody (True ∧ plan.All .typeAttribute attributes) (fun _ => True)
        (finish (.attributedType attributes specifier base) pos) :=
    .finish_any pos (fun h => h.2) rfl nofun
  refine .after fun found => .ite (.after fun specifier => .after fun base => ?_)
    (.after fun specifier => .after fun base => ?_)
  · exact .ite .of_plain (hfinish specifier base)
  · exact .ite .of_plain (hfinish specifier base)

instance : Plain plan inBody (type nested) := by
  unfold type
  infer_instance

/-! ## Section 4: Arguments -/

instance : Plain plan inBody argumentLabel := by
  unfold argumentLabel
  infer_instance

theorem argument_yields : Yields plan inBody given (plan.Is .argument) (argument nested) := by
  unfold argument
  dsimp only
  refine .after fun pos => .after fun label => .ite (.after fun ends => ?_) (.after fun ends => ?_)
  all_goals
    refine .ite (.after fun expression => ?_) (.after fun expression => ?_)
    all_goals exact .finish_sort pos rfl rfl

theorem argumentList_yields {opener closer : Kind} {what : String} :
    Yields plan inBody given (plan.All .argument) (argumentList nested opener closer what) := by
  unfold argumentList
  refine .after fun _ => .bind (.unrestricted (.separatedUntil (.single argument_yields)))
    fun arguments => ?_
  exact .after fun _ => .pure fun h => h.2

theorem parenArguments_yields :
    Yields plan inBody given (plan.All .argument) (parenArguments nested) := argumentList_yields

theorem bracketArguments_yields :
    Yields plan inBody given (plan.All .argument) (bracketArguments nested) := argumentList_yields

instance : Plain plan inBody (tupleExpression nested) := by
  unfold tupleExpression
  refine Yields.to_plain (.after fun pos => .bind parenArguments_yields fun elements => ?_)
  exact .finish_any pos (fun h => h.2) rfl nofun

instance : Plain plan inBody (collectionElement nested) := by
  unfold collectionElement
  infer_instance

instance : Plain plan inBody (collectionElements nested) := by
  unfold collectionElements
  infer_instance

instance : Plain plan inBody (collectionExpression nested) := by
  unfold collectionExpression
  infer_instance

instance : Plain plan inBody (bindingPattern nested) := by
  unfold bindingPattern
  infer_instance

instance : Plain plan inBody (initialValue nested) := by
  unfold initialValue
  infer_instance

instance : Plain plan inBody (typeClause nested) := by
  unfold typeClause
  infer_instance

/-! ## Section 5: Statement lists -/

theorem listEntry_owes : Owes plan inBody (members inBody) (listEntry nested) := by
  unfold listEntry
  dsimp only
  refine .after fun atBrace => .ite (.of_plain inferInstance) (.after fun before => ?_)
  intro s hs hbody
  refine (hn.statement inBody s hs hbody).bind fun statement s₁ h₁ => ?_
  -- What follows the statement is only skipped.
  refine .peek (.peek (.ite (fun _ => ?_) fun _ => .pure h₁))
  exact (h₁.followed hbody).bind fun _ s₂ h₂ => (h₂.followed hbody).bind fun _ s₃ h₃ => .pure h₃

theorem statementsUntil_owes (stops : Parse Bool) [Plain plan inBody stops] :
    Owes plan inBody (members inBody) (statementsUntil nested stops) := by
  intro s hs hbody
  have hentry : Owes plan inBody (members inBody) (listEntry nested) := listEntry_owes
  have hnone : Builds plan True (members inBody []) s s := .refl hs
  unfold statementsUntil
  refine loop_keeps (I := fun ids s' => Builds plan True (members inBody ids) s s')
    (fun ids s₁ h₁ => h₁.skip (.exhausted h₁.settled)) (fun ids s₁ h₁ => ?_) hnone
  refine (h₁.followed hbody).bind fun _ s₂ h₂ => .peek (.ite (fun _ => .pure h₂) fun _ => ?_)
  refine (h₂.followed hbody).bind fun stop s₃ h₃ => .ite (fun _ => .pure h₃) fun _ => ?_
  have hbody₃ : s₃.context.inTypeBody = inBody := by rw [h₃.context_eq, hbody]
  refine (hentry s₃ h₃.settled hbody₃).bind fun more s₄ h₄ => .pure ?_
  show Builds plan True (members inBody (ids ++ more)) s s₄
  rw [members_append]
  exact h₃.trans h₄

instance (stops : Parse Bool) [Plain plan false stops] :
    Plain plan false (statementsUntil nested stops) := (statementsUntil_owes stops).plain

/-- The statements between braces are read in a context of their own. -/
theorem statementsInBraces_owes {inner : Bool} {change : Context → Context}
    (hchange : ∀ context, (change context).inTypeBody = inner) :
    Owes plan inBody (members inner) (statementsInBraces nested change) := by
  unfold statementsInBraces
  refine .after fun _ => ?_
  intro s hs hbody
  have hread : Owes plan inBody (members inner)
      (within change (statementsUntil nested (isAt .closeBrace))) :=
    .within (fun context _ => hchange context) (statementsUntil_owes _)
  refine (hread s hs hbody).bind fun statements s₁ h₁ => ?_
  exact (h₁.followed hbody).bind fun _ s₂ h₂ => .pure h₂

instance : Plain plan inBody (statementsInBraces nested fun _ => {}) :=
  (statementsInBraces_owes fun _ => rfl).plain

instance : Plain plan inBody (block nested) := by
  unfold block
  infer_instance

instance : Plain plan inBody (functionBody nested) := by
  unfold functionBody
  infer_instance

/-! ## Section 6: Closures -/

instance : Plain plan inBody ownershipDetail := by
  unfold ownershipDetail
  infer_instance

instance : Plain plan inBody captureName := by
  unfold captureName
  infer_instance

theorem captureItem_yields :
    Yields plan inBody given (fun id => ∀ n ∈ id, plan.Is .captureItem n) (captureItem nested) := by
  have hitem (pos : Nat) (ownership : Ownership) :
      Yields plan inBody given (fun id => ∀ n ∈ id, plan.Is .captureItem n) (do
        let name ← captureName
        let expression ← nested .expression
        if ← isMissing expression then
          return none
        else
          some <$> finish (.captureItem ownership name expression) pos) := by
    refine .after fun name => .after fun expression => .after fun absent => ?_
    refine .ite (.pure fun _ => nofun) (.map ?_)
    refine (Yields.finish_sort pos rfl rfl).mono ?_
    rintro id hid n ⟨⟩
    exact hid
  unfold captureItem
  dsimp only
  refine .after fun pos => .after fun ownership => .ite (.after fun acceptable => ?_)
    (.after fun _ => .after fun acceptable => ?_)
  all_goals exact .ite (hitem pos ownership) (.pure fun _ => nofun)

theorem captureList_yields :
    Yields plan inBody given (fun ids => ∀ nodes ∈ ids, plan.All .captureItem nodes)
      (captureList nested) := by
  unfold captureList
  refine .after fun found => .ite (.after fun _ => .enclosed? captureItem_yields) (.pure ?_)
  rintro - nodes ⟨⟩
  nofun

theorem closureParameter_yields :
    Yields plan inBody given (fun id => ∀ n ∈ id, plan.Is .parameter n)
      (closureParameter nested) := by
  unfold closureParameter
  refine .after fun pos => .after fun _ => .after fun found => .ite ?_ (.pure fun _ => nofun)
  refine .after fun first => .after fun second => .after fun type => .after fun _ => .map ?_
  refine (Yields.finish_sort pos rfl rfl).mono ?_
  rintro id hid n ⟨⟩
  exact hid

theorem bareParameters_yields :
    Yields plan inBody given (fun ids => ∀ nodes ∈ ids, plan.All .identifier nodes)
      bareParameters := by
  unfold bareParameters
  refine .loop ?_ fun names => .after fun found => .ite ?_ (.pure fun _ => nofun)
  · rintro - nodes ⟨⟩
    nofun
  · refine .bind name_yields fun name => ?_
    have hmore : (given ∧ ∀ nodes ∈ names, plan.All .identifier nodes) ∧ plan.Is .identifier name →
        ∀ nodes ∈ names.map (· ++ [name]), plan.All .identifier nodes := by
      rintro ⟨⟨-, hnames⟩, hname⟩ nodes hnodes
      obtain ⟨before, hbefore, rfl⟩ := Option.map_eq_some_iff.mp hnodes
      exact List.forall_mem_append.mpr ⟨hnames before hbefore, List.forall_mem_singleton.mpr hname⟩
    exact .after fun found => .ite (.pure hmore) (.pure hmore)

theorem closureParameters_yields :
    Yields plan inBody given (fun found => ∀ parameters ∈ found, parameters.Conforms plan)
      (closureParameters nested) := by
  unfold closureParameters
  refine .after fun found => .ite (.after fun _ => ?_) (.after fun found => .ite ?_ ?_)
  · refine .bind (.enclosed? closureParameter_yields) fun nodes => .pure ?_
    rintro ⟨-, hnodes⟩ parameters hparameters
    obtain ⟨ids, hids, rfl⟩ := Option.map_eq_some_iff.mp hparameters
    exact hnodes ids hids
  · refine .bind bareParameters_yields fun nodes => .pure ?_
    rintro ⟨-, hnodes⟩ parameters hparameters
    obtain ⟨ids, hids, rfl⟩ := Option.map_eq_some_iff.mp hparameters
    exact hnodes ids hids
  · refine .pure ?_
    rintro - parameters ⟨⟩
    trivial

/-- The captures and parameters of a signature are of the right sorts. -/
structure Signature.Conforms (plan : FormPlan) (signature : Signature) : Prop where
  captures : plan.All .captureItem signature.captures
  parameters : signature.parameters.Conforms plan

theorem closureSignature_yields :
    Yields plan inBody given (fun found => ∀ signature ∈ found, signature.Conforms plan)
      (closureSignature nested) := by
  unfold closureSignature
  dsimp only
  refine .after fun _ => .bind captureList_yields fun captures => ?_
  cases captures with
  | none => exact .pure fun _ => nofun
  | some captures =>
    refine .bind closureParameters_yields fun parameters => ?_
    cases parameters with
    | none => exact .pure fun _ => nofun
    | some parameters =>
      have hdone (result : Option Nat) :
          (given ∧ ∀ nodes ∈ some captures, plan.All .captureItem nodes) ∧
              (∀ p ∈ some parameters, p.Conforms plan) →
            ∀ signature ∈ some (Signature.mk captures parameters result),
              signature.Conforms plan := by
        rintro ⟨⟨-, hcaptures⟩, hparameters⟩ signature ⟨⟩
        exact ⟨hcaptures captures rfl, hparameters parameters rfl⟩
      refine .after fun _ => .after fun arrow => .ite (.after fun result => ?_)
        (.after fun result => ?_)
      all_goals exact .after fun found => .ite (.pure (hdone _)) (.pure fun _ => nofun)

theorem optionalSignature_yields :
    Yields plan inBody given (Signature.Conforms plan) (optionalSignature nested) := by
  unfold optionalSignature
  refine .bind (.attempt closureSignature_yields) fun found => .pure ?_
  rintro ⟨-, hfound⟩
  cases found with
  | none => exact ⟨nofun, trivial⟩
  | some signature => exact hfound signature rfl

theorem closure_yields : Yields plan inBody given (plan.Is .closure) (closure nested) := by
  unfold closure
  refine .after fun pos => .after fun _ => .bind optionalSignature_yields fun signature => ?_
  refine .after fun statements => .after fun _ => ?_
  refine .finish pos (fun h => ⟨h.2.captures, h.2.parameters⟩) rfl nofun fun _ id hid => ?_
  rw [FormPlan.Is, hid]
  rfl

instance : Plain plan inBody (closure nested) := closure_yields.plain

instance : Plain plan inBody atLabelledClosure := by
  unfold atLabelledClosure
  infer_instance

theorem labelledClosure_yields :
    Yields plan inBody given plan.IsLabelledClosure (labelledClosure nested) := by
  unfold labelledClosure
  refine .after fun pos => .bind name_yields fun label => .after fun _ => ?_
  refine .bind closure_yields fun expression => ?_
  refine .finish pos (fun _ => trivial) rfl nofun fun h id hid => ?_
  exact ⟨label, expression, hid, h.1.2, h.2⟩

theorem trailingClosures_yields :
    Yields plan inBody given
      (fun closures => plan.Is .closure closures.1 ∧ ∀ id ∈ closures.2, plan.IsLabelledClosure id)
      (trailingClosures nested) := by
  unfold trailingClosures
  refine .bind closure_yields fun first => .bind (.gatherWhile (.single labelledClosure_yields))
    fun additional => .pure fun h => ⟨h.1.2, h.2⟩

/-! ## Section 7: Expressions -/

instance : Plain plan inBody skipOperator := by
  unfold skipOperator
  infer_instance

instance : Plain plan inBody operatorNode := by
  unfold operatorNode
  infer_instance

instance : Plain plan inBody skipMark := by
  unfold skipMark
  infer_instance

instance : Plain plan inBody (castNode nested) := by
  unfold castNode
  dsimp only
  infer_instance

theorem Builds.entered {loose : List (ClauseSort × Nat)} (s : State) (segment : Segment) :
    Builds plan given loose s (s.entered segment) := by
  refine .of_tree_eq ⟨rfl, s.entered_settled segment, rfl, List.prefix_refl _, id, .refl _,
    fun h => ?_⟩ rfl
  exact ⟨h.last, h.missing⟩

theorem Builds.returned {loose : List (ClauseSort × Nat)} {s s₁ : State} (hs : s.Settled)
    (h : Builds plan given loose s s₁) : Builds plan given loose s (s₁.returned s) where
  bytes_eq := h.bytes_eq
  settled := hs.restore h.bytes_eq
  context_eq := h.context_eq
  diagnostics := h.diagnostics
  exhausted_imp := h.exhausted_imp
  tree := h.tree
  accounted hall := ⟨(h.accounted hall).last, (h.accounted hall).missing⟩
  conforms := h.conforms
  housed := h.housed

theorem windowArguments_yields :
    Yields plan inBody given (plan.All .argument) (windowArguments nested) := by
  unfold windowArguments interpolatedArgument
  dsimp only
  refine .unrestricted (.gatherWhile (.after fun before => .bind argument_yields fun id => ?_))
  have hdone : Yields plan false (given ∧ plan.Is .argument id)
      (fun ids => ∀ id ∈ ids, plan.Is .argument id) (pure [id]) :=
    .pure fun h => List.forall_mem_singleton.mpr h.2
  exact .after fun found => .ite hdone (.after fun after => .ite (.after fun _ => hdone) hdone)

/-- The expressions in a literal are arguments, whichever window they are read in. -/
theorem interpolations_yields (segments : List Segment) :
    Yields plan inBody given (plan.All .argument) (interpolations nested segments) := by
  induction segments with
  | nil => exact .pure fun _ => nofun
  | cons segment rest ih =>
    intro s hs hbody
    have hentered : Builds plan given [] s (s.entered segment) := .entered s segment
    have hwindow : Yields plan inBody given (plan.All .argument) (windowArguments nested) :=
      windowArguments_yields
    refine interpolations_cons (hwindow _ hentered.settled hbody) fun arguments s₁ h₁ => ?_
    -- The windows share the tree and the context, so what the first one leaves the others start from.
    have hread := hentered.skip h₁.1
    have hbody₁ : s₁.context.inTypeBody = inBody := by rw [hread.context_eq, hbody]
    refine (ih s₁ h₁.1.settled hbody₁).mono fun others s₂ h₂ => ⟨hread.skip h₂.1, ?_⟩
    intro hplan hg
    have harguments := h₁.2 (h₂.1.tree.matches_plan hplan) hg
    exact List.forall_mem_append.mpr ⟨harguments, h₂.2 hplan hg⟩

theorem interpolatedParts_yields (segments : List Segment) :
    Yields plan inBody given (plan.All .argument) (interpolatedParts nested segments) := by
  intro s hs hbody
  unfold interpolatedParts
  have hparts : Yields plan inBody given (plan.All .argument) (interpolations nested segments) :=
    interpolations_yields segments
  refine .peek ((hparts s hs hbody).bind fun parts s₁ h₁ => ?_)
  exact ⟨h₁.1.returned hs, h₁.2⟩

instance : Plain plan inBody (stringExpression nested) := by
  unfold stringExpression
  dsimp only
  have hfinish (pos : Nat) (parts : List Nat) :
      Yields plan inBody (True ∧ plan.All .argument parts) (fun _ => True)
        (finish (.stringLiteral parts) pos) := .finish_any pos (fun h => h.2) rfl nofun
  refine Yields.to_plain (.after fun pos => .after fun s => .ite ?_ ?_)
  · exact .bind (.pure fun _ => nofun) fun parts => .after fun _ => hfinish pos parts
  · refine .bind (.guarded (.pure fun _ => nofun) (interpolatedParts_yields _)) fun parts => ?_
    exact .after fun _ => hfinish pos parts

instance : Plain plan inBody implicitMember := by
  unfold implicitMember
  infer_instance

instance : Plain plan inBody poundExpression := by
  unfold poundExpression
  dsimp only
  infer_instance

instance : Plain plan inBody (bindingExpression nested) := by
  unfold bindingExpression
  infer_instance

instance : Plain plan inBody literal := by
  unfold literal
  infer_instance

instance : Plain plan inBody (typeList nested) := by
  unfold typeList
  infer_instance

instance : Plain plan inBody (specialization nested) := by
  unfold specialization
  refine .attempt (.seq inferInstance fun _ => .seq inferInstance fun types => ?_)
  cases types with
  | none => infer_instance
  | some types => infer_instance

section suffixes

variable (pos : Nat) (base : Option Nat)

instance : Plain plan inBody (memberSuffix pos base) := by
  unfold memberSuffix
  dsimp only
  infer_instance

instance : Plain plan inBody (callSuffix nested pos base) := by
  unfold callSuffix
  dsimp only
  refine Yields.to_plain (.bind parenArguments_yields fun arguments => .after fun found => ?_)
  refine .ite (.bind trailingClosures_yields fun closures => ?_) ?_
  · refine .finish_any pos (fun h => ⟨h.1.2, ?_, h.2.2⟩) rfl nofun
    exact List.forall_mem_singleton.mpr h.2.1
  · exact .finish_any pos (fun h => ⟨h.2, nofun, nofun⟩) rfl nofun

instance : Plain plan inBody (trailingSuffix nested pos base) := by
  unfold trailingSuffix
  dsimp only
  refine Yields.to_plain (.bind trailingClosures_yields fun closures => ?_)
  refine .finish_any pos (fun h => ⟨nofun, ?_, h.2.2⟩) rfl nofun
  exact List.forall_mem_singleton.mpr h.2.1

instance : Plain plan inBody (subscriptSuffix nested pos base) := by
  unfold subscriptSuffix
  refine Yields.to_plain (.bind bracketArguments_yields fun arguments => ?_)
  exact .finish_any pos (fun h => h.2) rfl nofun

instance : Plain plan inBody (operatorSuffix pos base) := by
  unfold operatorSuffix
  infer_instance

instance : Plain plan inBody (genericSuffix nested pos base) := by
  unfold genericSuffix
  refine .seq inferInstance fun arguments => ?_
  cases arguments with
  | none => infer_instance
  | some arguments => infer_instance

instance : Plain plan inBody (suffix? nested pos base) := by
  unfold suffix?
  refine .seq inferInstance fun k => ?_
  split
  all_goals infer_instance

end suffixes

end SelfCapture.Grammar
