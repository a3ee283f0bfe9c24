import SelfCapture.Grammar.Declaration
import SelfCapture.Grammar.Control
import SelfCapture.Grammar.Closure
import SelfCapture.Proofs.Grammar.Displacement

/-! # The rules of the grammar in displaced texts

  Every rule mirrors itself when its text is displaced, if the readers of
  its nested phrases do.  A rule that is told where its construct starts is
  told the moved offset.  Most rules are put together from readings that
  mirror each other, in the order in which they are written; the others are
  those that branch on a result or compare offsets.
-/

namespace SelfCapture.Grammar

open Token (Kind)

variable {front : ByteArray} {nested nested' : Readers}

set_option synthInstance.maxSize 1000

/-! ## Section 1: Skipped constructs -/

instance (opener closer : Kind) :
    Mirrors front (skipBalanced opener closer) (skipBalanced opener closer) := by
  unfold skipBalanced
  infer_instance

instance : Mirrors front skipParens skipParens :=
  inferInstanceAs (Mirrors front (skipBalanced _ _) (skipBalanced _ _))

instance : Mirrors front skipAttachedParens skipAttachedParens := by
  unfold skipAttachedParens
  infer_instance

instance : Mirrors front skipGenerics skipGenerics :=
  inferInstanceAs (Mirrors front (skipBalanced _ _) (skipBalanced _ _))

instance (opener closer : Kind) :
    Mirrors front (skipToCloser opener closer) (skipToCloser opener closer) := by
  unfold skipToCloser
  infer_instance

instance (opener closer : Kind) (what : String) :
    Mirrors front (closeList opener closer what) (closeList opener closer what) := by
  unfold closeList
  infer_instance

instance : Mirrors front skipLine skipLine := by
  unfold skipLine
  infer_instance

instance : Mirrors front skipAttribute skipAttribute := by
  unfold skipAttribute
  dsimp only
  infer_instance

instance : Mirrors front skipAttributes skipAttributes := by
  unfold skipAttributes
  infer_instance

instance : Mirrors front skipEffects skipEffects := by
  unfold skipEffects
  infer_instance

instance : Mirrors front skipVariadicMark skipVariadicMark := by
  unfold skipVariadicMark
  infer_instance

instance : Mirrors front opensObservers opensObservers := by
  unfold opensObservers
  infer_instance

/-! ## Section 2: Where declarations start -/

instance : Mirrors front atModifierWord atModifierWord :=
  inferInstanceAs (Mirrors front (isOneOf _) (isOneOf _))

instance : Mirrors front atDeclarationKeyword atDeclarationKeyword := by
  unfold atDeclarationKeyword
  refine .seq inferInstance fun k => ?_
  split
  · infer_instance
  split
  · refine .get fun s s' hs => ?_
    rw [hs.context]
    infer_instance
  · infer_instance

instance : Mirrors front classIsModifier classIsModifier := by
  refine nextIs_mirrors (.seq inferInstance fun k => ?_)
  split <;> infer_instance

instance : Mirrors front modifierDetail modifierDetail := by
  unfold modifierDetail
  infer_instance

instance : Mirrors front modifierPrecedesDeclaration modifierPrecedesDeclaration := by
  refine lookAhead_mirrors (.seq inferInstance fun _ => .seq inferInstance fun acceptable => ?_)
  split
  · refine .seq inferInstance fun broken => ?_
    split
    · infer_instance
    · refine .seq inferInstance fun k => ?_
      split <;> infer_instance
  · infer_instance

instance : Mirrors front skipModifier skipModifier := by
  refine .seq inferInstance fun k => ?_
  split <;> infer_instance

instance : Mirrors front skipModifiers skipModifiers := by
  unfold skipModifiers
  infer_instance

instance : Mirrors front atDeclaration atDeclaration := by
  refine .seq inferInstance fun k => ?_
  split <;> infer_instance

instance : Mirrors front skipWhereClause skipWhereClause := by
  refine .seq inferInstance fun found => ?_
  split
  · refine loop_mirrors () fun _ => .seq inferInstance fun k => ?_
    split
    · infer_instance
    · infer_instance
    · infer_instance
    · dsimp only
      infer_instance
  · infer_instance

/-! ## Section 3: Types -/

instance : Mirrors front typeFollows typeFollows := by
  refine nextIs_mirrors ?_
  infer_instance

instance : Mirrors front atSpecifier atSpecifier := by
  unfold atSpecifier
  infer_instance

instance : Mirrors front atOpaque atOpaque := by
  unfold atOpaque
  infer_instance

instance : Mirrors front typeAttribute typeAttribute := by
  unfold typeAttribute
  infer_instance

section rules

variable [hn : ∀ q, Mirrors front (nested q) (nested' q)]

instance : Mirrors front (genericArguments nested) (genericArguments nested') := by
  unfold genericArguments
  infer_instance

instance : Mirrors front atElementLabel atElementLabel := by
  unfold atElementLabel
  infer_instance

instance : Mirrors front elementLabels elementLabels := by
  unfold elementLabels
  infer_instance

instance : Mirrors front (tupleTypeElement nested) (tupleTypeElement nested') := by
  unfold tupleTypeElement
  infer_instance

instance : Mirrors front (tupleTypeElements nested) (tupleTypeElements nested') := by
  unfold tupleTypeElements
  infer_instance

instance : Mirrors front (tupleType nested) (tupleType nested') := by
  unfold tupleType
  infer_instance

instance : Mirrors front (tupleOrFunctionType nested) (tupleOrFunctionType nested') := by
  unfold tupleOrFunctionType
  infer_instance

instance : Mirrors front (collectionType nested) (collectionType nested') := by
  unfold collectionType
  infer_instance

instance : Mirrors front (primaryType nested) (primaryType nested') := by
  refine .start fun pos => .seq inferInstance fun k => ?_
  split <;> infer_instance

instance : Mirrors front (suffixedType nested) (suffixedType nested') := by
  refine .start fun pos => .seq inferInstance fun base => ?_
  refine loop_mirrors base fun type => .seq inferInstance fun k => ?_
  split <;> infer_instance

instance : Mirrors front (compositionType nested) (compositionType nested') := by
  unfold compositionType
  infer_instance

instance : Mirrors front (attributedType nested) (attributedType nested') := by
  unfold attributedType
  infer_instance

instance : Mirrors front (type nested) (type nested') := by
  unfold type
  infer_instance

end rules

/-! ## Section 4: Lists, blocks and arguments -/

instance : Mirrors front argumentLabel argumentLabel := by
  unfold argumentLabel
  infer_instance

instance : Mirrors front argumentEnds argumentEnds := by
  refine .seq inferInstance fun k => ?_
  split <;> infer_instance

section rules

variable [hn : ∀ q, Mirrors front (nested q) (nested' q)]

instance : Mirrors front (listEntry nested) (listEntry nested') := by
  refine .seq inferInstance fun stray => ?_
  split
  · infer_instance
  · refine .start fun before => .seq inferInstance fun statement => .start fun pos => ?_
    simp only [Text.add_beq_add]
    infer_instance

instance {stops stops' : Parse Bool} [Mirrors front stops stops'] :
    Mirrors front (statementsUntil nested stops) (statementsUntil nested' stops') := by
  unfold statementsUntil
  infer_instance

instance (change : Context → Context) :
    Mirrors front (statementsInBraces nested change) (statementsInBraces nested' change) := by
  unfold statementsInBraces
  infer_instance

instance : Mirrors front (block nested) (block nested') := by
  unfold block
  infer_instance

instance : Mirrors front (functionBody nested) (functionBody nested') := by
  unfold functionBody
  infer_instance

instance : Mirrors front (argument nested) (argument nested') := by
  unfold argument
  infer_instance

instance (opener closer : Kind) (what : String) :
    Mirrors front (argumentList nested opener closer what)
      (argumentList nested' opener closer what) := by
  unfold argumentList
  infer_instance

instance : Mirrors front (parenArguments nested) (parenArguments nested') :=
  inferInstanceAs (Mirrors front (argumentList nested _ _ _) (argumentList nested' _ _ _))

instance : Mirrors front (bracketArguments nested) (bracketArguments nested') :=
  inferInstanceAs (Mirrors front (argumentList nested _ _ _) (argumentList nested' _ _ _))

instance : Mirrors front (tupleExpression nested) (tupleExpression nested') := by
  unfold tupleExpression
  infer_instance

instance : Mirrors front (collectionElement nested) (collectionElement nested') := by
  unfold collectionElement
  infer_instance

instance : Mirrors front (collectionElements nested) (collectionElements nested') := by
  unfold collectionElements
  infer_instance

instance : Mirrors front (collectionExpression nested) (collectionExpression nested') := by
  unfold collectionExpression
  infer_instance

instance : Mirrors front (bindingPattern nested) (bindingPattern nested') := by
  unfold bindingPattern
  infer_instance

instance : Mirrors front (initialValue nested) (initialValue nested') := by
  unfold initialValue
  infer_instance

instance : Mirrors front (typeClause nested) (typeClause nested') := by
  unfold typeClause
  infer_instance

end rules

/-! ## Section 5: Closures -/

instance : Mirrors front ownership ownership := by
  unfold ownership
  infer_instance

instance : Mirrors front ownershipDetail ownershipDetail := by
  unfold ownershipDetail
  infer_instance

instance : Mirrors front captureName captureName := by
  unfold captureName
  infer_instance

instance (node : Option Nat) : Mirrors front (isMissing node) (isMissing node) := by
  cases node with
  | none => exact .pure false
  | some id =>
    refine .get fun s s' hs => ?_
    rw [hs.tree, Tree.form?_behind]
    infer_instance

instance : Mirrors front atBareParameter atBareParameter := by
  unfold atBareParameter
  infer_instance

instance : Mirrors front bareParameters bareParameters := by
  unfold bareParameters
  infer_instance

instance : Mirrors front atLabelledClosure atLabelledClosure := by
  unfold atLabelledClosure
  infer_instance

section rules

variable [hn : ∀ q, Mirrors front (nested q) (nested' q)]

instance : Mirrors front (captureItem nested) (captureItem nested') := by
  unfold captureItem
  infer_instance

instance : Mirrors front (captureList nested) (captureList nested') := by
  unfold captureList
  infer_instance

instance : Mirrors front (closureParameter nested) (closureParameter nested') := by
  unfold closureParameter
  infer_instance

instance : Mirrors front (closureParameters nested) (closureParameters nested') := by
  unfold closureParameters
  infer_instance

instance : Mirrors front (closureSignature nested) (closureSignature nested') := by
  refine .seq inferInstance fun _ => .seq inferInstance fun captures => ?_
  cases captures with
  | none => infer_instance
  | some captures =>
    refine .seq inferInstance fun parameters => ?_
    cases parameters <;> infer_instance

instance : Mirrors front (optionalSignature nested) (optionalSignature nested') := by
  unfold optionalSignature
  infer_instance

instance : Mirrors front (closure nested) (closure nested') := by
  unfold closure
  infer_instance

instance : Mirrors front (labelledClosure nested) (labelledClosure nested') := by
  unfold labelledClosure
  infer_instance

instance : Mirrors front (trailingClosures nested) (trailingClosures nested') := by
  unfold trailingClosures
  infer_instance

end rules

/-! ## Section 6: Control statements -/

instance : Mirrors front endsCase endsCase := by
  refine .seq inferInstance fun k => ?_
  split
  · infer_instance
  · infer_instance
  · infer_instance
  · refine .get fun s s' hs => ?_
    -- The word after the mark is looked for in the whole text.
    have hword := Window.startsWith_behind front
      ⟨s.scanner.bytes, s.scanner.bytes.size⟩ s.scanner.token.stop "unknown".toList
    have htext : (⟨s'.scanner.bytes, s'.scanner.bytes.size⟩ : Window) =
        Window.behind front ⟨s.scanner.bytes, s.scanner.bytes.size⟩ := by
      simp only [hs.scanner, Scanner.behind, ByteArray.size_append, Window.behind]
    dsimp only
    rw [htext, hs.token, Token.moved, hword]
    infer_instance
  · infer_instance

instance : Mirrors front atDirective atDirective := by
  unfold atDirective
  infer_instance

instance : Mirrors front operandFollows operandFollows := by
  refine .seq inferInstance fun broken => ?_
  split
  · infer_instance
  · refine .seq inferInstance fun k => ?_
    split <;> infer_instance

instance (sort : ControlSort) : Mirrors front (jumpStatement sort) (jumpStatement sort) := by
  unfold jumpStatement
  infer_instance

instance : Mirrors front fallthroughStatement fallthroughStatement := by
  unfold fallthroughStatement
  infer_instance

section rules

variable [hn : ∀ q, Mirrors front (nested q) (nested' q)]

instance : Mirrors front (optionalBinding nested) (optionalBinding nested') := by
  unfold optionalBinding
  infer_instance

instance : Mirrors front (condition nested) (condition nested') := by
  refine .seq inferInstance fun k => ?_
  split <;> infer_instance

instance : Mirrors front (conditions nested) (conditions nested') := by
  unfold conditions
  infer_instance

instance : Mirrors front (headExpression nested) (headExpression nested') := by
  unfold headExpression
  infer_instance

instance : Mirrors front (expressions nested) (expressions nested') := by
  unfold expressions
  infer_instance

instance : Mirrors front (whereCondition nested) (whereCondition nested') := by
  unfold whereCondition
  infer_instance

instance : Mirrors front (alternative nested) (alternative nested') := by
  unfold alternative
  infer_instance

instance : Mirrors front (branchStatement nested) (branchStatement nested') := by
  unfold branchStatement
  infer_instance

instance : Mirrors front (guardStatement nested) (guardStatement nested') := by
  unfold guardStatement
  infer_instance

instance : Mirrors front (whileStatement nested) (whileStatement nested') := by
  unfold whileStatement
  infer_instance

instance : Mirrors front (repeatStatement nested) (repeatStatement nested') := by
  unfold repeatStatement
  infer_instance

instance : Mirrors front (forHead nested) (forHead nested') := by
  unfold forHead
  infer_instance

instance : Mirrors front (forStatement nested) (forStatement nested') := by
  unfold forStatement
  infer_instance

instance : Mirrors front (switchCase nested) (switchCase nested') := by
  unfold switchCase
  infer_instance

instance : Mirrors front (switchDefault nested) (switchDefault nested') := by
  unfold switchDefault
  infer_instance

instance : Mirrors front (strayInSwitch nested) (strayInSwitch nested') := by
  unfold strayInSwitch
  infer_instance

instance : Mirrors front (switchEntry nested) (switchEntry nested') := by
  refine .seq inferInstance fun k => ?_
  split <;> infer_instance

instance : Mirrors front (switchEntries nested) (switchEntries nested') := by
  refine gatherWhile_mirrors ?_
  refine .start fun before => .seq inferInstance fun entry => .start fun pos => ?_
  simp only [Text.add_beq_add]
  infer_instance

instance : Mirrors front (switchStatement nested) (switchStatement nested') := by
  unfold switchStatement
  infer_instance

instance : Mirrors front (handlerHead nested) (handlerHead nested') := by
  unfold handlerHead
  infer_instance

instance : Mirrors front (handler nested) (handler nested') := by
  unfold handler
  infer_instance

instance : Mirrors front (doStatement nested) (doStatement nested') := by
  unfold doStatement
  infer_instance

instance : Mirrors front (deferStatement nested) (deferStatement nested') := by
  unfold deferStatement
  infer_instance

instance (sort : ControlSort) :
    Mirrors front (exitStatement nested sort) (exitStatement nested' sort) := by
  unfold exitStatement
  infer_instance

end rules

/-! ## Section 7: Declarations -/

instance : Mirrors front skipAccessorModifiers skipAccessorModifiers := by
  unfold skipAccessorModifiers
  infer_instance

instance : Mirrors front opensAccessors opensAccessors := by
  refine lookAhead_mirrors (.seq inferInstance fun _ => .seq inferInstance fun _ => ?_)
  refine .seq inferInstance fun takesParameter => .seq inferInstance fun found => ?_
  split
  · refine .seq inferInstance fun _ => .seq inferInstance fun broken => ?_
    split
    · infer_instance
    · refine .seq inferInstance fun k => ?_
      split <;> infer_instance
  · infer_instance

instance : Mirrors front accessorParameter accessorParameter := by
  unfold accessorParameter
  infer_instance

instance : Mirrors front functionName functionName := by
  unfold functionName
  infer_instance

instance : Mirrors front skipPrecedenceGroup skipPrecedenceGroup := by
  unfold skipPrecedenceGroup
  infer_instance

section rules

variable [hn : ∀ q, Mirrors front (nested q) (nested' q)]

instance : Mirrors front (parameter nested) (parameter nested') := by
  unfold parameter
  infer_instance

instance : Mirrors front (parameterClause nested) (parameterClause nested') := by
  unfold parameterClause
  infer_instance

instance : Mirrors front (resultClause nested) (resultClause nested') := by
  unfold resultClause
  infer_instance

instance : Mirrors front (accessor nested) (accessor nested') := by
  unfold accessor
  infer_instance

instance : Mirrors front (accessorBlock nested) (accessorBlock nested') := by
  refine .seq inferInstance fun opens => ?_
  split
  · refine .start fun pos => .seq inferInstance fun _ => .seq ?_ fun accessors => inferInstance
    refine gatherWhile_mirrors ?_
    refine .start fun before => .seq inferInstance fun accessors => .start fun here => ?_
    simp only [Text.add_beq_add]
    infer_instance
  · infer_instance

instance (pos : Nat) :
    Mirrors front (functionDeclaration nested pos)
      (functionDeclaration nested' (front.size + pos)) := by
  unfold functionDeclaration
  infer_instance

instance (pos : Nat) :
    Mirrors front (initializerDeclaration nested pos)
      (initializerDeclaration nested' (front.size + pos)) := by
  unfold initializerDeclaration
  infer_instance

instance (pos : Nat) :
    Mirrors front (deinitializerDeclaration nested pos)
      (deinitializerDeclaration nested' (front.size + pos)) := by
  unfold deinitializerDeclaration
  infer_instance

instance (pos : Nat) :
    Mirrors front (subscriptDeclaration nested pos)
      (subscriptDeclaration nested' (front.size + pos)) := by
  unfold subscriptDeclaration
  infer_instance

instance : Mirrors front (inheritanceClause nested) (inheritanceClause nested') := by
  unfold inheritanceClause
  infer_instance

instance : Mirrors front (memberBlock nested) (memberBlock nested') := by
  unfold memberBlock
  infer_instance

instance (sort : TypeSort) (pos : Nat) :
    Mirrors front (typeDeclaration nested sort pos)
      (typeDeclaration nested' sort (front.size + pos)) := by
  unfold typeDeclaration
  infer_instance

instance (pos : Nat) :
    Mirrors front (typeAliasDeclaration nested pos)
      (typeAliasDeclaration nested' (front.size + pos)) := by
  unfold typeAliasDeclaration
  infer_instance

instance : Mirrors front (patternBinding nested) (patternBinding nested') := by
  unfold patternBinding
  infer_instance

instance (pos : Nat) :
    Mirrors front (variableDeclaration nested pos)
      (variableDeclaration nested' (front.size + pos)) := by
  unfold variableDeclaration
  infer_instance

instance : Mirrors front (enumCaseElement nested) (enumCaseElement nested') := by
  unfold enumCaseElement
  infer_instance

instance (pos : Nat) :
    Mirrors front (enumCaseDeclaration nested pos)
      (enumCaseDeclaration nested' (front.size + pos)) := by
  unfold enumCaseDeclaration
  infer_instance

instance : Mirrors front (declaration nested) (declaration nested') := by
  refine .start fun pos => .seq inferInstance fun _ => .seq inferInstance fun k => ?_
  split <;> infer_instance

end rules

end SelfCapture.Grammar
