import SelfCapture.Grammar.Closure
import SelfCapture.Grammar.Control
import SelfCapture.Grammar.TypeName

/-! # Expressions

  An expression is a flat sequence of operands and infix operators.  An
  operand is a primary expression with prefix operators before it and
  member accesses, calls, subscripts and unwrapping marks after it.

  Whether an operator is infix, prefix or postfix is told from the blanks
  around it.
-/

namespace SelfCapture.Grammar

open Token (Kind)

/-! ## Section 1: Operators -/

/-- Kinds of which an operator that starts with an angle bracket is made. -/
def gluesToOperator : Kind → Bool
  | .greaterThan | .lessThan | .equals | .operator => true
  | _ => false

/-- Skips one operator.  Angle brackets are scanned alone, so `>=`, `>>`
    and `<<` are put together here. -/
def skipOperator : Parse Unit := do
  let k ← kind
  advance
  if k == .greaterThan || k == .lessThan then
    repeatWhile (return gluesToOperator (← kind) && !(← afterBlank)) advance

/-- Makes a node of one operator. -/
def operatorNode : Parse Nat := do
  let pos ← position
  let token ← kind
  skipOperator
  finish (.operator token) pos

/-- Kinds that an operator cannot be bound to on its right. -/
def closesOperand : Kind → Bool
  | .closeParen | .closeBracket | .closeBrace | .comma | .semicolon | .colon | .endOfFile => true
  | _ => false

/-- Whether the operator at hand is infix: bound to both operands or to neither. -/
def isInfixHere : Parse Bool := do
  if ← isAt .equals then
    return true
  else
    let leftBound := !(← afterBlank)
    let rightBound ← lookAhead do
      skipOperator
      return !(← afterBlank) && !closesOperand (← kind)
    return leftBound == rightBound

/-- Skips the `?` or `!` right after `try` or `as`. -/
def skipMark : Parse Unit := do
  if ((← isAt .question) || (← isAt .exclamation)) && !(← afterBlank) then advance

/-- `as T`, `as? T`, `as! T` or `is T`. -/
def castNode (nested : Readers) : Parse Nat := do
  let pos ← position
  let keyword ← kind
  advance
  if keyword == .asKeyword then skipMark
  let type ← nested .type
  finish (.cast keyword type) pos

/-! ## Section 2: Primary expressions -/

/-- Reads the expressions interpolated in a string literal, each in its own
    window. -/
def interpolations (nested : Readers) : List Segment → Parse (List Nat)
  | [] => return []
  | segment :: rest => do
    modify fun s => { s with scanner := s.scanner.restrict segment.start segment.stop }
    advance
    let arguments ← unrestricted do
      gatherWhile (return !(← atEnd)) do
        let before ← position
        let argument ← argument nested
        unless ← accept .comma do
          if (← position) == before then advance
        return [argument]
    let others ← interpolations nested rest
    return arguments ++ others

/-- Reads the interpolated expressions and comes back to the literal. -/
def interpolatedParts (nested : Readers) (segments : List Segment) : Parse (List Nat) := do
  let before ← get
  let saved := before.scanner.save
  let savedStop := before.previousStop
  let parts ← interpolations nested segments
  modify fun s =>
    { s with scanner := s.scanner.restore saved, previousStop := savedStop }
  return parts

/-- A string literal with its interpolated expressions. -/
def stringExpression (nested : Readers) : Parse Nat := do
  let pos ← position
  let segments := (← get).scanner.segments
  let parts ←
    if segments.isEmpty then pure []
    else guarded (pure []) (interpolatedParts nested segments)
  advance
  finish (.stringLiteral parts) pos

/-- `.member` without a base. -/
def implicitMember : Parse Nat := do
  let pos ← position
  advance
  let name ← nameOr "Member name"
  finish (.memberAccess none name) pos

/-- `#selector`, `#file`, `#available(...)` and the like. -/
def poundExpression : Parse Nat := do
  let pos ← position
  advance
  let availability ← isOneOf ["available", "unavailable"]
  if (← isName) && !(← afterBlank) then advance else reportExpected "Identifier"
  if availability then skipParens
  finish (.identifier .hash) pos

/-- `let pattern` or `var pattern` inside a pattern. -/
def bindingExpression (nested : Readers) : Parse Nat := do
  let pos ← position
  advance
  let pattern ← nested .operand
  finish (.valueBinding pattern none none) pos

/-- A literal that is one token. -/
def literal : Parse Nat := do
  let pos ← position
  let token ← kind
  advance
  finish (.literal token) pos

/-- A statement used as an expression: `if`, `switch` or `do`. -/
def statementExpression (statement : Parse Nat) : Parse (Option Nat) :=
  guarded (pure none) (some <$> statement)

/-- A primary expression at a token other than an attribute. -/
def plainPrimary (nested : Readers) : Parse (Option Nat) := do
  match ← kind with
  | .identifier | .selfKeyword | .superKeyword | .selfTypeKeyword | .initKeyword =>
    some <$> name
  | .integerLiteral | .floatLiteral | .trueKeyword | .falseKeyword | .nilKeyword =>
    some <$> literal
  | .stringLiteral => some <$> stringExpression nested
  | .dot => some <$> implicitMember
  | .openParen => some <$> tupleExpression nested
  | .openBracket => some <$> collectionExpression nested
  | .openBrace => some <$> closure nested
  | .hash => some <$> poundExpression
  | .ifKeyword => statementExpression (branchStatement nested)
  | .switchKeyword => statementExpression (switchStatement nested)
  | .doKeyword => statementExpression (doStatement nested)
  | .letKeyword | .varKeyword => some <$> bindingExpression nested
  | .isKeyword => some <$> castNode nested
  | _ => some <$> missing "Expression"

/-- A primary expression, with attributes before it skipped. -/
def primary (nested : Readers) : Parse (Option Nat) := do
  skipAttributes
  plainPrimary nested

/-! ## Section 3: Suffixes -/

/-- Kinds that can follow the generic arguments of an expression. -/
def followsGenerics : Kind → Bool
  | .openParen | .dot | .closeParen | .closeBracket | .comma | .colon | .semicolon | .closeBrace
  | .endOfFile => true
  | _ => false

/-- Types separated by commas, with no result if one does not start as a type. -/
def typeList (nested : Readers) : Parse (Option (List Nat)) :=
  loop (some []) fun types => do
    if startsType (← kind) then
      let type ← nested .type
      let types := types.map (· ++ [type])
      if ← accept .comma then return .yield types else return .done types
    else
      return .done none

/-- `<T, U>` after an expression.  There is no result unless what follows
    the closing bracket cannot continue a comparison. -/
def specialization (nested : Readers) : Parse (Option (List Nat)) :=
  attempt do
    advance
    match ← typeList nested with
    | none => return none
    | some types =>
      if ← accept .greaterThan then
        if (← afterLineBreak) || followsGenerics (← kind) then return some types else return none
      else
        return none

/-- Whether a brace can open a trailing closure here. -/
def atTrailingClosure : Parse Bool := do
  if (← isAt .openBrace) && !(← get).context.noTrailingClosure then
    return !(← opensObservers)
  else
    return false

/-- Whether an expression without arguments can be called by a trailing closure. -/
def takesTrailingClosure : Option Form → Bool
  | some (.identifier token) =>
    token == .identifier || token == .selfTypeKeyword || token == .initKeyword || token == .hash
  | some (.memberAccess ..) | some (.postfixOp ..) | some (.genericSpecialization ..)
  | some (.subscript ..) => true
  | _ => false

/-- The form of an expression. -/
def formOf (node : Option Nat) : Parse (Option Form) := do
  let tree := (← get).tree
  return node.bind tree.form?

/-- `base.member` -/
def memberSuffix (pos : Nat) (base : Option Nat) : Parse Nat := do
  advance
  let member ←
    if (← isName) || (← isAt .integerLiteral) then name else missing "Member name"
  finish (.memberAccess base member) pos

/-- `callee(arguments) { trailing closures }` -/
def callSuffix (nested : Readers) (pos : Nat) (callee : Option Nat) : Parse Nat := do
  let arguments ← parenArguments nested
  if ← atTrailingClosure then
    let (trailing, additional) ← trailingClosures nested
    finish (.call callee arguments (some trailing) additional) pos
  else
    finish (.call callee arguments none []) pos

/-- `callee { trailing closures }` -/
def trailingSuffix (nested : Readers) (pos : Nat) (callee : Option Nat) : Parse Nat := do
  let (trailing, additional) ← trailingClosures nested
  finish (.call callee [] (some trailing) additional) pos

/-- `base[arguments]` -/
def subscriptSuffix (nested : Readers) (pos : Nat) (base : Option Nat) : Parse Nat := do
  let arguments ← bracketArguments nested
  finish (.subscript base arguments) pos

/-- A postfix operator that is one token. -/
def operatorSuffix (pos : Nat) (operand : Option Nat) : Parse Nat := do
  let token ← kind
  advance
  finish (.postfixOp operand token) pos

/-- `base<T, U>` -/
def genericSuffix (nested : Readers) (pos : Nat) (base : Option Nat) : Parse (Option Nat) := do
  match ← specialization nested with
  | some arguments => some <$> finish (.genericSpecialization base arguments) pos
  | none => return none

/-- Reads one suffix of an expression, if there is one. -/
def suffix? (nested : Readers) (pos : Nat) (expression : Option Nat) : Parse (Option Nat) := do
  match ← kind with
  | .dot => some <$> memberSuffix pos expression
  | .openParen =>
    if ← afterLineBreak then return none else some <$> callSuffix nested pos expression
  | .openBrace =>
    if ← atTrailingClosure then
      if takesTrailingClosure (← formOf expression) then
        some <$> trailingSuffix nested pos expression
      else
        return none
    else
      return none
  | .openBracket =>
    if ← afterLineBreak then return none else some <$> subscriptSuffix nested pos expression
  | .exclamation | .question =>
    if ← afterBlank then return none else some <$> operatorSuffix pos expression
  | .operator =>
    if !(← afterBlank) && (← beforeBlank) then some <$> operatorSuffix pos expression
    else return none
  | .lessThan =>
    if ← afterBlank then return none else genericSuffix nested pos expression
  | _ => return none

/-- A primary expression with its suffixes. -/
def suffixedExpression (nested : Readers) : Parse (Option Nat) := do
  let pos ← position
  let base ← primary nested
  loop base fun expression => do
    match ← suffix? nested pos expression with
    | some extended => return .yield (some extended)
    | none => return .done expression

/-! ## Section 4: Prefixes and sequences -/

/-- An operand with its prefix operators. -/
def prefixedExpression (nested : Readers) : Parse (Option Nat) := do
  let pos ← position
  let token ← kind
  match token with
  | .tryKeyword | .awaitKeyword =>
    advance
    if token == .tryKeyword then skipMark
    let operand ← nested .operand
    some <$> finish (.prefixOp token operand) pos
  | .operator | .exclamation | .ampersand | .lessThan | .greaterThan =>
    if ← beforeBlank then
      skipOperator
      some <$> finish (.identifier token) pos
    else
      advance
      let operand ← nested .operand
      some <$> finish (.prefixOp token operand) pos
  | .backslash =>
    advance
    let operand ← suffixedExpression nested
    some <$> finish (.prefixOp token operand) pos
  | _ => suffixedExpression nested

/-- `? then :`, and the operand after it. -/
def ternaryPart (nested : Readers) : Parse (List Nat) := do
  let pos ← position
  advance
  let whenTrue ←
    within (fun context => { context with noTrailingClosure := false }) (nested .expression)
  let _ ← expect .colon "':'"
  let ternary ← finish (.ternary whenTrue) pos
  let whenFalse ← prefixedExpression nested
  return ternary :: whenFalse.toList

/-- An infix operator and the operand after it. -/
def infixPart (nested : Readers) : Parse (List Nat) := do
  let operator ← operatorNode
  let operand ← prefixedExpression nested
  return operator :: operand.toList

/-- What continues a sequence of operands and operators; nothing at its end. -/
def sequencePart (nested : Readers) : Parse (List Nat) := do
  let k ← kind
  match k with
  | .question => if ← afterBlank then ternaryPart nested else return []
  | .asKeyword | .isKeyword => return [← castNode nested]
  | .arrow => infixPart nested
  | _ =>
    if k.isBinary then
      if ← isInfixHere then infixPart nested else return []
    else
      return []

/-- Operands and infix operators in a row; a single operand stands for itself. -/
def sequenceExpression (nested : Readers) : Parse (Option Nat) := do
  let pos ← position
  let first ← prefixedExpression nested
  let others ← loop [] fun nodes => do
    let more ← sequencePart nested
    return if more.isEmpty then .done nodes else .yield (nodes ++ more)
  if others.isEmpty then
    return first
  else
    some <$> finish (.sequence (first.toList ++ others)) pos

/-- Stands in for an expression that is not there. -/
def missingExpression : Parse (Option Nat) := some <$> missing "Expression"

/-- An expression. -/
def expression (nested : Readers) : Parse (Option Nat) :=
  guarded missingExpression (sequenceExpression nested)

/-- The operand of a unary operator. -/
def operand (nested : Readers) : Parse (Option Nat) :=
  guarded missingExpression (prefixedExpression nested)

end SelfCapture.Grammar
