import SelfCapture.Grammar.Argument
import SelfCapture.Grammar.Block
import SelfCapture.Grammar.DeclarationStart
import SelfCapture.Grammar.TypeName

/-! # Declarations

  Types, functions, variables, enum cases and type aliases.  Imports,
  associated types, operators and precedence groups are skipped.

  A declaration starts with its first attribute or modifier, whose offset
  is passed to the rules below as `pos`.
-/

namespace SelfCapture.Grammar

open Token (Kind)

/-! ## Section 1: Parameters -/

/-- `label name: T = value`, with attributes before it skipped. -/
def parameter (nested : Readers) : Parse Nat := do
  let pos ← position
  skipAttributes
  let first ← nameOr "Parameter name"
  let second ← name?
  let type ← if ← expect .colon "':'" then some <$> nested .type else pure none
  skipVariadicMark
  let default ← initialValue nested
  finish (.parameter first second type default) pos

/-- The parameters of a function, parentheses included. -/
def parameterClause (nested : Readers) : Parse (List Nat) := do
  if ← expect .openParen "'('" then
    let parameters ← unrestricted do
      separatedUntil .closeParen do
        return [← parameter nested]
    closeList .openParen .closeParen "')'"
    return parameters
  else
    return []

/-- The type after `->`, if there is one. -/
def resultClause (nested : Readers) : Parse (Option Nat) := do
  if ← accept .arrow then some <$> nested .type else return none

/-! ## Section 2: Accessors -/

/-- Names of the accessors of a property or subscript. -/
def accessorNames : List String :=
  ["get", "set", "willSet", "didSet", "_read", "_modify", "unsafeAddress", "unsafeMutableAddress"]

/-- Modifiers allowed before the name of an accessor. -/
def accessorModifiers : List String := ["mutating", "nonmutating", "__consuming"]

/-- Skips attributes and modifiers before the name of an accessor. -/
def skipAccessorModifiers : Parse Unit := do
  skipAttributes
  repeatWhile (isOneOf accessorModifiers) advance

/-- Whether the brace at hand opens a list of accessors rather than the body of a getter. -/
def opensAccessors : Parse Bool :=
  lookAhead do
    advance
    skipAccessorModifiers
    let takesParameter ← isOneOf ["set", "willSet", "didSet"]
    if ← isOneOf accessorNames then
      advance
      if ← afterLineBreak then
        return true
      else
        match ← kind with
        | .openBrace | .closeBrace | .identifier | .throwsKeyword => return true
        | .openParen => return takesParameter
        | _ => return false
    else
      return false

/-- The parameter of a setter or observer, parentheses included. -/
def accessorParameter : Parse (List Nat) := do
  if ← isAt .openParen then
    let pos ← position
    advance
    let parameters ←
      if ← isName then
        let first ← name
        pure [← finish (.parameter first none none none) pos]
      else
        pure []
    let _ ← expect .closeParen "')'"
    return parameters
  else
    return []

/-- One accessor; whatever else stands there is reported. -/
def accessor (nested : Readers) : Parse (List Nat) := do
  let pos ← position
  skipAccessorModifiers
  if ← isName then
    let name ← name
    let parameters ← accessorParameter
    let _ ← skipEffects
    let body ← functionBody nested
    return [← finish (.functionDecl .accessor name parameters none body) pos]
  else
    reportExpected "Accessor"
    return []

/-- `{ get { } set(value) { } }` or the body of a getter. -/
def accessorBlock (nested : Readers) : Parse Nat := do
  if ← opensAccessors then
    let pos ← position
    advance
    let accessors ← gatherWhile (return !(← isAt .closeBrace) && !(← atEnd)) do
      let before ← position
      let accessors ← accessor nested
      if (← position) == before && !(← atEnd) then advance
      return accessors
    let _ ← expect .closeBrace "'\x7d'"
    finish (.block accessors) pos
  else
    block nested

/-! ## Section 3: Functions -/

/-- Kinds of which the name of an operator function is made. -/
def inOperatorName : Kind → Bool
  | .operator | .lessThan | .greaterThan | .equals | .exclamation | .question | .ampersand => true
  | _ => false

/-- The name of a function: an identifier, or an operator such as `==`. -/
def functionName : Parse Nat := do
  if ← isName then
    name
  else if inOperatorName (← kind) then
    let pos ← position
    advance
    repeatWhile (return inOperatorName (← kind) && !(← afterBlank)) advance
    finish (.identifier .operator) pos
  else
    missing "Identifier"

/-- `func name<T>(parameters) throws -> R where ... { }` -/
def functionDeclaration (nested : Readers) (pos : Nat) : Parse Nat := do
  advance
  let name ← functionName
  skipGenerics
  let parameters ← parameterClause nested
  let _ ← skipEffects
  let result ← resultClause nested
  skipWhereClause
  let body ← functionBody nested
  finish (.functionDecl .function name parameters result body) pos

/-- `init?<T>(parameters) throws where ... { }` -/
def initializerDeclaration (nested : Readers) (pos : Nat) : Parse Nat := do
  let name ← name
  if ((← isAt .question) || (← isAt .exclamation)) && !(← afterBlank) then advance
  skipGenerics
  let parameters ← parameterClause nested
  let _ ← skipEffects
  skipWhereClause
  let body ← functionBody nested
  finish (.functionDecl .initializer name parameters none body) pos

/-- `deinit { }` -/
def deinitializerDeclaration (nested : Readers) (pos : Nat) : Parse Nat := do
  let name ← name
  let body ← functionBody nested
  finish (.functionDecl .deinitializer name [] none body) pos

/-- `subscript<T>(parameters) -> R where ... { accessors }` -/
def subscriptDeclaration (nested : Readers) (pos : Nat) : Parse Nat := do
  let name ← name
  skipGenerics
  let parameters ← parameterClause nested
  let result ← resultClause nested
  skipWhereClause
  let body ← if ← isAt .openBrace then some <$> accessorBlock nested else pure none
  finish (.functionDecl .subscript name parameters result body) pos

/-! ## Section 4: Types -/

/-- The types after the colon of a type declaration. -/
def inheritanceClause (nested : Readers) : Parse (List Nat) := do
  if ← accept .colon then
    separated do
      return [← nested .type]
  else
    return []

/-- The members of a type, braces included. -/
def memberBlock (nested : Readers) : Parse (List Nat) := do
  if ← isAt .openBrace then
    statementsInBraces nested fun _ => { noTrailingClosure := false, inTypeBody := true }
  else
    reportExpected "'\x7b'"
    return []

/-- `class Name<T>: Inherited where ... { members }`, or an extension of a type. -/
def typeDeclaration (nested : Readers) (sort : TypeSort) (pos : Nat) : Parse Nat := do
  advance
  let name ← if sort == .extension then nested .type else nameOr "Identifier"
  skipGenerics
  let inherits ← inheritanceClause nested
  skipWhereClause
  let members ← memberBlock nested
  finish (.typeDecl sort name inherits members) pos

/-- `typealias Name<T> = Type` -/
def typeAliasDeclaration (nested : Readers) (pos : Nat) : Parse Nat := do
  advance
  let name ← nameOr "Identifier"
  skipGenerics
  let type ← if ← expect .equals "'='" then some <$> nested .type else pure none
  finish (.typeAlias name type) pos

/-! ## Section 5: Variables and enum cases -/

/-- `pattern: T = value { accessors }` -/
def patternBinding (nested : Readers) : Parse Nat := do
  let pos ← position
  let pattern ← bindingPattern nested
  let type ← typeClause nested
  let initial ← initialValue nested
  let hasAccessors ←
    if ← isAt .openBrace then
      if initial.isNone then pure true else opensObservers
    else
      pure false
  let accessors ← if hasAccessors then some <$> accessorBlock nested else pure none
  finish (.patternBinding pattern type initial accessors) pos

/-- `let bindings` or `var bindings`. -/
def variableDeclaration (nested : Readers) (pos : Nat) : Parse Nat := do
  advance
  let bindings ← separated do
    return [← patternBinding nested]
  finish (.variableDecl bindings) pos

/-- `name(associated values) = raw value` -/
def enumCaseElement (nested : Readers) : Parse Nat := do
  let pos ← position
  let name ← nameOr "Identifier"
  let associated ← if ← isAt .openParen then some <$> tupleType nested else pure none
  let raw ← initialValue nested
  finish (.enumCaseElement name associated raw) pos

/-- `case elements` -/
def enumCaseDeclaration (nested : Readers) (pos : Nat) : Parse Nat := do
  advance
  let elements ← separated do
    return [← enumCaseElement nested]
  finish (.enumCase elements) pos

/-! ## Section 6: Any declaration -/

/-- Skips `precedencegroup Name { ... }`. -/
def skipPrecedenceGroup : Parse Unit := do
  advance
  if ← isName then advance
  skipBalanced .openBrace .closeBrace

/-- A declaration; those that are skipped leave no node. -/
def declaration (nested : Readers) : Parse (Option Nat) := do
  let pos ← position
  skipModifiers
  match ← kind with
  | .classKeyword => some <$> typeDeclaration nested .classType pos
  | .structKeyword => some <$> typeDeclaration nested .struct pos
  | .enumKeyword => some <$> typeDeclaration nested .enum pos
  | .protocolKeyword => some <$> typeDeclaration nested .protocol pos
  | .extensionKeyword => some <$> typeDeclaration nested .extension pos
  | .funcKeyword => some <$> functionDeclaration nested pos
  | .initKeyword => some <$> initializerDeclaration nested pos
  | .deinitKeyword => some <$> deinitializerDeclaration nested pos
  | .subscriptKeyword => some <$> subscriptDeclaration nested pos
  | .varKeyword | .letKeyword => some <$> variableDeclaration nested pos
  | .caseKeyword => some <$> enumCaseDeclaration nested pos
  | .typealiasKeyword => some <$> typeAliasDeclaration nested pos
  | .importKeyword | .associatedtypeKeyword | .operatorKeyword =>
    skipLine
    return none
  | .precedencegroupKeyword =>
    skipPrecedenceGroup
    return none
  | _ =>
    if ← isWord "actor" then
      some <$> typeDeclaration nested .actor pos
    else
      reportExpected "Declaration"
      return none

end SelfCapture.Grammar
